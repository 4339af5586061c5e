import ObscuraProto.EndToEnd.Words
import ObscuraProto.WsClient.Streams

/-
  The client end of an established connection.

  What each call and each received payload does to a client
  whose session is ready: the packet that goes out, and what
  of the requests and the streams is changed by it.

  Key definitions include:
    * `WsClient.afterSend`, `WsClient.nextPacket`
    * `WsClient.Steady`

  Key theorems include:
    * `WsClient.asyncRequest_ready`
    * `WsClient.startStream_ready`
    * `WsClient.streamCall_ready`
    * `WsClient.onMessage_carried`
    * `WsClient.dispatch_request`, `WsClient.dispatch_plain`
-/

namespace ObscuraProto

open Effectful EndToEnd

namespace WsClient

/- The client after one more encryption. -/
def afterSend (c : WsClient) : WsClient :=
  { c with
    session :=
      { c.session with
        sendCounter := c.session.sendCounter + 1 } }

/- What is handed over when a payload is sent. -/
def nextPacket
    (S : Sodium)
    (nonce : Nonce)
    (payload : Payload)
    (keys : SessionKeys)
    (c : WsClient) : Bytes :=
  Crypto.packet S nonce payload (c.session.sendCounter + 1)
    keys.tx

/- What neither sends nor messages change. -/
structure Steady (c c' : WsClient) : Prop where
  config : c'.config = c.config
  isConnected : c'.isConnected = c.isConnected
  dispatchers : c'.dispatchers = c.dispatchers
  incoming :
    c'.incomingStreamHandler = c.incomingStreamHandler

theorem steady_afterSend (c : WsClient) :
    Steady c c.afterSend :=
  ⟨rfl, rfl, rfl, rfl⟩

variable {S : Sodium}
variable {c : WsClient}
variable {keys : SessionKeys}

------------------------------------------------------------
-- Sending
------------------------------------------------------------

theorem send_ready
    {payload : Payload}
    (hConnected : c.isConnected = true)
    (hReady : c.session.Ready keys)
    (hFits : c.config.payloadTooLarge payload = false)
    (nonce : Nonce) :
    (send S nonce payload).run c =
      { result := .ok ()
        effects :=
          [.transmit c.connectionHdl
            (c.nextPacket S nonce payload keys)]
        state := c.afterSend } := by
  have hIsReady : c.isReady = true := by
    simp [isReady, hConnected, Session.isHandshakeComplete,
      hReady.complete]
  have hCheck : checkSend payload c = .ok () := by
    simp [checkSend, hIsReady, hFits]
  have hEncrypt :
      (encrypt S nonce payload).run c =
        { result := .ok (c.nextPacket S nonce payload keys)
          effects := []
          state := c.afterSend } := by
    simp only [encrypt, Action.run_atomic,
      Session.encryptPayload_ready S hReady]
    rfl
  unfold send
  rw [Action.run_get_bind, hCheck,
    Action.run_ofExcept_ok_bind, Action.run_catchAll_pure,
    Action.run_bind_ok hEncrypt]
  rfl

/- A payload is built first. -/
theorem build_send_ready
    {payload : Payload}
    {build : Except Exception Payload}
    (hConnected : c.isConnected = true)
    (hReady : c.session.Ready keys)
    (hBuild : build = .ok payload)
    (hFits : c.config.payloadTooLarge payload = false)
    (nonce : Nonce) :
    (do
        let payload ← Action.ofExcept build
        send S nonce payload : ClientAction Unit).run c =
      { result := .ok ()
        effects :=
          [.transmit c.connectionHdl
            (c.nextPacket S nonce payload keys)]
        state := c.afterSend } := by
  rw [hBuild, Action.run_ofExcept_ok_bind]
  exact send_ready hConnected hReady hFits nonce

/- The request is registered under the next number, and sent. -/
theorem asyncRequest_ready
    {payload request : Payload}
    (hConnected : c.isConnected = true)
    (hReady : c.session.Ready keys)
    (hBuild :
      requestPayload c.nextRequestId payload = .ok request)
    (hFits : c.config.payloadTooLarge request = false)
    (nonce : Nonce)
    (promise : PromiseId)
    (clock : TimePoint)
    (timeoutMs : UInt32) :
    ∃ watchdog,
      (call S
          (.asyncRequest nonce promise clock payload
            timeoutMs)).run c =
        { result := .ok ()
          effects :=
            [.transmit c.connectionHdl
              (c.nextPacket S nonce request keys)]
          state :=
            { c.afterSend with
              nextRequestId := c.nextRequestId + 1
              requests :=
                c.requests.register c.nextRequestId promise
                  (c.deadlineFor clock timeoutMs)
              watchdog := watchdog } } := by
  have hIsReady : c.isReady = true := by
    simp [isReady, hConnected, Session.isHandshakeComplete,
      hReady.complete]
  have hTake :
      takeRequestId.run c =
        { result := .ok c.nextRequestId
          effects := []
          state :=
            { c with nextRequestId := c.nextRequestId + 1 } } :=
    rfl
  have hWatchdog (c' : WsClient)
      (deadline : Option TimePoint) :
      ∃ watchdog,
        (ensureWatchdog deadline).run c' =
          { result := .ok ()
            effects := []
            state := { c' with watchdog := watchdog } } := by
    unfold ensureWatchdog
    split
    · exact ⟨_, rfl⟩
    · exact ⟨c'.watchdog, rfl⟩
  let registered : WsClient :=
    { c with
      nextRequestId := c.nextRequestId + 1
      requests :=
        c.requests.register c.nextRequestId promise
          (c.deadlineFor clock timeoutMs) }
  have hRegister :
      (requestSection (fun t =>
          ([], t.register c.nextRequestId promise
            (c.deadlineFor clock timeoutMs)))).run
          { c with nextRequestId := c.nextRequestId + 1 } =
        { result := .ok ()
          effects := []
          state := registered } :=
    rfl
  rcases hWatchdog registered (c.deadlineFor clock timeoutMs)
    with ⟨watchdog, hEnsure⟩
  have hSend :
      (Action.catchAll (send S nonce request)
          (fun e => do
            requestSection (fun t => t.fail c.nextRequestId e)
            Action.throw e)).run
          { registered with watchdog := watchdog } =
        { result := .ok ()
          effects :=
            [.transmit c.connectionHdl
              (c.nextPacket S nonce request keys)]
          state :=
            ({ registered with watchdog := watchdog } :
              WsClient).afterSend } := by
    rw [Action.run_catchAll,
      send_ready
        (c := { registered with watchdog := watchdog })
        hConnected hReady hFits nonce]
    rfl
  have hRequest :
      (asyncRequest S nonce promise clock payload
          timeoutMs).run c =
        { result := .ok promise
          effects :=
            [.transmit c.connectionHdl
              (c.nextPacket S nonce request keys)]
          state :=
            ({ registered with watchdog := watchdog } :
              WsClient).afterSend } := by
    unfold asyncRequest
    rw [Action.run_get_bind, if_neg (by simp [hIsReady]),
      Action.run_bind_ok hTake, hBuild,
      Action.run_ofExcept_ok_bind]
    dsimp only
    rw [Action.run_bind_ok hRegister,
      Action.run_bind_ok hEnsure, Action.run_bind_ok hSend]
    rfl
  refine ⟨watchdog, ?_⟩
  unfold call
  rw [Action.run_bind_ok hRequest]
  rfl

/- The next stream is registered, and announced. -/
theorem announce_ready
    (opCode : Option OpCode)
    (announced : WsClient → Option OpCode)
    {start : Payload}
    (hConnected : c.isConnected = true)
    (hReady : c.session.Ready keys)
    (hAnnounced :
      ∀ n t,
        announced
            { c with
              nextOutgoingStreamId := n, streams := t } =
          announced c)
    (hBuild :
      streamStartPayload c.config.opcodes
          (c.nextOutgoingStreamId * 2) (announced c) =
        .ok start)
    (hFits : c.config.payloadTooLarge start = false)
    (nonce : Nonce) :
    (do
        let streamId ← takeStreamId
        let stream ←
          registerStream
            { streamId := streamId
              sendFn := ()
              opCode := opCode }
        let w ← Action.get
        let start ←
          Action.ofExcept
            (streamStartPayload w.config.opcodes streamId
              (announced w))
        send S nonce start
        return stream : ClientAction StreamRef).run c =
      { result := .ok c.streams.objects.length
        effects :=
          [.transmit c.connectionHdl
            (c.nextPacket S nonce start keys)]
        state :=
          { c.afterSend with
            nextOutgoingStreamId := c.nextOutgoingStreamId + 1
            streams :=
              (c.streams.register
                { streamId := c.nextOutgoingStreamId * 2
                  sendFn := ()
                  opCode := opCode }).2 } } := by
  let registered : WsClient :=
    { c with
      nextOutgoingStreamId := c.nextOutgoingStreamId + 1
      streams :=
        (c.streams.register
          { streamId := c.nextOutgoingStreamId * 2
            sendFn := ()
            opCode := opCode }).2 }
  have hTake :
      takeStreamId.run c =
        { result := .ok (c.nextOutgoingStreamId * 2)
          effects := []
          state :=
            { c with
              nextOutgoingStreamId :=
                c.nextOutgoingStreamId + 1 } } :=
    rfl
  have hRegister :
      (registerStream
          { streamId := c.nextOutgoingStreamId * 2
            sendFn := ()
            opCode := opCode }).run
          { c with
            nextOutgoingStreamId :=
              c.nextOutgoingStreamId + 1 } =
        { result := .ok c.streams.objects.length
          effects := []
          state := registered } :=
    rfl
  have hStart :
      streamStartPayload registered.config.opcodes
          (c.nextOutgoingStreamId * 2)
          (announced registered) = .ok start := by
    dsimp only [registered]
    rw [hAnnounced]
    exact hBuild
  have hSend :
      (send S nonce start).run registered =
        { result := .ok ()
          effects :=
            [.transmit c.connectionHdl
              (c.nextPacket S nonce start keys)]
          state := registered.afterSend } :=
    send_ready (c := registered) hConnected hReady hFits nonce
  rw [Action.run_bind_ok hTake, Action.run_bind_ok hRegister,
    Action.run_get_bind, hStart, Action.run_ofExcept_ok_bind,
    Action.run_bind_ok hSend]
  rfl

theorem startStream_ready
    {start : Payload}
    (hConnected : c.isConnected = true)
    (hReady : c.session.Ready keys)
    (hBuild :
      streamStartPayload c.config.opcodes
          (c.nextOutgoingStreamId * 2) none = .ok start)
    (hFits : c.config.payloadTooLarge start = false)
    (nonce : Nonce) :
    (call S (.startStream nonce)).run c =
      { result := .ok ()
        effects :=
          [.transmit c.connectionHdl
            (c.nextPacket S nonce start keys)]
        state :=
          { c.afterSend with
            nextOutgoingStreamId := c.nextOutgoingStreamId + 1
            streams :=
              (c.streams.register
                { streamId := c.nextOutgoingStreamId * 2
                  sendFn := ()
                  opCode := none }).2 } } := by
  have hStart :=
    announce_ready (S := S) none (fun _ => none) hConnected
      hReady (fun _ _ => rfl) hBuild hFits nonce
  unfold call startStream
  rw [Action.run_bind_ok hStart]
  rfl

/- The code is announced if the version of the peer has it. -/
theorem startStreamWith_ready
    {start : Payload}
    {streamOpCode : OpCode}
    (hConnected : c.isConnected = true)
    (hReady : c.session.Ready keys)
    (hBuild :
      streamStartPayload c.config.opcodes
          (c.nextOutgoingStreamId * 2)
          (startStreamOpCode c.session.getSelectedVersion
            streamOpCode) = .ok start)
    (hFits : c.config.payloadTooLarge start = false)
    (nonce : Nonce) :
    (call S (.startStreamWith nonce streamOpCode)).run c =
      { result := .ok ()
        effects :=
          [.transmit c.connectionHdl
            (c.nextPacket S nonce start keys)]
        state :=
          { c.afterSend with
            nextOutgoingStreamId := c.nextOutgoingStreamId + 1
            streams :=
              (c.streams.register
                { streamId := c.nextOutgoingStreamId * 2
                  sendFn := ()
                  opCode := some streamOpCode }).2 } } := by
  have hStart :=
    announce_ready (S := S) (some streamOpCode)
      (fun w =>
        startStreamOpCode w.session.getSelectedVersion
          streamOpCode)
      hConnected hReady (fun _ _ => rfl) hBuild hFits nonce
  unfold call startStreamWith
  rw [Action.run_bind_ok hStart]
  rfl

/- What is put on a stream of this client is sent. -/
theorem streamCall_ready
    {build : Stream Unit → Except Exception Payload}
    {ref : StreamRef}
    {stream : Stream Unit}
    {payload : Payload}
    (hConnected : c.isConnected = true)
    (hReady : c.session.Ready keys)
    (hOwner : c.hasOwner = true)
    (hStream : c.streams.objects[ref]? = some stream)
    (hBuild : build stream = .ok payload)
    (hFits : c.config.payloadTooLarge payload = false)
    (nonce : Nonce) :
    (streamCall S nonce build ref).run c =
      { result := .ok ()
        effects :=
          [.transmit c.connectionHdl
            (c.nextPacket S nonce payload keys)]
        state := c.afterSend } := by
  unfold streamCall
  rw [Action.run_get_bind]
  simp only [hStream, hOwner, if_true]
  rw [Action.run_catchAll_pure,
    build_send_ready hConnected hReady hBuild hFits nonce]
  rfl

------------------------------------------------------------
-- Receiving
------------------------------------------------------------

@[simp] theorem answered_ok (handler : Option HandlerId) :
    answered handler (.ok ()) = .ok () := by
  cases handler <;> rfl

/- A carried payload is opened, read and dispatched. -/
theorem onMessage_carried
    {words : Words}
    {payload : Payload}
    {session : Session}
    {packet : Bytes}
    (hDistinct : c.config.opcodes.Distinct)
    (hCarries :
      Carries c.config c.dispatchers.requestHandlers words
        payload)
    (hOpens :
      c.session.decryptPacket S packet = (.ok payload, session))
    {input : ClientInput}
    {effects : List ClientEffect}
    {c' : WsClient}
    (hRun :
      (dispatchMessage S input (asMessage payload words)).run
          { c with session := session } =
        { result := .ok (), effects := effects, state := c' }) :
    (onMessage S input { payload := packet }).run c =
      { result := .ok (), effects := effects, state := c' } := by
  have hParse := hCarries.means.parse hDistinct
  have hFits :
      ¬ c.config.payloadTooLarge payload = true := by
    rw [hCarries.fits]
    simp
  rw [SizeLimits.clientOnMessage_run S rfl hOpens input,
    Action.run_catchAll, if_neg hFits, dispatch_run]
  simp only [hParse, hRun]

/- The handler is called, and its answer is sent back. -/
theorem dispatch_request
    {id : UInt32}
    {payload sent answer response : Payload}
    {handler : HandlerId}
    (hConnected : c.isConnected = true)
    (hReady : c.session.Ready keys)
    (hSent :
      sent =
        { opCode := payload.opCode
          parameters :=
            PayloadBuilder.field (htonl id) ++
              payload.parameters })
    (hHandler :
      c.dispatchers.requestHandlers[payload.opCode]? =
        some (some handler))
    {input : ClientInput}
    (hAnswer : input.requestAnswer = .ok answer)
    (hBuild :
      responsePayload c.config.opcodes id answer =
        .ok response)
    (hFits : c.config.payloadTooLarge response = false) :
    ∃ reader,
      reader.remaining = payload.parameters ∧
        (dispatchPayload S input sent).run c =
          { result := .ok ()
            effects :=
              [.invoke (.request handler reader),
                .transmit c.connectionHdl
                  (c.nextPacket S input.nonce response keys)]
            state := c.afterSend } := by
  rcases read_request id payload with ⟨reader, hRead, hRest⟩
  subst hSent
  refine ⟨reader, hRest, ?_⟩
  have hRespond :
      (sendResponse S input.nonce id answer).run c =
        { result := .ok ()
          effects :=
            [.transmit c.connectionHdl
              (c.nextPacket S input.nonce response keys)]
          state := c.afterSend } := by
    unfold sendResponse
    rw [Action.run_get_bind]
    exact
      build_send_ready hConnected hReady hBuild hFits
        input.nonce
  unfold dispatchPayload
  rw [Action.run_get_bind]
  simp only [hHandler, hRead, Action.run_ofExcept_ok_bind]
  unfold invoke
  rw [hAnswer, Action.bind_assoc, Action.run_emit_bind,
    Action.run_ofExcept_ok_bind, hRespond]

theorem dispatch_plain
    {payload : Payload}
    (hHandler :
      c.dispatchers.requestHandlers[payload.opCode]? = none)
    {input : ClientInput}
    (hAnswer : input.callbackAnswer = .ok ()) :
    ∃ handler,
      (dispatchPayload S input payload).run c =
        { result := .ok ()
          effects := invocation handler (.payload · payload)
          state := c } := by
  unfold dispatchPayload
  rw [Action.run_get_bind]
  simp only [hHandler]
  rw [invokeHandler_run_eq, hAnswer, answered_ok]
  exact ⟨_, rfl⟩

end WsClient

end ObscuraProto
