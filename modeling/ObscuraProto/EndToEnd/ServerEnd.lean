import ObscuraProto.EndToEnd.Words
import ObscuraProto.WsServer.Streams

/-
  The server end of an established connection.

  What each call and each received payload does to a server
  that has a ready session for the connection: the packet
  that goes out, and what of the requests and the streams is
  changed by it.

  Key definitions include:
    * `WsServer.sentOn`, `WsServer.heardOn`
    * `WsServer.Steady`

  Key theorems include:
    * `WsServer.asyncRequest_ready`
    * `WsServer.startStream_ready`
    * `WsServer.streamCall_ready`
    * `WsServer.onMessage_carried`
    * `WsServer.dispatch_request`, `WsServer.dispatch_plain`
-/

namespace ObscuraProto

open Effectful EndToEnd MalformedPayloads

namespace WsServer

/- The server after one more encryption for the connection. -/
def sentOn
    (hdl : Hdl)
    (isAuth : Bool)
    (state : ConnectionState)
    (w : WsServer) : WsServer :=
  { w with
    sessionTable :=
      w.sessionTable.store isAuth hdl state.afterSend }

/- What neither sends nor messages change. -/
structure Steady (w w' : WsServer) : Prop where
  config : w'.config = w.config
  dispatchers : w'.dispatchers = w.dispatchers
  anonDispatchers : w'.anonDispatchers = w.anonDispatchers
  incoming :
    w'.incomingStreamHandler = w.incomingStreamHandler

theorem Steady.trans
    {w w' w'' : WsServer}
    (hFirst : Steady w w')
    (hSecond : Steady w' w'') :
    Steady w w'' where
  config := hSecond.config.trans hFirst.config
  dispatchers :=
    hSecond.dispatchers.trans hFirst.dispatchers
  anonDispatchers :=
    hSecond.anonDispatchers.trans hFirst.anonDispatchers
  incoming := hSecond.incoming.trans hFirst.incoming

theorem Steady.dispatchersOf
    {w w' : WsServer}
    (hSteady : Steady w w')
    (isAuth : Bool) :
    w'.dispatchersOf isAuth = w.dispatchersOf isAuth := by
  unfold WsServer.dispatchersOf
  rw [hSteady.dispatchers, hSteady.anonDispatchers]

variable {S : Sodium}
variable {w : WsServer}
variable {hdl : Hdl}
variable {isAuth : Bool}
variable {state : ConnectionState}
variable {keys : SessionKeys}

/- The table is searched for what is stored in it. -/
theorem found_store
    (hFound : Found hdl isAuth state w)
    (state' : ConnectionState)
    {w' : WsServer}
    (hTable :
      w'.sessionTable =
        w.sessionTable.store isAuth hdl state') :
    Found hdl isAuth state' w' where
  stored := by
    rw [hTable, SessionTable.table_store_self]
    simp
  first := by
    intro hAnon
    subst hAnon
    rw [hTable]
    exact hFound.first rfl

------------------------------------------------------------
-- Sending
------------------------------------------------------------

theorem ready_of_found
    (hFound : Found hdl isAuth state w)
    (hReady : state.session.Ready keys) :
    w.sessionTable.ready hdl = some (isAuth, state) := by
  have hHere :
      w.sessionTable.readyIn isAuth hdl = some state :=
    SessionTable.readyIn_eq_some.mpr
      ⟨hFound.stored, hReady.complete⟩
  unfold SessionTable.ready
  cases isAuth with
  | true => rw [hHere]
  | false =>
      have hNone : w.sessionTable.readyIn true hdl = none := by
        have hAbsent :
            (w.sessionTable.table true)[hdl]? = none :=
          hFound.first rfl
        simp only [SessionTable.readyIn, hAbsent]
      rw [hNone, hHere]

theorem send_ready
    (hFound : Found hdl isAuth state w)
    (hReady : state.session.Ready keys)
    (nonce : Nonce)
    (payload : Payload) :
    (send S nonce hdl payload).run w =
      { result := .ok ()
        effects :=
          [.transmit hdl
            (state.nextPacket S nonce payload keys)]
        state := w.sentOn hdl isAuth state } := by
  simp only [send, sessionSection, Action.run_atomic,
    SessionTable.send, ready_of_found hFound hReady,
    SessionTable.transmit_ready S hReady]
  rfl

theorem sendAnonymous_ready
    (hFound : Found hdl false state w)
    (hReady : state.session.Ready keys)
    (nonce : Nonce)
    (payload : Payload) :
    (sendAnonymous S nonce hdl payload).run w =
      { result := .ok ()
        effects :=
          [.transmit hdl
            (state.nextPacket S nonce payload keys)]
        state := w.sentOn hdl false state } := by
  have hHere :
      w.sessionTable.readyIn false hdl = some state :=
    SessionTable.readyIn_eq_some.mpr
      ⟨hFound.stored, hReady.complete⟩
  simp only [sendAnonymous, sessionSection, Action.run_atomic,
    SessionTable.sendAnonymous, hHere,
    SessionTable.transmit_ready S hReady]
  rfl

/- The send functions of the streams of a connection. -/
def SendsOn (hdl : Hdl) (isAuth : Bool) : ServerSendFn → Prop
| .send hdl' => hdl' = hdl
| .sendAnonymous hdl' => hdl' = hdl ∧ isAuth = false

theorem runSendFn_ready
    {sendFn : ServerSendFn}
    (hFound : Found hdl isAuth state w)
    (hReady : state.session.Ready keys)
    (hSends : SendsOn hdl isAuth sendFn)
    (nonce : Nonce)
    (payload : Payload) :
    (runSendFn S nonce payload sendFn).run w =
      { result := .ok ()
        effects :=
          [.transmit hdl
            (state.nextPacket S nonce payload keys)]
        state := w.sentOn hdl isAuth state } := by
  cases sendFn with
  | send hdl' =>
      cases hSends
      exact send_ready hFound hReady nonce payload
  | sendAnonymous hdl' =>
      rcases hSends with ⟨hHdl, hAnon⟩
      subst hHdl
      subst hAnon
      exact sendAnonymous_ready hFound hReady nonce payload

/- The request is registered under the next number, and sent. -/
theorem asyncRequest_ready
    {payload request : Payload}
    (hFound : Found hdl isAuth state w)
    (hReady : state.session.Ready keys)
    (hBuild :
      requestPayload w.nextRequestId payload = .ok request)
    (input : RequestInput)
    (timeoutMs : UInt32) :
    ∃ deadline,
      (call S (.asyncRequest input hdl payload timeoutMs)).run
          w =
        { result := .ok ()
          effects :=
            [.transmit hdl
              (state.nextPacket S input.nonce request keys)]
          state :=
            { w.sentOn hdl isAuth state with
              nextRequestId := w.nextRequestId + 1
              requests :=
                w.requests.register hdl w.nextRequestId
                  input.promise deadline } } := by
  let effectiveTimeout :=
    w.config.resolveRequestTimeout timeoutMs
  let deadline :=
    if effectiveTimeout > 0 then
      some (afterMs input.clock effectiveTimeout)
    else
      none
  let registered : WsServer :=
    { w with
      nextRequestId := w.nextRequestId + 1
      requests :=
        w.requests.register hdl w.nextRequestId input.promise
          deadline }
  have hTake :
      takeRequestId.run w =
        { result := .ok w.nextRequestId
          effects := []
          state :=
            { w with nextRequestId := w.nextRequestId + 1 } } :=
    rfl
  have hRegister :
      (requestSection (fun t =>
          ([], t.register hdl w.nextRequestId input.promise
            deadline))).run
          { w with nextRequestId := w.nextRequestId + 1 } =
        { result := .ok ()
          effects := []
          state := registered } :=
    rfl
  have hStill : Found hdl isAuth state registered :=
    ⟨hFound.stored, hFound.first⟩
  have hSend :
      (Action.catchAll (send S input.nonce hdl request)
          (fun e => do
            requestSection (fun t =>
              t.fail hdl w.nextRequestId e)
            Action.throw e)).run registered =
        { result := .ok ()
          effects :=
            [.transmit hdl
              (state.nextPacket S input.nonce request keys)]
          state := registered.sentOn hdl isAuth state } := by
    rw [Action.run_catchAll,
      send_ready hStill hReady input.nonce request]
  have hRequest :
      (asyncRequest S input hdl payload timeoutMs).run w =
        { result := .ok input.promise
          effects :=
            [.transmit hdl
              (state.nextPacket S input.nonce request keys)]
          state := registered.sentOn hdl isAuth state } := by
    have hSome :
        (w.sessionTable.ready hdl).isNone = false := by
      rw [ready_of_found hFound hReady]
      rfl
    unfold asyncRequest
    rw [Action.run_get_bind, if_neg (by simp [hSome]),
      Action.run_bind_ok hTake, hBuild,
      Action.run_ofExcept_ok_bind]
    dsimp only
    rw [Action.run_bind_ok hRegister,
      Action.run_bind_ok hSend]
    rfl
  refine ⟨deadline, ?_⟩
  unfold call
  rw [Action.run_bind_ok hRequest]
  rfl

/- The next stream is registered, and announced. -/
theorem announce_ready
    (opCode : Option OpCode)
    {announced : Option OpCode}
    {start : Payload}
    (hFound : Found hdl isAuth state w)
    (hReady : state.session.Ready keys)
    (hBuild :
      streamStartPayload w.config.opcodes
          (w.nextOutgoingStreamId * 2 + 1) announced =
        .ok start)
    (nonce : Nonce) :
    let registered : WsServer :=
      { w with
        nextOutgoingStreamId := w.nextOutgoingStreamId + 1
        streams :=
          (w.streams.register hdl
            { streamId := w.nextOutgoingStreamId * 2 + 1
              sendFn := .send hdl
              opCode := opCode }).2 }
    (do
        let start ←
          Action.ofExcept
            (streamStartPayload registered.config.opcodes
              (w.nextOutgoingStreamId * 2 + 1) announced)
        send S nonce hdl start
        return w.streams.objects.length :
          ServerAction StreamRef).run registered =
      { result := .ok w.streams.objects.length
        effects :=
          [.transmit hdl
            (state.nextPacket S nonce start keys)]
        state := registered.sentOn hdl isAuth state } := by
  intro registered
  have hStill : Found hdl isAuth state registered :=
    ⟨hFound.stored, hFound.first⟩
  have hStart :
      streamStartPayload registered.config.opcodes
          (w.nextOutgoingStreamId * 2 + 1) announced =
        .ok start :=
    hBuild
  rw [hStart, Action.run_ofExcept_ok_bind,
    Action.run_bind_ok (send_ready hStill hReady nonce start)]
  rfl

theorem startStream_ready
    {start : Payload}
    (hFound : Found hdl isAuth state w)
    (hReady : state.session.Ready keys)
    (hBuild :
      streamStartPayload w.config.opcodes
          (w.nextOutgoingStreamId * 2 + 1) none = .ok start)
    (nonce : Nonce) :
    (call S (.startStream nonce hdl)).run w =
      { result := .ok ()
        effects :=
          [.transmit hdl
            (state.nextPacket S nonce start keys)]
        state :=
          { w.sentOn hdl isAuth state with
            nextOutgoingStreamId := w.nextOutgoingStreamId + 1
            streams :=
              (w.streams.register hdl
                { streamId := w.nextOutgoingStreamId * 2 + 1
                  sendFn := .send hdl
                  opCode := none }).2 } } := by
  have hAnnounce :=
    announce_ready (S := S) none hFound hReady hBuild nonce
  have hStart :
      (startStream S nonce hdl).run w =
        { result := .ok w.streams.objects.length
          effects :=
            [.transmit hdl
              (state.nextPacket S nonce start keys)]
          state :=
            { w.sentOn hdl isAuth state with
              nextOutgoingStreamId :=
                w.nextOutgoingStreamId + 1
              streams :=
                (w.streams.register hdl
                  { streamId := w.nextOutgoingStreamId * 2 + 1
                    sendFn := .send hdl
                    opCode := none }).2 } } :=
    hAnnounce
  unfold call
  rw [Action.run_bind_ok hStart]
  rfl

theorem version_of_found
    (hFound : Found hdl isAuth state w) :
    w.sessionTable.selectedVersion hdl =
      some state.session.getSelectedVersion := by
  have hStored := hFound.stored
  unfold SessionTable.selectedVersion
  cases isAuth with
  | true =>
      rw [show w.sessionTable.sessions[hdl]? = _ from hStored]
  | false =>
      rw [hFound.first rfl]
      simp only [show w.sessionTable.anonSessions[hdl]? = _
        from hStored]

/- The code is announced if the version of the peer has it. -/
theorem startStreamWith_ready
    {start : Payload}
    {streamOpCode : OpCode}
    (hFound : Found hdl isAuth state w)
    (hReady : state.session.Ready keys)
    (hBuild :
      streamStartPayload w.config.opcodes
          (w.nextOutgoingStreamId * 2 + 1)
          (startStreamOpCode state.session.getSelectedVersion
            streamOpCode) = .ok start)
    (nonce : Nonce) :
    (call S (.startStreamWith nonce hdl streamOpCode)).run w =
      { result := .ok ()
        effects :=
          [.transmit hdl
            (state.nextPacket S nonce start keys)]
        state :=
          { w.sentOn hdl isAuth state with
            nextOutgoingStreamId := w.nextOutgoingStreamId + 1
            streams :=
              (w.streams.register hdl
                { streamId := w.nextOutgoingStreamId * 2 + 1
                  sendFn := .send hdl
                  opCode := some streamOpCode }).2 } } := by
  have hVersion := version_of_found hFound
  have hAnnounce :=
    announce_ready (S := S) (some streamOpCode)
      hFound hReady hBuild nonce
  have hTake :
      takeStreamId.run w =
        { result := .ok (w.nextOutgoingStreamId * 2 + 1)
          effects := []
          state :=
            { w with
              nextOutgoingStreamId :=
                w.nextOutgoingStreamId + 1 } } :=
    rfl
  have hRegister :
      (registerStream hdl
          { streamId := w.nextOutgoingStreamId * 2 + 1
            sendFn := .send hdl
            opCode := some streamOpCode }).run
          { w with
            nextOutgoingStreamId :=
              w.nextOutgoingStreamId + 1 } =
        { result := .ok w.streams.objects.length
          effects := []
          state :=
            { w with
              nextOutgoingStreamId :=
                w.nextOutgoingStreamId + 1
              streams :=
                (w.streams.register hdl
                  { streamId := w.nextOutgoingStreamId * 2 + 1
                    sendFn := .send hdl
                    opCode := some streamOpCode }).2 } } :=
    rfl
  have hStart :
      (startStreamWith S nonce hdl streamOpCode).run w =
        { result := .ok w.streams.objects.length
          effects :=
            [.transmit hdl
              (state.nextPacket S nonce start keys)]
          state :=
            { w.sentOn hdl isAuth state with
              nextOutgoingStreamId :=
                w.nextOutgoingStreamId + 1
              streams :=
                (w.streams.register hdl
                  { streamId := w.nextOutgoingStreamId * 2 + 1
                    sendFn := .send hdl
                    opCode := some streamOpCode }).2 } } := by
    unfold startStreamWith
    rw [Action.run_bind_ok hTake, Action.run_bind_ok hRegister,
      Action.run_get_bind]
    simp only [hVersion]
    exact hAnnounce
  unfold call
  rw [Action.run_bind_ok hStart]
  rfl

/- What is put on a stream of the connection is sent. -/
theorem streamCall_ready
    {build : Stream ServerSendFn → Except Exception Payload}
    {ref : StreamRef}
    {stream : Stream ServerSendFn}
    {payload : Payload}
    (hFound : Found hdl isAuth state w)
    (hReady : state.session.Ready keys)
    (hOwner : w.hasOwner = true)
    (hStream : w.streams.objects[ref]? = some stream)
    (hSends : SendsOn hdl isAuth stream.sendFn)
    (hBuild : build stream = .ok payload)
    (nonce : Nonce) :
    (streamCall S nonce build ref).run w =
      { result := .ok ()
        effects :=
          [.transmit hdl
            (state.nextPacket S nonce payload keys)]
        state := w.sentOn hdl isAuth state } := by
  unfold streamCall
  rw [Action.run_get_bind]
  simp only [hStream, hOwner, if_true]
  rw [Action.run_catchAll_pure, hBuild,
    Action.run_ofExcept_ok_bind,
    runSendFn_ready hFound hReady hSends nonce payload]
  rfl

------------------------------------------------------------
-- Receiving
------------------------------------------------------------

/- The server after a packet of the connection was opened. -/
def heardOn
    (hdl : Hdl)
    (isAuth : Bool)
    (rl : RateLimiter)
    (state : ConnectionState)
    (w : WsServer) : WsServer :=
  { w with
    rateLimiter := rl
    sessionTable := w.sessionTable.store isAuth hdl state }

/- The session is stored as the decryption has left it. -/
theorem receive_carried
    {input : IoInput}
    {packet : Bytes}
    {payload : Payload}
    {session : Session}
    (hFound : Found hdl isAuth state w)
    (hRate : RateAllows input state w)
    (hOpens :
      state.session.decryptPacket S packet =
        (.ok payload, session))
    (hFits : w.config.payloadTooLarge payload = false) :
    ∃ rl,
      (receive S input hdl packet).run w =
        { result := .ok (.decrypted isAuth payload)
          effects := []
          state :=
            w.heardOn hdl isAuth rl
              { state with
                session := session
                lastActivityMs := nowMs (input.clock 2) } } := by
  have hResult :
      (state.session.decryptPacket S packet).1 =
        .ok payload := by
    rw [hOpens]
  rcases receive_run_decrypted S hFound hRate hResult hFits
    with ⟨rl, counter, hReceive⟩
  have hSession :
      session =
        { state.session with recvCounter := counter } := by
    have hSpec := (receive_spec S input hdl packet w).1
    rw [hReceive] at hSpec
    rcases hSpec with ⟨_, hNone⟩ |
      ⟨isAuth', opened, hAccepts, hReports⟩
    · exact (hNone isAuth payload rfl).elim
    · rcases hReports.decrypted isAuth payload rfl with
        ⟨hSide, _⟩
      subst hSide
      rcases hAccepts.connection with
        ⟨state', keys, lastActivityMs, hStored, hReady,
          hDecrypt, hNewer, hTable⟩
      rw [hFound.stored] at hStored
      cases hStored
      have hEntry :=
        congrArg
          (fun t : SessionTable => (t.table isAuth)[hdl]?)
          hTable
      simp only [SessionTable.table_store_self,
        Std.ExtTreeMap.getElem?_insert_self,
        Option.some.injEq, ConnectionState.received,
        ConnectionState.mk.injEq, Session.mk.injEq]
        at hEntry
      rw [Session.decryptPacket_ready S hReady, hDecrypt]
        at hOpens
      have hNot :
          ¬ opened.counter ≤ state.session.recvCounter :=
        UInt64.not_le.mpr hNewer
      simp only [hNot, if_false, Prod.mk.injEq] at hOpens
      rw [← hOpens.2]
      simp [hEntry]
  refine ⟨rl, ?_⟩
  rw [hReceive, hSession]
  rfl

theorem read_carried
    {words : Words}
    {payload : Payload}
    {session : Session}
    {packet : Bytes}
    {input : IoInput}
    (hDistinct : w.config.opcodes.Distinct)
    (hFound : Found hdl isAuth state w)
    (hRate : RateAllows input state w)
    (hCarries :
      Carries w.config
        (w.dispatchersOf isAuth).requestHandlers words payload)
    (hOpens :
      state.session.decryptPacket S packet =
        (.ok payload, session)) :
    readMessage S input hdl { payload := packet } w =
      some (isAuth, asMessage payload words) := by
  rcases receive_carried hFound hRate hOpens hCarries.fits
    with ⟨rl, hReceive⟩
  have hParse := hCarries.means.parse hDistinct
  unfold readMessage
  simp only [hReceive, hParse, if_true]

/- A carried payload is opened, read and dispatched. -/
theorem onMessage_carried
    {words : Words}
    {payload : Payload}
    {session : Session}
    {packet : Bytes}
    {input : IoInput}
    (hDistinct : w.config.opcodes.Distinct)
    (hFound : Found hdl isAuth state w)
    (hRate : RateAllows input state w)
    (hCarries :
      Carries w.config
        (w.dispatchersOf isAuth).requestHandlers words payload)
    (hOpens :
      state.session.decryptPacket S packet =
        (.ok payload, session)) :
    ∃ rl,
      let heard :=
        w.heardOn hdl isAuth rl
          { state with
            session := session
            lastActivityMs := nowMs (input.clock 2) }
      let o :=
        (dispatchMessage S input hdl isAuth
          (asMessage payload words)).run heard
      (onMessage S input hdl { payload := packet }).run w =
        { result := .ok ()
          effects := o.effects
          state := o.state } := by
  rcases receive_carried hFound hRate hOpens hCarries.fits
    with ⟨rl, hReceive⟩
  refine ⟨rl, ?_⟩
  dsimp only
  have hRead :=
    read_carried hDistinct hFound hRate hCarries hOpens
  rw [onMessage_of_read S hRead]
  simp only [hReceive, List.nil_append]

/- The handler is called, and its answer is sent back. -/
theorem dispatch_request
    {id : UInt32}
    {payload sent answer response : Payload}
    {handler : HandlerId}
    (hFound : Found hdl isAuth state w)
    (hReady : state.session.Ready keys)
    (hSent :
      sent =
        { opCode := payload.opCode
          parameters :=
            PayloadBuilder.field (htonl id) ++
              payload.parameters })
    (hHandler :
      (w.dispatchersOf isAuth).requestHandlers[
          payload.opCode]? = some (some handler))
    {input : IoInput}
    (hAnswer : input.requestAnswer = .ok answer)
    (hBuild :
      responsePayload w.config.opcodes id answer =
        .ok response) :
    ∃ reader,
      reader.remaining = payload.parameters ∧
        (dispatchPayload S input hdl isAuth sent).run w =
          { result := .ok ()
            effects :=
              [.invoke (.request handler hdl reader),
                .transmit hdl
                  (state.nextPacket S input.nonce response
                    keys)]
            state := w.sentOn hdl isAuth state } := by
  rcases read_request id payload with ⟨reader, hRead, hRest⟩
  subst hSent
  refine ⟨reader, hRest, ?_⟩
  have hRespond :
      (if isAuth then
        sendResponse S input.nonce hdl id answer
      else
        sendAnonymousResponse S input.nonce hdl id
          answer).run w =
        { result := .ok ()
          effects :=
            [.transmit hdl
              (state.nextPacket S input.nonce response keys)]
          state := w.sentOn hdl isAuth state } := by
    cases isAuth with
    | true =>
        rw [if_pos rfl]
        unfold sendResponse
        rw [Action.run_get_bind, hBuild,
          Action.run_ofExcept_ok_bind]
        exact send_ready hFound hReady input.nonce response
    | false =>
        rw [if_neg (by simp)]
        unfold sendAnonymousResponse
        rw [Action.run_get_bind, hBuild,
          Action.run_ofExcept_ok_bind]
        exact
          sendAnonymous_ready hFound hReady input.nonce
            response
  unfold dispatchPayload
  rw [Action.run_get_bind]
  simp only [hHandler, hRead, Action.run_ofExcept_ok_bind]
  unfold invoke
  rw [hAnswer, Action.bind_assoc, Action.run_emit_bind,
    Action.run_ofExcept_ok_bind, hRespond]

/- What is no request calls one of the other handlers. -/
theorem dispatch_plain
    (hdl : Hdl)
    {payload : Payload}
    (hHandler :
      (w.dispatchersOf isAuth).requestHandlers[
          payload.opCode]? = none)
    (input : IoInput) :
    ∃ result handler,
      (dispatchPayload S input hdl isAuth payload).run w =
        { result := result
          effects :=
            invocation handler (.payload · hdl payload)
          state := w } := by
  unfold dispatchPayload
  rw [Action.run_get_bind]
  simp only [hHandler]
  rw [invokeHandler_run_eq]
  exact ⟨_, _, rfl⟩

end WsServer

end ObscuraProto
