import ObscuraProto.EndToEnd.Elsewhere
import ObscuraProto.EndToEnd.Ends

/-
  The server as the other end of the dialogue.

  One connection of the server is looked at.  Calls on it and
  packets from it are steps of its dialogue; calls and events
  of other connections are none.

  Key definitions include:
    * `WsServer.ending`, `WsServer.Up`
    * `WsServer.MayCall`, `WsServer.MayHear`
    * `WsServer.callSeen`, `WsServer.messageSeen`

  Key theorems include:
    * `WsServer.call_does`
    * `WsServer.onMessage_does`
    * `WsServer.elsewhere_does`
-/

namespace ObscuraProto

open Effectful EndToEnd Dialogue MalformedPayloads

/- The packets for one connection. -/
def ServerEffect.packet? (hdl : Hdl) :
    ServerEffect → Option Bytes
| .transmit hdl' packet =>
    if hdl' = hdl then some packet else none
| _ => none

/- A request handler is called, and gives an answer. -/
def ServerEffect.service?
    (answer : Except Exception Payload) :
    ServerEffect → Option Observation
| .invoke (.request handler _ reader) =>
    some (.served (some handler) reader.remaining answer)
| _ => none

/- A future gets its value, or an exception. -/
def ServerEffect.completion? :
    ServerEffect → Option Observation
| .complete completion => some (.completed completion)
| _ => none

def ServerEffect.incoming? :
    ServerEffect → Option (HandlerId × StreamRef)
| .invoke (.incomingStream handler stream) =>
    some (handler, stream)
| _ => none

namespace WsServer

def ending (hdl : Hdl) (w : WsServer) : Ending where
  pending := fun id => w.requests.pendingAt hdl id
  streams := fun streamId => w.streams.find hdl streamId
  objects := w.streams.objects.length
  nextRequestId := w.nextRequestId
  nextStreamId := w.nextOutgoingStreamId

/- The connection is there, on its terms. -/
structure Up
    (terms : Terms)
    (hdl : Hdl)
    (isAuth : Bool)
    (state : ConnectionState)
    (w : WsServer) : Prop where
  found : Found hdl isAuth state w
  config : w.config = terms.config
  handlers :
    (w.dispatchersOf isAuth).requestHandlers =
      terms.requestHandlers .server
  starts :
    ∀ opCode,
      startHandler isAuth opCode w =
        terms.startHandler .server opCode
  sends :
    ∀ streamId ref,
      w.streams.find hdl streamId = some ref →
        ∃ stream,
          w.streams.objects[ref]? = some stream ∧
            SendsOn hdl isAuth stream.sendFn

/-
  The object is a stream of the connection, and the wrapper
  is owned by a shared pointer: otherwise nothing is sent.
-/
def streamAt
    (hdl : Hdl)
    (w : WsServer)
    (ref : StreamRef) : Prop :=
  w.hasOwner = true ∧
    ∃ stream,
      w.streams.objects[ref]? = some stream ∧
        w.streams.find hdl stream.streamId = some ref

/- The code that a new stream is announced with. -/
def announced
    (hdl : Hdl)
    (opCode : OpCode)
    (w : WsServer) : Option OpCode :=
  (w.sessionTable.selectedVersion hdl).bind
    (fun version => startStreamOpCode version opCode)

/- The calls that are part of the dialogue. -/
def MayCall
    (terms : Terms)
    (hdl : Hdl)
    (isAuth : Bool)
    (w : WsServer) : PublicCall → Prop
| .asyncRequest _ hdl' payload _ =>
    hdl' = hdl ∧
      Asks terms.config (terms.requestHandlers .client) payload
| .send _ hdl' payload =>
    hdl' = hdl ∧
      Tells terms.config (terms.requestHandlers .client)
        payload
| .sendAnonymous _ hdl' payload =>
    (hdl' = hdl ∧ isAuth = false) ∧
      Tells terms.config (terms.requestHandlers .client)
        payload
| .startStream _ hdl' => hdl' = hdl ∧ Starts terms.config none
| .startStreamWith _ hdl' opCode =>
    hdl' = hdl ∧ Starts terms.config (w.announced hdl opCode)
| .streamWrite _ chunk ref =>
    w.streamAt hdl ref ∧ Puts terms.config (.data chunk)
| .streamEnd _ ref =>
    w.streamAt hdl ref ∧ Puts terms.config .finish
| .register (.dataHandler _) _ => True
| .register (.endHandler _) _ => True
| .register (.cancelHandler _) _ => True
| _ => False

/-
  The message rate is kept, and the request handlers return
  what can be sent.  Other callbacks may throw here.
-/
structure MayHear
    (terms : Terms)
    (input : IoInput)
    (state : ConnectionState)
    (w : WsServer) : Prop where
  rate : RateAllows input state w
  replies : Repliable terms.config input.requestAnswer

/- What is asked for by a call. -/
def callSeen (hdl : Hdl) (w : WsServer) :
    PublicCall → List Observation
| .asyncRequest input _ payload _ =>
    [.asked input.promise payload]
| .startStream _ _ =>
    [.started none w.streams.objects.length]
| .startStreamWith _ _ opCode =>
    [.started (w.announced hdl opCode)
      w.streams.objects.length]
| .streamWrite _ chunk ref => [.written ref (.data chunk)]
| .streamEnd _ ref => [.written ref .finish]
| _ => []

/- What is done on streams because of a message. -/
def messageSeen
    (hdl : Hdl)
    (w : WsServer)
    (effects : List ServerEffect) :
    Message → List Observation
| .streamStart _ _ =>
    [.accepted w.streams.objects.length
      (effects.filterMap ServerEffect.incoming?)]
| .streamData streamId chunk =>
    [.dispatched (w.streams.find hdl streamId) (.data chunk)]
| .streamEnd streamId =>
    [.dispatched (w.streams.find hdl streamId) .finish]
| _ => []

variable {S : Sodium}
variable {terms : Terms}
variable {hdl : Hdl}
variable {isAuth : Bool}
variable {state state' : ConnectionState}
variable {w w' : WsServer}
variable {keys : SessionKeys}

theorem startHandler_of_steady
    (hSteady : Steady w w')
    (opCode : Option OpCode) :
    startHandler isAuth opCode w' =
      startHandler isAuth opCode w := by
  unfold startHandler
  rw [hSteady.dispatchersOf, hSteady.incoming]

/- Up to the entry itself and to its streams. -/
theorem Up.of_steady
    (hUp : Up terms hdl isAuth state w)
    (hSteady : Steady w w')
    (hFound : Found hdl isAuth state' w')
    (hSends :
      ∀ streamId ref,
        w'.streams.find hdl streamId = some ref →
          ∃ stream,
            w'.streams.objects[ref]? = some stream ∧
              SendsOn hdl isAuth stream.sendFn) :
    Up terms hdl isAuth state' w' where
  found := hFound
  config := hSteady.config.trans hUp.config
  handlers := by
    rw [hSteady.dispatchersOf]
    exact hUp.handlers
  starts := fun opCode =>
    (startHandler_of_steady hSteady opCode).trans
      (hUp.starts opCode)
  sends := hSends

------------------------------------------------------------
-- Tables
------------------------------------------------------------

theorem pending_register
    (id : UInt32)
    (promise : PromiseId)
    (deadline : Option TimePoint)
    (t : RequestTable) :
    (fun id' =>
        (t.register hdl id promise deadline).pendingAt hdl
          id') =
      Function.update (fun id' => t.pendingAt hdl id') id
        (some promise) := by
  funext id'
  simp only [RequestTable.pendingAt, RequestTable.register,
    NestedMap.lookupAt_insertAt, true_and, Function.update_apply]

/- The promise is completed and forgotten, if there is one. -/
theorem respond_eq
    (hdl : Hdl)
    (id : UInt32)
    (answer : Payload)
    (t : RequestTable) :
    (t.respond hdl id answer).1 =
        ((t.pendingAt hdl id).map
          (fun promise =>
            (⟨promise, .ok answer⟩ : Completion))).toList ∧
      (fun id' =>
          (t.respond hdl id answer).2.pendingAt hdl id') =
        Function.update (fun id' => t.pendingAt hdl id') id
          none := by
  unfold RequestTable.respond
  cases hFound : t.pendingAt hdl id with
  | none =>
      refine ⟨rfl, ?_⟩
      funext id'
      by_cases hSame : id' = id
      · subst hSame
        simpa using hFound
      · rw [Function.update_of_ne hSame]
  | some promise =>
      refine ⟨rfl, ?_⟩
      funext id'
      simp only [RequestTable.pendingAt,
        NestedMap.lookupAt_eraseAt, true_and,
        Function.update_apply]

theorem find_register
    (stream : Stream ServerSendFn)
    (t : StreamTable) :
    (fun streamId =>
        (t.register hdl stream).2.find hdl streamId) =
      Function.update (fun streamId => t.find hdl streamId)
        stream.streamId (some t.objects.length) := by
  funext streamId
  simp only [StreamTable.find, StreamTable.register,
    NestedMap.lookupAt_insertAt, true_and, Function.update_apply]

theorem objects_register
    (stream : Stream ServerSendFn)
    (t : StreamTable) :
    (t.register hdl stream).2.objects.length =
      t.objects.length + 1 := by
  simp [StreamTable.register]

/- The new stream sends on the connection, like the others. -/
theorem sends_register
    {stream : Stream ServerSendFn}
    (hUp : Up terms hdl isAuth state w)
    (hSends : SendsOn hdl isAuth stream.sendFn)
    {streamId : UInt32}
    {ref : StreamRef}
    (hFind :
      (w.streams.register hdl stream).2.find hdl streamId =
        some ref) :
    ∃ found,
      (w.streams.register hdl stream).2.objects[ref]? =
          some found ∧
        SendsOn hdl isAuth found.sendFn := by
  have hAll :
      (w.streams.register hdl stream).2.find hdl streamId =
        Function.update
          (fun streamId => w.streams.find hdl streamId)
          stream.streamId (some w.streams.objects.length)
          streamId :=
    congrFun (find_register stream w.streams) streamId
  rw [hAll, Function.update_apply] at hFind
  by_cases hSame : streamId = stream.streamId
  · rw [if_pos hSame] at hFind
    cases hFind
    refine ⟨stream, ?_, hSends⟩
    simp [StreamTable.register]
  · rw [if_neg hSame] at hFind
    rcases hUp.sends streamId ref hFind with
      ⟨found, hObject, hFound⟩
    refine ⟨found, ?_, hFound⟩
    rcases List.getElem?_eq_some_iff.mp hObject with
      ⟨hLess, _⟩
    simp only [StreamTable.register]
    rw [List.getElem?_append_left hLess]
    exact hObject

/- Callbacks send nothing. -/
theorem packets_invocation
    (handler : Option HandlerId)
    (callback : HandlerId → ServerCallback) :
    (invocation handler callback).filterMap
        (ServerEffect.packet? hdl) = [] := by
  cases handler <;> rfl

theorem packets_transmit (packet : Bytes) :
    [ServerEffect.transmit hdl packet].filterMap
        (ServerEffect.packet? hdl) = [packet] := by
  simp [ServerEffect.packet?]

------------------------------------------------------------
-- Calls
------------------------------------------------------------

variable (S)

/- What a call is for the dialogue. -/
def CallDoes
    (terms : Terms)
    (keys : SessionKeys)
    (hdl : Hdl)
    (isAuth : Bool)
    (state : ConnectionState)
    (w : WsServer)
    (method : PublicCall) : Prop :=
  let o := (call S method).run w
  ∃ state',
    Up terms hdl isAuth state' o.state ∧
      Does S terms keys .server none (w.ending hdl)
        state.session
        (o.effects.filterMap (ServerEffect.packet? hdl))
        (w.callSeen hdl method ++
          o.effects.filterMap ServerEffect.completion?)
        state'.session (o.state.ending hdl)

variable {S}

/- The entry after a send, in a server that kept the rest. -/
theorem Up.sent
    (hUp : Up terms hdl isAuth state w)
    (hSteady : Steady w w')
    (hTable :
      w'.sessionTable =
        w.sessionTable.store isAuth hdl state.afterSend)
    (hStreams : w'.streams = w.streams) :
    Up terms hdl isAuth state.afterSend w' := by
  apply hUp.of_steady hSteady
  · exact found_store hUp.found state.afterSend hTable
  · rw [hStreams]
    exact hUp.sends

theorem asyncRequest_does
    {payload : Payload}
    (hUp : Up terms hdl isAuth state w)
    (hReady : state.session.Ready keys)
    (hAsks :
      Asks terms.config (terms.requestHandlers .client) payload)
    (input : RequestInput)
    (timeoutMs : UInt32) :
    CallDoes S terms keys hdl isAuth state w
      (.asyncRequest input hdl payload timeoutMs) := by
  have hCarries := hAsks.carries w.nextRequestId
  rcases asyncRequest_ready hUp.found hReady
      (requestPayload_eq w.nextRequestId payload) input
      timeoutMs with ⟨deadline, hRun⟩
  unfold CallDoes
  rw [hRun]
  refine
    ⟨state.afterSend, hUp.sent ⟨rfl, rfl, rfl, rfl⟩ rfl rfl, ?_⟩
  dsimp only
  rw [packets_transmit]
  refine
    ⟨.ask .server w.nextRequestId input.promise payload, rfl,
      rfl, ?_⟩
  exact
    { own := .inr rfl
      speech := .words input.nonce hCarries
      fits := ⟨rfl, rfl⟩
      pending :=
        pending_register w.nextRequestId input.promise deadline
          w.requests
      streams := rfl
      objects := le_rfl }

/- Both ways to send a payload. -/
theorem send_does
    {method : PublicCall}
    {payload : Payload}
    {nonce : Nonce}
    (hUp : Up terms hdl isAuth state w)
    (hTells :
      Tells terms.config (terms.requestHandlers .client)
        payload)
    (hSeen : w.callSeen hdl method = [])
    (hRun :
      (call S method).run w =
        { result := .ok ()
          effects :=
            [.transmit hdl
              (state.nextPacket S nonce payload keys)]
          state := w.sentOn hdl isAuth state }) :
    CallDoes S terms keys hdl isAuth state w method := by
  unfold CallDoes
  rw [hRun, hSeen]
  refine
    ⟨state.afterSend, hUp.sent ⟨rfl, rfl, rfl, rfl⟩ rfl rfl, ?_⟩
  dsimp only
  rw [packets_transmit]
  refine ⟨.tell .server payload, rfl, rfl, ?_⟩
  exact
    { own := .inr rfl
      speech := .words nonce hTells.carries
      fits := trivial
      pending := rfl
      streams := rfl
      objects := le_rfl }

/- Both ways to start a stream. -/
theorem start_does
    {method : PublicCall}
    {opCode announced : Option OpCode}
    {start : Payload}
    {nonce : Nonce}
    (hUp : Up terms hdl isAuth state w)
    (hStarts : Starts terms.config announced)
    (hBuild :
      streamStartPayload w.config.opcodes
          (w.nextOutgoingStreamId * 2 + 1) announced =
        .ok start)
    (hSeen :
      w.callSeen hdl method =
        [.started announced w.streams.objects.length])
    (hRun :
      (call S method).run w =
        { result := .ok ()
          effects :=
            [.transmit hdl
              (state.nextPacket S nonce start keys)]
          state :=
            { w.sentOn hdl isAuth state with
              nextOutgoingStreamId :=
                w.nextOutgoingStreamId + 1
              streams :=
                (w.streams.register hdl
                  { streamId :=
                      w.nextOutgoingStreamId * 2 + 1
                    sendFn := .send hdl
                    opCode := opCode }).2 } }) :
    CallDoes S terms keys hdl isAuth state w method := by
  unfold CallDoes
  rw [hRun, hSeen]
  refine ⟨state.afterSend, ?_, ?_⟩
  · refine hUp.of_steady ⟨rfl, rfl, rfl, rfl⟩ ?_ ?_
    · exact found_store hUp.found state.afterSend rfl
    · intro streamId ref hFind
      have hSends : SendsOn hdl isAuth (.send hdl) := rfl
      exact sends_register hUp hSends hFind
  dsimp only
  rw [packets_transmit]
  refine
    ⟨.start .server (w.nextOutgoingStreamId * 2 + 1) announced
      w.streams.objects.length, rfl, rfl, ?_⟩
  rw [hUp.config] at hBuild
  have hMore :
      w.streams.objects.length <
        (w.streams.register hdl
          { streamId := w.nextOutgoingStreamId * 2 + 1
            sendFn := .send hdl
            opCode := opCode }).2.objects.length := by
    rw [objects_register]
    exact Nat.lt_succ_self _
  exact
    { own := .inr rfl
      speech := .words nonce (hStarts.carries hBuild)
      fits := ⟨rfl, rfl, rfl, hMore⟩
      pending := rfl
      streams := find_register _ w.streams
      objects := hMore.le }

/- What is put on a stream of the connection. -/
theorem use_does
    {method : PublicCall}
    {build : Stream ServerSendFn → Except Exception Payload}
    {ref : StreamRef}
    {item : StreamItem}
    {nonce : Nonce}
    (hUp : Up terms hdl isAuth state w)
    (hReady : state.session.Ready keys)
    (hStream : w.streamAt hdl ref)
    (hCarries :
      ∀ stream : Stream ServerSendFn,
        ∃ payload,
          build stream = .ok payload ∧
            Carries terms.config
              (terms.requestHandlers .client)
              (.item stream.streamId item) payload)
    (hSeen : w.callSeen hdl method = [.written ref item])
    (hCall : call S method = streamCall S nonce build ref) :
    CallDoes S terms keys hdl isAuth state w method := by
  rcases hStream with ⟨hOwner, stream, hObject, hFind⟩
  rcases hCarries stream with ⟨payload, hBuild, hWords⟩
  have hSends : SendsOn hdl isAuth stream.sendFn := by
    rcases hUp.sends stream.streamId ref hFind with
      ⟨stream', hSame, hSends⟩
    rw [hObject] at hSame
    cases hSame
    exact hSends
  unfold CallDoes
  rw [hCall, hSeen,
    streamCall_ready hUp.found hReady hOwner hObject hSends
      hBuild nonce]
  refine
    ⟨state.afterSend, hUp.sent ⟨rfl, rfl, rfl, rfl⟩ rfl rfl, ?_⟩
  dsimp only
  rw [packets_transmit]
  refine
    ⟨.use .server stream.streamId item ref, rfl, rfl, ?_⟩
  exact
    { own := .inr rfl
      speech := .words nonce hWords
      fits := hFind
      pending := rfl
      streams := rfl
      objects := le_rfl }

/- A handler of a stream is set. -/
theorem setHandler_does
    {method : PublicCall}
    {f : Stream ServerSendFn → Stream ServerSendFn}
    {ref : StreamRef}
    (hUp : Up terms hdl isAuth state w)
    (hSeen : w.callSeen hdl method = [])
    (hCall : call S method = updateStream f ref)
    (hSendFn :
      ∀ stream, (f stream).sendFn = stream.sendFn) :
    CallDoes S terms keys hdl isAuth state w method := by
  have hLength :
      ((updateStream f ref).run w).state.streams.objects.length =
        w.streams.objects.length :=
    List.length_modify f w.streams.objects ref
  unfold CallDoes
  rw [hCall, hSeen]
  refine ⟨state, ?_, ?_⟩
  · refine hUp.of_steady ⟨rfl, rfl, rfl, rfl⟩ ?_ ?_
    · exact ⟨hUp.found.stored, hUp.found.first⟩
    · intro streamId ref' hFind
      rcases hUp.sends streamId ref' hFind with
        ⟨stream, hObject, hSends⟩
      have hModified :
          (w.streams.objects.modify ref f)[ref']? =
            some (if ref = ref' then f stream else stream) := by
        rw [List.getElem?_modify, hObject]
        rfl
      refine ⟨_, hModified, ?_⟩
      split
      · rw [hSendFn stream]
        exact hSends
      · exact hSends
  refine ⟨.idle, rfl, rfl, ?_⟩
  exact
    { own := .inl rfl
      speech := .nothing
      fits := trivial
      pending := rfl
      streams := rfl
      objects := hLength.symm.le }

theorem announced_of_found
    (hFound : Found hdl isAuth state w)
    (opCode : OpCode) :
    w.announced hdl opCode =
      startStreamOpCode state.session.getSelectedVersion
        opCode := by
  unfold announced
  rw [version_of_found hFound]
  rfl

theorem call_does
    {method : PublicCall}
    (hUp : Up terms hdl isAuth state w)
    (hReady : state.session.Ready keys)
    (hMay : MayCall terms hdl isAuth w method) :
    CallDoes S terms keys hdl isAuth state w method := by
  cases method with
  | asyncRequest input target payload timeoutMs =>
      rcases hMay with ⟨hTarget, hAsks⟩
      subst hTarget
      exact asyncRequest_does hUp hReady hAsks input timeoutMs
  | send nonce target payload =>
      rcases hMay with ⟨hTarget, hTells⟩
      subst hTarget
      exact
        send_does hUp hTells rfl
          (send_ready hUp.found hReady nonce payload)
  | sendAnonymous nonce target payload =>
      rcases hMay with ⟨⟨hTarget, hAnon⟩, hTells⟩
      subst hTarget
      subst hAnon
      exact
        send_does hUp hTells rfl
          (sendAnonymous_ready hUp.found hReady nonce payload)
  | startStream nonce target =>
      rcases hMay with ⟨hTarget, hStarts⟩
      subst hTarget
      have hBuild :=
        streamStartPayload_eq w.config.opcodes
          (w.nextOutgoingStreamId * 2 + 1) none
      exact
        start_does hUp hStarts hBuild rfl
          (startStream_ready hUp.found hReady hBuild nonce)
  | startStreamWith nonce target opCode =>
      rcases hMay with ⟨hTarget, hStarts⟩
      subst hTarget
      have hAnnounced :=
        announced_of_found hUp.found opCode
      have hBuild :=
        streamStartPayload_eq w.config.opcodes
          (w.nextOutgoingStreamId * 2 + 1)
          (startStreamOpCode state.session.getSelectedVersion
            opCode)
      rw [hAnnounced] at hStarts
      refine
        start_does hUp hStarts hBuild ?_
          (startStreamWith_ready hUp.found hReady hBuild nonce)
      dsimp only [callSeen]
      rw [hAnnounced]
  | streamWrite nonce chunk ref =>
      rcases hMay with ⟨hStream, hPuts⟩
      exact
        use_does hUp hReady hStream
          (fun stream =>
            ⟨_, stream.writePayload_of_le hPuts.1,
              hPuts.carries_data stream.streamId⟩)
          rfl rfl
  | streamEnd nonce ref =>
      rcases hMay with ⟨hStream, hPuts⟩
      exact
        use_does hUp hReady hStream
          (fun stream =>
            ⟨_, stream.endPayload_eq,
              hPuts.carries_finish stream.streamId⟩)
          rfl rfl
  | register registration callback =>
      cases registration with
      | dataHandler ref =>
          exact setHandler_does hUp rfl rfl (fun _ => rfl)
      | endHandler ref =>
          exact setHandler_does hUp rfl rfl (fun _ => rfl)
      | cancelHandler ref =>
          exact setHandler_does hUp rfl rfl (fun _ => rfl)
      | _ => exact hMay.elim
  | _ => exact hMay.elim

------------------------------------------------------------
-- Messages
------------------------------------------------------------

variable (S)

/- What the user is told because of a packet. -/
def hearSeen
    (input : IoInput)
    (hdl : Hdl)
    (packet : Bytes)
    (w : WsServer) : List Observation :=
  let o := (onMessage S input hdl { payload := packet }).run w
  o.effects.filterMap
      (ServerEffect.service? input.requestAnswer) ++
    o.effects.filterMap ServerEffect.completion? ++
      ((readMessage S input hdl { payload := packet } w).map
        (fun read => w.messageSeen hdl o.effects
          read.2)).getD []

/- What a message is for the dialogue, once it is read. -/
def DispatchDoes
    (terms : Terms)
    (keys : SessionKeys)
    (input : IoInput)
    (hdl : Hdl)
    (isAuth : Bool)
    (state : ConnectionState)
    (words : Words)
    (payload : Payload)
    (w : WsServer) : Prop :=
  let o :=
    (dispatchMessage S input hdl isAuth
      (asMessage payload words)).run w
  ∃ state',
    Up terms hdl isAuth state' o.state ∧
      Does S terms keys .server (some words) (w.ending hdl)
        state.session
        (o.effects.filterMap (ServerEffect.packet? hdl))
        (o.effects.filterMap
            (ServerEffect.service? input.requestAnswer) ++
          o.effects.filterMap ServerEffect.completion? ++
            w.messageSeen hdl o.effects
              (asMessage payload words))
        state'.session (o.state.ending hdl)

variable {S}

theorem request_does
    {id : UInt32}
    {payload sent : Payload}
    {input : IoInput}
    (hUp : Up terms hdl isAuth state w)
    (hReady : state.session.Ready keys)
    (hReplies : Repliable terms.config input.requestAnswer)
    (hMeans :
      Means terms.config.opcodes
        (terms.requestHandlers .server) (.request id payload)
        sent) :
    DispatchDoes S terms keys input hdl isAuth state
      (.request id payload) sent w := by
  cases hMeans with
  | @request _ _ handler hKind hHandler =>
      rcases hReplies with ⟨answer, hAnswer, hSize, hFits⟩
      rcases Repliable.carries (terms.requestHandlers .client)
          hSize hFits id with
        ⟨response, hBuild, hCarries⟩
      have hFound := hHandler
      rw [← hUp.config] at hBuild
      rw [← hUp.handlers] at hFound
      rcases dispatch_request hUp.found hReady rfl hFound
          hAnswer hBuild with ⟨reader, hRest, hRun⟩
      unfold DispatchDoes
      dsimp only [asMessage, dispatchMessage]
      rw [hRun]
      refine
        ⟨state.afterSend,
          hUp.sent ⟨rfl, rfl, rfl, rfl⟩ rfl rfl, ?_⟩
      dsimp only
      rw [List.filterMap_cons_none rfl, packets_transmit]
      refine ⟨.serve .server id payload answer, rfl, ?_, ?_⟩
      · simp [Terms.seen, ServerEffect.service?,
          ServerEffect.completion?, messageSeen, hHandler,
          hRest, hAnswer]
      · exact
          { own := .inr rfl
            speech := .words input.nonce hCarries
            fits := trivial
            pending := rfl
            streams := rfl
            objects := le_rfl }

theorem reply_does
    {id : UInt32}
    {answer sent : Payload}
    (hUp : Up terms hdl isAuth state w)
    (input : IoInput) :
    DispatchDoes S terms keys input hdl isAuth state
      (.reply id answer) sent w := by
  rcases respond_eq hdl id answer w.requests with
    ⟨hCompletions, hPending⟩
  have hSilent :
      ((w.requests.respond hdl id answer).1.map
          ServerEffect.complete).filterMap
            (ServerEffect.packet? hdl) = [] := by
    simp [List.filterMap_map, Function.comp_def,
      ServerEffect.packet?]
  unfold DispatchDoes
  dsimp only [asMessage, dispatchMessage]
  rw [requestSection_run]
  refine ⟨state, ?_, ?_⟩
  · refine
      hUp.of_steady ⟨rfl, rfl, rfl, rfl⟩
        ⟨hUp.found.stored, hUp.found.first⟩ hUp.sends
  dsimp only
  rw [hSilent]
  refine
    ⟨.settle .server id answer (w.requests.pendingAt hdl id),
      rfl, ?_, ?_⟩
  · rw [hCompletions]
    cases w.requests.pendingAt hdl id <;> rfl
  · exact
      { own := .inr rfl
        speech := .nothing
        fits := rfl
        pending := hPending
        streams := rfl
        objects := le_rfl }

theorem opening_does
    {streamId : UInt32}
    {opCode : Option OpCode}
    {sent : Payload}
    (hUp : Up terms hdl isAuth state w)
    (input : IoInput) :
    DispatchDoes S terms keys input hdl isAuth state
      (.opening streamId opCode) sent w := by
  have hSends :
      SendsOn hdl isAuth
        (startedStream hdl isAuth streamId opCode).sendFn := by
    unfold startedStream
    cases isAuth with
    | true => rfl
    | false => exact ⟨rfl, rfl⟩
  have hMore :
      w.streams.objects.length <
        (w.streams.register hdl
          (startedStream hdl isAuth streamId
            opCode)).2.objects.length := by
    rw [objects_register]
    exact Nat.lt_succ_self _
  unfold DispatchDoes
  dsimp only [asMessage]
  rw [dispatch_streamStart_run]
  refine ⟨state, ?_, ?_⟩
  · refine hUp.of_steady ⟨rfl, rfl, rfl, rfl⟩ ?_ ?_
    · exact ⟨hUp.found.stored, hUp.found.first⟩
    · intro streamId' ref hFind
      exact sends_register hUp hSends hFind
  dsimp only
  rw [packets_invocation]
  refine
    ⟨.accept .server streamId opCode w.streams.objects.length,
      rfl, ?_, ?_⟩
  · rw [hUp.starts opCode]
    dsimp only [Terms.seen]
    cases terms.startHandler .server opCode <;> rfl
  · exact
      { own := .inr rfl
        speech := .nothing
        fits := ⟨rfl, hMore⟩
        pending := rfl
        streams :=
          find_register
            (startedStream hdl isAuth streamId opCode)
            w.streams
        objects := hMore.le }

theorem item_does
    {streamId : UInt32}
    {item : StreamItem}
    {sent : Payload}
    (hUp : Up terms hdl isAuth state w)
    (input : IoInput) :
    DispatchDoes S terms keys input hdl isAuth state
      (.item streamId item) sent w := by
  have hStep (seen : List Observation)
      (hSeen :
        seen =
          [.dispatched (w.streams.find hdl streamId) item]) :
      Does S terms keys .server (some (.item streamId item))
        (w.ending hdl) state.session [] seen state.session
        (w.ending hdl) := by
    refine
      ⟨.deliver .server streamId item
        (w.streams.find hdl streamId), rfl, hSeen, ?_⟩
    exact
      { own := .inr rfl
        speech := .nothing
        fits := rfl
        pending := rfl
        streams := rfl
        objects := le_rfl }
  unfold DispatchDoes
  cases item with
  | data chunk =>
      dsimp only [asMessage]
      rw [dispatch_streamData_run]
      refine ⟨state, hUp, ?_⟩
      dsimp only
      rw [packets_invocation]
      cases streamHandler (w.streams.find hdl streamId)
          Stream.onData w <;>
        exact hStep _ rfl
  | finish =>
      dsimp only [asMessage]
      rw [dispatch_streamEnd_run]
      refine ⟨state, hUp, ?_⟩
      dsimp only
      rw [packets_invocation]
      cases streamHandler (w.streams.find hdl streamId)
          Stream.onEnd w <;>
        exact hStep _ rfl

theorem plain_does
    {payload sent : Payload}
    (hUp : Up terms hdl isAuth state w)
    (input : IoInput)
    (hMeans :
      Means terms.config.opcodes
        (terms.requestHandlers .server) (.plain payload)
        sent) :
    DispatchDoes S terms keys input hdl isAuth state
      (.plain payload) sent w := by
  cases hMeans with
  | plain hKind hHandler =>
      rw [← hUp.handlers] at hHandler
      rcases dispatch_plain hdl hHandler input with
        ⟨result, handler, hRun⟩
      unfold DispatchDoes
      dsimp only [asMessage, dispatchMessage]
      rw [hRun]
      refine ⟨state, hUp, ?_⟩
      dsimp only
      rw [packets_invocation]
      refine ⟨.hear .server payload, rfl, ?_, ?_⟩
      · cases handler <;> rfl
      · exact
          { own := .inr rfl
            speech := .nothing
            fits := trivial
            pending := rfl
            streams := rfl
            objects := le_rfl }

/- Every word that is carried to the server is understood. -/
theorem dispatch_does
    {words : Words}
    {sent : Payload}
    {input : IoInput}
    (hUp : Up terms hdl isAuth state w)
    (hReady : state.session.Ready keys)
    (hReplies : Repliable terms.config input.requestAnswer)
    (hMeans :
      Means terms.config.opcodes
        (terms.requestHandlers .server) words sent) :
    DispatchDoes S terms keys input hdl isAuth state words sent
      w := by
  cases words with
  | request id payload =>
      exact request_does hUp hReady hReplies hMeans
  | reply id answer => exact reply_does hUp input
  | opening streamId opCode => exact opening_does hUp input
  | item streamId item => exact item_does hUp input
  | plain payload => exact plain_does hUp input hMeans

theorem onMessage_does
    {words : Words}
    {payload : Payload}
    {session : Session}
    {packet : Bytes}
    {input : IoInput}
    (hUp : Up terms hdl isAuth state w)
    (hDistinct : terms.config.opcodes.Distinct)
    (hAfter : session.Ready keys)
    (hMay : MayHear terms input state w)
    (hCarries :
      Carries terms.config (terms.requestHandlers .server) words
        payload)
    (hOpens :
      state.session.decryptPacket S packet =
        (.ok payload, session)) :
    let o := (onMessage S input hdl { payload := packet }).run w
    ∃ state',
      Up terms hdl isAuth state' o.state ∧
        Does S terms keys .server (some words) (w.ending hdl)
          session
          (o.effects.filterMap (ServerEffect.packet? hdl))
          (hearSeen S input hdl packet w)
          state'.session (o.state.ending hdl) := by
  have hMeans := hCarries.means
  rw [← hUp.config] at hDistinct
  rw [← hUp.config, ← hUp.handlers] at hCarries
  have hRead :=
    read_carried hDistinct hUp.found hMay.rate hCarries hOpens
  rcases onMessage_carried hDistinct hUp.found hMay.rate
      hCarries hOpens with ⟨rl, hMessage⟩
  let opened : ConnectionState :=
    { state with
      session := session
      lastActivityMs := nowMs (input.clock 2) }
  have hOpened :
      Up terms hdl isAuth opened
        (w.heardOn hdl isAuth rl opened) :=
    hUp.of_steady ⟨rfl, rfl, rfl, rfl⟩
      (found_store hUp.found opened rfl) hUp.sends
  have hReady : opened.session.Ready keys := hAfter
  have hDispatch :
      DispatchDoes S terms keys input hdl isAuth opened words
        payload (w.heardOn hdl isAuth rl opened) :=
    dispatch_does hOpened hReady hMay.replies hMeans
  dsimp only at hMessage ⊢
  unfold hearSeen
  rw [hMessage, hRead]
  exact hDispatch

------------------------------------------------------------
-- Other Connections
------------------------------------------------------------

/- What is done for others is no step of this dialogue. -/
theorem elsewhere_does
    {event : ServerEvent}
    (hUp : Up terms hdl isAuth state w)
    (hElsewhere : event.elsewhere hdl w) :
    let o := (handle S event).run w
    Up terms hdl isAuth state o.state ∧
      Does S terms keys .server none (w.ending hdl)
        state.session
        (o.effects.filterMap (ServerEffect.packet? hdl)) []
        state.session (o.state.ending hdl) := by
  intro o
  have hBesides :
      Besides hdl w o.effects o.state :=
    elsewhere_besides S hElsewhere
  have hFind (streamId : UInt32) :
      o.state.streams.find hdl streamId =
        w.streams.find hdl streamId := by
    unfold StreamTable.find NestedMap.lookupAt
    rw [hBesides.same.streams]
  have hPending (id : UInt32) :
      o.state.requests.pendingAt hdl id =
        w.requests.pendingAt hdl id := by
    unfold RequestTable.pendingAt NestedMap.lookupAt
    rw [hBesides.same.pending]
  have hSilent :
      o.effects.filterMap (ServerEffect.packet? hdl) = [] := by
    rw [List.filterMap_eq_nil_iff]
    intro effect hMem
    cases effect with
    | transmit hdl' packet =>
        by_cases hHere : hdl' = hdl
        · subst hHere
          exact (hBesides.silent packet hMem).elim
        · simp [ServerEffect.packet?, hHere]
    | _ => rfl
  refine ⟨?_, ?_⟩
  · apply hUp.of_steady hBesides.steady
    · constructor
      · rw [hBesides.same.sessions]
        exact hUp.found.stored
      · intro hAnon
        have hAuth := hBesides.same.sessions true
        exact hAuth.trans (hUp.found.first hAnon)
    · intro streamId ref hFound
      rw [hFind] at hFound
      rcases hUp.sends streamId ref hFound with
        ⟨stream, hObject, hSends⟩
      rcases hBesides.objects with ⟨more, hMore⟩
      rcases List.getElem?_eq_some_iff.mp hObject with
        ⟨hLess, _⟩
      refine ⟨stream, ?_, hSends⟩
      rw [← hMore, List.getElem?_append_left hLess]
      exact hObject
  · rw [hSilent]
    refine ⟨.idle, rfl, rfl, ?_⟩
    exact
      { own := .inl rfl
        speech := .nothing
        fits := trivial
        pending := funext hPending
        streams := funext hFind
        objects := hBesides.objects.length_le }

end WsServer

end ObscuraProto
