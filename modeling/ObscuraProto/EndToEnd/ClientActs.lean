import ObscuraProto.EndToEnd.ClientEnd
import ObscuraProto.EndToEnd.Ends

/-
  The client as one end of the dialogue.

  Whatever is called, and whatever is received, the client
  takes one step of the dialogue, and its user observes what
  belongs to that step.

  Key definitions include:
    * `WsClient.ending`, `WsClient.Up`
    * `WsClient.MayCall`, `WsClient.MayHear`
    * `WsClient.callSeen`, `WsClient.messageSeen`

  Key theorems include:
    * `WsClient.call_does`
    * `WsClient.onMessage_does`
-/

namespace ObscuraProto

open Effectful EndToEnd Dialogue

/- The packets among what leaves the wrapper. -/
def ClientEffect.packet? : ClientEffect → Option Bytes
| .transmit _ packet => some packet
| _ => none

/- A request handler is called, and gives an answer. -/
def ClientEffect.service?
    (answer : Except Exception Payload) :
    ClientEffect → Option Observation
| .invoke (.request handler reader) =>
    some (.served (some handler) reader.remaining answer)
| _ => none

/- A future gets its value, or an exception. -/
def ClientEffect.completion? :
    ClientEffect → Option Observation
| .complete completion => some (.completed completion)
| _ => none

def ClientEffect.incoming? :
    ClientEffect → Option (HandlerId × StreamRef)
| .invoke (.incomingStream handler stream) =>
    some (handler, stream)
| _ => none

namespace WsClient

def ending (c : WsClient) : Ending where
  pending := fun id => c.requests.pendingRequests[id]?
  streams := fun streamId => c.streams.find streamId
  objects := c.streams.objects.length
  nextRequestId := c.nextRequestId
  nextStreamId := c.nextOutgoingStreamId

/- The client is connected, on the terms of the connection. -/
structure Up (terms : Terms) (c : WsClient) : Prop where
  isConnected : c.isConnected = true
  config : c.config = terms.config
  handlers :
    c.dispatchers.requestHandlers =
      terms.requestHandlers .client
  starts :
    ∀ opCode,
      startHandler opCode c = terms.startHandler .client opCode

/-
  The object is a stream of the connection, and the wrapper
  is owned by a shared pointer: otherwise nothing is sent.
-/
def streamAt (c : WsClient) (ref : StreamRef) : Prop :=
  c.hasOwner = true ∧
    ∃ stream,
      c.streams.objects[ref]? = some stream ∧
        c.streams.find stream.streamId = some ref

/- The calls that are part of the dialogue. -/
def MayCall
    (terms : Terms)
    (c : WsClient) : PublicCall → Prop
| .asyncRequest _ _ _ payload _ =>
    Asks terms.config (terms.requestHandlers .server) payload
| .send _ payload =>
    Tells terms.config (terms.requestHandlers .server) payload
| .startStream _ => Starts terms.config none
| .startStreamWith _ opCode =>
    Starts terms.config
      (startStreamOpCode c.session.getSelectedVersion opCode)
| .streamWrite _ chunk ref =>
    c.streamAt ref ∧ Puts terms.config (.data chunk)
| .streamEnd _ ref =>
    c.streamAt ref ∧ Puts terms.config .finish
| .register (.dataHandler _) _ => True
| .register (.endHandler _) _ => True
| .register (.cancelHandler _) _ => True
| _ => False

/- The handlers return, with an answer that can be sent. -/
structure MayHear
    (terms : Terms)
    (input : ClientInput) : Prop where
  replies : Repliable terms.config input.requestAnswer
  callbacks : input.callbackAnswer = .ok ()

/- What is asked for by a call. -/
def callSeen (c : WsClient) : PublicCall → List Observation
| .asyncRequest _ promise _ payload _ =>
    [.asked promise payload]
| .startStream _ =>
    [.started none c.streams.objects.length]
| .startStreamWith _ opCode =>
    [.started
      (startStreamOpCode c.session.getSelectedVersion opCode)
      c.streams.objects.length]
| .streamWrite _ chunk ref => [.written ref (.data chunk)]
| .streamEnd _ ref => [.written ref .finish]
| _ => []

/- What is done on streams because of a message. -/
def messageSeen
    (c : WsClient)
    (effects : List ClientEffect) :
    Message → List Observation
| .streamStart _ _ =>
    [.accepted c.streams.objects.length
      (effects.filterMap ClientEffect.incoming?)]
| .streamData streamId chunk =>
    [.dispatched (c.streams.find streamId) (.data chunk)]
| .streamEnd streamId =>
    [.dispatched (c.streams.find streamId) .finish]
| _ => []

variable {S : Sodium}
variable {terms : Terms}
variable {c c' : WsClient}
variable {keys : SessionKeys}

theorem startHandler_of_steady
    (hSteady : Steady c c')
    (opCode : Option OpCode) :
    startHandler opCode c' = startHandler opCode c := by
  unfold startHandler
  rw [hSteady.dispatchers, hSteady.incoming]

theorem Up.of_steady
    (hUp : Up terms c)
    (hSteady : Steady c c') :
    Up terms c' where
  isConnected := hSteady.isConnected.trans hUp.isConnected
  config := hSteady.config.trans hUp.config
  handlers := by
    rw [hSteady.dispatchers]
    exact hUp.handlers
  starts := fun opCode =>
    (startHandler_of_steady hSteady opCode).trans
      (hUp.starts opCode)

------------------------------------------------------------
-- Tables
------------------------------------------------------------

theorem pending_register
    (id : UInt32)
    (promise : PromiseId)
    (deadline : Option TimePoint)
    (t : ClientRequestTable) :
    (fun id' =>
        (t.register id promise deadline).pendingRequests[
          id']?) =
      Function.update (fun id' => t.pendingRequests[id']?) id
        (some promise) := by
  funext id'
  by_cases hSame : id' = id
  · subst hSame
    simp [ClientRequestTable.register]
  · rw [Function.update_of_ne hSame]
    exact OrderedMap.getElem?_insert_of_ne hSame _ _

/- The promise is completed and forgotten, if there is one. -/
theorem respond_eq
    (id : UInt32)
    (answer : Payload)
    (t : ClientRequestTable) :
    (t.respond id answer).1 =
        (t.pendingRequests[id]?.map
          (fun promise =>
            (⟨promise, .ok answer⟩ : Completion))).toList ∧
      (fun id' =>
          (t.respond id answer).2.pendingRequests[id']?) =
        Function.update (fun id' => t.pendingRequests[id']?) id
          none := by
  unfold ClientRequestTable.respond
  cases hFound : t.pendingRequests[id]? with
  | none =>
      refine ⟨rfl, ?_⟩
      funext id'
      by_cases hSame : id' = id
      · subst hSame
        simpa using hFound
      · rw [Function.update_of_ne hSame]
  | some promise =>
      refine ⟨rfl, ?_⟩
      funext id'
      by_cases hSame : id' = id
      · subst hSame
        simp
      · rw [Function.update_of_ne hSame]
        exact OrderedMap.getElem?_erase_of_ne hSame _

theorem find_register
    (stream : Stream Unit)
    (t : ClientStreamTable) :
    (fun streamId => (t.register stream).2.find streamId) =
      Function.update (fun streamId => t.find streamId)
        stream.streamId (some t.objects.length) := by
  funext streamId
  by_cases hSame : streamId = stream.streamId
  · subst hSame
    simp [ClientStreamTable.find, ClientStreamTable.register]
  · rw [Function.update_of_ne hSame]
    exact OrderedMap.getElem?_insert_of_ne hSame _ _

theorem objects_register
    (stream : Stream Unit)
    (t : ClientStreamTable) :
    (t.register stream).2.objects.length =
      t.objects.length + 1 := by
  simp [ClientStreamTable.register]

------------------------------------------------------------
-- Calls
------------------------------------------------------------

variable (S)

/- What a call is for the dialogue. -/
def CallDoes
    (terms : Terms)
    (keys : SessionKeys)
    (c : WsClient)
    (method : PublicCall) : Prop :=
  let o := (call S method).run c
  Up terms o.state ∧
    Does S terms keys .client none c.ending c.session
      (o.effects.filterMap ClientEffect.packet?)
      (callSeen c method ++
        o.effects.filterMap ClientEffect.completion?)
      o.state.session o.state.ending

variable {S}

theorem asyncRequest_does
    {payload : Payload}
    (hUp : Up terms c)
    (hReady : c.session.Ready keys)
    (hAsks :
      Asks terms.config (terms.requestHandlers .server) payload)
    (nonce : Nonce)
    (promise : PromiseId)
    (clock : TimePoint)
    (timeoutMs : UInt32) :
    CallDoes S terms keys c
      (.asyncRequest nonce promise clock payload timeoutMs) := by
  have hCarries := hAsks.carries c.nextRequestId
  have hFits := hCarries.fits
  rw [← hUp.config] at hFits
  rcases asyncRequest_ready hUp.isConnected hReady
      (requestPayload_eq c.nextRequestId payload) hFits nonce
      promise clock timeoutMs with ⟨watchdog, hRun⟩
  unfold CallDoes
  rw [hRun]
  refine ⟨hUp.of_steady ⟨rfl, rfl, rfl, rfl⟩, ?_⟩
  refine
    ⟨.ask .client c.nextRequestId promise payload, rfl, rfl, ?_⟩
  exact
    { own := .inr rfl
      speech := .words nonce hCarries
      fits := ⟨rfl, rfl⟩
      pending :=
        pending_register c.nextRequestId promise
          (c.deadlineFor clock timeoutMs) c.requests
      streams := rfl
      objects := le_rfl }

theorem send_does
    {payload : Payload}
    (hUp : Up terms c)
    (hReady : c.session.Ready keys)
    (hTells :
      Tells terms.config (terms.requestHandlers .server)
        payload)
    (nonce : Nonce) :
    CallDoes S terms keys c (.send nonce payload) := by
  have hCarries := hTells.carries
  have hFits := hCarries.fits
  rw [← hUp.config] at hFits
  have hRun :
      (call S (.send nonce payload)).run c = _ :=
    send_ready hUp.isConnected hReady hFits nonce
  unfold CallDoes
  rw [hRun]
  refine ⟨hUp.of_steady (steady_afterSend c), ?_⟩
  refine ⟨.tell .client payload, rfl, rfl, ?_⟩
  exact
    { own := .inr rfl
      speech := .words nonce hCarries
      fits := trivial
      pending := rfl
      streams := rfl
      objects := le_rfl }

/- Both ways to start a stream. -/
theorem start_does
    {method : PublicCall}
    {opCode announced : Option OpCode}
    {start : Payload}
    {nonce : Nonce}
    (hUp : Up terms c)
    (hStarts : Starts terms.config announced)
    (hBuild :
      streamStartPayload c.config.opcodes
          (c.nextOutgoingStreamId * 2) announced = .ok start)
    (hSeen :
      callSeen c method =
        [.started announced c.streams.objects.length])
    (hRun :
      (call S method).run c =
        { result := .ok ()
          effects :=
            [.transmit c.connectionHdl
              (c.nextPacket S nonce start keys)]
          state :=
            { c.afterSend with
              nextOutgoingStreamId :=
                c.nextOutgoingStreamId + 1
              streams :=
                (c.streams.register
                  { streamId := c.nextOutgoingStreamId * 2
                    sendFn := ()
                    opCode := opCode }).2 } }) :
    CallDoes S terms keys c method := by
  unfold CallDoes
  rw [hRun, hSeen]
  refine ⟨hUp.of_steady ⟨rfl, rfl, rfl, rfl⟩, ?_⟩
  refine
    ⟨.start .client (c.nextOutgoingStreamId * 2) announced
      c.streams.objects.length, rfl, rfl, ?_⟩
  rw [hUp.config] at hBuild
  have hMore :=
    objects_register
      { streamId := c.nextOutgoingStreamId * 2
        sendFn := ()
        opCode := opCode } c.streams
  exact
    { own := .inr rfl
      speech := .words nonce (hStarts.carries hBuild)
      fits :=
        ⟨rfl, rfl, rfl, Nat.lt_of_lt_of_eq (Nat.lt_succ_self _)
          hMore.symm⟩
      pending := rfl
      streams := find_register _ c.streams
      objects := Nat.le_of_lt
        (Nat.lt_of_lt_of_eq (Nat.lt_succ_self _) hMore.symm) }

/- What is put on a stream of the connection. -/
theorem use_does
    {method : PublicCall}
    {build : Stream Unit → Except Exception Payload}
    {ref : StreamRef}
    {item : StreamItem}
    {nonce : Nonce}
    (hUp : Up terms c)
    (hReady : c.session.Ready keys)
    (hStream : c.streamAt ref)
    (hCarries :
      ∀ stream : Stream Unit,
        ∃ payload,
          build stream = .ok payload ∧
            Carries terms.config
              (terms.requestHandlers .server)
              (.item stream.streamId item) payload)
    (hSeen : callSeen c method = [.written ref item])
    (hCall : call S method = streamCall S nonce build ref) :
    CallDoes S terms keys c method := by
  rcases hStream with ⟨hOwner, stream, hObject, hFound⟩
  rcases hCarries stream with ⟨payload, hBuild, hWords⟩
  have hFits := hWords.fits
  rw [← hUp.config] at hFits
  unfold CallDoes
  rw [hCall, hSeen,
    streamCall_ready hUp.isConnected hReady hOwner hObject
      hBuild hFits nonce]
  refine ⟨hUp.of_steady (steady_afterSend c), ?_⟩
  refine
    ⟨.use .client stream.streamId item ref, rfl, rfl, ?_⟩
  exact
    { own := .inr rfl
      speech := .words nonce hWords
      fits := hFound
      pending := rfl
      streams := rfl
      objects := le_rfl }

/- A handler of a stream is set. -/
theorem setHandler_does
    {method : PublicCall}
    {f : Stream Unit → Stream Unit}
    {ref : StreamRef}
    (hUp : Up terms c)
    (hSeen : callSeen c method = [])
    (hCall : call S method = updateStream f ref) :
    CallDoes S terms keys c method := by
  have hLength :
      ((updateStream f ref).run c).state.streams.objects.length =
        c.streams.objects.length :=
    List.length_modify f c.streams.objects ref
  unfold CallDoes
  rw [hCall, hSeen]
  refine ⟨hUp.of_steady ⟨rfl, rfl, rfl, rfl⟩, ?_⟩
  refine ⟨.idle, rfl, rfl, ?_⟩
  exact
    { own := .inl rfl
      speech := .nothing
      fits := trivial
      pending := rfl
      streams := rfl
      objects := hLength.symm.le }

theorem call_does
    {method : PublicCall}
    (hUp : Up terms c)
    (hReady : c.session.Ready keys)
    (hMay : MayCall terms c method) :
    CallDoes S terms keys c method := by
  cases method with
  | asyncRequest nonce promise clock payload timeoutMs =>
      exact
        asyncRequest_does hUp hReady hMay nonce promise clock
          timeoutMs
  | send nonce payload => exact send_does hUp hReady hMay nonce
  | startStream nonce =>
      have hStarts : Starts terms.config none := hMay
      have hHere : Starts c.config none := by
        rw [hUp.config]
        exact hStarts
      have hBuild :=
        streamStartPayload_eq c.config.opcodes
          (c.nextOutgoingStreamId * 2) none
      exact
        start_does hUp hStarts hBuild rfl
          (startStream_ready hUp.isConnected hReady hBuild
            (hHere.fits hBuild) nonce)
  | startStreamWith nonce opCode =>
      have hStarts :
          Starts terms.config
            (startStreamOpCode c.session.getSelectedVersion
              opCode) :=
        hMay
      have hHere :
          Starts c.config
            (startStreamOpCode c.session.getSelectedVersion
              opCode) := by
        rw [hUp.config]
        exact hStarts
      have hBuild :=
        streamStartPayload_eq c.config.opcodes
          (c.nextOutgoingStreamId * 2)
          (startStreamOpCode c.session.getSelectedVersion
            opCode)
      exact
        start_does hUp hStarts hBuild rfl
          (startStreamWith_ready hUp.isConnected hReady hBuild
            (hHere.fits hBuild) nonce)
  | streamWrite nonce chunk ref =>
      rcases hMay with ⟨hStream, hPuts⟩
      exact
        use_does hUp hReady hStream
          (fun stream =>
            ⟨_, stream.writePayload_of_le hPuts.1,
              hPuts.carries_data stream.streamId⟩)
          rfl rfl
  | streamEnd nonce ref =>
      rcases hMay with ⟨hStream, hPuts⟩
      exact
        use_does hUp hReady hStream
          (fun stream =>
            ⟨_, stream.endPayload_eq,
              hPuts.carries_finish stream.streamId⟩)
          rfl rfl
  | register registration callback =>
      cases registration with
      | dataHandler ref => exact setHandler_does hUp rfl rfl
      | endHandler ref => exact setHandler_does hUp rfl rfl
      | cancelHandler ref => exact setHandler_does hUp rfl rfl
      | _ => exact hMay.elim
  | _ => exact hMay.elim

------------------------------------------------------------
-- Messages
------------------------------------------------------------

variable (S)

/- What the user is told because of a packet. -/
def hearSeen
    (input : ClientInput)
    (packet : Bytes)
    (c : WsClient) : List Observation :=
  let o := (onMessage S input { payload := packet }).run c
  o.effects.filterMap
      (ClientEffect.service? input.requestAnswer) ++
    o.effects.filterMap ClientEffect.completion? ++
      ((readMessage S { payload := packet } c).map
        (messageSeen c o.effects)).getD []

variable {S}

theorem read_carried
    {words : Words}
    {payload : Payload}
    {session : Session}
    {packet : Bytes}
    (hDistinct : c.config.opcodes.Distinct)
    (hReady : c.session.Ready keys)
    (hCarries :
      Carries c.config c.dispatchers.requestHandlers words
        payload)
    (hOpens :
      c.session.decryptPacket S packet =
        (.ok payload, session)) :
    readMessage S { payload := packet } c =
      some (asMessage payload words) := by
  have hParse := hCarries.means.parse hDistinct
  have hComplete : c.session.isHandshakeComplete = true :=
    hReady.complete
  unfold readMessage
  simp only [hComplete, hOpens, hCarries.fits, hParse,
    Bool.and_self, if_true, Bool.false_eq_true, if_false]

/- What a message is for the dialogue, once it is read. -/
def DispatchDoes
    (S : Sodium)
    (terms : Terms)
    (keys : SessionKeys)
    (input : ClientInput)
    (words : Words)
    (payload : Payload)
    (c : WsClient) : Prop :=
  ∃ effects c',
    (dispatchMessage S input (asMessage payload words)).run c =
        { result := .ok (), effects := effects, state := c' } ∧
      Steady c c' ∧
        Does S terms keys .client (some words) c.ending
          c.session (effects.filterMap ClientEffect.packet?)
          (effects.filterMap
              (ClientEffect.service? input.requestAnswer) ++
            effects.filterMap ClientEffect.completion? ++
              messageSeen c effects (asMessage payload words))
          c'.session c'.ending

/- Callbacks send nothing. -/
theorem packets_invocation
    (handler : Option HandlerId)
    (callback : HandlerId → ClientCallback) :
    (invocation handler callback).filterMap
        ClientEffect.packet? = [] := by
  cases handler <;> rfl

theorem request_does
    {id : UInt32}
    {payload sent : Payload}
    {input : ClientInput}
    (hUp : Up terms c)
    (hReady : c.session.Ready keys)
    (hMay : MayHear terms input)
    (hMeans :
      Means terms.config.opcodes
        (terms.requestHandlers .client) (.request id payload)
        sent) :
    DispatchDoes S terms keys input (.request id payload) sent
      c := by
  cases hMeans with
  | @request _ _ handler hKind hHandler =>
      rcases hMay.replies with ⟨answer, hAnswer, hSize, hFits⟩
      rcases Repliable.carries (terms.requestHandlers .server)
          hSize hFits id with
        ⟨response, hBuild, hCarries⟩
      have hSent := hCarries.fits
      have hFound := hHandler
      rw [← hUp.config] at hBuild hSent
      rw [← hUp.handlers] at hFound
      rcases dispatch_request hUp.isConnected hReady rfl hFound
          hAnswer hBuild hSent with ⟨reader, hRest, hRun⟩
      refine ⟨_, _, hRun, steady_afterSend c, ?_⟩
      refine ⟨.serve .client id payload answer, rfl, ?_, ?_⟩
      · simp [Terms.seen, ClientEffect.service?,
          ClientEffect.completion?, messageSeen, asMessage,
          hHandler, hRest, hAnswer]
      · exact
          { own := .inr rfl
            speech := .words input.nonce hCarries
            fits := trivial
            pending := rfl
            streams := rfl
            objects := le_rfl }

theorem reply_does
    {id : UInt32}
    {answer sent : Payload}
    (input : ClientInput) :
    DispatchDoes S terms keys input (.reply id answer) sent
      c := by
  have hRun :
      (dispatchMessage S input (.response id answer)).run c =
        { result := .ok ()
          effects :=
            (c.requests.respond id answer).1.map .complete
          state :=
            { c with
              requests :=
                (c.requests.respond id answer).2 } } := by
    unfold dispatchMessage requestSection
    rw [Action.run_atomic]
  rcases respond_eq id answer c.requests with
    ⟨hCompletions, hPending⟩
  have hSilent :
      ((c.requests.respond id answer).1.map
          ClientEffect.complete).filterMap
            ClientEffect.packet? = [] := by
    simp [List.filterMap_map, Function.comp_def,
      ClientEffect.packet?]
  refine ⟨_, _, hRun, ⟨rfl, rfl, rfl, rfl⟩, ?_⟩
  rw [hSilent]
  refine
    ⟨.settle .client id answer c.requests.pendingRequests[id]?,
      rfl, ?_, ?_⟩
  · rw [hCompletions]
    cases c.requests.pendingRequests[id]? <;> rfl
  · exact
      { own := .inr rfl
        speech := .nothing
        fits := rfl
        pending := hPending
        streams := rfl
        objects := le_rfl }

theorem opening_does
    {streamId : UInt32}
    {opCode : Option OpCode}
    {sent : Payload}
    {input : ClientInput}
    (hUp : Up terms c)
    (hMay : MayHear terms input) :
    DispatchDoes S terms keys input (.opening streamId opCode)
      sent c := by
  have hRun :=
    dispatch_streamStart_run S input streamId opCode c
  dsimp only at hRun
  rw [hMay.callbacks, answered_ok] at hRun
  refine ⟨_, _, hRun, ⟨rfl, rfl, rfl, rfl⟩, ?_⟩
  rw [packets_invocation]
  refine
    ⟨.accept .client streamId opCode c.streams.objects.length,
      rfl, ?_, ?_⟩
  · rw [hUp.starts opCode]
    dsimp only [Terms.seen]
    cases terms.startHandler .client opCode <;> rfl
  · have hMore :=
      objects_register (startedStream streamId opCode) c.streams
    exact
      { own := .inr rfl
        speech := .nothing
        fits :=
          ⟨rfl, Nat.lt_of_lt_of_eq (Nat.lt_succ_self _)
            hMore.symm⟩
        pending := rfl
        streams := find_register _ c.streams
        objects := Nat.le_of_lt
          (Nat.lt_of_lt_of_eq (Nat.lt_succ_self _)
            hMore.symm) }

theorem item_does
    {streamId : UInt32}
    {item : StreamItem}
    {sent : Payload}
    {input : ClientInput}
    (hMay : MayHear terms input) :
    DispatchDoes S terms keys input (.item streamId item) sent
      c := by
  have hStep (seen : List Observation)
      (hSeen :
        seen = [.dispatched (c.streams.find streamId) item]) :
      Does S terms keys .client (some (.item streamId item))
        c.ending c.session [] seen c.session c.ending := by
    refine
      ⟨.deliver .client streamId item (c.streams.find streamId),
        rfl, hSeen, ?_⟩
    exact
      { own := .inr rfl
        speech := .nothing
        fits := rfl
        pending := rfl
        streams := rfl
        objects := le_rfl }
  cases item with
  | data chunk =>
      have hRun :=
        dispatch_streamData_run S input streamId chunk c
      dsimp only at hRun
      rw [hMay.callbacks, answered_ok] at hRun
      refine ⟨_, _, hRun, ⟨rfl, rfl, rfl, rfl⟩, ?_⟩
      cases streamHandler (c.streams.find streamId)
          Stream.onData c <;>
        exact hStep _ rfl
  | finish =>
      have hRun := dispatch_streamEnd_run S input streamId c
      dsimp only at hRun
      rw [hMay.callbacks, answered_ok] at hRun
      refine ⟨_, _, hRun, ⟨rfl, rfl, rfl, rfl⟩, ?_⟩
      cases streamHandler (c.streams.find streamId)
          Stream.onEnd c <;>
        exact hStep _ rfl

theorem plain_does
    {payload sent : Payload}
    {input : ClientInput}
    (hUp : Up terms c)
    (hMay : MayHear terms input)
    (hMeans :
      Means terms.config.opcodes
        (terms.requestHandlers .client) (.plain payload)
        sent) :
    DispatchDoes S terms keys input (.plain payload) sent
      c := by
  cases hMeans with
  | plain hKind hHandler =>
      rw [← hUp.handlers] at hHandler
      rcases dispatch_plain hHandler hMay.callbacks with
        ⟨handler, hRun⟩
      refine ⟨_, _, hRun, ⟨rfl, rfl, rfl, rfl⟩, ?_⟩
      rw [packets_invocation]
      refine ⟨.hear .client payload, rfl, ?_, ?_⟩
      · cases handler <;> rfl
      · exact
          { own := .inr rfl
            speech := .nothing
            fits := trivial
            pending := rfl
            streams := rfl
            objects := le_rfl }

/- Every word that is carried to the client is understood. -/
theorem dispatch_does
    {words : Words}
    {sent : Payload}
    {input : ClientInput}
    (hUp : Up terms c)
    (hReady : c.session.Ready keys)
    (hMay : MayHear terms input)
    (hMeans :
      Means terms.config.opcodes
        (terms.requestHandlers .client) words sent) :
    DispatchDoes S terms keys input words sent c := by
  cases words with
  | request id payload =>
      exact request_does hUp hReady hMay hMeans
  | reply id answer => exact reply_does input
  | opening streamId opCode => exact opening_does hUp hMay
  | item streamId item => exact item_does hMay
  | plain payload => exact plain_does hUp hMay hMeans

theorem onMessage_does
    {words : Words}
    {payload : Payload}
    {session : Session}
    {packet : Bytes}
    {input : ClientInput}
    (hUp : Up terms c)
    (hDistinct : terms.config.opcodes.Distinct)
    (hReady : c.session.Ready keys)
    (hAfter : session.Ready keys)
    (hMay : MayHear terms input)
    (hCarries :
      Carries terms.config (terms.requestHandlers .client) words
        payload)
    (hOpens :
      c.session.decryptPacket S packet =
        (.ok payload, session)) :
    let o := (onMessage S input { payload := packet }).run c
    Up terms o.state ∧
      Does S terms keys .client (some words) c.ending session
        (o.effects.filterMap ClientEffect.packet?)
        (hearSeen S input packet c)
        o.state.session o.state.ending := by
  dsimp only
  have hOpened : Up terms { c with session := session } :=
    hUp.of_steady ⟨rfl, rfl, rfl, rfl⟩
  rcases
      dispatch_does (S := S) hOpened hAfter hMay
        hCarries.means with
    ⟨effects, c', hRun, hSteady, hDoes⟩
  rw [← hUp.config] at hDistinct
  rw [← hUp.config, ← hUp.handlers] at hCarries
  have hMessage :=
    onMessage_carried hDistinct hCarries hOpens hRun
  have hRead := read_carried hDistinct hReady hCarries hOpens
  unfold hearSeen
  rw [hMessage, hRead]
  exact ⟨hOpened.of_steady hSteady, hDoes⟩

end WsClient

end ObscuraProto
