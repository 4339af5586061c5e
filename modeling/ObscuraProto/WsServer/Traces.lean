import ObscuraProto.WsServer.Steps

/-
  What the thread of a message does after what it has done.

  Whatever other threads do in between: a response is
  accepted, a handler called and a session stored only after
  earlier steps of the same thread that say why.  The trace
  of the thread holds these steps.

  Key definitions include:
    * `WsServer.registeredAt`, `WsServer.Routes`
    * `WsServer.Opened`, `WsServer.Reads`
    * `WsServer.Dispatches`, `WsServer.Welcomes`
    * `ServerEvent.mayAfter`

  Key theorems include:
    * `WsServer.dispatch_traces`
    * `WsServer.handshake_traces`
    * `WsServer.handle_traces`
-/

namespace ObscuraProto

open Effectful Threads

namespace WsServer

------------------------------------------------------------
-- Registered Handlers
------------------------------------------------------------

def opRegistration
    (isAuth : Bool)
    (opCode : OpCode) : Registration :=
  if isAuth then
    .opHandler opCode
  else
    .anonOpHandler opCode

def requestRegistration
    (isAuth : Bool)
    (opCode : OpCode) : Registration :=
  if isAuth then
    .requestHandler opCode
  else
    .anonRequestHandler opCode

def defaultRegistration (isAuth : Bool) : Registration :=
  if isAuth then
    .defaultPayloadHandler
  else
    .anonDefaultPayloadHandler

def streamRegistration
    (isAuth : Bool)
    (opCode : OpCode) : Registration :=
  if isAuth then
    .streamHandler opCode
  else
    .anonStreamHandler opCode

/- The registrations that concern messages of a kind. -/
inductive Routes (isAuth : Bool) :
    Message → Registration → Prop
| op (payload : Payload) :
    Routes isAuth (.application payload)
      (opRegistration isAuth payload.opCode)
| request (payload : Payload) :
    Routes isAuth (.application payload)
      (requestRegistration isAuth payload.opCode)
| fallback (payload : Payload) :
    Routes isAuth (.application payload)
      (defaultRegistration isAuth)
| stream (streamId : UInt32) (opCode : OpCode) :
    Routes isAuth (.streamStart streamId (some opCode))
      (streamRegistration isAuth opCode)
| incoming (streamId : UInt32) (opCode : Option OpCode) :
    Routes isAuth (.streamStart streamId opCode)
      .incomingStreamHandler

/- The handler of messages that a registration has set. -/
def registeredAt (w : WsServer) :
    Registration → Option HandlerId
| .opHandler opCode =>
    w.dispatchers.opCodeHandlers[opCode]?.join
| .anonOpHandler opCode =>
    w.anonDispatchers.opCodeHandlers[opCode]?.join
| .requestHandler opCode =>
    w.dispatchers.requestHandlers[opCode]?.join
| .anonRequestHandler opCode =>
    w.anonDispatchers.requestHandlers[opCode]?.join
| .streamHandler opCode =>
    w.dispatchers.streamHandlers[opCode]?.join
| .anonStreamHandler opCode =>
    w.anonDispatchers.streamHandlers[opCode]?.join
| .defaultPayloadHandler =>
    w.dispatchers.defaultPayloadHandler
| .anonDefaultPayloadHandler =>
    w.anonDispatchers.defaultPayloadHandler
| .incomingStreamHandler => w.incomingStreamHandler
| _ => none

theorem registeredAt_op
    (isAuth : Bool)
    (opCode : OpCode)
    (w : WsServer) :
    w.registeredAt (opRegistration isAuth opCode) =
      (w.dispatchersOf isAuth).opCodeHandlers[opCode]?.join := by
  cases isAuth <;> rfl

theorem registeredAt_request
    (isAuth : Bool)
    (opCode : OpCode)
    (w : WsServer) :
    w.registeredAt (requestRegistration isAuth opCode) =
      (w.dispatchersOf isAuth).requestHandlers[opCode]?.join := by
  cases isAuth <;> rfl

theorem registeredAt_fallback
    (isAuth : Bool)
    (w : WsServer) :
    w.registeredAt (defaultRegistration isAuth) =
      (w.dispatchersOf isAuth).defaultPayloadHandler := by
  cases isAuth <;> rfl

theorem registeredAt_stream
    (isAuth : Bool)
    (opCode : OpCode)
    (w : WsServer) :
    w.registeredAt (streamRegistration isAuth opCode) =
      (w.dispatchersOf isAuth).streamHandlers[opCode]?.join := by
  cases isAuth <;> rfl

------------------------------------------------------------
-- What a Trace Shows
------------------------------------------------------------

/- The steps that a thread of the server has taken. -/
abbrev Trace := List (Transition WsServer ServerEffect)

/- The thread has met such a state. -/
def Seen (P : WsServer → Prop) (trace : Trace) : Prop :=
  ∃ m ∈ trace, P m.before

/- The packet was opened on a session of that table. -/
def Opened
    (S : Sodium)
    (hdl : Hdl)
    (packet : Bytes)
    (isAuth : Bool)
    (payload : Payload)
    (trace : Trace) : Prop :=
  ∃ m ∈ trace, ∃ opened : Crypto.DecryptedResult,
    opened.payload = payload ∧
      Accepts S hdl packet isAuth opened m.before m.effects
        m.after

/- What was opened is such a message. -/
def Reads
    (S : Sodium)
    (hdl : Hdl)
    (packet : Bytes)
    (isAuth : Bool)
    (message : Message)
    (trace : Trace) : Prop :=
  ∃ payload,
    Opened S hdl packet isAuth payload trace ∧
      Seen
        (fun w =>
          Message.parse w.config.opcodes payload =
            .ok message)
        trace

/- The handler was registered for the message read. -/
def Dispatches
    (S : Sodium)
    (hdl : Hdl)
    (packet : Bytes)
    (isAuth : Bool)
    (handler : HandlerId)
    (message : Message)
    (trace : Trace) : Prop :=
  ∃ registration,
    Reads S hdl packet isAuth message trace ∧
      Routes isAuth message registration ∧
      Seen
        (fun w => w.registeredAt registration = some handler)
        trace

/- The thread has made a stream that sends on the connection. -/
def MakesStream
    (hdl : Hdl)
    (isAuth : Bool)
    (ref : StreamRef)
    (trace : Trace) : Prop :=
  ∃ m ∈ trace, ∃ streamId opCode,
    m.before.streams.objects.length = ref ∧
      m.after.streams.objects[ref]? =
        some
          { streamId := streamId
            sendFn :=
              if isAuth then
                .send hdl
              else
                .sendAnonymous hdl
            opCode := opCode }

/-
  The hello was answered by that session, and if it has an
  identity then the identity handler has consented.
-/
def Welcomes
    (S : Sodium)
    (input : IoInput)
    (data : Bytes)
    (isAuth : Bool)
    (session : Session)
    (trace : Trace) : Prop :=
  ∃ hello reply,
    Seen (Answers S input.kx data hello reply session) trace ∧
      isAuth = hello.hasClientIdentity ∧
      (isAuth = true → Seen (Consents input) trace)

/- The callbacks of a message, by what was read before. -/
def callbackMay
    (S : Sodium)
    (hdl : Hdl)
    (packet : Bytes)
    (trace : Trace) : ServerCallback → Prop
| .onOpen _ _ => False
| .onClose _ _ => False
| .identity _ hdl' _ => hdl' = hdl
| .payload handler hdl' payload =>
    hdl' = hdl ∧
      ∃ isAuth,
        Dispatches S hdl packet isAuth handler
          (.application payload) trace
| .request handler hdl' _ =>
    hdl' = hdl ∧
      ∃ isAuth payload,
        Dispatches S hdl packet isAuth handler
          (.application payload) trace
| .incomingStream handler ref =>
    ∃ isAuth,
      MakesStream hdl isAuth ref trace ∧
        ∃ streamId opCode,
          Dispatches S hdl packet isAuth handler
            (.streamStart streamId opCode) trace
| .streamData _ _ =>
    ∃ isAuth message,
      Reads S hdl packet isAuth message trace
| .streamEnd _ =>
    ∃ isAuth message,
      Reads S hdl packet isAuth message trace
| .streamCancel _ =>
    ∃ isAuth message,
      Reads S hdl packet isAuth message trace

/- Only counters and the time of activity differ. -/
def Continues (state state' : ConnectionState) : Prop :=
  ∃ sent received now,
    state' =
      { state with
        session :=
          { state.session with
            sendCounter := sent
            recvCounter := received }
        lastActivityMs := now }

/- The same connections are stored, each continued. -/
def Advances (w w' : WsServer) : Prop :=
  ∀ (isAuth : Bool) (hdl : Hdl),
    Option.Rel Continues
      (w.sessionTable.table isAuth)[hdl]?
      (w'.sessionTable.table isAuth)[hdl]?

def messageMay
    (S : Sodium)
    (input : IoInput)
    (hdl : Hdl)
    (frame : Frame)
    (trace : Trace) : May where
  receives := Advances
  establishes := (· = hdl)
  stores := fun isAuth state =>
    Welcomes S input frame.payload isAuth state.session trace
  usesStreams := True
  requests := fun s =>
    ∃ isAuth requestId response,
      s = .responds hdl requestId response ∧
        Reads S hdl frame.payload isAuth
          (.response requestId response) trace
  invokes := callbackMay S hdl frame.payload trace

end WsServer

/- What an event may do next, after the steps in the trace. -/
def ServerEvent.mayAfter
    (S : Sodium)
    (trace : WsServer.Trace) : ServerEvent → May
| .message input hdl frame =>
    WsServer.messageMay S input hdl frame trace
| event => event.may

namespace WsServer

variable {S : Sodium}
variable {P : WsServer → Prop}
variable {trace : Trace}

theorem Seen.append
    (hSeen : Seen P trace)
    (more : Trace) :
    Seen P (trace ++ more) := by
  rcases hSeen with ⟨m, hMem, hState⟩
  exact ⟨m, List.mem_append_left _ hMem, hState⟩

theorem seen_last
    {w w' : WsServer}
    {effects : List ServerEffect}
    (hState : P w) :
    Seen P (trace ++ [⟨w, effects, w'⟩]) :=
  ⟨⟨w, effects, w'⟩, by simp, hState⟩

theorem Opened.append
    {hdl : Hdl}
    {packet : Bytes}
    {isAuth : Bool}
    {payload : Payload}
    (hOpened : Opened S hdl packet isAuth payload trace)
    (more : Trace) :
    Opened S hdl packet isAuth payload (trace ++ more) := by
  rcases hOpened with ⟨m, hMem, hAccepts⟩
  exact ⟨m, List.mem_append_left _ hMem, hAccepts⟩

theorem Reads.append
    {hdl : Hdl}
    {packet : Bytes}
    {isAuth : Bool}
    {message : Message}
    (hReads : Reads S hdl packet isAuth message trace)
    (more : Trace) :
    Reads S hdl packet isAuth message (trace ++ more) := by
  rcases hReads with ⟨payload, hOpened, hSeen⟩
  exact ⟨payload, hOpened.append more, hSeen.append more⟩

/- Code without permissions may run anywhere. -/
theorem Move.of_plain
    {may : May}
    {w w' : WsServer}
    {effects : List ServerEffect}
    (hMove : Move S {} w effects w') :
    Move S may w effects w' := by
  cases hMove with
  | reads => exact .reads
  | closes hdls status reason =>
      exact .closes hdls status reason
  | handsOver nonce payload hStored hReady =>
      exact .handsOver nonce payload hStored hReady
  | limits hCounts => exact .limits hCounts
  | takesRequestId hMay => exact hMay.elim
  | takesStreamId => exact .takesStreamId
  | closesLate status reason late =>
      exact .closesLate status reason late
  | clearsTime hdl => exact .clearsTime hdl
  | invokes hMay => exact hMay.elim
  | requests hMay => exact hMay.elim
  | registersStream _ _ hMay => exact hMay.elim
  | dropsStream _ _ hMay => exact hMay.elim
  | registers _ _ hMay => exact hMay.elim
  | opens _ hMay => exact hMay.elim
  | receives hMay _ => exact hMay.elim
  | replies _ hMay => exact hMay.elim
  | counts _ hMay => exact hMay.elim
  | stores _ _ hMay _ => exact hMay.elim
  | identifies _ hMay => exact hMay.elim
  | closesSessions hMay => exact hMay.elim
  | closesStreams hMay => exact hMay.elim
  | unregisters hMay => exact hMay.elim
  | stops hMay => exact hMay.elim
  | stopsSessions hMay _ => exact hMay.elim
  | forgetsIdentities hMay => exact hMay.elim

------------------------------------------------------------
-- Dispatch
------------------------------------------------------------

/- Short for: from the trace on, within its permissions. -/
abbrev MessageTraces
    {α : Type}
    (S : Sodium)
    (input : IoInput)
    (hdl : Hdl)
    (frame : Frame)
    (trace : Trace)
    (act : ServerAction α) : Prop :=
  Traces (fun _ => True)
    (fun trace => Move S (messageMay S input hdl frame trace))
    (fun _ => True) trace act

variable {input : IoInput}
variable {hdl : Hdl}
variable {frame : Frame}

theorem plain_traces
    {α : Type}
    {act : ServerAction α}
    (hAct : Moves S {} act)
    (trace : Trace) :
    MessageTraces S input hdl frame trace act :=
  .of_ensures hAct (fun _ _ _ _ hMove => Move.of_plain hMove)
    (fun _ => trivial) trace

theorem plain_bind_traces
    {α β : Type}
    {act : ServerAction α}
    {g : α → ServerAction β}
    (hAct : Moves S {} act)
    (hNext :
      ∀ a more,
        MessageTraces S input hdl frame (trace ++ more)
          (g a)) :
    MessageTraces S input hdl frame trace (act >>= g) :=
  .ensures_bind hAct
    (fun _ _ _ _ hMove => Move.of_plain hMove) hNext

/- What follows may run after anything. -/
theorem message_bind_traces
    {α β : Type}
    {act : ServerAction α}
    {g : α → ServerAction β}
    (hAct : MessageTraces S input hdl frame trace act)
    (hNext :
      ∀ a trace, MessageTraces S input hdl frame trace (g a)) :
    MessageTraces S input hdl frame trace (act >>= g) :=
  .bind hAct (fun a _ _ => hNext a _)

theorem return_traces
    {α : Type}
    (a : α) :
    MessageTraces S input hdl frame trace
      (pure a : ServerAction α) :=
  .returned a trivial

/- The state that was read is remembered. -/
theorem get_bind_traces
    {β : Type}
    {g : WsServer → ServerAction β}
    (hNext :
      ∀ w,
        MessageTraces S input hdl frame
          (trace ++ [⟨w, [], w⟩]) (g w)) :
    MessageTraces S input hdl frame trace
      (Action.get >>= g) := by
  refine .atomic_bind (fun _ _ => .reads) ?_
  intro w w' _ hRead
  cases hRead
  exact hNext w

theorem invoke_bind_traces
    {α β : Type}
    {callback : ServerCallback}
    (hMay : callbackMay S hdl frame.payload trace callback)
    {answer : Except Exception α}
    {g : α → ServerAction β}
    (hNext :
      ∀ a more, answer = .ok a →
        MessageTraces S input hdl frame (trace ++ more)
          (g a)) :
    MessageTraces S input hdl frame trace
      (invoke callback answer >>= g) := by
  unfold invoke
  rw [Action.bind_assoc]
  refine .atomic_bind (fun _ _ => .invokes hMay) ?_
  intro w _ _ _
  refine .ofExcept_bind ?_
  intro a hAnswer
  exact hNext a _ hAnswer

theorem invokeHandler_traces
    {handler : Option HandlerId}
    {callback : HandlerId → ServerCallback}
    (hMay :
      ∀ h, handler = some h →
        callbackMay S hdl frame.payload trace (callback h))
    (answer : Except Exception Unit) :
    MessageTraces S input hdl frame trace
      (invokeHandler handler callback answer) := by
  cases handler with
  | none => exact return_traces ()
  | some handler =>
      refine .atomic_bind (fun _ _ => .invokes (hMay _ rfl)) ?_
      intro w _ _ _
      exact plain_traces (Ensures.ofExcept _) _

theorem dispatchStream_traces
    {isAuth : Bool}
    {message : Message}
    (hReads :
      Reads S hdl frame.payload isAuth message trace)
    {callback : HandlerId → ServerCallback}
    (hMay :
      ∀ handler trace,
        Reads S hdl frame.payload isAuth message trace →
          callbackMay S hdl frame.payload trace
            (callback handler))
    (stream : Option StreamRef)
    (handlerOf : Stream ServerSendFn → Option HandlerId) :
    MessageTraces S input hdl frame trace
      (dispatchStream input stream handlerOf callback) := by
  refine get_bind_traces ?_
  intro w
  refine invokeHandler_traces ?_ _
  intro handler _
  exact hMay handler _ (hReads.append _)

theorem dispatchStreamStart_traces
    {isAuth : Bool}
    {streamId : UInt32}
    {opCode : Option OpCode}
    (hReads :
      Reads S hdl frame.payload isAuth
        (.streamStart streamId opCode) trace) :
    MessageTraces S input hdl frame trace
      (dispatchStreamStart input hdl isAuth streamId
        opCode) := by
  refine
    .atomic_bind
      (fun _ _ => .registersStream hdl _ trivial) ?_
  intro w₀ ref _ hRef
  refine get_bind_traces ?_
  intro w
  refine invokeHandler_traces ?_ _
  intro handler hHandler
  refine ⟨isAuth, ?_, streamId, opCode, ?_⟩
  · cases hRef
    exact
      ⟨_, List.mem_append_left _ (List.mem_append_right _
          (List.mem_singleton_self _)),
        streamId, opCode, rfl, List.getElem?_concat_length⟩
  cases hFound :
      opCode.bind
        ((w.dispatchersOf isAuth).streamHandlers[·]?) with
  | none =>
      simp only [hFound] at hHandler
      exact
        ⟨_, (hReads.append _).append _,
          .incoming streamId opCode, seen_last hHandler⟩
  | some found =>
      simp only [hFound] at hHandler
      rcases Option.bind_eq_some_iff.mp hFound with
        ⟨code, hCode, hEntry⟩
      subst hCode
      refine
        ⟨_, (hReads.append _).append _,
          .stream streamId code, seen_last ?_⟩
      rw [registeredAt_stream, hEntry, hHandler]
      rfl

theorem dispatchPayload_traces
    {isAuth : Bool}
    {payload : Payload}
    (hReads :
      Reads S hdl frame.payload isAuth
        (.application payload) trace) :
    MessageTraces S input hdl frame trace
      (dispatchPayload S input hdl isAuth payload) := by
  refine get_bind_traces ?_
  intro w
  have hNow := hReads.append [⟨w, [], w⟩]
  dsimp only
  split
  · exact return_traces ()
  · next handler hEntry =>
      refine .ofExcept_bind ?_
      intro requestId _
      refine invoke_bind_traces ?_ ?_
      · refine
          ⟨rfl, isAuth, payload, _, hNow, .request payload,
            seen_last ?_⟩
        rw [registeredAt_request, hEntry]
        rfl
      · intro response more _
        split
        · exact plain_traces (sendResponse_moves S _ _ _ _) _
        · exact
            plain_traces (sendAnonymousResponse_moves S _ _ _ _)
              _
  · refine invokeHandler_traces ?_ _
    intro handler hHandler
    refine ⟨rfl, isAuth, ?_⟩
    cases hEntry :
        (w.dispatchersOf isAuth).opCodeHandlers[
          payload.opCode]? with
    | none =>
        simp only [hEntry] at hHandler
        refine ⟨_, hNow, .fallback payload, seen_last ?_⟩
        rw [registeredAt_fallback, hHandler]
    | some found =>
        simp only [hEntry] at hHandler
        refine ⟨_, hNow, .op payload, seen_last ?_⟩
        rw [registeredAt_op, hEntry, hHandler]
        rfl

theorem dispatch_traces
    {isAuth : Bool}
    {payload : Payload}
    (hOpened :
      Opened S hdl frame.payload isAuth payload trace) :
    MessageTraces S input hdl frame trace
      (dispatch S input hdl isAuth payload) := by
  refine get_bind_traces ?_
  intro w
  refine .ofExcept_bind ?_
  intro message hMessage
  have hReads :
      Reads S hdl frame.payload isAuth message
        (trace ++ [⟨w, [], w⟩]) :=
    ⟨payload, hOpened.append _, seen_last hMessage⟩
  cases message with
  | response requestId response =>
      refine .step ?_ ?_
      · intro w' _
        exact
          .requests (s := .responds hdl requestId response)
            ⟨isAuth, requestId, response, rfl, hReads⟩
      · intro w' _
        exact .returned () trivial
  | streamStart streamId opCode =>
      exact dispatchStreamStart_traces hReads
  | streamData streamId data =>
      refine plain_bind_traces (findStream_moves S _ _) ?_
      intro stream more
      refine
        dispatchStream_traces (hReads.append more) ?_ _ _
      exact fun _ _ hNow => ⟨_, _, hNow⟩
  | streamEnd streamId =>
      refine plain_bind_traces (findStream_moves S _ _) ?_
      intro stream more
      refine
        dispatchStream_traces (hReads.append more) ?_ _ _
      exact fun _ _ hNow => ⟨_, _, hNow⟩
  | streamCancel streamId =>
      refine
        .atomic_bind
          (fun _ _ => .dropsStream hdl streamId trivial) ?_
      intro w' stream _ _
      refine dispatchStream_traces (hReads.append _) ?_ _ _
      exact fun _ _ hNow => ⟨_, _, hNow⟩
  | application payload =>
      exact dispatchPayload_traces hReads

------------------------------------------------------------
-- The Handshake
------------------------------------------------------------

/- The session is stored by the permission of the trace. -/
theorem establish_traces
    {session : Session}
    {identity : Option PublicKey}
    (hWelcomes :
      Welcomes S input frame.payload identity.isSome session
        trace) :
    MessageTraces S input hdl frame trace
      (establish input hdl session identity) := by
  refine .atomic_bind (fun _ _ => .counts _ rfl) ?_
  intro w connId _ _
  refine .atomic_bind ?_ ?_
  · intro w' _
    refine .stores identity.isSome _ rfl ?_
    rcases hWelcomes with
      ⟨hello, reply, hAnswers, hFlag, hConsents⟩
    exact
      ⟨hello, reply, hAnswers.append _, hFlag,
        fun hAuth => (hConsents hAuth).append _⟩
  · intro w' _ _ _
    cases identity with
    | none => exact return_traces ()
    | some clientPk =>
        refine .step (fun _ _ => .identifies clientPk rfl) ?_
        intro w'' _
        exact .returned () trivial

/- An accepted identity shows in the trace. -/
theorem identityAccepted_bind_traces
    {β : Type}
    {clientPk : PublicKey}
    {g : Bool → ServerAction β}
    (hNext :
      ∀ accepted more,
        (accepted = true →
            Seen (Consents input) (trace ++ more)) →
          MessageTraces S input hdl frame (trace ++ more)
            (g accepted)) :
    MessageTraces S input hdl frame trace
      (identityAccepted input hdl clientPk >>= g) := by
  unfold identityAccepted
  rw [Action.bind_assoc]
  refine get_bind_traces ?_
  intro w
  cases hHandler : w.clientIdentityHandler with
  | none =>
      exact
        hNext true _ (fun _ => seen_last (Or.inl hHandler))
  | some handler =>
      refine invoke_bind_traces ?_ ?_
      · exact rfl
      intro accepted more hAnswer
      rw [List.append_assoc]
      apply hNext accepted
      intro hAccepted
      rw [hAccepted] at hAnswer
      exact ⟨⟨w, [], w⟩, by simp, Or.inr hAnswer⟩

theorem conclude_traces
    {hello : ClientHello}
    {reply : ServerHello}
    {session : Session}
    (hAnswers :
      Seen
        (Answers S input.kx frame.payload hello reply session)
        trace) :
    MessageTraces S input hdl frame trace
      (conclude input hdl hello session) := by
  have hPeer : session.peerIdentity =
      if hello.hasClientIdentity then
        some hello.identityPk
      else
        none := by
    rcases hAnswers with ⟨_, _, hAnswers⟩
    exact hAnswers.peerIdentity
  refine
    plain_bind_traces
      (limiterRecord_moves S
        (fun rl => rl.recordHandshake_counts _ _)) ?_
  intro _ more
  have hNow := hAnswers.append more
  have hClear
      (u : Unit)
      (trace : Trace) :
      MessageTraces S input hdl frame trace
        (clearHandshakeTime hdl) :=
    plain_traces (clearHandshakeTime_moves S hdl) trace
  dsimp only
  cases hFlag : hello.hasClientIdentity with
  | false =>
      simp only
      refine message_bind_traces ?_ hClear
      apply establish_traces
      exact
        ⟨hello, reply, hNow, hFlag.symm, fun hAuth => by cases hAuth⟩
  | true =>
      rw [hFlag] at hPeer
      simp only [if_true] at hPeer
      simp only [Session.getPeerIdentity, hPeer]
      refine message_bind_traces ?_ hClear
      refine identityAccepted_bind_traces ?_
      intro accepted more' hConsents
      split
      · next hAccepted =>
          apply establish_traces
          exact
            ⟨hello, reply, hNow.append _, hFlag.symm,
              fun _ => hConsents hAccepted⟩
      · exact plain_traces (closeHdl_moves S _ _ _ _) _

theorem handshake_traces (trace : Trace) :
    MessageTraces S input hdl frame trace
      (handshake S input hdl frame.payload) := by
  refine
    plain_bind_traces
      (limiterCheck_moves S
        (fun rl => rl.checkHandshakeRate_counts _ _)) ?_
  intro allowed more
  split
  · exact plain_traces (closeHdl_moves S _ _ _ _) _
  · refine .ofExcept_bind ?_
    intro hello hHello
    refine get_bind_traces ?_
    intro w
    dsimp only
    cases hReply :
        (Session.new .server w.serverSignKey
          w.config.supportedVersions
          ).serverRespondToHandshake S input.kx hello with
    | mk reply session =>
        refine .ofExcept_bind ?_
        intro serverHello hOk
        simp only at hOk
        rw [hOk] at hReply
        refine .atomic_bind (fun _ _ => .replies _ rfl) ?_
        intro w' _ _ _
        refine .ofExcept_bind ?_
        intro _ _
        apply conclude_traces
        exact Seen.append (seen_last ⟨hHello, hReply⟩) _

------------------------------------------------------------
-- The First Section
------------------------------------------------------------

theorem Continues.refl (state : ConnectionState) :
    Continues state state :=
  ⟨state.session.sendCounter, state.session.recvCounter,
    state.lastActivityMs, rfl⟩

/- Tables that agree but for one continued connection. -/
theorem advances_of_store
    {w w' : WsServer}
    {isAuth : Bool}
    {hdl : Hdl}
    {state state' : ConnectionState}
    (hStored :
      (w.sessionTable.table isAuth)[hdl]? = some state)
    (hContinues : Continues state state')
    (hTable :
      w'.sessionTable =
        w.sessionTable.store isAuth hdl state') :
    Advances w w' := by
  intro isAuth' hdl'
  have hSame
      (entry : Option ConnectionState) :
      Option.Rel Continues entry entry := by
    cases entry with
    | none => exact .none
    | some state => exact .some (Continues.refl state)
  rw [hTable]
  by_cases hSide : isAuth' = isAuth
  · subst hSide
    rw [SessionTable.table_store_self]
    by_cases hHdl : hdl' = hdl
    · subst hHdl
      rw [Std.ExtTreeMap.getElem?_insert_self, hStored]
      exact .some hContinues
    · rw [OrderedMap.getElem?_insert_of_ne hHdl]
      exact hSame _
  · rw [Bool.eq_not.mpr hSide, SessionTable.table_store_not]
    exact hSame _

theorem advances_of_eq
    {w w' : WsServer}
    (hTable : w'.sessionTable = w.sessionTable) :
    Advances w w' := by
  intro isAuth hdl
  rw [hTable]
  cases (w.sessionTable.table isAuth)[hdl]? with
  | none => exact .none
  | some state => exact .some (Continues.refl state)

variable (S) in
theorem receive_advances
    (input : IoInput)
    (hdl : Hdl)
    (packet : Bytes)
    (w : WsServer) :
    Advances w ((receive S input hdl packet).run w).state := by
  rcases (receive_spec S input hdl packet w).1 with
    ⟨hQuiet, _⟩ | ⟨isAuth, opened, hAccepts, _⟩
  · exact advances_of_eq hQuiet.sessionTable
  · rcases hAccepts.connection with
      ⟨state, keys, now, hStored, _, _, _, hTable⟩
    exact
      advances_of_store hStored ⟨_, _, _, rfl⟩ hTable

------------------------------------------------------------
-- Every Event
------------------------------------------------------------

theorem onMessage_traces
    (input : IoInput)
    (hdl : Hdl)
    (frame : Frame) :
    MessageTraces S input hdl frame []
      (onMessage S input hdl frame) := by
  unfold onMessage
  split
  · exact return_traces ()
  · refine .atomic_bind ?_ ?_
    · intro w _
      have hWithin := receive_within S input hdl frame.payload w
      have hAdvances :=
        receive_advances S input hdl frame.payload w
      rw [receive, Action.run_atomically] at hWithin hAdvances
      exact .receives hAdvances hWithin
    · intro w received _ hReceived
      cases received with
      | ignored => exact return_traces ()
      | decrypted isAuth payload =>
          refine
            .catchAll (dispatch_traces ?_)
              (fun _ _ => return_traces ())
          rcases (receive_spec S input hdl frame.payload w).1
            with ⟨_, hNot⟩ |
              ⟨isAuth', opened, hAccepts, hReports⟩
          · rw [receive, Action.run_atomically] at hNot
            exact absurd hReceived (hNot isAuth payload)
          · rw [receive, Action.run_atomically] at hAccepts hReports
            rcases hReports.decrypted isAuth payload hReceived
              with ⟨hSide, hPayload⟩
            subst hSide
            exact
              ⟨_, List.mem_singleton_self _, opened,
                hPayload.symm, hAccepts⟩
      | unknown =>
          refine .catchAll (handshake_traces _) ?_
          intro _ _
          exact plain_traces (closeHdl_moves S _ _ _ _) _

/- Every step of an event, with what its thread has done. -/
theorem handle_traces
    (S : Sodium)
    (event : ServerEvent) :
    Traces (fun _ => True)
      (fun trace => Move S (event.mayAfter S trace))
      (fun _ => True) [] (handle S event) := by
  have hPlain
      (hSame : ∀ trace, event.mayAfter S trace = event.may) :
      Traces (fun _ => True)
        (fun trace => Move S (event.mayAfter S trace))
        (fun _ => True) [] (handle S event) := by
    apply Traces.of_ensures (handle_moves S event)
    · intro trace w effects w' hMove
      rw [hSame trace]
      exact hMove
    · exact fun _ => trivial
  cases event with
  | message input hdl frame =>
      exact onMessage_traces input hdl frame
  | opened | closed | timeouts | call =>
      exact hPlain (fun _ => rfl)

end WsServer

end ObscuraProto
