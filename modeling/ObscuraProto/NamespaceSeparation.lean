import ObscuraProto.WsServer.Pool
import ObscuraProto.WsServer.Streams

/-
  Handlers of authenticated and of anonymous connections.

  In every interleaving: a handler of messages is called only
  in the thread of a message, for the connection of this
  message, after the packet was opened on a stored session,
  and it was registered for the kind of that session.  An
  authenticated session stems from a hello whose identity
  signed the ephemeral key and was consented to when the
  hello was answered.

  Key definitions include:
    * `NamespaceSeparation.Handled`
    * `NamespaceSeparation.Authenticated`
    * `NamespaceSeparation.CalledFor`
    * `NamespaceSeparation.Served`

  Key theorems include:
    * `NamespaceSeparation.known_of_run`
    * `NamespaceSeparation.namespaces_separate`
-/

namespace ObscuraProto

open Effectful Threads

/- The kind of session a registration of handlers is for. -/
def WsServer.Registration.kind :
    WsServer.Registration → Option Bool
| .opHandler _ => some true
| .requestHandler _ => some true
| .streamHandler _ => some true
| .defaultPayloadHandler => some true
| .anonOpHandler _ => some false
| .anonRequestHandler _ => some false
| .anonStreamHandler _ => some false
| .anonDefaultPayloadHandler => some false
| _ => none

/- The handler that is called, if it handles messages. -/
def ServerCallback.messageHandler :
    ServerCallback → Option HandlerId
| .payload handler _ _ => some handler
| .request handler _ _ => some handler
| .incomingStream handler _ => some handler
| _ => none

/- It is called because of a payload that was received. -/
def ServerCallback.ofPayload : ServerCallback → Bool
| .payload _ _ _ => true
| .request _ _ _ => true
| .incomingStream _ _ => true
| .streamData _ _ => true
| .streamEnd _ => true
| .streamCancel _ => true
| _ => false

namespace NamespaceSeparation

open WsServer

abbrev Labels := List (Label ServerCall IoEvent)

variable {S : Sodium}

------------------------------------------------------------
-- The Property
------------------------------------------------------------

/- The handler was registered by a call of the run. -/
def Registered
    (labels : Labels)
    (registration : Registration)
    (handler : HandlerId) : Prop :=
  .call (.method (.register registration (some handler))) ∈
    labels

/- At some time, the event's thread had taken these steps. -/
def Handled
    (S : Sodium)
    (start : WsServer)
    (labels : Labels)
    (event : ServerEvent)
    (trace : Trace) : Prop :=
  ∃ earlier q thread,
    earlier <+: labels ∧
      StateMachine.Run (PoolStep S) (pool start) earlier q ∧
      q.events = some thread ∧
      thread.call.val = event ∧ thread.trace = trace

/- What the hello of an authenticated session was like. -/
structure Admitted
    (S : Sodium)
    (input : IoInput)
    (hello : ClientHello)
    (session : Session)
    (trace : Trace) : Prop where
  identified : hello.hasClientIdentity = true
  verified :
    Crypto.verify S hello.identitySig
      hello.ephemeralPk.data hello.identityPk = true
  accepted : Seen (Consents input) trace
  peer : session.peerIdentity = some hello.identityPk
  keys :
    ∃ keys,
      Crypto.serverComputeSessionKeys S input.kx.keyPair
          hello.ephemeralPk = .ok keys ∧
        session.sessionKeys = some keys

/- The session stems from such a hello on its connection. -/
def Authenticated
    (S : Sodium)
    (start : WsServer)
    (labels : Labels)
    (hdl : Hdl)
    (session : Session) : Prop :=
  ∃ input frame trace hello,
    Handled S start labels (.message input hdl frame) trace ∧
      ClientHello.deserialize frame.payload = .ok hello ∧
      Admitted S input hello session trace

/- The packet was opened on a session stored at that time. -/
def OpenedFor
    (S : Sodium)
    (hdl : Hdl)
    (frame : Frame)
    (earlier : Trace) : Prop :=
  ∃ isAuth state opened, ∃ m ∈ earlier,
    Accepts S hdl frame.payload isAuth opened m.before
        m.effects m.after ∧
      (m.before.sessionTable.table isAuth)[hdl]? =
        some state

/-
  The handler is given this connection, or a stream that was
  made for it and sends on it.
-/
def CalledFor
    (hdl : Hdl)
    (isAuth : Bool)
    (earlier : Trace) : ServerCallback → Prop
| .payload _ hdl' _ => hdl' = hdl
| .request _ hdl' _ => hdl' = hdl
| .incomingStream _ ref => MakesStream hdl isAuth ref earlier
| _ => True

/-
  The packet was opened on a session of the kind that the
  handler is registered for, and the handler is called for
  the connection of that session.
-/
def Served
    (S : Sodium)
    (start : WsServer)
    (labels : Labels)
    (hdl : Hdl)
    (frame : Frame)
    (callback : ServerCallback)
    (handler : HandlerId)
    (earlier : Trace) : Prop :=
  ∃ isAuth registration state opened, ∃ m ∈ earlier,
    CalledFor hdl isAuth earlier callback ∧
      Registered labels registration handler ∧
      (registration.kind = some isAuth ∨
        registration = .incomingStreamHandler) ∧
      Accepts S hdl frame.payload isAuth opened m.before
        m.effects m.after ∧
      (m.before.sessionTable.table isAuth)[hdl]? =
        some state ∧
      (isAuth = true →
        Authenticated S start labels hdl state.session)

------------------------------------------------------------
-- Longer Runs
------------------------------------------------------------

theorem Registered.snoc
    {labels : Labels}
    {registration : Registration}
    {handler : HandlerId}
    (hRegistered : Registered labels registration handler)
    (l : Label ServerCall IoEvent) :
    Registered (labels ++ [l]) registration handler :=
  List.mem_append_left _ hRegistered

theorem Authenticated.snoc
    {start : WsServer}
    {labels : Labels}
    {hdl : Hdl}
    {session : Session}
    (hAuthenticated :
      Authenticated S start labels hdl session)
    (l : Label ServerCall IoEvent) :
    Authenticated S start (labels ++ [l]) hdl session := by
  rcases hAuthenticated with
    ⟨input, frame, trace, hello,
      ⟨earlier, q, thread, hPrefix, hHandled⟩, hAdmitted⟩
  exact
    ⟨input, frame, trace, hello,
      ⟨earlier, q, thread,
        hPrefix.trans (List.prefix_append labels [l]),
        hHandled⟩,
      hAdmitted⟩

/- Counters and times do not matter. -/
theorem Authenticated.continues
    {start : WsServer}
    {labels : Labels}
    {hdl : Hdl}
    {state state' : ConnectionState}
    (hAuthenticated :
      Authenticated S start labels hdl state.session)
    (hContinues : Continues state state') :
    Authenticated S start labels hdl state'.session := by
  rcases hContinues with ⟨sent, received, now, hState⟩
  subst hState
  rcases hAuthenticated with
    ⟨input, frame, trace, hello, hHandled, hHello, hAdmitted⟩
  exact
    ⟨input, frame, trace, hello, hHandled, hHello,
      hAdmitted.identified, hAdmitted.verified,
      hAdmitted.accepted, hAdmitted.peer, hAdmitted.keys⟩

------------------------------------------------------------
-- What Is Known of a State
------------------------------------------------------------

/- Sessions are authenticated and handlers registered. -/
structure Known
    (S : Sodium)
    (start : WsServer)
    (labels : Labels)
    (w : WsServer) : Prop where
  session :
    ∀ (hdl : Hdl) (state : ConnectionState),
      (w.sessionTable.table true)[hdl]? = some state →
        Authenticated S start labels hdl state.session
  handler :
    ∀ registration handler,
      w.registeredAt registration = some handler →
        Registered labels registration handler

theorem Known.snoc
    {start w : WsServer}
    {labels : Labels}
    (hKnown : Known S start labels w)
    (l : Label ServerCall IoEvent) :
    Known S start (labels ++ [l]) w where
  session hdl state hEntry :=
    (hKnown.session hdl state hEntry).snoc l
  handler registration handler hFound :=
    (hKnown.handler registration handler hFound).snoc l

theorem known_new
    (serverSignKey : KeyPair)
    (config : Config)
    {hasOwner : Bool}
    (start : WsServer) :
    Known S start [] (.new serverSignKey config hasOwner) where
  session := by
    intro hdl state hEntry
    cases Std.ExtTreeMap.getElem?_empty.symm.trans hEntry
  handler := by
    intro registration handler hFound
    have hEmpty (opCode : OpCode) :
        ((∅ : HandlerTable)[opCode]?).join = none := by
      rw [Std.ExtTreeMap.getElem?_empty]
      rfl
    cases registration with
    | opHandler opCode | anonOpHandler opCode
    | requestHandler opCode | anonRequestHandler opCode
    | streamHandler opCode | anonStreamHandler opCode =>
        cases (hEmpty opCode).symm.trans hFound
    | _ => cases hFound

/- The session that a trace has welcomed is authenticated. -/
theorem authenticated_of_welcomes
    {start : WsServer}
    {labels : Labels}
    {input : IoInput}
    {hdl : Hdl}
    {frame : Frame}
    {session : Session}
    {trace : Trace}
    (hHandled :
      Handled S start labels (.message input hdl frame) trace)
    (hWelcomes :
      Welcomes S input frame.payload true session trace) :
    Authenticated S start labels hdl session := by
  rcases hWelcomes with
    ⟨hello, reply, ⟨m, _, hAnswers⟩, hFlag, hConsents⟩
  have hPeer := hAnswers.peerIdentity
  rw [← hFlag] at hPeer
  rcases Session.serverRespondToHandshake_ok S
      hAnswers.replied with
    ⟨_, version, keys, _, hVerify, _, hKeys, _, _, hSession⟩
  refine
    ⟨input, frame, trace, hello, hHandled,
      hAnswers.hello_eq,
      { identified := hFlag.symm
        verified := hVerify hFlag.symm
        accepted := hConsents rfl
        peer := hPeer
        keys := ⟨keys, hKeys, ?_⟩ }⟩
  rw [hSession]
  rfl

/- A move of a thread that stores and registers rightly. -/
theorem Known.move
    {start w w' : WsServer}
    {labels : Labels}
    {may : May}
    {effects : List ServerEffect}
    (hKnown : Known S start labels w)
    (hMove : Move S may w effects w')
    (hReceives : ∀ v v', may.receives v v' → Advances v v')
    (hStores :
      ∀ hdl state,
        may.establishes hdl → may.stores true state →
          Authenticated S start labels hdl state.session)
    (hRegisters :
      ∀ registration handler,
        may.registers registration (some handler) →
          Registered labels registration handler) :
    Known S start labels w' where
  session := by
    intro hdl state' hEntry
    rcases move_entry hMove hReceives hEntry with
      ⟨state, hBefore, hContinues⟩ | ⟨hMay, hStore⟩
    · exact
        (hKnown.session hdl state hBefore).continues hContinues
    · exact hStores hdl state' hMay hStore
  handler := by
    intro registration handler hFound
    rcases move_registeredAt hMove registration with
      hSame | ⟨callback, hMay, hSet⟩
    · rw [hSame] at hFound
      exact hKnown.handler registration handler hFound
    · rw [hSet] at hFound
      subst hFound
      exact hRegisters registration handler hMay

------------------------------------------------------------
-- Every Interleaving
------------------------------------------------------------

theorem Known.call
    {start w w' : WsServer}
    {labels : Labels}
    {thread :
      Thread Exception ServerEffect WsServer ServerCall}
    {effects : List ServerEffect}
    (hKnown : Known S start labels w)
    (hBegun : .call thread.call ∈ labels)
    (hMove : Move S thread.call.may w effects w') :
    Known S start labels w' := by
  apply hKnown.move hMove
  · intro v v' hMay
    cases hCall : thread.call <;>
      · rw [hCall] at hMay
        exact hMay.elim
  · intro hdl state hMay
    cases hCall : thread.call <;>
      · rw [hCall] at hMay
        exact hMay.elim
  · intro registration handler hMay
    cases hCall : thread.call with
    | stop =>
        rw [hCall] at hMay
        exact hMay.elim
    | method method =>
        rw [hCall] at hMay hBegun
        have hMethod :
            method = .register registration (some handler) :=
          hMay
        rw [hMethod] at hBegun
        exact hBegun

theorem Known.event
    {start w w' : WsServer}
    {labels : Labels}
    {event : IoEvent}
    {trace : Trace}
    {effects : List ServerEffect}
    (hKnown : Known S start labels w)
    (hHandled : Handled S start labels event.val trace)
    (hMove :
      Move S (event.val.mayAfter S trace) w effects w') :
    Known S start labels w' := by
  rcases event with ⟨event, hIo⟩
  cases event with
  | call method => cases hIo
  | message input hdl frame =>
      apply hKnown.move hMove
      · exact fun _ _ hMay => hMay
      · intro hdl' state hHdl hWelcomes
        cases hHdl
        exact authenticated_of_welcomes hHandled hWelcomes
      · exact fun _ _ hMay => hMay.elim
  | opened | closed | timeouts =>
      apply hKnown.move hMove
      · exact fun _ _ hMay => hMay.elim
      · exact fun _ _ hMay => hMay.elim
      · exact fun _ _ hMay => hMay.elim

/- The state is known, and so are those an event has met. -/
structure PoolKnown
    (S : Sodium)
    (start : WsServer)
    (labels : Labels)
    (p : ServerPool) : Prop where
  shared : Known S start labels p.shared
  met :
    ∀ thread, p.events = some thread →
      ∀ m ∈ thread.trace, Known S start labels m.before

theorem PoolKnown.step
    {start : WsServer}
    {labels : Labels}
    {p q : ServerPool}
    {l : Label ServerCall IoEvent}
    (hRun :
      StateMachine.Run (PoolStep S) (pool start) labels p)
    (hKnown : PoolKnown S start labels p)
    (hStep : PoolStep S p l q) :
    PoolKnown S start (labels ++ [l]) q where
  shared := by
    have hSupervised := supervised_of_run hRun
    apply Known.snoc
    cases hSupervised.move hStep with
    | idle hSame _ =>
        rw [hSame]
        exact hKnown.shared
    | call hMem hMove _ =>
        exact
          hKnown.shared.call
            (hSupervised.calls _ hMem).begun hMove
    | event hThread hMove _ =>
        exact
          hKnown.shared.event
            ⟨labels, p, _, List.prefix_refl labels, hRun,
              hThread, rfl, rfl⟩
            hMove
  met := by
    refine Pool.forall_event_step ?_ ?_ ?_ hStep
    · intro event _ m hMem
      cases hMem
    · intro thread effects next rest _ hMet m hMem
      rcases List.mem_append.mp hMem with hOld | hNew
      · exact hMet m hOld
      · rw [List.mem_singleton.mp hNew]
        exact hKnown.shared.snoc l
    · intro thread hThread m hMem
      exact (hKnown.met thread hThread m hMem).snoc l

theorem known_of_run
    {serverSignKey : KeyPair}
    {config : Config}
    {hasOwner : Bool}
    {labels : Labels}
    {p : ServerPool}
    (hRun :
      StateMachine.Run (PoolStep S)
        (pool (.new serverSignKey config hasOwner)) labels p) :
    PoolKnown S (.new serverSignKey config hasOwner) labels p :=
  hRun.invariant_labels
    (fun _ _ _ _ hBefore hKnown hStep =>
      hKnown.step hBefore hStep)
    ⟨known_new serverSignKey config _, by simp [pool]⟩

------------------------------------------------------------
-- Separation
------------------------------------------------------------

theorem Routes.kind
    {isAuth : Bool}
    {message : Message}
    {registration : Registration}
    (hRoutes : Routes isAuth message registration) :
    registration.kind = some isAuth ∨
      registration = .incomingStreamHandler := by
  cases hRoutes with
  | incoming => exact Or.inr rfl
  | _ => cases isAuth <;> exact Or.inl rfl

/- A handler that a trace allows is one that may be called. -/
theorem served_of_dispatches
    {start : WsServer}
    {labels : Labels}
    {hdl : Hdl}
    {frame : Frame}
    {isAuth : Bool}
    {callback : ServerCallback}
    {handler : HandlerId}
    {message : Message}
    {earlier : Trace}
    (hKnown : ∀ m ∈ earlier, Known S start labels m.before)
    (hCalled : CalledFor hdl isAuth earlier callback)
    (hDispatches :
      Dispatches S hdl frame.payload isAuth handler message
        earlier) :
    Served S start labels hdl frame callback handler
      earlier := by
  rcases hDispatches with
    ⟨registration, ⟨payload, hOpened, _⟩, hRoutes,
      ⟨look, hLook, hFound⟩⟩
  rcases hOpened with ⟨m, hMem, opened, _, hAccepts⟩
  rcases hAccepts.connection with ⟨state, _, _, hStored, _⟩
  refine
    ⟨isAuth, registration, state, opened, m, hMem, hCalled,
      (hKnown look hLook).handler registration handler hFound,
      Routes.kind hRoutes, hAccepts, hStored, ?_⟩
  intro hAuth
  subst hAuth
  exact (hKnown m hMem).session hdl state hStored

theorem openedFor_of_reads
    {hdl : Hdl}
    {frame : Frame}
    {isAuth : Bool}
    {message : Message}
    {earlier : Trace}
    (hReads :
      Reads S hdl frame.payload isAuth message earlier) :
    OpenedFor S hdl frame earlier := by
  rcases hReads with ⟨payload, ⟨m, hMem, opened, _, hAccepts⟩, _⟩
  rcases hAccepts.connection with ⟨state, _, _, hStored, _⟩
  exact ⟨isAuth, state, opened, m, hMem, hAccepts, hStored⟩

/- What the thread of a message has read before a callback. -/
theorem callbackMay_spec
    {hdl : Hdl}
    {frame : Frame}
    {callback : ServerCallback}
    {earlier : Trace}
    (hMay :
      callbackMay S hdl frame.payload earlier callback) :
    (callback.ofPayload = true →
        OpenedFor S hdl frame earlier) ∧
      ∀ handler,
        callback.messageHandler = some handler →
          ∃ isAuth message,
            CalledFor hdl isAuth earlier callback ∧
              Dispatches S hdl frame.payload isAuth handler
                message earlier := by
  have hOpened
      {isAuth : Bool}
      {handler : HandlerId}
      {message : Message}
      (hDispatches :
        Dispatches S hdl frame.payload isAuth handler message
          earlier) :
      OpenedFor S hdl frame earlier := by
    rcases hDispatches with ⟨_, hReads, _⟩
    exact openedFor_of_reads hReads
  cases callback with
  | payload handler' hdl' payload =>
      rcases hMay with ⟨hSame, isAuth, hDispatches⟩
      refine ⟨fun _ => hOpened hDispatches, ?_⟩
      intro handler hHandler
      cases hHandler
      exact ⟨isAuth, _, hSame, hDispatches⟩
  | request handler' hdl' reader =>
      rcases hMay with ⟨hSame, isAuth, payload, hDispatches⟩
      refine ⟨fun _ => hOpened hDispatches, ?_⟩
      intro handler hHandler
      cases hHandler
      exact ⟨isAuth, _, hSame, hDispatches⟩
  | incomingStream handler' ref =>
      rcases hMay with
        ⟨isAuth, hMakes, streamId, opCode, hDispatches⟩
      refine ⟨fun _ => hOpened hDispatches, ?_⟩
      intro handler hHandler
      cases hHandler
      exact ⟨isAuth, _, hMakes, hDispatches⟩
  | streamData | streamEnd | streamCancel =>
      rcases hMay with ⟨isAuth, message, hReads⟩
      refine ⟨fun _ => openedFor_of_reads hReads, ?_⟩
      intro handler hHandler
      cases hHandler
  | onOpen | onClose => exact hMay.elim
  | identity =>
      constructor
      · intro hPayload
        cases hPayload
      · intro handler hHandler
        cases hHandler

/- Only the threads of messages get here. -/
theorem message_of_payload
    {event : IoEvent}
    {trace : Trace}
    {callback : ServerCallback}
    (hMay : (event.val.mayAfter S trace).invokes callback)
    (hPayload : callback.ofPayload = true) :
    ∃ input hdl frame,
      event.val = .message input hdl frame ∧
        callbackMay S hdl frame.payload trace callback := by
  rcases event with ⟨event, hIo⟩
  cases event with
  | call method => cases hIo
  | message input hdl frame =>
      exact ⟨input, hdl, frame, rfl, hMay⟩
  | opened input hdl =>
      rcases hMay with ⟨handler, hCallback⟩
      subst hCallback
      cases hPayload
  | closed input hdl =>
      rcases hMay with ⟨handler, hCallback⟩
      subst hCallback
      cases hPayload
  | timeouts input => exact hMay.elim

/-
  In every interleaving: no call invokes a callback, and the
  io thread invokes what handles payloads only for a packet
  that was opened on a stored session, and for the connection
  the packet came from.  This is a session of
  `sessions_` if the handler was registered for these, and
  its hello then was authenticated; it is a session of
  `anon_sessions_` if the handler was registered for those.
-/
theorem namespaces_separate
    {serverSignKey : KeyPair}
    {config : Config}
    {hasOwner : Bool}
    {labels : Labels}
    {p : ServerPool}
    (hRun :
      StateMachine.Run (PoolStep S)
        (pool (.new serverSignKey config hasOwner)) labels p) :
    (∀ thread ∈ p.calls, ∀ m ∈ thread.trace, ∀ callback,
        ServerEffect.invoke callback ∉ m.effects) ∧
      ∀ thread, p.events = some thread →
        ∀ earlier m later,
          thread.trace = earlier ++ m :: later →
            ∀ callback,
              ServerEffect.invoke callback ∈ m.effects →
                callback.ofPayload = true →
                  ∃ input hdl frame,
                    thread.call.val =
                        .message input hdl frame ∧
                      OpenedFor S hdl frame earlier ∧
                      ∀ handler,
                        callback.messageHandler =
                            some handler →
                          Served S
                            (.new serverSignKey config
                              hasOwner)
                            labels hdl frame callback handler
                            earlier := by
  have hSupervised := supervised_of_run hRun
  have hKnown := known_of_run hRun
  constructor
  · intro thread hThread m hMem callback hInvoke
    rcases List.append_of_mem hMem with
      ⟨earlier, later, hTrace⟩
    have hMove :=
      (hSupervised.calls thread hThread).past earlier m later
        hTrace
    have hMay := invokesOnly_of_move hMove callback hInvoke
    cases hCall : thread.call <;>
      · rw [hCall] at hMay
        exact hMay
  · intro thread hThread earlier m later hTrace callback
      hInvoke hPayload
    have hMove :=
      (hSupervised.events thread hThread).past earlier m later
        hTrace
    have hMay := invokesOnly_of_move hMove callback hInvoke
    have hMet :
        ∀ m ∈ earlier,
          Known S (.new serverSignKey config hasOwner) labels
            m.before := by
      intro m' hMem
      apply hKnown.met thread hThread m'
      rw [hTrace]
      exact List.mem_append_left _ hMem
    rcases message_of_payload hMay hPayload with
      ⟨input, hdl, frame, hEvent, hCallback⟩
    rcases callbackMay_spec hCallback with
      ⟨hOpened, hHandler⟩
    refine
      ⟨input, hdl, frame, hEvent, hOpened hPayload, ?_⟩
    intro handler hSome
    rcases hHandler handler hSome with
      ⟨isAuth, message, hCalled, hDispatches⟩
    exact served_of_dispatches hMet hCalled hDispatches

------------------------------------------------------------
-- A Sample Run
------------------------------------------------------------

open PlainSodium

/- A handler is registered, then called for a payload. -/
def opHandlerRun : Labels :=
  [ .call
      (.method (.register (.opHandler 0x1001) (some 7))),
    .stepCall 0,
    .event (IoEvent.hello 1 1) ] ++
    List.replicate 20 .stepEvent ++
    [.event (IoEvent.sealed 1 1 1 0x1001 [])] ++
    List.replicate 5 .stepEvent

def isOpCallback : ServerEffect → Bool
| .invoke (.payload handler hdl _) =>
    handler == 7 && hdl == 1
| _ => false

set_option maxRecDepth 8000 in
theorem namespaces_separate_opHandler :
    let p :=
      opHandlerRun.foldl (Pool.exec (poolProgram plainSodium))
        (pool WsServer.sample)
    ∃ thread earlier m later callback,
      p.events = some thread ∧
        thread.trace = earlier ++ m :: later ∧
        .invoke callback ∈ m.effects ∧
        isOpCallback (.invoke callback) = true ∧
        ∃ input hdl frame,
          thread.call.val = .message input hdl frame ∧
            Served plainSodium WsServer.sample opHandlerRun
              hdl frame callback 7 earlier := by
  intro p
  have hCalled :
      p.events.any (fun thread =>
        thread.trace.any (fun m =>
          m.effects.any isOpCallback)) = true := by
    decide
  have hRun :=
    StateMachine.run_of_allowed
      (fun (p : ServerPool) l => p.allowed l = true)
      (Pool.exec (poolProgram plainSodium))
      (pool WsServer.sample) opHandlerRun (by decide)
  rcases (Option.any_eq_true _ _).mp hCalled with
    ⟨thread, hThread, hSome⟩
  rcases List.any_eq_true.mp hSome with ⟨m, hMem, hEffects⟩
  rcases List.any_eq_true.mp hEffects with
    ⟨effect, hEffect, hCallback⟩
  rcases List.append_of_mem hMem with ⟨earlier, later, hTrace⟩
  have hOp := hCallback
  unfold isOpCallback at hCallback
  split at hCallback
  · next handler hdl payload =>
      rcases (namespaces_separate hRun).2 thread hThread
          earlier m later hTrace _ hEffect rfl with
        ⟨input, hdl', frame, hEvent, _, hServed⟩
      have hSeven : handler = 7 := by
        simp only [Bool.and_eq_true, beq_iff_eq] at hCallback
        exact hCallback.1
      subst hSeven
      exact
        ⟨thread, earlier, m, later, _, hThread, hTrace,
          hEffect, hOp, input, hdl', frame, hEvent,
          hServed 7 rfl⟩
  · cases hCallback

end NamespaceSeparation

end ObscuraProto
