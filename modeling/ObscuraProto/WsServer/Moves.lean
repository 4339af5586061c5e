import ObscuraProto.WsServer.Events

/-
  The atomic steps of the server, and which code takes them.

  A step is exactly one of a few moves; what they do to a
  part of the state is read off them by cases.  Some moves
  need a permission, and every method and event is given the
  permissions that its code makes use of.

  Key definitions include:
    * `RequestSection`, `May`, `Move`
    * `WsServer.Moves`
    * `WsServer.PublicCall.may`, `ServerEvent.may`

  Key theorems include:
    * `WsServer.call_moves`, `WsServer.stop_moves`
    * `WsServer.dispatch_moves`, `WsServer.handshake_moves`
    * `WsServer.handle_moves`
-/

namespace ObscuraProto

open Effectful

/- The packet a session hands over next. -/
def ConnectionState.nextPacket
    (S : Sodium)
    (nonce : Nonce)
    (payload : Payload)
    (keys : SessionKeys)
    (state : ConnectionState) : Bytes :=
  Crypto.packet S nonce payload
    (state.session.sendCounter + 1) keys.tx

/- The critical sections of the pending requests. -/
inductive RequestSection where
| registers
    (hdl : Hdl)
    (requestId : UInt32)
    (promise : PromiseId)
    (deadline : Option TimePoint)
| fails (hdl : Hdl) (requestId : UInt32) (e : Exception)
| responds
    (hdl : Hdl)
    (requestId : UInt32)
    (response : Payload)
| expires (now : TimePoint)
| closes (hdl : Hdl)
| stops

def RequestSection.apply :
    RequestSection → RequestTable →
      List Completion × RequestTable
| .registers hdl requestId promise deadline, t =>
    ([], t.register hdl requestId promise deadline)
| .fails hdl requestId e, t => t.fail hdl requestId e
| .responds hdl requestId response, t =>
    t.respond hdl requestId response
| .expires now, t => t.expire now
| .closes hdl, t => t.closeConnection hdl
| .stops, t => t.stop

/- What code may do besides reading and sending. -/
structure May where
  opens : Hdl → Prop := fun _ => False
  receives : WsServer → WsServer → Prop := fun _ _ => False
  establishes : Hdl → Prop := fun _ => False
  stores : Bool → ConnectionState → Prop := fun _ _ => True
  closes : Hdl → Prop := fun _ => False
  stops : Prop := False
  usesStreams : Prop := False
  takesRequestId : Prop := False
  requests : RequestSection → Prop := fun _ => False
  invokes : ServerCallback → Prop := fun _ => False
  registers :
    WsServer.Registration → Option HandlerId → Prop :=
      fun _ _ => False

/- Sessions are neither read from nor stored nor removed. -/
structure May.Plain (may : May) : Prop where
  receives : ∀ w w', ¬ may.receives w w'
  establishes : ∀ hdl, ¬ may.establishes hdl
  closes : ∀ hdl, ¬ may.closes hdl
  stops : ¬ may.stops

/- Only the rate limiter and the sessions are written. -/
structure Within
    (w : WsServer)
    (effects : List ServerEffect)
    (w' : WsServer) : Prop where
  state :
    w' =
      { w with
        rateLimiter := w'.rateLimiter
        sessionTable := w'.sessionTable }
  closes :
    ∀ effect ∈ effects,
      ∃ hdl status reason, effect = .close hdl status reason

/- One step, with its effects and the state after it. -/
inductive Move
    (S : Sodium)
    (may : May)
    (w : WsServer) :
    List ServerEffect → WsServer → Prop
| reads : Move S may w [] w
| invokes {callback : ServerCallback} :
    may.invokes callback → Move S may w [.invoke callback] w
| closes
    (hdls : List Hdl)
    (status : CloseStatus)
    (reason : String) :
    Move S may w
      (hdls.map (fun hdl => .close hdl status reason)) w
| handsOver
    {isAuth : Bool}
    {hdl : Hdl}
    {state : ConnectionState}
    {keys : SessionKeys}
    (nonce : Nonce)
    (payload : Payload) :
    (w.sessionTable.table isAuth)[hdl]? = some state →
      state.session.Ready keys →
        Move S may w
          [.transmit hdl
            (state.nextPacket S nonce payload keys)]
          { w with
            sessionTable :=
              w.sessionTable.store isAuth hdl
                state.afterSend }
| limits {rl : RateLimiter} :
    w.rateLimiter.SameCounts rl →
      Move S may w [] { w with rateLimiter := rl }
| requests {s : RequestSection} :
    may.requests s →
      Move S may w
        ((s.apply w.requests).1.map ServerEffect.complete)
        { w with requests := (s.apply w.requests).2 }
| takesRequestId :
    may.takesRequestId →
      Move S may w []
        { w with nextRequestId := w.nextRequestId + 1 }
| takesStreamId :
    Move S may w []
      { w with
        nextOutgoingStreamId := w.nextOutgoingStreamId + 1 }
| registersStream (hdl : Hdl) (stream : Stream ServerSendFn) :
    may.usesStreams →
      Move S may w []
        { w with streams := (w.streams.register hdl stream).2 }
| dropsStream (hdl : Hdl) (streamId : UInt32) :
    may.usesStreams →
      Move S may w []
        { w with streams := w.streams.erase hdl streamId }
| registers
    (registration : WsServer.Registration)
    (callback : Option HandlerId) :
    may.registers registration callback →
      Move S may w []
        ((WsServer.register callback registration).run w).state
| opens {hdl : Hdl} (now : Int) :
    may.opens hdl →
      Move S may w []
        { w with
          handshakeOpenTime :=
            w.handshakeOpenTime.insert hdl now }
| closesLate
    (status : CloseStatus)
    (reason : String)
    (late : Hdl → Int → Bool) :
    Move S may w
      ((w.handshakeOpenTime.filter late).keys.map
        (fun hdl => .close hdl status reason))
      { w with
        handshakeOpenTime :=
          w.handshakeOpenTime.filter
            (fun hdl opened => !late hdl opened) }
| clearsTime (hdl : Hdl) :
    Move S may w []
      { w with
        handshakeOpenTime := w.handshakeOpenTime.erase hdl }
| receives
    {effects : List ServerEffect}
    {w' : WsServer} :
    may.receives w w' →
      Within w effects w' → Move S may w effects w'
| replies {hdl : Hdl} (packet : Bytes) :
    may.establishes hdl →
      Move S may w [.transmit hdl packet] w
| counts {hdl : Hdl} (ip : String) :
    may.establishes hdl →
      Move S may w []
        { w with
          rateLimiter :=
            (w.rateLimiter.registerConnection ip).2 }
| stores
    {hdl : Hdl}
    (isAuth : Bool)
    (state : ConnectionState) :
    may.establishes hdl →
      may.stores isAuth state →
        Move S may w []
          { w with
            sessionTable :=
              w.sessionTable.emplace isAuth hdl state }
| identifies {hdl : Hdl} (clientPk : PublicKey) :
    may.establishes hdl →
      Move S may w []
        { w with
          identities := w.identities.register hdl clientPk }
| closesSessions {hdl : Hdl} :
    may.closes hdl →
      Move S may w []
        (WsServer.closeSession false hdl
          (WsServer.closeSession true hdl w))
| closesStreams {hdl : Hdl} :
    may.closes hdl →
      Move S may w []
        { w with streams := w.streams.closeConnection hdl }
| unregisters {hdl : Hdl} :
    may.closes hdl →
      Move S may w []
        { w with identities := w.identities.unregister hdl }
| stops : may.stops → Move S may w [] { w with stopping := true }
| stopsSessions {effects : List ServerEffect} :
    may.stops →
      (∀ effect ∈ effects,
          ∃ hdl status reason,
            effect = .close hdl status reason) →
        Move S may w effects { w with sessionTable := {} }
| forgetsIdentities :
    may.stops → Move S may w [] { w with identities := {} }

namespace WsServer

/- The methods that register a request. -/
def PublicCall.isRequest : PublicCall → Bool
| .asyncRequest _ _ _ _ => true
| .asyncRequestToIdentity _ _ _ => true
| _ => false

/- The methods that register a stream. -/
def PublicCall.startsStream : PublicCall → Bool
| .startStream _ _ => true
| .startStreamWith _ _ _ => true
| _ => false

/- The connections on which a method makes a request. -/
def PublicCall.requestsOn (hdl : Hdl) : PublicCall → Prop
| .asyncRequest _ hdl' _ _ => hdl' = hdl
| .asyncRequestToIdentity _ _ _ => True
| _ => False

def PublicCall.may (method : PublicCall) : May where
  usesStreams := method.startsStream = true
  takesRequestId := method.isRequest = true
  requests := fun s =>
    ∃ hdl, method.requestsOn hdl ∧
      ((∃ requestId promise deadline,
          s = .registers hdl requestId promise deadline) ∨
        ∃ requestId e, s = .fails hdl requestId e)
  registers := fun registration callback =>
    method = .register registration callback

def stopMay : May where
  stops := True
  requests := (· = .stops)

end WsServer

def ServerEvent.may : ServerEvent → May
| .opened _ hdl =>
    { opens := (· = hdl)
      invokes := fun callback =>
        ∃ handler, callback = .onOpen handler hdl }
| .message _ hdl _ =>
    { receives := fun _ _ => True
      establishes := (· = hdl)
      usesStreams := True
      requests := fun s =>
        ∃ requestId response,
          s = .responds hdl requestId response
      invokes := fun _ => True }
| .closed _ hdl =>
    { closes := (· = hdl)
      requests := (· = .closes hdl)
      invokes := fun callback =>
        ∃ handler, callback = .onClose handler hdl }
| .timeouts input =>
    { requests := (· = .expires (input.clock 1)) }
| .call method => method.may

namespace WsServer

variable (S : Sodium)

/- Short for: every step is a move. -/
abbrev Moves
    (may : May)
    {α : Type}
    (act : ServerAction α) : Prop :=
  Ensures (Move S may) act

variable {may : May}

theorem get_moves :
    Moves S may (Action.get : ServerAction WsServer) :=
  Ensures.get (fun _ => .reads)

------------------------------------------------------------
-- Sections
------------------------------------------------------------

theorem send_moves
    (nonce : Nonce)
    (hdl : Hdl)
    (payload : Payload) :
    Moves S may (send S nonce hdl payload) := by
  apply Ensures.atomic
  intro w
  rcases SessionTable.send_cases S nonce hdl payload
      w.sessionTable with
    hRefused | ⟨isAuth, state, keys, hStored, hReady, hSent⟩
  · simp only [hRefused]
    exact .reads
  · simp only [hSent]
    exact .handsOver nonce payload hStored hReady

theorem sendAnonymous_moves
    (nonce : Nonce)
    (hdl : Hdl)
    (payload : Payload) :
    Moves S may (sendAnonymous S nonce hdl payload) := by
  apply Ensures.atomic
  intro w
  rcases SessionTable.sendAnonymous_cases S nonce hdl payload
      w.sessionTable with
    hRefused | ⟨state, keys, hStored, hReady, hSent⟩
  · simp only [hRefused]
    exact .reads
  · simp only [hSent]
    exact .handsOver nonce payload hStored hReady

theorem requestSection_moves
    {s : RequestSection}
    (hMay : may.requests s) :
    Moves S may (requestSection s.apply) :=
  Ensures.atomic (fun _ => .requests hMay)

theorem takeRequestId_moves
    (hMay : may.takesRequestId) :
    Moves S may takeRequestId :=
  Ensures.atomic (fun _ => .takesRequestId hMay)

theorem takeStreamId_moves : Moves S may takeStreamId :=
  Ensures.atomic (fun _ => .takesStreamId)

theorem registerStream_moves
    (hMay : may.usesStreams)
    (hdl : Hdl)
    (stream : Stream ServerSendFn) :
    Moves S may (registerStream hdl stream) :=
  Ensures.atomic (fun _ => .registersStream hdl stream hMay)

theorem closeQuietly_moves
    (hdls : List Hdl)
    (status : CloseStatus)
    (reason : String) :
    Moves S may (closeQuietly hdls status reason) :=
  Ensures.atomic (fun _ => .closes hdls status reason)

theorem closeHdl_moves
    (input : IoInput)
    (hdl : Hdl)
    (status : CloseStatus)
    (reason : String) :
    Moves S may (closeHdl input hdl status reason) :=
  Ensures.bind
    (Ensures.emit (fun _ => .closes [hdl] status reason))
    (fun _ => Ensures.ofExcept _)

theorem invoke_moves
    {α : Type}
    {callback : ServerCallback}
    (hMay : may.invokes callback)
    (answer : Except Exception α) :
    Moves S may (invoke callback answer) :=
  Ensures.bind
    (Ensures.emit (fun _ => .invokes hMay))
    (fun _ => Ensures.ofExcept _)

theorem invokeHandler_moves
    {callback : HandlerId → ServerCallback}
    (hMay : ∀ handler, may.invokes (callback handler))
    (handler : Option HandlerId)
    (answer : Except Exception Unit) :
    Moves S may
      (invokeHandler handler callback answer) := by
  cases handler with
  | none => exact Ensures.pure ()
  | some handler => exact invoke_moves S (hMay handler) answer

theorem limiter_moves
    {α : Type}
    {f : RateLimiter → α × RateLimiter}
    (hCounts : ∀ rl, RateLimiter.SameCounts rl (f rl).2) :
    Moves S may (limiter f) :=
  Ensures.atomic (fun w => .limits (hCounts w.rateLimiter))

theorem limiterCheck_moves
    {check : RateLimiter → Bool × RateLimiter}
    (hCounts : ∀ rl, RateLimiter.SameCounts rl (check rl).2) :
    Moves S may (limiterCheck check) := by
  apply Ensures.bind (get_moves S)
  intro w
  split
  · exact limiter_moves S hCounts
  · exact Ensures.pure _

theorem limiterRecord_moves
    {record : RateLimiter → RateLimiter}
    (hCounts : ∀ rl, RateLimiter.SameCounts rl (record rl)) :
    Moves S may (limiterRecord record) := by
  apply Ensures.bind (get_moves S)
  intro w
  split
  · exact limiter_moves S hCounts
  · exact Ensures.pure _

theorem clearHandshakeTime_moves (hdl : Hdl) :
    Moves S may (clearHandshakeTime hdl) :=
  Ensures.modify (fun _ => .clearsTime hdl)

------------------------------------------------------------
-- Public Methods
------------------------------------------------------------

theorem sendResponse_moves
    (nonce : Nonce)
    (hdl : Hdl)
    (requestId : UInt32)
    (payload : Payload) :
    Moves S may
      (sendResponse S nonce hdl requestId payload) := by
  apply Ensures.bind (get_moves S)
  intro w
  apply Ensures.bind (Ensures.ofExcept _)
  intro response
  exact send_moves S nonce hdl response

theorem sendAnonymousResponse_moves
    (nonce : Nonce)
    (hdl : Hdl)
    (requestId : UInt32)
    (payload : Payload) :
    Moves S may
      (sendAnonymousResponse S nonce hdl requestId
        payload) := by
  apply Ensures.bind (get_moves S)
  intro w
  apply Ensures.bind (Ensures.ofExcept _)
  intro response
  exact sendAnonymous_moves S nonce hdl response

theorem sendToIdentity_moves
    (nonce : Nonce)
    (identityPk : PublicKey)
    (payload : Payload) :
    Moves S may
      (sendToIdentity S nonce identityPk payload) := by
  apply Ensures.bind (get_moves S)
  intro w
  apply Ensures.bind (Ensures.ofExcept _)
  intro hdl
  exact send_moves S nonce hdl payload

theorem asyncRequest_moves
    {hdl : Hdl}
    (hTakes : may.takesRequestId)
    (hRegisters :
      ∀ requestId promise deadline,
        may.requests
          (.registers hdl requestId promise deadline))
    (hFails :
      ∀ requestId e, may.requests (.fails hdl requestId e))
    (input : RequestInput)
    (payload : Payload)
    (timeoutMs : UInt32) :
    Moves S may
      (asyncRequest S input hdl payload timeoutMs) := by
  apply Ensures.bind (get_moves S)
  intro w
  split
  · exact Ensures.throw _
  · apply Ensures.bind (takeRequestId_moves S hTakes)
    intro requestId
    apply Ensures.bind (Ensures.ofExcept _)
    intro request
    apply Ensures.bind
    · exact requestSection_moves S (hRegisters requestId _ _)
    · intro _
      apply Ensures.bind
      · apply Ensures.catchAll (send_moves S _ hdl request)
        intro e
        exact
          Ensures.bind
            (requestSection_moves S (hFails requestId e))
            (fun _ => Ensures.throw e)
      · intro _
        exact Ensures.pure _

theorem asyncRequestToIdentity_moves
    (hTakes : may.takesRequestId)
    (hRegisters :
      ∀ hdl requestId promise deadline,
        may.requests
          (.registers hdl requestId promise deadline))
    (hFails :
      ∀ hdl requestId e,
        may.requests (.fails hdl requestId e))
    (input : RequestInput)
    (identityPk : PublicKey)
    (payload : Payload) :
    Moves S may
      (asyncRequestToIdentity S input identityPk
        payload) := by
  apply Ensures.bind (get_moves S)
  intro w
  apply Ensures.bind (Ensures.ofExcept _)
  intro hdl
  exact
    asyncRequest_moves S hTakes (hRegisters hdl) (hFails hdl) input
      payload 0

theorem startStream_moves
    (hMay : may.usesStreams)
    (nonce : Nonce)
    (hdl : Hdl) :
    Moves S may (startStream S nonce hdl) := by
  apply Ensures.bind (takeStreamId_moves S)
  intro streamId
  apply Ensures.bind (registerStream_moves S hMay _ _)
  intro stream
  apply Ensures.bind (get_moves S)
  intro w
  apply Ensures.bind (Ensures.ofExcept _)
  intro start
  exact
    Ensures.bind (send_moves S nonce hdl start)
      (fun _ => Ensures.pure stream)

theorem startStreamWith_moves
    (hMay : may.usesStreams)
    (nonce : Nonce)
    (hdl : Hdl)
    (streamOpCode : OpCode) :
    Moves S may
      (startStreamWith S nonce hdl streamOpCode) := by
  apply Ensures.bind (takeStreamId_moves S)
  intro streamId
  apply Ensures.bind (registerStream_moves S hMay _ _)
  intro stream
  apply Ensures.bind (get_moves S)
  intro w
  split
  · exact Ensures.throw _
  · apply Ensures.bind (Ensures.ofExcept _)
    intro start
    exact
      Ensures.bind (send_moves S nonce hdl start)
        (fun _ => Ensures.pure stream)

theorem streamCall_moves
    (nonce : Nonce)
    (build :
      Stream ServerSendFn → Except Exception Payload)
    (ref : StreamRef) :
    Moves S may (streamCall S nonce build ref) := by
  apply Ensures.bind (get_moves S)
  intro w
  split
  · exact Ensures.pure ()
  · next stream _ =>
      refine Ensures.catchAll ?_ (fun _ => Ensures.pure ())
      apply Ensures.bind (Ensures.ofExcept _)
      intro payload
      split
      · cases stream.sendFn with
        | send hdl =>
            exact send_moves S nonce hdl payload
        | sendAnonymous hdl =>
            exact sendAnonymous_moves S nonce hdl payload
      · exact Ensures.pure ()

/- A registration is one write. -/
theorem register_eq_modify
    (registration : Registration)
    (callback : Option HandlerId) :
    ∃ f, register callback registration = Action.modify f := by
  cases registration <;> exact ⟨_, rfl⟩

theorem register_moves
    {registration : Registration}
    {callback : Option HandlerId}
    (hMay : may.registers registration callback) :
    Moves S may (register callback registration) := by
  rcases register_eq_modify registration callback with
    ⟨f, hWrite⟩
  have hState (w : WsServer) :
      ((register callback registration).run w).state = f w := by
    rw [hWrite]
    rfl
  rw [hWrite]
  apply Ensures.modify
  intro w
  rw [← hState w]
  exact .registers registration callback hMay

theorem call_moves (method : PublicCall) :
    Moves S method.may (call S method) := by
  cases method with
  | send nonce hdl payload =>
      exact send_moves S nonce hdl payload
  | sendAnonymous nonce hdl payload =>
      exact sendAnonymous_moves S nonce hdl payload
  | sendResponse nonce hdl requestId payload =>
      exact sendResponse_moves S nonce hdl requestId payload
  | sendToIdentity nonce identityPk payload =>
      exact sendToIdentity_moves S nonce identityPk payload
  | asyncRequest input hdl payload timeoutMs =>
      refine
        Ensures.bind
          (asyncRequest_moves S rfl ?_ ?_ input payload
            timeoutMs)
          (fun _ => Ensures.pure ()) <;>
        simp [PublicCall.may, PublicCall.requestsOn]
  | asyncRequestToIdentity input identityPk payload =>
      refine
        Ensures.bind
          (asyncRequestToIdentity_moves S rfl ?_ ?_ input
            identityPk payload)
          (fun _ => Ensures.pure ()) <;>
        simp [PublicCall.may, PublicCall.requestsOn]
  | startStream nonce hdl =>
      exact
        Ensures.bind (startStream_moves S rfl nonce hdl)
          (fun _ => Ensures.pure ())
  | startStreamWith nonce hdl streamOpCode =>
      exact
        Ensures.bind
          (startStreamWith_moves S rfl nonce hdl streamOpCode)
          (fun _ => Ensures.pure ())
  | streamWrite nonce data ref =>
      exact streamCall_moves S nonce _ ref
  | streamEnd nonce ref =>
      exact streamCall_moves S nonce _ ref
  | streamCancel nonce ref =>
      exact streamCall_moves S nonce _ ref
  | register registration callback =>
      exact register_moves S rfl

------------------------------------------------------------
-- on_open and Timers
------------------------------------------------------------

theorem recordOpenTime_moves
    {hdl : Hdl}
    (hMay : may.opens hdl)
    (now : Int) :
    Moves S may (recordOpenTime hdl now) := by
  apply Ensures.bind (get_moves S)
  intro w
  split
  · exact Ensures.modify (fun _ => .opens now hMay)
  · exact Ensures.pure ()

theorem onOpen_moves
    (input : IoInput)
    (hdl : Hdl) :
    Moves S (ServerEvent.opened input hdl).may
      (onOpen input hdl) := by
  apply Ensures.bind
  · exact
      limiterCheck_moves S
        (fun rl => rl.checkConnectionRate_counts _ _)
  · intro allowed
    split
    · exact closeHdl_moves S _ _ _ _
    · apply Ensures.bind
      · exact
          limiterRecord_moves S
            (fun rl => rl.recordConnection_counts _ _)
      · intro _
        apply Ensures.bind (get_moves S)
        intro w
        dsimp only
        split
        · exact closeHdl_moves S _ _ _ _
        · apply Ensures.bind (recordOpenTime_moves S rfl _)
          intro _
          apply Ensures.bind (get_moves S)
          intro w
          refine invokeHandler_moves S ?_ _ _
          exact fun handler => ⟨handler, rfl⟩

theorem closeQuietly_run_bind
    {α : Type}
    (hdls : List Hdl)
    (status : CloseStatus)
    (reason : String)
    (f : Unit → ServerAction α)
    (w : WsServer) :
    (closeQuietly hdls status reason >>= f).run w =
      { result := ((f ()).run w).result
        effects :=
          hdls.map (fun hdl => .close hdl status reason) ++
            ((f ()).run w).effects
        state := ((f ()).run w).state } :=
  Action.run_bind_ok (Action.run_atomic _ w) f

theorem closeIdle_moves (now : Int) :
    Moves S may (closeIdle now) := by
  apply Ensures.bind (get_moves S)
  intro w
  dsimp only
  split
  · exact closeQuietly_moves S _ _ _
  · exact Ensures.pure ()

/- The section closes connections and edits open times. -/
theorem closeLateHandshakes_moves (now : Int) :
    Moves S may (closeLateHandshakes now) := by
  apply Ensures.atomic
  intro w
  rw [Action.run_get_bind]
  dsimp only
  split
  · rw [closeQuietly_run_bind]
    simp only [Action.modify, Action.run_atomic,
      List.append_nil]
    exact .closesLate .policyViolation "Handshake timeout" _
  · exact .reads

theorem checkTimeouts_moves (input : IoInput) :
    Moves S (ServerEvent.timeouts input).may
      (checkTimeouts input) := by
  apply Ensures.bind (closeIdle_moves S _)
  intro _
  apply Ensures.bind (closeLateHandshakes_moves S _)
  intro _
  apply Ensures.bind
  · apply requestSection_moves S (s := .expires (input.clock 1))
    exact rfl
  · intro _
    exact limiter_moves S (fun rl => rl.cleanup_counts _)

------------------------------------------------------------
-- Shutdown and on_close
------------------------------------------------------------

theorem stopSessions_moves
    (hMay : may.stops) :
    Moves S may stopSessions := by
  apply Ensures.atomic
  intro w
  rw [Action.run_get_bind, closeQuietly_run_bind,
    closeQuietly_run_bind]
  apply Move.stopsSessions hMay
  simp only [Action.modify, Action.run_atomic,
    List.append_nil, List.mem_append, List.mem_map]
  rintro effect (⟨hdl, _, hEffect⟩ | ⟨hdl, _, hEffect⟩)
  · exact ⟨hdl, _, _, hEffect.symm⟩
  · exact ⟨hdl, _, _, hEffect.symm⟩

theorem stop_moves : Moves S stopMay stop := by
  apply Ensures.bind (Ensures.modify (fun _ => .stops trivial))
  intro _
  apply Ensures.bind
  · exact requestSection_moves S (s := .stops) rfl
  · intro _
    apply Ensures.bind (stopSessions_moves S trivial)
    intro _
    exact Ensures.modify (fun _ => .forgetsIdentities trivial)

theorem onClose_moves
    (input : IoInput)
    (hdl : Hdl) :
    Moves S (ServerEvent.closed input hdl).may
      (onClose input hdl) := by
  apply Ensures.bind (get_moves S)
  intro w
  apply Ensures.bind
  · refine invokeHandler_moves S ?_ _ _
    exact fun handler => ⟨handler, rfl⟩
  intro _
  apply Ensures.bind
    (Ensures.modify (fun _ => .closesSessions rfl))
  intro _
  apply Ensures.bind
    (Ensures.modify (fun _ => .closesStreams rfl))
  intro _
  apply Ensures.bind
    (Ensures.modify (fun _ => .unregisters rfl))
  intro _
  apply Ensures.bind
  · exact requestSection_moves S (s := .closes hdl) rfl
  · intro _
    exact clearHandshakeTime_moves S hdl

------------------------------------------------------------
-- Dispatch
------------------------------------------------------------

theorem dispatchPayload_moves
    {hdl : Hdl}
    (hPayload :
      ∀ handler payload,
        may.invokes (.payload handler hdl payload))
    (hRequest :
      ∀ handler reader,
        may.invokes (.request handler hdl reader))
    (input : IoInput)
    (isAuth : Bool)
    (payload : Payload) :
    Moves S may
      (dispatchPayload S input hdl isAuth payload) := by
  apply Ensures.bind (get_moves S)
  intro w
  dsimp only
  split
  · exact Ensures.pure ()
  · apply Ensures.bind (Ensures.ofExcept _)
    intro requestId
    apply Ensures.bind (invoke_moves S (hRequest _ _) _)
    intro response
    split
    · exact sendResponse_moves S _ _ _ _
    · exact sendAnonymousResponse_moves S _ _ _ _
  · exact
      invokeHandler_moves S
        (fun handler => hPayload handler payload) _ _

theorem findStream_moves (hdl : Hdl) (streamId : UInt32) :
    Moves S may (findStream hdl streamId) :=
  Ensures.bind (get_moves S) (fun _ => Ensures.pure _)

theorem takeStream_moves
    (hMay : may.usesStreams)
    (hdl : Hdl)
    (streamId : UInt32) :
    Moves S may (takeStream hdl streamId) :=
  Ensures.atomic (fun _ => .dropsStream hdl streamId hMay)

theorem dispatchStream_moves
    {callback : HandlerId → ServerCallback}
    (hMay : ∀ handler, may.invokes (callback handler))
    (input : IoInput)
    (stream : Option StreamRef)
    (handlerOf : Stream ServerSendFn → Option HandlerId) :
    Moves S may
      (dispatchStream input stream handlerOf callback) :=
  Ensures.bind (get_moves S)
    (fun _ => invokeHandler_moves S hMay _ _)

theorem dispatchStreamStart_moves
    (hMay : may.usesStreams)
    (hInvokes :
      ∀ handler stream,
        may.invokes (.incomingStream handler stream))
    (input : IoInput)
    (hdl : Hdl)
    (isAuth : Bool)
    (streamId : UInt32)
    (opCode : Option OpCode) :
    Moves S may
      (dispatchStreamStart input hdl isAuth streamId
        opCode) := by
  apply Ensures.bind (registerStream_moves S hMay _ _)
  intro stream
  apply Ensures.bind (get_moves S)
  intro w
  exact
    invokeHandler_moves S
      (fun handler => hInvokes handler stream) _ _

theorem dispatch_moves
    {hdl : Hdl}
    (hResponds :
      ∀ requestId response,
        may.requests (.responds hdl requestId response))
    (hStreams : may.usesStreams)
    (hInvokes : ∀ callback, may.invokes callback)
    (input : IoInput)
    (isAuth : Bool)
    (payload : Payload) :
    Moves S may (dispatch S input hdl isAuth payload) := by
  apply Ensures.bind (get_moves S)
  intro w
  apply Ensures.bind (Ensures.ofExcept _)
  intro message
  cases message with
  | response requestId response =>
      exact
        requestSection_moves S (hResponds requestId response)
  | streamStart streamId opCode =>
      exact
        dispatchStreamStart_moves S hStreams
          (fun _ _ => hInvokes _) input hdl isAuth streamId
          opCode
  | streamData streamId data =>
      exact
        Ensures.bind (findStream_moves S _ _)
          (fun _ =>
            dispatchStream_moves S (fun _ => hInvokes _) _ _ _)
  | streamEnd streamId =>
      exact
        Ensures.bind (findStream_moves S _ _)
          (fun _ =>
            dispatchStream_moves S (fun _ => hInvokes _) _ _ _)
  | streamCancel streamId =>
      exact
        Ensures.bind (takeStream_moves S hStreams _ _)
          (fun _ =>
            dispatchStream_moves S (fun _ => hInvokes _) _ _ _)
  | application payload =>
      exact
        dispatchPayload_moves S (fun _ _ => hInvokes _)
          (fun _ _ => hInvokes _) input isAuth payload

------------------------------------------------------------
-- The First Section of on_message
------------------------------------------------------------

theorem composes_within : Composes Within where
  refl := fun _ => ⟨rfl, by simp⟩
  trans := by
    intro w v u _ _ hFirst hSecond
    constructor
    · have hState := hSecond.state
      rw [hFirst.state] at hState
      exact hState
    · intro effect hMem
      rcases List.mem_append.mp hMem with hMem | hMem
      · exact hFirst.closes effect hMem
      · exact hSecond.closes effect hMem

/- A step without effects. -/
theorem within_of_eq
    {w w' : WsServer}
    (hState :
      w' =
        { w with
          rateLimiter := w'.rateLimiter
          sessionTable := w'.sessionTable }) :
    Within w [] w' :=
  ⟨hState, by simp⟩

theorem limiter_within
    {α : Type}
    (f : RateLimiter → α × RateLimiter) :
    Ensures Within (limiter f) :=
  Ensures.atomic (fun _ => within_of_eq rfl)

theorem limiterCheck_within
    (check : RateLimiter → Bool × RateLimiter) :
    Ensures Within (limiterCheck check) := by
  apply Ensures.bind (Ensures.get composes_within.refl)
  intro w
  split
  · exact limiter_within _
  · exact Ensures.pure true

theorem limiterRecord_within
    (record : RateLimiter → RateLimiter) :
    Ensures Within (limiterRecord record) := by
  apply Ensures.bind (Ensures.get composes_within.refl)
  intro w
  split
  · exact limiter_within _
  · exact Ensures.pure ()

theorem closeHdl_within
    (input : IoInput)
    (hdl : Hdl)
    (status : CloseStatus)
    (reason : String) :
    Ensures Within (closeHdl input hdl status reason) := by
  refine
    Ensures.bind (Ensures.emit ?_) (fun _ => Ensures.ofExcept _)
  intro w
  exact ⟨rfl, by simp⟩

theorem keepPayload_within
    (input : IoInput)
    (hdl : Hdl)
    (isAuth : Bool)
    (rateLimiterId : UInt64)
    (payload : Payload) :
    Ensures Within
      (keepPayload input hdl isAuth rateLimiterId
        payload) := by
  apply Ensures.bind (Ensures.get composes_within.refl)
  intro w
  split
  · exact
      Ensures.bind (closeHdl_within _ _ _ _)
        (fun _ => Ensures.pure _)
  · apply Ensures.bind (limiterRecord_within _)
    intro _
    exact
      Ensures.bind (Ensures.modify (fun _ => within_of_eq rfl))
        (fun _ => Ensures.pure _)

theorem receiveFrom_within
    (input : IoInput)
    (hdl : Hdl)
    (packet : Bytes)
    (isAuth : Bool)
    (state : ConnectionState) :
    Ensures Within
      (receiveFrom S input hdl packet isAuth state) := by
  unfold receiveFrom
  split
  · exact Ensures.pure _
  · apply Ensures.bind (limiterCheck_within _)
    intro allowed
    split
    · exact
        Ensures.bind (closeHdl_within _ _ _ _)
          (fun _ => Ensures.pure _)
    · refine Ensures.catchAll ?_ (fun _ => Ensures.pure _)
      apply Ensures.bind
      · exact Ensures.atomic (fun _ => within_of_eq rfl)
      · intro payload
        exact keepPayload_within input hdl isAuth _ payload

theorem receive_within
    (input : IoInput)
    (hdl : Hdl)
    (packet : Bytes)
    (w : WsServer) :
    let o := (receive S input hdl packet).run w
    Within w o.effects o.state := by
  dsimp only
  unfold receive
  rw [Action.run_atomically, Action.run_get_bind]
  split
  · next state _ =>
      exact
        (receiveFrom_within S input hdl packet true state).run
          composes_within w
  · split
    · next state _ =>
        exact
          (receiveFrom_within S input hdl packet false
            state).run composes_within w
    · exact composes_within.refl w

theorem receive_moves
    (hMay : ∀ w w', may.receives w w')
    (input : IoInput)
    (hdl : Hdl)
    (packet : Bytes) :
    Moves S may (receive S input hdl packet) := by
  apply Ensures.atomic
  intro w
  have hWithin := receive_within S input hdl packet w
  unfold receive at hWithin
  rw [Action.run_atomically] at hWithin
  exact .receives (hMay _ _) hWithin

------------------------------------------------------------
-- The Handshake
------------------------------------------------------------

theorem establish_moves
    {hdl : Hdl}
    (hMay : may.establishes hdl)
    (hStores : ∀ isAuth state, may.stores isAuth state)
    (input : IoInput)
    (session : Session)
    (identity : Option PublicKey) :
    Moves S may (establish input hdl session identity) := by
  apply Ensures.bind
  · exact Ensures.atomic (fun _ => .counts _ hMay)
  · intro connId
    apply Ensures.bind
      (Ensures.modify (fun _ => .stores _ _ hMay (hStores _ _)))
    intro _
    cases identity with
    | none => exact Ensures.pure ()
    | some clientPk =>
        exact
          Ensures.modify (fun _ => .identifies clientPk hMay)

theorem identityAccepted_moves
    {hdl : Hdl}
    {clientPk : PublicKey}
    (hInvokes :
      ∀ handler,
        may.invokes (.identity handler hdl clientPk))
    (input : IoInput) :
    Moves S may (identityAccepted input hdl clientPk) := by
  apply Ensures.bind (get_moves S)
  intro w
  split
  · exact Ensures.pure true
  · exact invoke_moves S (hInvokes _) _

theorem conclude_moves
    {hdl : Hdl}
    (hMay : may.establishes hdl)
    (hStores : ∀ isAuth state, may.stores isAuth state)
    (hInvokes :
      ∀ handler clientPk,
        may.invokes (.identity handler hdl clientPk))
    (input : IoInput)
    (hello : ClientHello)
    (session : Session) :
    Moves S may (conclude input hdl hello session) := by
  apply Ensures.bind
  · exact
      limiterRecord_moves S
        (fun rl => rl.recordHandshake_counts _ _)
  · intro _
    have hClear :
        Unit → Moves S may (clearHandshakeTime hdl) :=
      fun _ => clearHandshakeTime_moves S hdl
    dsimp only
    split
    · next clientPk _ _ =>
        refine Ensures.bind ?_ hClear
        apply Ensures.bind
          (identityAccepted_moves S
            (fun handler => hInvokes handler clientPk) input)
        intro accepted
        split
        · exact establish_moves S hMay hStores input session _
        · exact closeHdl_moves S _ _ _ _
    · exact
        Ensures.bind (establish_moves S hMay hStores input session none)
          hClear

theorem handshake_moves
    {hdl : Hdl}
    (hMay : may.establishes hdl)
    (hStores : ∀ isAuth state, may.stores isAuth state)
    (hInvokes :
      ∀ handler clientPk,
        may.invokes (.identity handler hdl clientPk))
    (input : IoInput)
    (data : Bytes) :
    Moves S may (handshake S input hdl data) := by
  apply Ensures.bind
  · exact
      limiterCheck_moves S
        (fun rl => rl.checkHandshakeRate_counts _ _)
  · intro allowed
    split
    · exact closeHdl_moves S _ _ _ _
    · apply Ensures.bind (Ensures.ofExcept _)
      intro hello
      apply Ensures.bind (get_moves S)
      intro w
      apply Ensures.bind (Ensures.ofExcept _)
      intro serverHello
      apply Ensures.bind
      · exact Ensures.emit (fun _ => .replies _ hMay)
      · intro _
        apply Ensures.bind (Ensures.ofExcept _)
        intro _
        exact
          conclude_moves S hMay hStores hInvokes input hello _

------------------------------------------------------------
-- Every Event
------------------------------------------------------------

theorem onMessage_moves
    (input : IoInput)
    (hdl : Hdl)
    (frame : Frame) :
    Moves S (ServerEvent.message input hdl frame).may
      (onMessage S input hdl frame) := by
  unfold onMessage
  split
  · exact Ensures.pure ()
  · apply Ensures.bind
      (receive_moves S (fun _ _ => trivial) input hdl
        frame.payload)
    intro received
    cases received with
    | ignored => exact Ensures.pure ()
    | decrypted isAuth payload =>
        refine Ensures.catchAll ?_ (fun _ => Ensures.pure ())
        refine
          dispatch_moves S ?_ trivial (fun _ => trivial) input
            isAuth payload
        exact
          fun requestId response => ⟨requestId, response, rfl⟩
    | unknown =>
        exact
          Ensures.catchAll
            (handshake_moves S rfl (fun _ _ => trivial)
              (fun _ _ => trivial) input frame.payload)
            (fun _ => closeHdl_moves S _ _ _ _)

theorem handle_moves (event : ServerEvent) :
    Moves S event.may (handle S event) := by
  cases event with
  | opened input hdl => exact onOpen_moves S input hdl
  | message input hdl frame =>
      exact onMessage_moves S input hdl frame
  | closed input hdl => exact onClose_moves S input hdl
  | timeouts input => exact checkTimeouts_moves S input
  | call method => exact call_moves S method

end WsServer

end ObscuraProto
