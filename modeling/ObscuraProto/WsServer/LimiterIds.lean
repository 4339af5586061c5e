import ObscuraProto.Library.Numbering
import ObscuraProto.WsServer.Counting
import ObscuraProto.WsServer.Pool
import ObscuraProto.WsServer.Touches

/-
  The limiter ids of stored sessions.

  `register_connection` numbers the sessions with a counter
  of 64 bits.  Only a handshake registers, once, and stores
  its session under the number it got; all other steps of all
  threads can only drop ids.  So as long as the counter has
  not come round, no two connections have the same id.

  Key definitions include:
    * `WsServer.Drops`, `WsServer.IdStep`
    * `WsServer.registrations`, `WsServer.Numbered`

  Key theorems include:
    * `WsServer.handle_ids`
    * `WsServer.fresh_of_run`
-/

namespace ObscuraProto

open Effectful Threads Numbering

namespace WsServer

------------------------------------------------------------
-- Kinds of Steps
------------------------------------------------------------

/- Nothing is registered, and no id is added. -/
structure Drops (w w' : WsServer) : Prop where
  counter :
    w'.rateLimiter.nextConnId = w.rateLimiter.nextConnId
  held :
    ∀ hdl connId, storedId hdl w' connId → storedId hdl w connId

/- The counter goes on by one. -/
structure Registers (w w' : WsServer) : Prop where
  counter :
    w'.rateLimiter.nextConnId =
      w.rateLimiter.nextConnId + 1
  held :
    ∀ hdl connId, storedId hdl w' connId → storedId hdl w connId

/- One step of an event, after the steps of its trace. -/
inductive IdStep
    (trace : Trace)
    (w : WsServer)
    (w' : WsServer) : Prop
| drops : Drops w w' → IdStep trace w w'
| registers : Registers w w' → IdStep trace w w'
| stores
    {before : Trace}
    {m : Transition WsServer ServerEffect}
    {hdl : Hdl} :
    trace = before ++ [m] →
      Registers m.before m.after →
        w'.rateLimiter = w.rateLimiter →
          (∀ other connId,
            storedId other w' connId →
              storedId other w connId ∨
                (other = hdl ∧
                  connId =
                    m.before.rateLimiter.nextConnId)) →
            IdStep trace w w'

------------------------------------------------------------
-- Steps That Drop
------------------------------------------------------------

theorem Drops.refl (w : WsServer) : Drops w w :=
  ⟨rfl, fun _ _ hHeld => hHeld⟩

theorem storedId_of_table
    {w w' : WsServer}
    (hTable :
      ∀ (isAuth : Bool) (hdl : Hdl),
        (w'.sessionTable.table isAuth)[hdl]? =
            (w.sessionTable.table isAuth)[hdl]? ∨
          (w'.sessionTable.table isAuth)[hdl]? = none)
    (hdl : Hdl)
    (connId : UInt64)
    (hHeld : storedId hdl w' connId) :
    storedId hdl w connId := by
  rcases hHeld with ⟨isAuth, state, hStored, hId⟩
  rcases hTable isAuth hdl with hSame | hGone
  · rw [hSame] at hStored
    exact ⟨isAuth, state, hStored, hId⟩
  · rw [hGone] at hStored
    cases hStored

theorem storedId_of_unreplaced
    {w w' : WsServer}
    (hSame : Unreplaced w w')
    (hdl : Hdl)
    (connId : UInt64)
    (hHeld : storedId hdl w' connId) :
    storedId hdl w connId := by
  rcases hHeld with ⟨isAuth, state', hStored, hId⟩
  rcases hSame.stored_before hStored with
    ⟨state, hBefore, hFixed⟩
  have hIds :
      state'.fixed.rateLimiterId = state.fixed.rateLimiterId :=
    congrArg ConnectionState.rateLimiterId hFixed
  exact ⟨isAuth, state, hBefore, hIds.symm.trans hId⟩

theorem nextConnId_apply
    {op : LimiterOp}
    (hOp : ∀ ip, op ≠ .registerConnection ip)
    (rl : RateLimiter) :
    (op.apply rl).nextConnId = rl.nextConnId := by
  cases op with
  | checkConnectionRate ip now =>
      unfold LimiterOp.apply RateLimiter.checkConnectionRate
      dsimp only
      split <;> rfl
  | recordConnection ip now =>
      unfold LimiterOp.apply RateLimiter.recordConnection
      dsimp only
      split <;> rfl
  | checkHandshakeRate ip now =>
      unfold LimiterOp.apply RateLimiter.checkHandshakeRate
      dsimp only
      split <;> rfl
  | recordHandshake ip now =>
      unfold LimiterOp.apply RateLimiter.recordHandshake
      dsimp only
      split <;> rfl
  | checkMessageRate connId now =>
      unfold LimiterOp.apply RateLimiter.checkMessageRate
      dsimp only
      split
      · rfl
      · split <;> rfl
  | recordMessage connId now =>
      unfold LimiterOp.apply RateLimiter.recordMessage
      dsimp only
      split <;> rfl
  | registerConnection ip => exact absurd rfl (hOp ip)
  | unregisterConnection | cleanup => rfl

/- Without a registration the counter stays. -/
theorem nextConnId_of_uses
    {may : LimiterOp → Prop}
    {w w' : WsServer}
    (hUses : UsesLimiter may w w')
    (hMay :
      ∀ op, may op → ∀ ip, op ≠ .registerConnection ip) :
    w'.rateLimiter.nextConnId = w.rateLimiter.nextConnId := by
  rcases hUses with ⟨ops, hOps, hState⟩
  rw [hState]
  generalize w.rateLimiter = rl
  clear hState
  induction ops generalizing rl with
  | nil => rfl
  | cons op ops ih =>
      rw [List.foldl_cons,
        ih (fun other hMem =>
          hOps other (List.mem_cons_of_mem _ hMem))]
      exact
        nextConnId_apply (hMay op (hOps op List.mem_cons_self))
          rl

/- Short for: every step only drops ids. -/
abbrev Dropping {α : Type} (act : ServerAction α) : Prop :=
  Ensures (fun w _ w' => Drops w w') act

variable {S : Sodium}

theorem CallStep.held
    {w w' : WsServer}
    {effects : List ServerEffect}
    (hStep : CallStep S w effects w') :
    ∀ hdl connId,
      storedId hdl w' connId → storedId hdl w connId := by
  cases hStep with
  | sends hSends =>
      exact
        storedId_of_unreplaced
          (OnlySends.unreplaced hSends.onlySends)
  | removes hRemoves => exact storedId_of_table hRemoves.table

theorem dropping_of_steps
    {α : Type}
    {act : ServerAction α}
    {may : LimiterOp → Prop}
    (hSteps : Ensures (CallStep S) act)
    (hLimits : Ensures (Limits may) act)
    (hMay :
      ∀ op, may op → ∀ ip, op ≠ .registerConnection ip) :
    Dropping act := by
  refine (hSteps.both hLimits).mono ?_
  rintro w _ w' ⟨hStep, hUses⟩
  exact ⟨nextConnId_of_uses hUses hMay, hStep.held⟩

theorem dropping_of_sends
    {α : Type}
    {act : ServerAction α}
    {may : LimiterOp → Prop}
    (hSends : Sends S act)
    (hLimits : Ensures (Limits may) act)
    (hMay :
      ∀ op, may op → ∀ ip, op ≠ .registerConnection ip) :
    Dropping act :=
  dropping_of_steps
    (hSends.mono (fun _ _ _ hStep => .sends hStep)) hLimits
    hMay

------------------------------------------------------------
-- Steps of a Handshake
------------------------------------------------------------

/- Short for: its steps, after those of the trace. -/
abbrev NumberedSteps
    {α : Type}
    (trace : Trace)
    (act : ServerAction α) : Prop :=
  Traces (fun _ => True)
    (fun trace w _ w' => IdStep trace w w')
    (fun _ => True) trace act

theorem Dropping.numbered
    {α : Type}
    {act : ServerAction α}
    (hAct : Dropping act)
    (trace : Trace) :
    NumberedSteps trace act :=
  .of_ensures hAct (fun _ _ _ _ hDrops => .drops hDrops)
    (fun _ => trivial) trace

theorem Dropping.numbered_bind
    {α β : Type}
    {act : ServerAction α}
    {g : α → ServerAction β}
    {trace : Trace}
    (hAct : Dropping act)
    (hNext : ∀ a later, NumberedSteps later (g a)) :
    NumberedSteps trace (act >>= g) :=
  .ensures_bind hAct (fun _ _ _ _ hDrops => .drops hDrops)
    (fun a _ => hNext a _)

theorem numbered_bind
    {α β : Type}
    {act : ServerAction α}
    {g : α → ServerAction β}
    {trace : Trace}
    (hAct : NumberedSteps trace act)
    (hNext : ∀ a, Dropping (g a)) :
    NumberedSteps trace (act >>= g) :=
  .bind hAct (fun a _ _ => Dropping.numbered (hNext a) _)

theorem storedId_of_emplace
    {isAuth : Bool}
    {hdl : Hdl}
    {state : ConnectionState}
    {w : WsServer}
    (other : Hdl)
    (connId : UInt64)
    (hHeld :
      storedId other
        { w with
          sessionTable :=
            w.sessionTable.emplace isAuth hdl state } connId) :
    storedId other w connId ∨
      (other = hdl ∧ connId = state.rateLimiterId) := by
  rcases hHeld with ⟨isAuth', state', hStored, hId⟩
  dsimp only at hStored
  by_cases hSide : isAuth' = isAuth
  · subst hSide
    rw [SessionTable.table_emplace_self] at hStored
    rcases OrderedMap.of_getElem?_insertIfNew hStored with
      ⟨hHdl, hState⟩ | hOld
    · subst hState
      exact Or.inr ⟨hHdl, hId.symm⟩
    · exact Or.inl ⟨isAuth', state', hOld, hId⟩
  · rw [Bool.eq_not.mpr hSide,
      SessionTable.table_emplace_not] at hStored
    exact Or.inl ⟨!isAuth, state', hStored, hId⟩

/- A step that leaves the limiter and the sessions alone. -/
theorem drops_of_eq
    {w w' : WsServer}
    (hLimiter : w'.rateLimiter = w.rateLimiter)
    (hTable : w'.sessionTable = w.sessionTable) :
    Drops w w' := by
  refine ⟨by rw [hLimiter], ?_⟩
  apply storedId_of_table
  intro isAuth hdl
  rw [hTable]
  exact Or.inl rfl

theorem establish_ids
    (input : IoInput)
    (hdl : Hdl)
    (session : Session)
    (identity : Option PublicKey)
    (trace : Trace) :
    NumberedSteps trace
      (establish input hdl session identity) := by
  refine .atomic_bind ?_ ?_
  · intro w _
    exact .registers ⟨rfl, fun _ _ hHeld => hHeld⟩
  intro w connId _ hResult
  injection hResult with hConnId
  subst hConnId
  refine .atomic_bind ?_ ?_
  · intro v _
    exact
      .stores rfl ⟨rfl, fun _ _ hHeld => hHeld⟩ rfl
        storedId_of_emplace
  intro _ _ _ _
  apply Dropping.numbered
  cases identity with
  | none => exact Ensures.pure ()
  | some clientPk =>
      exact Ensures.modify (fun _ => drops_of_eq rfl rfl)

theorem get_dropping :
    Dropping (Action.get : ServerAction WsServer) :=
  Ensures.get Drops.refl

theorem limiter_dropping
    {α : Type}
    {f : RateLimiter → α × RateLimiter}
    (op : LimiterOp)
    (hOp : ∀ ip, op ≠ .registerConnection ip)
    (hApply : ∀ rl, (f rl).2 = op.apply rl) :
    Dropping (limiter f) := by
  apply Ensures.atomic
  intro w
  refine ⟨?_, fun _ _ hHeld => hHeld⟩
  dsimp only
  rw [hApply]
  exact nextConnId_apply hOp _

theorem limiterCheck_dropping
    {check : RateLimiter → Bool × RateLimiter}
    (op : LimiterOp)
    (hOp : ∀ ip, op ≠ .registerConnection ip)
    (hApply : ∀ rl, (check rl).2 = op.apply rl) :
    Dropping (limiterCheck check) := by
  apply Ensures.bind get_dropping
  intro w
  split
  · exact limiter_dropping op hOp hApply
  · exact Ensures.pure true

theorem limiterRecord_dropping
    {record : RateLimiter → RateLimiter}
    (op : LimiterOp)
    (hOp : ∀ ip, op ≠ .registerConnection ip)
    (hApply : ∀ rl, record rl = op.apply rl) :
    Dropping (limiterRecord record) := by
  apply Ensures.bind get_dropping
  intro w
  split
  · exact limiter_dropping op hOp hApply
  · exact Ensures.pure ()

theorem emit_dropping (effect : ServerEffect) :
    Dropping (Action.emit effect) :=
  Ensures.emit Drops.refl

theorem closeHdl_dropping
    (input : IoInput)
    (hdl : Hdl)
    (status : CloseStatus)
    (reason : String) :
    Dropping (closeHdl input hdl status reason) :=
  Ensures.bind (emit_dropping _) (fun _ => Ensures.ofExcept _)

theorem clearHandshakeTime_dropping (hdl : Hdl) :
    Dropping (clearHandshakeTime hdl) :=
  Ensures.modify (fun _ => drops_of_eq rfl rfl)

theorem identityAccepted_dropping
    (input : IoInput)
    (hdl : Hdl)
    (clientPk : PublicKey) :
    Dropping (identityAccepted input hdl clientPk) := by
  apply Ensures.bind get_dropping
  intro w
  split
  · exact Ensures.pure true
  · exact
      Ensures.bind (emit_dropping _)
        (fun _ => Ensures.ofExcept _)

theorem invokeHandler_dropping
    (handler : Option HandlerId)
    (callback : HandlerId → ServerCallback)
    (answer : Except Exception Unit) :
    Dropping (invokeHandler handler callback answer) := by
  cases handler with
  | none => exact Ensures.pure ()
  | some handler =>
      exact
        Ensures.bind (emit_dropping _)
          (fun _ => Ensures.ofExcept _)

theorem establishIdentified_ids
    (input : IoInput)
    (hdl : Hdl)
    (session : Session)
    (clientPk : PublicKey)
    (trace : Trace) :
    NumberedSteps trace
      (establishIdentified input hdl session clientPk) := by
  apply Dropping.numbered_bind
    (identityAccepted_dropping input hdl clientPk)
  intro accepted later
  split
  · exact
      establish_ids input hdl session (some clientPk) later
  · exact (closeHdl_dropping _ _ _ _).numbered _

theorem conclude_ids
    (input : IoInput)
    (hdl : Hdl)
    (hello : ClientHello)
    (session : Session)
    (trace : Trace) :
    NumberedSteps trace
      (conclude input hdl hello session) := by
  apply Dropping.numbered_bind
    (limiterRecord_dropping
      (.recordHandshake input.remoteIp
        (nowMs (input.clock 1)))
      (fun _ => LimiterOp.noConfusion) (fun _ => rfl))
  intro _ later
  dsimp only
  split
  · exact
      numbered_bind
        (establishIdentified_ids input hdl session _ later)
        (fun _ => clearHandshakeTime_dropping hdl)
  · exact
      numbered_bind
        (establish_ids input hdl session none later)
        (fun _ => clearHandshakeTime_dropping hdl)

variable (S)

theorem handshake_ids
    (input : IoInput)
    (hdl : Hdl)
    (data : Bytes)
    (trace : Trace) :
    NumberedSteps trace (handshake S input hdl data) := by
  apply Dropping.numbered_bind
    (limiterCheck_dropping
      (.checkHandshakeRate input.remoteIp
        (nowMs (input.clock 0)))
      (fun _ => LimiterOp.noConfusion) (fun _ => rfl))
  intro allowed later
  split
  · exact (closeHdl_dropping _ _ _ _).numbered _
  · refine .ofExcept_bind ?_
    intro hello _
    apply Dropping.numbered_bind get_dropping
    intro w later
    refine .ofExcept_bind ?_
    intro serverHello _
    apply Dropping.numbered_bind (emit_dropping _)
    intro _ later
    refine .ofExcept_bind ?_
    intro _ _
    exact conclude_ids input hdl hello _ later

------------------------------------------------------------
-- Events
------------------------------------------------------------

theorem receive_dropping
    (input : IoInput)
    (hdl : Hdl)
    (packet : Bytes) :
    Dropping (receive S input hdl packet) := by
  apply Ensures.atomic
  intro w
  have hTouches := receive_touches S input hdl packet w
  have hSpec := (receive_spec S input hdl packet w).1
  unfold receive at hTouches hSpec
  rw [Action.run_atomically] at hTouches hSpec
  refine ⟨?_, ?_⟩
  · apply nextConnId_of_uses hTouches.limiter
    intro op hMay ip hOp
    rw [hOp] at hMay
    exact hMay
  · apply storedId_of_unreplaced
    rcases hSpec with ⟨hQuiet, _⟩ | ⟨_, _, hAccepts, _⟩
    · exact OnlySends.unreplaced hQuiet.onlySends
    · exact hAccepts.unreplaced

theorem dispatch_dropping
    (input : IoInput)
    (hdl : Hdl)
    (isAuth : Bool)
    (payload : Payload) :
    Dropping (dispatch S input hdl isAuth payload) := by
  have hLocal :
      Local (fun _ => False) hdl
        (dispatch S input hdl isAuth payload) :=
    dispatch_local S input isAuth payload
  exact
    dropping_of_sends
      (dispatch_sends S input hdl isAuth payload)
      hLocal.limits (fun _ hNever => hNever.elim)

theorem onMessage_ids
    (input : IoInput)
    (hdl : Hdl)
    (frame : Frame) :
    NumberedSteps [] (onMessage S input hdl frame) := by
  unfold onMessage
  split
  · exact Dropping.numbered (Ensures.pure ()) []
  · apply Dropping.numbered_bind
      (receive_dropping S input hdl frame.payload)
    intro received later
    cases received with
    | ignored => exact Dropping.numbered (Ensures.pure ()) _
    | decrypted isAuth payload =>
        apply Dropping.numbered
        exact
          Ensures.catchAll
            (dispatch_dropping S input hdl isAuth payload)
            (fun _ => Ensures.pure ())
    | unknown =>
        refine
          .catchAll (handshake_ids S input hdl _ later) ?_
        intro _ more
        exact (closeHdl_dropping _ _ _ _).numbered _

theorem onOpen_dropping
    (S : Sodium)
    (input : IoInput)
    (hdl : Hdl) :
    Dropping (onOpen input hdl) := by
  have hLocal :
      Local (openMayUse input) hdl (onOpen input hdl) :=
    onOpen_touches input hdl
  apply
    dropping_of_sends (onOpen_sends S input hdl) hLocal.limits
  intro op hMay ip hOp
  rw [hOp] at hMay
  exact hMay

theorem onClose_dropping
    (S : Sodium)
    (input : IoInput)
    (hdl : Hdl) :
    Dropping (onClose input hdl) := by
  have hUses :
      Ensures (fun w _ => UsesLimiter (closeMayUse hdl w) w)
        (onClose input hdl) :=
    (onClose_touches input hdl).mono
      (fun _ _ _ hTouches => hTouches.limiter)
  refine ((onClose_callSteps S input hdl).both hUses).mono ?_
  rintro w _ w' ⟨hStep, hLimiter⟩
  refine ⟨?_, hStep.held⟩
  apply nextConnId_of_uses hLimiter
  intro op hMay ip hOp
  rw [hOp] at hMay
  exact hMay

theorem checkTimeouts_dropping
    (S : Sodium)
    (input : IoInput) :
    Dropping (checkTimeouts input) := by
  apply
    dropping_of_sends (checkTimeouts_sends S input)
      (checkTimeouts_limits input)
  intro op hMay ip hOp
  rw [hOp] at hMay
  exact LimiterOp.noConfusion hMay

theorem callCode_dropping (k : ServerCall) :
    Dropping (callCode S k) := by
  have hLimits :
      Ensures (Limits (fun _ => False)) (callCode S k) := by
    cases k with
    | method method => exact call_limits S method
    | stop => exact stop_limits
  exact
    dropping_of_steps (callCode_steps S k) hLimits
      (fun _ hNever => hNever.elim)

/- Every event registers once at most, and stores that id. -/
theorem handle_ids (event : ServerEvent) :
    NumberedSteps [] (handle S event) := by
  cases event with
  | opened input hdl =>
      exact (onOpen_dropping S input hdl).numbered []
  | message input hdl frame =>
      exact onMessage_ids S input hdl frame
  | closed input hdl =>
      exact (onClose_dropping S input hdl).numbered []
  | timeouts input =>
      exact (checkTimeouts_dropping S input).numbered []
  | call method =>
      exact (callCode_dropping S (.method method)).numbered []

------------------------------------------------------------
-- All Threads
------------------------------------------------------------

/- The steps of a history that have moved the counter on. -/
def registrations (history : Trace) : Nat :=
  history.countP (fun m =>
    m.after.rateLimiter.nextConnId !=
      m.before.rateLimiter.nextConnId)

/- The counter, and the ids that are held. -/
structure Counted (w : WsServer) (drawn : Nat) : Prop where
  counter : w.rateLimiter.nextConnId = UInt64.ofNat drawn
  fresh :
    drawn ≤ 2 ^ 64 →
      Fresh (fun hdl connId => storedId hdl w connId) drawn

/- What the event has just registered is stored by nobody. -/
def Reserved
    (w : WsServer)
    (drawn : Nat)
    (trace : Trace) : Prop :=
  ∀ before m,
    trace = before ++ [m] → Registers m.before m.after →
      drawn ≤ 2 ^ 64 →
        m.before.rateLimiter.nextConnId.toNat < drawn ∧
          ∀ hdl,
            ¬ storedId hdl w m.before.rateLimiter.nextConnId

structure Numbered (S : Sodium) (p : ServerPool) : Prop where
  counted : Counted p.shared (registrations p.history)
  calls : ∀ thread ∈ p.calls, Dropping thread.code
  events :
    ∀ thread, p.events = some thread →
      NumberedSteps thread.trace thread.code
  reserved :
    ∀ thread, p.events = some thread →
      Reserved p.shared (registrations p.history) thread.trace

theorem registrations_same
    {w w' : WsServer}
    (hSame :
      w'.rateLimiter.nextConnId = w.rateLimiter.nextConnId)
    (history : Trace)
    (effects : List ServerEffect) :
    registrations (history ++ [⟨w, effects, w'⟩]) =
      registrations history := by
  unfold registrations
  rw [List.countP_append]
  simp [hSame]

theorem registrations_registers
    {w w' : WsServer}
    (hRegisters : Registers w w')
    (history : Trace)
    (effects : List ServerEffect) :
    registrations (history ++ [⟨w, effects, w'⟩]) =
      registrations history + 1 := by
  unfold registrations
  rw [List.countP_append]
  simp [hRegisters.counter]

theorem Counted.drops
    {w w' : WsServer}
    {drawn : Nat}
    (hCounted : Counted w drawn)
    (hDrops : Drops w w') :
    Counted w' drawn where
  counter := hDrops.counter.trans hCounted.counter
  fresh := fun hDrawn =>
    (hCounted.fresh hDrawn).shrink hDrops.held

theorem Counted.registers
    {w w' : WsServer}
    {drawn : Nat}
    (hCounted : Counted w drawn)
    (hRegisters : Registers w w') :
    Counted w' (drawn + 1) where
  counter := by
    rw [hRegisters.counter, hCounted.counter]
    exact (UInt64.ofNat_add drawn 1).symm
  fresh := by
    intro hDrawn
    have hFresh := hCounted.fresh (Nat.le_of_succ_le hDrawn)
    exact
      (hFresh.shrink hRegisters.held).later (Nat.le_succ drawn)

/- The id that was drawn has not been given before. -/
theorem Counted.unheld
    {w : WsServer}
    {drawn : Nat}
    (hCounted : Counted w drawn)
    (hDrawn : drawn < 2 ^ 64) :
    w.rateLimiter.nextConnId.toNat = drawn ∧
      ∀ hdl, ¬ storedId hdl w w.rateLimiter.nextConnId := by
  have hNumber :
      w.rateLimiter.nextConnId.toNat = drawn := by
    rw [hCounted.counter]
    exact toNat_counter hDrawn
  refine ⟨hNumber, ?_⟩
  exact
    (hCounted.fresh (Nat.le_of_lt hDrawn)).unheld
      (Nat.le_of_eq hNumber.symm)

theorem Reserved.drops
    {w w' : WsServer}
    {drawn : Nat}
    {trace : Trace}
    (hReserved : Reserved w drawn trace)
    (hDrops : Drops w w') :
    Reserved w' drawn trace := by
  intro before m hTrace hRegisters hDrawn
  rcases hReserved before m hTrace hRegisters hDrawn with
    ⟨hBelow, hUnheld⟩
  refine ⟨hBelow, ?_⟩
  intro hdl hHeld
  exact hUnheld hdl (hDrops.held hdl _ hHeld)

/- A trace that ends otherwise has nothing reserved. -/
theorem reserved_of_same
    {w w' v : WsServer}
    (hSame :
      w'.rateLimiter.nextConnId = w.rateLimiter.nextConnId)
    (drawn : Nat)
    (trace : Trace)
    (effects : List ServerEffect) :
    Reserved v drawn (trace ++ [⟨w, effects, w'⟩]) := by
  intro before m hTrace hRegisters _
  rcases List.append_inj' hTrace rfl with ⟨_, hLast⟩
  injection hLast with hLast
  subst hLast
  have hMoved := hRegisters.counter
  rw [hSame] at hMoved
  simp at hMoved

variable {S}

/- What a step has to keep about the shared state. -/
structure Tracked (p : ServerPool) : Prop where
  counted : Counted p.shared (registrations p.history)
  reserved :
    ∀ thread, p.events = some thread →
      Reserved p.shared (registrations p.history) thread.trace

theorem Numbered.tracked
    {p : ServerPool}
    (hNumbered : Numbered S p) :
    Tracked p :=
  ⟨hNumbered.counted, hNumbered.reserved⟩

theorem Numbered.stepCall
    {p : ServerPool}
    (hNumbered : Numbered S p)
    (i : Nat) :
    Tracked (p.stepCall (poolProgram S) i) := by
  cases hCall : p.calls[i]? with
  | none =>
      rw [Pool.stepCall_ended]
      · exact hNumbered.tracked
      · intro thread hThread
        rw [hCall] at hThread
        cases hThread
  | some thread =>
      cases hCode : thread.code with
      | done result =>
          rw [Pool.stepCall_ended]
          · exact hNumbered.tracked
          · intro thread' hThread
            rw [hCall] at hThread
            cases hThread
            exact ⟨result, hCode⟩
      | step effects next rest =>
          rw [Pool.stepCall_running _ hCall hCode]
          have hDropping :=
            hNumbered.calls thread (List.mem_of_getElem? hCall)
          rw [hCode] at hDropping
          cases hDropping with
          | step hDrops _ =>
              have hNow := hDrops p.shared
              have hSame :
                  registrations
                      (p.history ++
                        [⟨p.shared, effects p.shared,
                          next p.shared⟩]) =
                    registrations p.history :=
                registrations_same hNow.counter _ _
              refine ⟨?_, ?_⟩
              · simp only [poolProgram, hSame]
                exact hNumbered.counted.drops hNow
              · intro thread' hThread'
                simp only [poolProgram, hSame]
                exact
                  (hNumbered.reserved thread' hThread').drops
                    hNow

theorem Numbered.stepEvent
    {p : ServerPool}
    (hNumbered : Numbered S p) :
    Tracked (p.stepEvent (poolProgram S)) := by
  unfold Pool.stepEvent
  cases hEvents : p.events with
  | none => exact hNumbered.tracked
  | some thread =>
      have hSteps := hNumbered.events thread hEvents
      have hReserved := hNumbered.reserved thread hEvents
      cases hCode : thread.code with
      | done result =>
          simp only [Pool.advance, hCode]
          refine ⟨hNumbered.counted, ?_⟩
          intro thread' hThread'
          cases hThread'
          exact hReserved
      | step effects next rest =>
          rw [hCode] at hSteps
          simp only [Pool.advance, hCode, poolProgram]
          cases hSteps with
          | step hStep _ =>
              cases hStep p.shared trivial with
              | drops hDrops =>
                  have hSame :=
                    registrations_same hDrops.counter p.history
                      (effects p.shared)
                  refine ⟨?_, ?_⟩
                  · dsimp only
                    rw [hSame]
                    exact hNumbered.counted.drops hDrops
                  · intro thread' hThread'
                    cases hThread'
                    exact reserved_of_same hDrops.counter _ _ _
              | registers hRegisters =>
                  have hMore :=
                    registrations_registers hRegisters p.history
                      (effects p.shared)
                  refine ⟨?_, ?_⟩
                  · dsimp only
                    rw [hMore]
                    exact hNumbered.counted.registers hRegisters
                  · intro thread' hThread' before m hTrace _ hDrawn
                    cases hThread'
                    dsimp only at hTrace hDrawn ⊢
                    rw [hMore] at hDrawn ⊢
                    rcases List.append_inj' hTrace rfl with
                      ⟨_, hLast⟩
                    injection hLast with hLast
                    subst hLast
                    rcases hNumbered.counted.unheld
                        (Nat.lt_of_succ_le hDrawn) with
                      ⟨hNumber, hUnheld⟩
                    refine ⟨by dsimp only; omega, ?_⟩
                    intro hdl hHeld
                    exact
                      hUnheld hdl (hRegisters.held hdl _ hHeld)
              | stores hTrace hRegisters hLimiter hHeld =>
                  have hCounter :
                      (next p.shared).rateLimiter.nextConnId =
                        p.shared.rateLimiter.nextConnId := by
                    rw [hLimiter]
                  have hSame :=
                    registrations_same hCounter p.history
                      (effects p.shared)
                  refine ⟨⟨?_, ?_⟩, ?_⟩
                  · dsimp only
                    rw [hSame, hCounter]
                    exact hNumbered.counted.counter
                  · dsimp only
                    rw [hSame]
                    intro hDrawn
                    rcases hReserved _ _ hTrace hRegisters hDrawn
                      with ⟨hBelow, hUnheld⟩
                    exact
                      (hNumbered.counted.fresh hDrawn).add hBelow
                        hUnheld hHeld
                  · intro thread' hThread'
                    cases hThread'
                    exact reserved_of_same hCounter _ _ _

theorem Numbered.step
    {p q : ServerPool}
    {l : Label ServerCall IoEvent}
    (hNumbered : Numbered S p)
    (hStep : PoolStep S p l q) :
    Numbered S q := by
  have hTracked : Tracked q := by
    rcases hStep with ⟨_, hNext⟩
    subst hNext
    cases l with
    | call k =>
        exact ⟨hNumbered.counted, hNumbered.reserved⟩
    | event event =>
        refine ⟨hNumbered.counted, ?_⟩
        intro thread hThread before m hTrace
        cases hThread
        simp at hTrace
    | stepCall i => exact hNumbered.stepCall i
    | stepEvent => exact hNumbered.stepEvent
  refine ⟨hTracked.counted, ?_, ?_, hTracked.reserved⟩
  · refine Pool.forall_calls_step ?_ ?_ hNumbered.calls hStep
    · intro k _
      exact callCode_dropping S k
    · intro thread effects next rest hCode hDropping
      rw [hCode] at hDropping
      cases hDropping with
      | step _ hRest => exact hRest p.shared
  · refine Pool.forall_event_step ?_ ?_ hNumbered.events hStep
    · intro event _
      exact handle_ids S event.val
    · intro thread effects next rest hCode hSteps
      rw [hCode] at hSteps
      cases hSteps with
      | step _ hRest => exact hRest p.shared trivial

theorem numbered_new
    (S : Sodium)
    (serverSignKey : KeyPair)
    (config : Config)
    {hasOwner : Bool} :
    Numbered S
      (pool (WsServer.new serverSignKey config hasOwner)) where
  counted := by
    refine ⟨rfl, fun _ => .nobody ?_⟩
    rintro hdl connId ⟨isAuth, state, hStored, _⟩
    cases isAuth <;>
      cases Std.ExtTreeMap.getElem?_empty.symm.trans hStored
  calls := by simp [pool]
  events := by simp [pool]
  reserved := by simp [pool]

/-
  In every run of all threads with at most 2^64 registrations
  no limiter id is held by two connections.
-/
theorem fresh_of_run
    {serverSignKey : KeyPair}
    {config : Config}
    {hasOwner : Bool}
    {labels : List (Label ServerCall IoEvent)}
    {p : ServerPool}
    (hRun :
      StateMachine.Run (PoolStep S)
        (pool (WsServer.new serverSignKey config hasOwner))
          labels p)
    (hFew : registrations p.history ≤ 2 ^ 64) :
    Fresh (fun hdl connId => storedId hdl p.shared connId)
      (registrations p.history) := by
  have hNumbered : Numbered S p :=
    hRun.invariant
      (fun _ _ _ hBefore hStep => Numbered.step hBefore hStep)
      (numbered_new S serverSignKey config)
  exact hNumbered.counted.fresh hFew

end WsServer

end ObscuraProto
