import ObscuraProto.WsServer.Requests

/-
  A server whose timeouts are disabled.

  `timeouts.enabled` is read when a connection opens and when
  a request is made: without it there are no open times, and
  deadlines only for requests with a timeout of their own.
  The idle check of `check_timeouts` does not read it, so it
  still closes connections that are idle.

  Key definitions include:
    * `DisabledTimeouts.Disabled`
    * `DisabledTimeouts.NoneClosed`, `DisabledTimeouts.NoneIdle`
    * `DisabledTimeouts.HasTimeout`, `DisabledTimeouts.NoLeftover`

  Key theorems include:
    * `DisabledTimeouts.disabled_timeouts`
    * `DisabledTimeouts.idle_closed`
-/

namespace ObscuraProto

namespace DisabledTimeouts

open Effectful Threads RequestLifecycle WsServer

------------------------------------------------------------
-- No Open Times
------------------------------------------------------------

/- The configuration is fixed, and no open time is kept. -/
structure Disabled (config : Config) (w : WsServer) : Prop where
  configured : w.config = config
  openTimes : w.handshakeOpenTime = ∅

variable {S : Sodium}
variable {config : Config}

theorem filter_empty
    {K V : Type}
    [Ord K]
    [Std.TransOrd K]
    [Std.LawfulEqOrd K]
    (f : K → V → Bool) :
    (∅ : Map K V).filter f = ∅ := by
  apply Std.ExtTreeMap.ext_getElem?
  intro k
  simp

/- A move that opens nothing. -/
theorem move_disabled
    {may : May}
    {w w' : WsServer}
    {effects : List ServerEffect}
    (hMove : Move S may w effects w')
    (hOpens : ∀ hdl, ¬ may.opens hdl)
    (hDisabled : Disabled config w) :
    Disabled config w' := by
  rcases hDisabled with ⟨hConfig, hTimes⟩
  cases hMove with
  | opens now hMay => exact (hOpens _ hMay).elim
  | closesLate status reason late =>
      refine ⟨hConfig, ?_⟩
      dsimp only
      rw [hTimes]
      exact filter_empty _
  | clearsTime hdl =>
      refine ⟨hConfig, ?_⟩
      dsimp only
      rw [hTimes]
      exact OrderedMap.erase_of_absent (by simp)
  | receives hMay hWithin =>
      rw [hWithin.state]
      exact ⟨hConfig, hTimes⟩
  | registers registration callback hMay =>
      cases registration <;> exact ⟨hConfig, hTimes⟩
  | closesSessions hMay =>
      rename_i hdl
      rcases closeSession_frame true hdl w with
        ⟨hSame, _, _, hKept, _, _⟩
      rcases closeSession_frame false hdl
          (closeSession true hdl w) with
        ⟨hSame', _, _, hKept', _, _⟩
      exact
        ⟨hSame'.trans (hSame.trans hConfig),
          hKept'.trans (hKept.trans hTimes)⟩
  | _ => exact ⟨hConfig, hTimes⟩

/- Short for: from such a state on, every step keeps it. -/
abbrev KeepsDisabled
    (config : Config)
    {α : Type}
    (trace : Trace)
    (act : ServerAction α) : Prop :=
  Traces (Disabled config)
    (fun _ w _ w' => Disabled config w → Disabled config w')
    (fun _ => True) trace act

theorem keepsDisabled_of_moves
    (may : May)
    {α : Type}
    {act : ServerAction α}
    (hMoves : Moves S may act)
    (hOpens : ∀ hdl, ¬ may.opens hdl)
    (trace : Trace) :
    KeepsDisabled config trace act :=
  .of_ensures hMoves
    (fun _ _ _ _ hMove => move_disabled hMove hOpens)
    (fun _ => trivial) trace

theorem keepsDisabled_bind
    (may : May)
    {α β : Type}
    {act : ServerAction α}
    {g : α → ServerAction β}
    {trace : Trace}
    (hMoves : Moves S may act)
    (hOpens : ∀ hdl, ¬ may.opens hdl)
    (hNext : ∀ a later, KeepsDisabled config later (g a)) :
    KeepsDisabled config trace (act >>= g) :=
  .ensures_bind hMoves
    (fun _ _ _ _ hMove => move_disabled hMove hOpens)
    (fun a _ => hNext a _)

/- An open time is recorded only with timeouts. -/
theorem recordOpenTime_keeps
    (hOff : config.timeouts.enabled = false)
    (hdl : Hdl)
    (now : Int)
    (trace : Trace) :
    KeepsDisabled config trace (recordOpenTime hdl now) := by
  refine .atomic_bind (fun _ _ hSame => hSame) ?_
  intro w w' hDisabled hRead
  cases hRead
  rw [hDisabled.configured, hOff]
  exact .returned () trivial

theorem onOpen_keeps
    (S : Sodium)
    (hOff : config.timeouts.enabled = false)
    (input : IoInput)
    (hdl : Hdl) :
    KeepsDisabled config [] (onOpen input hdl) := by
  have hNone : ∀ hdl, ¬ ({} : May).opens hdl :=
    fun _ hNever => hNever
  refine
    keepsDisabled_bind {}
      (limiterCheck_moves S
        (fun rl => rl.checkConnectionRate_counts _ _)) hNone ?_
  intro allowed later
  split
  · exact
      keepsDisabled_of_moves {} (closeHdl_moves S _ _ _ _)
        hNone later
  · refine
      keepsDisabled_bind {}
        (limiterRecord_moves S
          (fun rl => rl.recordConnection_counts _ _)) hNone ?_
    intro _ later
    refine keepsDisabled_bind {} (get_moves S) hNone ?_
    intro w later
    dsimp only
    split
    · exact
        keepsDisabled_of_moves {} (closeHdl_moves S _ _ _ _)
          hNone later
    · refine
        .bind (recordOpenTime_keeps hOff hdl _ later) ?_
      intro _ more _
      refine keepsDisabled_bind {} (get_moves S) hNone ?_
      intro w later
      exact
        keepsDisabled_of_moves { invokes := fun _ => True }
          (invokeHandler_moves S (fun _ => trivial) _ _)
          (fun _ hNever => hNever) later

variable (S) in
theorem handle_keeps
    (hOff : config.timeouts.enabled = false)
    (event : ServerEvent) :
    KeepsDisabled config [] (handle S event) := by
  cases event with
  | opened input hdl => exact onOpen_keeps S hOff input hdl
  | message | closed | timeouts | call =>
      refine keepsDisabled_of_moves _ (handle_moves S _) ?_ []
      exact fun _ hNever => hNever

variable (S) in
theorem callCode_keeps (k : ServerCall) :
    KeepsDisabled config [] (callCode S k) := by
  apply keepsDisabled_of_moves _ (callCode_moves S k)
  cases k <;> exact fun _ hNever => hNever

------------------------------------------------------------
-- What a Check Closes
------------------------------------------------------------

/- No connection is closed by these effects. -/
def Silent (effects : List ServerEffect) : Prop :=
  ∀ hdl status reason,
    ServerEffect.close hdl status reason ∉ effects

/- No step of the thread has closed a connection. -/
def NoneClosed (trace : Trace) : Prop :=
  ∀ m ∈ trace, Silent m.effects

/- When the check began, no stored connection was idle. -/
def NoneIdle
    (config : Config)
    (input : IoInput)
    (trace : Trace) : Prop :=
  config.timeouts.idleMs = 0 ∨
    ∀ m later, trace = m :: later →
      m.before.sessionTable.idleConnections
          (nowMs (input.clock 0)) config.timeouts.idleMs = []

/- It closes exactly when there were such. -/
def ClosesIdle
    (config : Config)
    (input : IoInput)
    (trace : Trace) : Prop :=
  trace ≠ [] ∧
    (NoneClosed trace ↔ NoneIdle config input trace)

theorem ClosesIdle.snoc
    {input : IoInput}
    {trace : Trace}
    {m : Transition WsServer ServerEffect}
    (hCloses : ClosesIdle config input trace)
    (hSilent : Silent m.effects) :
    ClosesIdle config input (trace ++ [m]) := by
  rcases hCloses with ⟨hBegun, hIff⟩
  cases trace with
  | nil => exact absurd rfl hBegun
  | cons first rest =>
      refine ⟨by simp, ?_⟩
      have hClosed :
          NoneClosed (first :: rest ++ [m]) ↔
            NoneClosed (first :: rest) := by
        unfold NoneClosed
        constructor
        · intro hNone m' hMem
          exact hNone m' (List.mem_append_left _ hMem)
        · intro hNone m' hMem
          rcases List.mem_append.mp hMem with hOld | hNew
          · exact hNone m' hOld
          · rw [List.mem_singleton.mp hNew]
            exact hSilent
      have hIdle :
          NoneIdle config input (first :: rest ++ [m]) ↔
            NoneIdle config input (first :: rest) := by
        unfold NoneIdle
        refine or_congr Iff.rfl ?_
        constructor
        · intro hNone m' later hTrace
          cases hTrace
          exact hNone first (rest ++ [m]) rfl
        · intro hNone m' later hTrace
          cases hTrace
          exact hNone first rest rfl
      rw [hClosed, hIdle]
      exact hIff

/- Short for: what the trace is like when the code returns. -/
abbrev Returns
    (config : Config)
    {α : Type}
    (Q : Trace → Prop)
    (trace : Trace)
    (act : ServerAction α) : Prop :=
  Traces (Disabled config) (fun _ _ _ _ => True) Q trace act

theorem silent_closes (hdls : List Hdl)
    (status : CloseStatus)
    (reason : String) :
    Silent
        (hdls.map (fun hdl =>
          ServerEffect.close hdl status reason)) ↔
      hdls = [] := by
  constructor
  · intro hSilent
    apply List.eq_nil_iff_forall_not_mem.mpr
    intro hdl hMem
    exact
      hSilent hdl status reason (List.mem_map_of_mem hMem)
  · intro hNone hdl status' reason' hMem
    subst hNone
    cases hMem

/- The idle check does not read the flag. -/
theorem closeIdle_closes (input : IoInput) :
    Returns config (ClosesIdle config input) []
      (closeIdle (nowMs (input.clock 0))) := by
  refine .atomic_bind (fun _ _ => trivial) ?_
  intro w w' hDisabled hRead
  cases hRead
  have hQuiet : NoneClosed [⟨w, [], w⟩] := by
    intro m hMem
    rw [List.mem_singleton.mp hMem]
    intro hdl status reason hNever
    cases hNever
  dsimp only
  rw [hDisabled.configured]
  split
  · next hIdleMs =>
      refine .step (fun _ _ => trivial) ?_
      intro v _
      refine .returned () ⟨by simp, ?_⟩
      have hNot : config.timeouts.idleMs ≠ 0 := by
        intro hZero
        rw [hZero] at hIdleMs
        exact absurd hIdleMs (by decide)
      have hIdle :
          NoneIdle config input
              [⟨w, [], w⟩,
                ⟨v,
                  (w.sessionTable.idleConnections
                    (nowMs (input.clock 0))
                    config.timeouts.idleMs).map
                      (fun hdl =>
                        .close hdl .policyViolation
                          "Idle timeout"),
                  v⟩] ↔
            w.sessionTable.idleConnections
                (nowMs (input.clock 0))
                config.timeouts.idleMs = [] := by
        unfold NoneIdle
        constructor
        · rintro (hZero | hNone)
          · exact absurd hZero hNot
          · exact hNone _ _ rfl
        · intro hNone
          apply Or.inr
          intro m later hTrace
          cases hTrace
          exact hNone
      refine Iff.trans ?_ hIdle.symm
      rw [← silent_closes _ .policyViolation "Idle timeout"]
      constructor
      · intro hNone
        exact hNone _ (List.mem_cons_of_mem _ List.mem_cons_self)
      · intro hSilent m hMem
        rcases List.mem_cons.mp hMem with hFirst | hSecond
        · rw [hFirst]
          exact hQuiet _ List.mem_cons_self
        · rw [List.mem_singleton.mp hSecond]
          exact hSilent
  · next hIdleMs =>
      refine .returned () ⟨by simp, ?_⟩
      have hZero : config.timeouts.idleMs = 0 := by
        simpa using hIdleMs
      exact iff_of_true hQuiet (Or.inl hZero)

/- Without open times no handshake is late. -/
theorem closeLate_silent
    {w : WsServer}
    (hDisabled : Disabled config w)
    (now : Int) :
    Silent ((closeLateHandshakes now).run w).effects := by
  unfold closeLateHandshakes
  rw [Action.run_atomically, Action.run_get_bind]
  dsimp only
  split
  · rw [closeQuietly_run_bind, hDisabled.openTimes]
    simp only [filter_empty, Action.modify, Action.run_atomic,
      List.append_nil]
    exact (silent_closes _ _ _).mpr rfl
  · intro hdl status reason hNever
    cases hNever

theorem checkTimeouts_closes (input : IoInput) :
    Returns config (ClosesIdle config input) []
      (checkTimeouts input) := by
  refine .bind (closeIdle_closes input) ?_
  intro _ trace hCloses
  refine .atomic_bind (fun _ _ => trivial) ?_
  intro w _ hDisabled _
  have hLate := closeLate_silent hDisabled (nowMs (input.clock 0))
  unfold closeLateHandshakes at hLate
  rw [Action.run_atomically] at hLate
  refine .atomic_bind (fun _ _ => trivial) ?_
  intro v _ _ _
  refine .step (fun _ _ => trivial) ?_
  intro u _
  refine .returned () ?_
  refine ((hCloses.snoc hLate).snoc ?_).snoc ?_
  · intro hdl status reason hMem
    simp at hMem
  · intro hdl status reason hNever
    cases hNever

------------------------------------------------------------
-- Requests With a Timeout of Their Own
------------------------------------------------------------

/- The call makes a request with an explicit timeout. -/
def HasTimeout
    (k : ServerCall)
    (promise : PromiseId) : Prop :=
  ∃ input hdl payload timeoutMs,
    k = .method (.asyncRequest input hdl payload timeoutMs) ∧
      input.promise = promise ∧ timeoutMs > 0

/- A step of a call, as far as requests are concerned. -/
inductive RequestStep
    (k : ServerCall)
    (w : WsServer)
    (effects : List ServerEffect)
    (w' : WsServer) : Prop
| keeps :
    requestView.table w' = requestView.table w →
      requestView.completions effects = [] →
        RequestStep k w effects w'
| adds {r : RequestLifecycle.Registration Hdl} :
    Adds requestView r w effects w' →
      (r.deadline ≠ none → HasTimeout k r.promise) →
        RequestStep k w effects w'
| completes {reason : Reason Hdl} :
    (∀ now, reason ≠ .expiry now) →
      Completes requestView reason w effects w' →
        RequestStep k w effects w'

theorem requestStep_of_keeps
    {k : ServerCall}
    {w w' : WsServer}
    {effects : List ServerEffect}
    (hKeeps : RequestLifecycle.Keeps requestView w effects w') :
    RequestStep k w effects w' :=
  .keeps hKeeps.table hKeeps.completions

/- Once registered, the promise is only withdrawn. -/
theorem registered_requestSteps
    {α : Type}
    {k : ServerCall}
    {promise : PromiseId}
    {stage : Stage Hdl}
    {act : ServerAction α}
    (hFollows : Follows requestView promise stage act)
    (hStage : ∃ hdl requestId, stage = .registered hdl requestId) :
    Ensures (RequestStep k) act := by
  induction hFollows with
  | done stage result => exact .done result
  | keeps hKeeps _ ih =>
      exact
        .step (fun w => requestStep_of_keeps (hKeeps w))
          (fun w => ih w hStage)
  | takes hTakes _ _ =>
      rcases hStage with ⟨_, _, hStage⟩
      cases hStage
  | adds hAdds _ _ =>
      rcases hStage with ⟨_, _, hStage⟩
      cases hStage
  | fails hFails _ ih =>
      refine
        .step (fun w => .completes ?_ (hFails w))
          (fun w => ih w ⟨_, _, rfl⟩)
      intro now hNever
      cases hNever

/- Short for: with timeouts disabled, such are the steps. -/
abbrev Requesting
    (config : Config)
    (k : ServerCall)
    {α : Type}
    (trace : Trace)
    (act : ServerAction α) : Prop :=
  Traces (Disabled config) (fun _ => RequestStep k)
    (fun _ => True) trace act

theorem requesting_of_ensures
    {k : ServerCall}
    {α : Type}
    {act : ServerAction α}
    (hAct : Ensures (RequestStep k) act)
    (trace : Trace) :
    Requesting config k trace act :=
  .of_ensures hAct (fun _ _ _ _ hStep => hStep)
    (fun _ => trivial) trace

/- Without a timeout the request gets no deadline. -/
theorem asyncRequest_requesting
    (S : Sodium)
    (hOff : config.timeouts.enabled = false)
    {k : ServerCall}
    {input : RequestInput}
    {timeoutMs : UInt32}
    (hTimeout :
      timeoutMs > 0 → HasTimeout k input.promise)
    (hdl : Hdl)
    (payload : Payload)
    (trace : Trace) :
    Requesting config k trace
      (asyncRequest S input hdl payload timeoutMs) := by
  refine .atomic_bind (fun w _ => .keeps rfl rfl) ?_
  intro w w' hDisabled hRead
  cases hRead
  split
  · exact .threw _ _
  · refine .atomic_bind (fun w _ => .keeps rfl rfl) ?_
    intro v requestId _ _
    refine .ofExcept_bind ?_
    intro request _
    rw [hDisabled.configured]
    dsimp only
    refine .atomic_bind ?_ ?_
    · intro u _
      have hAdds :
          Adds requestView
            ⟨(hdl, requestId), input.promise,
              if config.resolveRequestTimeout timeoutMs > 0 then
                some
                  (afterMs input.clock
                    (config.resolveRequestTimeout timeoutMs))
              else
                none⟩ u []
            { u with
              requests :=
                u.requests.register hdl requestId
                  input.promise
                  (if config.resolveRequestTimeout timeoutMs >
                      0 then
                    some
                      (afterMs input.clock
                        (config.resolveRequestTimeout
                          timeoutMs))
                  else
                    none) } :=
        ⟨RequestTable.register_registers hdl requestId
          input.promise _ u.requests, rfl, rfl⟩
      refine .adds hAdds ?_
      intro hDeadline
      apply hTimeout
      unfold Config.resolveRequestTimeout at hDeadline
      rw [hOff] at hDeadline
      by_cases hOwn : timeoutMs > 0
      · exact hOwn
      · simp [hOwn] at hDeadline
    · intro u _ _ _
      apply requesting_of_ensures
      have hRest :
          Follows requestView input.promise
            (.registered hdl requestId)
            (Action.catchAll (send S input.nonce hdl request)
              (fun e => do
                requestSection (fun t =>
                  t.fail hdl requestId e)
                Action.throw e)) :=
        registered_follows input.nonce request
      exact
        Ensures.bind
          (registered_requestSteps hRest ⟨_, _, rfl⟩)
          (fun _ => Ensures.pure _)

theorem callCode_requesting
    (S : Sodium)
    (hOff : config.timeouts.enabled = false)
    (k : ServerCall) :
    Requesting config k [] (callCode S k) := by
  have hOther
      (hNone : promiseOf k = none) :
      Requesting config k [] (callCode S k) := by
    apply requesting_of_ensures
    refine (call_serves S k hNone).mono ?_
    intro w effects w' hServes
    cases hServes with
    | keeps hKeeps => exact requestStep_of_keeps hKeeps
    | completes hMay hCompletes =>
        refine .completes ?_ hCompletes
        rintro now rfl
        cases k with
        | stop => cases hMay
        | method called => exact hMay
  cases k with
  | stop => exact hOther rfl
  | method called =>
      cases called with
      | asyncRequest input hdl payload timeoutMs =>
          refine
            .bind
              (asyncRequest_requesting S hOff ?_ hdl payload [])
              (fun _ _ _ => .returned () trivial)
          intro hTimeout
          exact
            ⟨input, hdl, payload, timeoutMs, rfl, rfl,
              hTimeout⟩
      | asyncRequestToIdentity input identityPk payload =>
          have hRequest :
              Requesting config
                (.method
                  (.asyncRequestToIdentity input identityPk
                    payload)) []
                (asyncRequestToIdentity S input identityPk
                  payload) := by
            refine .atomic_bind (fun w _ => .keeps rfl rfl) ?_
            intro w w' _ _
            refine .ofExcept_bind ?_
            intro hdl _
            exact
              asyncRequest_requesting S hOff
                (fun hNever => absurd hNever (by decide)) hdl
                payload _
          exact
            .bind hRequest (fun _ _ _ => .returned () trivial)
      | _ => exact hOther rfl

------------------------------------------------------------
-- All Threads
------------------------------------------------------------

/-
  No promise was registered under an id for which a deadline
  was left over; the counter of 32 bits has to come round for
  that.
-/
def NoLeftover (history : Trace) : Prop :=
  ∀ m ∈ history, ∀ key promise,
    (requestView.table m.after).pending key = some promise →
      (requestView.table m.before).pending key ≠
          some promise →
        (requestView.table m.before).deadline key = none

/- The pending requests that a table holds. -/
def pendingEntries
    (t : RequestTable) : List (Hdl × UInt32 × PromiseId) :=
  t.pendingRequests.toList.flatMap (fun outer =>
    outer.2.toList.map (fun inner => (outer.1, inner)))

theorem mem_pendingEntries
    {t : RequestTable}
    {hdl : Hdl}
    {id : UInt32}
    {promise : PromiseId}
    (hPending : t.pendingAt hdl id = some promise) :
    (hdl, id, promise) ∈ pendingEntries t := by
  unfold RequestTable.pendingAt NestedMap.lookupAt at hPending
  cases hOuter : t.pendingRequests[hdl]? with
  | none => simp [hOuter] at hPending
  | some inner =>
      rw [hOuter] at hPending
      refine
        List.mem_flatMap.mpr
          ⟨(hdl, inner),
            Std.ExtTreeMap.mem_toList_iff_getElem?_eq_some.mpr
              hOuter, ?_⟩
      exact
        List.mem_map.mpr
          ⟨(id, promise),
            Std.ExtTreeMap.mem_toList_iff_getElem?_eq_some.mpr
              hPending, rfl⟩

/- What was pending already, or had no deadline before. -/
def keptOrFresh
    (before : RequestTable)
    (entry : Hdl × UInt32 × PromiseId) : Bool :=
  before.pendingAt entry.1 entry.2.1 == some entry.2.2 ||
    (before.deadlineAt entry.1 entry.2.1).isNone

/- Enough to look at the requests after each step. -/
theorem noLeftover_of
    {history : Trace}
    (hAll :
      history.all (fun m =>
        (pendingEntries m.after.requests).all
          (keptOrFresh m.before.requests)) = true) :
    NoLeftover history := by
  intro m hMem key promise hAfter hBefore
  have hEntry :=
    List.all_eq_true.mp (List.all_eq_true.mp hAll m hMem) _
      (mem_pendingEntries hAfter)
  rcases (Bool.or_eq_true _ _).mp hEntry with hKept | hFresh
  · exact absurd (beq_iff_eq.mp hKept) hBefore
  · exact Option.isNone_iff_eq_none.mp hFresh

/- The promise is one of a request with a timeout. -/
def Timed (p : ServerPool) (promise : PromiseId) : Prop :=
  ∃ thread ∈ p.calls, HasTimeout thread.call promise

/- Where deadlines are, and what has timed out so far. -/
structure TimedOnly (p : ServerPool) : Prop where
  waiting :
    ∀ key promise,
      (requestView.table p.shared).pending key =
          some promise →
        (requestView.table p.shared).deadline key ≠ none →
          Timed p promise
  expired :
    ∀ promise message,
      ⟨promise, .error (.timeoutError message)⟩ ∈
          completed requestView p.history →
        Timed p promise

structure Inv
    (S : Sodium)
    (config : Config)
    (p : ServerPool) : Prop where
  disabled : Disabled config p.shared
  callsKeep :
    ∀ thread ∈ p.calls,
      KeepsDisabled config thread.trace thread.code
  callsRequest :
    ∀ thread ∈ p.calls,
      Requesting config thread.call thread.trace thread.code
  eventKeeps :
    ∀ thread, p.events = some thread →
      KeepsDisabled config thread.trace thread.code
  eventServes :
    ∀ thread, p.events = some thread →
      Traces (fun _ => True)
        (fun trace =>
          Serves requestView (mayEvent S thread.call trace))
        (fun _ => True) thread.trace thread.code
  eventCloses :
    ∀ thread input, p.events = some thread →
      thread.call.val = .timeouts input →
        Returns config (ClosesIdle config input)
          thread.trace thread.code
  timed : NoLeftover p.history → TimedOnly p

/- What one step of a thread may do. -/
inductive StepKind
    (p q : ServerPool) : Prop
| idle :
    q.shared = p.shared → q.history = p.history →
      StepKind p q
| request
    {thread :
      Thread Exception ServerEffect WsServer ServerCall}
    {effects : List ServerEffect} :
    thread ∈ p.calls →
      RequestStep thread.call p.shared effects q.shared →
        q.history =
            p.history ++ [⟨p.shared, effects, q.shared⟩] →
          StepKind p q
| serve
    {may : Reason Hdl → Prop}
    {effects : List ServerEffect} :
    Serves requestView may p.shared effects q.shared →
      q.history =
          p.history ++ [⟨p.shared, effects, q.shared⟩] →
        StepKind p q

/- Calls that have begun stay, whatever they have done. -/
theorem Timed.later
    {p q : ServerPool}
    {l : Label ServerCall IoEvent}
    {promise : PromiseId}
    (hTimed : Timed p promise)
    (hStep : PoolStep S p l q) :
    Timed q promise := by
  rcases hTimed with ⟨thread, hThread, hHas⟩
  have hCall : thread.call ∈ q.calls.map Thread.call :=
    (Pool.calls_prefix (poolProgram S) hStep).subset
      (List.mem_map_of_mem hThread)
  rcases List.mem_map.mp hCall with ⟨thread', hMem, hSame⟩
  refine ⟨thread', hMem, ?_⟩
  rw [hSame]
  exact hHas

theorem Inv.kind
    {p q : ServerPool}
    {l : Label ServerCall IoEvent}
    (hInv : Inv S config p)
    (hStep : PoolStep S p l q) :
    StepKind p q ∧ Disabled config q.shared := by
  rcases hStep with ⟨_, hNext⟩
  subst hNext
  cases l with
  | call k => exact ⟨.idle rfl rfl, hInv.disabled⟩
  | event event => exact ⟨.idle rfl rfl, hInv.disabled⟩
  | stepCall i =>
      simp only [Pool.exec]
      have hIdle
          (hEnded :
            ∀ thread, p.calls[i]? = some thread →
              ∃ result, thread.code = .done result) :
          StepKind p (p.stepCall (poolProgram S) i) ∧
            Disabled config
              (p.stepCall (poolProgram S) i).shared := by
        rw [Pool.stepCall_ended _ hEnded]
        exact ⟨.idle rfl rfl, hInv.disabled⟩
      cases hThread : p.calls[i]? with
      | none =>
          apply hIdle
          intro thread hSome
          rw [hThread] at hSome
          cases hSome
      | some thread =>
          have hMem := List.mem_of_getElem? hThread
          have hKeeps := hInv.callsKeep thread hMem
          have hRequests := hInv.callsRequest thread hMem
          cases hCode : thread.code with
          | done result =>
              apply hIdle
              intro thread' hSome
              rw [hThread] at hSome
              cases hSome
              exact ⟨result, hCode⟩
          | step effects next rest =>
              rw [Pool.stepCall_running _ hThread hCode]
              rw [hCode] at hKeeps hRequests
              cases hKeeps with
              | step hKept _ =>
                  cases hRequests with
                  | step hRequest _ =>
                      exact
                        ⟨.request hMem
                            (hRequest p.shared hInv.disabled)
                            rfl,
                          hKept p.shared hInv.disabled
                            hInv.disabled⟩
  | stepEvent =>
      simp only [Pool.exec, Pool.stepEvent]
      cases hThread : p.events with
      | none => exact ⟨.idle rfl rfl, hInv.disabled⟩
      | some thread =>
          have hKeeps := hInv.eventKeeps thread hThread
          have hServes := hInv.eventServes thread hThread
          cases hCode : thread.code with
          | done result =>
              simp only [Pool.advance, hCode]
              exact ⟨.idle rfl rfl, hInv.disabled⟩
          | step effects next rest =>
              simp only [Pool.advance, hCode]
              rw [hCode] at hKeeps hServes
              cases hKeeps with
              | step hKept _ =>
                  cases hServes with
                  | step hServe _ =>
                      exact
                        ⟨.serve (hServe p.shared trivial) rfl,
                          hKept p.shared hInv.disabled
                            hInv.disabled⟩

/- A step that completes promises for some reason. -/
theorem TimedOnly.completes
    {p q : ServerPool}
    {effects : List ServerEffect}
    {reason : Reason Hdl}
    (hTimed : TimedOnly p)
    (hLater : ∀ promise, Timed p promise → Timed q promise)
    (hCompletes :
      Completes requestView reason p.shared effects q.shared)
    (hHistory :
      q.history =
        p.history ++ [⟨p.shared, effects, q.shared⟩]) :
    TimedOnly q where
  waiting := by
    intro key promise hPending hDeadline
    rcases hCompletes.table with ⟨done, hSettles, _⟩
    apply hLater
    apply
      hTimed.waiting key promise
        (hSettles.shrinks key promise hPending)
    rcases Option.ne_none_iff_exists'.mp hDeadline with
      ⟨deadline, hSome⟩
    rw [hSettles.deadlines key deadline hSome]
    exact Option.some_ne_none deadline
  expired := by
    intro promise message hMem
    rw [hHistory] at hMem
    have hSplit :
        completed requestView
            (p.history ++ [⟨p.shared, effects, q.shared⟩]) =
          completed requestView p.history ++
            requestView.completions effects :=
      Books.completed_note p.shared q.shared effects p.history
    rw [hSplit] at hMem
    apply hLater
    rcases List.mem_append.mp hMem with hOld | hNew
    · exact hTimed.expired promise message hOld
    · rcases Obeys.Completes.settled hCompletes hNew with
        ⟨key, hPending, hWhy⟩
      cases reason with
      | expiry now =>
          rcases hWhy with ⟨_, deadline, hDeadline, _⟩
          apply hTimed.waiting key promise hPending
          rw [hDeadline]
          exact Option.some_ne_none deadline
      | response => cases hWhy.2
      | failure => cases hWhy.2
      | ending => cases hWhy

/- A step that completes nothing. -/
theorem TimedOnly.expired_quiet
    {p q : ServerPool}
    {effects : List ServerEffect}
    (hTimed : TimedOnly p)
    (hLater : ∀ promise, Timed p promise → Timed q promise)
    (hNone : requestView.completions effects = [])
    (hHistory :
      q.history =
        p.history ++ [⟨p.shared, effects, q.shared⟩])
    (promise : PromiseId)
    (message : String)
    (hMem :
      ⟨promise, .error (.timeoutError message)⟩ ∈
        completed requestView q.history) :
    Timed q promise := by
  have hSplit :
      completed requestView
          (p.history ++ [⟨p.shared, effects, q.shared⟩]) =
        completed requestView p.history ++
          requestView.completions effects :=
    Books.completed_note p.shared q.shared effects p.history
  rw [hHistory, hSplit, hNone, List.append_nil] at hMem
  exact hLater promise (hTimed.expired promise message hMem)

/- The promise of a request is registered. -/
theorem TimedOnly.adds
    {p q : ServerPool}
    {effects : List ServerEffect}
    {r : RequestLifecycle.Registration Hdl}
    (hTimed : TimedOnly p)
    (hLater : ∀ promise, Timed p promise → Timed q promise)
    (hAdds : Adds requestView r p.shared effects q.shared)
    (hOwn : r.deadline ≠ none → Timed p r.promise)
    (hClean :
      (requestView.table p.shared).pending r.key ≠
          some r.promise →
        (requestView.table p.shared).deadline r.key = none)
    (hHistory :
      q.history =
        p.history ++ [⟨p.shared, effects, q.shared⟩]) :
    TimedOnly q where
  waiting := by
    intro key promise hPending hDeadline
    apply hLater
    by_cases hKey : key = r.key
    · subst hKey
      rw [hAdds.table.pending] at hPending
      injection hPending with hPromise
      subst hPromise
      rw [hAdds.table.deadline] at hDeadline
      cases hSet : r.deadline with
      | some deadline =>
          apply hOwn
          rw [hSet]
          exact Option.some_ne_none deadline
      | none =>
          rw [hSet] at hDeadline
          dsimp only at hDeadline
          by_cases hBefore :
              (requestView.table p.shared).pending r.key =
                some r.promise
          · exact
              hTimed.waiting r.key r.promise hBefore hDeadline
          · exact absurd (hClean hBefore) hDeadline
    · rw [hAdds.table.otherPending key hKey] at hPending
      rw [hAdds.table.otherDeadline key hKey] at hDeadline
      exact hTimed.waiting key promise hPending hDeadline
  expired :=
    hTimed.expired_quiet hLater hAdds.completions hHistory

/- The table is not concerned. -/
theorem TimedOnly.keeps
    {p q : ServerPool}
    {effects : List ServerEffect}
    (hTimed : TimedOnly p)
    (hLater : ∀ promise, Timed p promise → Timed q promise)
    (hTable :
      requestView.table q.shared = requestView.table p.shared)
    (hNone : requestView.completions effects = [])
    (hHistory :
      q.history =
        p.history ++ [⟨p.shared, effects, q.shared⟩]) :
    TimedOnly q where
  waiting := by
    intro key promise hPending hDeadline
    rw [hTable] at hPending hDeadline
    exact hLater promise (hTimed.waiting key promise hPending hDeadline)
  expired := hTimed.expired_quiet hLater hNone hHistory

theorem TimedOnly.step
    {p q : ServerPool}
    {l : Label ServerCall IoEvent}
    (hTimed : TimedOnly p)
    (hStep : PoolStep S p l q)
    (hKind : StepKind p q)
    (hClean : NoLeftover q.history) :
    TimedOnly q := by
  have hLater (promise : PromiseId)
      (hBefore : Timed p promise) :
      Timed q promise :=
    hBefore.later hStep
  cases hKind with
  | idle hShared hHistory =>
      constructor
      · intro key promise hPending hDeadline
        rw [hShared] at hPending hDeadline
        exact
          hLater promise
            (hTimed.waiting key promise hPending hDeadline)
      · intro promise message hMem
        rw [hHistory] at hMem
        exact
          hLater promise (hTimed.expired promise message hMem)
  | request hThread hRequest hHistory =>
      cases hRequest with
      | keeps hTable hNone =>
          exact hTimed.keeps hLater hTable hNone hHistory
      | adds hAdds hOwn =>
          refine
            hTimed.adds hLater hAdds
              (fun hDeadline => ⟨_, hThread, hOwn hDeadline⟩)
              ?_ hHistory
          have hLast :
              ∃ m ∈ q.history,
                m.before = p.shared ∧ m.after = q.shared := by
            rw [hHistory]
            exact
              ⟨_, List.mem_append_right _ List.mem_cons_self,
                rfl, rfl⟩
          rcases hLast with ⟨m, hMem, hBefore, hAfter⟩
          have hHere := hClean m hMem
          rw [hBefore, hAfter] at hHere
          exact hHere _ _ hAdds.table.pending
      | completes _ hCompletes =>
          exact hTimed.completes hLater hCompletes hHistory
  | serve hServes hHistory =>
      cases hServes with
      | keeps hKeeps =>
          exact
            hTimed.keeps hLater hKeeps.table
              hKeeps.completions hHistory
      | completes _ hCompletes =>
          exact hTimed.completes hLater hCompletes hHistory

------------------------------------------------------------
-- All Runs
------------------------------------------------------------

theorem inv_start
    (S : Sodium)
    (serverSignKey : KeyPair)
    (config : Config)
    {hasOwner : Bool} :
    Inv S config (pool (.new serverSignKey config hasOwner)) where
  disabled := ⟨rfl, rfl⟩
  callsKeep := by simp [pool]
  callsRequest := by simp [pool]
  eventKeeps := by simp [pool]
  eventServes := by simp [pool]
  eventCloses := by simp [pool]
  timed := by
    intro _
    constructor
    · intro key promise hPending
      rw [(pool_fresh serverSignKey config).pending] at hPending
      cases hPending
    · intro promise message hMem
      cases hMem

theorem Inv.step
    (hOff : config.timeouts.enabled = false)
    {p q : ServerPool}
    {l : Label ServerCall IoEvent}
    (hInv : Inv S config p)
    (hStep : PoolStep S p l q) :
    Inv S config q := by
  rcases hInv.kind hStep with ⟨hKind, hDisabled⟩
  refine
    { disabled := hDisabled
      callsKeep := ?_
      callsRequest := ?_
      eventKeeps := ?_
      eventServes := ?_
      eventCloses := ?_
      timed := ?_ }
  · refine
      Pool.forall_calls_step
        (fun k _ => callCode_keeps S k) ?_ hInv.callsKeep hStep
    intro thread effects next rest hCode hThread
    rw [hCode] at hThread
    cases hThread with
    | step _ hRest => exact hRest p.shared hInv.disabled
  · refine
      Pool.forall_calls_step
        (fun k _ => callCode_requesting S hOff k) ?_
        hInv.callsRequest hStep
    intro thread effects next rest hCode hThread
    rw [hCode] at hThread
    cases hThread with
    | step _ hRest => exact hRest p.shared hInv.disabled
  · refine
      Pool.forall_event_step
        (fun event _ => handle_keeps S hOff event.val) ?_
        hInv.eventKeeps hStep
    intro thread effects next rest hCode hThread
    rw [hCode] at hThread
    cases hThread with
    | step _ hRest => exact hRest p.shared hInv.disabled
  · refine
      Pool.forall_event_step
        (fun event _ => event_serves S event) ?_
        hInv.eventServes hStep
    intro thread effects next rest hCode hThread
    rw [hCode] at hThread
    cases hThread with
    | step _ hRest => exact hRest p.shared trivial
  · have hCloses :
        ∀ thread, q.events = some thread →
          ∀ input, thread.call.val = .timeouts input →
            Returns config (ClosesIdle config input)
              thread.trace thread.code := by
      refine Pool.forall_event_step ?_ ?_ ?_ hStep
      · intro event _ input hTimer
        dsimp only at hTimer ⊢
        simp only [poolProgram, hTimer]
        exact checkTimeouts_closes input
      · intro thread effects next rest hCode hThread input
          hTimer
        have hBefore := hThread input hTimer
        rw [hCode] at hBefore
        cases hBefore with
        | step _ hRest => exact hRest p.shared hInv.disabled
      · intro thread hThread input hTimer
        exact hInv.eventCloses thread input hThread hTimer
    intro thread input hThread hTimer
    exact hCloses thread hThread input hTimer
  · intro hClean
    refine (hInv.timed ?_).step hStep hKind hClean
    intro m hMem
    apply hClean m
    cases hKind with
    | idle _ hHistory =>
        rw [hHistory]
        exact hMem
    | request _ _ hHistory =>
        rw [hHistory]
        exact List.mem_append_left _ hMem
    | serve _ hHistory =>
        rw [hHistory]
        exact List.mem_append_left _ hMem

/-
  In every run with timeouts disabled: a check that has
  returned has closed no connection exactly when none was
  idle as it began; and unless a deadline was left over under
  a new id, only requests with a timeout of their own have
  timed out.
-/
theorem disabled_timeouts
    (hOff : config.timeouts.enabled = false)
    {serverSignKey : KeyPair}
    {hasOwner : Bool}
    {labels : List (Label ServerCall IoEvent)}
    {p : ServerPool}
    (hRun :
      StateMachine.Run (PoolStep S)
        (pool (.new serverSignKey config hasOwner)) labels p) :
    (∀ thread input,
        p.events = some thread →
          thread.call.val = .timeouts input →
            thread.code = .done (.ok ()) →
              (NoneClosed thread.trace ↔
                NoneIdle config input thread.trace)) ∧
      (NoLeftover p.history →
        ∀ promise message,
          ⟨promise, .error (.timeoutError message)⟩ ∈
              completed requestView p.history →
            Timed p promise) := by
  have hInv : Inv S config p :=
    hRun.invariant
      (fun _ _ _ hBefore hStep => Inv.step hOff hBefore hStep)
      (inv_start S serverSignKey config)
  constructor
  · intro thread input hThread hTimer hCode
    have hReturned :=
      hInv.eventCloses thread input hThread hTimer
    rw [hCode] at hReturned
    cases hReturned with
    | returned _ hCloses => exact hCloses.2
  · intro hClean
    exact (hInv.timed hClean).expired

------------------------------------------------------------
-- An Idle Connection
------------------------------------------------------------

open PlainSodium

/- The defaults, but for `timeouts.enabled`. -/
def untimed : Config :=
  { Config.withDefaults with timeouts := { enabled := false } }

/- An input whose clock stands still at a millisecond. -/
def atMs (ms : Nat) : IoInput :=
  { IoInput.smooth (sampleKx 1) with
    clock := fun _ => ms * 1000000 }

/- A handshake after one millisecond, and a later check. -/
def checkedRun (ms : Nat) : List (Label ServerCall IoEvent) :=
  [ .event
      ⟨.message (atMs 1) 1
        { payload := (sampleHello 5 1).serialize }, rfl⟩ ] ++
    List.replicate 20 .stepEvent ++
    [.event ⟨.timeouts (atMs ms), rfl⟩] ++
    List.replicate 5 .stepEvent

def checked (ms : Nat) : ServerPool :=
  (checkedRun ms).foldl (Pool.exec (poolProgram plainSodium))
    (pool (.new (sampleKeyPair 6) untimed true))

/- What the thread of the event has closed. -/
def eventClosed (p : ServerPool) : List Hdl :=
  match p.events with
  | none => []
  | some thread =>
      (thread.trace.flatMap Transition.effects).filterMap (fun
        | .close hdl _ _ => some hdl
        | _ => none)

theorem not_noneClosed
    {p : ServerPool}
    {thread :
      Thread Exception ServerEffect WsServer IoEvent}
    (hThread : p.events = some thread)
    {hdl : Hdl}
    (hClosed : hdl ∈ eventClosed p) :
    ¬ NoneClosed thread.trace := by
  unfold eventClosed at hClosed
  rw [hThread] at hClosed
  rcases List.mem_filterMap.mp hClosed with
    ⟨effect, hMem, hIs⟩
  rcases List.mem_flatMap.mp hMem with ⟨m, hStep, hEffect⟩
  intro hNone
  cases effect with
  | close hdl' status reason =>
      exact hNone m hStep hdl' status reason hEffect
  | transmit | complete | invoke => cases hIs

/- A request with a timeout, which a later check finds late. -/
def timedRun : List (Label ServerCall IoEvent) :=
  [ .event
      ⟨.message (atMs 1) 1
        { payload := (sampleHello 5 1).serialize }, rfl⟩ ] ++
    List.replicate 20 .stepEvent ++
    [ .call
        (.method
          (.asyncRequest
            { promise := 5
              clock := 2000000
              nonce := .zero } 1 ⟨0x1001, []⟩ 100)) ] ++
    List.replicate 8 (.stepCall 0) ++
    [.event ⟨.timeouts (atMs 200), rfl⟩] ++
    List.replicate 8 .stepEvent

def timed : ServerPool :=
  timedRun.foldl (Pool.exec (poolProgram plainSodium))
    (pool (.new (sampleKeyPair 6) untimed true))

/- The promises of the requests that have timed out. -/
def timedOut (history : Trace) : List PromiseId :=
  (completed requestView history).filterMap (fun c =>
    match c.result with
    | .error (.timeoutError _) => some c.promise
    | _ => none)

theorem exists_message
    {history : Trace}
    {promise : PromiseId}
    (hMem : promise ∈ timedOut history) :
    ∃ message,
      ⟨promise, .error (.timeoutError message)⟩ ∈
        completed requestView history := by
  rcases List.mem_filterMap.mp hMem with ⟨c, hCompleted, hIs⟩
  rcases c with ⟨promise', result⟩
  dsimp only at hIs
  split at hIs
  · injection hIs with hSame
    subst hSame
    exact ⟨_, hCompleted⟩
  · cases hIs

/-
  Nobody is idle a millisecond after the handshake, and the
  promise that times out is that of the request with one.
-/
set_option maxRecDepth 8000 in
theorem disabled_timeouts_request :
    (∃ thread,
        (checked 2).events = some thread ∧
          (NoneClosed thread.trace ↔
            NoneIdle untimed (atMs 2) thread.trace)) ∧
      ∃ message,
        ⟨5, .error (.timeoutError message)⟩ ∈
            completed requestView timed.history ∧
          Timed timed 5 := by
  constructor
  · rcases returned_of (p := checked 2) (by decide) with
      ⟨thread, hThread, hCode⟩
    have hTimer : thread.call.val = .timeouts (atMs 2) := by
      have hCall :
          (checked 2).events.map (fun t => t.call.val) =
            some (.timeouts (atMs 2)) := rfl
      rw [hThread] at hCall
      injection hCall
    have hRun :=
      StateMachine.run_of_allowed
        (fun (p : ServerPool) l => p.allowed l = true)
        (Pool.exec (poolProgram plainSodium))
        (pool (.new (sampleKeyPair 6) untimed true))
        (checkedRun 2) (by decide)
    exact
      ⟨thread, hThread,
        (disabled_timeouts rfl hRun).1 thread (atMs 2) hThread
          hTimer hCode⟩
  · have hRun :=
      StateMachine.run_of_allowed
        (fun (p : ServerPool) l => p.allowed l = true)
        (Pool.exec (poolProgram plainSodium))
        (pool (.new (sampleKeyPair 6) untimed true)) timedRun
        (by decide)
    have hClean : NoLeftover timed.history :=
      noLeftover_of (by decide)
    have hOut : 5 ∈ timedOut timed.history := by
      decide
    rcases exists_message hOut with ⟨message, hCompleted⟩
    exact
      ⟨message, hCompleted,
        (disabled_timeouts rfl hRun).2 hClean 5 message
          hCompleted⟩

/- After 400 seconds the connection is closed as idle. -/
set_option maxRecDepth 8000 in
theorem idle_closed :
    ∃ (labels : List (Label ServerCall IoEvent))
      (p : ServerPool)
      (thread :
        Thread Exception ServerEffect WsServer IoEvent),
      untimed.timeouts.enabled = false ∧
        StateMachine.Run (PoolStep plainSodium)
            (pool (.new (sampleKeyPair 6) untimed true)) labels p ∧
          p.events = some thread ∧
            thread.call.val = .timeouts (atMs 400000) ∧
              ¬ NoneClosed thread.trace := by
  rcases returned_of (p := checked 400000) (by decide) with
    ⟨thread, hThread, _⟩
  have hTimer : thread.call.val = .timeouts (atMs 400000) := by
    have hCall :
        (checked 400000).events.map (fun t => t.call.val) =
          some (.timeouts (atMs 400000)) := rfl
    rw [hThread] at hCall
    injection hCall
  have hClosed : 1 ∈ eventClosed (checked 400000) := by
    decide
  refine
    ⟨checkedRun 400000, checked 400000, thread, rfl, ?_,
      hThread, hTimer, not_noneClosed hThread hClosed⟩
  exact
    StateMachine.run_of_allowed
      (fun (p : ServerPool) l => p.allowed l = true)
      (Pool.exec (poolProgram plainSodium))
      (pool (.new (sampleKeyPair 6) untimed true))
      (checkedRun 400000) (by decide)

end DisabledTimeouts

end ObscuraProto
