import ObscuraProto.WsServer.Streams

/-
  How `on_open` treats a new connection.

  The connection is refused by its rate or by the limit on
  all connections; otherwise it is announced to the
  application.  Whatever comes of it, the rate limiter has
  been asked, and has recorded a connection that passes.

  Key definitions include:
    * `WsServer.passesRate`, `WsServer.isFull`
    * `WsServer.refuses`
    * `WsServer.rateChecked`

  Key theorems include:
    * `WsServer.onOpen_effects`
    * `WsServer.onOpen_rateLimiter`
-/

namespace ObscuraProto

namespace WsServer

open Effectful

------------------------------------------------------------
-- The Two Checks
------------------------------------------------------------

/- The connection rate of the address allows one more. -/
def passesRate (input : IoInput) (w : WsServer) : Bool :=
  !w.config.rateLimit.enabled ||
    (w.rateLimiter.checkConnectionRate input.remoteIp
      (nowMs (input.clock 0))).1

def isFull (w : WsServer) : Bool :=
  let limits := w.config.connectionLimits
  limits.enabled && decide (limits.maxTotal > 0) &&
    decide (limits.maxTotal ≤ w.rateLimiter.activeTotal)

/- The connection is closed before it is announced. -/
def refuses (input : IoInput) (w : WsServer) : Bool :=
  !passesRate input w || isFull w

/- The limiter after the check of the connection rate. -/
def rateChecked
    (input : IoInput)
    (w : WsServer) : RateLimiter :=
  if w.config.rateLimit.enabled then
    (w.rateLimiter.checkConnectionRate input.remoteIp
      (nowMs (input.clock 0))).2
  else
    w.rateLimiter

def rateRecorded
    (input : IoInput)
    (w : WsServer) : RateLimiter :=
  if w.config.rateLimit.enabled then
    (rateChecked input w).recordConnection input.remoteIp
      (nowMs (input.clock 1))
  else
    rateChecked input w

/- The rest of `on_open` for a connection that passes. -/
def admitted
    (input : IoInput)
    (hdl : Hdl) : ServerAction Unit := do
  let w ← Action.get
  let limits := w.config.connectionLimits
  if limits.enabled && decide (limits.maxTotal > 0) &&
      decide
        (limits.maxTotal ≤ w.rateLimiter.activeTotal) then
    closeHdl input hdl .policyViolation
      "Max connections reached"
  else
    recordOpenTime hdl (nowMs (input.clock 2))
    let w ← Action.get
    invokeHandler w.onOpenCallback
      (fun handler => .onOpen handler hdl)
      input.callbackAnswer

theorem limiterCheck_run_eq
    (check : RateLimiter → Bool × RateLimiter)
    (w : WsServer) :
    (limiterCheck check).run w =
      { result :=
          .ok (!w.config.rateLimit.enabled ||
            (check w.rateLimiter).1)
        effects := []
        state :=
          { w with
            rateLimiter :=
              if w.config.rateLimit.enabled then
                (check w.rateLimiter).2
              else
                w.rateLimiter } } := by
  unfold limiterCheck
  rw [Action.run_get_bind]
  cases w.config.rateLimit.enabled <;> rfl

theorem limiterRecord_run_eq
    (record : RateLimiter → RateLimiter)
    (w : WsServer) :
    (limiterRecord record).run w =
      { result := .ok ()
        effects := []
        state :=
          { w with
            rateLimiter :=
              if w.config.rateLimit.enabled then
                record w.rateLimiter
              else
                w.rateLimiter } } := by
  unfold limiterRecord
  rw [Action.run_get_bind]
  cases w.config.rateLimit.enabled <;> rfl

/- The rate decides first, and passing it is recorded. -/
theorem onOpen_run
    (input : IoInput)
    (hdl : Hdl)
    (w : WsServer) :
    (onOpen input hdl).run w =
      if passesRate input w then
        (admitted input hdl).run
          { w with rateLimiter := rateRecorded input w }
      else
        (closeHdl input hdl .policyViolation
            "Connection rate limit exceeded").run
          { w with rateLimiter := rateChecked input w } := by
  unfold onOpen
  rw [Action.run_bind_ok (limiterCheck_run_eq _ w)]
  unfold passesRate
  cases hEnabled : w.config.rateLimit.enabled with
  | false =>
      simp only [Bool.not_false, Bool.true_or, Bool.not_true,
        Bool.false_eq_true, if_false, if_true,
        List.nil_append]
      rw [Action.run_bind_ok (limiterRecord_run_eq _ w)]
      simp only [rateRecorded, rateChecked, hEnabled,
        Bool.false_eq_true, if_false, List.nil_append]
      rfl
  | true =>
      simp only [Bool.not_true, Bool.false_or, if_true,
        List.nil_append]
      cases hCheck :
          (w.rateLimiter.checkConnectionRate input.remoteIp
            (nowMs (input.clock 0))).1 with
      | false =>
          simp only [Bool.not_false, if_true, rateChecked,
            hEnabled, Bool.false_eq_true, if_false]
      | true =>
          simp only [Bool.not_true, Bool.false_eq_true,
            if_false, if_true]
          rw [Action.run_bind_ok (limiterRecord_run_eq _ _)]
          simp only [rateRecorded, rateChecked, hEnabled,
            if_true, List.nil_append]
          rfl

------------------------------------------------------------
-- After the Rate
------------------------------------------------------------

theorem rateChecked_counts
    (input : IoInput)
    (w : WsServer) :
    RateLimiter.SameCounts w.rateLimiter
      (rateChecked input w) := by
  unfold rateChecked
  split
  · exact RateLimiter.checkConnectionRate_counts _ _ _
  · exact .refl _

theorem rateRecorded_counts
    (input : IoInput)
    (w : WsServer) :
    RateLimiter.SameCounts w.rateLimiter
      (rateRecorded input w) := by
  unfold rateRecorded
  split
  · exact
      (rateChecked_counts input w).trans
        (RateLimiter.recordConnection_counts _ _ _)
  · exact rateChecked_counts input w

theorem recordOpenTime_run
    (hdl : Hdl)
    (now : Int)
    (w : WsServer) :
    ∃ opened,
      (recordOpenTime hdl now).run w =
        { result := .ok ()
          effects := []
          state := { w with handshakeOpenTime := opened } } := by
  unfold recordOpenTime
  rw [Action.run_get_bind]
  split
  · exact ⟨_, rfl⟩
  · exact ⟨w.handshakeOpenTime, rfl⟩

theorem admitted_effects
    (input : IoInput)
    (hdl : Hdl)
    (w : WsServer) :
    ((admitted input hdl).run w).effects =
      if isFull w then
        [.close hdl .policyViolation
          "Max connections reached"]
      else
        invocation w.onOpenCallback (.onOpen · hdl) := by
  unfold admitted isFull
  rw [Action.run_get_bind]
  dsimp only
  split
  · rw [closeHdl_run]
  · rcases
      recordOpenTime_run hdl (nowMs (input.clock 2)) w with
      ⟨opened, hRecord⟩
    rw [Action.run_bind_ok hRecord, Action.run_get_bind,
      invokeHandler_run_eq]
    rfl

/- Only the open time may be written after the rate. -/
theorem admitted_state
    (input : IoInput)
    (hdl : Hdl)
    (w : WsServer) :
    ∃ opened,
      ((admitted input hdl).run w).state =
        { w with handshakeOpenTime := opened } := by
  unfold admitted
  rw [Action.run_get_bind]
  dsimp only
  split
  · rw [closeHdl_run]
    exact ⟨w.handshakeOpenTime, rfl⟩
  · rcases
      recordOpenTime_run hdl (nowMs (input.clock 2)) w with
      ⟨opened, hRecord⟩
    rw [Action.run_bind_ok hRecord, Action.run_get_bind,
      invokeHandler_run_eq]
    exact ⟨opened, rfl⟩

------------------------------------------------------------
-- The Whole of on_open
------------------------------------------------------------

/- The record is not a connection that is counted. -/
theorem isFull_rateRecorded
    (input : IoInput)
    (w : WsServer) :
    isFull { w with rateLimiter := rateRecorded input w } =
      isFull w := by
  unfold isFull RateLimiter.activeTotal
  rw [(rateRecorded_counts input w).total]

/- A refused connection is closed, any other announced. -/
theorem onOpen_effects
    (input : IoInput)
    (hdl : Hdl)
    (w : WsServer) :
    (refuses input w = true ∧
        ∃ reason,
          ((onOpen input hdl).run w).effects =
            [.close hdl .policyViolation reason]) ∨
      refuses input w = false ∧
        ((onOpen input hdl).run w).effects =
          invocation w.onOpenCallback (.onOpen · hdl) := by
  rw [onOpen_run]
  unfold refuses
  cases hRate : passesRate input w with
  | false =>
      simp only [Bool.not_false, Bool.true_or,
        Bool.false_eq_true, if_false]
      rw [closeHdl_run]
      exact Or.inl ⟨trivial, _, rfl⟩
  | true =>
      simp only [Bool.not_true, Bool.false_or, if_true]
      rw [admitted_effects, isFull_rateRecorded]
      cases hLimit : isFull w with
      | true => exact Or.inl ⟨rfl, _, rfl⟩
      | false => exact Or.inr ⟨rfl, rfl⟩

/- The limiter has seen the check and, if passed, a record. -/
theorem onOpen_rateLimiter
    (input : IoInput)
    (hdl : Hdl)
    (w : WsServer) :
    ((onOpen input hdl).run w).state.rateLimiter =
      if passesRate input w then
        rateRecorded input w
      else
        rateChecked input w := by
  rw [onOpen_run]
  split
  · rcases
      admitted_state input hdl
        { w with rateLimiter := rateRecorded input w } with
      ⟨opened, hState⟩
    rw [hState]
  · rw [closeHdl_run]

end WsServer

end ObscuraProto
