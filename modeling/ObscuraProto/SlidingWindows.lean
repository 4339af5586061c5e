import ObscuraProto.WsServer.RateWindows

/-
  The sliding windows of a limiter that is called freely.

  After any calls under a clock that does not run backwards
  the stamps of a window agree with the records of its
  address on all that may still be counted, so a check counts
  the records of the last minute, whatever cleanups and calls
  for other addresses came in between.

  Key definitions include:
    * `SlidingWindows.Call`, `SlidingWindows.run`
    * `SlidingWindows.recordsOf`
    * `SlidingWindows.InOrder`

  Key theorems include:
    * `SlidingWindows.tracks_run`
    * `SlidingWindows.sliding_windows`
-/

namespace ObscuraProto

namespace SlidingWindows

open RateWindow

------------------------------------------------------------
-- Calls of the Limiter
------------------------------------------------------------

/- `check_active_connections` is the one that only reads. -/
inductive Call where
| write (op : LimiterOp)
| checkActiveConnections (ip : String)
deriving DecidableEq

def Call.apply (rl : RateLimiter) : Call → RateLimiter
| .write op => op.apply rl
| .checkActiveConnections _ => rl

def run
    (config : RateLimitConfig)
    (calls : List Call) : RateLimiter :=
  calls.foldl Call.apply (.new config)

/- The reading of the clock, of calls that use milliseconds. -/
def Call.readingMs : Call → Option Int
| .write (.checkConnectionRate _ nowMs) => some nowMs
| .write (.recordConnection _ nowMs) => some nowMs
| .write (.checkHandshakeRate _ nowMs) => some nowMs
| .write (.recordHandshake _ nowMs) => some nowMs
| .write (.cleanup nowMs) => some nowMs
| _ => none

/- The readings of the calls, and one more, do not fall. -/
def InOrder (calls : List Call) (nowMs : Int) : Prop :=
  (calls.filterMap Call.readingMs ++ [nowMs]).Pairwise
    (· ≤ ·)

instance (calls : List Call) (nowMs : Int) :
    Decidable (InOrder calls nowMs) := by
  unfold InOrder
  infer_instance

def Call.stampOf
    (kind : WindowKind)
    (ip : String) : Call → List Int
| .write op => op.stampOf kind ip
| .checkActiveConnections _ => []

/- When the address was recorded, oldest time first. -/
def recordsOf
    (kind : WindowKind)
    (ip : String)
    (calls : List Call) : List Int :=
  calls.flatMap (Call.stampOf kind ip)

------------------------------------------------------------
-- One More Call
------------------------------------------------------------

theorem run_snoc
    (config : RateLimitConfig)
    (calls : List Call)
    (call : Call) :
    run config (calls ++ [call]) =
      call.apply (run config calls) := by
  rw [run, List.foldl_append]
  rfl

theorem recordsOf_snoc
    (kind : WindowKind)
    (ip : String)
    (calls : List Call)
    (call : Call) :
    recordsOf kind ip (calls ++ [call]) =
      recordsOf kind ip calls ++ call.stampOf kind ip := by
  rw [recordsOf, List.flatMap_append, List.flatMap_singleton]
  rfl

/- A call without a reading leaves the others in order. -/
theorem InOrder.untimed
    {calls : List Call}
    {call : Call}
    {nowMs : Int}
    (hOrder : InOrder (calls ++ [call]) nowMs)
    (hReading : call.readingMs = none) :
    InOrder calls nowMs := by
  unfold InOrder at hOrder ⊢
  rw [List.filterMap_append, List.filterMap_cons_none hReading,
    List.filterMap_nil, List.append_nil] at hOrder
  exact hOrder

/- One with a reading comes after those before it. -/
theorem InOrder.timed
    {calls : List Call}
    {call : Call}
    {nowMs t : Int}
    (hOrder : InOrder (calls ++ [call]) nowMs)
    (hReading : call.readingMs = some t) :
    InOrder calls t ∧ t ≤ nowMs := by
  unfold InOrder at hOrder ⊢
  rw [List.filterMap_append, List.filterMap_cons_some hReading,
    List.filterMap_nil, List.pairwise_append] at hOrder
  refine ⟨hOrder.1, ?_⟩
  apply hOrder.2.2 t _ nowMs (List.mem_singleton_self nowMs)
  exact List.mem_append_right _ (List.mem_singleton_self t)

/- Only a record adds a stamp, and it is its reading. -/
theorem stampOf_eq
    (kind : WindowKind)
    (ip : String)
    (op : LimiterOp) :
    op.stampOf kind ip = [] ∨
      ∃ t,
        (Call.write op).readingMs = some t ∧
          op.stampOf kind ip = [t] := by
  unfold LimiterOp.stampOf
  split
  · next ip' t =>
      split
      · exact .inr ⟨t, rfl, rfl⟩
      · exact .inl rfl
  · next ip' t =>
      split
      · exact .inr ⟨t, rfl, rfl⟩
      · exact .inl rfl
  · exact .inl rfl

theorem config_run
    (config : RateLimitConfig)
    (calls : List Call) :
    (run config calls).config = config := by
  induction calls using List.reverseRecOn with
  | nil => rfl
  | append_singleton calls call ih =>
      rw [run_snoc]
      cases call with
      | write op =>
          rw [Call.apply, RateLimiter.config_apply, ih]
      | checkActiveConnections ip => exact ih

------------------------------------------------------------
-- Any Sequence of Calls
------------------------------------------------------------

section Windows

variable {config : RateLimitConfig}
variable (hEnabled : config.enabled = true)
variable (kind : WindowKind) (ip : String)

include hEnabled in
/- The stamps of the window track the records. -/
theorem tracks_run
    {calls : List Call}
    {nowMs : Int}
    (hOrder : InOrder calls nowMs) :
    Tracks 60000 nowMs (recordsOf kind ip calls)
      ((run config calls).stamps kind ip) := by
  induction calls using List.reverseRecOn
    generalizing nowMs with
  | nil =>
      have hNone :
          (run config []).stamps kind ip = [] := by
        cases kind <;> rfl
      rw [hNone]
      exact tracks_nil 60000 nowMs
  | append_singleton calls call ih =>
      rw [run_snoc, recordsOf_snoc]
      cases call with
      | checkActiveConnections other =>
          rw [Call.stampOf, List.append_nil]
          exact ih (hOrder.untimed rfl)
      | write op =>
          have hEnabledNow :
              (run config calls).config.enabled = true := by
            rw [config_run]
            exact hEnabled
          rw [Call.apply, Call.stampOf,
            RateLimiter.stamps_apply hEnabledNow]
          rcases stampOf_eq kind ip op with
            hNone | ⟨t, hReading, hStamp⟩
          · rw [hNone, List.append_nil]
            cases hReading :
                (Call.write op).readingMs with
            | none =>
                have hTracks := ih (hOrder.untimed hReading)
                cases op with
                | cleanup t => cases hReading
                | _ =>
                    simp only [List.append_nil]
                    exact hTracks
            | some t =>
                rcases hOrder.timed hReading with
                  ⟨hBefore, hLater⟩
                have hTracks := ih hBefore
                cases op with
                | cleanup t' =>
                    cases hReading
                    exact hTracks.clean.mono hLater
                | _ =>
                    simp only [List.append_nil]
                    exact hTracks.mono hLater
          · rcases hOrder.timed hReading with
              ⟨hBefore, hLater⟩
            have hTracks := (ih hBefore).record.mono hLater
            rw [hStamp]
            cases op with
            | cleanup t' => cases kind <;> cases hStamp
            | _ => exact hTracks

include hEnabled in
/- A check lets pass while the records are fewer. -/
theorem check_run_iff
    {calls : List Call}
    {nowMs : Int}
    (hOrder : InOrder calls nowMs)
    (hLimit : RateLimiter.limitOf kind config ≠ 0) :
    ((run config calls).check kind ip nowMs).1 = true ↔
      (recordsOf kind ip calls).countP (nowMs - 60000 ≤ ·) <
        (RateLimiter.limitOf kind config).toNat := by
  have hRecent :=
    (tracks_run hEnabled kind ip hOrder).length_recent
  have hConfig := config_run config calls
  rw [← hRecent]
  cases kind with
  | connections =>
      have hRate : config.connectionsPerMinute ≠ 0 := hLimit
      simp only [RateLimiter.check,
        RateLimiter.checkConnectionRate, hConfig, hEnabled,
        hRate, Bool.not_true, Bool.false_or, decide_false,
        Bool.false_eq_true, if_false, decide_eq_true_eq]
      rfl
  | handshakes =>
      have hRate : config.handshakeAttemptsPerMinute ≠ 0 :=
        hLimit
      simp only [RateLimiter.check,
        RateLimiter.checkHandshakeRate, hConfig, hEnabled,
        hRate, Bool.not_true, Bool.false_or, decide_false,
        Bool.false_eq_true, if_false, decide_eq_true_eq]
      rfl

end Windows

/- Without a limit everything is let pass. -/
theorem check_unlimited
    {config : RateLimitConfig}
    {kind : WindowKind}
    (hLimit : RateLimiter.limitOf kind config = 0)
    (ip : String)
    (calls : List Call)
    (nowMs : Int) :
    ((run config calls).check kind ip nowMs).1 = true := by
  have hConfig := config_run config calls
  cases kind with
  | connections =>
      have hRate : config.connectionsPerMinute = 0 := hLimit
      simp [RateLimiter.check,
        RateLimiter.checkConnectionRate, hConfig, hRate]
  | handshakes =>
      have hRate : config.handshakeAttemptsPerMinute = 0 :=
        hLimit
      simp [RateLimiter.check,
        RateLimiter.checkHandshakeRate, hConfig, hRate]

/-
  A check with a limit counts the records of its address in
  the last minute.  Other calls have no part in it: where the
  records of the address are the same the result is, whether
  or not there are cleanups, checks, registrations or calls
  for other addresses.
-/
theorem sliding_windows
    {config : RateLimitConfig}
    (hEnabled : config.enabled = true)
    (kind : WindowKind)
    (ip : String)
    {calls : List Call}
    {nowMs : Int}
    (hOrder : InOrder calls nowMs) :
    (RateLimiter.limitOf kind config ≠ 0 →
        (((run config calls).check kind ip nowMs).1 = true ↔
          (recordsOf kind ip calls).countP
              (nowMs - 60000 ≤ ·) <
            (RateLimiter.limitOf kind config).toNat)) ∧
      ∀ others,
        InOrder others nowMs →
          recordsOf kind ip others =
              recordsOf kind ip calls →
            ((run config others).check kind ip nowMs).1 =
              ((run config calls).check kind ip nowMs).1 := by
  refine ⟨check_run_iff hEnabled kind ip hOrder, ?_⟩
  intro others hOthers hRecords
  by_cases hLimit : RateLimiter.limitOf kind config = 0
  · rw [check_unlimited hLimit, check_unlimited hLimit]
  · rw [Bool.eq_iff_iff,
      check_run_iff hEnabled kind ip hOthers hLimit,
      check_run_iff hEnabled kind ip hOrder hLimit, hRecords]

/- The record at the edge of the minute is counted. -/
theorem sliding_windows_edge :
    let config : RateLimitConfig :=
      { connectionsPerMinute := 1 }
    let calls : List Call :=
      [.write (.recordConnection "a" 0),
        .write (.registerConnection "b"),
        .write (.cleanup 50000)]
    ((run config calls).check .connections "a" 60000).1 =
        false ∧
      ((run config calls).check .connections "a" 60001).1 =
          true ∧
        ((run config
              [.write (.recordConnection "a" 0)]).check
            .connections "a" 60000).1 = false := by
  intro config calls
  have hEdge :=
    sliding_windows (show config.enabled = true from rfl)
      .connections "a"
      (show InOrder calls 60000 by decide)
  have hLater :=
    sliding_windows (show config.enabled = true from rfl)
      .connections "a"
      (show InOrder calls 60001 by decide)
  have hFalse :
      ((run config calls).check .connections "a" 60000).1 =
        false := by
    rw [Bool.eq_false_iff, ne_eq, hEdge.1 (by decide)]
    decide
  refine ⟨hFalse, ?_, ?_⟩
  · rw [hLater.1 (by decide)]
    decide
  · rw [hEdge.2 _ (by decide) (by decide)]
    exact hFalse

end SlidingWindows

end ObscuraProto
