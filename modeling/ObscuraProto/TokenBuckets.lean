import ObscuraProto.Library.StateMachine
import ObscuraProto.Library.Tokens
import ObscuraProto.WsServer.RateWindows

/-
  The token bucket of a connection.

  A connection's messages are checked, and a check that is
  passed may be followed by the record of the message; calls
  for other connections come in between.  The bucket, which
  is made by the first record and refilled by checks and
  records alike, holds the level that the records determine.

  Key definitions include:
    * `TokenBuckets.Meter`, `TokenBuckets.Step`
    * `TokenBuckets.Within`
    * `TokenBuckets.Metered`

  Key theorems include:
    * `TokenBuckets.Metered.step`
    * `TokenBuckets.message_bucket`
-/

namespace ObscuraProto

namespace TokenBuckets

open Tokens

------------------------------------------------------------
-- Calls for a Connection
------------------------------------------------------------

/-
  The limiter with the last reading for the connection, the
  reading of its last check if that was passed and not yet
  recorded, and its recorded messages.
-/
structure Meter where
  rateLimiter : RateLimiter
  nowUs : Int
  passed : Option Int := none
  log : List (Entry Int) := []

/- The call leaves the bucket of the connection alone. -/
def Foreign (connId : UInt64) : LimiterOp → Prop
| .checkMessageRate other _ => other ≠ connId
| .recordMessage other _ => other ≠ connId
| .unregisterConnection other _ => other ≠ connId
| _ => True

inductive Step
    (connId : UInt64) : Meter → LimiterOp → Meter → Prop
| check
    {m : Meter}
    {nowUs : Int} :
    m.nowUs ≤ nowUs →
      Step connId m (.checkMessageRate connId nowUs)
        { rateLimiter :=
            (m.rateLimiter.checkMessageRate connId nowUs).2
          nowUs := nowUs
          passed :=
            if (m.rateLimiter.checkMessageRate connId
                nowUs).1 then
              some nowUs
            else
              none
          log := m.log }
| record
    {m : Meter}
    {checked nowUs : Int} :
    m.passed = some checked →
      m.nowUs ≤ nowUs →
        Step connId m (.recordMessage connId nowUs)
          { rateLimiter :=
              m.rateLimiter.recordMessage connId nowUs
            nowUs := nowUs
            log := m.log ++ [⟨checked, nowUs⟩] }
| other
    {m : Meter}
    {op : LimiterOp} :
    Foreign connId op →
      Step connId m op
        { m with rateLimiter := op.apply m.rateLimiter }

def Meter.new
    (config : RateLimitConfig)
    (nowUs : Int) : Meter where
  rateLimiter := .new config
  nowUs := nowUs

/- No other call touches the bucket. -/
theorem bucket_apply
    {connId : UInt64}
    {op : LimiterOp}
    (hForeign : Foreign connId op)
    (rl : RateLimiter) :
    (op.apply rl).messageBuckets[connId]? =
      rl.messageBuckets[connId]? := by
  refine RateLimiter.messageBuckets_apply ?_ ?_ ?_ rl
  · rintro now rfl
    exact hForeign rfl
  · rintro now rfl
    exact hForeign rfl
  · rintro ip rfl
    exact hForeign rfl

------------------------------------------------------------
-- The Bucket as a Level
------------------------------------------------------------

def seconds (us : Int) : Rat :=
  (us : Rat) / 1000000

/- The readings of a message in seconds. -/
def inSeconds (e : Entry Int) : Entry Rat :=
  ⟨seconds e.checked, seconds e.recorded⟩

def rate (config : RateLimitConfig) : Rat :=
  (config.messagesPerSecond.toNat : Rat)

def capacity (config : RateLimitConfig) : Rat :=
  (RateLimiter.new config).capacity

def levelAt
    (config : RateLimitConfig)
    (log : List (Entry Int))
    (us : Int) : Rat :=
  level (capacity config) (rate config)
    ((log.map inSeconds).map Entry.recorded) (seconds us)

theorem seconds_mono
    {us us' : Int}
    (hOrder : us ≤ us') :
    seconds us ≤ seconds us' := by
  have hCast : (us : Rat) ≤ (us' : Rat) := by
    exact_mod_cast hOrder
  unfold seconds
  linarith

theorem rate_nonneg (config : RateLimitConfig) :
    0 ≤ rate config :=
  Nat.cast_nonneg _

theorem one_le_capacity
    {config : RateLimitConfig}
    (hRate : 0 < config.messagesPerSecond) :
    1 ≤ capacity config := by
  unfold capacity RateLimiter.capacity
  split
  · next hBurst =>
      have hPositive : 0 < config.burstSize.toNat :=
        UInt32.lt_iff_toNat_lt.mp hBurst
      exact_mod_cast hPositive
  · have hPositive : 0 < config.messagesPerSecond.toNat :=
      UInt32.lt_iff_toNat_lt.mp hRate
    exact_mod_cast hPositive

/- A refilled bucket holds the level of now. -/
theorem tokens_refill
    {rl : RateLimiter}
    {bucket : TokenBucket}
    {log : List (Entry Int)}
    {nowUs : Int}
    (hTokens :
      bucket.tokens =
        levelAt rl.config log bucket.lastRefillUs)
    (hOrder : bucket.lastRefillUs ≤ nowUs) :
    (rl.refill nowUs bucket).tokens =
      levelAt rl.config log nowUs := by
  have hElapsed :
      ((nowUs - bucket.lastRefillUs : Int) : Rat) / 1000000 =
        seconds nowUs - seconds bucket.lastRefillUs := by
    unfold seconds
    push_cast
    ring
  unfold RateLimiter.refill
  dsimp only
  rw [hElapsed, hTokens]
  exact
    level_refill (rate_nonneg rl.config)
      ((log.map inSeconds).map Entry.recorded)
      (seconds_mono hOrder)

theorem levelAt_mono
    (config : RateLimitConfig)
    (log : List (Entry Int))
    {us us' : Int}
    (hOrder : us ≤ us') :
    levelAt config log us ≤ levelAt config log us' :=
  level_mono (rate_nonneg config) _ (seconds_mono hOrder)

theorem levelAt_record
    (config : RateLimitConfig)
    (log : List (Entry Int))
    (checked us : Int) :
    levelAt config (log ++ [⟨checked, us⟩]) us =
      levelAt config log us - 1 := by
  unfold levelAt
  rw [List.map_append, List.map_append]
  exact level_record _ _

------------------------------------------------------------
-- Checks and Records
------------------------------------------------------------

section Calls

variable {rl : RateLimiter} {connId : UInt64}
variable (hEnabled : rl.config.enabled = true)
variable (hRate : 0 < rl.config.messagesPerSecond)

include hEnabled hRate in
theorem check_none
    (hBucket : rl.messageBuckets[connId]? = none)
    (nowUs : Int) :
    rl.checkMessageRate connId nowUs = (true, rl) := by
  have hLimited : rl.config.messagesPerSecond ≠ 0 := by
    rintro hZero
    rw [hZero] at hRate
    exact absurd hRate (by decide)
  rw [RateLimiter.checkMessageRate, hEnabled, hBucket]
  simp [hLimited]

include hEnabled hRate in
theorem check_some
    {bucket : TokenBucket}
    (hBucket : rl.messageBuckets[connId]? = some bucket)
    (nowUs : Int) :
    rl.checkMessageRate connId nowUs =
      (decide (1 ≤ (rl.refill nowUs bucket).tokens),
        { rl with
          messageBuckets :=
            rl.messageBuckets.insert connId
              (rl.refill nowUs bucket) }) := by
  have hLimited : rl.config.messagesPerSecond ≠ 0 := by
    rintro hZero
    rw [hZero] at hRate
    exact absurd hRate (by decide)
  rw [RateLimiter.checkMessageRate, hEnabled, hBucket]
  simp [hLimited]

include hEnabled in
/- The first record makes the bucket. -/
theorem record_none
    (hBucket : rl.messageBuckets[connId]? = none)
    (hFull : 1 ≤ rl.capacity)
    (nowUs : Int) :
    (rl.recordMessage connId nowUs).messageBuckets[connId]? =
      some
        { tokens := rl.capacity - 1
          lastRefillUs := nowUs } := by
  have hPositive : rl.capacity > 0 := by
    linarith
  rw [RateLimiter.recordMessage, hEnabled, hBucket]
  simp [hPositive]

include hEnabled in
theorem record_some
    {bucket : TokenBucket}
    (hBucket : rl.messageBuckets[connId]? = some bucket)
    {nowUs : Int}
    (hToken : 1 ≤ (rl.refill nowUs bucket).tokens) :
    (rl.recordMessage connId nowUs).messageBuckets[connId]? =
      some
        { tokens := (rl.refill nowUs bucket).tokens - 1
          lastRefillUs := nowUs } := by
  rw [RateLimiter.recordMessage, hEnabled, hBucket]
  simp only [Bool.not_true, Bool.false_eq_true, if_false,
    Std.ExtTreeMap.getElem?_insert_self, if_pos hToken]
  rfl

end Calls

------------------------------------------------------------
-- What a Run Keeps
------------------------------------------------------------

/- The bucket holds the level of the recorded messages. -/
structure Metered
    (config : RateLimitConfig)
    (connId : UInt64)
    (m : Meter) : Prop where
  sameConfig : m.rateLimiter.config = config
  empty :
    m.rateLimiter.messageBuckets[connId]? = none →
      m.log = []
  bucket :
    ∀ b, m.rateLimiter.messageBuckets[connId]? = some b →
      b.lastRefillUs ≤ m.nowUs ∧
        0 ≤ b.tokens ∧
          b.tokens = levelAt config m.log b.lastRefillUs
  passed :
    ∀ checked, m.passed = some checked →
      checked ≤ m.nowUs ∧
        1 ≤ levelAt config m.log checked
  gated :
    Gated (capacity config) (rate config)
      (m.log.map inSeconds)

theorem metered_new
    (config : RateLimitConfig)
    (connId : UInt64)
    (nowUs : Int) :
    Metered config connId (Meter.new config nowUs) where
  sameConfig := rfl
  empty := fun _ => rfl
  bucket := by
    intro b hBucket
    have hNone :
        (RateLimiter.new config).messageBuckets[connId]? =
          none :=
      Std.ExtTreeMap.getElem?_empty
    rw [Meter.new, hNone] at hBucket
    cases hBucket
  passed := by
    intro checked hPassed
    cases hPassed
  gated := .nil

namespace Metered

variable {config : RateLimitConfig} {connId : UInt64}
variable {m : Meter}
variable (hEnabled : config.enabled = true)
variable (hRate : 0 < config.messagesPerSecond)

include hEnabled hRate in
/- A check is passed when the level is at least one. -/
theorem check_iff
    (hMetered : Metered config connId m)
    {nowUs : Int}
    (hOrder : m.nowUs ≤ nowUs) :
    (m.rateLimiter.checkMessageRate connId nowUs).1 = true ↔
      1 ≤ levelAt config m.log nowUs := by
  rcases hMetered with ⟨rfl, hEmpty, hTokens, _, _⟩
  cases hBucket :
      m.rateLimiter.messageBuckets[connId]? with
  | none =>
      rw [check_none hEnabled hRate hBucket, hEmpty hBucket]
      exact
        iff_of_true rfl (one_le_capacity hRate)
  | some bucket =>
      rcases hTokens bucket hBucket with ⟨hLast, _, hLevel⟩
      rw [check_some hEnabled hRate hBucket,
        decide_eq_true_iff,
        tokens_refill hLevel (hLast.trans hOrder)]

include hEnabled hRate in
theorem check
    (hMetered : Metered config connId m)
    {nowUs : Int}
    (hOrder : m.nowUs ≤ nowUs) :
    Metered config connId
      { rateLimiter :=
          (m.rateLimiter.checkMessageRate connId nowUs).2
        nowUs := nowUs
        passed :=
          if (m.rateLimiter.checkMessageRate connId nowUs).1
          then
            some nowUs
          else
            none
        log := m.log } := by
  have hPasses := hMetered.check_iff hEnabled hRate hOrder
  have hKept :=
    RateLimiter.config_apply m.rateLimiter
      (.checkMessageRate connId nowUs)
  rcases hMetered with ⟨rfl, hEmpty, hTokens, _, hGated⟩
  refine
    { sameConfig := hKept
      empty := ?_
      bucket := ?_
      passed := ?_
      gated := hGated }
  · intro hNone
    cases hBucket :
        m.rateLimiter.messageBuckets[connId]? with
    | none => exact hEmpty hBucket
    | some bucket =>
        rw [check_some hEnabled hRate hBucket,
          Std.ExtTreeMap.getElem?_insert_self] at hNone
        cases hNone
  · intro b hNew
    cases hBucket :
        m.rateLimiter.messageBuckets[connId]? with
    | none =>
        rw [check_none hEnabled hRate hBucket, hBucket] at hNew
        cases hNew
    | some bucket =>
        rw [check_some hEnabled hRate hBucket,
          Std.ExtTreeMap.getElem?_insert_self] at hNew
        cases hNew
        rcases hTokens bucket hBucket with
          ⟨hLast, hFloor, hLevel⟩
        have hSince := hLast.trans hOrder
        have hRefill := tokens_refill hLevel hSince
        have hRises :=
          levelAt_mono m.rateLimiter.config m.log hSince
        refine ⟨le_refl _, ?_, hRefill⟩
        rw [hRefill]
        linarith
  · intro checked hPassed
    split at hPassed
    · next hTrue =>
        cases hPassed
        exact ⟨le_refl _, hPasses.mp hTrue⟩
    · cases hPassed

include hEnabled hRate in
/- The record takes the token that the check has seen. -/
theorem record
    (hMetered : Metered config connId m)
    {checked nowUs : Int}
    (hPassed : m.passed = some checked)
    (hOrder : m.nowUs ≤ nowUs) :
    Metered config connId
      { rateLimiter :=
          m.rateLimiter.recordMessage connId nowUs
        nowUs := nowUs
        log := m.log ++ [⟨checked, nowUs⟩] } := by
  have hKept :=
    RateLimiter.config_apply m.rateLimiter
      (.recordMessage connId nowUs)
  have hFull := one_le_capacity hRate
  rcases hMetered with
    ⟨rfl, hEmpty, hTokens, hChecked, hGated⟩
  rcases hChecked checked hPassed with ⟨hBefore, hToken⟩
  have hLevel :
      1 ≤ levelAt m.rateLimiter.config m.log nowUs :=
    hToken.trans
      (levelAt_mono _ m.log (hBefore.trans hOrder))
  have hBucket :
      (m.rateLimiter.recordMessage connId
            nowUs).messageBuckets[connId]? =
        some
          { tokens :=
              levelAt m.rateLimiter.config m.log nowUs - 1
            lastRefillUs := nowUs } := by
    cases hOld : m.rateLimiter.messageBuckets[connId]? with
    | none =>
        rw [record_none hEnabled hOld hFull, hEmpty hOld]
        rfl
    | some bucket =>
        rcases hTokens bucket hOld with ⟨hLast, _, hHolds⟩
        have hRefill :=
          tokens_refill hHolds (hLast.trans hOrder)
        rw [← hRefill] at hLevel ⊢
        exact record_some hEnabled hOld hLevel
  refine
    { sameConfig := hKept
      empty := ?_
      bucket := ?_
      passed := ?_
      gated := ?_ }
  · intro hNone
    rw [hBucket] at hNone
    cases hNone
  · intro b hNew
    rw [hBucket] at hNew
    cases hNew
    refine ⟨le_refl _, ?_, ?_⟩
    · dsimp only
      linarith
    · exact (levelAt_record _ m.log checked nowUs).symm
  · intro other hNone
    cases hNone
  · rw [List.map_append]
    exact .snoc hGated
      ((one_le_level_iff hFull _ _).mp hToken)

theorem other
    (hMetered : Metered config connId m)
    {op : LimiterOp}
    (hForeign : Foreign connId op) :
    Metered config connId
      { m with rateLimiter := op.apply m.rateLimiter } where
  sameConfig :=
    (RateLimiter.config_apply m.rateLimiter op).trans
      hMetered.sameConfig
  empty := by
    dsimp only
    rw [bucket_apply hForeign]
    exact hMetered.empty
  bucket := by
    dsimp only
    rw [bucket_apply hForeign]
    exact hMetered.bucket
  passed := hMetered.passed
  gated := hMetered.gated

include hEnabled hRate in
theorem step
    {m' : Meter}
    {op : LimiterOp}
    (hMetered : Metered config connId m)
    (hStep : Step connId m op m') :
    Metered config connId m' := by
  cases hStep with
  | check hOrder => exact hMetered.check hEnabled hRate hOrder
  | record hPassed hOrder =>
      exact hMetered.record hEnabled hRate hPassed hOrder
  | other hForeign => exact hMetered.other hForeign

end Metered

------------------------------------------------------------
-- The Law of the Windows
------------------------------------------------------------

/-
  One more message at time `t` is within the limit: if `a`
  is the first of the last `k` recorded times, `k + 1` are
  no more than the capacity and what comes in since `a`.
-/
def Within
    (config : RateLimitConfig)
    (recorded : List Int)
    (t : Int) : Prop :=
  ∀ a later,
    (a :: later) <:+ recorded →
      ((later.length + 1 : Nat) : Rat) + 1 ≤
        capacity config +
          rate config * ((t - a : Int) : Rat) / 1000000

theorem within_iff
    (config : RateLimitConfig)
    (log : List (Entry Int))
    (t : Int) :
    Within config (log.map Entry.recorded) t ↔
      Allows (capacity config) (rate config)
        ((log.map inSeconds).map Entry.recorded)
        (seconds t) := by
  have hRecords :
      (log.map inSeconds).map Entry.recorded =
        (log.map Entry.recorded).map seconds := by
    rw [List.map_map, List.map_map]
    rfl
  have hElapsed (a : Int) :
      rate config * ((t - a : Int) : Rat) / 1000000 =
        rate config * (seconds t - seconds a) := by
    unfold seconds
    push_cast
    ring
  rw [hRecords]
  constructor
  · intro hWithin b later hSuffix
    rcases List.suffix_map_iff.mp hSuffix with
      ⟨recorded, hRecorded, hMap⟩
    cases recorded with
    | nil => cases hMap
    | cons a rest =>
        rw [List.map_cons] at hMap
        cases hMap
        have hLaw := hWithin a rest hRecorded
        rw [hElapsed] at hLaw
        rw [List.length_map]
        exact hLaw
  · intro hAllows a later hSuffix
    have hLaw :=
      hAllows (seconds a) (later.map seconds)
        (hSuffix.map seconds)
    rw [List.length_map] at hLaw
    rw [hElapsed]
    exact hLaw

/-
  After any calls, tokens are between zero and the capacity,
  a check is passed exactly when the message is within the
  limit of every window, and no interval of `T` seconds has
  more messages than the capacity and what comes in then.
-/
theorem message_bucket
    {config : RateLimitConfig}
    (hEnabled : config.enabled = true)
    (hRate : 0 < config.messagesPerSecond)
    (connId : UInt64)
    {start : Int}
    {calls : List LimiterOp}
    {m : Meter}
    (hRun :
      StateMachine.Run (Step connId)
        (Meter.new config start) calls m) :
    (∀ b,
        m.rateLimiter.messageBuckets[connId]? = some b →
          0 ≤ b.tokens ∧ b.tokens ≤ capacity config) ∧
      (∀ t, m.nowUs ≤ t →
        ((m.rateLimiter.checkMessageRate connId t).1 = true ↔
          Within config (m.log.map Entry.recorded) t)) ∧
        ∀ x T : Rat, 0 ≤ T →
          ((m.log.map inSeconds).countP
              (Entry.meets x (x + T)) : Rat) ≤
            capacity config + rate config * T := by
  have hFull := one_le_capacity hRate
  have hMetered : Metered config connId m := by
    apply hRun.invariant _ (metered_new config connId start)
    intro s op t hBefore hStep
    exact hBefore.step hEnabled hRate hStep
  refine ⟨?_, ?_, ?_⟩
  · intro b hBucket
    rcases hMetered.bucket b hBucket with ⟨_, hFloor, hLevel⟩
    refine ⟨hFloor, ?_⟩
    rw [hLevel]
    exact level_le _ _
  · intro t hOrder
    rw [hMetered.check_iff hEnabled hRate hOrder, within_iff]
    exact one_le_level_iff hFull _ _
  · intro x T hWidth
    have hCount :=
      hMetered.gated.countP_le hFull (rate_nonneg config)
        (le_add_of_nonneg_right (a := x) hWidth)
    rw [add_sub_cancel_left] at hCount
    exact hCount

def onePerSecond : RateLimitConfig :=
  { enabled := true, messagesPerSecond := 1, burstSize := 0 }

/- After a message, the next one has to wait a second. -/
theorem message_bucket_one_per_second :
    ∃ m,
      StateMachine.Run (Step 7) (Meter.new onePerSecond 0)
          [.checkMessageRate 7 0, .recordMessage 7 0] m ∧
        (m.rateLimiter.checkMessageRate 7 999999).1 = false ∧
          (m.rateLimiter.checkMessageRate 7 1000000).1 =
            true := by
  have hPassed :
      ((RateLimiter.new onePerSecond).checkMessageRate 7
        0).1 = true := by
    rw [check_none rfl (by decide)
      Std.ExtTreeMap.getElem?_empty]
  have hRecorded :
      ∃ m,
        StateMachine.Run (Step 7) (Meter.new onePerSecond 0)
            [.checkMessageRate 7 0, .recordMessage 7 0] m ∧
          m.log = [⟨0, 0⟩] ∧ m.nowUs = 0 := by
    refine
      ⟨_, .snoc (.snoc (.nil _) (.check (le_refl 0)))
        (.record (if_pos (e := none) hPassed) (le_refl 0)),
        ?_, ?_⟩
    · rfl
    · rfl
  rcases hRecorded with ⟨m, hRun, hLog, hNow⟩
  have hLaw := (message_bucket rfl (by decide) 7 hRun).2.1
  rw [hLog, hNow] at hLaw
  have hCapacity : capacity onePerSecond = 1 := by
    simp [capacity, RateLimiter.capacity, onePerSecond,
      RateLimiter.new]
  have hRate : rate onePerSecond = 1 := by
    simp [rate, onePerSecond]
  refine ⟨m, hRun, ?_, ?_⟩
  · rw [Bool.eq_false_iff, ne_eq, hLaw 999999 (by decide)]
    intro hWithin
    have hSoon := hWithin 0 [] (List.suffix_refl _)
    rw [hCapacity, hRate] at hSoon
    norm_num at hSoon
  · rw [hLaw 1000000 (by decide)]
    intro a later hSuffix
    rcases List.suffix_cons_iff.mp hSuffix with
      hOnly | hNone
    · cases hOnly
      rw [hCapacity, hRate]
      norm_num
    · cases List.suffix_nil.mp hNone

end TokenBuckets

end ObscuraProto
