import ObscuraProto.Library.RateWindow
import ObscuraProto.WsServer.Touches

/-
  The sliding windows of the rate limiter.

  For every address there is a window of connections and one
  of handshakes.  A log of the requests that were let pass is
  kept next to the limiter; the stamps of a window track the
  log of its address, so the check that precedes a record
  counts the requests in the last minute.

  Key definitions include:
    * `WindowKind`, `RateLimiter.stamps`
    * `LimiterOp.stampOf`, `RateLimiter.limitOf`
    * `Keeps`

  Key theorems include:
    * `RateLimiter.stamps_apply`
    * `Keeps.ops`, `Keeps.record`
    * `Keeps.countP_le`, `Keeps.next`
-/

namespace ObscuraProto

open RateWindow

------------------------------------------------------------
-- Stamps of an Address
------------------------------------------------------------

inductive WindowKind where
| connections
| handshakes
deriving DecidableEq

def PerIPState.window
    (state : PerIPState) : WindowKind → SlidingWindow
| .connections => state.connections
| .handshakes => state.handshakes

namespace RateLimiter

def stamps
    (kind : WindowKind)
    (ip : String)
    (rl : RateLimiter) : List Int :=
  ((rl.stateOf ip).window kind).timestampsMs

/- How many stamps a minute the configuration allows. -/
def limitOf (kind : WindowKind) (config : RateLimitConfig) :
    UInt32 :=
  match kind with
  | .connections => config.connectionsPerMinute
  | .handshakes => config.handshakeAttemptsPerMinute

/- The check of either rate. -/
def check
    (kind : WindowKind)
    (ip : String)
    (nowMs : Int)
    (rl : RateLimiter) : Bool × RateLimiter :=
  match kind with
  | .connections => rl.checkConnectionRate ip nowMs
  | .handshakes => rl.checkHandshakeRate ip nowMs

end RateLimiter

/- The stamp an operation adds to a window. -/
def LimiterOp.stampOf
    (kind : WindowKind)
    (ip : String)
    (op : LimiterOp) : List Int :=
  match kind, op with
  | .connections, .recordConnection ip' now =>
      if ip' = ip then [now] else []
  | .handshakes, .recordHandshake ip' now =>
      if ip' = ip then [now] else []
  | _, _ => []

/- The record of either kind. -/
def LimiterOp.record
    (kind : WindowKind)
    (ip : String)
    (nowMs : Int) : LimiterOp :=
  match kind with
  | .connections => .recordConnection ip nowMs
  | .handshakes => .recordHandshake ip nowMs

namespace RateLimiter

theorem stateOf_setState
    (ip ip' : String)
    (state : PerIPState)
    (rl : RateLimiter) :
    (rl.setState ip' state).stateOf ip =
      if ip = ip' then
        state
      else
        rl.stateOf ip := by
  unfold setState stateOf
  split
  · next hSame =>
      rw [hSame, Std.ExtTreeMap.getElem?_insert_self]
      rfl
  · next hOther =>
      rw [OrderedMap.getElem?_insert_of_ne hOther]

theorem stamps_setState
    {kind : WindowKind}
    {ip ip' : String}
    {state : PerIPState}
    {rl : RateLimiter}
    (more : List Int)
    (hWindow :
      (state.window kind).timestampsMs =
        rl.stamps kind ip' ++ more) :
    (rl.setState ip' state).stamps kind ip =
      rl.stamps kind ip ++ if ip' = ip then more else [] := by
  unfold stamps
  rw [stateOf_setState]
  by_cases hSame : ip = ip'
  · subst hSame
    rw [if_pos rfl, if_pos rfl]
    exact hWindow
  · rw [if_neg hSame, if_neg (Ne.symm hSame), List.append_nil]

/- An address with nothing left to count may be dropped. -/
theorem stamps_cleanup
    (kind : WindowKind)
    (ip : String)
    (nowMs : Int)
    (rl : RateLimiter) :
    (rl.cleanup nowMs).stamps kind ip =
      (rl.stamps kind ip).dropWhile (· < nowMs - 60000) := by
  unfold stamps stateOf cleanup
  rw [Std.ExtTreeMap.getElem?_filter',
    Std.ExtTreeMap.getElem?_map]
  cases rl.perIp[ip]? with
  | none => cases kind <;> rfl
  | some state =>
      simp only [Option.map_some, Option.filter]
      split
      · cases kind <;> rfl
      · next hDropped =>
          simp only [Bool.not_eq_true', Bool.and_eq_false_iff,
            not_or, Bool.not_eq_false] at hDropped
          rcases hDropped with ⟨⟨_, hConnections⟩, hHandshakes⟩
          cases kind with
          | connections =>
              exact
                (List.isEmpty_iff.mp hConnections).symm
          | handshakes =>
              exact (List.isEmpty_iff.mp hHandshakes).symm

/- What every operation does to a window. -/
theorem stamps_apply
    {rl : RateLimiter}
    (hEnabled : rl.config.enabled = true)
    (kind : WindowKind)
    (ip : String)
    (op : LimiterOp) :
    (op.apply rl).stamps kind ip =
      match op with
      | .cleanup nowMs =>
          (rl.stamps kind ip).dropWhile (· < nowMs - 60000)
      | _ => rl.stamps kind ip ++ op.stampOf kind ip := by
  have hKept
      (ip' : String)
      (state : PerIPState)
      (hWindow :
        (state.window kind).timestampsMs =
          rl.stamps kind ip') :
      (rl.setState ip' state).stamps kind ip =
        rl.stamps kind ip ++ [] := by
    rw [stamps_setState []
      (by rw [hWindow, List.append_nil])]
    simp
  cases op with
  | cleanup nowMs => exact stamps_cleanup kind ip nowMs rl
  | checkConnectionRate ip' now =>
      have hNone :
          (LimiterOp.checkConnectionRate ip' now).stampOf kind
            ip = [] := by
        cases kind <;> rfl
      simp only [hNone]
      unfold LimiterOp.apply checkConnectionRate
      dsimp only
      split
      · exact (List.append_nil _).symm
      · exact hKept ip' _ rfl
  | checkHandshakeRate ip' now =>
      have hNone :
          (LimiterOp.checkHandshakeRate ip' now).stampOf kind
            ip = [] := by
        cases kind <;> rfl
      simp only [hNone]
      unfold LimiterOp.apply checkHandshakeRate
      dsimp only
      split
      · exact (List.append_nil _).symm
      · exact hKept ip' _ rfl
  | recordConnection ip' now =>
      simp only [LimiterOp.apply, recordConnection, hEnabled,
        Bool.not_true, Bool.false_eq_true, if_false]
      cases kind with
      | connections =>
          rw [stamps_setState [now] rfl]
          rfl
      | handshakes => exact hKept ip' _ rfl
  | recordHandshake ip' now =>
      simp only [LimiterOp.apply, recordHandshake, hEnabled,
        Bool.not_true, Bool.false_eq_true, if_false]
      cases kind with
      | connections => exact hKept ip' _ rfl
      | handshakes =>
          rw [stamps_setState [now] rfl]
          rfl
  | checkMessageRate connId now =>
      have hNone :
          (LimiterOp.checkMessageRate connId now).stampOf kind
            ip = [] := by
        cases kind <;> rfl
      simp only [hNone, List.append_nil]
      unfold LimiterOp.apply checkMessageRate
      dsimp only
      split
      · rfl
      · split <;> rfl
  | recordMessage connId now =>
      have hNone :
          (LimiterOp.recordMessage connId now).stampOf kind
            ip = [] := by
        cases kind <;> rfl
      simp only [hNone, List.append_nil]
      unfold LimiterOp.apply recordMessage
      dsimp only
      split <;> rfl
  | registerConnection ip' =>
      have hNone :
          (LimiterOp.registerConnection ip').stampOf kind
            ip = [] := by
        cases kind <;> rfl
      simp only [hNone]
      refine hKept ip' _ ?_
      cases kind <;> rfl
  | unregisterConnection connId ip' =>
      have hNone :
          (LimiterOp.unregisterConnection connId ip').stampOf
            kind ip = [] := by
        cases kind <;> rfl
      simp only [hNone]
      unfold LimiterOp.apply unregisterConnection
      dsimp only
      cases hState : rl.perIp[ip']? with
      | none => exact (List.append_nil _).symm
      | some state =>
          dsimp only
          split
          · refine hKept ip' _ ?_
            unfold stamps stateOf
            rw [hState]
            cases kind <;> rfl
          · exact (List.append_nil _).symm

theorem config_apply (rl : RateLimiter) (op : LimiterOp) :
    (op.apply rl).config = rl.config := by
  cases op with
  | checkConnectionRate ip now =>
      unfold LimiterOp.apply checkConnectionRate
      dsimp only
      split <;> rfl
  | recordConnection ip now =>
      unfold LimiterOp.apply recordConnection
      dsimp only
      split <;> rfl
  | checkHandshakeRate ip now =>
      unfold LimiterOp.apply checkHandshakeRate
      dsimp only
      split <;> rfl
  | recordHandshake ip now =>
      unfold LimiterOp.apply recordHandshake
      dsimp only
      split <;> rfl
  | checkMessageRate connId now =>
      unfold LimiterOp.apply checkMessageRate
      dsimp only
      split
      · rfl
      · split <;> rfl
  | recordMessage connId now =>
      unfold LimiterOp.apply recordMessage
      dsimp only
      split <;> rfl
  | registerConnection | unregisterConnection | cleanup => rfl

/- A bucket is written by the calls for its connection. -/
theorem messageBuckets_apply
    {connId : UInt64}
    {op : LimiterOp}
    (hCheck : ∀ now, op ≠ .checkMessageRate connId now)
    (hRecord : ∀ now, op ≠ .recordMessage connId now)
    (hUnregister : ∀ ip, op ≠ .unregisterConnection connId ip)
    (rl : RateLimiter) :
    (op.apply rl).messageBuckets[connId]? =
      rl.messageBuckets[connId]? := by
  cases op with
  | checkConnectionRate ip now =>
      unfold LimiterOp.apply checkConnectionRate
      dsimp only
      split <;> rfl
  | recordConnection ip now =>
      unfold LimiterOp.apply recordConnection
      dsimp only
      split <;> rfl
  | checkHandshakeRate ip now =>
      unfold LimiterOp.apply checkHandshakeRate
      dsimp only
      split <;> rfl
  | recordHandshake ip now =>
      unfold LimiterOp.apply recordHandshake
      dsimp only
      split <;> rfl
  | checkMessageRate other now =>
      have hOther : connId ≠ other := by
        rintro rfl
        exact hCheck now rfl
      unfold LimiterOp.apply checkMessageRate
      dsimp only
      split
      · rfl
      · split
        · rfl
        · exact OrderedMap.getElem?_insert_of_ne hOther _ _
  | recordMessage other now =>
      have hOther : connId ≠ other := by
        rintro rfl
        exact hRecord now rfl
      unfold LimiterOp.apply recordMessage
      dsimp only
      split
      · rfl
      · exact OrderedMap.getElem?_insert_of_ne hOther _ _
  | unregisterConnection other ip =>
      have hOther : connId ≠ other := by
        rintro rfl
        exact hUnregister ip rfl
      exact OrderedMap.getElem?_erase_of_ne hOther _
  | registerConnection | cleanup => rfl

/- The configuration is never written. -/
theorem config_foldl (ops : List LimiterOp) (rl : RateLimiter) :
    (ops.foldl LimiterOp.apply rl).config = rl.config := by
  induction ops generalizing rl with
  | nil => rfl
  | cons op ops ih =>
      rw [List.foldl_cons, ih, config_apply]

end RateLimiter

------------------------------------------------------------
-- A Log of What Was Let Pass
------------------------------------------------------------

/- The entries of an address, oldest first. -/
def entriesOf
    (ip : String)
    (log : List (String × Entry)) : List Entry :=
  (log.filter (fun e => e.1 = ip)).map Prod.snd

theorem entriesOf_snoc
    (ip ip' : String)
    (log : List (String × Entry))
    (e : Entry) :
    entriesOf ip (log ++ [(ip', e)]) =
      entriesOf ip log ++ if ip' = ip then [e] else [] := by
  unfold entriesOf
  rw [List.filter_append, List.map_append]
  by_cases hSame : ip' = ip
  · simp [hSame]
  · simp [hSame]

/-
  At the time `now` the windows track the log, and every
  entry of it has been let pass by the limit.
-/
structure Keeps
    (kind : WindowKind)
    (now : Int)
    (log : List (String × Entry))
    (rl : RateLimiter) : Prop where
  enabled : rl.config.enabled = true
  limited : RateLimiter.limitOf kind rl.config ≠ 0
  tracks :
    ∀ ip,
      Tracks 60000 now ((entriesOf ip log).map Entry.recorded)
        (rl.stamps kind ip)
  gated :
    ∀ ip,
      Gated (RateLimiter.limitOf kind rl.config).toNat 60000
        (entriesOf ip log)

namespace Keeps

variable {kind : WindowKind} {now : Int}
variable {log : List (String × Entry)} {rl : RateLimiter}

theorem later
    (hKeeps : Keeps kind now log rl)
    {now' : Int}
    (hLater : now ≤ now') :
    Keeps kind now' log rl where
  enabled := hKeeps.enabled
  limited := hKeeps.limited
  tracks := fun ip => (hKeeps.tracks ip).mono hLater
  gated := hKeeps.gated

/- It records nothing, and cleans up with the time of now. -/
def Silent
    (kind : WindowKind)
    (now : Int)
    (op : LimiterOp) : Prop :=
  (∀ ip, op.stampOf kind ip = []) ∧
    ∀ t, op = .cleanup t → t = now

theorem op
    (hKeeps : Keeps kind now log rl)
    {op : LimiterOp}
    (hSilent : Silent kind now op) :
    Keeps kind now log (op.apply rl) where
  enabled := by
    rw [RateLimiter.config_apply]
    exact hKeeps.enabled
  limited := by
    rw [RateLimiter.config_apply]
    exact hKeeps.limited
  tracks := by
    intro ip
    rw [RateLimiter.stamps_apply hKeeps.enabled]
    split
    · next t =>
        rw [hSilent.2 t rfl]
        exact (hKeeps.tracks ip).clean
    · rw [hSilent.1 ip, List.append_nil]
      exact hKeeps.tracks ip
  gated := by
    rw [RateLimiter.config_apply]
    exact hKeeps.gated

theorem ops
    (hKeeps : Keeps kind now log rl)
    {ops : List LimiterOp}
    (hSilent : ∀ op ∈ ops, Silent kind now op) :
    Keeps kind now log (ops.foldl LimiterOp.apply rl) := by
  induction ops generalizing rl with
  | nil => exact hKeeps
  | cons op ops ih =>
      apply ih (hKeeps.op (hSilent op List.mem_cons_self))
      exact fun other hMem =>
        hSilent other (List.mem_cons_of_mem _ hMem)

/- What the check of either rate counts. -/
theorem few_of_check
    (hKeeps : Keeps kind now log rl)
    {ip : String}
    (hPassed : (rl.check kind ip now).1 = true) :
    (entriesOf ip log).countP
        (fun e => decide (now - 60000 ≤ e.recorded)) <
      (RateLimiter.limitOf kind rl.config).toNat := by
  have hRecent := (hKeeps.tracks ip).length_recent
  rw [List.countP_map] at hRecent
  have hCount :
      ((rl.stamps kind ip).reverse.takeWhile
          (now - 60000 ≤ ·)).length <
        (RateLimiter.limitOf kind rl.config).toNat := by
    have hEnabled := hKeeps.enabled
    have hLimited := hKeeps.limited
    cases kind with
    | connections =>
        have hRate : rl.config.connectionsPerMinute ≠ 0 :=
          hLimited
        simp only [RateLimiter.check,
          RateLimiter.checkConnectionRate, hEnabled, hRate,
          Bool.not_true, Bool.false_or, decide_false,
          Bool.false_eq_true, if_false,
          decide_eq_true_eq] at hPassed
        exact hPassed
    | handshakes =>
        have hRate :
            rl.config.handshakeAttemptsPerMinute ≠ 0 :=
          hLimited
        simp only [RateLimiter.check,
          RateLimiter.checkHandshakeRate, hEnabled, hRate,
          Bool.not_true, Bool.false_or, decide_false,
          Bool.false_eq_true, if_false,
          decide_eq_true_eq] at hPassed
        exact hPassed
  rw [hRecent] at hCount
  exact hCount

/- A check that is passed, and the record that follows. -/
theorem record
    {rl' : RateLimiter}
    (hKeeps : Keeps kind now log rl)
    {ip : String}
    (hPassed : (rl.check kind ip now).1 = true)
    (hChecked : Keeps kind now log rl')
    (hConfig : rl'.config = rl.config)
    {now' : Int}
    (hOrder : now ≤ now') :
    Keeps kind now' (log ++ [(ip, ⟨now, now'⟩)])
      ((LimiterOp.record kind ip now').apply rl') where
  enabled := by
    rw [RateLimiter.config_apply]
    exact hChecked.enabled
  limited := by
    rw [RateLimiter.config_apply]
    exact hChecked.limited
  tracks := by
    intro other
    have hStamps :
        ((LimiterOp.record kind ip now').apply rl').stamps kind
            other =
          rl'.stamps kind other ++
            if ip = other then [now'] else [] := by
      rw [RateLimiter.stamps_apply hChecked.enabled]
      cases kind <;> rfl
    have hTracks := (hChecked.tracks other).mono hOrder
    rw [hStamps, entriesOf_snoc]
    by_cases hSame : ip = other
    · rw [if_pos hSame, if_pos hSame, List.map_append]
      exact hTracks.record
    · rw [if_neg hSame, if_neg hSame, List.append_nil,
        List.append_nil]
      exact hTracks
  gated := by
    intro other
    rw [RateLimiter.config_apply, hConfig, entriesOf_snoc]
    by_cases hSame : ip = other
    · subst hSame
      rw [if_pos rfl]
      exact .snoc (hKeeps.gated ip) (hKeeps.few_of_check hPassed)
    · rw [if_neg hSame, List.append_nil]
      exact hKeeps.gated other

/- No window of a minute has more of them than allowed. -/
theorem countP_le
    (hKeeps : Keeps kind now log rl)
    (ip : String)
    (a : Int) :
    (entriesOf ip log).countP (Entry.meets a 60000) ≤
      (RateLimiter.limitOf kind rl.config).toNat :=
  (hKeeps.gated ip).countP_le a

end Keeps

/- A limiter that has not been used yet. -/
theorem keeps_new
    {kind : WindowKind}
    {config : RateLimitConfig}
    (hEnabled : config.enabled = true)
    (hLimited : RateLimiter.limitOf kind config ≠ 0)
    (now : Int) :
    Keeps kind now [] (RateLimiter.new config) where
  enabled := hEnabled
  limited := hLimited
  tracks := by
    intro ip
    have hNone :
        (RateLimiter.new config).stamps kind ip = [] := by
      cases kind <;> rfl
    rw [hNone]
    exact tracks_nil 60000 now
  gated := fun _ => .nil

------------------------------------------------------------
-- Readings of the Clock
------------------------------------------------------------

/- A request with the readings of its check and its record. -/
def entryAt (checked recorded : TimePoint) : Entry :=
  ⟨nowMs checked, nowMs recorded⟩

/- The request meets the minute that begins at `a`. -/
def meetsMinute
    (a checked recorded : TimePoint) : Bool :=
  decide (a ≤ recorded) &&
    decide (checked ≤ a + 60000000000)

theorem nowMs_mono
    {t t' : TimePoint}
    (hOrder : t ≤ t') :
    nowMs t ≤ nowMs t' :=
  Int.ofNat_le.mpr (Nat.div_le_div_right hOrder)

theorem nowMs_minute (t : TimePoint) :
    nowMs (t + 60000000000) = nowMs t + 60000 := by
  have hMinute :
      (t + 60000 * 1000000) / 1000000 = t / 1000000 + 60000 :=
    Nat.add_mul_div_right t 60000 (by decide)
  exact congrArg Nat.cast hMinute

theorem meets_of_meetsMinute
    {a checked recorded : TimePoint}
    (hMeets : meetsMinute a checked recorded = true) :
    (entryAt checked recorded).meets (nowMs a) 60000 =
      true := by
  unfold meetsMinute at hMeets
  unfold Entry.meets entryAt
  simp only [Bool.and_eq_true, decide_eq_true_eq] at hMeets ⊢
  rw [← nowMs_minute]
  exact ⟨nowMs_mono hMeets.1, nowMs_mono hMeets.2⟩

------------------------------------------------------------
-- Events in the Course of Time
------------------------------------------------------------

/- What an event of the io thread reads from the outside. -/
def ServerEvent.input? : ServerEvent → Option IoInput
| .opened input _ => some input
| .message input _ _ => some input
| .closed input _ => some input
| .timeouts input => some input
| .call _ => none

/- The clock does not run backwards. -/
def ServerEvent.Timed
    (now : TimePoint)
    (event : ServerEvent) : Prop :=
  ∀ input, event.input? = some input →
    now ≤ input.clock 0 ∧ Monotone input.clock

/- The latest reading after an event. -/
def ServerEvent.nowAfter
    (now : TimePoint)
    (event : ServerEvent) : TimePoint :=
  match event.input? with
  | none => now
  | some input => input.clock 2

theorem ServerEvent.Timed.le_nowAfter
    {now : TimePoint}
    {event : ServerEvent}
    (hTimed : event.Timed now) :
    now ≤ event.nowAfter now := by
  unfold ServerEvent.nowAfter
  cases hInput : event.input? with
  | none => exact le_refl now
  | some input =>
      rcases hTimed input hInput with ⟨hLater, hMono⟩
      exact hLater.trans (hMono (Nat.zero_le 2))

namespace WsServer

variable {S : Sodium}

theorem next_config (event : ServerEvent) (w : WsServer) :
    (next S w event).config = w.config := by
  have hChange := next_change S event w
  generalize next S w event = w' at hChange ⊢
  cases hChange with
  | sends hSends => exact hSends.config
  | receives hAccepts hSends =>
      exact hSends.config.trans hAccepts.config
  | establishes _ _ _ _ hStored _ => exact hStored.config
  | closes hClosed => exact hClosed.config

theorem next_serverSignKey
    (event : ServerEvent)
    (w : WsServer) :
    (next S w event).serverSignKey = w.serverSignKey := by
  have hChange := next_change S event w
  generalize next S w event = w' at hChange ⊢
  cases hChange with
  | sends hSends => exact hSends.serverSignKey
  | receives hAccepts hSends =>
      exact hSends.serverSignKey.trans hAccepts.serverSignKey
  | establishes _ _ _ _ hStored _ => exact hStored.serverSignKey
  | closes hClosed => exact hClosed.serverSignKey

theorem next_limiterConfig
    (event : ServerEvent)
    (w : WsServer) :
    (next S w event).rateLimiter.config =
      w.rateLimiter.config := by
  rcases handle_usesLimiter S event w with ⟨ops, _, hState⟩
  rw [hState, RateLimiter.config_foldl]

end WsServer

/- An event that records nothing of the kind. -/
theorem Keeps.next
    {S : Sodium}
    {kind : WindowKind}
    {now : TimePoint}
    {log : List (String × Entry)}
    {w : WsServer}
    {event : ServerEvent}
    (hKeeps : Keeps kind (nowMs now) log w.rateLimiter)
    (hTimed : event.Timed now)
    (hSilent :
      ∀ op, event.mayUse op → ∀ ip, op.stampOf kind ip = []) :
    Keeps kind (nowMs (event.nowAfter now)) log
      (WsServer.next S w event).rateLimiter := by
  rcases WsServer.handle_usesLimiter S event w with
    ⟨ops, hMay, hState⟩
  rw [hState]
  apply (hKeeps.later (nowMs_mono hTimed.le_nowAfter)).ops
  intro op hMem
  refine ⟨hSilent op (hMay op hMem), ?_⟩
  rintro t rfl
  have hUse := hMay _ hMem
  -- Only the timer cleans up, at its last reading.
  cases event with
  | timeouts input =>
      cases hUse
      rfl
  | opened | message | closed | call => exact hUse.elim

end ObscuraProto
