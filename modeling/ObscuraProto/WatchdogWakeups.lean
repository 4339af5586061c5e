import ObscuraProto.Library.Monitors
import ObscuraProto.WsClient.Requests

/-
  The watchdog thread of the client and its wakeups.

  `watchdog_loop` decides under `pending_requests_mutex_` how
  long to wait and waits with it.  Deadlines are recorded
  under the same mutex and then notified, so none is missed.
  `stop_watchdog` sets its flag and notifies under another
  mutex, and so its notification can fall between the test of
  the flag and the wait.

  Key definitions include:
    * `WatchdogWakeups.Point`, `WatchdogWakeups.program`
    * `WatchdogWakeups.Late`, `WatchdogWakeups.Owes`
    * `WatchdogWakeups.DeadlinesWatched`
    * `WatchdogWakeups.StopHeard`, `WatchdogWakeups.heeded`

  Key theorems include:
    * `WatchdogWakeups.watchdog_wakeups`
    * `WatchdogWakeups.stop_missed`
-/

namespace ObscuraProto

namespace WatchdogWakeups

open Monitors

------------------------------------------------------------
-- State
------------------------------------------------------------

inductive Mutex where
| pendingRequests
| watchdog
deriving DecidableEq

/- The watchdog, or any other thread. -/
inductive ThreadId where
| watchdog
| caller (n : Nat)
deriving DecidableEq

/- `watchdog_thread_`, and whether it can be joined. -/
inductive Handle where
| empty
| joinable
| joined
deriving DecidableEq

/-
  `live` tells that the thread of the handle has not ended,
  `told` that `stop_watchdog` has set the flag and notified
  since this thread was created.
-/
structure Shared where
  requests : ClientRequestTable := {}
  watchdogStarted : Bool := false
  watchdogStop : Bool := false
  watchdogThread : Handle := .empty
  live : Bool := false
  told : Bool := false

/- A visit to the pending requests, and what it is part of. -/
inductive Visit where
| request
    (requestId : UInt32)
    (promise : PromiseId)
    (deadline : Option TimePoint)
| failure (requestId : UInt32) (e : Exception)
| response (requestId : UInt32) (response : Payload)
| disconnect (onIoThread : Bool)

def Visit.requestSection : Visit → ClientRequestSection
| .request requestId promise deadline =>
    .registers requestId promise deadline
| .failure requestId e => .fails requestId e
| .response requestId payload =>
    .responds requestId payload
| .disconnect _ => .disconnects

/- `async_request`, a RESPONSE, or `disconnect`. -/
def Visit.isCall : Visit → Bool
| .failure _ _ => false
| _ => true

------------------------------------------------------------
-- The Program
------------------------------------------------------------

inductive Point where
-- `watchdog_loop`
| absent
| enter
| test
| aboutToWait (earliest : Option TimePoint)
| leave
| exit
-- a section of the pending requests
| rest
| lock (v : Visit)
| visit (v : Visit)
| unlock (v : Visit)
-- `ensure_watchdog` and the notification of `async_request`
| ensure (requestId : UInt32)
| ensureLock (requestId : UInt32)
| ensureReset (requestId : UInt32)
| ensureCreate (requestId : UInt32)
| ensureUnlock (requestId : UInt32)
| notifyDeadline (requestId : UInt32)
| sending (requestId : UInt32)
-- `disconnect` and `stop_watchdog`
| notifyCleared (onIoThread : Bool)
| stopLock
| stopTest
| stopNotify
| stopUnlock
| stopJoin
| stopRelock
| stopReset
| stopEnd

/- What the thread reads from outside of the model. -/
inductive Input where
| go
| clock (now : TimePoint)
| call (v : Visit)
| throws (e : Exception)

/- After the section of the pending requests. -/
def Visit.next : Visit → Point
| .request requestId _ (some _) => .ensure requestId
| .request requestId _ none => .sending requestId
| .failure _ _ => .rest
| .response _ _ => .rest
| .disconnect onIoThread => .notifyCleared onIoThread

def Shared.visit (v : Visit) (s : Shared) : Shared :=
  { s with requests := (v.requestSection.apply s.requests).2 }

def Shared.expire (now : TimePoint) (s : Shared) : Shared :=
  { s with requests := (s.requests.expire now).2 }

abbrev ThreadOp : Type :=
  Op Mutex Point Shared (Option TimePoint)

/-
  From the test of the loop to its decision: all of it reads
  the flag once, the clock, and what the held mutex guards.
-/
def testLoop (now : TimePoint) (s : Shared) : ThreadOp :=
  if s.watchdogStop then
    .act id .leave
  else
    match s.requests.earliest with
    | none => .act id (.aboutToWait none)
    | some earliest =>
        if earliest ≤ now then
          .act (Shared.expire now) .test
        else
          .act id (.aboutToWait (some earliest))

/-
  A thread handle that is overwritten or reset while it can
  be joined ends the process; nothing comes after it.
-/
def program :
    Program Mutex Point Input Shared (Option TimePoint)
| .absent, .go, s =>
    if s.live then
      some (.act id .enter)
    else
      none
| .enter, .go, _ => some (.lock .pendingRequests .test)
| .test, .clock now, s => some (testLoop now s)
| .aboutToWait earliest, .go, _ =>
    some (.wait .pendingRequests earliest .test)
| .leave, .go, _ => some (.unlock .pendingRequests .exit)
| .exit, .go, _ =>
    some (.act (fun s => { s with live := false }) .absent)
| .rest, .call v, _ =>
    if v.isCall then
      some (.act id (.lock v))
    else
      none
| .lock v, .go, _ =>
    some (.lock .pendingRequests (.visit v))
| .visit v, .go, _ =>
    some (.act (Shared.visit v) (.unlock v))
| .unlock v, .go, _ =>
    some (.unlock .pendingRequests v.next)
| .ensure requestId, .go, s =>
    if s.watchdogStarted then
      some (.act id (.notifyDeadline requestId))
    else
      some
        (.act (fun s => { s with watchdogStarted := true })
          (.ensureLock requestId))
| .ensureLock requestId, .go, _ =>
    some (.lock .watchdog (.ensureReset requestId))
| .ensureReset requestId, .go, _ =>
    some
      (.act (fun s => { s with watchdogStop := false })
        (.ensureCreate requestId))
| .ensureCreate requestId, .go, s =>
    if s.watchdogThread = .joinable then
      none
    else
      some
        (.act
          (fun s =>
            { s with
              watchdogThread := .joinable
              live := true
              told := false })
          (.ensureUnlock requestId))
| .ensureUnlock requestId, .go, _ =>
    some (.unlock .watchdog (.notifyDeadline requestId))
| .notifyDeadline requestId, .go, _ =>
    some (.notifyAll id (.sending requestId))
| .sending _, .go, _ => some (.act id .rest)
| .sending requestId, .throws e, _ =>
    some (.act id (.lock (.failure requestId e)))
| .notifyCleared onIoThread, .go, _ =>
    some
      (.notifyAll id (if onIoThread then .rest else .stopLock))
| .stopLock, .go, _ => some (.lock .watchdog .stopTest)
| .stopTest, .go, s =>
    if s.watchdogThread = .joinable then
      some
        (.act (fun s => { s with watchdogStop := true })
          .stopNotify)
    else
      some
        (.act
          (fun s =>
            { s with
              watchdogThread := .empty
              watchdogStarted := false })
          .stopEnd)
| .stopNotify, .go, _ =>
    some
      (.notifyAll (fun s => { s with told := true })
        .stopUnlock)
| .stopUnlock, .go, _ => some (.unlock .watchdog .stopJoin)
| .stopJoin, .go, s =>
    if s.watchdogThread = .joinable ∧ s.live = false then
      some
        (.act (fun s => { s with watchdogThread := .joined })
          .stopRelock)
    else
      none
| .stopRelock, .go, _ => some (.lock .watchdog .stopReset)
| .stopReset, .go, s =>
    if s.watchdogThread = .joinable then
      none
    else
      some
        (.act
          (fun s =>
            { s with
              watchdogThread := .empty
              watchdogStarted := false })
          .stopEnd)
| .stopEnd, .go, _ => some (.unlock .watchdog .rest)
| _, _, _ => none

abbrev ClientState : Type :=
  State ThreadId Mutex Point Shared (Option TimePoint)

abbrev ClientStep :
    ClientState → Label ThreadId Input → ClientState → Prop :=
  Step program

/- No thread has begun anything. -/
def initial : ClientState where
  shared := {}
  threads
    | .watchdog => { point := .absent }
    | .caller _ => { point := .rest }

------------------------------------------------------------
-- What a Step Does
------------------------------------------------------------

/- The mutexes that are held at a point. -/
def Holds : Point → Mutex → Prop
| .test, .pendingRequests => True
| .aboutToWait _, .pendingRequests => True
| .leave, .pendingRequests => True
| .visit _, .pendingRequests => True
| .unlock _, .pendingRequests => True
| .ensureReset _, .watchdog => True
| .ensureCreate _, .watchdog => True
| .ensureUnlock _, .watchdog => True
| .stopTest, .watchdog => True
| .stopNotify, .watchdog => True
| .stopUnlock, .watchdog => True
| .stopReset, .watchdog => True
| .stopEnd, .watchdog => True
| _, _ => False

inductive Locks : Point → Mutex → Point → Prop
| enter : Locks .enter .pendingRequests .test
| lock (v : Visit) :
    Locks (.lock v) .pendingRequests (.visit v)
| ensureLock (requestId : UInt32) :
    Locks (.ensureLock requestId) .watchdog
      (.ensureReset requestId)
| stopLock : Locks .stopLock .watchdog .stopTest
| stopRelock : Locks .stopRelock .watchdog .stopReset

inductive Unlocks : Point → Mutex → Point → Prop
| leave : Unlocks .leave .pendingRequests .exit
| unlock (v : Visit) :
    Unlocks (.unlock v) .pendingRequests v.next
| ensureUnlock (requestId : UInt32) :
    Unlocks (.ensureUnlock requestId) .watchdog
      (.notifyDeadline requestId)
| stopUnlock : Unlocks .stopUnlock .watchdog .stopJoin
| stopEnd : Unlocks .stopEnd .watchdog .rest

inductive Acts :
    Point → Shared → (Shared → Shared) → Point → Prop
| begins {s : Shared} :
    s.live = true → Acts .absent s id .enter
| stops {s : Shared} :
    s.watchdogStop = true → Acts .test s id .leave
| idles {s : Shared} :
    s.watchdogStop = false →
      s.requests.earliest = none →
        Acts .test s id (.aboutToWait none)
| expires {s : Shared} (now : TimePoint) :
    Acts .test s (Shared.expire now) .test
| sleeps {s : Shared} {earliest : TimePoint} :
    s.watchdogStop = false →
      s.requests.earliest = some earliest →
        Acts .test s id (.aboutToWait (some earliest))
| exits {s : Shared} :
    Acts .exit s (fun s => { s with live := false }) .absent
| calls {s : Shared} (v : Visit) :
    Acts .rest s id (.lock v)
| visits {s : Shared} (v : Visit) :
    Acts (.visit v) s (Shared.visit v) (.unlock v)
| finds {s : Shared} (requestId : UInt32) :
    Acts (.ensure requestId) s id (.notifyDeadline requestId)
| starts {s : Shared} (requestId : UInt32) :
    Acts (.ensure requestId) s
      (fun s => { s with watchdogStarted := true })
      (.ensureLock requestId)
| resets {s : Shared} (requestId : UInt32) :
    Acts (.ensureReset requestId) s
      (fun s => { s with watchdogStop := false })
      (.ensureCreate requestId)
| creates {s : Shared} (requestId : UInt32) :
    s.watchdogThread ≠ .joinable →
      Acts (.ensureCreate requestId) s
        (fun s =>
          { s with
            watchdogThread := .joinable
            live := true
            told := false })
        (.ensureUnlock requestId)
| sends {s : Shared} (requestId : UInt32) :
    Acts (.sending requestId) s id .rest
| throws {s : Shared} (requestId : UInt32) (e : Exception) :
    Acts (.sending requestId) s id
      (.lock (.failure requestId e))
| sets {s : Shared} :
    Acts .stopTest s
      (fun s => { s with watchdogStop := true }) .stopNotify
| finishes {s : Shared} :
    s.watchdogThread ≠ .joinable →
      Acts .stopTest s
        (fun s =>
          { s with
            watchdogThread := .empty
            watchdogStarted := false })
        .stopEnd
| joins {s : Shared} :
    s.live = false →
      Acts .stopJoin s
        (fun s => { s with watchdogThread := .joined })
        .stopRelock
| forgets {s : Shared} :
    s.watchdogThread ≠ .joinable →
      Acts .stopReset s
        (fun s =>
          { s with
            watchdogThread := .empty
            watchdogStarted := false })
        .stopEnd

inductive Notifies :
    Point → (Shared → Shared) → Point → Prop
| deadline (requestId : UInt32) :
    Notifies (.notifyDeadline requestId) id
      (.sending requestId)
| cleared (onIoThread : Bool) :
    Notifies (.notifyCleared onIoThread) id
      (if onIoThread then .rest else .stopLock)
| stop :
    Notifies .stopNotify (fun s => { s with told := true })
      .stopUnlock

/- Every operation of the program is one of these. -/
def IsOne (p : Point) (s : Shared) : ThreadOp → Prop
| .lock m next => Locks p m next
| .unlock m next => Unlocks p m next
| .act f next => Acts p s f next
| .notifyAll f next => Notifies p f next
| .wait m bound next =>
    p = .aboutToWait bound ∧ m = .pendingRequests ∧
      next = .test

theorem testLoop_isOne
    (now : TimePoint)
    (s : Shared) :
    IsOne .test s (testLoop now s) := by
  unfold testLoop
  split
  · next hStop => exact .stops hStop
  · next hStop =>
      have hRuns : s.watchdogStop = false := by
        simpa using hStop
      split
      · next hNone => exact .idles hRuns hNone
      · next earliest hEarliest =>
          split
          · exact .expires now
          · exact .sleeps hRuns hEarliest

theorem program_isOne
    {p : Point}
    {x : Input}
    {s : Shared}
    {op : ThreadOp}
    (hOp : program p x s = some op) :
    IsOne p s op := by
  unfold program at hOp
  split at hOp
  case h_3 =>
      cases hOp
      exact testLoop_isOne _ _
  -- the operations without a condition
  all_goals
    first
    | cases hOp; exact ⟨rfl, rfl, rfl⟩
    | cases hOp; constructor
    | cases hOp
    | split at hOp <;> cases hOp
  · next hLive => exact Acts.begins hLive
  · exact Acts.calls _
  · exact Acts.finds _
  · exact Acts.starts _
  · next hHandle => exact Acts.creates _ hHandle
  · exact Acts.sets
  · next hHandle => exact Acts.finishes hHandle
  · next hEnded => exact Acts.joins hEnded.2
  · next hHandle => exact Acts.forgets hHandle

theorem Visit.next_holds
    (v : Visit)
    (m : Mutex) :
    ¬ Holds v.next m := by
  cases v with
  | request requestId promise deadline =>
      cases deadline <;> cases m <;> exact id
  | failure | response | disconnect =>
      cases m <;> exact id

theorem disciplined : Disciplined program Holds where
  lock := by
    intro p x s m next hOp m'
    cases program_isOne hOp <;> cases m' <;>
      simp [Holds]
  unlock := by
    intro p x s m next hOp
    cases program_isOne hOp with
    | unlock v =>
        refine ⟨trivial, ?_⟩
        intro m'
        refine iff_of_false (v.next_holds m') ?_
        rintro ⟨hHeld, hOther⟩
        cases m' with
        | pendingRequests => exact hOther rfl
        | watchdog => exact hHeld
    | leave | ensureUnlock | stopUnlock | stopEnd =>
        refine ⟨trivial, ?_⟩
        intro m'
        cases m' <;> simp [Holds]
  act := by
    intro p x s f next hOp m'
    cases program_isOne hOp <;> cases m' <;>
      exact Iff.rfl
  notifyAll := by
    intro p x s f next hOp m'
    cases program_isOne hOp with
    | deadline requestId => cases m' <;> exact Iff.rfl
    | stop => cases m' <;> exact Iff.rfl
    | cleared onIoThread =>
        cases onIoThread <;> cases m' <;> exact Iff.rfl
  wait := by
    intro p x s m b next hOp
    rcases program_isOne hOp with ⟨rfl, rfl, rfl⟩
    refine ⟨trivial, ?_⟩
    intro m'
    cases m' <;> exact Iff.rfl

theorem owned_initial : Owned Holds initial where
  owner := by
    intro m i
    refine iff_of_false (by simp [initial]) ?_
    rintro ⟨hHeld, _⟩
    cases i <;> cases m <;> exact hHeld
  due := by
    intro i
    cases i <;> exact trivial

/-
  The pending requests are only written by the sections of
  the model without locks.
-/
theorem step_requests
    {s t : ClientState}
    {l : Label ThreadId Input}
    (hStep : ClientStep s l t) :
    t.shared.requests = s.shared.requests ∨
      ∃ visited : ClientRequestSection,
        t.shared.requests =
          (visited.apply s.shared.requests).2 := by
  cases hStep with
  | acts _ hOp =>
      cases program_isOne hOp with
      | visits v => exact .inr ⟨v.requestSection, rfl⟩
      | expires now => exact .inr ⟨.expires now, rfl⟩
      | _ => exact .inl rfl
  | notifies _ hOp =>
      cases program_isOne hOp <;> exact .inl rfl
  | _ => exact .inl rfl

------------------------------------------------------------
-- Deadlines
------------------------------------------------------------

/- A wait that is untimed or ends after a recorded deadline. -/
def Late (s : Shared) (bound : Option TimePoint) : Prop :=
  ∃ (requestId : UInt32) (deadline : TimePoint),
    s.requests.requestDeadlines[requestId]? =
        some deadline ∧
      ∀ t, bound = some t → deadline < t

/- A deadline has been recorded, its notification is to come. -/
def Owes : Point → Prop
| .unlock (.request _ _ (some _)) => True
| .ensure _ => True
| .ensureLock _ => True
| .ensureReset _ => True
| .ensureCreate _ => True
| .ensureUnlock _ => True
| .notifyDeadline _ => True
| _ => False

/- The bound that has been decided on. -/
def claims : Point → Option (Option TimePoint)
| .aboutToWait earliest => some earliest
| _ => none

theorem Visit.next_claims (v : Visit) :
    claims v.next = none := by
  cases v with
  | request requestId promise deadline =>
      cases deadline <;> rfl
  | failure | response | disconnect => rfl

/- One step of the loop over the deadlines. -/
def sooner
    (found : Option TimePoint)
    (entry : UInt32 × TimePoint) : Option TimePoint :=
  match found with
  | none => some entry.2
  | some earliest =>
      if entry.2 < earliest then
        some entry.2
      else
        some earliest

theorem sooner_le
    (found : Option TimePoint)
    (entry : UInt32 × TimePoint) :
    ∃ t, sooner found entry = some t ∧ t ≤ entry.2 ∧
      ∀ t', found = some t' → t ≤ t' := by
  unfold sooner
  cases found with
  | none => exact ⟨entry.2, rfl, le_refl _, by simp⟩
  | some earliest =>
      dsimp only
      split
      · next hLess =>
          refine ⟨entry.2, rfl, le_refl _, ?_⟩
          intro t' hSame
          cases hSame
          exact le_of_lt hLess
      · next hNot =>
          refine ⟨earliest, rfl, not_lt.mp hNot, ?_⟩
          intro t' hSame
          cases hSame
          exact le_refl _

theorem foldl_sooner
    (entries : List (UInt32 × TimePoint))
    (found : Option TimePoint) :
    (∀ entry ∈ entries,
        ∃ t, entries.foldl sooner found = some t ∧
          t ≤ entry.2) ∧
      ∀ t', found = some t' →
        ∃ t, entries.foldl sooner found = some t ∧
          t ≤ t' := by
  induction entries generalizing found with
  | nil =>
      refine ⟨by simp, ?_⟩
      intro t' hFound
      exact ⟨t', hFound, le_refl t'⟩
  | cons entry entries ih =>
      rcases sooner_le found entry with
        ⟨t, hSooner, hEntry, hFound⟩
      rcases ih (sooner found entry) with ⟨hRest, hStart⟩
      rcases hStart t hSooner with ⟨best, hBest, hLe⟩
      rw [List.foldl_cons]
      constructor
      · intro entry' hMem
        rcases List.mem_cons.mp hMem with hHere | hLater
        · subst hHere
          exact ⟨best, hBest, le_trans hLe hEntry⟩
        · exact hRest entry' hLater
      · intro t' hSome
        exact ⟨best, hBest, le_trans hLe (hFound t' hSome)⟩

/- Nothing is recorded before the earliest deadline. -/
theorem earliest_le
    {t : ClientRequestTable}
    {requestId : UInt32}
    {deadline : TimePoint}
    (hRecorded :
      t.requestDeadlines[requestId]? = some deadline) :
    ∃ earliest, t.earliest = some earliest ∧
      earliest ≤ deadline := by
  have hMem :
      (requestId, deadline) ∈ t.requestDeadlines.toList :=
    Std.ExtTreeMap.mem_toList_iff_getElem?_eq_some.mpr
      hRecorded
  exact (foldl_sooner t.requestDeadlines.toList none).1 _ hMem

/- So a wait until then is not late. -/
theorem not_late_earliest (s : Shared) :
    ¬ Late s s.requests.earliest := by
  rintro ⟨requestId, deadline, hRecorded, hLater⟩
  rcases earliest_le hRecorded with ⟨earliest, hSome, hLe⟩
  exact absurd (hLater earliest hSome) (not_lt.mpr hLe)

/- Which sections record a deadline. -/
def Visit.Records : Visit → Prop
| .request _ _ (some _) => True
| _ => False

/- All others leave only deadlines that were there. -/
theorem late_visit
    {v : Visit}
    {s : Shared}
    {bound : Option TimePoint}
    (hRecords : ¬ v.Records)
    (hLate : Late (s.visit v) bound) :
    Late s bound := by
  rcases hLate with ⟨requestId, deadline, hRecorded, hLater⟩
  refine ⟨requestId, deadline, ?_, hLater⟩
  cases v with
  | request requestId' promise deadline' =>
      cases deadline' with
      | none => exact hRecorded
      | some deadline' => exact absurd trivial hRecords
  | failure requestId' e =>
      exact (OrderedMap.of_getElem?_erase hRecorded).2
  | response requestId' payload =>
      simp only [Shared.visit, Visit.requestSection,
        ClientRequestSection.apply,
        ClientRequestTable.respond] at hRecorded
      split at hRecorded <;> exact hRecorded
  | disconnect onIoThread =>
      simp only [Shared.visit, Visit.requestSection,
        ClientRequestSection.apply,
        ClientRequestTable.disconnect] at hRecorded
      cases Std.ExtTreeMap.getElem?_empty.symm.trans hRecorded

theorem late_expire
    {now : TimePoint}
    {s : Shared}
    {bound : Option TimePoint}
    (hLate : Late (s.expire now) bound) :
    Late s bound := by
  rcases hLate with ⟨requestId, deadline, hRecorded, hLater⟩
  refine ⟨requestId, deadline, ?_, hLater⟩
  rcases ClientRequestTable.expire_settles now s.requests
    with ⟨done, hSettles, _⟩
  exact hSettles.deadlines ((), requestId) deadline hRecorded

theorem signals :
    Signals program Holds .pendingRequests Late Owes
      claims where
  holding := by
    intro p b hClaims
    cases p with
    | aboutToWait earliest => exact trivial
    | _ => cases hClaims
  lock := by
    intro p x s m next hOp
    cases program_isOne hOp <;> exact ⟨rfl, id⟩
  unlock := by
    intro p x s m next hOp
    cases program_isOne hOp with
    | unlock v =>
        refine ⟨v.next_claims, ?_⟩
        intro hOwes
        cases v with
        | request requestId promise deadline =>
            cases deadline with
            | none => exact hOwes
            | some deadline => exact trivial
        | failure | response | disconnect => cases hOwes
    | leave | ensureUnlock | stopUnlock | stopEnd =>
        exact ⟨rfl, id⟩
  act := by
    intro p x s f next hOp
    cases program_isOne hOp with
    | idles _ hNone =>
        refine ⟨?_, fun _ hLate => .inl hLate, id⟩
        intro b hClaims
        cases hClaims
        rw [← hNone]
        exact not_late_earliest s
    | sleeps _ hEarliest =>
        refine ⟨?_, fun _ hLate => .inl hLate, id⟩
        intro b hClaims
        cases hClaims
        rw [← hEarliest]
        exact not_late_earliest s
    | expires now =>
        exact
          ⟨by simp [claims],
            fun _ hLate => .inl (late_expire hLate), id⟩
    | visits v =>
        refine ⟨by simp [claims], ?_, False.elim⟩
        intro b hLate
        by_cases hRecords : v.Records
        · refine .inr ⟨trivial, ?_⟩
          cases v with
          | request requestId promise deadline =>
              cases deadline with
              | none => exact hRecords
              | some deadline => exact trivial
          | failure | response | disconnect => cases hRecords
        · exact .inl (late_visit hRecords hLate)
    | _ =>
        exact
          ⟨by simp [claims], fun _ hLate => .inl hLate,
            by simp [Owes]⟩
  notifyAll := by
    intro p x s f next hOp
    cases program_isOne hOp with
    | cleared onIoThread =>
        cases onIoThread <;> exact ⟨rfl, fun _ => id⟩
    | _ => exact ⟨rfl, fun _ => id⟩
  wait := by
    intro p x s m b next hOp
    rcases program_isOne hOp with ⟨rfl, rfl, rfl⟩
    exact ⟨rfl, rfl, id⟩

theorem alert_initial : Alert Late Owes claims initial where
  window := by
    intro i b _ hClaims
    cases i <;> cases hClaims
  waiting := by
    intro i _
    cases i <;> rfl
  asleep := by
    intro i m b hMode
    cases i <;> cases hMode

/-
  Unless the notification of a deadline is still to come, no
  thread is blocked in a wait that is late for a deadline.
-/
def DeadlinesWatched (s : ClientState) : Prop :=
  (∀ i, ¬ Owes (s.threads i).point) →
    ∀ i m bound, (s.threads i).mode = .blocked m bound →
      ¬ Late s.shared bound

theorem deadlinesWatched
    {ls : List (Label ThreadId Input)}
    {s : ClientState}
    (hRun : StateMachine.Run ClientStep initial ls s) :
    DeadlinesWatched s := by
  have hInv : Owned Holds s ∧ Alert Late Owes claims s := by
    refine
      hRun.invariant
        (P := fun s =>
          Owned Holds s ∧ Alert Late Owes claims s)
        ?_ ⟨owned_initial, alert_initial⟩
    rintro t l u ⟨hOwned, hAlert⟩ hStep
    exact
      ⟨hOwned.step disciplined hStep,
        hAlert.step signals hOwned hStep⟩
  intro hNotified i m bound hBlocked hLate
  rcases hInv.2.asleep i m bound hBlocked hLate with
    ⟨j, hOwes⟩
  exact hNotified j hOwes

------------------------------------------------------------
-- The Watchdog Thread
------------------------------------------------------------

abbrev ClientThread : Type :=
  Thread Mutex Point (Option TimePoint)

def Point.ofWatchdog : Point → Bool
| .absent => true
| .enter => true
| .test => true
| .aboutToWait _ => true
| .leave => true
| .exit => true
| _ => false

/- It has decided to wait and does not wait yet. -/
def isAboutToWait (w : ClientThread) : Bool :=
  match w with
  | ⟨.aboutToWait _, .running⟩ => true
  | _ => false

/-
  The thread of the handle, as far as it has been told to
  stop: then it neither waits nor is about to.
-/
structure Obedient (w : ClientThread) (s : Shared) : Prop where
  own : w.point.ofWatchdog = true
  waiting : w.mode ≠ .running → w.point = .test
  live : w.point ≠ .absent → s.live = true
  handle : s.live = true → s.watchdogThread = .joinable
  heard :
    s.told = true → s.live = true →
      s.watchdogStop = true ∧
        (∀ m bound, w.mode ≠ .blocked m bound) ∧
          ∀ earliest, w.point ≠ .aboutToWait earliest

/- Once told it is not blocked, whether it has ended or not. -/
theorem Obedient.not_blocked
    {w : ClientThread}
    {s : Shared}
    (hObedient : Obedient w s)
    (hTold : s.told = true)
    (m : Mutex)
    (bound : Option TimePoint) :
    w.mode ≠ .blocked m bound := by
  intro hBlocked
  have hPoint : w.point = .test := by
    apply hObedient.waiting
    rw [hBlocked]
    simp
  have hLive : s.live = true := by
    apply hObedient.live
    rw [hPoint]
    exact Point.noConfusion
  exact (hObedient.heard hTold hLive).2.1 m bound hBlocked

/- A step of another thread, but for notifications. -/
theorem Obedient.other
    {w : ClientThread}
    {s : Shared}
    {p next : Point}
    {f : Shared → Shared}
    (hObedient : Obedient w s)
    (hActs : Acts p s f next)
    (hOther : p.ofWatchdog = false)
    (hReset :
      ∀ requestId, p = .ensureReset requestId →
        s.watchdogThread ≠ .joinable) :
    Obedient w (f s) := by
  rcases hObedient with
    ⟨hOwn, hWaiting, hLive, hHandle, hHeard⟩
  cases hActs with
  | begins | stops | idles | expires | sleeps | exits =>
      cases hOther
  | calls | visits | finds | starts | sends | throws =>
      exact ⟨hOwn, hWaiting, hLive, hHandle, hHeard⟩
  | resets requestId =>
      refine ⟨hOwn, hWaiting, hLive, hHandle, ?_⟩
      intro _ hAlive
      exact absurd (hHandle hAlive) (hReset requestId rfl)
  | creates requestId =>
      refine
        ⟨hOwn, hWaiting, fun _ => rfl, fun _ => rfl, ?_⟩
      intro hNever
      cases hNever
  | sets =>
      refine ⟨hOwn, hWaiting, hLive, hHandle, ?_⟩
      intro hTold hAlive
      exact ⟨rfl, (hHeard hTold hAlive).2⟩
  | finishes hNot =>
      refine ⟨hOwn, hWaiting, hLive, ?_, hHeard⟩
      intro hAlive
      exact absurd (hHandle hAlive) hNot
  | joins hEnded =>
      refine ⟨hOwn, hWaiting, hLive, ?_, hHeard⟩
      intro hAlive
      dsimp only at hAlive
      rw [hEnded] at hAlive
      cases hAlive
  | forgets hNot =>
      refine ⟨hOwn, hWaiting, hLive, ?_, hHeard⟩
      intro hAlive
      exact absurd (hHandle hAlive) hNot

/- A step of the thread itself. -/
theorem Obedient.acts
    {s : Shared}
    {p next : Point}
    {f : Shared → Shared}
    (hObedient : Obedient ⟨p, .running⟩ s)
    (hActs : Acts p s f next) :
    Obedient ⟨next, .running⟩ (f s) := by
  rcases hObedient with ⟨hOwn, _, hLive, hHandle, hHeard⟩
  have hRunning
      {t : Shared}
      {q : Point}
      (hPoint : q.ofWatchdog = true)
      (hAlive : q ≠ .absent → t.live = true)
      (hJoin : t.live = true → t.watchdogThread = .joinable)
      (hStop :
        t.told = true → t.live = true →
          t.watchdogStop = true ∧
            ∀ earliest, q ≠ .aboutToWait earliest) :
      Obedient ⟨q, .running⟩ t := by
    refine
      ⟨hPoint, fun hNot => absurd rfl hNot, hAlive, hJoin, ?_⟩
    intro hTold hNow
    rcases hStop hTold hNow with ⟨hSet, hNot⟩
    exact ⟨hSet, by simp, hNot⟩
  cases hActs with
  | begins hAlive =>
      refine hRunning rfl (fun _ => hAlive) hHandle ?_
      intro hTold hNow
      exact ⟨(hHeard hTold hNow).1, fun _ => Point.noConfusion⟩
  | stops hStop =>
      refine
        hRunning rfl (fun _ => hLive Point.noConfusion)
          hHandle ?_
      intro _ _
      exact ⟨hStop, fun _ => Point.noConfusion⟩
  | idles hRuns | sleeps hRuns =>
      refine
        hRunning rfl (fun _ => hLive Point.noConfusion)
          hHandle ?_
      intro hTold hNow
      have hStop := (hHeard hTold hNow).1
      rw [hRuns] at hStop
      cases hStop
  | expires now =>
      refine
        hRunning rfl (fun _ => hLive Point.noConfusion)
          hHandle ?_
      intro hTold hNow
      exact ⟨(hHeard hTold hNow).1, fun _ => Point.noConfusion⟩
  | exits =>
      refine hRunning rfl (fun hNot => absurd rfl hNot) ?_ ?_
      · intro hNever
        cases hNever
      · intro _ hNever
        cases hNever
  | _ => cases hOwn

/- The thread is at another point, where it does not wait. -/
theorem Obedient.goes
    {s : Shared}
    {p next : Point}
    {mode : Mode Mutex (Option TimePoint)}
    (hObedient : Obedient ⟨p, mode⟩ s)
    (hOwn : next.ofWatchdog = true)
    (hAbsent : p ≠ .absent)
    (hNot : ∀ earliest, next ≠ .aboutToWait earliest) :
    Obedient ⟨next, .running⟩ s where
  own := hOwn
  waiting := fun hNever => absurd rfl hNever
  live := fun _ => hObedient.live hAbsent
  handle := hObedient.handle
  heard := by
    intro hTold hNow
    exact
      ⟨(hObedient.heard hTold hNow).1, by simp, hNot⟩

/- The wait begins, unless the thread has been told to stop. -/
theorem Obedient.waits
    {s : Shared}
    {bound : Option TimePoint}
    (hObedient : Obedient ⟨.aboutToWait bound, .running⟩ s) :
    Obedient ⟨.test, .blocked .pendingRequests bound⟩ s where
  own := rfl
  waiting := fun _ => rfl
  live := fun _ => hObedient.live Point.noConfusion
  handle := hObedient.handle
  heard := by
    intro hTold hNow
    exact
      absurd rfl ((hObedient.heard hTold hNow).2.2 bound)

/- A notification, or the end of a wait. -/
theorem Obedient.wakes
    {w : ClientThread}
    {s : Shared}
    {mode : Mode Mutex (Option TimePoint)}
    (hObedient : Obedient w s)
    (hWaiting : mode ≠ .running → w.mode ≠ .running)
    (hAwake :
      ∀ m bound, mode = .blocked m bound →
        w.mode = .blocked m bound) :
    Obedient { w with mode := mode } s where
  own := hObedient.own
  waiting := fun hMode => hObedient.waiting (hWaiting hMode)
  live := hObedient.live
  handle := hObedient.handle
  heard := by
    intro hTold hNow
    rcases hObedient.heard hTold hNow with
      ⟨hStop, hNot, hPoint⟩
    refine ⟨hStop, ?_, hPoint⟩
    intro m bound hMode
    exact hNot m bound (hAwake m bound hMode)

theorem wake_running
    {mode : Mode Mutex (Option TimePoint)}
    (hMode : mode.wake ≠ .running) :
    mode ≠ .running := by
  rintro rfl
  exact hMode rfl

theorem wake_not_blocked
    {mode : Mode Mutex (Option TimePoint)}
    {m : Mutex}
    {bound : Option TimePoint} :
    mode.wake ≠ .blocked m bound := by
  cases mode <;> simp [Mode.wake]

/- The notification of `stop_watchdog` is heard. -/
theorem Obedient.told
    {w : ClientThread}
    {s : Shared}
    (hObedient : Obedient w s)
    (hStop : s.watchdogStop = true)
    (hHeeded : isAboutToWait w = false) :
    Obedient w.wake { s with told := true } where
  own := hObedient.own
  waiting := fun hMode =>
    hObedient.waiting (wake_running hMode)
  live := hObedient.live
  handle := hObedient.handle
  heard := by
    intro _ _
    refine ⟨hStop, fun _ _ => wake_not_blocked, ?_⟩
    intro earliest hPoint
    rcases w with ⟨p, mode⟩
    cases hPoint
    by_cases hMode : mode = .running
    · subst hMode
      cases hHeeded
    · cases hObedient.waiting hMode

------------------------------------------------------------
-- All Threads
------------------------------------------------------------

/-
  The notification of `stop_watchdog` does not fall between
  the test of the loop and its wait, and `ensure_watchdog`
  finds no thread that it would overwrite.
-/
def heeded (s : ClientState) : Label ThreadId Input → Bool
| .leave _ => true
| .step i _ =>
    match (s.threads i).point with
    | .stopNotify => !isAboutToWait (s.threads .watchdog)
    | .ensureReset _ => s.shared.watchdogThread ≠ .joinable
    | _ => true

/- Another thread never waits, and what it is about to tell. -/
structure Caller (t : ClientThread) (s : Shared) : Prop where
  own : t.point.ofWatchdog = false
  running : t.mode = .running
  stopping :
    t.point = .stopNotify → s.watchdogStop = true

structure Watched (s : ClientState) : Prop where
  owned : Owned Holds s
  watchdog : Obedient (s.threads .watchdog) s.shared
  callers : ∀ n, Caller (s.threads (.caller n)) s.shared

theorem watched_initial : Watched initial where
  owned := owned_initial
  watchdog := by
    refine ⟨rfl, fun hNever => absurd rfl hNever, ?_, ?_, ?_⟩
    · intro hNever
      exact absurd rfl hNever
    · intro hNever
      cases hNever
    · intro hNever
      cases hNever
  callers := fun _ => ⟨rfl, rfl, fun hNever => by cases hNever⟩

/- Where a step leads to is a point of the same kind. -/
theorem ofWatchdog_next
    {p : Point}
    {x : Input}
    {s : Shared}
    {op : ThreadOp}
    (hOp : program p x s = some op) :
    match op with
    | .lock _ next => next.ofWatchdog = p.ofWatchdog
    | .unlock _ next => next.ofWatchdog = p.ofWatchdog
    | .act _ next => next.ofWatchdog = p.ofWatchdog
    | .notifyAll _ next => next.ofWatchdog = p.ofWatchdog
    | .wait _ _ next => next.ofWatchdog = p.ofWatchdog := by
  have hOne := program_isOne hOp
  cases op with
  | lock | act => cases hOne <;> rfl
  | unlock m next =>
      cases hOne with
      | unlock v =>
          cases v with
          | request requestId promise deadline =>
              cases deadline <;> rfl
          | failure | response | disconnect => rfl
      | leave | ensureUnlock | stopUnlock | stopEnd => rfl
  | notifyAll f next =>
      cases hOne with
      | cleared onIoThread => cases onIoThread <;> rfl
      | deadline | stop => rfl
  | wait =>
      rcases hOne with ⟨rfl, rfl, rfl⟩
      rfl

theorem watchdog_ne {n : Nat} :
    ThreadId.watchdog ≠ .caller n :=
  ThreadId.noConfusion

/- The watchdog goes on, the others stay. -/
theorem Watched.watchdogGoes
    {s t : ClientState}
    {next : ClientThread}
    (hWatched : Watched s)
    (hOwned : Owned Holds t)
    (hThreads : t.threads = set s.threads .watchdog next)
    (hNext : Obedient next t.shared)
    (hStop :
      s.shared.watchdogStop = true →
        t.shared.watchdogStop = true) :
    Watched t where
  owned := hOwned
  watchdog := by
    rw [hThreads, set_same]
    exact hNext
  callers := by
    intro n
    rw [hThreads, set_other _ _ (by simp)]
    rcases hWatched.callers n with
      ⟨hOwn, hRunning, hStopping⟩
    exact
      ⟨hOwn, hRunning, fun hPoint => hStop (hStopping hPoint)⟩

/- Another thread goes on, and the watchdog may be woken. -/
theorem Watched.callerGoes
    {s t : ClientState}
    {n : Nat}
    {next : Point}
    (hWatched : Watched s)
    (hOwned : Owned Holds t)
    (hThread :
      t.threads (.caller n) = ⟨next, .running⟩)
    (hOthers :
      ∀ k, k ≠ n →
        t.threads (.caller k) = s.threads (.caller k))
    (hWatchdog : Obedient (t.threads .watchdog) t.shared)
    (hOwn : next.ofWatchdog = false)
    (hStopping :
      next = .stopNotify → t.shared.watchdogStop = true)
    (hKept :
      ∀ k, k ≠ n →
        (s.threads (.caller k)).point = .stopNotify →
          t.shared.watchdogStop = true) :
    Watched t where
  owned := hOwned
  watchdog := hWatchdog
  callers := by
    intro k
    by_cases hSame : k = n
    · subst hSame
      rw [hThread]
      exact ⟨hOwn, rfl, hStopping⟩
    · rw [hOthers k hSame]
      rcases hWatched.callers k with ⟨hOwn', hRunning, _⟩
      exact ⟨hOwn', hRunning, hKept k hSame⟩

/- Only `ensure_watchdog` takes the flag back. -/
theorem acts_stop
    {p next : Point}
    {s : Shared}
    {f : Shared → Shared}
    (hActs : Acts p s f next)
    (hStop : s.watchdogStop = true) :
    (f s).watchdogStop = true ∨
      ∃ requestId, p = .ensureReset requestId := by
  cases hActs with
  | resets requestId => exact .inr ⟨requestId, rfl⟩
  | _ => first | exact .inl hStop | exact .inl rfl

theorem acts_stopNotify
    {p next : Point}
    {s : Shared}
    {f : Shared → Shared}
    (hActs : Acts p s f next)
    (hNext : next = .stopNotify) :
    (f s).watchdogStop = true := by
  cases hActs with
  | sets => rfl
  | _ => cases hNext

/- While a thread stops the watchdog, no other takes it back. -/
theorem Watched.acts_kept
    {s : ClientState}
    {n k : Nat}
    {p next : Point}
    {f : Shared → Shared}
    (hWatched : Watched s)
    (hThread : s.threads (.caller n) = ⟨p, .running⟩)
    (hActs : Acts p s.shared f next)
    (hOther : k ≠ n)
    (hPoint : (s.threads (.caller k)).point = .stopNotify) :
    (f s.shared).watchdogStop = true := by
  rcases hWatched.callers k with ⟨_, hRunning, hStopping⟩
  rcases acts_stop hActs (hStopping hPoint) with
    hKept | ⟨requestId, rfl⟩
  · exact hKept
  · have hSame :
        ThreadId.caller k = ThreadId.caller n := by
      refine hWatched.owned.exclusive (m := .watchdog) ?_ ?_
      · refine ⟨?_, ?_⟩
        · rw [hPoint]
          exact trivial
        · rw [hRunning]
          exact trivial
      · rw [hThread]
        exact ⟨trivial, trivial⟩
    injection hSame with hSame
    exact absurd hSame hOther

/- The notification of a stop comes only after an act. -/
theorem next_stopNotify
    {p : Point}
    {x : Input}
    {s : Shared}
    {op : ThreadOp}
    (hOp : program p x s = some op) :
    match op with
    | .lock _ next => next ≠ .stopNotify
    | .unlock _ next => next ≠ .stopNotify
    | .act _ _ => True
    | .notifyAll _ next => next ≠ .stopNotify
    | .wait _ _ next => next ≠ .stopNotify := by
  have hOne := program_isOne hOp
  cases op with
  | lock => cases hOne <;> exact Point.noConfusion
  | unlock m next =>
      cases hOne with
      | unlock v =>
          cases v with
          | request requestId promise deadline =>
              cases deadline <;> exact Point.noConfusion
          | failure | response | disconnect =>
              exact Point.noConfusion
      | leave | ensureUnlock | stopUnlock | stopEnd =>
          exact Point.noConfusion
  | act => exact trivial
  | notifyAll f next =>
      cases hOne with
      | cleared onIoThread =>
          cases onIoThread <;> exact Point.noConfusion
      | deadline | stop => exact Point.noConfusion
  | wait =>
      rcases hOne with ⟨rfl, rfl, rfl⟩
      exact Point.noConfusion

/- A step of the watchdog. -/
theorem Watched.watchdogStep
    {s t : ClientState}
    {x : Input}
    (hWatched : Watched s)
    (hStep : ClientStep s (.step .watchdog x) t) :
    Watched t := by
  have hOwned := hWatched.owned.step disciplined hStep
  have hBefore := hWatched.watchdog
  cases hStep with
  | locks hThread hOp hFree =>
      rw [hThread] at hBefore
      refine hWatched.watchdogGoes hOwned rfl ?_ id
      have hOwn := hBefore.own
      cases program_isOne hOp with
      | enter =>
          exact
            hBefore.goes rfl Point.noConfusion
              (fun _ => Point.noConfusion)
      | _ => cases hOwn
  | returns hThread hFree =>
      refine hWatched.watchdogGoes hOwned rfl ?_ id
      rw [hThread] at hBefore
      exact
        hBefore.wakes (fun hNever => absurd rfl hNever)
          (fun _ _ hNever => by cases hNever)
  | unlocks hThread hOp =>
      rw [hThread] at hBefore
      refine hWatched.watchdogGoes hOwned rfl ?_ id
      have hOwn := hBefore.own
      cases program_isOne hOp with
      | leave =>
          exact
            hBefore.goes rfl Point.noConfusion
              (fun _ => Point.noConfusion)
      | _ => cases hOwn
  | acts hThread hOp =>
      rw [hThread] at hBefore
      have hActs := program_isOne hOp
      refine
        hWatched.watchdogGoes hOwned rfl (hBefore.acts hActs)
          ?_
      intro hStop
      rcases acts_stop hActs hStop with
        hKept | ⟨requestId, rfl⟩
      · exact hKept
      · cases hBefore.own
  | notifies hThread hOp =>
      rw [hThread] at hBefore
      have hOwn := hBefore.own
      cases program_isOne hOp <;> cases hOwn
  | waits hThread hOp =>
      rcases program_isOne hOp with ⟨rfl, rfl, rfl⟩
      rw [hThread] at hBefore
      exact
        hWatched.watchdogGoes hOwned rfl hBefore.waits id

/- A step of another thread. -/
theorem Watched.callerStep
    {s t : ClientState}
    {n : Nat}
    {x : Input}
    (hWatched : Watched s)
    (hStep : ClientStep s (.step (.caller n) x) t)
    (hHeeded : heeded s (.step (.caller n) x) = true) :
    Watched t := by
  simp only [heeded] at hHeeded
  have hOwned := hWatched.owned.step disciplined hStep
  have hCaller := hWatched.callers n
  have hOther (k : Nat) (hNot : k ≠ n) :
      ThreadId.caller k ≠ ThreadId.caller n := by
    simpa using hNot
  have hStopping (k : Nat) :=
    (hWatched.callers k).stopping
  cases hStep with
  | locks hThread hOp hFree =>
      rw [hThread] at hCaller
      refine
        hWatched.callerGoes hOwned (set_same _ _ _)
          (fun k hNot => set_other _ _ (hOther k hNot)) ?_ ?_
          (fun hNever =>
            absurd hNever (next_stopNotify hOp))
          (fun k _ => hStopping k)
      · dsimp only
        rw [set_other _ _ watchdog_ne]
        exact hWatched.watchdog
      · exact (ofWatchdog_next hOp).trans hCaller.own
  | returns hThread hFree =>
      have hRunning := hCaller.running
      rw [hThread] at hRunning
      cases hRunning
  | unlocks hThread hOp =>
      rw [hThread] at hCaller
      refine
        hWatched.callerGoes hOwned (set_same _ _ _)
          (fun k hNot => set_other _ _ (hOther k hNot)) ?_ ?_
          (fun hNever =>
            absurd hNever (next_stopNotify hOp))
          (fun k _ => hStopping k)
      · dsimp only
        rw [set_other _ _ watchdog_ne]
        exact hWatched.watchdog
      · exact (ofWatchdog_next hOp).trans hCaller.own
  | acts hThread hOp =>
      rw [hThread] at hCaller
      have hActs := program_isOne hOp
      refine
        hWatched.callerGoes hOwned (set_same _ _ _)
          (fun k hNot => set_other _ _ (hOther k hNot)) ?_ ?_
          (acts_stopNotify hActs)
          (fun k hNot => hWatched.acts_kept hThread hActs hNot)
      · dsimp only
        rw [set_other _ _ watchdog_ne]
        refine hWatched.watchdog.other hActs hCaller.own ?_
        rintro requestId rfl
        simpa [hThread] using hHeeded
      · exact (ofWatchdog_next hOp).trans hCaller.own
  | notifies hThread hOp =>
      have hWake (k : Nat) :
          (s.threads (.caller k)).wake =
            s.threads (.caller k) := by
        have hRunning := (hWatched.callers k).running
        simp only [Thread.wake, hRunning, Mode.wake]
        rw [← hRunning]
      have hPoint := hCaller.own
      rw [hThread] at hPoint
      refine
        hWatched.callerGoes (n := n) hOwned
          (set_same
            (fun j => (s.threads j).wake) (.caller n) _) ?_ ?_
          ((ofWatchdog_next hOp).trans hPoint)
          (fun hNever =>
            absurd hNever (next_stopNotify hOp)) ?_
      · intro k hNot
        dsimp only
        rw [set_other _ _ (hOther k hNot)]
        exact hWake k
      · dsimp only
        rw [set_other _ _ watchdog_ne]
        have hWoken :
            Obedient (s.threads .watchdog).wake s.shared :=
          hWatched.watchdog.wakes wake_running
            (fun _ _ hNever => absurd hNever wake_not_blocked)
        cases program_isOne hOp with
        | deadline | cleared => exact hWoken
        | stop =>
            refine hWatched.watchdog.told ?_ ?_
            · apply hCaller.stopping
              rw [hThread]
            · simpa [hThread] using hHeeded
      · intro k _ hAt
        have hStop := hStopping k hAt
        cases program_isOne hOp <;> exact hStop
  | waits hThread hOp =>
      rcases program_isOne hOp with ⟨rfl, rfl, rfl⟩
      rw [hThread] at hCaller
      cases hCaller.own

theorem Watched.step
    {s t : ClientState}
    {l : Label ThreadId Input}
    (hWatched : Watched s)
    (hStep : ClientStep s l t)
    (hHeeded : heeded s l = true) :
    Watched t := by
  cases l with
  | step i x =>
      cases i with
      | watchdog => exact hWatched.watchdogStep hStep
      | caller n => exact hWatched.callerStep hStep hHeeded
  | leave i =>
      have hOwned := hWatched.owned.step disciplined hStep
      cases hStep with
      | leaves hThread =>
          cases i with
          | watchdog =>
              have hBefore := hWatched.watchdog
              rw [hThread] at hBefore
              refine hWatched.watchdogGoes hOwned rfl ?_ id
              exact
                hBefore.wakes (fun _ => by simp)
                  (fun _ _ hNever => by cases hNever)
          | caller n =>
              have hRunning := (hWatched.callers n).running
              rw [hThread] at hRunning
              cases hRunning

/- Once told to stop, the watchdog is not blocked. -/
def StopHeard (s : ClientState) : Prop :=
  s.shared.told = true →
    ∀ m bound,
      (s.threads .watchdog).mode ≠ .blocked m bound

/-
  In every run no deadline is missed; and in every run whose
  steps heed the loop, the stop is not missed either.
-/
theorem watchdog_wakeups
    {ls : List (Label ThreadId Input)}
    {s : ClientState}
    (hRun : StateMachine.Run ClientStep initial ls s) :
    DeadlinesWatched s ∧
      (StateMachine.Run
          (fun s l t =>
            ClientStep s l t ∧ heeded s l = true)
          initial ls s →
        StopHeard s) := by
  constructor
  · exact deadlinesWatched hRun
  · intro hHeeded hTold m bound
    have hWatched : Watched s :=
      hHeeded.invariant
        (fun _ _ _ hBefore hStep =>
          hBefore.step hStep.1 hStep.2)
        watched_initial
    exact hWatched.watchdog.not_blocked hTold m bound

/-
  A notification that does not heed the loop is missed with
  the next step of the watchdog.
-/
theorem missed_of_unheeded
    {s t : ClientState}
    {i : ThreadId}
    {x : Input}
    (hStep : ClientStep s (.step i x) t)
    (hThread : s.threads i = ⟨.stopNotify, .running⟩)
    (hWindow : isAboutToWait (s.threads .watchdog) = true) :
    ∃ u, ClientStep t (.step .watchdog .go) u ∧
      ¬ StopHeard u := by
  rcases hWatchdog : s.threads .watchdog with ⟨p, mode⟩
  rw [hWatchdog] at hWindow
  unfold isAboutToWait at hWindow
  split at hWindow
  · next earliest hSame =>
      cases hSame
      have hOther : ThreadId.watchdog ≠ i := by
        rintro rfl
        rw [hWatchdog] at hThread
        cases hThread
      cases hStep with
      | notifies hBefore hOp =>
          rw [hThread] at hBefore
          cases hBefore
          cases program_isOne hOp
          have hThere :
              (set (fun j => (s.threads j).wake) i
                  ⟨.stopUnlock, .running⟩ .watchdog :
                ClientThread) =
                ⟨.aboutToWait earliest, .running⟩ := by
            rw [set_other _ _ hOther, hWatchdog]
            rfl
          refine ⟨_, .waits hThere rfl, ?_⟩
          intro hHeard
          exact
            hHeard rfl .pendingRequests earliest
              (by simp)
      | returns hBefore =>
          rw [hThread] at hBefore
          cases hBefore
      | locks hBefore hOp | unlocks hBefore hOp
      | acts hBefore hOp =>
          rw [hThread] at hBefore
          cases hBefore
          cases program_isOne hOp
      | waits hBefore hOp =>
          rw [hThread] at hBefore
          cases hBefore
          cases (program_isOne hOp).1
  · cases hWindow

------------------------------------------------------------
-- A Missed Stop
------------------------------------------------------------

/- Steps of one other thread, and of the watchdog. -/
def callerSteps (k : Nat) : List (Label ThreadId Input) :=
  List.replicate k (.step (.caller 0) .go)

def watchdogEnters : List (Label ThreadId Input) :=
  [.step .watchdog .go, .step .watchdog .go]

def watchdogDecides : List (Label ThreadId Input) :=
  [.step .watchdog (.clock 0), .step .watchdog .go]

/- A request with a deadline creates the watchdog. -/
def requestMade : List (Label ThreadId Input) :=
  .step (.caller 0) (.call (.request 7 0 (some 100))) ::
    callerSteps 10

/- `disconnect` until `stop_watchdog` begins. -/
def disconnectBegun : List (Label ThreadId Input) :=
  .step (.caller 0) (.call (.disconnect false)) ::
    callerSteps 4

/-
  The loop finds the flag unset and no deadline; the flag is
  set and notified; then the loop waits.
-/
def missedRun : List (Label ThreadId Input) :=
  requestMade ++ disconnectBegun ++ watchdogEnters ++
    [.step .watchdog (.clock 0)] ++ callerSteps 3 ++
    [.step .watchdog .go]

/- The loop waits already when it is notified. -/
def heardRun : List (Label ThreadId Input) :=
  requestMade ++ disconnectBegun ++ watchdogEnters ++
    watchdogDecides ++ callerSteps 3

/- A step that heeds the loop, if it can be taken. -/
def execHeeded
    (s : ClientState)
    (l : Label ThreadId Input) : Option ClientState :=
  if heeded s l then exec program s l else none

theorem step_of_execHeeded
    (s : ClientState)
    (l : Label ThreadId Input)
    (t : ClientState)
    (hExec : execHeeded s l = some t) :
    ClientStep s l t ∧ heeded s l = true := by
  unfold execHeeded at hExec
  split at hExec
  · next hHeeded => exact ⟨step_of_exec hExec, hHeeded⟩
  · cases hExec

theorem clientStep_of_exec
    (s : ClientState)
    (l : Label ThreadId Input)
    (t : ClientState)
    (hExec : exec program s l = some t) :
    ClientStep s l t :=
  step_of_exec hExec

/- The last state of a run, with a property of it. -/
theorem reached_of
    (exec :
      ClientState → Label ThreadId Input →
        Option ClientState)
    (ls : List (Label ThreadId Input))
    (P : ClientState → Bool)
    (hReached :
      (ls.foldlM exec initial).any P = true) :
    ∃ s, ls.foldlM exec initial = some s ∧ P s = true := by
  cases hLast : ls.foldlM exec initial with
  | none =>
      rw [hLast] at hReached
      cases hReached
  | some s =>
      rw [hLast] at hReached
      exact ⟨s, rfl, hReached⟩

/- The watchdog has waited, been told to stop, and woken up. -/
set_option maxRecDepth 8000 in
theorem watchdog_wakeups_heard :
    ∃ s,
      s.shared.told = true ∧ DeadlinesWatched s ∧
        StopHeard s := by
  rcases reached_of execHeeded heardRun
      (fun s => s.shared.told) (by decide) with
    ⟨s, hExec, hTold⟩
  have hRun :=
    StateMachine.run_of_foldlM step_of_execHeeded hExec
  have hSteps :
      StateMachine.Run ClientStep initial heardRun s :=
    hRun.mono (fun _ _ _ hStep => hStep.1)
  have hWakeups := watchdog_wakeups hSteps
  exact ⟨s, hTold, hWakeups.1, hWakeups.2 hRun⟩

/- The watchdog waits after it has been told to stop. -/
set_option maxRecDepth 8000 in
theorem stop_missed :
    ∃ s,
      StateMachine.Run ClientStep initial missedRun s ∧
        s.shared.watchdogStop = true ∧ s.shared.told = true ∧
          (s.threads .watchdog).mode =
            .blocked .pendingRequests none := by
  rcases reached_of (exec program) missedRun
      (fun s =>
        s.shared.watchdogStop && s.shared.told &&
          decide
            ((s.threads .watchdog).mode =
              .blocked .pendingRequests none))
      (by decide) with
    ⟨s, hExec, hLast⟩
  simp only [Bool.and_eq_true, decide_eq_true_eq] at hLast
  rcases hLast with ⟨⟨hStop, hTold⟩, hBlocked⟩
  have hRun :
      StateMachine.Run ClientStep initial missedRun s :=
    StateMachine.run_of_foldlM clientStep_of_exec hExec
  exact ⟨s, hRun, hStop, hTold, hBlocked⟩

end WatchdogWakeups

end ObscuraProto
