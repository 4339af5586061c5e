import Mathlib.Data.List.Perm.Subperm
import ObscuraProto.Library.OneShot
import ObscuraProto.Library.Threads
import ObscuraProto.WsCommon

/-
  The life of a request promise, for either wrapper.

  A wrapper shows its pending requests as a table.  Code that
  makes requests goes through stages: it takes an id,
  registers its promise under it, and may have to withdraw
  it; other code may only settle promises.  From that follows
  what every interleaving does to promises.

  Key definitions include:
    * `RequestLifecycle.View`, `RequestLifecycle.Reason`
    * `RequestLifecycle.Follows`, `RequestLifecycle.Serves`
    * `RequestLifecycle.Obeys`
    * `RequestLifecycle.Books`, `RequestLifecycle.Staffed`
    * `RequestLifecycle.Lawful`

  Key theorems include:
    * `RequestLifecycle.Obeys.accounted`
    * `RequestLifecycle.Obeys.lawful`
    * `RequestLifecycle.Obeys.followed`
-/

namespace ObscuraProto

namespace RequestLifecycle

open Effectful Threads OneShot

variable {σ χ κ η C α β : Type}

------------------------------------------------------------
-- Requests of a Wrapper
------------------------------------------------------------

/- A request is known by its connection and its id. -/
abbrev Key (C : Type) := C × UInt32

abbrev Pending (C : Type) :=
  OneShot.Table (Key C) PromiseId TimePoint

abbrev Registration (C : Type) :=
  OneShot.Request (Key C) PromiseId TimePoint

abbrev Completed (C : Type) :=
  OneShot.Settled (Key C) PromiseId (Except Exception Payload)

/- How the state and the effects show the requests. -/
structure View (σ χ C : Type) where
  table : σ → Pending C
  nextRequestId : σ → UInt32
  completion : χ → Option Completion

/- Why promises are completed. -/
inductive Reason (C : Type) where
| response (conn : C) (requestId : UInt32) (payload : Payload)
| expiry (now : TimePoint)
| failure (conn : C) (requestId : UInt32) (message : String)
| ending (message : String)

/- The results that a reason gives to the keys of a table. -/
def Reason.Explains
    (reason : Reason C)
    (t : Pending C)
    (key : Key C)
    (result : Except Exception Payload) : Prop :=
  match reason with
  | .response conn requestId payload =>
      key = (conn, requestId) ∧ result = .ok payload
  | .expiry now =>
      result = .error (.timeoutError "Request timed out") ∧
        ∃ d, t.deadline key = some d ∧ d ≤ now
  | .failure conn requestId message =>
      key = (conn, requestId) ∧
        result = .error (.logicError message)
  | .ending message =>
      result = .error (.runtimeError message)

def completionOf (s : Completed C) : Completion :=
  ⟨s.promise, s.result⟩

def View.completions
    (V : View σ χ C)
    (effects : List χ) : List Completion :=
  effects.filterMap V.completion

------------------------------------------------------------
-- Steps on the Requests
------------------------------------------------------------

variable (V : View σ χ C)

/- The requests are not concerned. -/
structure Keeps (s : σ) (effects : List χ) (t : σ) : Prop where
  table : V.table t = V.table s
  nextRequestId : V.nextRequestId t = V.nextRequestId s
  completions : V.completions effects = []

/- An id is taken. -/
structure Takes (s : σ) (effects : List χ) (t : σ) : Prop where
  table : V.table t = V.table s
  nextRequestId : V.nextRequestId t = V.nextRequestId s + 1
  completions : V.completions effects = []

/- A promise is registered. -/
structure Adds
    (r : Registration C)
    (s : σ)
    (effects : List χ)
    (t : σ) : Prop where
  table : Registers r (V.table s) (V.table t)
  nextRequestId : V.nextRequestId t = V.nextRequestId s
  completions : V.completions effects = []

/- Promises are completed for a reason. -/
structure Completes
    (reason : Reason C)
    (s : σ)
    (effects : List χ)
    (t : σ) : Prop where
  table :
    ∃ done : List (Completed C),
      Settles (reason.Explains (V.table s)) (V.table s) done
          (V.table t) ∧
        V.completions effects = done.map completionOf
  nextRequestId : V.nextRequestId t = V.nextRequestId s

/- A step of code that makes no requests. -/
inductive Serves
    (may : Reason C → Prop)
    (s : σ)
    (effects : List χ)
    (t : σ) : Prop
| keeps : Keeps V s effects t → Serves may s effects t
| completes
    {reason : Reason C} :
    may reason → Completes V reason s effects t →
      Serves may s effects t

------------------------------------------------------------
-- Code That Makes a Request
------------------------------------------------------------

inductive Stage (C : Type) where
| begun
| taken (requestId : UInt32)
| registered (conn : C) (requestId : UInt32)

/- The code of a request goes through the stages in order. -/
inductive Follows
    (promise : PromiseId) :
    Stage C → Action Exception χ σ α → Prop
| done
    (stage : Stage C)
    (result : Except Exception α) :
    Follows promise stage (.done result)
| keeps
    {stage : Stage C}
    {effects : σ → List χ}
    {next : σ → σ}
    {rest : σ → Action Exception χ σ α} :
    (∀ s, Keeps V s (effects s) (next s)) →
      (∀ s, Follows promise stage (rest s)) →
        Follows promise stage (.step effects next rest)
| takes
    {effects : σ → List χ}
    {next : σ → σ}
    {rest : σ → Action Exception χ σ α} :
    (∀ s, Takes V s (effects s) (next s)) →
      (∀ s,
        Follows promise (.taken (V.nextRequestId s))
          (rest s)) →
        Follows promise .begun (.step effects next rest)
| adds
    {conn : C}
    {requestId : UInt32}
    {deadline : Option TimePoint}
    {effects : σ → List χ}
    {next : σ → σ}
    {rest : σ → Action Exception χ σ α} :
    (∀ s,
      Adds V ⟨(conn, requestId), promise, deadline⟩ s
        (effects s) (next s)) →
      (∀ s,
        Follows promise (.registered conn requestId)
          (rest s)) →
        Follows promise (.taken requestId)
          (.step effects next rest)
| fails
    {conn : C}
    {requestId : UInt32}
    {message : String}
    {effects : σ → List χ}
    {next : σ → σ}
    {rest : σ → Action Exception χ σ α} :
    (∀ s,
      Completes V (.failure conn requestId message) s
        (effects s) (next s)) →
      (∀ s,
        Follows promise (.registered conn requestId)
          (rest s)) →
        Follows promise (.registered conn requestId)
          (.step effects next rest)

namespace Follows

variable {V}
variable {promise : PromiseId}
variable {stage : Stage C}

/- First a part that does not concern the requests. -/
theorem keeps_bind
    {act : Action Exception χ σ α}
    {f : α → Action Exception χ σ β}
    (hAct : Ensures (Keeps V) act)
    (hNext : ∀ a, Follows V promise stage (f a)) :
    Follows V promise stage (act >>= f) := by
  induction hAct with
  | done result =>
      cases result with
      | error e => exact .done stage (.error e)
      | ok a => exact hNext a
  | step hStep _ ih => exact .keeps hStep ih

theorem ofExcept_bind
    {x : Except Exception α}
    {f : α → Action Exception χ σ β}
    (hNext : ∀ a, Follows V promise stage (f a)) :
    Follows V promise stage (Action.ofExcept x >>= f) := by
  cases x with
  | error e => exact .done stage (.error e)
  | ok a => exact hNext a

/- The id that was taken is known to what follows. -/
theorem takes_bind
    {f : σ → Outcome Exception χ σ α}
    {g : α → Action Exception χ σ β}
    (hStep : ∀ s, Takes V s (f s).effects (f s).state)
    (hNext :
      ∀ s a, (f s).result = .ok a →
        Follows V promise (.taken (V.nextRequestId s))
          (g a)) :
    Follows V promise .begun (Action.atomic f >>= g) := by
  refine .takes hStep (fun s => ?_)
  simp only
  cases hResult : (f s).result with
  | error e => exact .done _ (.error e)
  | ok a => exact hNext s a hResult

theorem adds_bind
    {conn : C}
    {requestId : UInt32}
    {deadline : Option TimePoint}
    {f : σ → Outcome Exception χ σ α}
    {g : α → Action Exception χ σ β}
    (hStep :
      ∀ s,
        Adds V ⟨(conn, requestId), promise, deadline⟩ s
          (f s).effects (f s).state)
    (hNext :
      ∀ a,
        Follows V promise (.registered conn requestId)
          (g a)) :
    Follows V promise (.taken requestId)
      (Action.atomic f >>= g) := by
  refine .adds hStep (fun s => ?_)
  simp only
  cases (f s).result with
  | error e => exact .done _ (.error e)
  | ok a => exact hNext a

/- The result may be dropped. -/
theorem bind_pure
    {act : Action Exception χ σ α}
    (hAct : Follows V promise stage act)
    (b : β) :
    Follows V promise stage (act >>= fun _ => pure b) := by
  induction hAct with
  | done stage result =>
      cases result with
      | error e => exact .done stage (.error e)
      | ok a => exact .done stage (.ok b)
  | keeps hStep _ ih => exact .keeps hStep ih
  | takes hStep _ ih => exact .takes hStep ih
  | adds hStep _ ih => exact .adds hStep ih
  | fails hStep _ ih => exact .fails hStep ih

/- The handler knows what the guarded part throws. -/
theorem catchAll
    {P : Exception → Prop}
    {act : Action Exception χ σ α}
    {handler : Exception → Action Exception χ σ α}
    (hAct : Ensures (Keeps V) act)
    (hThrows : Throws P act)
    (hHandler :
      ∀ e, P e → Follows V promise stage (handler e)) :
    Follows V promise stage (act.catchAll handler) := by
  induction hAct with
  | done result =>
      cases hThrows with
      | returned a => exact .done stage (.ok a)
      | threw hException => exact hHandler _ hException
  | step hStep _ ih =>
      cases hThrows with
      | step hRest =>
          exact .keeps hStep (fun s => ih s (hRest s))

end Follows

------------------------------------------------------------
-- Programs
------------------------------------------------------------

abbrev History (σ χ : Type) := List (Transition σ χ)

abbrev RequestProgram (σ χ κ η : Type) :=
  Program Exception χ σ (History σ χ) κ η

abbrev RequestPool (σ χ κ η : Type) :=
  Pool Exception χ σ (History σ χ) κ η

/- The history is the list of all steps. -/
def note
    (s : σ)
    (effects : List χ)
    (t : σ)
    (history : History σ χ) : History σ χ :=
  history ++ [⟨s, effects, t⟩]

/-
  What a wrapper's code does to requests: `promiseOf` names
  the promise of a call that makes a request, and the rest
  of the code completes promises for known reasons.
-/
structure Obeys
    (program : RequestProgram σ χ κ η)
    (promiseOf : κ → Option PromiseId)
    (mayCall : κ → Reason C → Prop)
    (mayEvent :
      η → List (Transition σ χ) → Reason C → Prop) :
    Prop where
  noted : program.note = note
  request :
    ∀ k promise, promiseOf k = some promise →
      Follows V promise .begun (program.callCode k)
  other :
    ∀ k, promiseOf k = none →
      Ensures (Serves V (mayCall k)) (program.callCode k)
  event :
    ∀ e,
      Traces (fun _ => True)
        (fun trace => Serves V (mayEvent e trace))
        (fun _ => True) [] (program.eventCode e)
  silent :
    ∀ k conn requestId payload,
      ¬ mayCall k (.response conn requestId payload)

------------------------------------------------------------
-- The Books
------------------------------------------------------------

def completed (history : History σ χ) : List Completion :=
  V.completions (history.flatMap Transition.effects)

/- The step that registered a request under a free key. -/
structure RegisteredIn
    (r : Registration C)
    (m : Transition σ χ) : Prop where
  table : Registers r (V.table m.before) (V.table m.after)
  freePending : (V.table m.before).pending r.key = none
  freeDeadline : (V.table m.before).deadline r.key = none

/-
  Who has taken an id, in order, what was registered and what
  was completed, next to the state and the history.
-/
structure Books
    (takers : List PromiseId)
    (requests : List (Registration C))
    (done : List (Completed C))
    (s : σ)
    (history : History σ χ) : Prop where
  consistent : Consistent (V.table s) requests done
  log : completed V history = done.map completionOf
  counter : V.nextRequestId s = UInt32.ofNat takers.length
  recorded :
    ∀ r ∈ requests, ∃ m ∈ history, RegisteredIn V r m

namespace Books

variable {V}
variable {takers : List PromiseId}
variable {requests : List (Registration C)}
variable {done : List (Completed C)}
variable {s t : σ}
variable {effects : List χ}
variable {history : History σ χ}

theorem completed_note
    (s t : σ)
    (effects : List χ)
    (history : History σ χ) :
    completed V (note s effects t history) =
      completed V history ++ V.completions effects := by
  simp [completed, note, View.completions]

theorem keeps
    (hBooks : Books V takers requests done s history)
    (hStep : Keeps V s effects t) :
    Books V takers requests done t
      (note s effects t history) where
  consistent := by
    rw [hStep.table]
    exact hBooks.consistent
  log := by
    rw [completed_note, hStep.completions, List.append_nil]
    exact hBooks.log
  counter := hStep.nextRequestId.trans hBooks.counter
  recorded := by
    intro r hMem
    rcases hBooks.recorded r hMem with ⟨m, hStep, hIn⟩
    exact ⟨m, List.mem_append_left _ hStep, hIn⟩

theorem takes
    (hBooks : Books V takers requests done s history)
    (hStep : Takes V s effects t)
    (promise : PromiseId) :
    Books V (takers ++ [promise]) requests done t
      (note s effects t history) where
  consistent := by
    rw [hStep.table]
    exact hBooks.consistent
  log := by
    rw [completed_note, hStep.completions, List.append_nil]
    exact hBooks.log
  counter := by
    rw [hStep.nextRequestId, hBooks.counter,
      List.length_append, UInt32.ofNat_add]
    rfl
  recorded := by
    intro r hMem
    rcases hBooks.recorded r hMem with ⟨m, hStep, hIn⟩
    exact ⟨m, List.mem_append_left _ hStep, hIn⟩

theorem free
    (hBooks : Books V takers requests done s history)
    {key : Key C}
    (hKey : key ∉ requests.map Request.key) :
    (V.table s).pending key = none ∧
      (V.table s).deadline key = none := by
  constructor
  · cases hPending : (V.table s).pending key with
    | none => rfl
    | some p =>
        rcases (hBooks.consistent.pending key p hPending).1
          with ⟨r, hMem, hSame, _⟩
        rw [← hSame] at hKey
        exact absurd (List.mem_map_of_mem hMem) hKey
  · cases hDeadline : (V.table s).deadline key with
    | none => rfl
    | some d =>
        rcases hBooks.consistent.deadline key d hDeadline with
          ⟨r, hMem, hSame, _⟩
        rw [← hSame] at hKey
        exact absurd (List.mem_map_of_mem hMem) hKey

theorem adds
    {r : Registration C}
    (hBooks : Books V takers requests done s history)
    (hStep : Adds V r s effects t)
    (hKey : r.key ∉ requests.map Request.key)
    (hPromise : r.promise ∉ requests.map Request.promise) :
    Books V takers (requests ++ [r]) done t
      (note s effects t history) where
  consistent :=
    hBooks.consistent.register hStep.table hKey hPromise
  log := by
    rw [completed_note, hStep.completions, List.append_nil]
    exact hBooks.log
  counter := hStep.nextRequestId.trans hBooks.counter
  recorded := by
    intro r' hMem
    rcases List.mem_append.mp hMem with hOld | hNew
    · rcases hBooks.recorded r' hOld with ⟨m, hStep, hIn⟩
      exact ⟨m, List.mem_append_left _ hStep, hIn⟩
    · rw [List.mem_singleton.mp hNew]
      rcases hBooks.free hKey with ⟨hPending, hDeadline⟩
      exact
        ⟨⟨s, effects, t⟩, by simp [note], hStep.table,
          hPending, hDeadline⟩

theorem completes
    {reason : Reason C}
    (hBooks : Books V takers requests done s history)
    (hStep : Completes V reason s effects t) :
    ∃ done', Books V takers requests done' t
      (note s effects t history) := by
  rcases hStep.table with ⟨settled, hSettles, hCompletions⟩
  refine
    ⟨done ++ settled,
      { consistent := hBooks.consistent.settle hSettles
        log := ?_
        counter := hStep.nextRequestId.trans hBooks.counter
        recorded := ?_ }⟩
  · rw [completed_note, hCompletions, hBooks.log,
      List.map_append]
  · intro r hMem
    rcases hBooks.recorded r hMem with ⟨m, hStep, hIn⟩
    exact ⟨m, List.mem_append_left _ hStep, hIn⟩

end Books

------------------------------------------------------------
-- The Threads
------------------------------------------------------------

/- The promises of all calls that make requests. -/
def promises
    (promiseOf : κ → Option PromiseId)
    (p : RequestPool σ χ κ η) : List PromiseId :=
  (p.calls.map Thread.call).filterMap promiseOf

/- Which thread is where, and what it has contributed. -/
structure Staffed
    (promiseOf : κ → Option PromiseId)
    (mayCall : κ → Reason C → Prop)
    (mayEvent :
      η → List (Transition σ χ) → Reason C → Prop)
    (takers : List PromiseId)
    (requests : List (Registration C))
    (stages : PromiseId → Stage C)
    (p : RequestPool σ χ κ η) : Prop where
  nodup : takers.Nodup
  took :
    ∀ promise ∈ takers,
      promise ∈ promises promiseOf p ∧
        stages promise ≠ .begun
  absent :
    ∀ promise, promise ∉ promises promiseOf p →
      stages promise = .begun
  taken :
    ∀ promise requestId, stages promise = .taken requestId →
      ∃ j, takers[j]? = some promise ∧
        requestId = UInt32.ofNat j
  owned :
    ∀ r ∈ requests,
      (∃ j, takers[j]? = some r.promise ∧
          r.key.2 = UInt32.ofNat j) ∧
        ∃ conn requestId,
          stages r.promise = .registered conn requestId
  follows :
    ∀ (i : Nat) (thread : Thread Exception χ σ κ)
      (promise : PromiseId),
      p.calls[i]? = some thread →
        promiseOf thread.call = some promise →
          Follows V promise (stages promise) thread.code
  others :
    ∀ thread ∈ p.calls, promiseOf thread.call = none →
      Ensures (Serves V (mayCall thread.call)) thread.code
  events :
    ∀ thread, p.events = some thread →
      Traces (fun _ => True)
        (fun trace => Serves V (mayEvent thread.call trace))
        (fun _ => True) thread.trace thread.code

/- A promise has one call. -/
theorem call_unique
    {promiseOf : κ → Option PromiseId}
    {p : RequestPool σ χ κ η}
    (hNodup : (promises promiseOf p).Nodup)
    {i j : Nat}
    {thread thread' : Thread Exception χ σ κ}
    {promise : PromiseId}
    (hThread : p.calls[i]? = some thread)
    (hThread' : p.calls[j]? = some thread')
    (hPromise : promiseOf thread.call = some promise)
    (hPromise' : promiseOf thread'.call = some promise) :
    i = j := by
  unfold promises at hNodup
  rw [List.filterMap_map] at hNodup
  unfold List.Nodup at hNodup
  rw [List.pairwise_filterMap, List.pairwise_iff_getElem]
    at hNodup
  rcases List.getElem?_eq_some_iff.mp hThread with ⟨hi, hGet⟩
  rcases List.getElem?_eq_some_iff.mp hThread' with
    ⟨hj, hGet'⟩
  have hApart
      {a b : Nat}
      (ha : a < p.calls.length)
      (hb : b < p.calls.length)
      (hLess : a < b)
      (hLeft : promiseOf p.calls[a].call = some promise)
      (hRight : promiseOf p.calls[b].call = some promise) :
      False :=
    hNodup a b ha hb hLess promise hLeft promise hRight rfl
  rw [← hGet] at hPromise
  rw [← hGet'] at hPromise'
  rcases Nat.lt_trichotomy i j with hLess | hEq | hMore
  · exact (hApart hi hj hLess hPromise hPromise').elim
  · exact hEq
  · exact (hApart hj hi hMore hPromise' hPromise).elim

/- Steps of a thread do not change what was called. -/
theorem promises_set
    {promiseOf : κ → Option PromiseId}
    {p : RequestPool σ χ κ η}
    {i : Nat}
    {thread thread' : Thread Exception χ σ κ}
    (hThread : p.calls[i]? = some thread)
    (hCall : thread'.call = thread.call)
    (s : σ)
    (history : History σ χ) :
    promises promiseOf
        ({ p with
            shared := s
            history := history
            calls := p.calls.set i thread' } :
          RequestPool σ χ κ η) =
      promises promiseOf p := by
  unfold promises
  rw [Pool.map_call_set hThread hCall]

namespace Staffed

variable {V}
variable {promiseOf : κ → Option PromiseId}
variable {mayCall : κ → Reason C → Prop}
variable {mayEvent :
  η → List (Transition σ χ) → Reason C → Prop}
variable {takers : List PromiseId}
variable {requests : List (Registration C)}
variable {stages : PromiseId → Stage C}
variable {p : RequestPool σ χ κ η}
variable {i : Nat}
variable {thread : Thread Exception χ σ κ}
variable (thread' : Thread Exception χ σ κ)
variable {promise : PromiseId}

/- Every taker has a call of its own. -/
theorem length_le
    (hStaffed :
      Staffed V promiseOf mayCall mayEvent takers requests
        stages p) :
    takers.length ≤ (promises promiseOf p).length := by
  apply List.Subperm.length_le
  apply List.subperm_of_subset hStaffed.nodup
  intro promise hMem
  exact (hStaffed.took promise hMem).1

/- A step of code that makes no request. -/
theorem other
    (hStaffed :
      Staffed V promiseOf mayCall mayEvent takers requests
        stages p)
    (hThread : p.calls[i]? = some thread)
    (hNone : promiseOf thread.call = none)
    (hCall : thread'.call = thread.call)
    (hCode :
      Ensures (Serves V (mayCall thread.call)) thread'.code)
    (s : σ)
    (history : History σ χ) :
    Staffed V promiseOf mayCall mayEvent takers requests
      stages
      { p with
        shared := s
        history := history
        calls := p.calls.set i thread' } where
  nodup := hStaffed.nodup
  took := by
    intro promise hMem
    rw [promises_set hThread hCall]
    exact hStaffed.took promise hMem
  absent := by
    intro promise hAbsent
    rw [promises_set hThread hCall] at hAbsent
    exact hStaffed.absent promise hAbsent
  taken := hStaffed.taken
  owned := hStaffed.owned
  follows := by
    intro j other promise hOther hPromise
    simp only [List.getElem?_set] at hOther
    split at hOther
    · split at hOther
      · cases hOther
        rw [hCall, hNone] at hPromise
        cases hPromise
      · cases hOther
    · exact hStaffed.follows j other promise hOther hPromise
  others := by
    intro other hMem hOther
    rcases List.mem_or_eq_of_mem_set hMem with hOld | hNew
    · exact hStaffed.others other hOld hOther
    · rw [hNew, hCall]
      exact hCode
  events := hStaffed.events

/-
  A step of a request call to another stage; the other calls
  have other promises.
-/
theorem advance
    (hStaffed :
      Staffed V promiseOf mayCall mayEvent takers requests
        stages p)
    (hDistinct : (promises promiseOf p).Nodup)
    (hThread : p.calls[i]? = some thread)
    (hPromise : promiseOf thread.call = some promise)
    (hCall : thread'.call = thread.call)
    {stage : Stage C}
    (hCode : Follows V promise stage thread'.code)
    (takers' : List PromiseId)
    (requests' : List (Registration C))
    (hNodup : takers'.Nodup)
    (hTook :
      ∀ x ∈ takers', x ∈ promises promiseOf p ∧
        Function.update stages promise stage x ≠ .begun)
    (hTaken :
      ∀ x requestId,
        Function.update stages promise stage x =
            .taken requestId →
          ∃ j, takers'[j]? = some x ∧
            requestId = UInt32.ofNat j)
    (hOwned :
      ∀ r ∈ requests',
        (∃ j, takers'[j]? = some r.promise ∧
            r.key.2 = UInt32.ofNat j) ∧
          ∃ conn requestId,
            Function.update stages promise stage r.promise =
              .registered conn requestId)
    (s : σ)
    (history : History σ χ) :
    Staffed V promiseOf mayCall mayEvent takers' requests'
      (Function.update stages promise stage)
      { p with
        shared := s
        history := history
        calls := p.calls.set i thread' } where
  nodup := hNodup
  took := by
    intro x hMem
    rw [promises_set hThread hCall]
    exact hTook x hMem
  absent := by
    intro x hAbsent
    rw [promises_set hThread hCall] at hAbsent
    have hOther : x ≠ promise := by
      intro hSame
      apply hAbsent
      rw [hSame]
      exact
        List.mem_filterMap.mpr
          ⟨thread.call,
            List.mem_map_of_mem (List.mem_of_getElem? hThread),
            hPromise⟩
    rw [Function.update_of_ne hOther]
    exact hStaffed.absent x hAbsent
  taken := hTaken
  owned := hOwned
  follows := by
    intro j other x hOther hX
    simp only [List.getElem?_set] at hOther
    split at hOther
    · split at hOther
      · cases hOther
        rw [hCall, hPromise] at hX
        cases hX
        rw [Function.update_self]
        exact hCode
      · cases hOther
    · next hIndex =>
        have hDifferent : x ≠ promise := by
          intro hSame
          rw [hSame] at hX
          exact
            hIndex
              (call_unique hDistinct hThread hOther hPromise
                hX)
        rw [Function.update_of_ne hDifferent]
        exact hStaffed.follows j other x hOther hX
  others := by
    intro other hMem hOther
    rcases List.mem_or_eq_of_mem_set hMem with hOld | hNew
    · exact hStaffed.others other hOld hOther
    · rw [hNew, hCall, hPromise] at hOther
      cases hOther
  events := hStaffed.events

/- A step that stays in its stage. -/
theorem stay
    (hStaffed :
      Staffed V promiseOf mayCall mayEvent takers requests
        stages p)
    (hDistinct : (promises promiseOf p).Nodup)
    (hThread : p.calls[i]? = some thread)
    (hPromise : promiseOf thread.call = some promise)
    (hCall : thread'.call = thread.call)
    (hCode :
      Follows V promise (stages promise) thread'.code)
    (s : σ)
    (history : History σ χ) :
    Staffed V promiseOf mayCall mayEvent takers requests
      stages
      { p with
        shared := s
        history := history
        calls := p.calls.set i thread' } := by
  have hAdvance :=
    hStaffed.advance thread' hDistinct hThread hPromise hCall
      hCode takers requests hStaffed.nodup
      (by
        rw [Function.update_eq_self]
        exact hStaffed.took)
      (by
        rw [Function.update_eq_self]
        exact hStaffed.taken)
      (by
        rw [Function.update_eq_self]
        exact hStaffed.owned)
      s history
  rw [Function.update_eq_self] at hAdvance
  exact hAdvance

/- The next id is taken. -/
theorem take
    (hStaffed :
      Staffed V promiseOf mayCall mayEvent takers requests
        stages p)
    (hDistinct : (promises promiseOf p).Nodup)
    (hThread : p.calls[i]? = some thread)
    (hPromise : promiseOf thread.call = some promise)
    (hCall : thread'.call = thread.call)
    (hBegun : stages promise = .begun)
    (hCode :
      Follows V promise
        (.taken (UInt32.ofNat takers.length)) thread'.code)
    (s : σ)
    (history : History σ χ) :
    Staffed V promiseOf mayCall mayEvent
      (takers ++ [promise]) requests
      (Function.update stages promise
        (.taken (UInt32.ofNat takers.length)))
      { p with
        shared := s
        history := history
        calls := p.calls.set i thread' } := by
  have hNew : promise ∉ takers := by
    intro hMem
    exact (hStaffed.took promise hMem).2 hBegun
  apply
    hStaffed.advance thread' hDistinct hThread hPromise hCall
      hCode
  · rw [List.nodup_append']
    refine ⟨hStaffed.nodup, List.nodup_singleton _, ?_⟩
    intro x hOld hLast
    rw [List.mem_singleton.mp hLast] at hOld
    exact hNew hOld
  · intro x hMem
    rcases List.mem_append.mp hMem with hOld | hLast
    · have hOther : x ≠ promise := by
        intro hSame
        rw [hSame] at hOld
        exact hNew hOld
      rw [Function.update_of_ne hOther]
      exact hStaffed.took x hOld
    · rw [List.mem_singleton.mp hLast, Function.update_self]
      refine ⟨?_, by simp⟩
      exact
        List.mem_filterMap.mpr
          ⟨thread.call,
            List.mem_map_of_mem (List.mem_of_getElem? hThread),
            hPromise⟩
  · intro x requestId hStage
    by_cases hSame : x = promise
    · rw [hSame, Function.update_self] at hStage
      cases hStage
      exact ⟨takers.length, by simp [hSame], rfl⟩
    · rw [Function.update_of_ne hSame] at hStage
      rcases hStaffed.taken x requestId hStage with
        ⟨j, hGet, hId⟩
      refine ⟨j, ?_, hId⟩
      rw [List.getElem?_append_left
        (List.getElem?_eq_some_iff.mp hGet).1]
      exact hGet
  · intro r hMem
    rcases hStaffed.owned r hMem with
      ⟨⟨j, hGet, hId⟩, conn, requestId, hStage⟩
    have hOther : r.promise ≠ promise := by
      intro hSame
      rw [hSame, hBegun] at hStage
      cases hStage
    rw [Function.update_of_ne hOther]
    refine ⟨⟨j, ?_, hId⟩, conn, requestId, hStage⟩
    rw [List.getElem?_append_left
      (List.getElem?_eq_some_iff.mp hGet).1]
    exact hGet

/- A promise is registered under the id of its call. -/
theorem add
    (hStaffed :
      Staffed V promiseOf mayCall mayEvent takers requests
        stages p)
    (hDistinct : (promises promiseOf p).Nodup)
    (hThread : p.calls[i]? = some thread)
    (hPromise : promiseOf thread.call = some promise)
    (hCall : thread'.call = thread.call)
    {conn : C}
    {requestId : UInt32}
    {deadline : Option TimePoint}
    (hStage : stages promise = .taken requestId)
    (hCode :
      Follows V promise (.registered conn requestId)
        thread'.code)
    (s : σ)
    (history : History σ χ) :
    Staffed V promiseOf mayCall mayEvent takers
      (requests ++ [⟨(conn, requestId), promise, deadline⟩])
      (Function.update stages promise
        (.registered conn requestId))
      { p with
        shared := s
        history := history
        calls := p.calls.set i thread' } := by
  apply
    hStaffed.advance thread' hDistinct hThread hPromise hCall
      hCode
  · exact hStaffed.nodup
  · intro x hMem
    refine ⟨(hStaffed.took x hMem).1, ?_⟩
    by_cases hSame : x = promise
    · rw [hSame, Function.update_self]
      simp
    · rw [Function.update_of_ne hSame]
      exact (hStaffed.took x hMem).2
  · intro x id hTaken
    by_cases hSame : x = promise
    · rw [hSame, Function.update_self] at hTaken
      cases hTaken
    · rw [Function.update_of_ne hSame] at hTaken
      exact hStaffed.taken x id hTaken
  · intro r hMem
    rcases List.mem_append.mp hMem with hOld | hNew
    · rcases hStaffed.owned r hOld with
        ⟨hOwner, conn', id, hRegistered⟩
      have hOther : r.promise ≠ promise := by
        intro hSame
        rw [hSame, hStage] at hRegistered
        cases hRegistered
      rw [Function.update_of_ne hOther]
      exact ⟨hOwner, conn', id, hRegistered⟩
    · rw [List.mem_singleton.mp hNew, Function.update_self]
      exact
        ⟨hStaffed.taken promise requestId hStage, conn,
          requestId, rfl⟩

/- A promise is registered once. -/
theorem promise_fresh
    (hStaffed :
      Staffed V promiseOf mayCall mayEvent takers requests
        stages p)
    {requestId : UInt32}
    (hStage : stages promise = .taken requestId) :
    promise ∉ requests.map Request.promise := by
  intro hMem
  rcases List.mem_map.mp hMem with ⟨r, hRequest, hSame⟩
  rcases hStaffed.owned r hRequest with
    ⟨_, conn, id, hRegistered⟩
  rw [hSame, hStage] at hRegistered
  cases hRegistered

/- An id that was taken is registered by its taker only. -/
theorem key_fresh
    (hStaffed :
      Staffed V promiseOf mayCall mayEvent takers requests
        stages p)
    (hBound : (promises promiseOf p).length < 2 ^ 32)
    {requestId : UInt32}
    (hStage : stages promise = .taken requestId)
    (conn : C) :
    (conn, requestId) ∉ requests.map Request.key := by
  intro hMem
  rcases List.mem_map.mp hMem with ⟨r, hRequest, hSame⟩
  rcases hStaffed.owned r hRequest with
    ⟨⟨j, hGet, hId⟩, conn', id, hRegistered⟩
  rcases hStaffed.taken promise requestId hStage with
    ⟨j', hGet', hId'⟩
  have hLength := hStaffed.length_le
  have hj := (List.getElem?_eq_some_iff.mp hGet).1
  have hj' := (List.getElem?_eq_some_iff.mp hGet').1
  have hSize : UInt32.size = 2 ^ 32 := rfl
  have hIndex : j = j' := by
    have hEq : UInt32.ofNat j = UInt32.ofNat j' := by
      rw [← hId, ← hId', hSame]
    have hNat := congrArg UInt32.toNat hEq
    rw [UInt32.toNat_ofNat_of_lt' (by omega),
      UInt32.toNat_ofNat_of_lt' (by omega)] at hNat
    exact hNat
  rw [hIndex, hGet'] at hGet
  cases hGet
  rw [hStage] at hRegistered
  cases hRegistered

end Staffed

------------------------------------------------------------
-- Steps of the Pool
------------------------------------------------------------

section Steps

variable (promiseOf : κ → Option PromiseId)
variable (mayCall : κ → Reason C → Prop)
variable (mayEvent :
  η → List (Transition σ χ) → Reason C → Prop)

/- Whose step it is that completes promises. -/
inductive Authority
    (p : RequestPool σ χ κ η) : Reason C → Prop
| failure
    (conn : C)
    (requestId : UInt32)
    (message : String) :
    Authority p (.failure conn requestId message)
| call
    {thread : Thread Exception χ σ κ}
    {reason : Reason C} :
    thread ∈ p.calls → mayCall thread.call reason →
      Authority p reason
| event
    {thread : Thread Exception χ σ η}
    {reason : Reason C} :
    p.events = some thread →
      mayEvent thread.call thread.trace reason →
        Authority p reason

/- What one step of the pool does to the requests. -/
inductive Move
    (p q : RequestPool σ χ κ η) : Prop
| idle :
    q.shared = p.shared → q.history = p.history → Move p q
| undisturbed
    (effects : List χ) :
    q.history = note p.shared effects q.shared p.history →
      V.table q.shared = V.table p.shared →
        V.completions effects = [] → Move p q
| adds
    {r : Registration C}
    {effects : List χ} :
    q.history = note p.shared effects q.shared p.history →
      Adds V r p.shared effects q.shared →
        (V.table p.shared).pending r.key = none → Move p q
| completes
    {reason : Reason C}
    {effects : List χ} :
    q.history = note p.shared effects q.shared p.history →
      Authority mayCall mayEvent p reason →
        Completes V reason p.shared effects q.shared →
          Move p q

/- Books are kept and every thread is accounted for. -/
def Accounted (p : RequestPool σ χ κ η) : Prop :=
  ∃ takers requests done stages,
    Books V takers requests done p.shared p.history ∧
      Staffed V promiseOf mayCall mayEvent takers requests
        stages p

end Steps

namespace Obeys

variable {V}
variable {program : RequestProgram σ χ κ η}
variable {promiseOf : κ → Option PromiseId}
variable {mayCall : κ → Reason C → Prop}
variable {mayEvent :
  η → List (Transition σ χ) → Reason C → Prop}

/- A call after one more step. -/
abbrev stepped
    (s : σ)
    (thread : Thread Exception χ σ κ)
    (effects : List χ)
    (t : σ)
    (rest : Action Exception χ σ Unit) :
    Thread Exception χ σ κ :=
  { thread with
    trace := thread.trace ++ [⟨s, effects, t⟩]
    code := rest }

/- What the pool is like after a step of one call. -/
abbrev afterCall
    (p : RequestPool σ χ κ η)
    (i : Nat)
    (thread : Thread Exception χ σ κ)
    (effects : List χ)
    (t : σ)
    (rest : Action Exception χ σ Unit) :
    RequestPool σ χ κ η :=
  { p with
    shared := t
    history := note p.shared effects t p.history
    calls :=
      p.calls.set i (stepped p.shared thread effects t rest) }

/- A call that makes no request takes a step. -/
theorem step_other
    {p : RequestPool σ χ κ η}
    {i : Nat}
    {thread : Thread Exception χ σ κ}
    {effects : σ → List χ}
    {next : σ → σ}
    {rest : σ → Action Exception χ σ Unit}
    (hAccounted : Accounted V promiseOf mayCall mayEvent p)
    (hThread : p.calls[i]? = some thread)
    (hCode : thread.code = .step effects next rest)
    (hNone : promiseOf thread.call = none) :
    let q :=
      afterCall p i thread (effects p.shared)
        (next p.shared) (rest p.shared)
    Accounted V promiseOf mayCall mayEvent q ∧
      Move V mayCall mayEvent p q := by
  rcases hAccounted with
    ⟨takers, requests, done, stages, hBooks, hStaffed⟩
  have hMem := List.mem_of_getElem? hThread
  have hServes := hStaffed.others thread hMem hNone
  rw [hCode] at hServes
  cases hServes with
  | step hStep hRest =>
      have hAfter :=
        hStaffed.other
          (stepped p.shared thread (effects p.shared)
            (next p.shared) (rest p.shared))
          hThread hNone rfl (hRest p.shared) (next p.shared)
          (note p.shared (effects p.shared) (next p.shared)
            p.history)
      cases hStep p.shared with
      | keeps hKeeps =>
          exact
            ⟨⟨takers, requests, done, stages,
                hBooks.keeps hKeeps, hAfter⟩,
              .undisturbed _ rfl hKeeps.table
                hKeeps.completions⟩
      | completes hMay hCompletes =>
          rcases hBooks.completes hCompletes with
            ⟨done', hBooks'⟩
          exact
            ⟨⟨takers, requests, done', stages, hBooks',
                hAfter⟩,
              .completes rfl (.call hMem hMay) hCompletes⟩

/- A call that makes a request takes a step. -/
theorem step_request
    {p : RequestPool σ χ κ η}
    {i : Nat}
    {thread : Thread Exception χ σ κ}
    {promise : PromiseId}
    {effects : σ → List χ}
    {next : σ → σ}
    {rest : σ → Action Exception χ σ Unit}
    (hAccounted : Accounted V promiseOf mayCall mayEvent p)
    (hDistinct : (promises promiseOf p).Nodup)
    (hBound : (promises promiseOf p).length < 2 ^ 32)
    (hThread : p.calls[i]? = some thread)
    (hCode : thread.code = .step effects next rest)
    (hPromise : promiseOf thread.call = some promise) :
    let q :=
      afterCall p i thread (effects p.shared)
        (next p.shared) (rest p.shared)
    Accounted V promiseOf mayCall mayEvent q ∧
      Move V mayCall mayEvent p q := by
  rcases hAccounted with
    ⟨takers, requests, done, stages, hBooks, hStaffed⟩
  let thread' :=
    stepped p.shared thread (effects p.shared)
      (next p.shared) (rest p.shared)
  have hFollows :=
    hStaffed.follows i thread promise hThread hPromise
  rw [hCode] at hFollows
  generalize hStage : stages promise = stage at hFollows
  cases hFollows with
  | keeps hStep hRest =>
      have hKeeps := hStep p.shared
      rw [← hStage] at hRest
      exact
        ⟨⟨takers, requests, done, stages,
            hBooks.keeps hKeeps,
            hStaffed.stay thread' hDistinct hThread hPromise rfl
              (hRest p.shared) _ _⟩,
          .undisturbed _ rfl hKeeps.table
            hKeeps.completions⟩
  | takes hStep hRest =>
      have hTakes := hStep p.shared
      have hNext := hRest p.shared
      rw [hBooks.counter] at hNext
      exact
        ⟨⟨takers ++ [promise], requests, done, _,
            hBooks.takes hTakes promise,
            hStaffed.take thread' hDistinct hThread hPromise rfl
              hStage hNext _ _⟩,
          .undisturbed _ rfl hTakes.table
            hTakes.completions⟩
  | adds hStep hRest =>
      have hAdds := hStep p.shared
      have hKey := hStaffed.key_fresh hBound hStage
      have hFresh := hStaffed.promise_fresh hStage
      exact
        ⟨⟨takers, _, done, _,
            hBooks.adds hAdds (hKey _) hFresh,
            hStaffed.add thread' hDistinct hThread hPromise rfl
              hStage (hRest p.shared) _ _⟩,
          .adds rfl hAdds (hBooks.free (hKey _)).1⟩
  | fails hStep hRest =>
      have hCompletes := hStep p.shared
      rcases hBooks.completes hCompletes with
        ⟨done', hBooks'⟩
      rw [← hStage] at hRest
      exact
        ⟨⟨takers, requests, done', stages, hBooks',
            hStaffed.stay thread' hDistinct hThread hPromise rfl
              (hRest p.shared) _ _⟩,
          .completes rfl (.failure _ _ _) hCompletes⟩

theorem stepCall
    (hObeys : Obeys V program promiseOf mayCall mayEvent)
    {p : RequestPool σ χ κ η}
    (hAccounted : Accounted V promiseOf mayCall mayEvent p)
    (hDistinct : (promises promiseOf p).Nodup)
    (hBound : (promises promiseOf p).length < 2 ^ 32)
    (i : Nat) :
    Accounted V promiseOf mayCall mayEvent
        (p.stepCall program i) ∧
      Move V mayCall mayEvent p
        (p.stepCall program i) := by
  have hIdle
      (hEnded :
        ∀ thread, p.calls[i]? = some thread →
          ∃ result, thread.code = .done result) :
      Accounted V promiseOf mayCall mayEvent
          (p.stepCall program i) ∧
        Move V mayCall mayEvent p
          (p.stepCall program i) := by
    rw [Pool.stepCall_ended program hEnded]
    exact ⟨hAccounted, .idle rfl rfl⟩
  cases hThread : p.calls[i]? with
  | none =>
      apply hIdle
      intro thread hSome
      rw [hThread] at hSome
      cases hSome
  | some thread =>
      cases hCode : thread.code with
      | done result =>
          apply hIdle
          intro thread' hSome
          rw [hThread] at hSome
          cases hSome
          exact ⟨result, hCode⟩
      | step effects next rest =>
          rw [Pool.stepCall_running program hThread hCode,
            hObeys.noted]
          cases hPromise : promiseOf thread.call with
          | none =>
              exact
                step_other hAccounted hThread hCode hPromise
          | some promise =>
              exact
                step_request hAccounted hDistinct hBound
                  hThread hCode hPromise

theorem stepEvent
    (hObeys : Obeys V program promiseOf mayCall mayEvent)
    {p : RequestPool σ χ κ η}
    (hAccounted : Accounted V promiseOf mayCall mayEvent p) :
    Accounted V promiseOf mayCall mayEvent
        (p.stepEvent program) ∧
      Move V mayCall mayEvent p
        (p.stepEvent program) := by
  unfold Pool.stepEvent
  cases hEvents : p.events with
  | none => exact ⟨hAccounted, .idle rfl rfl⟩
  | some thread =>
      rcases hAccounted with
        ⟨takers, requests, done, stages, hBooks, hStaffed⟩
      have hTraces := hStaffed.events thread hEvents
      have hSame
          (thread' : Thread Exception χ σ η)
          (hCall : thread'.call = thread.call)
          (hCode :
            Traces (fun _ => True)
              (fun trace =>
                Serves V (mayEvent thread.call trace))
              (fun _ => True) thread'.trace thread'.code)
          (t : σ)
          (history : History σ χ) :
          Staffed V promiseOf mayCall mayEvent takers
            requests stages
            { p with
              shared := t
              history := history
              events := some thread' } :=
        { nodup := hStaffed.nodup
          took := hStaffed.took
          absent := hStaffed.absent
          taken := hStaffed.taken
          owned := hStaffed.owned
          follows := hStaffed.follows
          others := hStaffed.others
          events := by
            intro thread'' hThread
            cases hThread
            rw [hCall]
            exact hCode }
      cases hCode : thread.code with
      | done result =>
          simp only [Pool.advance, hCode]
          exact
            ⟨⟨takers, requests, done, stages, hBooks,
                hSame thread rfl hTraces _ _⟩,
              .idle rfl rfl⟩
      | step effects next rest =>
          simp only [Pool.advance, hCode, hObeys.noted]
          rw [hCode] at hTraces
          cases hTraces with
          | step hStep hRest =>
              have hAfter :=
                hSame
                  { thread with
                    trace :=
                      thread.trace ++
                        [⟨p.shared, effects p.shared,
                          next p.shared⟩]
                    code := rest p.shared }
                  rfl (hRest p.shared trivial)
                  (next p.shared)
                  (note p.shared (effects p.shared)
                    (next p.shared) p.history)
              cases hStep p.shared trivial with
              | keeps hKeeps =>
                  exact
                    ⟨⟨takers, requests, done, stages,
                        hBooks.keeps hKeeps, hAfter⟩,
                      .undisturbed _ rfl hKeeps.table
                        hKeeps.completions⟩
              | completes hMay hCompletes =>
                  rcases hBooks.completes hCompletes with
                    ⟨done', hBooks'⟩
                  exact
                    ⟨⟨takers, requests, done', stages,
                        hBooks', hAfter⟩,
                      .completes rfl (.event hEvents hMay)
                        hCompletes⟩

/- A new call stands at the beginning. -/
theorem beginCall
    (hObeys : Obeys V program promiseOf mayCall mayEvent)
    {p : RequestPool σ χ κ η}
    (hAccounted : Accounted V promiseOf mayCall mayEvent p)
    (k : κ)
    (hDistinct :
      (promises promiseOf (p.exec program (.call k))).Nodup) :
    Accounted V promiseOf mayCall mayEvent
      (p.exec program (.call k)) := by
  rcases hAccounted with
    ⟨takers, requests, done, stages, hBooks, hStaffed⟩
  have hPromises :
      promises promiseOf (p.exec program (.call k)) =
        promises promiseOf p ++ (promiseOf k).toList := by
    simp only [Pool.exec, promises, List.map_append,
      List.filterMap_append, List.map_cons, List.map_nil]
    cases hPromise : promiseOf k <;>
      simp [hPromise]
  rw [hPromises] at hDistinct
  refine
    ⟨takers, requests, done, stages, hBooks,
      { nodup := hStaffed.nodup
        took := ?_
        absent := ?_
        taken := hStaffed.taken
        owned := hStaffed.owned
        follows := ?_
        others := ?_
        events := hStaffed.events }⟩
  · intro promise hMem
    rw [hPromises]
    rcases hStaffed.took promise hMem with ⟨hOld, hStage⟩
    exact ⟨List.mem_append_left _ hOld, hStage⟩
  · intro promise hAbsent
    rw [hPromises] at hAbsent
    apply hStaffed.absent promise
    intro hOld
    exact hAbsent (List.mem_append_left _ hOld)
  · intro i thread promise hThread hPromise
    simp only [Pool.exec] at hThread
    rw [List.getElem?_append] at hThread
    split at hThread
    · next hIndex =>
      exact
        hStaffed.follows i thread promise hThread hPromise
    · have hNew :=
        List.mem_singleton.mp (List.mem_of_getElem? hThread)
      subst hNew
      have hFresh : promise ∉ promises promiseOf p := by
        intro hOld
        rw [List.nodup_append'] at hDistinct
        apply hDistinct.2.2 hOld
        rw [show promiseOf k = some promise from hPromise]
        exact List.mem_singleton_self promise
      rw [hStaffed.absent promise hFresh]
      exact hObeys.request k promise hPromise
  · intro thread hMem hNone
    rcases List.mem_append.mp hMem with hOld | hNew
    · exact hStaffed.others thread hOld hNone
    · rw [List.mem_singleton.mp hNew] at hNone ⊢
      exact hObeys.other k hNone

/- So does a new event. -/
theorem beginEvent
    (hObeys : Obeys V program promiseOf mayCall mayEvent)
    {p : RequestPool σ χ κ η}
    (hAccounted : Accounted V promiseOf mayCall mayEvent p)
    (h : η) :
    Accounted V promiseOf mayCall mayEvent
      (p.exec program (.event h)) := by
  rcases hAccounted with
    ⟨takers, requests, done, stages, hBooks, hStaffed⟩
  refine
    ⟨takers, requests, done, stages, hBooks,
      { nodup := hStaffed.nodup
        took := hStaffed.took
        absent := hStaffed.absent
        taken := hStaffed.taken
        owned := hStaffed.owned
        follows := hStaffed.follows
        others := hStaffed.others
        events := ?_ }⟩
  intro thread hThread
  cases hThread
  exact hObeys.event h

theorem promises_prefix
    {p q : RequestPool σ χ κ η}
    {l : Label κ η}
    (hStep : Pool.Step program p l q) :
    promises promiseOf p <+: promises promiseOf q := by
  rcases Pool.calls_prefix program hStep with ⟨more, hMore⟩
  unfold promises
  rw [← hMore, List.filterMap_append]
  exact List.prefix_append _ _

/- Fewer than 2^32 calls, each with a promise of its own. -/
def Distinct
    (promiseOf : κ → Option PromiseId)
    (p : RequestPool σ χ κ η) : Prop :=
  (promises promiseOf p).Nodup ∧
    (promises promiseOf p).length < 2 ^ 32

theorem distinct_back
    {p q : RequestPool σ χ κ η}
    {l : Label κ η}
    (hStep : Pool.Step program p l q)
    (hDistinct : Distinct promiseOf q) :
    Distinct promiseOf p := by
  have hPrefix :
      promises promiseOf p <+: promises promiseOf q :=
    promises_prefix hStep
  have hLength := hPrefix.length_le
  refine ⟨hDistinct.1.sublist hPrefix.sublist, ?_⟩
  have hBound := hDistinct.2
  omega

theorem step
    (hObeys : Obeys V program promiseOf mayCall mayEvent)
    {p q : RequestPool σ χ κ η}
    {l : Label κ η}
    (hAccounted : Accounted V promiseOf mayCall mayEvent p)
    (hDistinct : Distinct promiseOf q)
    (hStep : Pool.Step program p l q) :
    Accounted V promiseOf mayCall mayEvent q ∧
      Move V mayCall mayEvent p q := by
  have hBefore := distinct_back hStep hDistinct
  rcases hStep with ⟨_, hNext⟩
  subst hNext
  cases l with
  | call k =>
      exact
        ⟨hObeys.beginCall hAccounted k hDistinct.1, .idle rfl rfl⟩
  | event h =>
      exact ⟨hObeys.beginEvent hAccounted h, .idle rfl rfl⟩
  | stepCall i =>
      exact
        hObeys.stepCall hAccounted hBefore.1 hBefore.2 i
  | stepEvent => exact hObeys.stepEvent hAccounted

/- The pool in the beginning. -/
structure Fresh
    (V : View σ χ C)
    (p : RequestPool σ χ κ η) : Prop where
  pending : ∀ key, (V.table p.shared).pending key = none
  deadline : ∀ key, (V.table p.shared).deadline key = none
  nextRequestId : V.nextRequestId p.shared = 0
  history : p.history = []
  calls : p.calls = []
  events : p.events = none

theorem accounted_start
    {p : RequestPool σ χ κ η}
    (hFresh : Fresh V p) :
    Accounted V promiseOf mayCall mayEvent p := by
  refine
    ⟨[], [], [], fun _ => .begun,
      { consistent := .empty hFresh.pending hFresh.deadline
        log := ?_
        counter := hFresh.nextRequestId
        recorded := by simp },
      { nodup := List.nodup_nil
        took := by simp
        absent := fun _ _ => rfl
        taken := by simp
        owned := by simp
        follows := ?_
        others := ?_
        events := ?_ }⟩
  · rw [hFresh.history]
    rfl
  · intro i thread promise hThread
    rw [hFresh.calls] at hThread
    cases hThread
  · intro thread hMem
    rw [hFresh.calls] at hMem
    cases hMem
  · intro thread hThread
    rw [hFresh.events] at hThread
    cases hThread

theorem accounted
    (hObeys : Obeys V program promiseOf mayCall mayEvent)
    {p q : RequestPool σ χ κ η}
    {labels : List (Label κ η)}
    (hFresh : Fresh V p)
    (hRun :
      StateMachine.Run (Pool.Step program) p labels q)
    (hDistinct : Distinct promiseOf q) :
    Accounted V promiseOf mayCall mayEvent q := by
  apply
    hRun.invariant_of (Q := Distinct promiseOf)
      (fun _ _ _ hStep hAfter => distinct_back hStep hAfter)
      ?_ (accounted_start hFresh) hDistinct
  intro s l t _ hAfter hBefore hStep
  exact (hObeys.step hBefore hAfter hStep).1

end Obeys

------------------------------------------------------------
-- The Law of Promises
------------------------------------------------------------

section Law

variable (promiseOf : κ → Option PromiseId)
variable (mayCall : κ → Reason C → Prop)
variable (mayEvent :
  η → List (Transition σ χ) → Reason C → Prop)

/- What was completed after `p`. -/
def completedSince
    (p q : RequestPool σ χ κ η) : List Completion :=
  completed V (q.history.drop p.history.length)

/- The promise was registered so, under a free key. -/
def RegisteredBefore
    (r : Registration C)
    (p : RequestPool σ χ κ η) : Prop :=
  ∃ m ∈ p.history, RegisteredIn V r m

/-
  One step: no promise is completed twice; a promise that
  leaves the table is completed; values are those of a
  response with the promise's own key, and time is up only
  for requests whose own deadline has passed.
-/
structure Lawful
    (p q : RequestPool σ χ κ η) : Prop where
  once :
    ((completed V q.history).map Completion.promise).Nodup
  leaves :
    ∀ key promise,
      (V.table p.shared).pending key = some promise →
        (V.table q.shared).pending key ≠ some promise →
          ∃ result,
            ⟨promise, result⟩ ∈ completedSince V p q
  value :
    ∀ promise payload,
      ⟨promise, .ok payload⟩ ∈ completedSince V p q →
        ∃ conn requestId deadline thread,
          RegisteredBefore V
              ⟨(conn, requestId), promise, deadline⟩ p ∧
            p.events = some thread ∧
            mayEvent thread.call thread.trace
              (.response conn requestId payload)
  timeout :
    ∀ promise message,
      ⟨promise, .error (.timeoutError message)⟩ ∈
          completedSince V p q →
        ∃ key deadline now,
          RegisteredBefore V ⟨key, promise, some deadline⟩
              p ∧
            deadline ≤ now ∧
            Authority mayCall mayEvent p (.expiry now)

end Law

namespace Obeys

variable {V}
variable {program : RequestProgram σ χ κ η}
variable {promiseOf : κ → Option PromiseId}
variable {mayCall : κ → Reason C → Prop}
variable {mayEvent :
  η → List (Transition σ χ) → Reason C → Prop}

theorem completedSince_note
    {p q : RequestPool σ χ κ η}
    {effects : List χ}
    (hHistory :
      q.history = note p.shared effects q.shared p.history) :
    completedSince V p q = V.completions effects := by
  simp [completedSince, completed, hHistory, note]

/- The promises that are completed for one reason. -/
theorem Completes.settled
    {reason : Reason C}
    {s t : σ}
    {effects : List χ}
    (hCompletes : Completes V reason s effects t)
    {promise : PromiseId}
    {result : Except Exception Payload}
    (hMem : ⟨promise, result⟩ ∈ V.completions effects) :
    ∃ key,
      (V.table s).pending key = some promise ∧
        reason.Explains (V.table s) key result := by
  rcases hCompletes.table with ⟨done, hSettles, hDone⟩
  rw [hDone] at hMem
  rcases List.mem_map.mp hMem with ⟨settled, hSettled, hSame⟩
  cases hSame
  rcases hSettles.settled settled hSettled with
    ⟨hPending, _, hWhy⟩
  exact ⟨settled.key, hPending, hWhy⟩

/- Every step of every run keeps the law. -/
theorem lawful
    (hObeys : Obeys V program promiseOf mayCall mayEvent)
    {start p q : RequestPool σ χ κ η}
    {labels : List (Label κ η)}
    {l : Label κ η}
    (hFresh : Fresh V start)
    (hRun :
      StateMachine.Run (Pool.Step program) start labels p)
    (hStep : Pool.Step program p l q)
    (hDistinct : Distinct promiseOf q) :
    Lawful V mayCall mayEvent p q := by
  have hBefore :=
    hObeys.accounted hFresh hRun
      (distinct_back hStep hDistinct)
  rcases hObeys.step hBefore hDistinct hStep with
    ⟨⟨_, _, done, _, hAfter, _⟩, hMove⟩
  rcases hBefore with ⟨_, requests, _, _, hBooks, _⟩
  have hOnce :
      ((completed V q.history).map
        Completion.promise).Nodup := by
    rw [hAfter.log, List.map_map]
    exact hAfter.consistent.promises_nodup
  have hKnown
      {key : Key C}
      {promise : PromiseId}
      (hPending :
        (V.table p.shared).pending key = some promise) :
      ∃ deadline,
        RegisteredBefore V ⟨key, promise, deadline⟩ p := by
    rcases (hBooks.consistent.pending key promise hPending).1
      with ⟨⟨key', promise', deadline⟩, hMem, hKey, hPromise⟩
    cases hKey
    cases hPromise
    exact ⟨deadline, hBooks.recorded _ hMem⟩
  have hQuiet
      (hTable : V.table q.shared = V.table p.shared)
      (hNone : completedSince V p q = []) :
      Lawful V mayCall mayEvent p q :=
    { once := hOnce
      leaves := by
        intro key promise hPending hGone
        rw [hTable] at hGone
        exact absurd hPending hGone
      value := by simp [hNone]
      timeout := by simp [hNone] }
  cases hMove with
  | idle hShared hHistory =>
      apply hQuiet
      · rw [hShared]
      · simp [completedSince, completed, hHistory,
          View.completions]
  | undisturbed effects hHistory hTable hNone =>
      exact
        hQuiet hTable
          ((completedSince_note hHistory).trans hNone)
  | @adds r effects hHistory hAdds hFree =>
      have hNone :=
        (completedSince_note hHistory).trans hAdds.completions
      refine
        { once := hOnce
          leaves := ?_
          value := by simp [hNone]
          timeout := by simp [hNone] }
      intro key promise hPending hGone
      by_cases hKey : key = r.key
      · rw [hKey, hFree] at hPending
        cases hPending
      · rw [hAdds.table.otherPending key hKey] at hGone
        exact absurd hPending hGone
  | @completes reason effects hHistory hAuthority hCompletes =>
      have hSince := completedSince_note (V := V) hHistory
      refine
        { once := hOnce, leaves := ?_, value := ?_
          timeout := ?_ }
      · intro key promise hPending hGone
        rw [hSince]
        rcases hCompletes.table with ⟨done, hSettles, hDone⟩
        have hNone : (V.table q.shared).pending key = none := by
          cases hLeft : (V.table q.shared).pending key with
          | none => rfl
          | some other =>
              have hOld := hSettles.shrinks key other hLeft
              rw [hPending] at hOld
              cases hOld
              exact absurd hLeft hGone
        rcases hSettles.removed key promise hPending hNone with
          ⟨settled, hMem, hKey⟩
        have hSettled := (hSettles.settled settled hMem).1
        rw [hKey, hPending] at hSettled
        cases hSettled
        rw [hDone]
        exact
          ⟨settled.result,
            List.mem_map.mpr ⟨settled, hMem, rfl⟩⟩
      · intro promise payload hMem
        rw [hSince] at hMem
        rcases Completes.settled hCompletes hMem with
          ⟨key, hPending, hWhy⟩
        cases reason with
        | response conn requestId response =>
            rcases hWhy with ⟨hKey, hResult⟩
            cases hResult
            rw [hKey] at hPending
            rcases hKnown hPending with
              ⟨deadline, hRegistered⟩
            cases hAuthority with
            | call _ hMay =>
                exact absurd hMay (hObeys.silent _ _ _ _)
            | event hThread hMay =>
                exact
                  ⟨conn, requestId, deadline, _, hRegistered,
                    hThread, hMay⟩
        | expiry now => cases hWhy.1
        | failure conn requestId message => cases hWhy.2
        | ending message => cases hWhy
      · intro promise message hMem
        rw [hSince] at hMem
        rcases Completes.settled hCompletes hMem with
          ⟨key, hPending, hWhy⟩
        cases reason with
        | expiry now =>
            rcases hWhy with ⟨_, deadline, hDeadline, hPassed⟩
            rcases hBooks.consistent.deadline_of_pending
                hPending hDeadline with
              ⟨⟨key', promise', deadline'⟩, hRequest, hKey,
                hPromise, hOwn⟩
            cases hKey
            cases hPromise
            cases hOwn
            exact
              ⟨_, deadline, now,
                hBooks.recorded _ hRequest, hPassed,
                hAuthority⟩
        | response conn requestId response => cases hWhy.2
        | failure conn requestId message => cases hWhy.2
        | ending message => cases hWhy

/- Every promise that was pending still is or is completed. -/
theorem followed
    (hObeys : Obeys V program promiseOf mayCall mayEvent)
    {start p : RequestPool σ χ κ η}
    {labels : List (Label κ η)}
    (hFresh : Fresh V start)
    (hRun :
      StateMachine.Run (Pool.Step program) start labels p)
    (hDistinct : Distinct promiseOf p) :
    ∀ m ∈ p.history, ∀ key promise,
      (V.table m.after).pending key = some promise →
        (V.table p.shared).pending key = some promise ∨
          ∃ result, ⟨promise, result⟩ ∈ completed V p.history := by
  induction hRun with
  | nil =>
      intro m hMem
      rw [hFresh.history] at hMem
      cases hMem
  | @snoc p q _ l hBefore hStep ih =>
      have hPast := ih (distinct_back hStep hDistinct)
      have hLawful :=
        hObeys.lawful hFresh hBefore hStep hDistinct
      rcases
        Pool.next_step (P := fun _ _ _ => True)
          (fun _ _ _ _ _ _ => trivial)
          (fun _ _ _ _ _ _ => trivial) hStep with
        ⟨hShared, hHistory⟩ | ⟨_, hNoted⟩
      · intro m hMem key promise hPending
        rw [hHistory] at hMem ⊢
        rw [hShared]
        exact hPast m hMem key promise hPending
      · rw [hObeys.noted] at hNoted
        have hSplit :
            completed V q.history =
              completed V p.history ++ completedSince V p q := by
          simp [completedSince, completed, hNoted, note,
            View.completions]
        intro m hMem key promise hPending
        rw [hSplit]
        rw [hNoted] at hMem
        rcases List.mem_append.mp hMem with hOld | hNew
        · rcases hPast m hOld key promise hPending with
            hNow | ⟨result, hDone⟩
          · by_cases hStill :
                (V.table q.shared).pending key = some promise
            · exact Or.inl hStill
            · rcases hLawful.leaves key promise hNow hStill with
                ⟨result, hDone⟩
              exact
                Or.inr ⟨result, List.mem_append_right _ hDone⟩
          · exact Or.inr ⟨result, List.mem_append_left _ hDone⟩
        · rw [List.mem_singleton.mp hNew] at hPending
          exact Or.inl hPending

end Obeys

end RequestLifecycle

end ObscuraProto
