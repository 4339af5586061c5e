import ObscuraProto.Library.StateMachine

/-
  Threads with mutexes and a condition variable.

  A program gives the next operation of a thread at a point.
  A waiting thread releases its mutex and is blocked until it
  is notified or its wait ends; it then takes the mutex again.
  A notification reaches only the threads that are blocked.

  A wait has a bound, on which the thread has decided under
  the mutex.  If everything that makes a bound stale happens
  under that mutex, in threads that notify afterwards, then
  no thread sleeps with a stale bound unless a notification
  is still to come.

  Main declarations:
    * `Monitors.Op`, `Monitors.State`
    * `Monitors.Step`, `Monitors.exec`
    * `Monitors.Disciplined`, `Monitors.Owned`
    * `Monitors.Owned.step`, `Monitors.Owned.exclusive`
    * `Monitors.Signals`, `Monitors.Alert`
    * `Monitors.Alert.step`
-/

namespace Monitors

variable {ι M P I σ B : Type}
variable [DecidableEq ι] [DecidableEq M]

------------------------------------------------------------
-- Threads and Their Steps
------------------------------------------------------------

/- What a thread does next, and where it goes on. -/
inductive Op (M P σ B : Type) where
| lock (m : M) (next : P)
| unlock (m : M) (next : P)
| act (f : σ → σ) (next : P)
| notifyAll (f : σ → σ) (next : P)
| wait (m : M) (bound : B) (next : P)

/- A woken thread still needs the mutex it has released. -/
inductive Mode (M B : Type) where
| running
| blocked (m : M) (bound : B)
| woken (m : M)
deriving DecidableEq

structure Thread (M P B : Type) where
  point : P
  mode : Mode M B := .running

structure State (ι M P σ B : Type) where
  shared : σ
  owner : M → Option ι := fun _ => none
  threads : ι → Thread M P B

/- The operation depends on the shared state and an input. -/
abbrev Program (M P I σ B : Type) : Type :=
  P → I → σ → Option (Op M P σ B)

/- A step of a thread, or its wait ends. -/
inductive Label (ι I : Type) where
| step (i : ι) (x : I)
| leave (i : ι)

def Mode.wake : Mode M B → Mode M B
| .blocked m _ => .woken m
| mode => mode

def Thread.wake (t : Thread M P B) : Thread M P B :=
  { t with mode := t.mode.wake }

/- The function with one value changed. -/
def set
    {K V : Type}
    [DecidableEq K]
    (f : K → V)
    (k : K)
    (v : V) : K → V :=
  fun k' => if k' = k then v else f k'

@[simp] theorem set_same
    {K V : Type}
    [DecidableEq K]
    (f : K → V)
    (k : K)
    (v : V) :
    set f k v k = v := by
  simp [set]

theorem set_other
    {K V : Type}
    [DecidableEq K]
    (f : K → V)
    {k k' : K}
    (v : V)
    (hOther : k' ≠ k) :
    set f k v k' = f k' := by
  simp [set, hOther]

variable (program : Program M P I σ B)

inductive Step :
    State ι M P σ B → Label ι I → State ι M P σ B → Prop
| locks
    {s : State ι M P σ B}
    {i : ι}
    {p next : P}
    {x : I}
    {m : M} :
    s.threads i = ⟨p, .running⟩ →
    program p x s.shared = some (.lock m next) →
    s.owner m = none →
      Step s (.step i x)
        { s with
          owner := set s.owner m (some i)
          threads := set s.threads i ⟨next, .running⟩ }
| returns
    {s : State ι M P σ B}
    {i : ι}
    {p : P}
    {x : I}
    {m : M} :
    s.threads i = ⟨p, .woken m⟩ →
    s.owner m = none →
      Step s (.step i x)
        { s with
          owner := set s.owner m (some i)
          threads := set s.threads i ⟨p, .running⟩ }
| unlocks
    {s : State ι M P σ B}
    {i : ι}
    {p next : P}
    {x : I}
    {m : M} :
    s.threads i = ⟨p, .running⟩ →
    program p x s.shared = some (.unlock m next) →
      Step s (.step i x)
        { s with
          owner := set s.owner m none
          threads := set s.threads i ⟨next, .running⟩ }
| acts
    {s : State ι M P σ B}
    {i : ι}
    {p next : P}
    {x : I}
    {f : σ → σ} :
    s.threads i = ⟨p, .running⟩ →
    program p x s.shared = some (.act f next) →
      Step s (.step i x)
        { s with
          shared := f s.shared
          threads := set s.threads i ⟨next, .running⟩ }
| notifies
    {s : State ι M P σ B}
    {i : ι}
    {p next : P}
    {x : I}
    {f : σ → σ} :
    s.threads i = ⟨p, .running⟩ →
    program p x s.shared = some (.notifyAll f next) →
      Step s (.step i x)
        { s with
          shared := f s.shared
          threads :=
            set (fun j => (s.threads j).wake) i
              ⟨next, .running⟩ }
| waits
    {s : State ι M P σ B}
    {i : ι}
    {p next : P}
    {x : I}
    {m : M}
    {bound : B} :
    s.threads i = ⟨p, .running⟩ →
    program p x s.shared = some (.wait m bound next) →
      Step s (.step i x)
        { s with
          owner := set s.owner m none
          threads :=
            set s.threads i ⟨next, .blocked m bound⟩ }
| leaves
    {s : State ι M P σ B}
    {i : ι}
    {p : P}
    {m : M}
    {bound : B} :
    s.threads i = ⟨p, .blocked m bound⟩ →
      Step s (.leave i)
        { s with
          threads := set s.threads i ⟨p, .woken m⟩ }

/- The step, if it can be taken. -/
def exec (s : State ι M P σ B) :
    Label ι I → Option (State ι M P σ B)
| .leave i =>
    match (s.threads i).mode with
    | .blocked m _ =>
        some
          { s with
            threads :=
              set s.threads i
                ⟨(s.threads i).point, .woken m⟩ }
    | _ => none
| .step i x =>
    match (s.threads i).mode with
    | .blocked _ _ => none
    | .woken m =>
        if s.owner m = none then
          some
            { s with
              owner := set s.owner m (some i)
              threads :=
                set s.threads i
                  ⟨(s.threads i).point, .running⟩ }
        else
          none
    | .running =>
        match program (s.threads i).point x s.shared with
        | none => none
        | some (.lock m next) =>
            if s.owner m = none then
              some
                { s with
                  owner := set s.owner m (some i)
                  threads :=
                    set s.threads i ⟨next, .running⟩ }
            else
              none
        | some (.unlock m next) =>
            some
              { s with
                owner := set s.owner m none
                threads :=
                  set s.threads i ⟨next, .running⟩ }
        | some (.act f next) =>
            some
              { s with
                shared := f s.shared
                threads :=
                  set s.threads i ⟨next, .running⟩ }
        | some (.notifyAll f next) =>
            some
              { s with
                shared := f s.shared
                threads :=
                  set (fun j => (s.threads j).wake) i
                    ⟨next, .running⟩ }
        | some (.wait m bound next) =>
            some
              { s with
                owner := set s.owner m none
                threads :=
                  set s.threads i
                    ⟨next, .blocked m bound⟩ }

variable {program}

theorem step_of_exec
    {s t : State ι M P σ B}
    {l : Label ι I}
    (hExec : exec program s l = some t) :
    Step program s l t := by
  have hThread
      {i : ι}
      {mode : Mode M B}
      (hMode : (s.threads i).mode = mode) :
      s.threads i = ⟨(s.threads i).point, mode⟩ := by
    rw [← hMode]
  cases l with
  | leave i =>
      simp only [exec] at hExec
      split at hExec
      · next m bound hMode =>
          cases hExec
          exact .leaves (hThread hMode)
      · cases hExec
  | step i x =>
      simp only [exec] at hExec
      split at hExec
      · cases hExec
      · next m hMode =>
          split at hExec
          · next hFree =>
              cases hExec
              exact .returns (hThread hMode) hFree
          · cases hExec
      · next hMode =>
          split at hExec
          · cases hExec
          · next m next hOp =>
              split at hExec
              · next hFree =>
                  cases hExec
                  exact .locks (hThread hMode) hOp hFree
              · cases hExec
          · next m next hOp =>
              cases hExec
              exact .unlocks (hThread hMode) hOp
          · next f next hOp =>
              cases hExec
              exact .acts (hThread hMode) hOp
          · next f next hOp =>
              cases hExec
              exact .notifies (hThread hMode) hOp
          · next m bound next hOp =>
              cases hExec
              exact .waits (hThread hMode) hOp

------------------------------------------------------------
-- Who Holds a Mutex
------------------------------------------------------------

/- A waiting thread does not hold the mutex it waits with. -/
def Mode.keeps (m : M) : Mode M B → Prop
| .running => True
| .blocked m' _ => m ≠ m'
| .woken m' => m ≠ m'

/- What is held at a point, but for the wait. -/
def Thread.Has
    (holds : P → M → Prop)
    (t : Thread M P B)
    (m : M) : Prop :=
  holds t.point m ∧ t.mode.keeps m

/- The operations follow what is held at their points. -/
structure Disciplined
    (program : Program M P I σ B)
    (holds : P → M → Prop) : Prop where
  lock :
    ∀ p x s m next, program p x s = some (.lock m next) →
      ∀ m', holds next m' ↔ holds p m' ∨ m' = m
  unlock :
    ∀ p x s m next, program p x s = some (.unlock m next) →
      holds p m ∧ ∀ m', holds next m' ↔ holds p m' ∧ m' ≠ m
  act :
    ∀ p x s f next, program p x s = some (.act f next) →
      ∀ m', holds next m' ↔ holds p m'
  notifyAll :
    ∀ p x s f next, program p x s = some (.notifyAll f next) →
      ∀ m', holds next m' ↔ holds p m'
  wait :
    ∀ p x s m b next, program p x s = some (.wait m b next) →
      holds p m ∧ ∀ m', holds next m' ↔ holds p m'

/- What a waiting thread goes on with once it has its mutex. -/
def Thread.Due
    (holds : P → M → Prop)
    (t : Thread M P B) : Prop :=
  match t.mode with
  | .running => True
  | .blocked m _ => holds t.point m
  | .woken m => holds t.point m

/- The owner of a mutex is who holds it. -/
structure Owned
    (holds : P → M → Prop)
    (s : State ι M P σ B) : Prop where
  owner :
    ∀ m i, s.owner m = some i ↔ (s.threads i).Has holds m
  due : ∀ i, (s.threads i).Due holds

variable {holds : P → M → Prop}

omit [DecidableEq ι] [DecidableEq M] in
/- Two threads do not hold the same mutex. -/
theorem Owned.exclusive
    {s : State ι M P σ B}
    (hOwned : Owned holds s)
    {m : M}
    {i j : ι}
    (hFirst : (s.threads i).Has holds m)
    (hSecond : (s.threads j).Has holds m) :
    i = j := by
  have hOwner := (hOwned.owner m i).mpr hFirst
  rw [(hOwned.owner m j).mpr hSecond] at hOwner
  injection hOwner with hSame
  exact hSame.symm

omit [DecidableEq M] in
/- A thread that goes on in some way, with the others. -/
theorem due_set
    {s : State ι M P σ B}
    (hOwned : Owned holds s)
    {i : ι}
    {t : Thread M P B}
    (hDue : t.Due holds)
    (j : ι) :
    (set s.threads i t j).Due holds := by
  by_cases hThread : j = i
  · subst hThread
    rw [set_same]
    exact hDue
  · rw [set_other _ _ hThread]
    exact hOwned.due j

/- A thread that takes a free mutex. -/
theorem Owned.take
    {s : State ι M P σ B}
    (hOwned : Owned holds s)
    {m : M}
    {i : ι}
    {t : Thread M P B}
    (hFree : s.owner m = none)
    (hTake :
      ∀ m', t.Has holds m' ↔
        (s.threads i).Has holds m' ∨ m' = m)
    (hDue : t.Due holds) :
    Owned holds
      { s with
        owner := set s.owner m (some i)
        threads := set s.threads i t } where
  owner := by
    intro m' j
    have hNobody : ¬ (s.threads j).Has holds m := by
      intro hHas
      rw [(hOwned.owner m j).mpr hHas] at hFree
      cases hFree
    dsimp only
    by_cases hMutex : m' = m
    · subst hMutex
      by_cases hThread : j = i
      · subst hThread
        simp [hTake]
      · rw [set_same, set_other _ _ hThread]
        constructor
        · intro hSame
          injection hSame with hSame
          exact absurd hSame.symm hThread
        · intro hHas
          exact absurd hHas hNobody
    · rw [set_other _ _ hMutex, hOwned.owner m' j]
      by_cases hThread : j = i
      · subst hThread
        simp [hTake, hMutex]
      · rw [set_other _ _ hThread]
  due := due_set hOwned hDue

/- A thread that gives a mutex away. -/
theorem Owned.give
    {s : State ι M P σ B}
    (hOwned : Owned holds s)
    {m : M}
    {i : ι}
    {t : Thread M P B}
    (hHeld : (s.threads i).Has holds m)
    (hGive :
      ∀ m', t.Has holds m' ↔
        (s.threads i).Has holds m' ∧ m' ≠ m)
    (hDue : t.Due holds) :
    Owned holds
      { s with
        owner := set s.owner m none
        threads := set s.threads i t } where
  owner := by
    intro m' j
    dsimp only
    by_cases hMutex : m' = m
    · subst hMutex
      rw [set_same]
      constructor
      · intro hNever
        cases hNever
      · intro hHas
        by_cases hThread : j = i
        · subst hThread
          rw [set_same, hGive] at hHas
          exact absurd rfl hHas.2
        · rw [set_other _ _ hThread] at hHas
          exact absurd (hOwned.exclusive hHas hHeld) hThread
    · rw [set_other _ _ hMutex, hOwned.owner m' j]
      by_cases hThread : j = i
      · subst hThread
        simp [hGive, hMutex]
      · rw [set_other _ _ hThread]
  due := due_set hOwned hDue

omit [DecidableEq ι] [DecidableEq M] in
/- What every thread holds is as before. -/
theorem Owned.keep
    {s t : State ι M P σ B}
    (hOwned : Owned holds s)
    (hOwner : t.owner = s.owner)
    (hThreads :
      ∀ j m,
        (t.threads j).Has holds m ↔
          (s.threads j).Has holds m)
    (hDue : ∀ j, (t.threads j).Due holds) :
    Owned holds t where
  owner := by
    intro m j
    rw [hOwner, hThreads]
    exact hOwned.owner m j
  due := hDue

omit [DecidableEq M] in
theorem Mode.keeps_wake
    (m : M)
    (mode : Mode M B) :
    mode.wake.keeps m ↔ mode.keeps m := by
  cases mode <;> exact Iff.rfl

omit [DecidableEq M] in
theorem Thread.due_wake
    (t : Thread M P B) :
    t.wake.Due holds ↔ t.Due holds := by
  rcases t with ⟨p, mode⟩
  cases mode <;> exact Iff.rfl

/- One step of any thread. -/
theorem Owned.step
    (hDisciplined : Disciplined program holds)
    {s t : State ι M P σ B}
    {l : Label ι I}
    (hOwned : Owned holds s)
    (hStep : Step program s l t) :
    Owned holds t := by
  cases hStep with
  | locks hThread hOp hFree =>
      refine hOwned.take hFree ?_ trivial
      intro m'
      rw [hThread]
      simp only [Thread.Has, Mode.keeps, and_true]
      exact hDisciplined.lock _ _ _ _ _ hOp m'
  | @returns i p _ m hThread hFree =>
      have hDue := hOwned.due i
      rw [hThread] at hDue
      change holds p m at hDue
      refine hOwned.take hFree ?_ trivial
      intro m'
      rw [hThread]
      simp only [Thread.Has, Mode.keeps, and_true]
      by_cases hMutex : m' = m
      · subst hMutex
        simp [hDue]
      · simp [hMutex]
  | unlocks hThread hOp =>
      rcases hDisciplined.unlock _ _ _ _ _ hOp with
        ⟨hHeld, hNext⟩
      refine hOwned.give ?_ ?_ trivial
      · rw [hThread]
        exact ⟨hHeld, trivial⟩
      · intro m'
        rw [hThread]
        simpa only [Thread.Has, Mode.keeps, and_true] using
          hNext m'
  | @acts i p next x f hThread hOp =>
      refine hOwned.keep rfl ?_ (due_set hOwned trivial)
      intro j m
      by_cases hSame : j = i
      · subst hSame
        simp only [set_same, hThread, Thread.Has]
        rw [hDisciplined.act _ _ _ _ _ hOp m]
      · simp only [set_other _ _ hSame]
  | @notifies i p next x f hThread hOp =>
      refine hOwned.keep rfl ?_ ?_
      · intro j m
        by_cases hSame : j = i
        · subst hSame
          simp only [set_same, hThread, Thread.Has]
          rw [hDisciplined.notifyAll _ _ _ _ _ hOp m]
        · simp only [set_other _ _ hSame, Thread.Has,
            Thread.wake, Mode.keeps_wake]
      · intro j
        by_cases hSame : j = i
        · subst hSame
          simp only [set_same]
          exact trivial
        · simp only [set_other _ _ hSame, Thread.due_wake]
          exact hOwned.due j
  | waits hThread hOp =>
      rcases hDisciplined.wait _ _ _ _ _ _ hOp with
        ⟨hHeld, hNext⟩
      refine hOwned.give ?_ ?_ ((hNext _).mpr hHeld)
      · rw [hThread]
        exact ⟨hHeld, trivial⟩
      · intro m'
        rw [hThread]
        simp only [Thread.Has, Mode.keeps, and_true]
        rw [hNext m']
  | @leaves i p m bound hThread =>
      have hDue := hOwned.due i
      rw [hThread] at hDue
      refine hOwned.keep rfl ?_ (due_set hOwned hDue)
      intro j m'
      by_cases hSame : j = i
      · subst hSame
        simp only [set_same, hThread]
        exact Iff.rfl
      · simp only [set_other _ _ hSame]

------------------------------------------------------------
-- Notifications to Come
------------------------------------------------------------

/-
  At `claims p = some b` a thread is about to wait with the
  bound `b`, on which it has just decided.  What makes bounds
  stale happens under the mutex `m`, in a thread that from
  then on owes a notification.
-/
structure Signals
    (program : Program M P I σ B)
    (holds : P → M → Prop)
    (m : M)
    (stale : σ → B → Prop)
    (owes : P → Prop)
    (claims : P → Option B) : Prop where
  holding : ∀ p b, claims p = some b → holds p m
  lock :
    ∀ p x s m' next, program p x s = some (.lock m' next) →
      claims next = none ∧ (owes p → owes next)
  unlock :
    ∀ p x s m' next, program p x s = some (.unlock m' next) →
      claims next = none ∧ (owes p → owes next)
  act :
    ∀ p x s f next, program p x s = some (.act f next) →
      (∀ b, claims next = some b → ¬ stale (f s) b) ∧
        (∀ b, stale (f s) b →
          stale s b ∨ (holds p m ∧ owes next)) ∧
          (owes p → owes next)
  notifyAll :
    ∀ p x s f next, program p x s = some (.notifyAll f next) →
      claims next = none ∧ ∀ b, stale (f s) b → stale s b
  wait :
    ∀ p x s m' b next,
      program p x s = some (.wait m' b next) →
        claims p = some b ∧ claims next = none ∧
          (owes p → owes next)

/- Nobody sleeps with a stale bound and is left alone. -/
structure Alert
    (stale : σ → B → Prop)
    (owes : P → Prop)
    (claims : P → Option B)
    (s : State ι M P σ B) : Prop where
  window :
    ∀ i b, (s.threads i).mode = .running →
      claims (s.threads i).point = some b →
        ¬ stale s.shared b
  waiting :
    ∀ i, (s.threads i).mode ≠ .running →
      claims (s.threads i).point = none
  asleep :
    ∀ i m b, (s.threads i).mode = .blocked m b →
      stale s.shared b → ∃ j, owes (s.threads j).point

namespace Alert

variable {stale : σ → B → Prop}
variable {owes : P → Prop}
variable {claims : P → Option B}

omit [DecidableEq M] in
/- A thread that goes on, when no bound becomes stale. -/
theorem move
    {s t : State ι M P σ B}
    {i : ι}
    {next : Thread M P B}
    (hAlert : Alert stale owes claims s)
    (hThreads : t.threads = set s.threads i next)
    (hStale : ∀ b, stale t.shared b → stale s.shared b)
    (hOwes : owes (s.threads i).point → owes next.point)
    (hClaims : claims next.point = none)
    (hAsleep :
      ∀ m b, next.mode = .blocked m b →
        stale t.shared b → owes next.point) :
    Alert stale owes claims t where
  window := by
    intro j b hMode hClaim hNow
    rw [hThreads] at hMode hClaim
    by_cases hSame : j = i
    · subst hSame
      rw [set_same, hClaims] at hClaim
      cases hClaim
    · rw [set_other _ _ hSame] at hMode hClaim
      exact hAlert.window j b hMode hClaim (hStale b hNow)
  waiting := by
    intro j hMode
    rw [hThreads] at hMode ⊢
    by_cases hSame : j = i
    · subst hSame
      rw [set_same]
      exact hClaims
    · rw [set_other _ _ hSame] at hMode ⊢
      exact hAlert.waiting j hMode
  asleep := by
    intro j m b hMode hNow
    rw [hThreads] at hMode ⊢
    by_cases hSame : j = i
    · subst hSame
      rw [set_same] at hMode
      refine ⟨j, ?_⟩
      rw [set_same]
      exact hAsleep m b hMode hNow
    · rw [set_other _ _ hSame] at hMode
      rcases hAlert.asleep j m b hMode (hStale b hNow) with
        ⟨k, hOwed⟩
      refine ⟨k, ?_⟩
      by_cases hOther : k = i
      · subst hOther
        rw [set_same]
        exact hOwes hOwed
      · rw [set_other _ _ hOther]
        exact hOwed

/- One step of any thread. -/
theorem step
    {m : M}
    (hSignals :
      Signals program holds m stale owes claims)
    {s t : State ι M P σ B}
    {l : Label ι I}
    (hOwned : Owned holds s)
    (hAlert : Alert stale owes claims s)
    (hStep : Step program s l t) :
    Alert stale owes claims t := by
  cases hStep with
  | locks hThread hOp hFree =>
      rcases hSignals.lock _ _ _ _ _ hOp with
        ⟨hClaims, hOwes⟩
      refine
        hAlert.move rfl (fun _ hNow => hNow) ?_ hClaims ?_
      · rw [hThread]
        exact hOwes
      · intro m' b hNever
        cases hNever
  | @returns i p _ m' hThread hFree =>
      refine
        hAlert.move rfl (fun _ hNow => hNow) ?_ ?_ ?_
      · rw [hThread]
        exact id
      · have hClaims := hAlert.waiting i
        rw [hThread] at hClaims
        exact hClaims (by simp)
      · intro m'' b hNever
        cases hNever
  | unlocks hThread hOp =>
      rcases hSignals.unlock _ _ _ _ _ hOp with
        ⟨hClaims, hOwes⟩
      refine
        hAlert.move rfl (fun _ hNow => hNow) ?_ hClaims ?_
      · rw [hThread]
        exact hOwes
      · intro m' b hNever
        cases hNever
  | @acts i p next x f hThread hOp =>
      rcases hSignals.act _ _ _ _ _ hOp with
        ⟨hClaims, hStale, hOwes⟩
      constructor
      · intro j b hMode hClaim hNow
        by_cases hSame : j = i
        · subst hSame
          dsimp only at hClaim
          rw [set_same] at hClaim
          exact hClaims b hClaim hNow
        · dsimp only at hMode hClaim
          rw [set_other _ _ hSame] at hMode hClaim
          rcases hStale b hNow with hBefore | ⟨hHeld, _⟩
          · exact hAlert.window j b hMode hClaim hBefore
          · -- both threads would hold the mutex
            apply hSame
            refine hOwned.exclusive (m := m) ?_ ?_
            · refine ⟨hSignals.holding _ b hClaim, ?_⟩
              rw [hMode]
              exact trivial
            · rw [hThread]
              exact ⟨hHeld, trivial⟩
      · intro j hMode
        dsimp only at hMode ⊢
        by_cases hSame : j = i
        · subst hSame
          rw [set_same] at hMode
          exact absurd rfl hMode
        · rw [set_other _ _ hSame] at hMode ⊢
          exact hAlert.waiting j hMode
      · intro j m' b hMode hNow
        dsimp only at hMode ⊢
        by_cases hSame : j = i
        · subst hSame
          rw [set_same] at hMode
          cases hMode
        · rw [set_other _ _ hSame] at hMode
          rcases hStale b hNow with hBefore | ⟨_, hNext⟩
          · rcases hAlert.asleep j m' b hMode hBefore with
              ⟨k, hOwed⟩
            refine ⟨k, ?_⟩
            by_cases hOther : k = i
            · subst hOther
              rw [hThread] at hOwed
              rw [set_same]
              exact hOwes hOwed
            · rw [set_other _ _ hOther]
              exact hOwed
          · refine ⟨i, ?_⟩
            rw [set_same]
            exact hNext
  | @notifies i p next x f hThread hOp =>
      rcases hSignals.notifyAll _ _ _ _ _ hOp with
        ⟨hClaims, hStale⟩
      constructor
      · intro j b hMode hClaim hNow
        dsimp only at hMode hClaim
        by_cases hSame : j = i
        · subst hSame
          rw [set_same] at hClaim
          rw [hClaims] at hClaim
          cases hClaim
        · rw [set_other _ _ hSame] at hMode hClaim
          refine
            hAlert.window j b ?_ hClaim (hStale b hNow)
          cases hBefore : (s.threads j).mode with
          | running => rfl
          | blocked m' b' =>
              simp [Thread.wake, Mode.wake, hBefore] at hMode
          | woken m' =>
              simp [Thread.wake, Mode.wake, hBefore] at hMode
      · intro j hMode
        dsimp only at hMode ⊢
        by_cases hSame : j = i
        · subst hSame
          rw [set_same] at hMode
          exact absurd rfl hMode
        · rw [set_other _ _ hSame] at hMode ⊢
          refine hAlert.waiting j ?_
          intro hBefore
          simp [Thread.wake, Mode.wake, hBefore] at hMode
      · intro j m' b hMode
        dsimp only at hMode
        by_cases hSame : j = i
        · subst hSame
          rw [set_same] at hMode
          cases hMode
        · rw [set_other _ _ hSame] at hMode
          cases hBefore : (s.threads j).mode <;>
            simp [Thread.wake, Mode.wake, hBefore] at hMode
  | @waits i p next x m' bound hThread hOp =>
      rcases hSignals.wait _ _ _ _ _ _ hOp with
        ⟨hBound, hClaims, hOwes⟩
      have hFresh : ¬ stale s.shared bound := by
        apply hAlert.window i bound
        · rw [hThread]
        · rw [hThread]
          exact hBound
      refine
        hAlert.move rfl (fun _ hNow => hNow) ?_ hClaims ?_
      · rw [hThread]
        exact hOwes
      · intro m'' b hMode hNow
        cases hMode
        exact absurd hNow hFresh
  | @leaves i p m' bound hThread =>
      refine
        hAlert.move rfl (fun _ hNow => hNow) ?_ ?_ ?_
      · rw [hThread]
        exact id
      · have hClaims := hAlert.waiting i
        rw [hThread] at hClaims
        exact hClaims (by simp)
      · intro m'' b hNever
        cases hNever

end Alert

end Monitors
