import Mathlib.Data.List.Basic
import ObscuraProto.Library.StateMachine

/-
  Registries of numbered objects.

  A registry maps keys to objects, which are numbered in the
  order in which they were added and never reused.  Adding
  under a key that is taken replaces its object.  A machine
  is observed through a registry: every input of it is one
  action on the registry, and what the action reaches is
  written to a log.

  Main declarations:
    * `Registry.Table`, `Registry.Act`
    * `Registry.Table.exec`, `Registry.Table.facts`
    * `Registry.Machine`, `Registry.Machine.Refines`
    * `Registry.Machine.Refines.not_found_stays`
    * `Registry.Machine.Refines.find_iff`
    * `Registry.Logged`
-/

namespace Registry

variable {K U V σ ι : Type}

------------------------------------------------------------
-- Tables
------------------------------------------------------------

/- `size` objects have been added so far. -/
structure Table (K : Type) where
  find : K → Option Nat
  size : Nat

/-
  A lookup for some use `u` may drop the entry; a mark `v` is
  set on an object that may have left the registry.
-/
inductive Act (K U V : Type) where
| add (k : K)
| use (k : K) (u : U)
| take (k : K) (u : U)
| drop (gone : K → Bool)
| mark (ref : Nat) (v : V)
| skip

/- What an action has reached. -/
inductive Fact (U V : Type) where
| used (ref : Nat) (u : U)
| marked (ref : Nat) (v : V)
deriving DecidableEq

def Fact.ref : Fact U V → Nat
| .used ref _ => ref
| .marked ref _ => ref

namespace Table

def empty : Table K where
  find := fun _ => none
  size := 0

def Registered (ref : Nat) (t : Table K) : Prop :=
  ∃ k, t.find k = some ref

/- Registered objects have been added, under one key each. -/
structure Sound (t : Table K) : Prop where
  added : ∀ k ref, t.find k = some ref → ref < t.size
  one :
    ∀ k k' ref, t.find k = some ref →
      t.find k' = some ref → k = k'

theorem sound_empty : (empty : Table K).Sound := by
  constructor <;> simp [empty]

def facts (t : Table K) : Act K U V → List (Fact U V)
| .use k u | .take k u =>
    match t.find k with
    | none => []
    | some ref => [.used ref u]
| .mark ref v =>
    if ref < t.size then
      [.marked ref v]
    else
      []
| _ => []

/- Facts are about objects that have been added. -/
theorem ref_lt_of_facts
    {t : Table K}
    (hSound : t.Sound)
    {a : Act K U V}
    {fact : Fact U V}
    (hMem : fact ∈ t.facts a) :
    fact.ref < t.size := by
  cases a with
  | use k u =>
      cases hFound : t.find k with
      | none => simp [facts, hFound] at hMem
      | some ref =>
          have hFact : fact = .used ref u := by
            simpa [facts, hFound] using hMem
          rw [hFact]
          exact hSound.added k ref hFound
  | take k u =>
      cases hFound : t.find k with
      | none => simp [facts, hFound] at hMem
      | some ref =>
          have hFact : fact = .used ref u := by
            simpa [facts, hFound] using hMem
          rw [hFact]
          exact hSound.added k ref hFound
  | mark ref v =>
      by_cases hOld : ref < t.size
      · have hFact : fact = .marked ref v := by
          simpa [facts, hOld] using hMem
        rw [hFact]
        exact hOld
      · simp [facts, hOld] at hMem
  | add | drop | skip => simp [facts] at hMem

variable [DecidableEq K]

def exec (t : Table K) : Act K U V → Table K
| .add k =>
    { find := fun k' =>
        if k' = k then
          some t.size
        else
          t.find k'
      size := t.size + 1 }
| .take k _ =>
    { t with
      find := fun k' =>
        if k' = k then
          none
        else
          t.find k' }
| .drop gone =>
    { t with
      find := fun k =>
        if gone k then
          none
        else
          t.find k }
| .use _ _ | .mark _ _ | .skip => t

/- The action may remove the entry of `k`. -/
def Withdraws (k : K) : Act K U V → Bool
| .take k' _ => decide (k' = k)
| .drop gone => gone k
| _ => false

def Adds (k : K) : Act K U V → Bool
| .add k' => decide (k' = k)
| _ => false

theorem size_le_exec (t : Table K) (a : Act K U V) :
    t.size ≤ (t.exec a).size := by
  cases a with
  | add k => exact Nat.le_succ t.size
  | use | take | drop | mark | skip => exact Nat.le_refl _

/- An entry is old, or it is the object just added. -/
theorem find_of_exec
    {t : Table K}
    {a : Act K U V}
    {k : K}
    {ref : Nat}
    (hFound : (t.exec a).find k = some ref) :
    t.find k = some ref ∨
      (a = .add k ∧ ref = t.size) := by
  cases a with
  | add k' =>
      simp only [exec] at hFound
      split at hFound
      · next hSame =>
          rw [hSame]
          cases hFound
          exact Or.inr ⟨rfl, rfl⟩
      · exact Or.inl hFound
  | take k' u =>
      simp only [exec] at hFound
      split at hFound
      · cases hFound
      · exact Or.inl hFound
  | drop gone =>
      simp only [exec] at hFound
      split at hFound
      · cases hFound
      · exact Or.inl hFound
  | use | mark | skip => exact Or.inl hFound

theorem Sound.exec
    {t : Table K}
    (hSound : t.Sound)
    (a : Act K U V) :
    (t.exec a).Sound where
  added := by
    intro k ref hFound
    rcases find_of_exec hFound with hOld | ⟨hAdd, hRef⟩
    · have hSmall := hSound.added k ref hOld
      have hGrows := size_le_exec t a
      omega
    · rw [hAdd, hRef]
      exact Nat.lt_succ_self t.size
  one := by
    intro k k' ref hFound hFound'
    rcases find_of_exec hFound with hOld | ⟨hAdd, hRef⟩
    · rcases find_of_exec hFound' with hOld' | ⟨_, hRef'⟩
      · exact hSound.one k k' ref hOld hOld'
      · have hSmall := hSound.added k ref hOld
        omega
    · rcases find_of_exec hFound' with hOld' | ⟨hAdd', _⟩
      · have hSmall := hSound.added k' ref hOld'
        omega
      · rw [hAdd] at hAdd'
        cases hAdd'
        rfl

/- Entries are only removed by what withdraws them. -/
theorem exec_find_of_kept
    {t : Table K}
    {a : Act K U V}
    {k : K}
    (hKept : Withdraws k a = false)
    (hOther : Adds k a = false) :
    (t.exec a).find k = t.find k := by
  cases a with
  | add k' =>
      have hNe : k' ≠ k := by simpa [Adds] using hOther
      exact if_neg (Ne.symm hNe)
  | take k' u =>
      have hNe : k' ≠ k := by simpa [Withdraws] using hKept
      exact if_neg (Ne.symm hNe)
  | drop gone =>
      have hStays : gone k = false := hKept
      simp [exec, hStays]
  | use | mark | skip => rfl

/- An object that has left its key does not come back. -/
theorem not_found_exec
    {t : Table K}
    {k : K}
    {ref : Nat}
    (hOld : ref < t.size)
    (hGone : t.find k ≠ some ref)
    (a : Act K U V) :
    (t.exec a).find k ≠ some ref := by
  intro hFound
  rcases find_of_exec hFound with hBefore | ⟨_, hRef⟩
  · exact hGone hBefore
  · omega

/- The same for an object under whatever key. -/
theorem not_registered_exec
    {t : Table K}
    {ref : Nat}
    (hOld : ref < t.size)
    (hGone : ¬ t.Registered ref)
    (a : Act K U V) :
    ¬ (t.exec a).Registered ref := by
  rintro ⟨k, hFound⟩
  exact
    not_found_exec hOld (fun hBefore => hGone ⟨k, hBefore⟩) a
      hFound

/- The object that is taken leaves the registry. -/
theorem not_registered_take
    {t : Table K}
    {k : K}
    {ref : Nat}
    (hSound : t.Sound)
    (hFound : t.find k = some ref)
    (u : U) :
    ¬ (t.exec (.take k u : Act K U V)).Registered ref := by
  rintro ⟨k', hFound'⟩
  simp only [exec] at hFound'
  split at hFound'
  · cases hFound'
  · next hNe =>
      exact hNe (hSound.one k' k ref hFound' hFound)

end Table

------------------------------------------------------------
-- Machines
------------------------------------------------------------

/- A machine, its registry and what its inputs do to it. -/
structure Machine (σ ι K U V : Type) where
  next : σ → ι → σ
  table : σ → Table K
  act : σ → ι → Act K U V

/- The state of a machine and what it has reached so far. -/
structure Logged (σ U V : Type) where
  state : σ
  log : List (Fact U V) := []

namespace Machine

variable (m : Machine σ ι K U V)

def logged
    (x : Logged σ U V)
    (l : ι) : Logged σ U V where
  state := m.next x.state l
  log := x.log ++ (m.table x.state).facts (m.act x.state l)

variable [DecidableEq K]

/- The actions are what the inputs do to the registry. -/
structure Refines : Prop where
  step :
    ∀ s l,
      m.table (m.next s l) = (m.table s).exec (m.act s l)

/- The input does not remove the entry of `k`. -/
def Keeps (k : K) (s : σ) (l : ι) : Prop :=
  Table.Withdraws k (m.act s l) = false

/- The input adds no object under `k`. -/
def Spares (k : K) (s : σ) (l : ι) : Prop :=
  Table.Adds k (m.act s l) = false

instance (k : K) (s : σ) (l : ι) :
    Decidable (m.Keeps k s l) :=
  inferInstanceAs (Decidable (_ = _))

instance (k : K) (s : σ) (l : ι) :
    Decidable (m.Spares k s l) :=
  inferInstanceAs (Decidable (_ = _))

variable {m}

theorem Refines.sound
    (hRefines : m.Refines)
    {s : σ}
    (hSound : (m.table s).Sound)
    (ls : List ι) :
    (m.table (ls.foldl m.next s)).Sound := by
  induction ls generalizing s with
  | nil => exact hSound
  | cons l ls ih =>
      apply ih
      rw [hRefines.step]
      exact hSound.exec _

theorem Refines.not_found_stays
    (hRefines : m.Refines)
    {s : σ}
    {k : K}
    {ref : Nat}
    (hOld : ref < (m.table s).size)
    (hGone : (m.table s).find k ≠ some ref)
    (ls : List ι) :
    (m.table (ls.foldl m.next s)).find k ≠ some ref := by
  induction ls generalizing s with
  | nil => exact hGone
  | cons l ls ih =>
      have hStep := hRefines.step s l
      apply ih
      · rw [hStep]
        exact
          Nat.lt_of_lt_of_le hOld
            (Table.size_le_exec _ (m.act s l))
      · rw [hStep]
        exact Table.not_found_exec hOld hGone _

/-
  While nothing withdraws its entry, an object stays under
  its key just if no other one is added under that key.
-/
theorem Refines.find_iff
    (hRefines : m.Refines)
    {s : σ}
    {k : K}
    {ref : Nat}
    {ls : List ι}
    (hSound : (m.table s).Sound)
    (hFound : (m.table s).find k = some ref)
    (hKept : StateMachine.Allowed (m.Keeps k) m.next s ls) :
    (m.table (ls.foldl m.next s)).find k = some ref ↔
      StateMachine.Allowed (m.Spares k) m.next s ls := by
  induction ls generalizing s with
  | nil => exact ⟨fun _ => trivial, fun _ => hFound⟩
  | cons l ls ih =>
      have hStep := hRefines.step s l
      have hSoundNext : (m.table (m.next s l)).Sound := by
        rw [hStep]
        exact hSound.exec _
      cases hAdds : Table.Adds k (m.act s l) with
      | false =>
          have hNext :
              (m.table (m.next s l)).find k = some ref := by
            rw [hStep,
              Table.exec_find_of_kept hKept.1 hAdds]
            exact hFound
          rw [List.foldl_cons, ih hSoundNext hNext hKept.2]
          exact ⟨fun hRest => ⟨hAdds, hRest⟩, And.right⟩
      | true =>
          -- Another object takes the key, and `ref` is gone.
          have hAct : m.act s l = .add k := by
            cases hAct : m.act s l with
            | add k' =>
                rw [hAct] at hAdds
                have hSame : k' = k := by
                  simpa [Table.Adds] using hAdds
                rw [hSame]
            | use | take | drop | mark | skip =>
                rw [hAct] at hAdds
                cases hAdds
          have hSmall := hSound.added k ref hFound
          have hSize :
              ref < (m.table (m.next s l)).size := by
            rw [hStep, hAct]
            exact Nat.lt_succ_of_lt hSmall
          have hGone :
              (m.table (m.next s l)).find k ≠ some ref := by
            rw [hStep, hAct]
            simp only [Table.exec, if_true, ne_eq,
              Option.some.injEq]
            omega
          constructor
          · intro hLater
            exact
              absurd hLater
                (hRefines.not_found_stays hSize hGone ls)
          · intro hSpared
            have hNot := hSpared.1
            unfold Spares at hNot
            rw [hAdds] at hNot
            cases hNot

end Machine

end Registry
