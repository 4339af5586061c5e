import Mathlib.Data.List.Nodup
import Mathlib.Tactic.Common

/-
  Names drawn one after the other from a counter that others
  draw from as well.

  Only the places of the names on the counter are remembered:
  they grow, and stay below the place the counter is at.  As
  long as no two places have the same name, no two of the
  names that were drawn are the same.

  Main declarations:
    * `Draws.Drawn`
    * `Draws.Drawn.later`, `Draws.Drawn.draw`
    * `Draws.Drawn.nodup`, `Draws.Drawn.apart`
-/

namespace Draws

variable {α : Type}
variable {name : Nat → α}
variable {n n' : Nat}
variable {names : List α}

/- The names were drawn at growing places below `n`. -/
def Drawn
    (name : Nat → α)
    (n : Nat)
    (names : List α) : Prop :=
  ∃ places : List Nat,
    names = places.map name ∧
      places.Pairwise (· < ·) ∧ ∀ i ∈ places, i < n

namespace Drawn

theorem nil (name : Nat → α) (n : Nat) : Drawn name n [] :=
  ⟨[], rfl, List.Pairwise.nil, by simp⟩

/- Somebody else has drawn. -/
theorem later
    (hDrawn : Drawn name n names)
    (hLater : n ≤ n') :
    Drawn name n' names := by
  rcases hDrawn with ⟨places, hNames, hGrow, hBelow⟩
  exact
    ⟨places, hNames, hGrow,
      fun i hMem =>
        Nat.lt_of_lt_of_le (hBelow i hMem) hLater⟩

/- The next name is drawn. -/
theorem draw
    (hDrawn : Drawn name n names)
    (hLater : n < n') :
    Drawn name n' (names ++ [name n]) := by
  rcases hDrawn with ⟨places, hNames, hGrow, hBelow⟩
  refine ⟨places ++ [n], ?_, ?_, ?_⟩
  · rw [List.map_append, hNames]
    rfl
  · rw [List.pairwise_append]
    refine ⟨hGrow, List.pairwise_singleton _ _, ?_⟩
    intro i hMem j hLast
    rw [List.mem_singleton] at hLast
    rw [hLast]
    exact hBelow i hMem
  · intro i hMem
    rcases List.mem_append.mp hMem with hOld | hLast
    · exact Nat.lt_trans (hBelow i hOld) hLater
    · rw [List.mem_singleton] at hLast
      rw [hLast]
      exact hLater

theorem nodup
    (hDrawn : Drawn name n names)
    (hName :
      ∀ i < n, ∀ j < n, name i = name j → i = j) :
    names.Nodup := by
  rcases hDrawn with ⟨places, hNames, hGrow, hBelow⟩
  have hPlaces : places.Nodup :=
    hGrow.imp (fun hLess => Nat.ne_of_lt hLess)
  rw [hNames]
  refine hPlaces.map_on ?_
  intro i hI j hJ hSame
  exact hName i (hBelow i hI) j (hBelow j hJ) hSame

theorem of_mem
    (hDrawn : Drawn name n names)
    {x : α}
    (hMem : x ∈ names) :
    ∃ i < n, x = name i := by
  rcases hDrawn with ⟨places, hNames, _, hBelow⟩
  rw [hNames] at hMem
  rcases List.mem_map.mp hMem with ⟨i, hPlace, hName⟩
  exact ⟨i, hBelow i hPlace, hName.symm⟩

/- Counters with different names have no name in common. -/
theorem apart
    {name' : Nat → α}
    {names' : List α}
    (hDrawn : Drawn name n names)
    (hDrawn' : Drawn name' n' names')
    (hApart : ∀ i j, name i ≠ name' j)
    {x : α}
    (hMem : x ∈ names) :
    x ∉ names' := by
  intro hMem'
  rcases hDrawn.of_mem hMem with ⟨i, _, hI⟩
  rcases hDrawn'.of_mem hMem' with ⟨j, _, hJ⟩
  exact hApart i j (hI.symm.trans hJ)

end Drawn

end Draws
