import Mathlib.Algebra.Group.Nat.Defs
import Mathlib.Logic.Basic
import Mathlib.Tactic.Common

/-
  Identifiers drawn from a counter of 64 bits.

  Every holder has identifiers that the counter once had.  As
  long as the counter has not come round, an identifier is
  held by one holder only, and the next one by nobody.

  Main declarations:
    * `Numbering.Fresh`
    * `Numbering.Fresh.shrink`, `Numbering.Fresh.later`
    * `Numbering.Fresh.unheld`, `Numbering.Fresh.add`
    * `Numbering.toNat_counter`
-/

namespace Numbering

variable {κ : Type}
variable {held held' : κ → UInt64 → Prop}
variable {drawn : Nat}

/- What is held was drawn, and for one holder. -/
structure Fresh
    (held : κ → UInt64 → Prop)
    (drawn : Nat) : Prop where
  below : ∀ k id, held k id → id.toNat < drawn
  distinct : ∀ k l id, held k id → held l id → k = l

namespace Fresh

theorem nobody (hNone : ∀ k id, ¬ held k id) :
    Fresh held drawn where
  below := fun k id hHeld => (hNone k id hHeld).elim
  distinct := fun k _ id hHeld _ => (hNone k id hHeld).elim

/- Identifiers may be given up. -/
theorem shrink
    (hFresh : Fresh held drawn)
    (hHeld : ∀ k id, held' k id → held k id) :
    Fresh held' drawn where
  below := fun k id hNow => hFresh.below k id (hHeld k id hNow)
  distinct := by
    intro k l id hFirst hSecond
    exact
      hFresh.distinct k l id (hHeld k id hFirst)
        (hHeld l id hSecond)

/- More may be drawn than are held. -/
theorem later
    {drawn' : Nat}
    (hFresh : Fresh held drawn)
    (hLater : drawn ≤ drawn') :
    Fresh held drawn' where
  below := by
    intro k id hHeld
    have hBelow := hFresh.below k id hHeld
    omega
  distinct := hFresh.distinct

theorem unheld
    (hFresh : Fresh held drawn)
    {id : UInt64}
    (hDrawn : drawn ≤ id.toNat)
    (k : κ) :
    ¬ held k id := by
  intro hHeld
  have hBelow := hFresh.below k id hHeld
  omega

/- One holder gets an identifier that nobody has. -/
theorem add
    (hFresh : Fresh held drawn)
    {k : κ}
    {id : UInt64}
    (hDrawn : id.toNat < drawn)
    (hUnheld : ∀ l, ¬ held l id)
    (hHeld :
      ∀ l other,
        held' l other →
          held l other ∨ (l = k ∧ other = id)) :
    Fresh held' drawn where
  below := by
    intro l other hNow
    rcases hHeld l other hNow with hBefore | ⟨_, hId⟩
    · exact hFresh.below l other hBefore
    · rw [hId]
      exact hDrawn
  distinct := by
    intro l m other hFirst hSecond
    rcases hHeld l other hFirst with hFirst | ⟨hL, hId⟩
    · rcases hHeld m other hSecond with hSecond | ⟨_, hId⟩
      · exact hFresh.distinct l m other hFirst hSecond
      · rw [hId] at hFirst
        exact (hUnheld l hFirst).elim
    · rcases hHeld m other hSecond with hSecond | ⟨hM, _⟩
      · rw [hId] at hSecond
        exact (hUnheld m hSecond).elim
      · exact hL.trans hM.symm

end Fresh

/- The counter has its number until it comes round. -/
theorem toNat_counter
    {drawn : Nat}
    (hDrawn : drawn < 2 ^ 64) :
    (UInt64.ofNat drawn).toNat = drawn :=
  UInt64.toNat_ofNat_of_lt' hDrawn

end Numbering
