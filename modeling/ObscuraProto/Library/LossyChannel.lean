import Mathlib.Data.List.Sublists
import Mathlib.Logic.Relation

/-
  A channel that may lose messages but neither reorders nor
  repeats them.

  Messages are numbered in the order they are sent.  The
  receiver keeps a cursor behind the last message it took and
  may take any later one; whatever it skips is lost.

  Main declarations:
    * `LossyChannel.State`, `LossyChannel.Step`
    * `LossyChannel.WellFormed`
    * `LossyChannel.WellFormed.received_sublist`
-/

namespace LossyChannel

structure State (α : Type) where
  sent : List α
  cursor : Nat
  received : List α

variable {α : Type}

def initial : State α :=
  { sent := [], cursor := 0, received := [] }

inductive Step : State α → State α → Prop
| send (c : State α) (x : α) :
    Step c { c with sent := c.sent ++ [x] }
| receive
    (c : State α)
    (i : Nat)
    (x : α)
    (hLater : c.cursor ≤ i)
    (hSent : c.sent[i]? = some x) :
    Step c
      { c with
        cursor := i + 1
        received := c.received ++ [x] }

/-
  What was received comes, in order, from the messages
  before the cursor.
-/
structure WellFormed (c : State α) : Prop where
  cursor_le : c.cursor ≤ c.sent.length
  sublist : c.received.Sublist (c.sent.take c.cursor)

theorem wellFormed_initial :
    WellFormed (initial : State α) where
  cursor_le := Nat.le_refl 0
  sublist := List.Sublist.refl []

theorem Step.wellFormed
    {c c' : State α}
    (hStep : Step c c')
    (hWf : WellFormed c) :
    WellFormed c' := by
  cases hStep with
  | send x =>
      refine ⟨?_, ?_⟩
      · have hLe := hWf.cursor_le
        simp only [List.length_append]
        omega
      · simp only [List.take_append_of_le_length
          hWf.cursor_le]
        exact hWf.sublist
  | receive i x hLater hSent =>
      rcases List.getElem?_eq_some_iff.mp hSent with
        ⟨hIndex, hGet⟩
      refine ⟨hIndex, ?_⟩
      have hTake :
          c.sent.take (i + 1) = c.sent.take i ++ [x] := by
        rw [← hGet, List.take_append_getElem hIndex]
      have hGrow :
          (c.sent.take c.cursor).Sublist (c.sent.take i) :=
        (List.take_prefix_take_left hLater).sublist
      simp only [hTake]
      exact (hWf.sublist.trans hGrow).append_right [x]

/- Nothing is reordered, repeated or invented. -/
theorem WellFormed.received_sublist
    {c : State α}
    (hWf : WellFormed c) :
    c.received.Sublist c.sent :=
  hWf.sublist.trans (List.take_sublist _ _)

end LossyChannel
