import Mathlib.Algebra.Order.Field.Basic
import Mathlib.Algebra.Order.Group.MinMax
import Mathlib.Tactic.Linarith
import Mathlib.Tactic.Ring

/-
  Rate limits by a bucket of tokens.

  A bucket of a given capacity is refilled at a constant rate
  and loses a token for every recorded request.  Its level
  after some records is the least of the capacity and, for
  every record, the capacity and what has been refilled since
  then less that record and those after it.  A request is
  therefore let pass exactly when no window that ends with it
  holds more requests than capacity and rate allow.

  Main declarations:
    * `Tokens.level`, `Tokens.Allows`
    * `Tokens.level_refill`, `Tokens.level_record`
    * `Tokens.one_le_level_iff`
    * `Tokens.Entry`, `Tokens.Gated`
    * `Tokens.Gated.countP_le`
-/

namespace Tokens

variable {R : Type}
variable [Field R] [LinearOrder R]

------------------------------------------------------------
-- The Level of a Bucket
------------------------------------------------------------

/- Records are given oldest first. -/
def level
    (capacity rate : R) : List R → R → R
| [], _ => capacity
| a :: later, t =>
    min
      (capacity + rate * (t - a) - ((later.length + 1 : Nat) : R))
      (level capacity rate later t)

/-
  One more request at time `t` is within the limit of every
  window that begins with a record.
-/
def Allows
    (capacity rate : R)
    (records : List R)
    (t : R) : Prop :=
  ∀ a later,
    (a :: later) <:+ records →
      ((later.length + 1 : Nat) : R) + 1 ≤
        capacity + rate * (t - a)

variable {capacity rate : R}

theorem level_le
    (records : List R)
    (t : R) :
    level capacity rate records t ≤ capacity := by
  induction records with
  | nil => exact le_refl capacity
  | cons a later ih => exact (min_le_right _ _).trans ih

variable [IsStrictOrderedRing R]

/- The law of the windows is the test for a token. -/
theorem one_le_level_iff
    (hCapacity : 1 ≤ capacity)
    (records : List R)
    (t : R) :
    1 ≤ level capacity rate records t ↔
      Allows capacity rate records t := by
  induction records with
  | nil =>
      constructor
      · intro _ a later hSuffix
        have hNil := List.suffix_nil.mp hSuffix
        cases hNil
      · intro _
        exact hCapacity
  | cons b records ih =>
      rw [level, le_min_iff, ih]
      constructor
      · rintro ⟨hFirst, hLater⟩ a later hSuffix
        rcases List.suffix_cons_iff.mp hSuffix with
          hWhole | hInner
        · cases hWhole
          linarith
        · exact hLater a later hInner
      · intro hAllows
        refine ⟨?_, ?_⟩
        · have hFirst :=
            hAllows b records (List.suffix_refl _)
          linarith
        · intro a later hSuffix
          exact
            hAllows a later
              (hSuffix.trans (List.suffix_cons b records))

/- A refill adds what has come in and is clipped. -/
theorem level_refill
    (hRate : 0 ≤ rate)
    (records : List R)
    {t u : R}
    (hOrder : t ≤ u) :
    min (level capacity rate records t + (u - t) * rate)
        capacity =
      level capacity rate records u := by
  have hAdded : 0 ≤ (u - t) * rate :=
    mul_nonneg (sub_nonneg.mpr hOrder) hRate
  induction records with
  | nil =>
      rw [level, level, min_eq_right]
      linarith
  | cons a later ih =>
      have hFirst :
          capacity + rate * (t - a) -
                ((later.length + 1 : Nat) : R) +
              (u - t) * rate =
            capacity + rate * (u - a) -
              ((later.length + 1 : Nat) : R) := by
        ring
      rw [level, level, min_add, hFirst, min_assoc, ih]

/- A record takes one token. -/
theorem level_record
    (records : List R)
    (t : R) :
    level capacity rate (records ++ [t]) t =
      level capacity rate records t - 1 := by
  induction records with
  | nil =>
      rw [List.nil_append, level, level, level, sub_self,
        mul_zero, add_zero, min_eq_left]
      · simp
      · simp
  | cons a later ih =>
      have hFirst :
          capacity + rate * (t - a) -
              (((later ++ [t]).length + 1 : Nat) : R) =
            capacity + rate * (t - a) -
                ((later.length + 1 : Nat) : R) -
              1 := by
        rw [List.length_append, List.length_singleton]
        push_cast
        ring
      rw [List.cons_append, level, level, ih, hFirst,
        min_sub_sub_right]

/- The level only rises until the next record. -/
theorem level_mono
    (hRate : 0 ≤ rate)
    (records : List R)
    {t u : R}
    (hOrder : t ≤ u) :
    level capacity rate records t ≤
      level capacity rate records u := by
  have hAdded : 0 ≤ (u - t) * rate :=
    mul_nonneg (sub_nonneg.mpr hOrder) hRate
  rw [← level_refill hRate records hOrder, le_min_iff]
  refine ⟨?_, level_le records t⟩
  linarith

------------------------------------------------------------
-- Admitted Requests
------------------------------------------------------------

/- When an admitted request was checked and recorded. -/
structure Entry (R : Type) where
  checked : R
  recorded : R

/- Every request was within the limits when it came. -/
inductive Gated (capacity rate : R) : List (Entry R) → Prop
| nil : Gated capacity rate []
| snoc
    {log : List (Entry R)}
    {e : Entry R} :
    Gated capacity rate log →
      Allows capacity rate (log.map Entry.recorded)
          e.checked →
        Gated capacity rate (log ++ [e])

/- The request meets the closed window from `a` to `b`. -/
def Entry.meets (a b : R) (e : Entry R) : Bool :=
  decide (a ≤ e.recorded) && decide (e.checked ≤ b)

/- A count begins with the first that is counted. -/
theorem exists_suffix_of_countP_pos
    {α : Type}
    {p : α → Bool}
    {l : List α}
    (hSome : 0 < l.countP p) :
    ∃ a later,
      (a :: later) <:+ l ∧
        p a = true ∧ l.countP p ≤ later.length + 1 := by
  induction l with
  | nil => cases hSome
  | cons b l ih =>
      by_cases hFirst : p b = true
      · refine ⟨b, l, List.suffix_refl _, hFirst, ?_⟩
        exact List.countP_le_length
      · rw [List.countP_cons_of_neg hFirst] at hSome ⊢
        rcases ih hSome with ⟨a, later, hSuffix, hRest⟩
        exact
          ⟨a, later, hSuffix.trans (List.suffix_cons b l),
            hRest⟩

/- The last request of a window had all of it in sight. -/
theorem Gated.countP_le
    {log : List (Entry R)}
    (hCapacity : 1 ≤ capacity)
    (hRate : 0 ≤ rate)
    (hGated : Gated capacity rate log)
    {a b : R}
    (hOrder : a ≤ b) :
    (log.countP (Entry.meets a b) : R) ≤
      capacity + rate * (b - a) := by
  have hNone : 0 ≤ rate * (b - a) :=
    mul_nonneg hRate (sub_nonneg.mpr hOrder)
  induction hGated with
  | nil =>
      rw [List.countP_nil, Nat.cast_zero]
      linarith
  | @snoc log e _ hAllows ih =>
      rw [List.countP_append, List.countP_singleton]
      cases hMeets : e.meets a b with
      | false => simpa using ih
      | true =>
          have hBefore : e.checked ≤ b := by
            simp only [Entry.meets, Bool.and_eq_true,
              decide_eq_true_eq] at hMeets
            exact hMeets.2
          rw [if_pos rfl]
          by_cases hEmpty : log.countP (Entry.meets a b) = 0
          · rw [hEmpty, Nat.zero_add, Nat.cast_one]
            linarith
          · rcases
                exists_suffix_of_countP_pos
                  (Nat.pos_of_ne_zero hEmpty) with
              ⟨f, later, hSuffix, hFirst, hCount⟩
            have hAfter : a ≤ f.recorded := by
              simp only [Entry.meets, Bool.and_eq_true,
                decide_eq_true_eq] at hFirst
              exact hFirst.1
            have hLimit :=
              hAllows f.recorded (later.map Entry.recorded)
                (hSuffix.map Entry.recorded)
            rw [List.length_map] at hLimit
            have hWindow :
                rate * (e.checked - f.recorded) ≤
                  rate * (b - a) := by
              apply mul_le_mul_of_nonneg_left _ hRate
              linarith
            have hCast :
                (log.countP (Entry.meets a b) : R) ≤
                  ((later.length + 1 : Nat) : R) :=
              Nat.cast_le.mpr hCount
            rw [Nat.cast_add, Nat.cast_one]
            linarith

end Tokens
