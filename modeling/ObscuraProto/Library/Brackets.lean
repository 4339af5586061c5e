import Mathlib.Algebra.Ring.Int.Defs
import Mathlib.Data.List.Infix

/-
  Logs of openings and closings.

  A log is paired if every closing closes a key that is open
  at that point.  The number of openings less that of the
  closings is then the number of open keys, and is never
  negative on the way.

  Main declarations:
    * `Brackets.Bracket`, `Brackets.openKeys`
    * `Brackets.Paired`, `Brackets.balance`
    * `Brackets.paired_snoc_closing`
    * `Brackets.Paired.balance_eq`
    * `Brackets.Paired.balance_nonneg`
-/

namespace Brackets

variable {K : Type}

inductive Bracket (K : Type) where
| opening (k : K)
| closing (k : K)
deriving DecidableEq

/- Openings count up, closings count down. -/
def Bracket.weight : Bracket K → Int
| .opening _ => 1
| .closing _ => -1

/- A counter over the log, oldest entry first. -/
def balance (log : List (Bracket K)) : Int :=
  (log.map Bracket.weight).sum

variable [DecidableEq K]

def apply (keys : List K) : Bracket K → List K
| .opening k => k :: keys
| .closing k => keys.erase k

/- The keys opened and not closed since. -/
def openKeys (log : List (Bracket K)) : List K :=
  log.foldl apply []

/- A key is closed only while it is open. -/
def Paired (log : List (Bracket K)) : Prop :=
  ∀ (before : List (Bracket K)) (k : K),
    before ++ [.closing k] <+: log → k ∈ openKeys before

------------------------------------------------------------
-- One More Entry
------------------------------------------------------------

theorem openKeys_snoc
    (log : List (Bracket K))
    (b : Bracket K) :
    openKeys (log ++ [b]) = apply (openKeys log) b := by
  unfold openKeys
  rw [List.foldl_append]
  rfl

omit [DecidableEq K] in
theorem balance_snoc
    (log : List (Bracket K))
    (b : Bracket K) :
    balance (log ++ [b]) = balance log + b.weight := by
  unfold balance
  rw [List.map_append, List.sum_append]
  simp

theorem paired_nil : Paired ([] : List (Bracket K)) := by
  intro before k hPrefix
  have hNil := List.prefix_nil.mp hPrefix
  simp at hNil

theorem Paired.of_prefix
    {log log' : List (Bracket K)}
    (hPaired : Paired log)
    (hPrefix : log' <+: log) :
    Paired log' :=
  fun before k hBefore =>
    hPaired before k (hBefore.trans hPrefix)

/- Openings are never out of place. -/
theorem paired_snoc_opening
    (log : List (Bracket K))
    (k : K) :
    Paired (log ++ [.opening k]) ↔ Paired log := by
  constructor
  · exact fun hPaired => hPaired.of_prefix ⟨_, rfl⟩
  · intro hPaired before k' hPrefix
    rcases List.prefix_concat_iff.mp hPrefix with
      hWhole | hPrefix
    · have hLast := (List.append_inj' hWhole rfl).2
      cases hLast
    · exact hPaired before k' hPrefix

theorem paired_snoc_closing
    (log : List (Bracket K))
    (k : K) :
    Paired (log ++ [.closing k]) ↔
      Paired log ∧ k ∈ openKeys log := by
  constructor
  · intro hPaired
    exact
      ⟨hPaired.of_prefix ⟨_, rfl⟩,
        hPaired log k (List.prefix_refl _)⟩
  · rintro ⟨hPaired, hOpen⟩ before k' hPrefix
    rcases List.prefix_concat_iff.mp hPrefix with
      hWhole | hPrefix
    · rcases List.append_inj' hWhole rfl with ⟨hLog, hLast⟩
      cases hLast
      rw [hLog]
      exact hOpen
    · exact hPaired before k' hPrefix

------------------------------------------------------------
-- Counters
------------------------------------------------------------

/- The counter is the number of open keys. -/
theorem Paired.balance_eq
    {log : List (Bracket K)}
    (hPaired : Paired log) :
    balance log = (openKeys log).length := by
  induction log using List.reverseRecOn with
  | nil => rfl
  | append_singleton log b ih =>
      rw [balance_snoc, openKeys_snoc,
        ih (hPaired.of_prefix ⟨_, rfl⟩)]
      cases b with
      | opening k =>
          simp [apply, Bracket.weight]
      | closing k =>
          have hOpen :=
            ((paired_snoc_closing log k).mp hPaired).2
          have hSome := List.length_pos_of_mem hOpen
          have hLength := List.length_erase_of_mem hOpen
          simp only [apply, Bracket.weight]
          omega

theorem Paired.balance_nonneg
    {log before : List (Bracket K)}
    (hPaired : Paired log)
    (hPrefix : before <+: log) :
    0 ≤ balance before := by
  rw [(hPaired.of_prefix hPrefix).balance_eq]
  exact Int.natCast_nonneg _

end Brackets
