import Mathlib.Data.List.DropRight

/-
  Words in a list of characters, and what surrounds them.

  A padded word is found again by dropping what may stand in
  front of it and what may follow.  The words of a list are
  its maximal runs of the characters of a class, and numerals
  are read digit by digit in any base.

  Main declarations:
    * `Lexing.trim`, `Lexing.Padded`, `Lexing.trim_of_padded`
    * `Lexing.trim_append_cons`, `Lexing.trim_rdropWhile`
    * `Lexing.words`, `Lexing.words_eq`
    * `Lexing.words_congr`, `Lexing.mem_words`
    * `Lexing.value`, `Lexing.numeral`
-/

namespace Lexing

variable {α : Type}

------------------------------------------------------------
-- Padding
------------------------------------------------------------

section Padding

variable (lead trail : α → Bool)

/- The list without its padding on both sides. -/
def trim (s : List α) : List α :=
  (s.dropWhile lead).rdropWhile trail

/- The word has no padding of its own. -/
structure Trimmed (word : List α) : Prop where
  first : ∀ a rest, word = a :: rest → lead a = false
  last : ∀ rest a, word = rest ++ [a] → trail a = false

/- The list is the word with padding on both sides. -/
structure Padded (word s : List α) : Prop where
  trimmed : Trimmed lead trail word
  around :
    ∃ before after,
      (∀ a ∈ before, lead a = true) ∧
        (∀ a ∈ after, trail a = true) ∧
          s = before ++ word ++ after

variable {lead trail}

theorem rdropWhile_append_of_all
    {p : α → Bool}
    {s t : List α}
    (hAll : ∀ a ∈ t, p a = true) :
    (s ++ t).rdropWhile p = s.rdropWhile p := by
  induction t using List.reverseRecOn with
  | nil => rw [List.append_nil]
  | append_singleton t a ih =>
      rw [← List.append_assoc,
        List.rdropWhile_concat_pos p (s ++ t) a]
      · exact ih (fun b hMem => hAll b (by simp [hMem]))
      · exact hAll a (by simp)

/- Everything behind the last separator is dropped. -/
theorem rdropWhile_separator
    [DecidableEq α]
    (s : List α)
    {t : List α}
    {a : α}
    (hNone : a ∉ t) :
    (s ++ a :: t).rdropWhile (· != a) = s ++ [a] := by
  have hAll : ∀ b ∈ t, (b != a) = true := by
    intro b hMem
    simpa using ne_of_mem_of_not_mem hMem hNone
  rw [List.append_cons, rdropWhile_append_of_all hAll]
  exact List.rdropWhile_concat_neg _ s a (by simp)

/- The empty word is padded by anything that may follow. -/
theorem trim_eq_nil
    {before after : List α}
    (hBefore : ∀ a ∈ before, lead a = true)
    (hAfter : ∀ a ∈ after, trail a = true) :
    trim lead trail (before ++ after) = [] := by
  rw [trim, List.dropWhile_append_of_pos hBefore,
    List.rdropWhile_eq_nil_iff]
  intro a hMem
  exact hAfter a ((List.dropWhile_sublist lead).mem hMem)

theorem trim_of_padded
    {word s : List α}
    (hPadded : Padded lead trail word s) :
    trim lead trail s = word := by
  rcases hPadded with
    ⟨hTrimmed, before, after, hBefore, hAfter, hAround⟩
  rw [hAround]
  cases word with
  | nil =>
      rw [List.append_nil]
      exact trim_eq_nil hBefore hAfter
  | cons a rest =>
      have hFirst := hTrimmed.first a rest rfl
      rw [trim, List.append_assoc,
        List.dropWhile_append_of_pos hBefore, List.cons_append,
        List.dropWhile_cons_of_neg (by simp [hFirst]),
        ← List.cons_append, rdropWhile_append_of_all hAfter,
        List.rdropWhile_eq_self_iff]
      intro hSome hTrail
      have hLast :=
        hTrimmed.last _ _
          (List.dropLast_append_getLast hSome).symm
      rw [hLast] at hTrail
      cases hTrail

theorem padded_trim (s : List α) :
    Padded lead trail (trim lead trail s) s where
  trimmed := by
    constructor
    · intro a rest hWord
      have hPrefix :
          trim lead trail s <+: s.dropWhile lead :=
        List.rdropWhile_prefix trail _
      rw [hWord] at hPrefix
      rcases hPrefix with ⟨more, hDropped⟩
      have hNot :=
        List.head_dropWhile_not lead
          (l := s) (by simp [← hDropped])
      simpa [← hDropped] using hNot
    · intro rest a hWord
      have hSome :
          (s.dropWhile lead).rdropWhile trail ≠ [] := by
        intro hEmpty
        rw [trim, hEmpty] at hWord
        simp at hWord
      have hNot :=
        List.rdropWhile_last_not trail (s.dropWhile lead) hSome
      have hLast :
          ((s.dropWhile lead).rdropWhile trail).getLast
              hSome = a := by
        apply List.getLast_eq_iff_getLast?_eq_some hSome |>.mpr
        rw [trim] at hWord
        simp [hWord]
      rw [hLast] at hNot
      exact Bool.eq_false_iff.mpr hNot
  around := by
    refine
      ⟨s.takeWhile lead, (s.dropWhile lead).rtakeWhile trail,
        ?_, ?_, ?_⟩
    · exact fun a hMem => List.mem_takeWhile_imp hMem
    · exact fun a hMem => List.mem_rtakeWhile_imp hMem
    · rw [trim, List.append_assoc,
        List.rdropWhile_append_rtakeWhile,
        List.takeWhile_append_dropWhile]

@[simp] theorem trim_dropWhile (s : List α) :
    trim lead trail (s.dropWhile lead) = trim lead trail s := by
  rw [trim, List.dropWhile_idempotent, trim]

/- The padding behind may be dropped first. -/
@[simp] theorem trim_rdropWhile (s : List α) :
    trim lead trail (s.rdropWhile trail) =
      trim lead trail s := by
  have hPadded : Padded lead trail (trim lead trail s) s :=
    padded_trim s
  rcases hPadded with
    ⟨hTrimmed, before, after, hBefore, hAfter, hAround⟩
  cases hWord : trim lead trail s with
  | nil =>
      rw [hWord, List.append_nil] at hAround
      rw [hAround, rdropWhile_append_of_all hAfter]
      have hPrefix :
          before.rdropWhile trail <+: before :=
        List.rdropWhile_prefix trail before
      have hNone :
          trim lead trail (before.rdropWhile trail ++ []) =
            [] :=
        trim_eq_nil
          (fun a hMem => hBefore a (hPrefix.subset hMem))
          (by simp)
      rwa [List.append_nil] at hNone
  | cons a rest =>
      rw [hWord] at hTrimmed hAround
      apply trim_of_padded
      refine ⟨hTrimmed, before, [], hBefore, by simp, ?_⟩
      have hKept :
          (before ++ a :: rest).rdropWhile trail =
            before ++ a :: rest := by
        rw [List.rdropWhile_eq_self_iff]
        intro hSome hTrail
        rw [List.getLast_append_of_ne_nil _
          (List.cons_ne_nil a rest)] at hTrail
        have hLast :=
          hTrimmed.last _ _
            (List.dropLast_append_getLast
              (List.cons_ne_nil a rest)).symm
        rw [hLast] at hTrail
        cases hTrail
      rw [hAround, rdropWhile_append_of_all hAfter, hKept,
        List.append_nil]

/- Each side of a mark that is no padding is trimmed alone. -/
theorem trim_append_cons
    {mark : α}
    (hLead : lead mark = false)
    (hTrail : trail mark = false)
    (s t : List α) :
    trim lead trail (s ++ mark :: t) =
      s.dropWhile lead ++ mark :: t.rdropWhile trail := by
  have hRight (u : List α) :
      (u ++ mark :: t).rdropWhile trail =
        u ++ mark :: t.rdropWhile trail := by
    rw [List.rdropWhile]
    simp only [List.reverse_append, List.reverse_cons,
      List.append_assoc, List.dropWhile_append,
      List.isEmpty_iff]
    split
    · next hEmpty =>
      simp [List.rdropWhile, hEmpty, hTrail]
    · simp [List.rdropWhile]
  have hLeft :
      (s ++ mark :: t).dropWhile lead =
        s.dropWhile lead ++ mark :: t := by
    rw [List.dropWhile_append]
    split
    · next hEmpty =>
      rw [List.isEmpty_iff] at hEmpty
      simp [hEmpty, hLead]
    · rfl
  rw [trim, hLeft, hRight]

end Padding

------------------------------------------------------------
-- Words
------------------------------------------------------------

section Words

/- A run that is not empty is a word. -/
def close (run : List α) (later : List (List α)) :
    List (List α) :=
  if run.isEmpty then later else run :: later

theorem mem_close
    {run : List α}
    {later : List (List α)}
    {a : α}
    (hMem : a ∈ run ∨ ∃ word ∈ later, a ∈ word) :
    ∃ word ∈ close run later, a ∈ word := by
  unfold close
  rcases hMem with hRun | ⟨word, hWord, hMem⟩
  · have hSome : ¬ run.isEmpty = true := by
      rw [List.isEmpty_iff]
      exact List.ne_nil_of_mem hRun
    rw [if_neg hSome]
    exact ⟨run, List.mem_cons_self, hRun⟩
  · split
    · exact ⟨word, hWord, hMem⟩
    · exact ⟨word, List.mem_cons_of_mem _ hWord, hMem⟩

variable (p : α → Bool)

/- The run in front, which may be empty, and the later words. -/
def runs : List α → List α × List (List α)
| [] => ([], [])
| a :: s =>
    if p a then
      (a :: (runs s).1, (runs s).2)
    else
      ([], close (runs s).1 (runs s).2)

/- The maximal runs of the class, in order. -/
def words (s : List α) : List (List α) :=
  close (runs p s).1 (runs p s).2

@[simp] theorem words_nil : words p [] = [] := rfl

theorem words_cons_of_neg
    {a : α}
    (hOut : p a = false)
    (s : List α) :
    words p (a :: s) = words p s := by
  simp [words, runs, hOut, close]

theorem runs_eq (s : List α) :
    runs p s = (s.takeWhile p, words p (s.dropWhile p)) := by
  induction s with
  | nil => rfl
  | cons a s ih =>
      by_cases hIn : p a = true
      · simp only [runs, hIn, if_true, List.takeWhile_cons,
          List.dropWhile_cons, ih]
      · have hOut := Bool.eq_false_iff.mpr hIn
        rw [List.dropWhile_cons_of_neg hIn,
          List.takeWhile_cons_of_neg hIn,
          words_cons_of_neg p hOut]
        simp only [runs, hOut, Bool.false_eq_true, if_false]
        rfl

theorem words_cons_of_pos
    {a : α}
    (hIn : p a = true)
    (s : List α) :
    words p (a :: s) =
      (a :: s.takeWhile p) :: words p (s.dropWhile p) := by
  simp [words, runs, hIn, close, runs_eq p s]

/- The next word is found behind what is not of the class. -/
theorem words_eq (s : List α) :
    words p s =
      match s.dropWhile (fun a => !p a) with
      | [] => []
      | a :: rest =>
          (a :: rest.takeWhile p) ::
            words p (rest.dropWhile p) := by
  induction s with
  | nil => rfl
  | cons a s ih =>
      by_cases hIn : p a = true
      · rw [List.dropWhile_cons_of_neg (by simp [hIn]),
          words_cons_of_pos p hIn]
      · have hOut := Bool.eq_false_iff.mpr hIn
        rw [List.dropWhile_cons_of_pos (by simp [hOut]),
          words_cons_of_neg p hOut, ih]

variable {p}

/- Only the class of the characters that occur matters. -/
theorem words_congr
    {q : α → Bool}
    {s : List α}
    (hSame : ∀ a ∈ s, p a = q a) :
    words p s = words q s := by
  have hRuns : runs p s = runs q s := by
    induction s with
    | nil => rfl
    | cons a s ih =>
        simp only [runs, hSame a List.mem_cons_self,
          ih (fun b hMem => hSame b (List.mem_cons_of_mem _ hMem))]
  rw [words, words, hRuns]

/- Every character of the class is in a word. -/
theorem mem_words
    {s : List α}
    {a : α}
    (hMem : a ∈ s)
    (hIn : p a = true) :
    ∃ word ∈ words p s, a ∈ word := by
  apply mem_close
  induction s with
  | nil => cases hMem
  | cons b s ih =>
      simp only [runs]
      rcases List.mem_cons.mp hMem with hHere | hLater
      · rw [← hHere, if_pos hIn]
        exact Or.inl List.mem_cons_self
      · split
        · rcases ih hLater with hRun | hWord
          · exact Or.inl (List.mem_cons_of_mem _ hRun)
          · exact Or.inr hWord
        · exact Or.inr (mem_close (ih hLater))

end Words

------------------------------------------------------------
-- Numerals
------------------------------------------------------------

section Numerals

variable (digit : α → Nat)

/- The number that the digits stand for in the base. -/
def value (base : Nat) (digits : List α) : Nat :=
  digits.foldl (fun n a => n * base + digit a) 0

/- A last digit counts once, what is before it `base` times. -/
theorem value_concat
    (base : Nat)
    (digits : List α)
    (a : α) :
    value digit base (digits ++ [a]) =
      value digit base digits * base + digit a :=
  List.foldl_concat _ _ _ _

/- Zeros are zero in every base. -/
theorem value_eq_zero
    {base base' : Nat}
    {digits : List α}
    (hBase : 0 < base)
    (hZero : value digit base digits = 0) :
    value digit base' digits = 0 := by
  induction digits using List.reverseRecOn with
  | nil => rfl
  | append_singleton digits a ih =>
      rw [value_concat] at hZero ⊢
      have hRest : value digit base digits = 0 := by
        rcases Nat.mul_eq_zero.mp
            (Nat.eq_zero_of_add_eq_zero_right hZero) with
          hRest | hNone
        · exact hRest
        · exact absurd hNone hBase.ne'
      rw [ih hRest, Nat.zero_mul, Nat.zero_add]
      exact Nat.eq_zero_of_add_eq_zero_left hZero

/- The last digit is the same in every base. -/
theorem exists_value_eq
    {bound : Nat}
    {digits : List α}
    (hBound : 0 < bound)
    (hAll : ∀ a ∈ digits, digit a < bound) :
    ∃ front d,
      (∀ a ∈ front, digit a < bound) ∧
        d < bound ∧
          ∀ base,
            value digit base digits =
              value digit base front * base + d := by
  induction digits using List.reverseRecOn with
  | nil =>
      exact ⟨[], 0, hAll, hBound, fun _ => by simp [value]⟩
  | append_singleton digits a _ =>
      exact
        ⟨digits, digit a,
          fun b hMem => hAll b (List.mem_append_left _ hMem),
          hAll a (by simp), fun base => value_concat _ _ _ _⟩

/- The number, if the whole list is made of digits. -/
def numeral (base : Nat) (digits : List α) : Option Nat :=
  if digits ≠ [] ∧ ∀ a ∈ digits, digit a < base then
    some (value digit base digits)
  else
    none

theorem numeral_eq_some_iff
    {base n : Nat}
    {digits : List α} :
    numeral digit base digits = some n ↔
      (digits ≠ [] ∧ ∀ a ∈ digits, digit a < base) ∧
        value digit base digits = n := by
  unfold numeral
  split
  · next hAll =>
      rw [Option.some.injEq]
      exact ⟨fun hValue => ⟨hAll, hValue⟩, And.right⟩
  · next hNot =>
      constructor
      · intro hSome
        cases hSome
      · exact fun hBoth => absurd hBoth.1 hNot

end Numerals

end Lexing
