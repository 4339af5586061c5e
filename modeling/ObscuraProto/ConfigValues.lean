import Mathlib.Tactic.IntervalCases
import ObscuraProto.ConfigOverrides

/-
  What becomes of the values of a configuration file.

  A value that is a whole decimal or hexadecimal number in
  the range of its field arrives as it is.  Others are kept
  out only where `std::stoul` throws: trailing text, signs
  and high bits are dropped, decimal versions are read as
  hexadecimal and unknown words count as false.

  Key definitions include:
    * `ConfigFile.literal`, `ConfigFile.entries`
    * `ConfigFile.NoNumber`, `ConfigFile.NoVersions`
    * `ConfigFile.Faithful`, `ConfigFile.Plain`

  Key theorems include:
    * `ConfigFile.stoulOf_literal`
    * `ConfigFile.scanVersions_eq`
    * `ConfigFile.values_faithful_iff`
-/

namespace ObscuraProto

namespace ConfigFile

------------------------------------------------------------
-- Literals
------------------------------------------------------------

/- A decimal or 0x-hexadecimal number, from end to end. -/
def literal (value : Text) : Option Nat :=
  match value with
  | '0' :: 'x' :: digits =>
      Lexing.numeral digitValue 16 digits
  | '0' :: 'X' :: digits =>
      Lexing.numeral digitValue 16 digits
  | digits => Lexing.numeral digitValue 10 digits

/- `true`, `yes`, `1`, `false`, `no` or `0`. -/
def boolLiteral (value : Text) : Option Bool :=
  if value = "true".toList ∨ value = "yes".toList ∨
      value = "1".toList then
    some true
  else if value = "false".toList ∨ value = "no".toList ∨
      value = "0".toList then
    some false
  else
    none

/- What stands between the entries of a list. -/
def isSeparator (c : Char) : Bool :=
  c ∈ "[], \t".toList

def entries (value : Text) : List Text :=
  Lexing.words (fun c => !isSeparator c) value

/- What stands behind white space, a sign and a `0x`. -/
def leadingDigits (base : Nat) (s : Text) : Text :=
  let unsigned := (takeSign (s.dropWhile isSpace)).2
  let bare :=
    if base = 16 then dropHexPrefix unsigned else unsigned
  bare.takeWhile (isDigit base)

/- There is no number in front, or not one of 64 bits. -/
def NoNumber (base : Nat) (s : Text) : Prop :=
  leadingDigits base s = [] ∨
    2 ^ 64 ≤
      Lexing.value digitValue base (leadingDigits base s)

/- The base that the form of a value asks for. -/
def baseOf (value : Text) : Nat :=
  if isHexadecimal value then 16 else 10

/- No run of version characters, or one without a number. -/
def NoVersions (value : Text) : Prop :=
  Lexing.words isVersionChar value = [] ∨
    ∃ word ∈ Lexing.words isVersionChar value,
      NoNumber 16 word

------------------------------------------------------------
-- Digits
------------------------------------------------------------

theorem isDigit_iff (base : Nat) (c : Char) :
    isDigit base c = true ↔ digitValue c < base := by
  rw [isDigit, decide_eq_true_iff]

theorem toNat_of_decimal
    {c : Char}
    (hDigit : digitValue c < 10) :
    48 ≤ c.toNat ∧ c.toNat ≤ 57 := by
  unfold digitValue at hDigit
  split at hDigit
  · assumption
  · split at hDigit
    · omega
    · split at hDigit <;> omega

theorem toNat_of_hexadecimal
    {c : Char}
    (hDigit : digitValue c < 16) :
    (48 ≤ c.toNat ∧ c.toNat ≤ 57) ∨
      (97 ≤ c.toNat ∧ c.toNat ≤ 102) ∨
        (65 ≤ c.toNat ∧ c.toNat ≤ 70) := by
  unfold digitValue at hDigit
  split at hDigit
  · exact Or.inl ‹_›
  · split at hDigit
    · omega
    · split at hDigit <;> omega

theorem isSpace_of_decimal
    {c : Char}
    (hDigit : digitValue c < 10) :
    isSpace c = false := by
  have hRange := toNat_of_decimal hDigit
  have hNot : c ≠ ' ' := by
    rintro hSame
    rw [hSame] at hRange
    exact absurd hRange.1 (by decide)
  simp only [isSpace, Bool.or_eq_false_iff, beq_eq_false_iff_ne,
    Bool.and_eq_false_iff, decide_eq_false_iff_not]
  exact ⟨hNot, Or.inr (by omega)⟩

/- A sign is no digit. -/
theorem takeSign_digits
    {c : Char}
    (hDigit : digitValue c < 10)
    (s : Text) :
    takeSign (c :: s) = (false, c :: s) := by
  unfold takeSign
  split
  · next hSame =>
      cases hSame
      exact absurd hDigit (by decide)
  · next hSame =>
      cases hSame
      exact absurd hDigit (by decide)
  · rfl

theorem isVersionChar_of_hexadecimal
    {c : Char}
    (hDigit : digitValue c < 16) :
    isVersionChar c = true := by
  have hRange := toNat_of_hexadecimal hDigit
  rw [← Char.ofNat_toNat c]
  generalize c.toNat = n at hRange
  rcases hRange with
    ⟨hLow, hHigh⟩ | ⟨hLow, hHigh⟩ | ⟨hLow, hHigh⟩
  · interval_cases n <;> decide
  · interval_cases n <;> decide
  · interval_cases n <;> decide

------------------------------------------------------------
-- Numbers That Are Read Whole
------------------------------------------------------------

/- Digits to the end are all read. -/
theorem takeWhile_digits
    {base : Nat}
    {digits : Text}
    (hAll : ∀ c ∈ digits, digitValue c < base) :
    digits.takeWhile (isDigit base) = digits := by
  rw [List.takeWhile_eq_self_iff]
  exact fun c hMem => (isDigit_iff base c).mpr (hAll c hMem)

/- Decimal digits do not begin with a `0x`. -/
theorem dropHexPrefix_digits
    {digits : Text}
    (hAll : ∀ c ∈ digits, digitValue c < 10) :
    dropHexPrefix digits = digits := by
  unfold dropHexPrefix
  split
  · next x c s =>
      have hDigit := hAll x (by simp)
      rw [if_neg]
      rintro ⟨hMark | hMark, _⟩
      · rw [hMark] at hDigit
        exact absurd hDigit (by decide)
      · rw [hMark] at hDigit
        exact absurd hDigit (by decide)
  · rfl

theorem leadingDigits_digits
    {base : Nat}
    {digits : Text}
    (hBase : 10 ≤ base)
    (hAll : ∀ c ∈ digits, digitValue c < 10) :
    leadingDigits base digits = digits := by
  cases digits with
  | nil =>
      unfold leadingDigits
      split <;> rfl
  | cons c rest =>
      have hFirst := hAll c List.mem_cons_self
      have hSpace :
          (c :: rest).dropWhile isSpace = c :: rest := by
        rw [List.dropWhile_cons_of_neg]
        rw [isSpace_of_decimal hFirst]
        exact Bool.false_ne_true
      have hWide : ∀ d ∈ c :: rest, digitValue d < base :=
        fun d hMem => Nat.lt_of_lt_of_le (hAll d hMem) hBase
      simp only [leadingDigits, hSpace,
        takeSign_digits hFirst, dropHexPrefix_digits hAll,
        ite_self, takeWhile_digits hWide]

/- The result of `std::stoul` in terms of these digits. -/
theorem stoul_eq (base : Nat) (s : Text) :
    stoul base s =
      if leadingDigits base s = [] then
        .error .invalidArgument
      else if
          2 ^ 64 ≤
            Lexing.value digitValue base
              (leadingDigits base s) then
        .error .outOfRange
      else if (takeSign (s.dropWhile isSpace)).1 then
        .ok
          (-UInt64.ofNat
            (Lexing.value digitValue base
              (leadingDigits base s)))
      else
        .ok
          (UInt64.ofNat
            (Lexing.value digitValue base
              (leadingDigits base s))) :=
  rfl

/- It throws exactly where there is no number. -/
theorem stoul_throws_iff (base : Nat) (s : Text) :
    (∃ e, stoul base s = .error e) ↔ NoNumber base s := by
  rw [stoul_eq, NoNumber]
  split
  · next hNone => simp [hNone]
  · next hSome =>
      split
      · next hLarge =>
          exact
            iff_of_true ⟨.outOfRange, rfl⟩ (Or.inr hLarge)
      · next hFits =>
          simp only [hSome, hFits, or_self, iff_false]
          split <;> simp

theorem stoulOf_throws_iff (value : Text) :
    (∃ e, stoulOf value = .error e) ↔
      NoNumber (baseOf value) value := by
  rw [← stoul_throws_iff]
  unfold stoulOf baseOf
  split <;> exact Iff.rfl

/- Digits are read as a number without a sign. -/
theorem stoul_digits
    {base : Nat}
    {digits : Text}
    (hBase : 10 ≤ base)
    (hSome : digits ≠ [])
    (hAll : ∀ c ∈ digits, digitValue c < 10)
    (hFits : Lexing.value digitValue base digits < 2 ^ 64) :
    stoul base digits =
      .ok
        (UInt64.ofNat
          (Lexing.value digitValue base digits)) := by
  have hSign :
      (takeSign (digits.dropWhile isSpace)).1 = false := by
    cases digits with
    | nil => exact absurd rfl hSome
    | cons c rest =>
        have hFirst := hAll c List.mem_cons_self
        rw [List.dropWhile_cons_of_neg, takeSign_digits hFirst]
        rw [isSpace_of_decimal hFirst]
        exact Bool.false_ne_true
  rw [stoul_eq, leadingDigits_digits hBase hAll,
    if_neg hSome, if_neg (Nat.not_le.mpr hFits), hSign]
  rfl

theorem stoul_decimal
    {digits : Text}
    {n : Nat}
    (hNumeral : Lexing.numeral digitValue 10 digits = some n)
    (hFits : n < 2 ^ 64) :
    stoul 10 digits = .ok (UInt64.ofNat n) := by
  rcases (Lexing.numeral_eq_some_iff digitValue).mp hNumeral
    with ⟨⟨hSome, hAll⟩, hValue⟩
  rw [← hValue] at hFits ⊢
  exact stoul_digits (Nat.le_refl 10) hSome hAll hFits

/- The first digit is where `0x` is dropped. -/
theorem stoul_hexadecimal
    {x : Char}
    {digits : Text}
    {n : Nat}
    (hMark : x = 'x' ∨ x = 'X')
    (hNumeral : Lexing.numeral digitValue 16 digits = some n)
    (hFits : n < 2 ^ 64) :
    stoul 16 ('0' :: x :: digits) = .ok (UInt64.ofNat n) := by
  rcases (Lexing.numeral_eq_some_iff digitValue).mp hNumeral
    with ⟨⟨hSome, hAll⟩, hValue⟩
  cases digits with
  | nil => exact absurd rfl hSome
  | cons c rest =>
      have hFirst : isDigit 16 c = true :=
        (isDigit_iff 16 c).mpr (hAll c List.mem_cons_self)
      have hSpace :
          ('0' :: x :: c :: rest).dropWhile isSpace =
            '0' :: x :: c :: rest := rfl
      have hSign :
          takeSign ('0' :: x :: c :: rest) =
            (false, '0' :: x :: c :: rest) := rfl
      have hPrefix :
          dropHexPrefix ('0' :: x :: c :: rest) =
            c :: rest := by
        rw [dropHexPrefix, if_pos ⟨hMark, hFirst⟩]
      have hBound : ¬ n ≥ 2 ^ 64 := Nat.not_le.mpr hFits
      simp only [stoul, hSpace, hSign, if_true, hPrefix,
        takeWhile_digits hAll, hValue, hSome, if_false, hBound,
        Bool.false_eq_true]

/- Decimal digits are not mistaken for a `0x`. -/
theorem isHexadecimal_decimal
    {digits : Text}
    (hAll : ∀ c ∈ digits, digitValue c < 10) :
    isHexadecimal digits = false := by
  unfold isHexadecimal
  split
  · next x _ _ =>
      have hDigit := hAll x (by simp)
      rw [decide_eq_false_iff_not]
      rintro (hMark | hMark)
      · rw [hMark] at hDigit
        exact absurd hDigit (by decide)
      · rw [hMark] at hDigit
        exact absurd hDigit (by decide)
  · rfl

/- The two forms of a literal. -/
theorem literal_cases
    {value : Text}
    {n : Nat}
    (hLiteral : literal value = some n) :
    (∃ x digits,
        (x = 'x' ∨ x = 'X') ∧ value = '0' :: x :: digits ∧
          Lexing.numeral digitValue 16 digits = some n) ∨
      Lexing.numeral digitValue 10 value = some n := by
  unfold literal at hLiteral
  split at hLiteral
  · next digits =>
      exact Or.inl ⟨'x', digits, Or.inl rfl, rfl, hLiteral⟩
  · next digits =>
      exact Or.inl ⟨'X', digits, Or.inr rfl, rfl, hLiteral⟩
  · exact Or.inr hLiteral

/- Digits follow the `0x` of a literal. -/
theorem isHexadecimal_literal
    {value : Text}
    {x : Char}
    {digits : Text}
    {n : Nat}
    (hMark : x = 'x' ∨ x = 'X')
    (hValue : value = '0' :: x :: digits)
    (hNumeral : Lexing.numeral digitValue 16 digits = some n) :
    isHexadecimal value = true := by
  have hSome :=
    ((Lexing.numeral_eq_some_iff digitValue).mp hNumeral).1.1
  rw [hValue]
  cases digits with
  | nil => exact absurd rfl hSome
  | cons c rest => exact decide_eq_true hMark

theorem stoulOf_literal
    {value : Text}
    {n : Nat}
    (hLiteral : literal value = some n)
    (hFits : n < 2 ^ 64) :
    stoulOf value = .ok (UInt64.ofNat n) := by
  unfold stoulOf
  rcases literal_cases hLiteral with
    ⟨x, digits, hMark, hValue, hNumeral⟩ | hNumeral
  · rw [if_pos (isHexadecimal_literal hMark hValue hNumeral),
      hValue]
    exact stoul_hexadecimal hMark hNumeral hFits
  · have hAll :=
      ((Lexing.numeral_eq_some_iff digitValue).mp hNumeral).1.2
    rw [if_neg]
    · exact stoul_decimal hNumeral hFits
    · rw [isHexadecimal_decimal hAll]
      exact Bool.false_ne_true

------------------------------------------------------------
-- Versions
------------------------------------------------------------

/- One version, as `std::stoul` reads it in base 16. -/
def readVersion (num : Text) : Except StoulError Version :=
  (stoul 16 num).map UInt64.toUInt16

/- The runs of version characters are read one by one. -/
def readVersions
    (value : Text) : Except StoulError (List Version) :=
  (Lexing.words isVersionChar value).mapM readVersion

/- The loop has read every run when it ends. -/
theorem scanFrom_eq
    {n : Nat}
    {s : Text}
    (hEnough : s.length ≤ n) :
    scanFrom n s = readVersions s := by
  induction n generalizing s with
  | zero =>
      have hEmpty : s = [] :=
        List.eq_nil_of_length_eq_zero (by omega)
      rw [hEmpty]
      rfl
  | succ n ih =>
      unfold scanFrom readVersions
      rw [Lexing.words_eq]
      simp only
      cases hStart :
          s.dropWhile (fun c => !isVersionChar c) with
      | nil => rfl
      | cons c rest =>
          have hFirst : isVersionChar c = true := by
            have hHead :=
              List.head_dropWhile_not
                (fun c => !isVersionChar c) (l := s)
                (by rw [hStart]; exact List.cons_ne_nil c rest)
            simpa [hStart] using hHead
          have hShorter :
              (rest.dropWhile isVersionChar).length ≤ n := by
            have hDropped :
                (s.dropWhile
                  (fun c => !isVersionChar c)).length ≤
                  s.length :=
              (List.dropWhile_sublist _).length_le
            have hRest :
                (rest.dropWhile isVersionChar).length ≤
                  rest.length :=
              (List.dropWhile_sublist _).length_le
            rw [hStart, List.length_cons] at hDropped
            omega
          rw [if_neg (List.cons_ne_nil c rest),
            List.takeWhile_cons_of_pos hFirst,
            List.dropWhile_cons_of_pos hFirst, ih hShorter,
            List.mapM_cons]
          unfold readVersions readVersion
          cases stoul 16 (c :: rest.takeWhile isVersionChar) <;>
            rfl

theorem scanVersions_eq (value : Text) :
    scanVersions value = readVersions value :=
  scanFrom_eq (Nat.le_refl value.length)

/- Versions are read in base 16, whatever they look like. -/
theorem readVersions_eq_ok_iff
    {words : List Text}
    {versions : List Version} :
    words.mapM readVersion = .ok versions ↔
      List.Forall₂
        (fun word v => readVersion word = .ok v)
        words versions := by
  induction words generalizing versions with
  | nil =>
      rw [List.mapM_nil, List.forall₂_nil_left_iff]
      exact ⟨fun hSame => by cases hSame; rfl,
        fun hSame => by rw [hSame]; rfl⟩
  | cons word words ih =>
      rw [List.mapM_cons, List.forall₂_cons_left_iff]
      constructor
      · intro hRead
        cases hFirst : readVersion word with
        | error e =>
            rw [hFirst] at hRead
            cases hRead
        | ok v =>
            cases hLater : words.mapM readVersion with
            | error e =>
                rw [hFirst, hLater] at hRead
                cases hRead
            | ok vs =>
                rw [hFirst, hLater] at hRead
                cases hRead
                exact ⟨v, vs, rfl, ih.mp hLater, rfl⟩
      · rintro ⟨v, vs, hFirst, hLater, hSame⟩
        rw [hFirst, ih.mpr hLater, hSame]
        rfl

/- A literal is made of version characters. -/
theorem isVersionChar_of_literal
    {entry : Text}
    {n : Nat}
    (hLiteral : literal entry = some n)
    {c : Char}
    (hMem : c ∈ entry) :
    isVersionChar c = true := by
  rcases literal_cases hLiteral with
    ⟨x, digits, hMark, hEntry, hNumeral⟩ | hNumeral
  · have hAll :=
      ((Lexing.numeral_eq_some_iff digitValue).mp hNumeral).1.2
    rw [hEntry, List.mem_cons, List.mem_cons] at hMem
    rcases hMem with hZero | hHere | hDigit
    · rw [hZero]
      decide
    · rw [hHere]
      rcases hMark with hLower | hUpper
      · rw [hLower]
        decide
      · rw [hUpper]
        decide
    · exact isVersionChar_of_hexadecimal (hAll c hDigit)
  · have hAll :=
      ((Lexing.numeral_eq_some_iff digitValue).mp hNumeral).1.2
    have hDigit := hAll c hMem
    exact isVersionChar_of_hexadecimal (by omega)

theorem isVersionChar_of_separator
    {c : Char}
    (hSeparator : isSeparator c = true) :
    isVersionChar c = false := by
  have hMem : c ∈ ['[', ']', ',', ' ', '\t'] :=
    of_decide_eq_true hSeparator
  simp only [List.mem_cons, List.not_mem_nil, or_false] at hMem
  rcases hMem with hHere | hHere | hHere | hHere | hHere
  all_goals
    rw [hHere]
    decide

theorem exists_forall₂_iff
    {α β : Type}
    {R : α → β → Prop}
    {as : List α} :
    (∃ bs, List.Forall₂ R as bs) ↔ ∀ a ∈ as, ∃ b, R a b := by
  induction as with
  | nil =>
      constructor
      · intro _ a hMem
        cases hMem
      · exact fun _ => ⟨[], .nil⟩
  | cons a as ih =>
      rw [List.forall_mem_cons, ← ih]
      constructor
      · rintro ⟨bs, hAll⟩
        cases hAll with
        | cons hFirst hLater =>
            exact ⟨⟨_, hFirst⟩, ⟨_, hLater⟩⟩
      · rintro ⟨⟨b, hFirst⟩, ⟨bs, hLater⟩⟩
        exact ⟨b :: bs, .cons hFirst hLater⟩

/- A word is read unless there is no number in it. -/
theorem readVersion_ok_iff (word : Text) :
    (∃ v, readVersion word = .ok v) ↔ ¬ NoNumber 16 word := by
  rw [← stoul_throws_iff, readVersion]
  cases stoul 16 word with
  | error e => simp [Except.map]
  | ok n => simp [Except.map]

/- The whole list is read unless one of its words is not. -/
theorem readVersions_ok_iff (words : List Text) :
    (∃ versions, words.mapM readVersion = .ok versions) ↔
      ∀ word ∈ words, ¬ NoNumber 16 word := by
  simp only [readVersions_eq_ok_iff, exists_forall₂_iff,
    readVersion_ok_iff]

/- A list without versions is one that sets nothing. -/
theorem noVersions_iff (value : Text) :
    (∀ v vs, readVersions value ≠ .ok (v :: vs)) ↔
      NoVersions value := by
  unfold NoVersions readVersions
  constructor
  · intro hNone
    by_contra hNot
    rw [not_or, not_exists] at hNot
    rcases hNot with ⟨hSome, hNumbers⟩
    rcases
        (readVersions_ok_iff
          (Lexing.words isVersionChar value)).mpr
          (fun word hMem hBad => hNumbers word ⟨hMem, hBad⟩)
      with ⟨versions, hRead⟩
    cases versions with
    | nil =>
        exact
          hSome
            (List.forall₂_nil_right_iff.mp
              (readVersions_eq_ok_iff.mp hRead))
    | cons v vs => exact hNone v vs hRead
  · rintro (hEmpty | ⟨word, hMem, hBad⟩) v vs hRead
    · rw [hEmpty] at hRead
      cases hRead
    · exact
        (readVersions_ok_iff _).mp ⟨v :: vs, hRead⟩ word hMem
          hBad

/- A list of literals is read entry by entry. -/
theorem words_eq_entries
    {value : Text}
    (hLiterals :
      ∀ entry ∈ entries value, ∃ n, literal entry = some n) :
    Lexing.words isVersionChar value = entries value := by
  apply Lexing.words_congr
  intro c hMem
  by_cases hSeparator : isSeparator c = true
  · rw [isVersionChar_of_separator hSeparator, hSeparator]
    rfl
  · have hNot : (!isSeparator c) = true := by
      rw [Bool.eq_false_iff.mpr hSeparator]
      rfl
    rcases Lexing.mem_words
        (p := fun c => !isSeparator c) hMem hNot with
      ⟨entry, hEntry, hIn⟩
    rcases hLiterals entry hEntry with ⟨n, hLiteral⟩
    rw [isVersionChar_of_literal hLiteral hIn, hNot]

------------------------------------------------------------
-- Values That Arrive
------------------------------------------------------------

/- The entry is a literal of the version. -/
def Spells (entry : Text) (v : Version) : Prop :=
  literal entry = some v.toNat

instance (entry : Text) (v : Version) :
    Decidable (Spells entry v) :=
  inferInstanceAs (Decidable (literal entry = some v.toNat))

/-
  The field of the key holds what is written, or else what
  it held before the line.
-/
def Faithful
    (header key value : Text)
    (cfg cfg' : Config) : Prop :=
  match ConfigKey.ofText key with
  | some .enabled =>
      ∀ which, Section.ofText header = some which →
        boolLiteral value = some (which.get cfg') ∨
          which.get cfg' = which.get cfg
  | some (.limit field) =>
      literal value = some (field.get cfg').toNat ∨
        field.get cfg' = field.get cfg
  | some (.opcode field) =>
      literal value = some (field.get cfg').toNat ∨
        field.get cfg' = field.get cfg
  | some .supportedVersions =>
      List.Forall₂ Spells
          (entries value) cfg'.supportedVersions ∨
        cfg'.supportedVersions = cfg.supportedVersions
  | none => cfg' = cfg

/- A hexadecimal literal in range, or one decimal digit. -/
def PlainVersion (entry : Text) : Prop :=
  ∃ n, literal entry = some n ∧
    (n < 10 ∨ isHexadecimal entry = true ∧ n < 2 ^ 16)

/-
  A word or a literal in range; or a text that `std::stoul`
  finds no number in.
-/
def Plain (header key value : Text) : Prop :=
  match ConfigKey.ofText key with
  | some .enabled =>
      ∀ which, Section.ofText header = some which →
        boolLiteral value ≠ none
  | some (.limit _) =>
      (∃ n, literal value = some n ∧ n < 2 ^ 32) ∨
        NoNumber (baseOf value) value
  | some (.opcode _) =>
      (∃ n, literal value = some n ∧ n < 2 ^ 16) ∨
        NoNumber (baseOf value) value
  | some .supportedVersions =>
      (∀ entry ∈ entries value, PlainVersion entry) ∨
        NoVersions value
  | none => True

------------------------------------------------------------
-- Decimal Digits in Base Sixteen
------------------------------------------------------------

/- One digit, whatever zeros are in front of it. -/
theorem value_sixteen_of_lt
    {digits : Text}
    (hAll : ∀ c ∈ digits, digitValue c < 10)
    (hSmall : Lexing.value digitValue 10 digits < 10) :
    Lexing.value digitValue 16 digits =
      Lexing.value digitValue 10 digits := by
  rcases Lexing.exists_value_eq digitValue (by decide) hAll
    with ⟨front, d, _, _, hValue⟩
  rw [hValue 10] at hSmall
  have hFront : Lexing.value digitValue 10 front = 0 := by
    omega
  rw [hValue 10, hValue 16, hFront,
    Lexing.value_eq_zero digitValue (by decide) hFront]

/- In base 16 the last four digits fill the 16 bits. -/
theorem sixteen_bits
    {b d₀ d₁ d₂ d₃ : Nat}
    (h₀ : d₀ < 10)
    (h₁ : d₁ < 10)
    (h₂ : d₂ < 10)
    (h₃ : d₃ < 10) :
    ((((b * 16 + d₃) * 16 + d₂) * 16 + d₁) * 16 + d₀) %
        2 ^ 16 =
      4096 * d₃ + 256 * d₂ + 16 * d₁ + d₀ := by
  have hSplit :
      (((b * 16 + d₃) * 16 + d₂) * 16 + d₁) * 16 + d₀ =
        2 ^ 16 * b +
          (4096 * d₃ + 256 * d₂ + 16 * d₁ + d₀) := by
    omega
  rw [hSplit, Nat.mul_add_mod]
  exact Nat.mod_eq_of_lt (by omega)

/- 6 b + 156 c + 3096 d is no multiple of 10000 but zero. -/
theorem carry_eq_zero
    {a d₁ d₂ d₃ : Nat}
    (h₁ : d₁ < 10)
    (h₂ : d₂ < 10)
    (h₃ : d₃ < 10)
    (hSame : 6 * d₁ + 156 * d₂ + 3096 * d₃ = 10000 * a) :
    a = 0 ∧ d₃ = 0 ∧ d₂ = 0 ∧ d₁ = 0 := by
  have hZero : a = 0 := by
    omega
  rw [hZero] at hSame
  omega

/-
  With two digits or more the numbers differ, also in the
  last 16 bits.
-/
theorem lt_ten_of_value_sixteen
    {digits : Text}
    (hAll : ∀ c ∈ digits, digitValue c < 10)
    (hSame :
      Lexing.value digitValue 16 digits % 2 ^ 16 =
        Lexing.value digitValue 10 digits) :
    Lexing.value digitValue 10 digits < 10 := by
  rcases Lexing.exists_value_eq digitValue (by decide) hAll
    with ⟨_, d₀, hAll₁, h₀, hValue₀⟩
  rcases Lexing.exists_value_eq digitValue (by decide) hAll₁
    with ⟨_, d₁, hAll₂, h₁, hValue₁⟩
  rcases Lexing.exists_value_eq digitValue (by decide) hAll₂
    with ⟨_, d₂, hAll₃, h₂, hValue₂⟩
  rcases Lexing.exists_value_eq digitValue (by decide) hAll₃
    with ⟨front, d₃, _, h₃, hValue₃⟩
  rw [hValue₀ 16, hValue₁ 16, hValue₂ 16, hValue₃ 16,
    sixteen_bits h₀ h₁ h₂ h₃] at hSame
  rw [hValue₀ 10, hValue₁ 10, hValue₂ 10, hValue₃ 10]
    at hSame ⊢
  rcases
      carry_eq_zero (a := Lexing.value digitValue 10 front) h₁
        h₂ h₃ (by omega) with
    ⟨hFront, hThird, hSecond, hFirst⟩
  rw [hFront, hThird, hSecond, hFirst]
  omega

theorem readVersion_hexadecimal
    {entry : Text}
    {n : Nat}
    (hLiteral : literal entry = some n)
    (hHex : isHexadecimal entry = true)
    (hFits : n < 2 ^ 16) :
    readVersion entry = .ok (UInt16.ofNat n) := by
  have hWide : n < 2 ^ 64 := by omega
  have hRead := stoulOf_literal hLiteral hWide
  rw [stoulOf, if_pos hHex] at hRead
  rw [readVersion, hRead]
  exact congrArg Except.ok (UInt64.toUInt16_ofNat' n)

theorem readVersion_decimal
    {entry : Text}
    {n : Nat}
    (hNumeral : Lexing.numeral digitValue 10 entry = some n)
    (hSmall : n < 10) :
    readVersion entry = .ok (UInt16.ofNat n) := by
  rcases (Lexing.numeral_eq_some_iff digitValue).mp hNumeral
    with ⟨⟨hSome, hAll⟩, hValue⟩
  rw [← hValue] at hSmall
  have hSixteen := value_sixteen_of_lt hAll hSmall
  have hWide :
      Lexing.value digitValue 16 entry < 2 ^ 64 := by
    omega
  rw [readVersion,
    stoul_digits (by decide) hSome hAll hWide, hSixteen,
    hValue]
  exact congrArg Except.ok (UInt64.toUInt16_ofNat' n)

/- Plain versions are read as the number they spell. -/
theorem plainVersion_iff (entry : Text) :
    PlainVersion entry ↔
      ∃ v, Spells entry v ∧ readVersion entry = .ok v := by
  constructor
  · rintro ⟨n, hLiteral, hPlain⟩
    have hFits : n < 2 ^ 16 := by omega
    refine ⟨UInt16.ofNat n, ?_, ?_⟩
    · rw [Spells, hLiteral, UInt16.toNat_ofNat_of_lt' hFits]
    · rcases hPlain with hSmall | ⟨hHex, _⟩
      · by_cases hHex : isHexadecimal entry = true
        · exact readVersion_hexadecimal hLiteral hHex hFits
        · rcases literal_cases hLiteral with
            ⟨x, digits, hMark, hEntry, hNumeral⟩ | hNumeral
          · exact
              absurd
                (isHexadecimal_literal hMark hEntry hNumeral)
                hHex
          · exact readVersion_decimal hNumeral hSmall
      · exact readVersion_hexadecimal hLiteral hHex hFits
  · rintro ⟨v, hSpells, hRead⟩
    refine ⟨v.toNat, hSpells, ?_⟩
    rcases literal_cases hSpells with
      ⟨x, digits, hMark, hEntry, hNumeral⟩ | hNumeral
    · exact
        Or.inr
          ⟨isHexadecimal_literal hMark hEntry hNumeral,
            v.toNat_lt⟩
    · rcases (Lexing.numeral_eq_some_iff digitValue).mp
          hNumeral with
        ⟨⟨hSome, hAll⟩, hValue⟩
      refine Or.inl ?_
      have hNumber : ¬ NoNumber 16 entry :=
        (readVersion_ok_iff entry).mp ⟨v, hRead⟩
      rw [NoNumber, leadingDigits_digits (by decide) hAll,
        not_or, Nat.not_le] at hNumber
      rw [readVersion,
        stoul_digits (by decide) hSome hAll hNumber.2] at hRead
      have hSame :
          Lexing.value digitValue 16 entry % 2 ^ 16 =
            v.toNat := by
        rw [← Except.ok.inj hRead, UInt64.toNat_toUInt16,
          UInt64.toNat_ofNat_of_lt' hNumber.2]
      rw [← hValue] at hSame ⊢
      exact lt_ten_of_value_sixteen hAll hSame

------------------------------------------------------------
-- One Field at a Time
------------------------------------------------------------

theorem boolLiteral_eq_some
    {value : Text}
    {b : Bool}
    (hLiteral : boolLiteral value = some b) :
    parseEnabled value = b := by
  unfold boolLiteral at hLiteral
  split at hLiteral
  · next hTrue =>
      rw [← Option.some.inj hLiteral]
      exact decide_eq_true hTrue
  · next hNotTrue =>
      split at hLiteral
      · rw [← Option.some.inj hLiteral]
        exact decide_eq_false hNotTrue
      · cases hLiteral

/- What is no literal is false. -/
theorem parseEnabled_of_boolLiteral_eq_none
    {value : Text}
    (hNone : boolLiteral value = none) :
    parseEnabled value = false := by
  unfold boolLiteral at hNone
  split at hNone
  · cases hNone
  · next hNotTrue => exact decide_eq_false hNotTrue

/- What is no literal switches off what was on. -/
theorem enabled_faithful_iff (value : Text) :
    (∀ old : Bool,
        boolLiteral value = some (parseEnabled value) ∨
          parseEnabled value = old) ↔
      boolLiteral value ≠ none := by
  constructor
  · intro hFaithful hNone
    have hOn := hFaithful true
    rw [hNone, parseEnabled_of_boolLiteral_eq_none hNone]
      at hOn
    rcases hOn with hLiteral | hKept
    · cases hLiteral
    · cases hKept
  · intro hSome old
    rcases Option.ne_none_iff_exists'.mp hSome with
      ⟨b, hLiteral⟩
    rw [boolLiteral_eq_some hLiteral]
    exact Or.inl hLiteral

/- The field after a number, which is cut to its width. -/
def numberRead
    {β : Type}
    (narrow : UInt64 → β)
    (value : Text)
    (old : β) : β :=
  match stoulOf value with
  | .ok n => narrow n
  | .error _ => old

/- A number that is read must be one that is in range. -/
theorem number_faithful_iff
    {β : Type}
    {width : Nat}
    (narrow : UInt64 → β)
    (toNat : β → Nat)
    (hWidth : width ≤ 64)
    (hBelow : ∀ b, toNat b < 2 ^ width)
    (hExact :
      ∀ n, n < 2 ^ width → toNat (narrow (UInt64.ofNat n)) = n)
    (hOther : ∀ b : β, ∃ old, old ≠ b)
    (value : Text) :
    (∀ old,
        literal value =
            some (toNat (numberRead narrow value old)) ∨
          numberRead narrow value old = old) ↔
      ((∃ n, literal value = some n ∧ n < 2 ^ width) ∨
        NoNumber (baseOf value) value) := by
  rw [← stoulOf_throws_iff]
  unfold numberRead
  constructor
  · intro hFaithful
    cases hRead : stoulOf value with
    | error e => exact Or.inr ⟨e, rfl⟩
    | ok n =>
        -- The field held something else before the line.
        rcases hOther (narrow n) with ⟨old, hDiffers⟩
        have hMoved := hFaithful old
        rw [hRead] at hMoved
        rcases hMoved with hLiteral | hKept
        · exact Or.inl ⟨_, hLiteral, hBelow _⟩
        · exact absurd hKept.symm hDiffers
  · rintro (⟨n, hLiteral, hFits⟩ | ⟨e, hThrows⟩) old
    · have hWide : n < 2 ^ 64 :=
        Nat.lt_of_lt_of_le hFits
          (Nat.pow_le_pow_right (by omega) hWidth)
      rw [stoulOf_literal hLiteral hWide]
      exact Or.inl (by rw [hExact n hFits, hLiteral])
    · rw [hThrows]
      exact Or.inr rfl

/- The versions of a list that is read, if there are any. -/
def versionsRead (value : Text) (old : List Version) :
    List Version :=
  match readVersions value with
  | .ok (v :: vs) => v :: vs
  | _ => old

/- Plain entries are read as the versions they stand for. -/
theorem plainVersions_iff (value : Text) :
    (∀ entry ∈ entries value, PlainVersion entry) ↔
      ∃ versions,
        List.Forall₂ Spells (entries value) versions ∧
          readVersions value = .ok versions := by
  have hReads :
      ∀ versions,
        List.Forall₂ Spells (entries value) versions →
          readVersions value =
            (entries value).mapM readVersion := by
    intro versions hLiterals
    have hAll := exists_forall₂_iff.mp ⟨versions, hLiterals⟩
    rw [readVersions, words_eq_entries]
    intro entry hMem
    rcases hAll entry hMem with ⟨v, hLiteral⟩
    exact ⟨v.toNat, hLiteral⟩
  simp only [plainVersion_iff]
  rw [← exists_forall₂_iff]
  constructor
  · rintro ⟨versions, hBoth⟩
    have hLiterals :=
      hBoth.imp (fun entry v hEntry => hEntry.1)
    refine ⟨versions, hLiterals, ?_⟩
    rw [hReads versions hLiterals, readVersions_eq_ok_iff]
    exact hBoth.imp (fun entry v hEntry => hEntry.2)
  · rintro ⟨versions, hLiterals, hRead⟩
    rw [hReads versions hLiterals, readVersions_eq_ok_iff]
      at hRead
    exact
      ⟨versions,
        List.Forall₂.mp (fun entry v => And.intro)
          hLiterals hRead⟩

/- A list that sets something must be one that spells it. -/
theorem versions_faithful_iff (value : Text) :
    (∀ old,
        List.Forall₂ Spells
            (entries value) (versionsRead value old) ∨
          versionsRead value old = old) ↔
      ((∀ entry ∈ entries value, PlainVersion entry) ∨
        NoVersions value) := by
  rw [plainVersions_iff, ← noVersions_iff]
  unfold versionsRead
  constructor
  · intro hFaithful
    by_contra hNot
    rw [not_or] at hNot
    refine hNot.2 (fun v vs hRead => ?_)
    -- The field held no version before the line.
    have hEmpty := hFaithful []
    rw [hRead] at hEmpty
    rcases hEmpty with hLiterals | hKept
    · exact hNot.1 ⟨v :: vs, hLiterals, hRead⟩
    · cases hKept
  · rintro (⟨versions, hLiterals, hRead⟩ | hNone) old
    · rw [hRead]
      cases versions with
      | nil => exact Or.inr rfl
      | cons v vs => exact Or.inl hLiterals
    · refine Or.inr ?_
      split
      · next v vs hRead => exact absurd hRead (hNone v vs)
      · rfl

------------------------------------------------------------
-- The Law
------------------------------------------------------------

/- The versions a file has set are those that were read. -/
theorem versions_of_applySetting
    {header key value : Text}
    {cfg : Config}
    (hKey : ConfigKey.ofText key = some .supportedVersions) :
    (Setting.apply cfg
        ⟨header, key, value⟩).supportedVersions =
      versionsRead value cfg.supportedVersions := by
  simp only [Setting.apply, Setting.update, hKey,
    scanVersions_eq, versionsRead]
  cases readVersions value with
  | error e => rfl
  | ok versions => cases versions <;> rfl

/- Without an exception the number is cut to the field. -/
theorem limit_of_applySetting
    {header key value : Text}
    {cfg : Config}
    {field : LimitKey}
    (hKey : ConfigKey.ofText key = some (.limit field))
    (hSome : value ≠ []) :
    field.get (Setting.apply cfg ⟨header, key, value⟩) =
      numberRead (fun n => n.toUInt32) value
        (field.get cfg) := by
  simp only [Setting.apply, Setting.update, hKey, parseUint32,
    if_neg hSome, numberRead]
  cases stoulOf value with
  | error e => rfl
  | ok n => exact field.get_set n.toUInt32 cfg

theorem opcode_of_applySetting
    {header key value : Text}
    {cfg : Config}
    {field : OpcodeKey}
    (hKey : ConfigKey.ofText key = some (.opcode field))
    (hSome : value ≠ []) :
    field.get (Setting.apply cfg ⟨header, key, value⟩) =
      numberRead (fun n => n.toUInt32.toUInt16) value
        (field.get cfg) := by
  simp only [Setting.apply, Setting.update, hKey, parseUint32,
    if_neg hSome, numberRead]
  cases stoulOf value with
  | error e => rfl
  | ok n => exact field.get_set n.toUInt32.toUInt16 cfg

theorem enabled_of_applySetting
    {header key value : Text}
    {cfg : Config}
    {which : Section}
    (hKey : ConfigKey.ofText key = some .enabled)
    (hSection : Section.ofText header = some which) :
    which.get (Setting.apply cfg ⟨header, key, value⟩) =
      parseEnabled value := by
  simp only [Setting.apply, Setting.update, hKey, hSection,
    Option.map_some]
  exact which.get_set (parseEnabled value) cfg

theorem toNat_narrow32
    {n : Nat}
    (hFits : n < 2 ^ 32) :
    (UInt64.ofNat n).toUInt32.toNat = n := by
  rw [UInt64.toNat_toUInt32, UInt64.toNat_ofNat']
  omega

theorem toNat_narrow16
    {n : Nat}
    (hFits : n < 2 ^ 16) :
    (UInt64.ofNat n).toUInt32.toUInt16.toNat = n := by
  rw [UInt32.toNat_toUInt16, UInt64.toNat_toUInt32,
    UInt64.toNat_ofNat']
  omega

/- A field may hold anything before the line. -/
theorem forall_field
    {α : Type}
    (get : Config → α)
    (set : α → Config → Config)
    (hField : ∀ v cfg, get (set v cfg) = v)
    {P : α → Prop} :
    (∀ v, P v) ↔ ∀ cfg, P (get cfg) := by
  have hSurjective : Function.Surjective get :=
    fun v => ⟨set v {}, hField v {}⟩
  exact hSurjective.forall

/-
  Whatever the configuration was before the line: exactly the
  plain values of a setting are kept as they are written or
  kept out.
-/
theorem values_faithful_iff
    {line key value : Text}
    (hSetting : IsSetting line key value)
    (header : Text) :
    (∀ cfg,
        Faithful header key value cfg
          (processLine ⟨cfg, header⟩ line).cfg) ↔
      Plain header key value := by
  have hSome : value ≠ [] := by
    rcases hSetting with ⟨_, _, _, _, _, hSome⟩
    exact hSome
  have hLine (cfg : Config) :
      (processLine ⟨cfg, header⟩ line).cfg =
        Setting.apply cfg ⟨header, key, value⟩ := by
    rw [processLine_of_setting hSetting]
  simp only [hLine]
  unfold Faithful Plain
  cases hKey : ConfigKey.ofText key with
  | none =>
      simp only [Setting.apply, Setting.update, hKey,
        implies_true]
  | some known =>
      cases known with
      | enabled =>
          dsimp only
          rw [forall_comm]
          apply forall_congr'
          intro which
          rw [forall_comm]
          apply imp_congr_right
          intro hSection
          simp only [enabled_of_applySetting hKey hSection]
          rw [← enabled_faithful_iff]
          exact
            Iff.symm
              (forall_field (which.get ·) (which.set · ·)
                which.get_set)
      | limit field =>
          simp only [limit_of_applySetting hKey hSome]
          rw [← number_faithful_iff UInt64.toUInt32
            UInt32.toNat (by omega) UInt32.toNat_lt
            (fun n hFits => toNat_narrow32 hFits)
            (fun b => ⟨b + 1, by simp⟩)]
          exact
            Iff.symm
              (forall_field (field.get ·) (field.set · ·)
                field.get_set)
      | opcode field =>
          simp only [opcode_of_applySetting hKey hSome]
          rw [← number_faithful_iff
            (fun n => n.toUInt32.toUInt16) UInt16.toNat
            (by omega) UInt16.toNat_lt
            (fun n hFits => toNat_narrow16 hFits)
            (fun b => ⟨b + 1, by simp⟩)]
          exact
            Iff.symm
              (forall_field (field.get ·) (field.set · ·)
                field.get_set)
      | supportedVersions =>
          simp only [versions_of_applySetting hKey]
          rw [← versions_faithful_iff]
          exact
            Iff.symm
              (forall_field Config.supportedVersions
                (fun v cfg =>
                  { cfg with supportedVersions := v })
                (fun _ _ => rfl))

theorem values_faithful_burst :
    (∀ cfg,
        Faithful [] "burst_size".toList "0x20".toList cfg
          (processLine ⟨cfg, []⟩
            "burst_size: 0x20".toList).cfg) ∧
      Plain [] "burst_size".toList "0x20".toList := by
  have hPlain :
      Plain [] "burst_size".toList "0x20".toList :=
    Or.inl ⟨32, by decide, by decide⟩
  refine ⟨(values_faithful_iff ?_ []).mpr hPlain, hPlain⟩
  exact
    parseYamlLine_eq_setting_iff.mp
      (show parseYamlLine "burst_size: 0x20".toList [] = _
        by decide)

/-
  A limit beyond 32 bits becomes none at all, a capital
  letter switches a protection off and decimal versions are
  taken for hexadecimal.
-/
theorem altered_values :
    (IsSetting "max_total: 4294967296".toList
        "max_total".toList "4294967296".toList ∧
      ¬ Faithful [] "max_total".toList "4294967296".toList {}
        (processLine ⟨{}, []⟩
          "max_total: 4294967296".toList).cfg ∧
      (processLine ⟨{}, []⟩
          "max_total: 4294967296".toList
        ).cfg.connectionLimits.maxTotal = 0) ∧
    (IsSetting "enabled: True".toList
        "enabled".toList "True".toList ∧
      ¬ Faithful "timeouts".toList "enabled".toList
        "True".toList {}
        (processLine ⟨{}, "timeouts".toList⟩
          "enabled: True".toList).cfg) ∧
    (IsSetting "supported_versions: [256]".toList
        "supported_versions".toList "[256]".toList ∧
      ¬ Faithful [] "supported_versions".toList
        "[256]".toList {}
        (processLine ⟨{}, []⟩
          "supported_versions: [256]".toList).cfg) := by
  refine ⟨⟨?_, ?_, by decide⟩, ⟨?_, ?_⟩, ⟨?_, ?_⟩⟩
  · exact
      parseYamlLine_eq_setting_iff.mp
        (show parseYamlLine _ [] = _ by decide)
  · rintro (hLiteral | hKept)
    · exact absurd hLiteral (by decide)
    · exact absurd hKept (by decide)
  · exact
      parseYamlLine_eq_setting_iff.mp
        (show parseYamlLine _ [] = _ by decide)
  · intro hFaithful
    rcases hFaithful .timeouts (by decide) with
      hLiteral | hKept
    · exact absurd hLiteral (by decide)
    · exact absurd hKept (by decide)
  · exact
      parseYamlLine_eq_setting_iff.mp
        (show parseYamlLine _ [] = _ by decide)
  · rintro (hSpelled | hKept)
    · cases hSpelled with
      | cons hFirst _ => exact absurd hFirst (by decide)
    · exact absurd hKept (by decide)

end ConfigFile

end ObscuraProto
