import ObscuraProto.Library.BigEndian

/-
  Fields of bytes that begin with their length.

  The length is a big-endian number of `w` bytes and the
  content follows.  The first field of a byte string can be
  split off, and a concatenation of fields has only one
  decomposition.

  Main declarations:
    * `Framing.field`, `Framing.Fits`
    * `Framing.split`, `Framing.split_eq_some_iff`
    * `Framing.Begins`, `Framing.begins_iff`
    * `Framing.Parses`, `Framing.parses_iff`
    * `Framing.Parses.unique`
    * `Framing.Behind`, `Framing.Behind.next`
-/

namespace Framing

variable {w : Nat}

------------------------------------------------------------
-- One Field
------------------------------------------------------------

def field (w : Nat) (content : List UInt8) : List UInt8 :=
  BigEndian.encode w content.length ++ content

/- The length can be written with `w` bytes. -/
def Fits (w : Nat) (content : List UInt8) : Prop :=
  content.length < 256 ^ w

/- The content of the first field, and what follows it. -/
def split
    (w : Nat)
    (bytes : List UInt8) :
    Option (List UInt8 × List UInt8) :=
  if bytes.length < w then
    none
  else
    let n := BigEndian.decode (bytes.take w)
    let rest := bytes.drop w
    if rest.length < n then
      none
    else
      some (rest.take n, rest.drop n)

@[simp] theorem length_field (content : List UInt8) :
    (field w content).length = w + content.length := by
  simp [field]

theorem split_field
    {content : List UInt8}
    (hFits : Fits w content)
    (rest : List UInt8) :
    split w (field w content ++ rest) =
      some (content, rest) := by
  have hPrefix :
      (BigEndian.encode w content.length).length = w :=
    BigEndian.length_encode w content.length
  have hTake :
      (field w content ++ rest).take w =
        BigEndian.encode w content.length := by
    rw [field, List.append_assoc]
    exact List.take_left' hPrefix
  have hDrop :
      (field w content ++ rest).drop w = content ++ rest := by
    rw [field, List.append_assoc]
    exact List.drop_left' hPrefix
  have hLong :
      ¬ (field w content ++ rest).length < w := by
    rw [List.length_append, length_field]
    omega
  have hRoom :
      ¬ (content ++ rest).length < content.length := by
    rw [List.length_append]
    omega
  simp only [split, hLong, if_false, hTake, hDrop,
    BigEndian.decode_encode hFits, hRoom,
    List.take_left', List.drop_left']

/- Whatever is split off was such a field. -/
theorem field_of_split
    {bytes content rest : List UInt8}
    (hSplit : split w bytes = some (content, rest)) :
    Fits w content ∧ bytes = field w content ++ rest := by
  unfold split at hSplit
  split at hSplit
  · cases hSplit
  · next hLong =>
      simp only at hSplit
      split at hSplit
      · cases hSplit
      · next hRoom =>
          cases hSplit
          have hPrefix : (bytes.take w).length = w := by
            rw [List.length_take]
            omega
          have hLength :
              ((bytes.drop w).take
                  (BigEndian.decode
                    (bytes.take w))).length =
                BigEndian.decode (bytes.take w) := by
            rw [List.length_take]
            omega
          have hEncode :=
            BigEndian.encode_decode (bytes.take w)
          rw [hPrefix] at hEncode
          constructor
          · have hBelow := BigEndian.decode_lt (bytes.take w)
            rw [hPrefix] at hBelow
            rw [Fits, hLength]
            exact hBelow
          · rw [field, hLength, hEncode, List.append_assoc,
              List.take_append_drop, List.take_append_drop]

theorem split_eq_some_iff
    {bytes content rest : List UInt8} :
    split w bytes = some (content, rest) ↔
      Fits w content ∧ bytes = field w content ++ rest := by
  constructor
  · exact field_of_split
  · rintro ⟨hFits, hBytes⟩
    rw [hBytes]
    exact split_field hFits rest

/- A field of `n` bytes stands first, and `rest` follows. -/
def Begins
    (w n : Nat)
    (bytes rest : List UInt8) : Prop :=
  ∃ content,
    content.length = n ∧
      Fits w content ∧ bytes = field w content ++ rest

theorem begins_iff
    {n : Nat}
    {bytes rest : List UInt8} :
    Begins w n bytes rest ↔
      ∃ content,
        split w bytes = some (content, rest) ∧
          content.length = n := by
  constructor
  · rintro ⟨content, hLength, hField⟩
    exact ⟨content, split_eq_some_iff.mpr hField, hLength⟩
  · rintro ⟨content, hSplit, hLength⟩
    exact ⟨content, hLength, field_of_split hSplit⟩

/- Both the length and what follows are determined. -/
theorem Begins.unique
    {n m : Nat}
    {bytes rest rest' : List UInt8}
    (hBegins : Begins w n bytes rest)
    (hOther : Begins w m bytes rest') :
    n = m ∧ rest = rest' := by
  rcases begins_iff.mp hBegins with
    ⟨content, hSplit, hLength⟩
  rcases begins_iff.mp hOther with
    ⟨content', hSplit', hLength'⟩
  rw [hSplit] at hSplit'
  cases hSplit'
  exact ⟨hLength.symm.trans hLength', rfl⟩

------------------------------------------------------------
-- Many Fields
------------------------------------------------------------

/- The bytes are these fields, one after the other. -/
structure Parses
    (w : Nat)
    (bytes : List UInt8)
    (contents : List (List UInt8)) : Prop where
  fits : ∀ content ∈ contents, Fits w content
  bytes_eq : bytes = contents.flatMap (field w)

theorem parses_nil : Parses w [] [] where
  fits := by simp
  bytes_eq := rfl

theorem Parses.cons
    {content rest : List UInt8}
    {contents : List (List UInt8)}
    (hFits : Fits w content)
    (hRest : Parses w rest contents) :
    Parses w (field w content ++ rest)
      (content :: contents) where
  fits := by
    intro other hMem
    rcases List.mem_cons.mp hMem with hFirst | hLater
    · rw [hFirst]
      exact hFits
    · exact hRest.fits other hLater
  bytes_eq := by
    rw [List.flatMap_cons, hRest.bytes_eq]

/- Either nothing is left, or a field is split off. -/
theorem parses_iff
    {bytes : List UInt8}
    {contents : List (List UInt8)} :
    Parses w bytes contents ↔
      (bytes = [] ∧ contents = []) ∨
        ∃ content rest later,
          split w bytes = some (content, rest) ∧
            contents = content :: later ∧
              Parses w rest later := by
  constructor
  · intro hParses
    cases contents with
    | nil => exact Or.inl ⟨hParses.bytes_eq, rfl⟩
    | cons content later =>
        have hFits :=
          hParses.fits content List.mem_cons_self
        refine
          Or.inr
            ⟨content, later.flatMap (field w), later, ?_, rfl,
              ?_, rfl⟩
        · rw [hParses.bytes_eq, List.flatMap_cons]
          exact split_field hFits _
        · intro other hMem
          exact
            hParses.fits other (List.mem_cons_of_mem _ hMem)
  · rintro
      (⟨hBytes, hContents⟩ |
        ⟨content, rest, later, hSplit, hContents, hLater⟩)
    · rw [hBytes, hContents]
      exact parses_nil
    · rcases field_of_split hSplit with ⟨hFits, hBytes⟩
      rw [hBytes, hContents]
      exact hLater.cons hFits

/- There is only one decomposition into fields. -/
theorem Parses.unique
    (hWidth : 0 < w)
    {bytes : List UInt8}
    {contents others : List (List UInt8)}
    (hParses : Parses w bytes contents)
    (hOthers : Parses w bytes others) :
    contents = others := by
  have hSplitNil : split w [] = none := by
    rw [split, if_pos]
    exact hWidth
  induction contents generalizing bytes others with
  | nil =>
      rcases parses_iff.mp hOthers with
        ⟨_, hNil⟩ | ⟨_, _, _, hSplit, _⟩
      · exact hNil.symm
      · rw [hParses.bytes_eq, List.flatMap_nil,
          hSplitNil] at hSplit
        cases hSplit
  | cons content later ih =>
      rcases parses_iff.mp hParses with
        ⟨_, hNil⟩ | ⟨_, rest, _, hSplit, hCons, hLater⟩
      · cases hNil
      · cases hCons
        rcases parses_iff.mp hOthers with
          ⟨hEmpty, _⟩ | ⟨_, _, _, hSplit', hCons', hLater'⟩
        · rw [hEmpty, hSplitNil] at hSplit
          cases hSplit
        · rw [hSplit] at hSplit'
          cases hSplit'
          rw [hCons', ih hLater hLater']

------------------------------------------------------------
-- What Follows the Fields
------------------------------------------------------------

/- The bytes are some fields, and then `tail`. -/
def Behind (w : Nat) (bytes tail : List UInt8) : Prop :=
  ∃ contents : List (List UInt8),
    (∀ content ∈ contents, Fits w content) ∧
      bytes = contents.flatMap (field w) ++ tail

theorem Behind.refl (bytes : List UInt8) :
    Behind w bytes bytes :=
  ⟨[], by simp, rfl⟩

/- A field that can be split off is one of them. -/
theorem Behind.next
    {bytes tail content rest : List UInt8}
    (hBehind : Behind w bytes tail)
    (hSplit : split w tail = some (content, rest)) :
    Behind w bytes rest := by
  rcases hBehind with ⟨contents, hFits, hBytes⟩
  rcases field_of_split hSplit with ⟨hLast, hTail⟩
  refine ⟨contents ++ [content], ?_, ?_⟩
  · intro other hMem
    rcases List.mem_append.mp hMem with hOld | hNew
    · exact hFits other hOld
    · rw [List.mem_singleton.mp hNew]
      exact hLast
  · rw [hBytes, hTail, List.flatMap_append,
      List.flatMap_singleton, List.append_assoc]

end Framing
