import ObscuraProto.SecureBuffer

/-
  Every block of key memory has one owner.

  A buffer that is not empty owns a block of its size, no two
  buffers own the same block, and no block is without an owner.
  A block can be given, freed, rewritten or handed on without
  breaking this.

  Key definitions include:
    * `Memory.Holds`, `Memory.Sound`
    * `Memory.values`

  Key theorems include:
    * `Memory.Sound.own`, `Memory.Sound.drop`
    * `Memory.Sound.rewrite`, `Memory.Sound.hand`
    * `Memory.Sound.holds_of_value`
-/

namespace ObscuraProto

------------------------------------------------------------
-- Ownership
------------------------------------------------------------

/- Empty, or the owner of a block with these bytes. -/
inductive Memory.Holds (m : Memory) :
    SecureBuffer → Bytes → Prop
| nothing : m.Holds {} []
| block
    {a : Address}
    {bytes : Bytes} :
    m.blocks a = some bytes →
      0 < bytes.length →
        m.Holds { data := some a, size := bytes.length } bytes

structure Memory.Sound (m : Memory) : Prop where
  held :
    ∀ id buffer,
      m.objects id = some buffer →
        ∃ bytes, m.Holds buffer bytes
  sole :
    ∀ id id' buffer buffer' a,
      m.objects id = some buffer →
        m.objects id' = some buffer' →
          buffer.data = some a →
            buffer'.data = some a → id = id'
  kept :
    ∀ a contents,
      m.blocks a = some contents →
        ∃ id buffer,
          m.objects id = some buffer ∧
            buffer.data = some a

/- Which buffers are alive, and what is in them. -/
abbrev BufferValues : Type := ObjectId → Option Bytes

namespace Memory

def bytesOf (m : Memory) (buffer : SecureBuffer) : Bytes :=
  (buffer.data.bind m.blocks).getD []

def values (m : Memory) : BufferValues :=
  fun id => (m.objects id).map m.bytesOf

theorem sound_empty : Sound {} where
  held := nofun
  sole := nofun
  kept := nofun

section

variable
  {m : Memory}
  {id : ObjectId}
  {buffer : SecureBuffer}
  {bytes : Bytes}
  {a : Address}

theorem Holds.bytesOf_eq (hHolds : m.Holds buffer bytes) :
    m.bytesOf buffer = bytes := by
  cases hHolds with
  | nothing => rfl
  | block hBlock => simp [bytesOf, hBlock]

theorem Holds.size_eq (hHolds : m.Holds buffer bytes) :
    buffer.size = bytes.length := by
  cases hHolds <;> rfl

theorem Holds.setBlock
    {other : Option Bytes}
    (hHolds : m.Holds buffer bytes)
    (hOther : buffer.data ≠ some a) :
    (m.setBlock a other).Holds buffer bytes := by
  cases hHolds with
  | nothing => exact .nothing
  | @block a' _ hBlock hPos =>
      have hApart : a' ≠ a := by
        rintro rfl
        exact hOther rfl
      exact .block (by simpa [hApart] using hBlock) hPos

theorem Holds.setObject
    {value : Option SecureBuffer}
    (hHolds : m.Holds buffer bytes) :
    (m.setObject id value).Holds buffer bytes := by
  cases hHolds with
  | nothing => exact .nothing
  | block hBlock hPos => exact .block hBlock hPos

theorem bytesOf_setBlock
    {other : Option Bytes}
    (hOther : buffer.data ≠ some a) :
    (m.setBlock a other).bytesOf buffer = m.bytesOf buffer := by
  cases hData : buffer.data with
  | none => simp [bytesOf, hData]
  | some a' =>
      have hApart : a' ≠ a := by
        rintro rfl
        exact hOther hData
      simp [bytesOf, hData, hApart]

theorem bytesOf_setObject (value : Option SecureBuffer) :
    (m.setObject id value).bytesOf = m.bytesOf :=
  rfl

end

/- An object that owns no block. -/
def Idle (m : Memory) (id : ObjectId) : Prop :=
  ∀ buffer, m.objects id = some buffer → buffer.data = none

namespace Sound

variable
  {m : Memory}
  {id : ObjectId}
  {buffer : SecureBuffer}
  {a : Address}
  {contents : Bytes}

/- A free block has no owner. -/
theorem data_ne
    (hSound : m.Sound)
    (hFree : m.blocks a = none)
    (hObject : m.objects id = some buffer) :
    buffer.data ≠ some a := by
  intro hData
  obtain ⟨bytes, hHolds⟩ := hSound.held id buffer hObject
  cases hHolds with
  | nothing => cases hData
  | block hBlock =>
      cases hData
      simp [hBlock] at hFree

/- An object without a block is replaced by an empty one. -/
theorem reset
    (hSound : m.Sound)
    (hIdle : m.Idle id)
    {value : Option SecureBuffer}
    (hValue : ∀ b ∈ value, b = {}) :
    (m.setObject id value).Sound where
  held := by
    intro other b hObject
    by_cases hSame : other = id
    · subst hSame
      rw [hValue b (by simpa using hObject)]
      exact ⟨[], .nothing⟩
    · obtain ⟨bytes, hHolds⟩ :=
        hSound.held other b (by simpa [hSame] using hObject)
      exact ⟨bytes, hHolds.setObject⟩
  sole := by
    have hOwner :
        ∀ other b a,
          (m.setObject id value).objects other = some b →
            b.data = some a → m.objects other = some b := by
      intro other b a hObject hData
      by_cases hSame : other = id
      · subst hSame
        have hEmpty := hValue b (by simpa using hObject)
        simp [hEmpty] at hData
      · simpa [hSame] using hObject
    intro id₁ id₂ b₁ b₂ a h₁ h₂ hData₁ hData₂
    exact
      hSound.sole id₁ id₂ b₁ b₂ a
        (hOwner id₁ b₁ a h₁ hData₁)
        (hOwner id₂ b₂ a h₂ hData₂) hData₁ hData₂
  kept := by
    intro a contents hBlock
    obtain ⟨other, b, hObject, hData⟩ :=
      hSound.kept a contents hBlock
    have hOther : other ≠ id := by
      rintro rfl
      simp [hIdle b hObject] at hData
    exact ⟨other, b, by simpa [hOther] using hObject, hData⟩

theorem values_reset
    (m : Memory)
    (id : ObjectId)
    {value : Option SecureBuffer}
    (hValue : ∀ b ∈ value, b = {}) :
    (m.setObject id value).values =
      Function.update m.values id (value.map fun _ => []) := by
  funext other
  by_cases hSame : other = id
  · subst hSame
    cases value with
    | none => simp [values]
    | some b => simp [values, hValue b rfl, bytesOf]
  · simp [values, hSame, bytesOf_setObject]

/- A free block is given to an object that has none. -/
theorem own
    (hSound : m.Sound)
    (hIdle : m.Idle id)
    (hFree : m.blocks a = none)
    (hPos : 0 < contents.length) :
    ((m.setBlock a (some contents)).setObject id
      (some { data := some a, size := contents.length })).Sound
    where
  held := by
    intro other b hObject
    by_cases hSame : other = id
    · subst hSame
      simp only [objects_setObject, Function.update_self,
        Option.some.injEq] at hObject
      subst hObject
      exact ⟨contents, .block (by simp) hPos⟩
    · have hBefore : m.objects other = some b := by
        simpa [hSame] using hObject
      obtain ⟨bytes, hHolds⟩ := hSound.held other b hBefore
      exact
        ⟨bytes,
          (hHolds.setBlock
            (hSound.data_ne hFree hBefore)).setObject⟩
  sole := by
    have hOwner :
        ∀ other b a',
          ((m.setBlock a (some contents)).setObject id
            (some { data := some a
                    size := contents.length })).objects
              other = some b →
            b.data = some a' →
              other = id ∧ a' = a ∨
                other ≠ id ∧ a' ≠ a ∧
                  m.objects other = some b := by
      intro other b a' hObject hData
      by_cases hSame : other = id
      · subst hSame
        simp only [objects_setObject, Function.update_self,
          Option.some.injEq] at hObject
        subst hObject
        exact .inl ⟨rfl, by simpa using hData.symm⟩
      · have hBefore : m.objects other = some b := by
          simpa [hSame] using hObject
        refine .inr ⟨hSame, ?_, hBefore⟩
        rintro rfl
        exact hSound.data_ne hFree hBefore hData
    intro id₁ id₂ b₁ b₂ a' h₁ h₂ hData₁ hData₂
    rcases hOwner id₁ b₁ a' h₁ hData₁ with
      ⟨hId₁, hNew⟩ | ⟨_, hOld, hBefore₁⟩ <;>
    rcases hOwner id₂ b₂ a' h₂ hData₂ with
      ⟨hId₂, hNew'⟩ | ⟨_, hOld', hBefore₂⟩
    · exact hId₁.trans hId₂.symm
    · exact absurd hNew hOld'
    · exact absurd hNew' hOld
    · exact
        hSound.sole id₁ id₂ b₁ b₂ a' hBefore₁ hBefore₂
          hData₁ hData₂
  kept := by
    intro a' contents' hBlock
    by_cases hSame : a' = a
    · exact
        ⟨id, { data := some a, size := contents.length },
          by simp, by simp [hSame]⟩
    · obtain ⟨other, b, hObject, hData⟩ :=
        hSound.kept a' contents' (by simpa [hSame] using hBlock)
      have hOther : other ≠ id := by
        rintro rfl
        simp [hIdle b hObject] at hData
      exact ⟨other, b, by simpa [hOther] using hObject, hData⟩

theorem values_own
    (hSound : m.Sound)
    (hFree : m.blocks a = none) :
    ((m.setBlock a (some contents)).setObject id
      (some { data := some a
              size := contents.length })).values =
      Function.update m.values id (some contents) := by
  funext other
  by_cases hSame : other = id
  · subst hSame
    simp [values, bytesOf]
  · cases hObject : m.objects other with
    | none => simp [values, hSame, hObject]
    | some b =>
        have hKept :
            (m.setBlock a (some contents)).bytesOf b =
              m.bytesOf b :=
          bytesOf_setBlock (hSound.data_ne hFree hObject)
        simp [values, hSame, hObject, bytesOf_setObject, hKept]

/- The block of an object is freed, and the object emptied. -/
theorem drop
    (hSound : m.Sound)
    (hObject : m.objects id = some buffer)
    (hData : buffer.data = some a)
    {value : Option SecureBuffer}
    (hValue : ∀ b ∈ value, b = {}) :
    ((m.setBlock a none).setObject id value).Sound where
  held := by
    intro other b hOther
    by_cases hSame : other = id
    · subst hSame
      rw [hValue b (by simpa using hOther)]
      exact ⟨[], .nothing⟩
    · have hBefore : m.objects other = some b := by
        simpa [hSame] using hOther
      have hApart : b.data ≠ some a := fun hShared =>
        hSame
          (hSound.sole other id b buffer a hBefore hObject
            hShared hData)
      obtain ⟨bytes, hHolds⟩ := hSound.held other b hBefore
      exact ⟨bytes, (hHolds.setBlock hApart).setObject⟩
  sole := by
    have hOwner :
        ∀ other b a',
          ((m.setBlock a none).setObject id value).objects
              other = some b →
            b.data = some a' → m.objects other = some b := by
      intro other b a' hOther hData'
      by_cases hSame : other = id
      · subst hSame
        have hEmpty := hValue b (by simpa using hOther)
        simp [hEmpty] at hData'
      · simpa [hSame] using hOther
    intro id₁ id₂ b₁ b₂ a' h₁ h₂ hData₁ hData₂
    exact
      hSound.sole id₁ id₂ b₁ b₂ a'
        (hOwner id₁ b₁ a' h₁ hData₁)
        (hOwner id₂ b₂ a' h₂ hData₂) hData₁ hData₂
  kept := by
    intro a' contents' hBlock
    have hApart : a' ≠ a := by
      rintro rfl
      simp at hBlock
    obtain ⟨other, b, hBefore, hOwned⟩ :=
      hSound.kept a' contents' (by simpa [hApart] using hBlock)
    have hOther : other ≠ id := by
      rintro rfl
      cases hBefore.symm.trans hObject
      cases hOwned.symm.trans hData
      exact hApart rfl
    exact ⟨other, b, by simpa [hOther] using hBefore, hOwned⟩

theorem values_drop
    (hSound : m.Sound)
    (hObject : m.objects id = some buffer)
    (hData : buffer.data = some a)
    {value : Option SecureBuffer}
    (hValue : ∀ b ∈ value, b = {}) :
    ((m.setBlock a none).setObject id value).values =
      Function.update m.values id (value.map fun _ => []) := by
  rw [values_reset _ _ hValue]
  funext other
  by_cases hSame : other = id
  · simp [hSame]
  · cases hBefore : m.objects other with
    | none => simp [values, hSame, hBefore]
    | some b =>
        have hApart : b.data ≠ some a := fun hShared =>
          hSame
            (hSound.sole other id b buffer a hBefore hObject
              hShared hData)
        simp [values, hSame, hBefore, bytesOf_setBlock hApart]

/- An owner changes what its block holds. -/
theorem rewrite
    (hSound : m.Sound)
    (hObject : m.objects id = some buffer)
    (hData : buffer.data = some a)
    (hSize : contents.length = buffer.size) :
    (m.setBlock a (some contents)).Sound where
  held := by
    intro other b hBefore
    by_cases hSame : b.data = some a
    · have hId :=
        hSound.sole other id b buffer a hBefore hObject
          hSame hData
      subst hId
      have hEq : b = buffer :=
        Option.some.inj (hBefore.symm.trans hObject)
      rw [hEq]
      obtain ⟨bytes, hHolds⟩ :=
        hSound.held other buffer hObject
      cases hHolds with
      | nothing => cases hData
      | block _ hPos =>
          cases hData
          simp only at hSize
          rw [← hSize] at hPos ⊢
          exact ⟨contents, .block (by simp) hPos⟩
    · obtain ⟨bytes, hHolds⟩ := hSound.held other b hBefore
      exact ⟨bytes, hHolds.setBlock hSame⟩
  sole := hSound.sole
  kept := by
    intro a' contents' hBlock
    by_cases hSame : a' = a
    · exact ⟨id, buffer, hObject, by rw [hSame, hData]⟩
    · exact
        hSound.kept a' contents' (by simpa [hSame] using hBlock)

theorem values_rewrite
    (hSound : m.Sound)
    (hObject : m.objects id = some buffer)
    (hData : buffer.data = some a) :
    (m.setBlock a (some contents)).values =
      Function.update m.values id (some contents) := by
  funext other
  by_cases hSame : other = id
  · subst hSame
    simp [values, hObject, bytesOf, hData]
  · cases hBefore : m.objects other with
    | none => simp [values, hSame, hBefore]
    | some b =>
        have hApart : b.data ≠ some a := fun hShared =>
          hSame
            (hSound.sole other id b buffer a hBefore hObject
              hShared hData)
        simp [values, hSame, hBefore, bytesOf_setBlock hApart]

/- The fields go to an object that owns nothing. -/
theorem hand
    (hSound : m.Sound)
    (hIdle : m.Idle id)
    {other : ObjectId}
    (hApart : id ≠ other)
    (hObject : m.objects other = some buffer) :
    ((m.setObject id (some buffer)).setObject other
      (some {})).Sound where
  held := by
    intro x b hAfter
    by_cases hOther : x = other
    · subst hOther
      simp only [objects_setObject, Function.update_self,
        Option.some.injEq] at hAfter
      subst hAfter
      exact ⟨[], .nothing⟩
    · by_cases hSame : x = id
      · subst hSame
        have hEq : buffer = b := by simpa [hOther] using hAfter
        subst hEq
        obtain ⟨bytes, hHolds⟩ :=
          hSound.held other buffer hObject
        exact ⟨bytes, hHolds.setObject.setObject⟩
      · obtain ⟨bytes, hHolds⟩ :=
          hSound.held x b
            (by simpa [hOther, hSame] using hAfter)
        exact ⟨bytes, hHolds.setObject.setObject⟩
  sole := by
    -- what owns a block now is `id` or an owner as before
    have hOwner :
        ∀ x b a',
          ((m.setObject id (some buffer)).setObject other
            (some {})).objects x = some b →
            b.data = some a' →
              x = id ∧ b = buffer ∨
                x ≠ other ∧ m.objects x = some b := by
      intro x b a' hAfter hData
      by_cases hOther : x = other
      · subst hOther
        simp only [objects_setObject, Function.update_self,
          Option.some.injEq] at hAfter
        subst hAfter
        cases hData
      · by_cases hSame : x = id
        · subst hSame
          have hEq : buffer = b := by simpa [hOther] using hAfter
          exact .inl ⟨rfl, hEq.symm⟩
        · exact
            .inr ⟨hOther, by
              simpa [hOther, hSame] using hAfter⟩
    intro x y b c a' hX hY hDataX hDataY
    rcases hOwner x b a' hX hDataX with
      ⟨rfl, rfl⟩ | ⟨hApartX, hBeforeX⟩ <;>
    rcases hOwner y c a' hY hDataY with
      ⟨rfl, rfl⟩ | ⟨hApartY, hBeforeY⟩
    · rfl
    · exact
        absurd
          (hSound.sole y other c b a' hBeforeY hObject
            hDataY hDataX) hApartY
    · exact
        absurd
          (hSound.sole x other b c a' hBeforeX hObject
            hDataX hDataY) hApartX
    · exact
        hSound.sole x y b c a' hBeforeX hBeforeY hDataX
          hDataY
  kept := by
    intro a' contents' hBlock
    obtain ⟨x, b, hBefore, hData⟩ :=
      hSound.kept a' contents' hBlock
    have hIdleX : x ≠ id := by
      rintro rfl
      simp [hIdle b hBefore] at hData
    by_cases hOther : x = other
    · subst hOther
      have hEq : b = buffer :=
        Option.some.inj (hBefore.symm.trans hObject)
      exact ⟨id, buffer, by simp [hApart], hEq ▸ hData⟩
    · exact
        ⟨x, b, by simpa [hOther, hIdleX] using hBefore, hData⟩

theorem values_hand
    {other : ObjectId}
    (hApart : id ≠ other)
    (hObject : m.objects other = some buffer) :
    ((m.setObject id (some buffer)).setObject other
      (some {})).values =
      Function.update
        (Function.update m.values id (m.values other))
        other (some []) := by
  funext x
  by_cases hOther : x = other
  · subst hOther
    simp [values, bytesOf]
  · by_cases hSame : x = id
    · subst hSame
      simp [values, hOther, hObject, bytesOf_setObject]
    · simp [values, hOther, hSame, bytesOf_setObject]

/- A value is what the fields lead to. -/
theorem holds_of_value
    (hSound : m.Sound)
    {bytes : Bytes}
    (hValue : m.values id = some bytes) :
    ∃ b, m.objects id = some b ∧ m.Holds b bytes := by
  obtain ⟨b, hObject, hBytes⟩ :
      ∃ b, m.objects id = some b ∧ m.bytesOf b = bytes := by
    simpa [values] using hValue
  obtain ⟨held, hHolds⟩ := hSound.held id b hObject
  rw [← hBytes, hHolds.bytesOf_eq]
  exact ⟨b, hObject, hHolds⟩

theorem idle_of_dead
    (hDead : m.values id = none) :
    m.Idle id := by
  intro b hObject
  simp [values, hObject] at hDead

theorem idle_of_empty
    (hSound : m.Sound)
    (hEmpty : m.values id = some []) :
    m.Idle id := by
  intro b hObject
  obtain ⟨b', hObject', hHolds⟩ :=
    hSound.holds_of_value hEmpty
  cases hObject'.symm.trans hObject
  cases hHolds with
  | nothing => rfl
  | block _ hPos => cases hPos

/- Whoever is given an address is its only owner. -/
theorem owner_unique (hSound : m.Sound) (a : Address) :
    m.blocks a ≠ none ↔
      ∃! id,
        ∃ buffer,
          m.objects id = some buffer ∧
            buffer.data = some a := by
  constructor
  · intro hAllocated
    obtain ⟨contents, hBlock⟩ :=
      Option.ne_none_iff_exists'.mp hAllocated
    obtain ⟨id, buffer, hObject, hData⟩ :=
      hSound.kept a contents hBlock
    refine ⟨id, ⟨buffer, hObject, hData⟩, ?_⟩
    rintro id' ⟨buffer', hObject', hData'⟩
    exact
      hSound.sole id' id buffer' buffer a hObject' hObject
        hData' hData
  · rintro ⟨id, ⟨buffer, hObject, hData⟩, _⟩ hFree
    exact hSound.data_ne hFree hObject hData

end Sound

end Memory

end ObscuraProto
