import ObscuraProto.Library.Framing
import ObscuraProto.TypedParams

/-
  The language of the parameter reader.

  The parameters of a payload are read to their end without
  an exception exactly when they are a concatenation of
  fields with a 16-bit length, and then these are the fields
  that are read.  Every copy the reader makes stays within
  the parameters.

  Key definitions include:
    * `PayloadReader.readAll`
    * `PayloadReader.readParamBytesChecked`

  Key theorems include:
    * `PayloadReader.readParamBytes_of_split`
    * `PayloadReader.readParamBytes_of_short`
    * `PayloadReader.readAll_eq_ok_iff`
    * `ParamGrammar.reader_grammar`
-/

namespace ObscuraProto

open Framing (Parses)

------------------------------------------------------------
-- Fields of the Builder
------------------------------------------------------------

theorem PayloadBuilder.field_eq
    {param : Bytes}
    (hSize : param.length ≤ 65535) :
    field param = Framing.field 2 param := by
  have hLen :
      (UInt16.ofNat param.length).toNat = param.length := by
    rw [UInt16.toNat_ofNat']
    omega
  rw [field, htons, hLen, Framing.field]

theorem fits_iff {param : Bytes} :
    Framing.Fits 2 param ↔ param.length ≤ 65535 := by
  unfold Framing.Fits
  omega

namespace PayloadReader

------------------------------------------------------------
-- One Read
------------------------------------------------------------

/- A field that can be split off is read. -/
theorem readParamBytes_of_split
    {r : PayloadReader}
    {param rest : Bytes}
    (hSplit :
      Framing.split 2 r.remaining = some (param, rest)) :
    r.readParamBytes =
        (.ok param, r.advance (param.length + 2)) ∧
      (r.advance (param.length + 2)).remaining = rest := by
  rcases Framing.field_of_split hSplit with ⟨hFits, hRest⟩
  have hSize := fits_iff.mp hFits
  rw [← PayloadBuilder.field_eq hSize] at hRest
  exact
    ⟨readParamBytes_field hSize hRest,
      remaining_advance_field hRest⟩

/- The length in front of the reader. -/
theorem ntohs_slice
    {r : PayloadReader}
    (hLong : r.offset + 2 ≤ r.paramsData.length) :
    (ntohs (slice r.paramsData r.offset 2)).toNat =
      BigEndian.decode (r.remaining.take 2) := by
  have hTwo : (r.remaining.take 2).length = 2 := by
    rw [List.length_take, length_remaining]
    omega
  have hBelow := BigEndian.decode_lt (r.remaining.take 2)
  rw [hTwo] at hBelow
  exact UInt16.toNat_ofNat_of_lt' hBelow

/-
  Otherwise an exception is thrown.  The reader stays in
  front of a missing length and goes to the end otherwise.
-/
theorem readParamBytes_missing
    {r : PayloadReader}
    (hShort : Framing.split 2 r.remaining = none) :
    (r.remaining.length ≤ 1 ∧
        r.readParamBytes =
          (.error (.runtimeError
            "Invalid payload data: not enough data for parameter length."),
            r)) ∨
      (2 ≤ r.remaining.length ∧
        ∃ r',
          r'.remaining = [] ∧
            r.readParamBytes =
              (.error (.runtimeError
                "Invalid payload data: not enough data for parameter content."),
                r')) := by
  unfold readParamBytes
  by_cases hLength : r.offset + 2 > r.paramsData.length
  · rw [if_pos hLength]
    refine Or.inl ⟨?_, rfl⟩
    rw [length_remaining]
    omega
  · have hLong := Nat.le_of_not_lt hLength
    rw [if_neg hLength]
    simp only [ntohs_slice hLong]
    have hContent :
        r.offset + 2 + BigEndian.decode (r.remaining.take 2) >
          r.paramsData.length := by
      by_contra hFits
      unfold Framing.split at hShort
      rw [if_neg, if_neg] at hShort
      · cases hShort
      · rw [List.length_drop, length_remaining]
        omega
      · rw [length_remaining]
        omega
    rw [if_pos hContent]
    refine Or.inr ⟨?_, _, ?_, rfl⟩
    · rw [length_remaining]
      omega
    · exact List.drop_length

theorem readParamBytes_of_short
    {r : PayloadReader}
    (hShort : Framing.split 2 r.remaining = none) :
    ∃ e r', r.readParamBytes = (.error e, r') := by
  rcases readParamBytes_missing hShort with
    ⟨_, hRead⟩ | ⟨_, r', _, hRead⟩
  · exact ⟨_, r, hRead⟩
  · exact ⟨_, r', hRead⟩

/- A read that returns has consumed a field. -/
theorem split_of_readParamBytes
    {r r' : PayloadReader}
    {param : Bytes}
    (hRead : r.readParamBytes = (.ok param, r')) :
    ∃ rest,
      Framing.split 2 r.remaining = some (param, rest) ∧
        r' = r.advance (param.length + 2) ∧
          r'.remaining = rest := by
  cases hSplit : Framing.split 2 r.remaining with
  | none =>
      rcases readParamBytes_of_short hSplit with ⟨_, _, hError⟩
      rw [hError] at hRead
      cases hRead
  | some found =>
      rcases readParamBytes_of_split hSplit with
        ⟨hFound, hRest⟩
      rw [hFound] at hRead
      cases hRead
      exact ⟨found.2, rfl, rfl, hRest⟩

------------------------------------------------------------
-- Reading to the End
------------------------------------------------------------

/- `while (has_more()) read_param<byte_vector>()`. -/
def readAll (r : PayloadReader) :
    Except Exception (List Bytes) × PayloadReader :=
  if r.hasMore then
    match _hRead : r.readParamBytes with
    | (.error e, r') => (.error e, r')
    | (.ok param, r') =>
        match readAll r' with
        | (.error e, last) => (.error e, last)
        | (.ok params, last) => (.ok (param :: params), last)
  else
    (.ok [], r)
termination_by r.remaining.length
decreasing_by
  rcases split_of_readParamBytes _hRead with
    ⟨rest, hSplit, _, hRest⟩
  rw [hRest, (Framing.field_of_split hSplit).2,
    List.length_append, Framing.length_field]
  omega

theorem readAll_of_end
    {r : PayloadReader}
    (hEnd : r.remaining = []) :
    r.readAll = (.ok [], r) := by
  have hNone : r.hasMore = false := by
    rw [Bool.eq_false_iff]
    exact fun hMore => r.hasMore_iff.mp hMore hEnd
  rw [readAll, hNone]
  simp

theorem readAll_of_split
    {r : PayloadReader}
    {param rest : Bytes}
    (hSplit :
      Framing.split 2 r.remaining = some (param, rest)) :
    r.readAll =
      ((r.advance (param.length + 2)).readAll.1.map
          (param :: ·),
        (r.advance (param.length + 2)).readAll.2) := by
  have hRead := (readParamBytes_of_split hSplit).1
  have hMore : r.hasMore = true := by
    rw [hasMore_iff, (Framing.field_of_split hSplit).2]
    intro hEmpty
    have hLength := congrArg List.length hEmpty
    simp at hLength
  rw [readAll, if_pos hMore]
  split
  · next hError =>
      rw [hRead] at hError
      cases hError
  · next param' r' hOk =>
      rw [hRead] at hOk
      cases hOk
      cases hLater : (r.advance (param.length + 2)).readAll with
      | mk result last =>
          cases result <;> rfl

/- The fields that are read are those of the bytes. -/
theorem readAll_eq_ok_iff
    (r : PayloadReader)
    (fields : List Bytes) :
    r.readAll.1 = .ok fields ↔
      Parses 2 r.remaining fields := by
  induction hLength : r.remaining.length using
      Nat.strong_induction_on generalizing r fields with
  | _ n ih =>
      rw [Framing.parses_iff]
      by_cases hEnd : r.remaining = []
      · rw [readAll_of_end hEnd]
        have hShort : Framing.split 2 ([] : Bytes) = none :=
          rfl
        simp [hEnd, hShort, eq_comm]
      · cases hSplit : Framing.split 2 r.remaining with
        | none =>
            have hMore : r.hasMore = true :=
              r.hasMore_iff.mpr hEnd
            rcases readParamBytes_of_short hSplit with
              ⟨e, r', hError⟩
            have hThrows : r.readAll = (.error e, r') := by
              rw [readAll, if_pos hMore]
              split
              · next hSame =>
                  rw [hError] at hSame
                  cases hSame
                  rfl
              · next hOk =>
                  rw [hError] at hOk
                  cases hOk
            simp [hThrows, hEnd]
        | some found =>
            rcases found with ⟨param, rest⟩
            have hRest := (readParamBytes_of_split hSplit).2
            have hShorter : rest.length < n := by
              rw [← hLength,
                (Framing.field_of_split hSplit).2,
                List.length_append, Framing.length_field]
              omega
            have hLater (later : List Bytes) :=
              ih rest.length hShorter
                (r.advance (param.length + 2)) later
                (by rw [hRest])
            rw [readAll_of_split hSplit]
            constructor
            · intro hOk
              cases hResult :
                  (r.advance (param.length + 2)).readAll.1 with
              | error e =>
                  rw [hResult] at hOk
                  cases hOk
              | ok later =>
                  rw [hResult] at hOk
                  cases hOk
                  have hParses := (hLater later).mp hResult
                  rw [hRest] at hParses
                  exact
                    Or.inr
                      ⟨param, rest, later, rfl, rfl, hParses⟩
            · rintro
                (⟨hEmpty, _⟩ |
                  ⟨_, _, later, hSame, hFields, hParses⟩)
              · exact (hEnd hEmpty).elim
              · cases hSame
                rw [hFields]
                rw [← hRest] at hParses
                simp only [(hLater later).mpr hParses,
                  Except.map]

------------------------------------------------------------
-- Reading at a Type
------------------------------------------------------------

/- A field of another width is consumed, then refused. -/
theorem readParamWidth_mismatch
    {width : Nat}
    {r : PayloadReader}
    {param rest : Bytes}
    (hSplit :
      Framing.split 2 r.remaining = some (param, rest))
    (hOther : param.length ≠ width) :
    ∃ e,
      r.readParamWidth width =
        (.error e, r.advance (param.length + 2)) := by
  rw [readParamWidth, (readParamBytes_of_split hSplit).1]
  simp only [if_pos hOther]
  exact ⟨_, rfl⟩

theorem readParamRaw_mismatch
    {n : Nat}
    {r : PayloadReader}
    {param rest : Bytes}
    (hSplit :
      Framing.split 2 r.remaining = some (param, rest))
    (hOther : param.length ≠ n) :
    ∃ e,
      r.readParamRaw n =
        (.error e, r.advance (param.length + 2)) := by
  rw [readParamRaw, (readParamBytes_of_split hSplit).1]
  simp only [dif_neg hOther]
  exact ⟨_, rfl⟩

theorem readParam_mismatch
    {type : ParamType}
    {width : Nat}
    {r : PayloadReader}
    {param rest : Bytes}
    (hWidth : type.width? = some width)
    (hSplit :
      Framing.split 2 r.remaining = some (param, rest))
    (hOther : param.length ≠ width) :
    ∃ e,
      r.readParam type =
        (.error e, r.advance (param.length + 2)) := by
  rcases readParamWidth_mismatch hSplit hOther with
    ⟨e, hRead⟩
  cases type with
  | byteVector => cases hWidth
  | string => cases hWidth
  | float =>
      cases hWidth
      rcases readParamRaw_mismatch hSplit hOther with
        ⟨e', hRaw⟩
      simp only [readParam, asParam, hRaw]
      exact ⟨_, rfl⟩
  | double =>
      cases hWidth
      rcases readParamRaw_mismatch hSplit hOther with
        ⟨e', hRaw⟩
      simp only [readParam, asParam, hRaw]
      exact ⟨_, rfl⟩
  | _ =>
      cases hWidth
      refine ⟨e, ?_⟩
      simp only [readParam, asParam, readParamBool,
        readParamInt8, readParamUint8, readParamInt16,
        readParamUint16, readParamInt32, readParamUint32,
        readParamInt64, readParamUint64, readParamAs, hRead]
      rfl

------------------------------------------------------------
-- Bounds
------------------------------------------------------------

/- `peek_next_param_size`; a copy outside yields `none`. -/
def peekNextParamSizeChecked (r : PayloadReader) :
    Option (Except Exception Nat) :=
  if r.offset + 2 > r.paramsData.length then
    some (.error (.runtimeError
      "Invalid payload data: not enough data to read parameter length."))
  else do
    let beLen ← copy? r.paramsData r.offset 2
    some (.ok (ntohs beLen).toNat)

/- `read_param_bytes` in the same way. -/
def readParamBytesChecked (r : PayloadReader) :
    Option (Except Exception Bytes × PayloadReader) :=
  if r.offset + 2 > r.paramsData.length then
    some
      (.error (.runtimeError
        "Invalid payload data: not enough data for parameter length."),
        r)
  else do
    let beLen ← copy? r.paramsData r.offset 2
    let len := (ntohs beLen).toNat
    let offset := r.offset + 2
    if offset + len > r.paramsData.length then
      some
        (.error (.runtimeError
          "Invalid payload data: not enough data for parameter content."),
          { r with offset := r.paramsData.length })
    else do
      let outParam ← copy? r.paramsData offset len
      some (.ok outParam, { r with offset := offset + len })

theorem peekNextParamSize_inside (r : PayloadReader) :
    r.peekNextParamSizeChecked =
      some r.peekNextParamSize := by
  unfold peekNextParamSizeChecked peekNextParamSize
  split
  · rfl
  · next hLong =>
      rw [copy?_eq_some (Nat.le_of_not_lt hLong)]
      rfl

theorem readParamBytes_inside (r : PayloadReader) :
    r.readParamBytesChecked = some r.readParamBytes := by
  unfold readParamBytesChecked readParamBytes
  split
  · rfl
  · next hLong =>
      rw [copy?_eq_some (Nat.le_of_not_lt hLong)]
      simp only [Option.bind_eq_bind, Option.bind_some]
      split
      · rfl
      · next hContent =>
          rw [copy?_eq_some (Nat.le_of_not_lt hContent)]
          rfl

end PayloadReader

------------------------------------------------------------
-- The Grammar
------------------------------------------------------------

namespace ParamGrammar

open PayloadReader

/- Fields that are added in order make up the bytes. -/
theorem rebuilt
    {bytes : Bytes}
    {fields : List Bytes}
    (hParses : Parses 2 bytes fields)
    (b : PayloadBuilder) :
    TypedParams.addAll (fields.map Param.byteVector) b =
      .ok
        { payload :=
            { b.payload with
              parameters :=
                b.payload.parameters ++ bytes } } := by
  have hSized (param : Bytes) (hMem : param ∈ fields) :
      param.length ≤ 65535 :=
    fits_iff.mp (hParses.fits param hMem)
  rw [TypedParams.addAll_of_fits, hParses.bytes_eq,
    List.flatMap_map]
  · have hFields :
        fields.flatMap (Framing.field 2) =
          fields.flatMap PayloadBuilder.field := by
      apply List.flatMap_congr
      intro param hMem
      exact (PayloadBuilder.field_eq (hSized param hMem)).symm
    rw [hFields]
    rfl
  · intro p hMem
    rcases List.mem_map.mp hMem with ⟨param, hParam, hEq⟩
    rw [← hEq]
    exact hSized param hParam

/-
  The loop reads parameters to their end exactly when they
  are a concatenation of fields, and it reads those, which
  are the only ones and rebuild the bytes.  No copy of any
  reader goes beyond its bytes.  A read at a type of another
  width throws and leaves the reader behind the field, so
  that what follows is read as if it stood alone.
-/
theorem reader_grammar (bytes : Bytes) :
    (∀ opCode,
        let r := PayloadReader.new ⟨opCode, bytes⟩
        ((∃ fields, r.readAll.1 = .ok fields) ↔
            ∃ fields, Parses 2 bytes fields) ∧
          ∀ fields, r.readAll.1 = .ok fields →
            Parses 2 bytes fields ∧
              (∀ others, Parses 2 bytes others →
                others = fields) ∧
              TypedParams.addAll
                  (fields.map Param.byteVector)
                  (.new opCode) =
                .ok { payload := ⟨opCode, bytes⟩ }) ∧
      (∀ offset,
        (⟨bytes, offset⟩ :
              PayloadReader).peekNextParamSizeChecked =
            some
              (⟨bytes, offset⟩ :
                PayloadReader).peekNextParamSize ∧
          (⟨bytes, offset⟩ :
                PayloadReader).readParamBytesChecked =
            some
              (⟨bytes, offset⟩ :
                PayloadReader).readParamBytes) ∧
      ∀ offset param rest type width,
        bytes.drop offset = Framing.field 2 param ++ rest →
          param.length ≤ 65535 →
            ParamType.width? type = some width →
              param.length ≠ width →
                ∃ e r',
                  (⟨bytes, offset⟩ :
                        PayloadReader).readParam type =
                      (.error e, r') ∧
                    r'.offset = offset + (param.length + 2) ∧
                      r'.remaining = rest ∧
                        ∀ fields, Parses 2 rest fields →
                          r'.readAll.1 = .ok fields := by
  refine ⟨fun opCode => ⟨?_, ?_⟩, fun offset => ?_, ?_⟩
  · simp only [readAll_eq_ok_iff]
    rfl
  · intro fields hRead
    have hParses : Parses 2 bytes fields :=
      (readAll_eq_ok_iff _ fields).mp hRead
    refine ⟨hParses, fun others hOthers => ?_, ?_⟩
    · exact hOthers.unique (by decide) hParses
    · exact rebuilt hParses (.new opCode)
  · exact
      ⟨peekNextParamSize_inside _, readParamBytes_inside _⟩
  · intro offset param rest type width hRest hSize hWidth
      hOther
    have hSplit :
        Framing.split 2
            (⟨bytes, offset⟩ : PayloadReader).remaining =
          some (param, rest) := by
      apply Framing.split_eq_some_iff.mpr
      exact ⟨fits_iff.mpr hSize, hRest⟩
    rcases readParam_mismatch hWidth hSplit hOther with
      ⟨e, hRead⟩
    have hBehind := (readParamBytes_of_split hSplit).2
    refine ⟨e, _, hRead, rfl, hBehind, ?_⟩
    intro fields hParses
    rw [readAll_eq_ok_iff, hBehind]
    exact hParses

/- A short and a wrong field in front of a good one. -/
theorem reader_grammar_sample :
    (PayloadReader.new
          ⟨0, [0, 1, 7, 0, 0]⟩).readAll.1 =
        .ok [[7], []] ∧
      Parses 2 [0, 1, 7, 0, 0] [[7], []] ∧
      ∃ e r',
        (⟨[0, 1, 7, 0, 0], 0⟩ : PayloadReader).readParam
              .uint32 =
            (.error e, r') ∧
          r'.readAll.1 = .ok [[]] := by
  have hRead :
      (PayloadReader.new
          ⟨0, [0, 1, 7, 0, 0]⟩).readAll.1 =
        .ok [[7], []] := by
    rw [readAll_eq_ok_iff]
    exact ⟨by simp [Framing.Fits], rfl⟩
  have hGrammar := reader_grammar [0, 1, 7, 0, 0]
  rcases hGrammar.2.2 0 [7] [0, 0] .uint32 4 rfl (by decide)
      rfl (by decide) with
    ⟨e, r', hError, _, _, hLater⟩
  exact
    ⟨hRead, ((hGrammar.1 0).2 _ hRead).1, e, r', hError,
      hLater [[]] ⟨by simp [Framing.Fits], rfl⟩⟩

end ParamGrammar

end ObscuraProto
