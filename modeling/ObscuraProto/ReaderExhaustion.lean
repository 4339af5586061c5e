import ObscuraProto.ParamGrammar

/-
  A parameter reader after a framing error.

  A read that misses the content of its field moves the
  reader to the end, a read that misses the length leaves it
  where it is.  So a reader that has met a framing error is
  exhausted exactly when no single byte is left behind the
  complete fields.

  Key definitions include:
    * `PayloadReader.readEach`, `PayloadReader.drain`
    * `ReaderExhaustion.FramingError`
    * `ReaderExhaustion.ExhaustedOnError`
    * `ReaderExhaustion.LoopEnds`

  Key theorems include:
    * `PayloadReader.readParam_cases`
    * `ReaderExhaustion.exhausted_after_framing_error`
-/

namespace ObscuraProto

open Framing (Behind)

------------------------------------------------------------
-- Many Reads
------------------------------------------------------------

namespace PayloadReader

/- One `read_param<T>()` after the other, thrown or not. -/
def readEach
    (types : List ParamType)
    (r : PayloadReader) : PayloadReader :=
  types.foldl (fun r type => (r.readParam type).2) r

/-
  `while (has_more())`, try to read, after so many rounds; the
  caller catches every exception.
-/
def drain
    (types : Nat → ParamType)
    (r : PayloadReader) : Nat → PayloadReader
| 0 => r
| n + 1 =>
    let r' := r.drain types n
    if r'.hasMore then (r'.readParam (types n)).2 else r'

end PayloadReader

namespace ReaderExhaustion

/- There was not enough data for a length or a content. -/
def FramingError (e : Exception) : Prop :=
  e =
      .runtimeError
        "Invalid payload data: not enough data for parameter length." ∨
    e =
      .runtimeError
        "Invalid payload data: not enough data for parameter content."

end ReaderExhaustion

namespace PayloadReader

open ReaderExhaustion (FramingError)

------------------------------------------------------------
-- Every Type
------------------------------------------------------------

/- The read makes its value of the bytes of one field. -/
def Interprets
    {α : Type}
    (read : PayloadReader → Except Exception α × PayloadReader) :
    Prop :=
  ∃ accept : Bytes → Except Exception α,
    (∀ vec e, accept vec = .error e → ¬ FramingError e) ∧
      ∀ r,
        read r =
          (r.readParamBytes.1.bind accept,
            r.readParamBytes.2)

theorem not_framingError_mismatch :
    ¬ FramingError
      (.runtimeError
        "Invalid payload data: parameter size mismatch for the requested type.") := by
  rintro (hSame | hSame)
  · exact absurd (Exception.runtimeError.inj hSame) (by decide)
  · exact absurd (Exception.runtimeError.inj hSame) (by decide)

theorem interprets_bytes : Interprets readParamBytes := by
  refine ⟨.ok, ?_, ?_⟩
  · intro vec e hError
    cases hError
  · intro r
    cases hRead : r.readParamBytes with
    | mk result r' => cases result <;> rfl

theorem interprets_width (width : Nat) :
    Interprets (readParamWidth width) := by
  refine
    ⟨fun vec =>
        if vec.length ≠ width then
          .error (.runtimeError
            "Invalid payload data: parameter size mismatch for the requested type.")
        else
          .ok vec,
      ?_, ?_⟩
  · intro vec e hError
    simp only at hError
    split at hError
    · cases hError
      exact not_framingError_mismatch
    · cases hError
  · intro r
    unfold readParamWidth
    cases hRead : r.readParamBytes with
    | mk result r' =>
        cases result with
        | error e => rfl
        | ok vec =>
            simp only [Except.bind]
            split <;> rfl

theorem interprets_raw (n : Nat) :
    Interprets (readParamRaw n) := by
  refine
    ⟨fun vec =>
        if hSize : vec.length = n then
          .ok ⟨vec, hSize⟩
        else
          .error (.runtimeError
            "Invalid payload data: parameter size mismatch for the requested type."),
      ?_, ?_⟩
  · intro vec e hError
    simp only at hError
    split at hError
    · cases hError
    · cases hError
      exact not_framingError_mismatch
  · intro r
    unfold readParamRaw
    cases hRead : r.readParamBytes with
    | mk result r' =>
        cases result with
        | error e => rfl
        | ok vec =>
            simp only [Except.bind]
            split <;> rfl

/- So does one that goes on with the value. -/
theorem Interprets.map
    {α β : Type}
    {read : PayloadReader → Except Exception α × PayloadReader}
    (hRead : Interprets read)
    (f : α → β) :
    Interprets (fun r => ((read r).1.map f, (read r).2)) := by
  rcases hRead with ⟨accept, hErrors, hEq⟩
  refine ⟨fun vec => (accept vec).map f, ?_, ?_⟩
  · intro vec e hError
    cases hAccept : accept vec with
    | error e' =>
        simp only [hAccept] at hError
        cases hError
        exact hErrors vec e hAccept
    | ok a =>
        simp only [hAccept] at hError
        cases hError
  · intro r
    simp only [hEq r]
    cases r.readParamBytes.1 <;> rfl

theorem readParamAs_eq
    {α : Type}
    (width : Nat)
    (decode : Bytes → α)
    (r : PayloadReader) :
    r.readParamAs width decode =
      ((r.readParamWidth width).1.map decode,
        (r.readParamWidth width).2) := by
  unfold readParamAs
  cases hRead : r.readParamWidth width with
  | mk result r' => cases result <;> rfl

theorem interprets_as
    {α : Type}
    (width : Nat)
    (decode : Bytes → α) :
    Interprets (readParamAs width decode) := by
  have hEq := (interprets_width width).map decode
  simp only [← readParamAs_eq] at hEq
  exact hEq

/- Every `read_param<T>` does. -/
theorem interprets_param (type : ParamType) :
    Interprets (fun r => r.readParam type) := by
  cases type with
  | byteVector => exact interprets_bytes.map _
  | string => exact interprets_bytes.map _
  | float => exact (interprets_raw 4).map _
  | double => exact (interprets_raw 8).map _
  | uint16 => exact (interprets_as 2 ntohs).map _
  | uint32 => exact (interprets_as 4 ntohl).map _
  | _ => exact (interprets_as _ _).map _

------------------------------------------------------------
-- One Read
------------------------------------------------------------

theorem hasMore_eq_false_iff (r : PayloadReader) :
    r.hasMore = false ↔ r.remaining = [] := by
  rw [← Bool.not_eq_true, hasMore_iff, ne_eq, not_not]

/-
  A read without a complete field: it stays in front of a
  missing length and goes to the end otherwise.
-/
theorem readParamBytes_stuck
    {r : PayloadReader}
    (hShort : Framing.split 2 r.remaining = none) :
    ∃ e r',
      r.readParamBytes = (.error e, r') ∧ FramingError e ∧
        ((r.remaining.length ≤ 1 ∧ r' = r) ∨
          (2 ≤ r.remaining.length ∧ r'.remaining = [])) := by
  rcases readParamBytes_missing hShort with
    ⟨hFew, hRead⟩ | ⟨hSome, r', hEnd, hRead⟩
  · exact ⟨_, r, hRead, Or.inl rfl, Or.inl ⟨hFew, rfl⟩⟩
  · exact ⟨_, r', hRead, Or.inr rfl, Or.inr ⟨hSome, hEnd⟩⟩

/- The same for a read at any type, and the other outcome. -/
theorem readParam_cases
    (r : PayloadReader)
    (type : ParamType) :
    (∃ param rest,
        Framing.split 2 r.remaining = some (param, rest) ∧
          (r.readParam type).2.remaining = rest ∧
            ∀ e, (r.readParam type).1 = .error e →
              ¬ FramingError e) ∨
      (Framing.split 2 r.remaining = none ∧
        (∃ e, (r.readParam type).1 = .error e ∧
          FramingError e) ∧
          ((r.remaining.length ≤ 1 ∧
              (r.readParam type).2 = r) ∨
            (2 ≤ r.remaining.length ∧
              (r.readParam type).2.remaining = []))) := by
  rcases interprets_param type with ⟨accept, hErrors, hEq⟩
  simp only at hEq
  cases hSplit : Framing.split 2 r.remaining with
  | some found =>
      rcases found with ⟨param, rest⟩
      rcases readParamBytes_of_split hSplit with
        ⟨hRead, hRest⟩
      refine Or.inl ⟨param, rest, rfl, ?_, ?_⟩
      · rw [hEq, hRead]
        exact hRest
      · intro e hError
        rw [hEq, hRead] at hError
        exact hErrors param e hError
  | none =>
      rcases readParamBytes_stuck hSplit with
        ⟨e, r', hRead, hFraming, hPlace⟩
      refine Or.inr ⟨rfl, ⟨e, ?_, hFraming⟩, ?_⟩
      · rw [hEq, hRead]
        rfl
      · rw [hEq, hRead]
        exact hPlace

end PayloadReader

------------------------------------------------------------
-- Exhausted Readers
------------------------------------------------------------

namespace ReaderExhaustion

open PayloadReader

/- Nothing more is announced, and nothing can be read. -/
structure Exhausted (r : PayloadReader) : Prop where
  done : r.hasMore = false
  peek : ∃ e, r.peekNextParamSize = .error e
  read : ∀ type, ∃ e, (r.readParam type).1 = .error e

theorem exhausted_iff (r : PayloadReader) :
    Exhausted r ↔ r.remaining = [] := by
  constructor
  · intro hExhausted
    exact r.hasMore_eq_false_iff.mp hExhausted.done
  · intro hEnd
    have hLength := r.length_remaining
    rw [hEnd, List.length_nil] at hLength
    refine ⟨r.hasMore_eq_false_iff.mpr hEnd, ?_, ?_⟩
    · unfold peekNextParamSize
      rw [if_pos (by omega)]
      exact ⟨_, rfl⟩
    · intro type
      rcases r.readParam_cases type with
        ⟨_, _, hSplit, _⟩ | ⟨_, ⟨e, hError, _⟩, _⟩
      · rw [hEnd] at hSplit
        cases hSplit
      · exact ⟨e, hError⟩

/- What every read keeps holds after any number of them. -/
theorem readEach_invariant
    {P : PayloadReader → Prop}
    (hRead : ∀ r type, P r → P (r.readParam type).2)
    (types : List ParamType)
    {r : PayloadReader}
    (hStart : P r) :
    P (r.readEach types) := by
  induction types generalizing r with
  | nil => exact hStart
  | cons type types ih => exact ih (hRead r type hStart)

theorem exhausted_read
    {r : PayloadReader}
    (type : ParamType)
    (hEnd : r.remaining = []) :
    (r.readParam type).2.remaining = [] := by
  rcases r.readParam_cases type with
    ⟨_, _, hSplit, _⟩ | ⟨_, _, ⟨_, hStays⟩ | ⟨_, hDone⟩⟩
  · rw [hEnd] at hSplit
    cases hSplit
  · rw [hStays]
    exact hEnd
  · exact hDone

/- Complete fields lie behind the reader, or it is done. -/
def Placed (params : Bytes) (r : PayloadReader) : Prop :=
  Behind 2 params r.remaining ∨ r.remaining = []

/- A single byte is left behind the complete fields. -/
def LoneByte (params : Bytes) : Prop :=
  ∃ last, Behind 2 params [last]

theorem Placed.read
    {params : Bytes}
    (r : PayloadReader)
    (type : ParamType)
    (hPlaced : Placed params r) :
    Placed params (r.readParam type).2 := by
  rcases hPlaced with hBehind | hEnd
  · rcases r.readParam_cases type with
      ⟨param, rest, hSplit, hRest, _⟩ |
        ⟨_, _, ⟨_, hStays⟩ | ⟨_, hDone⟩⟩
    · apply Or.inl
      rw [hRest]
      exact hBehind.next hSplit
    · rw [hStays]
      exact Or.inl hBehind
    · exact Or.inr hDone
  · exact Or.inr (exhausted_read type hEnd)

/- A framing error elsewhere than at a lone byte exhausts. -/
theorem Placed.exhausts
    {params : Bytes}
    {r : PayloadReader}
    (hPlaced : Placed params r)
    (hNoLone : ¬ LoneByte params)
    (type : ParamType)
    (hShort : Framing.split 2 r.remaining = none) :
    (r.readParam type).2.remaining = [] := by
  rcases r.readParam_cases type with
    ⟨_, _, hSplit, _⟩ | ⟨_, _, ⟨hShort, hStays⟩ | ⟨_, hDone⟩⟩
  · rw [hShort] at hSplit
    cases hSplit
  · rw [hStays]
    rcases hPlaced with hBehind | hEnd
    · cases hLeft : r.remaining with
      | nil => rfl
      | cons last more =>
          rw [hLeft, List.length_cons] at hShort
          have hNone : more = [] :=
            List.eq_nil_of_length_eq_zero (by omega)
          rw [hLeft, hNone] at hBehind
          exact absurd ⟨last, hBehind⟩ hNoLone
    · exact hEnd
  · exact hDone

------------------------------------------------------------
-- After a Framing Error
------------------------------------------------------------

/-
  Once a read has thrown for want of data, the reader is
  exhausted, whatever is read later.
-/
def ExhaustedOnError (payload : Payload) : Prop :=
  ∀ before type later e,
    (((new payload).readEach before).readParam type).1 =
        .error e →
      FramingError e →
        Exhausted
          ((new payload).readEach (before ++ type :: later))

/- The loop of a caller who catches everything ends. -/
def LoopEnds (payload : Payload) : Prop :=
  ∀ types, ∃ n,
    ((new payload).drain types n).hasMore = false

theorem placed_new
    (payload : Payload)
    (types : List ParamType) :
    Placed payload.parameters
      ((new payload).readEach types) :=
  readEach_invariant (fun r type hPlaced => hPlaced.read r type)
    types (Or.inl (Behind.refl payload.parameters))

theorem exhausted_of_noLoneByte
    {payload : Payload}
    (hNoLone : ¬ LoneByte payload.parameters) :
    ExhaustedOnError payload := by
  intro before type later e hError hFraming
  rw [exhausted_iff, readEach, List.foldl_append,
    List.foldl_cons]
  change
    (PayloadReader.readEach later
      (((new payload).readEach before).readParam
        type).2).remaining = []
  refine
    readEach_invariant (P := fun r => r.remaining = [])
      (fun r type hEnd => exhausted_read type hEnd) later ?_
  refine
    (placed_new payload before).exhausts hNoLone type ?_
  rcases ((new payload).readEach before).readParam_cases
      type with
    ⟨_, _, _, _, hOther⟩ | ⟨hShort, _⟩
  · exact absurd hFraming (hOther e hError)
  · exact hShort

/- Every round consumes a byte or leaves nothing. -/
theorem drain_progress
    {payload : Payload}
    (hNoLone : ¬ LoneByte payload.parameters)
    (types : Nat → ParamType)
    (n : Nat) :
    let r := (new payload).drain types n
    Placed payload.parameters r ∧
      (r.remaining.length + n ≤ payload.parameters.length ∨
        r.remaining = []) := by
  induction n with
  | zero =>
      refine ⟨Or.inl (Behind.refl _), Or.inl ?_⟩
      simp [drain]
  | succ n ih =>
      rcases ih with ⟨hPlaced, hLeft⟩
      simp only [drain]
      split
      · refine ⟨hPlaced.read _ _, ?_⟩
        cases hSplit :
            Framing.split 2
              ((new payload).drain types n).remaining with
        | none =>
            exact
              Or.inr (hPlaced.exhausts hNoLone _ hSplit)
        | some found =>
            rcases readParam_cases
                ((new payload).drain types n) (types n) with
              ⟨param, rest, hFound, hRest, _⟩ | ⟨hNone, _⟩
            · apply Or.inl
              have hBytes :=
                congrArg List.length
                  (Framing.field_of_split hFound).2
              rw [List.length_append,
                Framing.length_field] at hBytes
              rw [hRest]
              rcases hLeft with hLeft | hEnd
              · omega
              · rw [hEnd] at hFound
                cases hFound
            · rw [hSplit] at hNone
              cases hNone
      · next hDone =>
        refine ⟨hPlaced, Or.inr ?_⟩
        rw [← hasMore_eq_false_iff]
        exact Bool.eq_false_iff.mpr hDone

theorem loopEnds_of_noLoneByte
    {payload : Payload}
    (hNoLone : ¬ LoneByte payload.parameters) :
    LoopEnds payload := by
  intro types
  refine ⟨payload.parameters.length + 1, ?_⟩
  rcases (drain_progress hNoLone types
      (payload.parameters.length + 1)).2 with hLeft | hEnd
  · omega
  · exact (hasMore_eq_false_iff _).mpr hEnd

------------------------------------------------------------
-- In Front of a Lone Byte
------------------------------------------------------------

/- Complete fields are read, whatever they are read as. -/
theorem readEach_fields
    {contents : List Bytes}
    {tail : Bytes}
    {r : PayloadReader}
    (hFits : ∀ content ∈ contents, Framing.Fits 2 content)
    (hRest :
      r.remaining =
        contents.flatMap (Framing.field 2) ++ tail)
    (type : ParamType) :
    (r.readEach
        (List.replicate contents.length type)).remaining =
      tail := by
  induction contents generalizing r with
  | nil => exact hRest
  | cons content contents ih =>
      rw [List.flatMap_cons, List.append_assoc] at hRest
      have hSplit :=
        Framing.split_field
          (hFits content List.mem_cons_self)
          (contents.flatMap (Framing.field 2) ++ tail)
      rw [← hRest] at hSplit
      rcases r.readParam_cases type with
        ⟨param, rest, hFound, hLater, _⟩ | ⟨hNone, _⟩
      · rw [hSplit] at hFound
        cases hFound
        exact
          ih
            (fun other hMem =>
              hFits other (List.mem_cons_of_mem _ hMem))
            hLater
      · rw [hSplit] at hNone
        cases hNone

/- A read there throws and leaves the byte where it is. -/
theorem stuck_at_loneByte
    {payload : Payload}
    (hLone : LoneByte payload.parameters) :
    ¬ ExhaustedOnError payload := by
  intro hExhausted
  rcases hLone with ⟨last, contents, hFits, hBytes⟩
  have hRest :=
    readEach_fields hFits
      (r := new payload) hBytes .byteVector
  let before :=
    List.replicate contents.length ParamType.byteVector
  rcases ((new payload).readEach before).readParam_cases
      .byteVector with
    ⟨_, _, hSplit, _⟩ |
      ⟨_, ⟨e, hError, hFraming⟩, hPlace⟩
  · rw [hRest] at hSplit
    cases hSplit
  · have hDone :=
      (exhausted_iff _).mp
        (hExhausted before .byteVector [] e hError hFraming)
    rw [readEach, List.foldl_append] at hDone
    change
      (((new payload).readEach before).readParam
        .byteVector).2.remaining = [] at hDone
    rcases hPlace with ⟨_, hStays⟩ | ⟨hLong, _⟩
    · rw [hStays, hRest] at hDone
      cases hDone
    · rw [hRest] at hLong
      simp at hLong

------------------------------------------------------------
-- The Law
------------------------------------------------------------

/-
  A framing error exhausts the reader, and loops over it end,
  unless a single byte is left behind the complete fields.
-/
theorem exhausted_after_framing_error (payload : Payload) :
    (ExhaustedOnError payload ∧ LoopEnds payload) ↔
      ¬ LoneByte payload.parameters := by
  constructor
  · rintro ⟨hExhausted, _⟩ hLone
    exact stuck_at_loneByte hLone hExhausted
  · intro hNoLone
    exact
      ⟨exhausted_of_noLoneByte hNoLone,
        loopEnds_of_noLoneByte hNoLone⟩

/- The loop never ends on parameters of one byte. -/
theorem loneByte_keeps_more :
    let payload : Payload := ⟨0x1001, [7]⟩
    (∃ e,
        ((new payload).readParam .uint32).1 = .error e ∧
          FramingError e) ∧
      ((new payload).readParam .uint32).2.hasMore = true ∧
      ¬ ExhaustedOnError payload ∧ ¬ LoopEnds payload := by
  intro payload
  have hStays (type : ParamType) :
      ((new payload).readParam type).2 = new payload := by
    cases type <;> rfl
  have hDrain (n : Nat) :
      (new payload).drain (fun _ => .uint32) n =
        new payload := by
    induction n with
    | zero => rfl
    | succ n ih =>
        simp only [drain, ih, hStays, ite_self]
  have hMore : (new payload).hasMore = true := rfl
  refine
    ⟨⟨_, rfl, Or.inl rfl⟩, ?_,
      stuck_at_loneByte ⟨7, Behind.refl _⟩, ?_⟩
  · rw [hStays]
    exact hMore
  · intro hEnds
    rcases hEnds (fun _ => .uint32) with ⟨n, hDone⟩
    rw [hDrain, hMore] at hDone
    cases hDone

end ReaderExhaustion

end ObscuraProto
