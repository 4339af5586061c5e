import ObscuraProto.ByteOrder
import ObscuraProto.Packet

/-
  The parameter types of the builder and the reader.

  Every overload of `add_param` turns its argument into the
  bytes of one field, and `read_param<T>` turns the bytes of
  the next field back.  A `std::string` is a byte string, and
  a floating point number is its object representation.

  Key definitions include:
    * `Param`, `ParamType`, `Param.bytes`
    * `PayloadBuilder.addTyped`
    * `PayloadReader.readParam`

  Key theorems include:
    * `PayloadBuilder.addTyped_eq`
    * `PayloadReader.readParam_field`
    * `TypedParams.params_round_trip`
-/

namespace ObscuraProto

------------------------------------------------------------
-- Values
------------------------------------------------------------

/- The object representation of a `float` or `double`. -/
structure Raw (n : Nat) where
  data : Bytes
  size : data.length = n
deriving DecidableEq

inductive ParamType where
| byteVector | string | bool
| int8 | uint8 | int16 | uint16
| int32 | uint32 | int64 | uint64
| float | double
deriving DecidableEq

inductive Param where
| byteVector (value : Bytes)
| string (value : Bytes)
| bool (value : Bool)
| int8 (value : Int8)
| uint8 (value : UInt8)
| int16 (value : Int16)
| uint16 (value : UInt16)
| int32 (value : Int32)
| uint32 (value : UInt32)
| int64 (value : Int64)
| uint64 (value : UInt64)
| float (value : Raw 4)
| double (value : Raw 8)
deriving DecidableEq

def Param.type : Param → ParamType
| .byteVector _ => .byteVector
| .string _ => .string
| .bool _ => .bool
| .int8 _ => .int8
| .uint8 _ => .uint8
| .int16 _ => .int16
| .uint16 _ => .uint16
| .int32 _ => .int32
| .uint32 _ => .uint32
| .int64 _ => .int64
| .uint64 _ => .uint64
| .float _ => .float
| .double _ => .double

------------------------------------------------------------
-- The Overloads of add_param
------------------------------------------------------------

namespace PayloadBuilder

/-
  `add_param(const byte_vector&)` on the builder in place: an
  exception is thrown before anything is inserted.
-/
def addParamInPlace
    (param : Bytes)
    (b : PayloadBuilder) :
    Except Exception Unit × PayloadBuilder :=
  if param.length > 65535 then
    (.error (.runtimeError
      "Parameter size exceeds maximum of 65535 bytes."), b)
  else
    (.ok (),
      { payload :=
          { b.payload with
            parameters :=
              b.payload.parameters ++ field param } })

def addParamString
    (param : Bytes)
    (b : PayloadBuilder) :
    Except Exception PayloadBuilder :=
  b.addParam param

def addParamUint8
    (param : UInt8)
    (b : PayloadBuilder) :
    Except Exception PayloadBuilder :=
  b.addParam [param]

def addParamBool
    (param : Bool)
    (b : PayloadBuilder) :
    Except Exception PayloadBuilder :=
  b.addParamUint8 (if param then 1 else 0)

def addParamInt8
    (param : Int8)
    (b : PayloadBuilder) :
    Except Exception PayloadBuilder :=
  b.addParam [param.toUInt8]

/- `htons` takes the bits of the signed value. -/
def addParamInt16
    (param : Int16)
    (b : PayloadBuilder) :
    Except Exception PayloadBuilder :=
  b.addParam (htons param.toUInt16)

def addParamInt32
    (param : Int32)
    (b : PayloadBuilder) :
    Except Exception PayloadBuilder :=
  b.addParam (htonl param.toUInt32)

def addParamInt64
    (param : Int64)
    (b : PayloadBuilder) :
    Except Exception PayloadBuilder :=
  b.addParam (htonllLocal param.toUInt64)

def addParamUint64
    (param : UInt64)
    (b : PayloadBuilder) :
    Except Exception PayloadBuilder :=
  b.addParam (htonllLocal param)

/- `float` and `double` are copied as they are. -/
def addParamRaw
    {n : Nat}
    (param : Raw n)
    (b : PayloadBuilder) :
    Except Exception PayloadBuilder :=
  b.addParam param.data

/- The overload that the type of the value selects. -/
def addTyped :
    Param → PayloadBuilder → Except Exception PayloadBuilder
| .byteVector value => addParam value
| .string value => addParamString value
| .bool value => addParamBool value
| .int8 value => addParamInt8 value
| .uint8 value => addParamUint8 value
| .int16 value => addParamInt16 value
| .uint16 value => addParamUint16 value
| .int32 value => addParamInt32 value
| .uint32 value => addParamUint32 value
| .int64 value => addParamInt64 value
| .uint64 value => addParamUint64 value
| .float value => addParamRaw value
| .double value => addParamRaw value

end PayloadBuilder

------------------------------------------------------------
-- The Types of read_param
------------------------------------------------------------

namespace PayloadReader

/- `read_param<T>` with what it makes of the bytes of `T`. -/
def readParamAs
    {α : Type}
    (width : Nat)
    (decode : Bytes → α)
    (r : PayloadReader) :
    Except Exception α × PayloadReader :=
  match r.readParamWidth width with
  | (.error e, r) => (.error e, r)
  | (.ok vec, r) => (.ok (decode vec), r)

/- `read_param<std::string>` takes any bytes. -/
def readParamString (r : PayloadReader) :
    Except Exception Bytes × PayloadReader :=
  r.readParamBytes

def readParamUint8 :
    PayloadReader → Except Exception UInt8 × PayloadReader :=
  readParamAs 1 (fun vec => vec.getD 0 0)

/- Only 0 and 1 are written; other bytes count as true. -/
def readParamBool :
    PayloadReader → Except Exception Bool × PayloadReader :=
  readParamAs 1 (fun vec => vec.getD 0 0 != 0)

def readParamInt8 :
    PayloadReader → Except Exception Int8 × PayloadReader :=
  readParamAs 1 (fun vec => (vec.getD 0 0).toInt8)

def readParamInt16 :
    PayloadReader → Except Exception Int16 × PayloadReader :=
  readParamAs 2 (fun vec => (ntohs vec).toInt16)

def readParamInt32 :
    PayloadReader → Except Exception Int32 × PayloadReader :=
  readParamAs 4 (fun vec => (ntohl vec).toInt32)

def readParamInt64 :
    PayloadReader → Except Exception Int64 × PayloadReader :=
  readParamAs 8 (fun vec => (ntohllLocal vec).toInt64)

def readParamUint64 :
    PayloadReader → Except Exception UInt64 × PayloadReader :=
  readParamAs 8 ntohllLocal

/- `read_param<float>` and `read_param<double>`. -/
def readParamRaw
    (n : Nat)
    (r : PayloadReader) :
    Except Exception (Raw n) × PayloadReader :=
  match r.readParamBytes with
  | (.error e, r) => (.error e, r)
  | (.ok vec, r) =>
      if hSize : vec.length = n then
        (.ok ⟨vec, hSize⟩, r)
      else
        (.error (.runtimeError
          "Invalid payload data: parameter size mismatch for the requested type."),
          r)

/- The result as a value of its type. -/
def asParam
    {α : Type}
    (make : α → Param)
    (read : Except Exception α × PayloadReader) :
    Except Exception Param × PayloadReader :=
  (read.1.map make, read.2)

/- `read_param<T>` for every type. -/
def readParam (r : PayloadReader) :
    ParamType → Except Exception Param × PayloadReader
| .byteVector => asParam .byteVector r.readParamBytes
| .string => asParam .string r.readParamString
| .bool => asParam .bool r.readParamBool
| .int8 => asParam .int8 r.readParamInt8
| .uint8 => asParam .uint8 r.readParamUint8
| .int16 => asParam .int16 r.readParamInt16
| .uint16 => asParam .uint16 r.readParamUint16
| .int32 => asParam .int32 r.readParamInt32
| .uint32 => asParam .uint32 r.readParamUint32
| .int64 => asParam .int64 r.readParamInt64
| .uint64 => asParam .uint64 r.readParamUint64
| .float => asParam .float (r.readParamRaw 4)
| .double => asParam .double (r.readParamRaw 8)

end PayloadReader

------------------------------------------------------------
-- The Bytes of a Value
------------------------------------------------------------

/- What stands in the field of a value. -/
def Param.bytes : Param → Bytes
| .byteVector value => value
| .string value => value
| .bool value => [if value then 1 else 0]
| .int8 value => [value.toUInt8]
| .uint8 value => [value]
| .int16 value => htons value.toUInt16
| .uint16 value => htons value
| .int32 value => htonl value.toUInt32
| .uint32 value => htonl value
| .int64 value => htonllLocal value.toUInt64
| .uint64 value => htonllLocal value
| .float value => value.data
| .double value => value.data

/- `sizeof(T)` of the types that have a fixed width. -/
def ParamType.width? : ParamType → Option Nat
| .byteVector | .string => none
| .bool | .int8 | .uint8 => some 1
| .int16 | .uint16 => some 2
| .int32 | .uint32 | .float => some 4
| .int64 | .uint64 | .double => some 8

/- Strings and byte vectors have to fit a field. -/
def Param.Fits (p : Param) : Prop :=
  p.bytes.length ≤ 65535

instance (p : Param) : Decidable p.Fits :=
  inferInstanceAs (Decidable (p.bytes.length ≤ 65535))

/- Values of the other types have the width of their type. -/
theorem Param.length_bytes
    {p : Param}
    {width : Nat}
    (hWidth : p.type.width? = some width) :
    p.bytes.length = width := by
  cases p with
  | byteVector value => cases hWidth
  | string value => cases hWidth
  | float value =>
      cases hWidth
      exact value.size
  | double value =>
      cases hWidth
      exact value.size
  | _ =>
      cases hWidth
      simp [Param.bytes]

/- The builder in place is the builder that is returned. -/
theorem PayloadBuilder.addParam_eq_inPlace
    (param : Bytes)
    (b : PayloadBuilder) :
    b.addParam param =
      (b.addParamInPlace param).1.map
        (fun _ => (b.addParamInPlace param).2) := by
  unfold addParam addParamInPlace
  split <;> rfl

theorem PayloadBuilder.addTyped_eq
    (p : Param)
    (b : PayloadBuilder) :
    b.addTyped p = b.addParam p.bytes := by
  cases p <;> rfl

namespace PayloadReader

theorem readParamAs_field
    {α : Type}
    {decode : Bytes → α}
    {r : PayloadReader}
    {param rest : Bytes}
    (hSize : param.length ≤ 65535)
    (hRest :
      r.remaining = PayloadBuilder.field param ++ rest) :
    r.readParamAs param.length decode =
      (.ok (decode param), r.advance (param.length + 2)) := by
  rw [readParamAs, readParamWidth,
    readParamBytes_field hSize hRest]
  simp

theorem readParamRaw_field
    {n : Nat}
    {value : Raw n}
    {r : PayloadReader}
    {rest : Bytes}
    (hSize : value.data.length ≤ 65535)
    (hRest :
      r.remaining =
        PayloadBuilder.field value.data ++ rest) :
    r.readParamRaw n =
      (.ok value, r.advance (value.data.length + 2)) := by
  rw [readParamRaw, readParamBytes_field hSize hRest]
  simp [value.size]

/- The field of a value is read back at its type. -/
theorem readParam_field
    {p : Param}
    {r : PayloadReader}
    {rest : Bytes}
    (hFits : p.Fits)
    (hRest :
      r.remaining = PayloadBuilder.field p.bytes ++ rest) :
    r.readParam p.type =
      (.ok p, r.advance (p.bytes.length + 2)) := by
  have hAs
      {α : Type}
      (decode : Bytes → α)
      {width : Nat}
      (hWidth : p.type.width? = some width) :
      r.readParamAs width decode =
        (.ok (decode p.bytes),
          r.advance (p.bytes.length + 2)) := by
    rw [← Param.length_bytes hWidth]
    exact readParamAs_field hFits hRest
  cases p with
  | byteVector value =>
      have hRead := readParamBytes_field hFits hRest
      simp only [readParam, Param.type, asParam]
      rw [hRead]
      rfl
  | string value =>
      have hRead := readParamBytes_field hFits hRest
      simp only [readParam, Param.type, asParam,
        readParamString]
      rw [hRead]
      rfl
  | bool value =>
      have hRead := hAs (fun vec => vec.getD 0 0 != 0) rfl
      simp only [readParam, Param.type, asParam,
        readParamBool, hRead]
      cases value <;> rfl
  | int8 value =>
      have hRead := hAs (fun vec => (vec.getD 0 0).toInt8) rfl
      simp only [readParam, Param.type, asParam,
        readParamInt8, hRead]
      rfl
  | uint8 value =>
      have hRead := hAs (fun vec => vec.getD 0 0) rfl
      simp only [readParam, Param.type, asParam,
        readParamUint8, hRead]
      rfl
  | int16 value =>
      have hRead := hAs (fun vec => (ntohs vec).toInt16) rfl
      simp [readParam, Param.type, asParam, readParamInt16,
        hRead, Param.bytes, Except.map]
  | uint16 value =>
      have hRead := readParamUint16_field hRest
      simp [readParam, Param.type, asParam, hRead,
        Param.bytes, Except.map]
  | int32 value =>
      have hRead := hAs (fun vec => (ntohl vec).toInt32) rfl
      simp [readParam, Param.type, asParam, readParamInt32,
        hRead, Param.bytes, Except.map]
  | uint32 value =>
      have hRead := readParamUint32_field hRest
      simp [readParam, Param.type, asParam, hRead,
        Param.bytes, Except.map]
  | int64 value =>
      have hRead :=
        hAs (fun vec => (ntohllLocal vec).toInt64) rfl
      simp [readParam, Param.type, asParam, readParamInt64,
        hRead, Param.bytes, Except.map]
  | uint64 value =>
      have hRead := hAs ntohllLocal rfl
      simp [readParam, Param.type, asParam, readParamUint64,
        hRead, Param.bytes, Except.map]
  | float value =>
      have hRead := readParamRaw_field hFits hRest
      simp only [readParam, Param.type, asParam]
      rw [hRead]
      rfl
  | double value =>
      have hRead := readParamRaw_field hFits hRest
      simp only [readParam, Param.type, asParam]
      rw [hRead]
      rfl

/- The size in front of a field is the length of the field. -/
theorem peekNextParamSize_field
    {r : PayloadReader}
    {param rest : Bytes}
    (hSize : param.length ≤ 65535)
    (hRest :
      r.remaining = PayloadBuilder.field param ++ rest) :
    r.peekNextParamSize = .ok param.length := by
  have hLen :
      (UInt16.ofNat param.length).toNat = param.length := by
    rw [UInt16.toNat_ofNat']
    omega
  have hTotal := r.length_remaining
  rw [hRest, List.length_append,
    PayloadBuilder.length_field] at hTotal
  have hFits : ¬ r.offset + 2 > r.paramsData.length := by
    omega
  have hHead :
      slice r.paramsData r.offset 2 =
        htons (UInt16.ofNat param.length) := by
    change r.remaining.take 2 = _
    simp [hRest, PayloadBuilder.field]
  simp only [peekNextParamSize, hFits, if_false, hHead,
    ntohs_htons, hLen]

theorem hasMore_field
    {r : PayloadReader}
    {param rest : Bytes}
    (hRest :
      r.remaining = PayloadBuilder.field param ++ rest) :
    r.hasMore = true := by
  rw [hasMore_iff, hRest]
  intro hEmpty
  have hLength := congrArg List.length hEmpty
  simp at hLength

/- What stands behind a field that has been read. -/
theorem remaining_advance_field
    {r : PayloadReader}
    {param rest : Bytes}
    (hRest :
      r.remaining = PayloadBuilder.field param ++ rest) :
    (r.advance (param.length + 2)).remaining = rest := by
  rw [remaining_advance, hRest,
    ← PayloadBuilder.length_field param, List.drop_left]

end PayloadReader

------------------------------------------------------------
-- Lists of Values
------------------------------------------------------------

namespace TypedParams

/- `add_param` for every value, in order. -/
def addAll :
    List Param → PayloadBuilder →
      Except Exception PayloadBuilder
| [], b => .ok b
| p :: ps, b =>
    match b.addTyped p with
    | .error e => .error e
    | .ok b => addAll ps b

/-
  The reader yields these values and ends behind them; in
  front of each it has more and announces the right size.
-/
def Yields : List Param → PayloadReader → Prop
| [], r => r.hasMore = false
| p :: ps, r =>
    r.hasMore = true ∧
      r.peekNextParamSize = .ok p.bytes.length ∧
      (r.readParam p.type).1 = .ok p ∧
      Yields ps (r.readParam p.type).2

/- The fields that are appended. -/
theorem addAll_of_fits
    (ps : List Param)
    (b : PayloadBuilder)
    (hFits : ∀ p ∈ ps, p.Fits) :
    addAll ps b =
      .ok
        { payload :=
            { b.payload with
              parameters :=
                b.payload.parameters ++
                  ps.flatMap (fun p =>
                    PayloadBuilder.field p.bytes) } } := by
  induction ps generalizing b with
  | nil => simp [addAll]
  | cons p ps ih =>
      have hFirst := hFits p List.mem_cons_self
      have hLater (q : Param) (hMem : q ∈ ps) : q.Fits :=
        hFits q (List.mem_cons_of_mem p hMem)
      simp only [addAll, PayloadBuilder.addTyped_eq,
        PayloadBuilder.addParam_of_le b hFirst, ih _ hLater,
        List.flatMap_cons, List.append_assoc]

theorem yields_of_remaining
    (ps : List Param)
    (r : PayloadReader)
    (hFits : ∀ p ∈ ps, p.Fits)
    (hRest :
      r.remaining =
        ps.flatMap (fun p => PayloadBuilder.field p.bytes)) :
    Yields ps r := by
  induction ps generalizing r with
  | nil =>
      rw [Yields, Bool.eq_false_iff]
      intro hMore
      exact r.hasMore_iff.mp hMore hRest
  | cons p ps ih =>
      have hFirst := hFits p List.mem_cons_self
      have hLater (q : Param) (hMem : q ∈ ps) : q.Fits :=
        hFits q (List.mem_cons_of_mem p hMem)
      rw [List.flatMap_cons] at hRest
      have hRead := PayloadReader.readParam_field hFirst hRest
      refine
        ⟨PayloadReader.hasMore_field hRest,
          PayloadReader.peekNextParamSize_field hFirst hRest,
          ?_, ?_⟩
      · rw [hRead]
      · rw [hRead]
        exact
          ih _ hLater
            (PayloadReader.remaining_advance_field hRest)

/-
  Values that fit their fields are read back as they were
  added, through the bytes of the payload.  A longer string
  or byte vector is refused and the builder left as it was,
  also when `addParam` writes into the builder itself.
-/
theorem params_round_trip :
    (∀ (opCode : OpCode) (ps : List Param),
        (∀ p ∈ ps, p.Fits) →
          ∃ b payload,
            addAll ps (.new opCode) = .ok b ∧
              Payload.deserialize b.build.serialize =
                .ok payload ∧
              payload.opCode = opCode ∧
              Yields ps (.new payload)) ∧
      (∀ (value : Bytes) (b : PayloadBuilder),
        b.addParam value =
          (b.addParamInPlace value).1.map
            (fun _ => (b.addParamInPlace value).2)) ∧
      ∀ (value : Bytes) (b : PayloadBuilder),
        65535 < value.length →
          (∃ e, b.addTyped (.byteVector value) = .error e) ∧
            (∃ e, b.addTyped (.string value) = .error e) ∧
              ∃ e, b.addParamInPlace value = (.error e, b) := by
  refine ⟨?_, fun value b => b.addParam_eq_inPlace value, ?_⟩
  · intro opCode ps hFits
    refine
      ⟨_, _, addAll_of_fits ps _ hFits,
        Payload.deserialize_serialize _, rfl, ?_⟩
    exact yields_of_remaining ps _ hFits rfl
  · intro value b hLong
    have hRefused := PayloadBuilder.addParam_of_lt b hLong
    exact
      ⟨⟨_, hRefused⟩, ⟨_, hRefused⟩, ⟨_, if_pos hLong⟩⟩

theorem params_round_trip_sample :
    (∃ b payload,
        addAll
            [.uint16 0x1234, .int64 (-2), .bool true,
              .string [104, 105], .float ⟨[0, 0, 128, 63], rfl⟩]
            (.new 0x1001) =
          .ok b ∧
          Payload.deserialize b.build.serialize =
            .ok payload ∧
          payload.opCode = 0x1001 ∧
          Yields
            [.uint16 0x1234, .int64 (-2), .bool true,
              .string [104, 105], .float ⟨[0, 0, 128, 63], rfl⟩]
            (.new payload)) ∧
      ∃ e,
        (PayloadBuilder.new 0).addParamInPlace
            (List.replicate 65536 0) =
          (.error e, .new 0) := by
  constructor
  · exact params_round_trip.1 _ _ (by decide)
  · have hRefused :=
      params_round_trip.2.2 (List.replicate 65536 0) (.new 0)
        (by rw [List.length_replicate]; decide)
    exact hRefused.2.2

end TypedParams

end ObscuraProto
