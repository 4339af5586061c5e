import ObscuraProto.Common

/-
  The unencrypted payload and its parameter codec.

  A payload is an operation code followed by length-prefixed
  parameters.  `PayloadBuilder` appends parameters and
  `PayloadReader` consumes them one by one; a failed read
  still moves the reader, as the source does.

  Key definitions include:
    * `Payload.serialize`, `Payload.deserialize`
    * `PayloadBuilder.addParam`
    * `PayloadReader.readParamBytes`
    * `PayloadReader.readParamUint32`
-/

namespace ObscuraProto

------------------------------------------------------------
-- Payloads
------------------------------------------------------------

abbrev OpCode := UInt16

/- Format: operation code (2 bytes), then parameters. -/
structure Payload where
  opCode : OpCode
  parameters : Bytes
deriving DecidableEq, Repr

namespace Payload

def serialize (p : Payload) : Bytes :=
  htons p.opCode ++ p.parameters

def deserialize (data : Bytes) :
    Except Exception Payload :=
  if data.length < 2 then
    .error (.runtimeError
      "Data too small to be a valid payload.")
  else
    .ok
      { opCode := ntohs (data.take 2)
        parameters := data.drop 2 }

@[simp] theorem length_serialize (p : Payload) :
    p.serialize.length = p.parameters.length + 2 := by
  simp [serialize, Nat.add_comm]

@[simp] theorem deserialize_serialize (p : Payload) :
    deserialize p.serialize = .ok p := by
  have hTake : p.serialize.take 2 = htons p.opCode := by
    simp [serialize]
  have hDrop : p.serialize.drop 2 = p.parameters := by
    simp [serialize]
  simp [deserialize, hTake, hDrop]

end Payload

------------------------------------------------------------
-- Building Parameters
------------------------------------------------------------

structure PayloadBuilder where
  payload : Payload
deriving DecidableEq, Repr

namespace PayloadBuilder

def new (opCode : OpCode) : PayloadBuilder :=
  { payload := { opCode := opCode, parameters := [] } }

/- The wire form of one parameter: its length, its bytes. -/
def field (param : Bytes) : Bytes :=
  htons (UInt16.ofNat param.length) ++ param

@[simp] theorem length_field (param : Bytes) :
    (field param).length = param.length + 2 := by
  simp [field, Nat.add_comm]

/- `add_param(const byte_vector&)`. -/
def addParam
    (param : Bytes)
    (b : PayloadBuilder) :
    Except Exception PayloadBuilder :=
  if param.length > 65535 then
    .error (.runtimeError
      "Parameter size exceeds maximum of 65535 bytes.")
  else
    .ok
      { payload :=
          { b.payload with
            parameters :=
              b.payload.parameters ++ field param } }

/- `add_param(uint16_t)`. -/
def addParamUint16
    (param : UInt16)
    (b : PayloadBuilder) :
    Except Exception PayloadBuilder :=
  b.addParam (htons param)

/- `add_param(uint32_t)`. -/
def addParamUint32
    (param : UInt32)
    (b : PayloadBuilder) :
    Except Exception PayloadBuilder :=
  b.addParam (htonl param)

def build (b : PayloadBuilder) : Payload :=
  b.payload

/- A parameter of at most 65535 bytes is appended. -/
theorem addParam_of_le
    {param : Bytes}
    (b : PayloadBuilder)
    (hSize : param.length ≤ 65535) :
    b.addParam param =
      .ok
        { payload :=
            { b.payload with
              parameters :=
                b.payload.parameters ++ field param } } := by
  rw [addParam, if_neg (Nat.not_lt.mpr hSize)]

/- A longer one is refused. -/
theorem addParam_of_lt
    {param : Bytes}
    (b : PayloadBuilder)
    (hSize : 65535 < param.length) :
    b.addParam param =
      .error (.runtimeError
        "Parameter size exceeds maximum of 65535 bytes.") := by
  rw [addParam, if_pos hSize]

@[simp] theorem addParamUint16_eq
    (param : UInt16)
    (b : PayloadBuilder) :
    b.addParamUint16 param =
      .ok
        { payload :=
            { b.payload with
              parameters :=
                b.payload.parameters ++
                  field (htons param) } } :=
  addParam_of_le b (by simp)

@[simp] theorem addParamUint32_eq
    (param : UInt32)
    (b : PayloadBuilder) :
    b.addParamUint32 param =
      .ok
        { payload :=
            { b.payload with
              parameters :=
                b.payload.parameters ++
                  field (htonl param) } } :=
  addParam_of_le b (by simp)

end PayloadBuilder

------------------------------------------------------------
-- Reading Parameters
------------------------------------------------------------

structure PayloadReader where
  paramsData : Bytes
  offset : Nat
deriving DecidableEq, Repr

namespace PayloadReader

def new (payload : Payload) : PayloadReader :=
  { paramsData := payload.parameters, offset := 0 }

def hasMore (r : PayloadReader) : Bool :=
  r.offset < r.paramsData.length

def peekNextParamSize (r : PayloadReader) :
    Except Exception Nat :=
  if r.offset + 2 > r.paramsData.length then
    .error (.runtimeError
      "Invalid payload data: not enough data to read parameter length.")
  else
    .ok (ntohs (slice r.paramsData r.offset 2)).toNat

/-
  `read_param_bytes`: a missing length leaves the offset in
  place, a missing content exhausts the reader.
-/
def readParamBytes (r : PayloadReader) :
    Except Exception Bytes × PayloadReader :=
  if r.offset + 2 > r.paramsData.length then
    (.error (.runtimeError
      "Invalid payload data: not enough data for parameter length."),
      r)
  else
    let len := (ntohs (slice r.paramsData r.offset 2)).toNat
    let offset := r.offset + 2
    if offset + len > r.paramsData.length then
      (.error (.runtimeError
        "Invalid payload data: not enough data for parameter content."),
        { r with offset := r.paramsData.length })
    else
      (.ok (slice r.paramsData offset len),
        { r with offset := offset + len })

/- `read_param<T>` for an arithmetic `T` of `width` bytes. -/
def readParamWidth
    (width : Nat)
    (r : PayloadReader) :
    Except Exception Bytes × PayloadReader :=
  match r.readParamBytes with
  | (.error e, r) => (.error e, r)
  | (.ok vec, r) =>
      if vec.length ≠ width then
        (.error (.runtimeError
          "Invalid payload data: parameter size mismatch for the requested type."),
          r)
      else
        (.ok vec, r)

/- `read_param<uint16_t>`. -/
def readParamUint16 (r : PayloadReader) :
    Except Exception UInt16 × PayloadReader :=
  match r.readParamWidth 2 with
  | (.error e, r) => (.error e, r)
  | (.ok vec, r) => (.ok (ntohs vec), r)

/- `read_param<uint32_t>`. -/
def readParamUint32 (r : PayloadReader) :
    Except Exception UInt32 × PayloadReader :=
  match r.readParamWidth 4 with
  | (.error e, r) => (.error e, r)
  | (.ok vec, r) => (.ok (ntohl vec), r)

------------------------------------------------------------
-- Reading What the Builder Wrote
------------------------------------------------------------

/- The bytes that have not been consumed yet. -/
def remaining (r : PayloadReader) : Bytes :=
  r.paramsData.drop r.offset

/- Move the reader behind the next `n` bytes. -/
def advance (r : PayloadReader) (n : Nat) : PayloadReader :=
  { r with offset := r.offset + n }

@[simp] theorem remaining_new (payload : Payload) :
    (new payload).remaining = payload.parameters := rfl

@[simp] theorem remaining_advance
    (r : PayloadReader)
    (n : Nat) :
    (r.advance n).remaining = r.remaining.drop n := by
  simp [remaining, advance, List.drop_drop]

theorem length_remaining (r : PayloadReader) :
    r.remaining.length = r.paramsData.length - r.offset := by
  simp [remaining]

theorem hasMore_iff (r : PayloadReader) :
    r.hasMore = true ↔ r.remaining ≠ [] := by
  rw [hasMore, decide_eq_true_iff,
    ← List.length_pos_iff, length_remaining]
  omega

/-
  A reader that stands in front of a field returns the
  field's bytes and stands behind it afterwards.
-/
theorem readParamBytes_field
    {r : PayloadReader}
    {param rest : Bytes}
    (hSize : param.length ≤ 65535)
    (hRest :
      r.remaining = PayloadBuilder.field param ++ rest) :
    r.readParamBytes =
      (.ok param, r.advance (param.length + 2)) := by
  have hLen :
      (UInt16.ofNat param.length).toNat = param.length := by
    rw [UInt16.toNat_ofNat']
    omega
  have hTotal := r.length_remaining
  rw [hRest] at hTotal
  simp [PayloadBuilder.field] at hTotal
  have hHead :
      slice r.paramsData r.offset 2 =
        htons (UInt16.ofNat param.length) := by
    change r.remaining.take 2 = _
    simp [hRest, PayloadBuilder.field]
  have hBody :
      slice r.paramsData (r.offset + 2) param.length =
        param := by
    rw [slice, ← List.drop_drop]
    change (r.remaining.drop 2).take param.length = param
    simp [hRest, PayloadBuilder.field]
  have hLenFits :
      ¬ r.offset + 2 > r.paramsData.length := by
    omega
  have hContentFits :
      ¬ r.offset + 2 + param.length >
        r.paramsData.length := by
    omega
  simp only [readParamBytes, hLenFits, if_false, hHead,
    ntohs_htons, hLen, hContentFits, hBody]
  rw [advance, Nat.add_assoc, Nat.add_comm 2]

/- An integer field of four bytes is read back. -/
theorem readParamUint32_field
    {r : PayloadReader}
    {n : UInt32}
    {rest : Bytes}
    (hRest :
      r.remaining =
        PayloadBuilder.field (htonl n) ++ rest) :
    r.readParamUint32 = (.ok n, r.advance 6) := by
  have hRead :=
    readParamBytes_field (by simp) hRest
  simp [readParamUint32, readParamWidth, hRead]

/- What stands behind an integer field of four bytes. -/
theorem remaining_advance_uint32
    {r : PayloadReader}
    {n : UInt32}
    {rest : Bytes}
    (hRest :
      r.remaining =
        PayloadBuilder.field (htonl n) ++ rest) :
    (r.advance 6).remaining = rest := by
  have hLength :
      (PayloadBuilder.field (htonl n)).length = 6 := by
    simp
  rw [remaining_advance, hRest, ← hLength, List.drop_left]

/- An integer field of two bytes is read back. -/
theorem readParamUint16_field
    {r : PayloadReader}
    {n : UInt16}
    {rest : Bytes}
    (hRest :
      r.remaining =
        PayloadBuilder.field (htons n) ++ rest) :
    r.readParamUint16 = (.ok n, r.advance 4) := by
  have hRead :=
    readParamBytes_field (by simp) hRest
  simp [readParamUint16, readParamWidth, hRead]

end PayloadReader

end ObscuraProto
