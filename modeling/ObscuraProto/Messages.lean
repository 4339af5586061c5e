import ObscuraProto.Config

/-
  The messages that the library itself puts into payloads:
  requests, responses and stream control.

  Both wrappers build and read them in the same way, so the
  builders and the reader stand here once.  `Message.parse`
  performs all reads of the branch of `on_message` that the
  operation code selects; none of them has a side effect.

  Key definitions include:
    * `requestPayload`, `responsePayload`
    * `streamStartPayload`
    * `Stream`, `Stream.writePayload`
    * `Message`, `Message.parse`

  Key theorems include:
    * `responsePayload_of_le`
    * `Message.parseResponse_of_fields`
    * `Message.parseStreamStart_of_fields`
    * `Message.parseStreamData_of_fields`
    * `Message.parseStreamId_of_field`
-/

namespace ObscuraProto

/- The default reserved codes. -/
namespace OpCode

def response : OpCode := 0xFFFF

def streamStart : OpCode := 0xFFFD

def streamData : OpCode := 0xFFFC

def streamEnd : OpCode := 0xFFFB

def streamCancel : OpCode := 0xFFFA

end OpCode

------------------------------------------------------------
-- Requests and Responses
------------------------------------------------------------

/- The request identifier stands before the parameters. -/
def requestPayload
    (requestId : UInt32)
    (payload : Payload) : Except Exception Payload :=
  match (PayloadBuilder.new 0).addParamUint32 requestId with
  | .error e => .error e
  | .ok idBuilder =>
      .ok
        { opCode := payload.opCode
          parameters :=
            idBuilder.build.parameters ++
              payload.parameters }

def responsePayload
    (oc : ReservedOpcodes)
    (requestId : UInt32)
    (payload : Payload) : Except Exception Payload :=
  match (PayloadBuilder.new oc.response).addParamUint32
      requestId with
  | .error e => .error e
  | .ok b =>
      match b.addParam payload.serialize with
      | .error e => .error e
      | .ok b => .ok b.build

/- `start_stream`; the code is sent from version 1.1 on. -/
def streamStartPayload
    (oc : ReservedOpcodes)
    (streamId : UInt32)
    (streamOpCode : Option OpCode) :
    Except Exception Payload :=
  match (PayloadBuilder.new oc.streamStart).addParamUint32
      streamId with
  | .error e => .error e
  | .ok b =>
      match streamOpCode with
      | none => .ok b.build
      | some opCode =>
          match b.addParamUint16 opCode with
          | .error e => .error e
          | .ok b => .ok b.build

/- What both wrappers make of the code of a new stream. -/
def startStreamOpCode
    (version : Option Version)
    (streamOpCode : OpCode) : Option OpCode :=
  match version with
  | none => none
  | some version =>
      if Versions.v1_1 ≤ version then
        some streamOpCode
      else
        none

@[simp] theorem requestPayload_eq
    (requestId : UInt32)
    (payload : Payload) :
    requestPayload requestId payload =
      .ok
        { opCode := payload.opCode
          parameters :=
            PayloadBuilder.field (htonl requestId) ++
              payload.parameters } := by
  simp [requestPayload, PayloadBuilder.build,
    PayloadBuilder.new]

theorem responsePayload_of_le
    (oc : ReservedOpcodes)
    (requestId : UInt32)
    {payload : Payload}
    (hSize : payload.serialize.length ≤ 65535) :
    responsePayload oc requestId payload =
      .ok
        { opCode := oc.response
          parameters :=
            PayloadBuilder.field (htonl requestId) ++
              PayloadBuilder.field payload.serialize } := by
  simp [responsePayload, PayloadBuilder.build,
    PayloadBuilder.new, PayloadBuilder.addParam_of_le _ hSize]

/- A response that is too long is not built. -/
theorem size_of_responsePayload
    {oc : ReservedOpcodes}
    {requestId : UInt32}
    {payload response : Payload}
    (hBuild :
      responsePayload oc requestId payload = .ok response) :
    payload.serialize.length ≤ 65535 := by
  by_contra hLong
  have hLonger := Nat.lt_of_not_le hLong
  simp only [responsePayload,
    PayloadBuilder.addParamUint32_eq,
    PayloadBuilder.addParam_of_lt _ hLonger] at hBuild
  cases hBuild

@[simp] theorem streamStartPayload_eq
    (oc : ReservedOpcodes)
    (streamId : UInt32)
    (streamOpCode : Option OpCode) :
    streamStartPayload oc streamId streamOpCode =
      .ok
        { opCode := oc.streamStart
          parameters :=
            PayloadBuilder.field (htonl streamId) ++
              match streamOpCode with
              | none => []
              | some opCode =>
                  PayloadBuilder.field (htons opCode) } := by
  cases streamOpCode <;>
    simp [streamStartPayload, PayloadBuilder.build,
      PayloadBuilder.new]

------------------------------------------------------------
-- Streams
------------------------------------------------------------

/- A `std::function` object of the application. -/
abbrev HandlerId := Nat

/-
  `SendFn` names the callback that the owning wrapper has
  installed; an absent handler is an empty function.
-/
structure Stream (SendFn : Type) where
  streamId : UInt32
  sendFn : SendFn
  opCode : Option OpCode
  onData : Option HandlerId := none
  onEnd : Option HandlerId := none
  onCancel : Option HandlerId := none
deriving DecidableEq

namespace Stream

variable {SendFn : Type}

/-
  What `write` passes to the send function.  `write`, `end`
  and `cancel` are noexcept: an error is logged and dropped.
-/
def writePayload
    (data : Bytes)
    (stream : Stream SendFn) : Except Exception Payload :=
  match (PayloadBuilder.new OpCode.streamData).addParamUint32
      stream.streamId with
  | .error e => .error e
  | .ok b =>
      match b.addParam data with
      | .error e => .error e
      | .ok b => .ok b.build

def endPayload
    (stream : Stream SendFn) : Except Exception Payload :=
  match (PayloadBuilder.new OpCode.streamEnd).addParamUint32
      stream.streamId with
  | .error e => .error e
  | .ok b => .ok b.build

def cancelPayload
    (stream : Stream SendFn) : Except Exception Payload :=
  match (PayloadBuilder.new OpCode.streamCancel).addParamUint32
      stream.streamId with
  | .error e => .error e
  | .ok b => .ok b.build

theorem writePayload_of_le
    (stream : Stream SendFn)
    {data : Bytes}
    (hSize : data.length ≤ 65535) :
    stream.writePayload data =
      .ok
        { opCode := OpCode.streamData
          parameters :=
            PayloadBuilder.field (htonl stream.streamId) ++
              PayloadBuilder.field data } := by
  simp [writePayload, PayloadBuilder.build,
    PayloadBuilder.new, PayloadBuilder.addParam_of_le _ hSize]

theorem size_of_writePayload
    {stream : Stream SendFn}
    {data : Bytes}
    {payload : Payload}
    (hBuild : stream.writePayload data = .ok payload) :
    data.length ≤ 65535 := by
  by_contra hLong
  have hLonger := Nat.lt_of_not_le hLong
  simp only [writePayload, PayloadBuilder.addParamUint32_eq,
    PayloadBuilder.addParam_of_lt _ hLonger] at hBuild
  cases hBuild

@[simp] theorem endPayload_eq (stream : Stream SendFn) :
    stream.endPayload =
      .ok
        { opCode := OpCode.streamEnd
          parameters :=
            PayloadBuilder.field (htonl stream.streamId) } := by
  simp [endPayload, PayloadBuilder.build, PayloadBuilder.new]

@[simp] theorem cancelPayload_eq (stream : Stream SendFn) :
    stream.cancelPayload =
      .ok
        { opCode := OpCode.streamCancel
          parameters :=
            PayloadBuilder.field (htonl stream.streamId) } := by
  simp [cancelPayload, PayloadBuilder.build,
    PayloadBuilder.new]

def setDataHandler
    (handler : Option HandlerId)
    (stream : Stream SendFn) : Stream SendFn :=
  { stream with onData := handler }

def setEndHandler
    (handler : Option HandlerId)
    (stream : Stream SendFn) : Stream SendFn :=
  { stream with onEnd := handler }

def setCancelHandler
    (handler : Option HandlerId)
    (stream : Stream SendFn) : Stream SendFn :=
  { stream with onCancel := handler }

end Stream

------------------------------------------------------------
-- Reading Messages
------------------------------------------------------------

/- What `on_message` has read from a decrypted payload. -/
inductive Message where
| response (requestId : UInt32) (payload : Payload)
| streamStart (streamId : UInt32) (opCode : Option OpCode)
| streamData (streamId : UInt32) (data : Bytes)
| streamEnd (streamId : UInt32)
| streamCancel (streamId : UInt32)
| application (payload : Payload)
deriving DecidableEq

namespace Message

def parseResponse (payload : Payload) :
    Except Exception Message :=
  match (PayloadReader.new payload).readParamUint32 with
  | (.error e, _) => .error e
  | (.ok requestId, reader) =>
      match reader.readParamBytes with
      | (.error e, _) => .error e
      | (.ok responseBytes, _) =>
          match Payload.deserialize responseBytes with
          | .error e => .error e
          | .ok inner => .ok (.response requestId inner)

def parseStreamStart (payload : Payload) :
    Except Exception Message :=
  match (PayloadReader.new payload).readParamUint32 with
  | (.error e, _) => .error e
  | (.ok streamId, reader) =>
      if reader.hasMore then
        match reader.readParamUint16 with
        | (.error e, _) => .error e
        | (.ok opCode, _) =>
            .ok (.streamStart streamId (some opCode))
      else
        .ok (.streamStart streamId none)

def parseStreamData (payload : Payload) :
    Except Exception Message :=
  match (PayloadReader.new payload).readParamUint32 with
  | (.error e, _) => .error e
  | (.ok streamId, reader) =>
      match reader.readParamBytes with
      | (.error e, _) => .error e
      | (.ok data, _) => .ok (.streamData streamId data)

def parseStreamId
    (message : UInt32 → Message)
    (payload : Payload) : Except Exception Message :=
  match (PayloadReader.new payload).readParamUint32 with
  | (.error e, _) => .error e
  | (.ok streamId, _) => .ok (message streamId)

def parse
    (oc : ReservedOpcodes)
    (payload : Payload) : Except Exception Message :=
  match oc.classify payload.opCode with
  | .response => parseResponse payload
  | .streamStart => parseStreamStart payload
  | .streamData => parseStreamData payload
  | .streamEnd => parseStreamId .streamEnd payload
  | .streamCancel => parseStreamId .streamCancel payload
  | .application => .ok (.application payload)

/- The branch of `on_message` a message was read in. -/
def kind : Message → MessageKind
| .response _ _ => .response
| .streamStart _ _ => .streamStart
| .streamData _ _ => .streamData
| .streamEnd _ => .streamEnd
| .streamCancel _ => .streamCancel
| .application _ => .application

/- The code alone decides the branch. -/
theorem kind_of_parse
    {oc : ReservedOpcodes}
    {payload : Payload}
    {message : Message}
    (hParse : parse oc payload = .ok message) :
    message.kind = oc.classify payload.opCode := by
  unfold parse at hParse
  cases hKind : oc.classify payload.opCode with
  | response =>
      simp only [hKind, parseResponse] at hParse
      split at hParse <;> try cases hParse
      split at hParse <;> try cases hParse
      split at hParse <;> cases hParse
      rfl
  | streamStart =>
      simp only [hKind, parseStreamStart] at hParse
      split at hParse <;> try cases hParse
      split at hParse <;> try cases hParse
      · split at hParse <;> cases hParse
        rfl
      · rfl
  | streamData =>
      simp only [hKind, parseStreamData] at hParse
      split at hParse <;> try cases hParse
      split at hParse <;> cases hParse
      rfl
  | streamEnd =>
      simp only [hKind, parseStreamId] at hParse
      split at hParse <;> cases hParse
      rfl
  | streamCancel =>
      simp only [hKind, parseStreamId] at hParse
      split at hParse <;> cases hParse
      rfl
  | application =>
      simp only [hKind] at hParse
      cases hParse
      rfl

------------------------------------------------------------
-- Reading What the Builders Wrote
------------------------------------------------------------

theorem parseStreamId_of_field
    (message : UInt32 → Message)
    {payload : Payload}
    {streamId : UInt32}
    (hParams :
      payload.parameters =
        PayloadBuilder.field (htonl streamId)) :
    parseStreamId message payload =
      .ok (message streamId) := by
  have hFirst :
      (PayloadReader.new payload).remaining =
        PayloadBuilder.field (htonl streamId) ++ [] := by
    simpa using hParams
  have hRead := PayloadReader.readParamUint32_field hFirst
  simp only [parseStreamId, hRead]

theorem parseStreamStart_of_fields
    {payload : Payload}
    {streamId : UInt32}
    {streamOpCode : Option OpCode}
    (hParams :
      payload.parameters =
        PayloadBuilder.field (htonl streamId) ++
          match streamOpCode with
          | none => []
          | some opCode =>
              PayloadBuilder.field (htons opCode)) :
    parseStreamStart payload =
      .ok (.streamStart streamId streamOpCode) := by
  have hRead :=
    PayloadReader.readParamUint32_field
      (r := .new payload) hParams
  have hAfter :=
    PayloadReader.remaining_advance_uint32
      (r := .new payload) hParams
  have hMore :=
    ((PayloadReader.new payload).advance 6).hasMore_iff
  rw [hAfter] at hMore
  simp only [parseStreamStart, hRead]
  cases streamOpCode with
  | none =>
      have hEmpty :
          ¬ ((PayloadReader.new payload).advance 6).hasMore =
            true := by
        rw [hMore]
        simp
      rw [if_neg hEmpty]
  | some opCode =>
      have hSecond :
          ((PayloadReader.new payload).advance 6).remaining =
            PayloadBuilder.field (htons opCode) ++ [] := by
        simpa using hAfter
      have hNext :=
        PayloadReader.readParamUint16_field hSecond
      have hNonempty :
          ((PayloadReader.new payload).advance 6).hasMore =
            true := by
        rw [hMore, ← List.length_pos_iff]
        simp
      rw [if_pos hNonempty]
      simp only [hNext]

/- Two fields: an identifier and a byte string. -/
theorem read_two_fields
    {payload : Payload}
    {n : UInt32}
    {data : Bytes}
    (hSize : data.length ≤ 65535)
    (hParams :
      payload.parameters =
        PayloadBuilder.field (htonl n) ++
          PayloadBuilder.field data) :
    (PayloadReader.new payload).readParamUint32 =
        (.ok n, (PayloadReader.new payload).advance 6) ∧
      ((PayloadReader.new payload).advance 6).readParamBytes =
        (.ok data,
          ((PayloadReader.new payload).advance 6).advance
            (data.length + 2)) := by
  have hAfter :=
    PayloadReader.remaining_advance_uint32
      (r := .new payload) hParams
  have hSecond :
      ((PayloadReader.new payload).advance 6).remaining =
        PayloadBuilder.field data ++ [] := by
    simpa using hAfter
  exact
    ⟨PayloadReader.readParamUint32_field hParams,
      PayloadReader.readParamBytes_field hSize hSecond⟩

theorem parseStreamData_of_fields
    {payload : Payload}
    {streamId : UInt32}
    {data : Bytes}
    (hSize : data.length ≤ 65535)
    (hParams :
      payload.parameters =
        PayloadBuilder.field (htonl streamId) ++
          PayloadBuilder.field data) :
    parseStreamData payload =
      .ok (.streamData streamId data) := by
  rcases read_two_fields hSize hParams with ⟨hId, hData⟩
  simp only [parseStreamData, hId, hData]

theorem parseResponse_of_fields
    {payload inner : Payload}
    {requestId : UInt32}
    (hSize : inner.serialize.length ≤ 65535)
    (hParams :
      payload.parameters =
        PayloadBuilder.field (htonl requestId) ++
          PayloadBuilder.field inner.serialize) :
    parseResponse payload =
      .ok (.response requestId inner) := by
  rcases read_two_fields hSize hParams with ⟨hId, hData⟩
  simp only [parseResponse, hId, hData,
    Payload.deserialize_serialize]

end Message

end ObscuraProto
