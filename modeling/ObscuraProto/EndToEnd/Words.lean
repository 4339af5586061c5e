import ObscuraProto.Library.Dialogue
import ObscuraProto.OpcodeAgreement
import ObscuraProto.SizeLimits

/-
  What the payloads of an established connection mean.

  A payload stands for a request, a response, the start of a
  stream, something on a stream, or for itself.  What one end
  builds for these words, the other end reads as the same
  words, if the reserved codes are apart.

  Key definitions include:
    * `StreamItem`, `Words`
    * `EndToEnd.Means`, `EndToEnd.Carries`

  Key theorems include:
    * `EndToEnd.Means.parse`
    * `EndToEnd.read_request`
-/

namespace ObscuraProto

/- What `write` and `end` put on a stream. -/
inductive StreamItem where
| data (chunk : Bytes)
| finish
deriving DecidableEq, Repr

/- Requests and streams are named by their numbers. -/
abbrev Words : Type :=
  Dialogue.Speech UInt32 Payload UInt32 (Option OpCode)
    StreamItem

namespace EndToEnd

/- A payload that fits is not refused by its receiver. -/
theorem fits_of_length
    {cfg : Config}
    {payload : Payload}
    (hFits : ¬ cfg.ExceedsLimit payload.parameters.length) :
    cfg.payloadTooLarge payload = false := by
  rw [← Bool.not_eq_true]
  intro hLarge
  exact hFits (Config.payloadTooLarge_iff.mp hLarge)

/-
  The payload that is sent for the words.  A request is for a
  code that has a request handler, all else is not.
-/
inductive Means
    (oc : ReservedOpcodes)
    (handlers : HandlerTable) : Words → Payload → Prop
| request
    (id : UInt32)
    {payload : Payload}
    {handler : HandlerId} :
    oc.classify payload.opCode = .application →
      handlers[payload.opCode]? = some (some handler) →
        Means oc handlers (.request id payload)
          { opCode := payload.opCode
            parameters :=
              PayloadBuilder.field (htonl id) ++
                payload.parameters }
| reply
    (id : UInt32)
    {answer : Payload} :
    answer.serialize.length ≤ 65535 →
      Means oc handlers (.reply id answer)
        { opCode := oc.response
          parameters :=
            PayloadBuilder.field (htonl id) ++
              PayloadBuilder.field answer.serialize }
| opening (streamId : UInt32) (opCode : Option OpCode) :
    Means oc handlers (.opening streamId opCode)
      { opCode := oc.streamStart
        parameters :=
          PayloadBuilder.field (htonl streamId) ++
            match opCode with
            | none => []
            | some opCode =>
                PayloadBuilder.field (htons opCode) }
| data
    (streamId : UInt32)
    {chunk : Bytes} :
    chunk.length ≤ 65535 →
      oc.streamData = OpCode.streamData →
        Means oc handlers (.item streamId (.data chunk))
          { opCode := OpCode.streamData
            parameters :=
              PayloadBuilder.field (htonl streamId) ++
                PayloadBuilder.field chunk }
| finish (streamId : UInt32) :
    oc.streamEnd = OpCode.streamEnd →
      Means oc handlers (.item streamId .finish)
        { opCode := OpCode.streamEnd
          parameters := PayloadBuilder.field (htonl streamId) }
| plain
    {payload : Payload} :
    oc.classify payload.opCode = .application →
      handlers[payload.opCode]? = none →
        Means oc handlers (.plain payload) payload

/- And it is within the limit of both ends. -/
structure Carries
    (cfg : Config)
    (handlers : HandlerTable)
    (words : Words)
    (payload : Payload) : Prop where
  means : Means cfg.opcodes handlers words payload
  fits : cfg.payloadTooLarge payload = false

/- What the receiver reads. -/
def asMessage (payload : Payload) : Words → Message
| .request _ _ => .application payload
| .reply id answer => .response id answer
| .opening streamId opCode => .streamStart streamId opCode
| .item streamId (.data chunk) => .streamData streamId chunk
| .item streamId .finish => .streamEnd streamId
| .plain _ => .application payload

variable {oc : ReservedOpcodes}
variable {handlers : HandlerTable}

theorem Means.parse
    {words : Words}
    {payload : Payload}
    (hDistinct : oc.Distinct)
    (hMeans : Means oc handlers words payload) :
    Message.parse oc payload = .ok (asMessage payload words) := by
  have hApart := hDistinct
  simp only [ReservedOpcodes.Distinct, List.nodup_cons,
    List.mem_cons, List.not_mem_nil, or_false, not_or]
    at hApart
  rcases hApart with
    ⟨⟨hStart, hData, hEnd, _⟩, ⟨hStartData, hStartEnd, _⟩,
      ⟨hDataEnd, _⟩, _⟩
  cases hMeans with
  | request id hKind hHandler =>
      simp only [Message.parse, hKind]
      rfl
  | reply id hSize =>
      have hKind : oc.classify oc.response = .response := by
        simp [ReservedOpcodes.classify]
      simp only [Message.parse, hKind]
      exact Message.parseResponse_of_fields hSize rfl
  | opening streamId opCode =>
      have hKind :
          oc.classify oc.streamStart = .streamStart := by
        simp [ReservedOpcodes.classify, Ne.symm hStart]
      simp only [Message.parse, hKind]
      exact Message.parseStreamStart_of_fields rfl
  | data streamId hSize hCode =>
      have hKind :
          oc.classify OpCode.streamData = .streamData := by
        rw [← hCode]
        simp [ReservedOpcodes.classify, Ne.symm hData,
          Ne.symm hStartData]
      simp only [Message.parse, hKind]
      exact Message.parseStreamData_of_fields hSize rfl
  | finish streamId hCode =>
      have hKind :
          oc.classify OpCode.streamEnd = .streamEnd := by
        rw [← hCode]
        simp [ReservedOpcodes.classify, Ne.symm hEnd,
          Ne.symm hStartEnd, Ne.symm hDataEnd]
      simp only [Message.parse, hKind]
      exact Message.parseStreamId_of_field _ rfl
  | plain hKind hHandler =>
      simp only [Message.parse, hKind]
      rfl

/- Behind its number, a request is what was asked. -/
theorem read_request
    (id : UInt32)
    (payload : Payload) :
    let sent : Payload :=
      { opCode := payload.opCode
        parameters :=
          PayloadBuilder.field (htonl id) ++
            payload.parameters }
    ∃ reader,
      (PayloadReader.new sent).readParamUint32 =
          (.ok id, reader) ∧
        reader.remaining = payload.parameters := by
  dsimp only
  refine
    ⟨_, PayloadReader.readParamUint32_field rfl, ?_⟩
  exact PayloadReader.remaining_advance_uint32 rfl

end EndToEnd

end ObscuraProto
