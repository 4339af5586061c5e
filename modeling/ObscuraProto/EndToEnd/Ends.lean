import ObscuraProto.EndToEnd.Words
import ObscuraProto.FifoLink

/-
  One end of an established connection.

  An end has a session, open requests and streams.  Whatever
  the wrapper does, the end takes one step of the dialogue: it
  opens a packet or hands one over, and settles or registers
  what goes with it.

  Key definitions include:
    * `Ending`, `Deed`, `Observation`
    * `EndToEnd.Says`, `EndToEnd.EndStep`
    * `Terms`, `Terms.seen`
-/

namespace ObscuraProto

instance : Dialogue.Sides Role where
  other := Role.other
  other_other := FifoLink.other_other
  other_ne := FifoLink.other_ne
  eq_other := FifoLink.eq_other

/- The dialogue of both ends, and what happens in it. -/
abbrev Talk : Type :=
  Dialogue.State Role UInt32 PromiseId Payload UInt32
    (Option OpCode) StreamItem StreamRef

abbrev Deed : Type :=
  Dialogue.Act Role UInt32 PromiseId Payload UInt32
    (Option OpCode) StreamItem StreamRef

/- `objects` counts the stream objects made so far. -/
structure Ending where
  pending : UInt32 → Option PromiseId
  streams : UInt32 → Option StreamRef
  objects : Nat
  nextRequestId : UInt32
  nextStreamId : UInt32

/- What the user of an end calls, and what it is told. -/
inductive Observation where
| asked (promise : PromiseId) (payload : Payload)
| served
    (handler : Option HandlerId)
    (parameters : Bytes)
    (answer : Except Exception Payload)
| completed (completion : Completion)
| started (opCode : Option OpCode) (stream : StreamRef)
| accepted
    (stream : StreamRef)
    (handlers : List (HandlerId × StreamRef))
| written (stream : StreamRef) (item : StreamItem)
| dispatched (stream : Option StreamRef) (item : StreamItem)

/- What stays the same all the time. -/
structure Terms where
  config : Config
  requestHandlers : Role → HandlerTable
  startHandler : Role → Option OpCode → Option HandlerId

/- Streams of clients have even numbers, of servers odd ones. -/
def Role.streamNumber : Role → UInt32 → UInt32
| .client, n => n * 2
| .server, n => n * 2 + 1

namespace Terms

/- What is observed of each step. -/
def seen (terms : Terms) (role : Role) :
    Deed → List Observation
| .ask _ _ promise body => [.asked promise body]
| .start _ _ kind ref => [.started kind ref]
| .use _ _ content ref => [.written ref content]
| .serve _ _ body answer =>
    [.served (terms.requestHandlers role)[body.opCode]?.join
      body.parameters (.ok answer)]
| .settle _ _ answer promise =>
    (promise.map (fun promise =>
      Observation.completed ⟨promise, .ok answer⟩)).toList
| .accept _ _ kind ref =>
    [.accepted ref
      ((terms.startHandler role kind).map
        (fun handler => (handler, ref))).toList]
| .deliver _ _ content ref => [.dispatched ref content]
| _ => []

end Terms

namespace EndToEnd

open Dialogue

/- The end that takes a step, if there is one. -/
def actor : Deed → Option Role
| .idle => none
| .ask role _ _ _ => some role
| .tell role _ => some role
| .start role _ _ _ => some role
| .use role _ _ _ => some role
| .serve role _ _ _ => some role
| .settle role _ _ _ => some role
| .accept role _ _ _ => some role
| .deliver role _ _ _ => some role
| .hear role _ => some role

/- The end takes no part in the steps of the other one. -/
def Own (role : Role) (deed : Deed) : Prop :=
  actor deed = none ∨ actor deed = some role

/- The words are encrypted for the other side. -/
inductive Says
    (S : Sodium)
    (cfg : Config)
    (handlers : HandlerTable)
    (keys : SessionKeys)
    (session : Session) :
    Option Words → List Bytes → Session → Prop
| nothing : Says S cfg handlers keys session none [] session
| words
    {words : Words}
    {payload : Payload}
    (nonce : Nonce) :
    Carries cfg handlers words payload →
      Says S cfg handlers keys session (some words)
        [Crypto.packet S nonce payload
          (session.sendCounter + 1) keys.tx]
        { session with sendCounter := session.sendCounter + 1 }

/- Numbers, promises and objects are those of the end. -/
def Fits
    (role : Role)
    (e e' : Ending) : Deed → Prop
| .ask _ id _ _ =>
    id = e.nextRequestId ∧
      e'.nextRequestId = e.nextRequestId + 1
| .start _ key _ ref =>
    key = role.streamNumber e.nextStreamId ∧
      e'.nextStreamId = e.nextStreamId + 1 ∧
      ref = e.objects ∧ e.objects < e'.objects
| .use _ key _ ref => e.streams key = some ref
| .settle _ id _ promise => promise = e.pending id
| .accept _ _ _ ref => ref = e.objects ∧ e.objects < e'.objects
| .deliver _ key _ ref => ref = e.streams key
| _ => True

/- The open requests and the streams, after a step. -/
def pendingAfter (pending : UInt32 → Option PromiseId) :
    Deed → UInt32 → Option PromiseId
| .ask _ id promise _ =>
    Function.update pending id (some promise)
| .settle _ id _ _ => Function.update pending id none
| _ => pending

def streamsAfter (streams : UInt32 → Option StreamRef) :
    Deed → UInt32 → Option StreamRef
| .start _ key _ ref => Function.update streams key (some ref)
| .accept _ key _ ref => Function.update streams key (some ref)
| _ => streams

/-
  An end takes a step.  Its session is `opened` once what is
  heard in this step has been decrypted, and `closed` once
  what is said has been encrypted.
-/
structure EndStep
    (S : Sodium)
    (terms : Terms)
    (keys : SessionKeys)
    (role : Role)
    (e : Ending)
    (opened : Session)
    (deed : Deed)
    (packets : List Bytes)
    (closed : Session)
    (e' : Ending) : Prop where
  own : Own role deed
  speech :
    Says S terms.config (terms.requestHandlers role.other) keys
      opened (deed.said role) packets closed
  fits : Fits role e e' deed
  pending : e'.pending = pendingAfter e.pending deed
  streams : e'.streams = streamsAfter e.streams deed
  objects : e.objects ≤ e'.objects

/- What happens at an end is one step of the dialogue. -/
def Does
    (S : Sodium)
    (terms : Terms)
    (keys : SessionKeys)
    (role : Role)
    (heard : Option Words)
    (e : Ending)
    (opened : Session)
    (packets : List Bytes)
    (seen : List Observation)
    (closed : Session)
    (e' : Ending) : Prop :=
  ∃ deed : Deed,
    deed.heard role = heard ∧
      seen = terms.seen role deed ∧
        EndStep S terms keys role e opened deed packets closed
          e'

------------------------------------------------------------
-- What May Be Said
------------------------------------------------------------

/- A request that the other end has a handler for. -/
def Asks
    (cfg : Config)
    (handlers : HandlerTable)
    (payload : Payload) : Prop :=
  cfg.opcodes.classify payload.opCode = .application ∧
    (∃ handler,
      handlers[payload.opCode]? = some (some handler)) ∧
      ¬ cfg.ExceedsLimit (payload.parameters.length + 6)

/- A payload that is no request. -/
def Tells
    (cfg : Config)
    (handlers : HandlerTable)
    (payload : Payload) : Prop :=
  cfg.opcodes.classify payload.opCode = .application ∧
    handlers[payload.opCode]? = none ∧
      ¬ cfg.ExceedsLimit payload.parameters.length

def Starts (cfg : Config) (opCode : Option OpCode) : Prop :=
  match opCode with
  | none => ¬ cfg.ExceedsLimit 6
  | some _ => ¬ cfg.ExceedsLimit 10

/- Streams use the default codes, whatever is configured. -/
def Puts (cfg : Config) : StreamItem → Prop
| .data chunk =>
    chunk.length ≤ 65535 ∧
      cfg.opcodes.streamData = OpCode.streamData ∧
        ¬ cfg.ExceedsLimit (chunk.length + 8)
| .finish =>
    cfg.opcodes.streamEnd = OpCode.streamEnd ∧
      ¬ cfg.ExceedsLimit 6

/- What a request handler returns. -/
def Repliable
    (cfg : Config)
    (answer : Except Exception Payload) : Prop :=
  ∃ payload,
    answer = .ok payload ∧
      payload.serialize.length ≤ 65535 ∧
        ¬ cfg.ExceedsLimit (payload.serialize.length + 8)

section Carrying

variable {cfg : Config}
variable {handlers : HandlerTable}
variable {payload : Payload}

theorem Asks.carries
    (hAsks : Asks cfg handlers payload)
    (id : UInt32) :
    Carries cfg handlers (.request id payload)
      { opCode := payload.opCode
        parameters :=
          PayloadBuilder.field (htonl id) ++
            payload.parameters } := by
  rcases hAsks with ⟨hKind, ⟨handler, hHandler⟩, hFits⟩
  refine ⟨.request id hKind hHandler, fits_of_length ?_⟩
  simpa [Nat.add_comm] using hFits

theorem Tells.carries
    (hTells : Tells cfg handlers payload) :
    Carries cfg handlers (.plain payload) payload :=
  ⟨.plain hTells.1 hTells.2.1, fits_of_length hTells.2.2⟩

theorem Starts.carries
    {opCode : Option OpCode}
    {start : Payload}
    {streamId : UInt32}
    (hStarts : Starts cfg opCode)
    (hBuild :
      streamStartPayload cfg.opcodes streamId opCode =
        .ok start) :
    Carries cfg handlers (.opening streamId opCode) start := by
  rw [streamStartPayload_eq, Except.ok.injEq] at hBuild
  rw [← hBuild]
  refine ⟨.opening streamId opCode, fits_of_length ?_⟩
  cases opCode with
  | none => simpa [Starts] using hStarts
  | some opCode => simpa [Starts] using hStarts

theorem Starts.fits
    {opCode : Option OpCode}
    {start : Payload}
    {streamId : UInt32}
    (hStarts : Starts cfg opCode)
    (hBuild :
      streamStartPayload cfg.opcodes streamId opCode =
        .ok start) :
    cfg.payloadTooLarge start = false := by
  have hCarries :
      Carries cfg ∅ (.opening streamId opCode) start :=
    hStarts.carries hBuild
  exact hCarries.fits

theorem Puts.carries_data
    {chunk : Bytes}
    (hPuts : Puts cfg (.data chunk))
    (streamId : UInt32) :
    Carries cfg handlers (.item streamId (.data chunk))
      { opCode := OpCode.streamData
        parameters :=
          PayloadBuilder.field (htonl streamId) ++
            PayloadBuilder.field chunk } := by
  refine
    ⟨.data streamId hPuts.1 hPuts.2.1, fits_of_length ?_⟩
  have hLength :
      6 + (chunk.length + 2) = chunk.length + 8 := by
    omega
  simpa [hLength] using hPuts.2.2

theorem Puts.carries_finish
    (hPuts : Puts cfg .finish)
    (streamId : UInt32) :
    Carries cfg handlers (.item streamId .finish)
      { opCode := OpCode.streamEnd
        parameters :=
          PayloadBuilder.field (htonl streamId) } := by
  refine ⟨.finish streamId hPuts.1, fits_of_length ?_⟩
  simpa using hPuts.2

/- The answer fits into a response. -/
theorem Repliable.carries
    (handlers : HandlerTable)
    (hSize : payload.serialize.length ≤ 65535)
    (hFits :
      ¬ cfg.ExceedsLimit (payload.serialize.length + 8))
    (id : UInt32) :
    ∃ response,
      responsePayload cfg.opcodes id payload = .ok response ∧
        Carries cfg handlers (.reply id payload) response := by
  refine
    ⟨_, responsePayload_of_le cfg.opcodes id hSize,
      .reply id hSize, fits_of_length ?_⟩
  have hLength :
      (PayloadBuilder.field (htonl id) ++
          PayloadBuilder.field payload.serialize).length =
        payload.serialize.length + 8 := by
    rw [List.length_append, PayloadBuilder.length_field,
      PayloadBuilder.length_field, length_htonl]
    omega
  rw [hLength]
  exact hFits

end Carrying

end EndToEnd

end ObscuraProto
