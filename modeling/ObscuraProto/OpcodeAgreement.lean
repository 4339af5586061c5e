import ObscuraProto.PlainSodium
import ObscuraProto.WsClient.Events
import ObscuraProto.WsServer.Events

/-
  The reserved operation codes at both ends of a connection.

  Every message the library generates is one of five kinds,
  built by code that both wrappers share and read by the
  `on_message` of the other end.  Responses and stream starts
  take their codes from the configuration; the three other
  messages of a stream carry the default codes instead.

  Key definitions include:
    * `OpcodeAgreement.LibraryMessage`
    * `OpcodeAgreement.Understood`

  Key theorems include:
    * `OpcodeAgreement.server_startStream_emit`
    * `OpcodeAgreement.client_startStream_emit`
    * `OpcodeAgreement.opcode_agreement_iff`
    * `OpcodeAgreement.chunk_misread`
-/

namespace ObscuraProto

def ReservedOpcodes.Distinct (oc : ReservedOpcodes) : Prop :=
  [oc.response, oc.streamStart, oc.streamData, oc.streamEnd,
    oc.streamCancel].Nodup

instance (oc : ReservedOpcodes) : Decidable oc.Distinct :=
  inferInstanceAs (Decidable (List.Nodup _))

namespace OpcodeAgreement

open Effectful

------------------------------------------------------------
-- Messages the Library Generates
------------------------------------------------------------

/- `SendFn` is what the streams of the sender carry. -/
inductive LibraryMessage (SendFn : Type) where
| response (requestId : UInt32) (payload : Payload)
| streamStart (streamId : UInt32) (opCode : Option OpCode)
| write (stream : Stream SendFn) (data : Bytes)
| finish (stream : Stream SendFn)
| cancel (stream : Stream SendFn)

namespace LibraryMessage

variable {SendFn : Type}

/- What the sender means. -/
def kind : LibraryMessage SendFn → MessageKind
| .response _ _ => .response
| .streamStart _ _ => .streamStart
| .write _ _ => .streamData
| .finish _ => .streamEnd
| .cancel _ => .streamCancel

/- What the sender builds. -/
def build (oc : ReservedOpcodes) :
    LibraryMessage SendFn → Except Exception Payload
| .response requestId payload =>
    responsePayload oc requestId payload
| .streamStart streamId opCode =>
    streamStartPayload oc streamId opCode
| .write stream data => stream.writePayload data
| .finish stream => stream.endPayload
| .cancel stream => stream.cancelPayload

end LibraryMessage

------------------------------------------------------------
-- Where the Server Sends Them
------------------------------------------------------------

section Server

open WsServer

variable (S : Sodium)

/- Build with the configured codes, then send. -/
def serverEmit
    (sendFn : Payload → ServerAction Unit)
    (message : LibraryMessage ServerSendFn) :
    ServerAction Unit := do
  let w ← Action.get
  let payload ←
    Action.ofExcept (message.build w.config.opcodes)
  sendFn payload

theorem server_sendResponse_emit
    (nonce : Nonce)
    (hdl : Hdl)
    (requestId : UInt32)
    (payload : Payload) :
    sendResponse S nonce hdl requestId payload =
      serverEmit (send S nonce hdl)
        (.response requestId payload) :=
  rfl

theorem server_sendAnonymousResponse_emit
    (nonce : Nonce)
    (hdl : Hdl)
    (requestId : UInt32)
    (payload : Payload) :
    sendAnonymousResponse S nonce hdl requestId payload =
      serverEmit (sendAnonymous S nonce hdl)
        (.response requestId payload) :=
  rfl

theorem server_startStream_emit
    (nonce : Nonce)
    (hdl : Hdl) :
    startStream S nonce hdl = do
      let streamId ← takeStreamId
      let stream ←
        registerStream hdl
          { streamId := streamId
            sendFn := .send hdl
            opCode := none }
      serverEmit (send S nonce hdl)
        (.streamStart streamId none)
      return stream := by
  simp only [serverEmit, Action.bind_assoc]
  rfl

/- The call ends when the connection has no session. -/
theorem server_startStreamWith_emit
    (nonce : Nonce)
    (hdl : Hdl)
    (streamOpCode : OpCode)
    (w : WsServer) :
    (startStreamWith S nonce hdl streamOpCode).run w =
      (do
        let streamId ← takeStreamId
        let stream ←
          registerStream hdl
            { streamId := streamId
              sendFn := .send hdl
              opCode := some streamOpCode }
        let w ← Action.get
        match w.sessionTable.selectedVersion hdl with
        | none =>
            Action.throw
              (.logicError
                "Session not found for this connection.")
        | some version => do
            serverEmit (send S nonce hdl)
              (.streamStart streamId
                (startStreamOpCode version streamOpCode))
            return stream : ServerAction StreamRef).run w := by
  refine Action.run_bind_congr (fun streamId w => ?_) w
  refine Action.run_bind_congr (fun stream w => ?_) w
  rw [Action.run_get_bind, Action.run_get_bind]
  cases w.sessionTable.selectedVersion hdl with
  | none => rfl
  | some version =>
      simp only [serverEmit, Action.bind_assoc]
      rfl

/- The calls of a stream go through its send function, which -/
/- sends for an owned wrapper only.                          -/
theorem server_streamCall_emit
    {nonce : Nonce}
    {build : Stream ServerSendFn → Except Exception Payload}
    {ref : StreamRef}
    {w : WsServer}
    {stream : Stream ServerSendFn}
    {message : LibraryMessage ServerSendFn}
    (hStream : w.streams.objects[ref]? = some stream)
    (hBuild : ∀ oc, message.build oc = build stream) :
    (streamCall S nonce build ref).run w =
      (Action.catchAll
        (serverEmit
          (fun payload =>
            if w.hasOwner then
              runSendFn S nonce payload stream.sendFn
            else
              return ())
          message)
        (fun _ => pure ())).run w := by
  unfold streamCall serverEmit
  simp only [Action.run_get_bind, hStream,
    Action.run_catchAll, hBuild]

end Server

------------------------------------------------------------
-- Where the Client Sends Them
------------------------------------------------------------

section Client

open WsClient

variable (S : Sodium)

/- Build with the configured codes, then send. -/
def clientEmit
    (sendOne : Payload → ClientAction Unit)
    (message : LibraryMessage Unit) : ClientAction Unit := do
  let w ← Action.get
  let payload ←
    Action.ofExcept (message.build w.config.opcodes)
  sendOne payload

theorem client_sendResponse_emit
    (nonce : Nonce)
    (requestId : UInt32)
    (payload : Payload) :
    sendResponse S nonce requestId payload =
      clientEmit (send S nonce)
        (.response requestId payload) :=
  rfl

theorem client_startStream_emit (nonce : Nonce) :
    startStream S nonce = do
      let streamId ← takeStreamId
      let stream ←
        registerStream
          { streamId := streamId
            sendFn := ()
            opCode := none }
      clientEmit (send S nonce) (.streamStart streamId none)
      return stream := by
  simp only [clientEmit, Action.bind_assoc]
  rfl

theorem client_startStreamWith_emit
    (nonce : Nonce)
    (streamOpCode : OpCode)
    (w : WsClient) :
    (startStreamWith S nonce streamOpCode).run w =
      (do
        let streamId ← takeStreamId
        let stream ←
          registerStream
            { streamId := streamId
              sendFn := ()
              opCode := some streamOpCode }
        let w ← Action.get
        clientEmit (send S nonce)
          (.streamStart streamId
            (startStreamOpCode w.session.getSelectedVersion
              streamOpCode))
        return stream : ClientAction StreamRef).run w := by
  refine Action.run_bind_congr (fun streamId w => ?_) w
  refine Action.run_bind_congr (fun stream w => ?_) w
  rw [Action.run_get_bind, Action.run_get_bind]
  simp only [clientEmit, Action.bind_assoc]
  rfl

theorem client_streamCall_emit
    {nonce : Nonce}
    {build : Stream Unit → Except Exception Payload}
    {ref : StreamRef}
    {w : WsClient}
    {stream : Stream Unit}
    {message : LibraryMessage Unit}
    (hStream : w.streams.objects[ref]? = some stream)
    (hBuild : ∀ oc, message.build oc = build stream) :
    (streamCall S nonce build ref).run w =
      (Action.catchAll
        (clientEmit
          (fun payload =>
            if w.hasOwner then send S nonce payload
            else return ())
          message)
        (fun _ => pure ())).run w := by
  unfold streamCall clientEmit
  simp only [Action.run_get_bind, hStream,
    Action.run_catchAll, hBuild]

end Client

------------------------------------------------------------
-- What the Receiver Makes of Them
------------------------------------------------------------

/- An invocation of a handler for application codes. -/
def ServerEffect.IsApplication : ServerEffect → Prop
| .invoke (.payload _ _ _) => True
| .invoke (.request _ _ _) => True
| _ => False

def ClientEffect.IsApplication : ClientEffect → Prop
| .invoke (.payload _ _) => True
| .invoke (.request _ _) => True
| _ => False

/-
  The other end reads the payload as a message of this kind
  and calls no handler for application codes on it.
-/
structure Understood
    (oc : ReservedOpcodes)
    (kind : MessageKind)
    (payload : Payload) : Prop where
  read :
    ∃ message,
      Message.parse oc payload = .ok message ∧
        message.kind = kind
  server :
    ∀ S input hdl isAuth (w : WsServer),
      w.config.opcodes = oc →
        ∀ effect ∈
            ((WsServer.dispatch S input hdl isAuth
              payload).run w).effects,
          ¬ ServerEffect.IsApplication effect
  client :
    ∀ S input (w : WsClient),
      w.config.opcodes = oc →
        ∀ effect ∈
            ((WsClient.dispatch S input payload).run
              w).effects,
          ¬ ClientEffect.IsApplication effect

def Agreement (oc : ReservedOpcodes) : Prop :=
  (∀ (message : LibraryMessage ServerSendFn) payload,
      message.build oc = .ok payload →
        Understood oc message.kind payload) ∧
    ∀ (message : LibraryMessage Unit) payload,
      message.build oc = .ok payload →
        Understood oc message.kind payload

------------------------------------------------------------
-- Dispatch Without Application Handlers
------------------------------------------------------------

/- No effect satisfies `bad`, whatever the states. -/
def Avoids
    {χ σ : Type}
    (bad : χ → Prop)
    (_ : σ)
    (effects : List χ)
    (_ : σ) : Prop :=
  ∀ effect ∈ effects, ¬ bad effect

theorem composes_avoids
    {χ σ : Type}
    (bad : χ → Prop) :
    Composes (Avoids (σ := σ) bad) where
  refl := by
    intro s effect hEffect
    cases hEffect
  trans := by
    intro s t u xs ys hFirst hSecond effect hEffect
    rcases List.mem_append.mp hEffect with hLeft | hRight
    · exact hFirst effect hLeft
    · exact hSecond effect hRight

/- A step without effects. -/
theorem avoids_nil
    {χ σ : Type}
    (bad : χ → Prop)
    (s t : σ) :
    Avoids bad s [] t := by
  intro effect hEffect
  cases hEffect

theorem server_get_avoids :
    Ensures (Avoids ServerEffect.IsApplication)
      (Action.get : ServerAction WsServer) :=
  Ensures.get (composes_avoids _).refl

theorem server_invokeHandler_avoids
    (handler : Option HandlerId)
    {callback : HandlerId → ServerCallback}
    (answer : Except Exception Unit)
    (hCallback :
      ∀ handler,
        ¬ ServerEffect.IsApplication
          (.invoke (callback handler))) :
    Ensures (Avoids ServerEffect.IsApplication)
      (WsServer.invokeHandler handler callback answer) := by
  cases handler with
  | none => exact Ensures.pure ()
  | some handler =>
      refine
        Ensures.bind (Ensures.emit ?_)
          (fun _ => Ensures.ofExcept answer)
      intro w effect hEffect
      rw [List.mem_singleton.mp hEffect]
      exact hCallback handler

/- The completions of a section call no handler. -/
theorem server_requestSection_avoids
    (f : RequestTable → List Completion × RequestTable) :
    Ensures (Avoids ServerEffect.IsApplication)
      (WsServer.requestSection f) := by
  apply Ensures.atomic
  intro w effect hEffect
  rcases List.mem_map.mp hEffect with ⟨completion, _, hSame⟩
  rw [← hSame]
  exact id

theorem server_dispatchStream_avoids
    (input : IoInput)
    (stream : Option StreamRef)
    (handlerOf : Stream ServerSendFn → Option HandlerId)
    {callback : HandlerId → ServerCallback}
    (hCallback :
      ∀ handler,
        ¬ ServerEffect.IsApplication
          (.invoke (callback handler))) :
    Ensures (Avoids ServerEffect.IsApplication)
      (WsServer.dispatchStream input stream handlerOf
        callback) :=
  Ensures.bind server_get_avoids
    (fun _ => server_invokeHandler_avoids _ _ hCallback)

/- Of the branches of `dispatch`, only one calls them. -/
theorem server_dispatch_avoids
    {w : WsServer}
    {payload : Payload}
    {message : Message}
    (hParse :
      Message.parse w.config.opcodes payload = .ok message)
    (hKind : message.kind ≠ .application)
    (S : Sodium)
    (input : IoInput)
    (hdl : Hdl)
    (isAuth : Bool) :
    ∀ effect ∈
        ((WsServer.dispatch S input hdl isAuth payload).run
          w).effects,
      ¬ ServerEffect.IsApplication effect := by
  have hAvoids :=
    composes_avoids (σ := WsServer) ServerEffect.IsApplication
  unfold WsServer.dispatch
  rw [Action.run_get_bind, hParse,
    Action.run_ofExcept_ok_bind]
  refine Ensures.run hAvoids ?_ w
  cases message with
  | response requestId response =>
      exact server_requestSection_avoids _
  | streamStart streamId opCode =>
      apply Ensures.bind
      · exact Ensures.atomic (fun _ => avoids_nil _ _ _)
      · intro stream
        apply Ensures.bind server_get_avoids
        intro w'
        exact server_invokeHandler_avoids _ _ (fun _ => id)
  | streamData streamId data =>
      apply Ensures.bind
      · exact
          Ensures.bind server_get_avoids
            (fun _ => Ensures.pure _)
      · intro stream
        exact
          server_dispatchStream_avoids _ _ _ (fun _ => id)
  | streamEnd streamId =>
      apply Ensures.bind
      · exact
          Ensures.bind server_get_avoids
            (fun _ => Ensures.pure _)
      · intro stream
        exact
          server_dispatchStream_avoids _ _ _ (fun _ => id)
  | streamCancel streamId =>
      apply Ensures.bind
      · exact Ensures.atomic (fun _ => avoids_nil _ _ _)
      · intro stream
        exact
          server_dispatchStream_avoids _ _ _ (fun _ => id)
  | application payload => exact absurd rfl hKind

theorem client_get_avoids :
    Ensures (Avoids ClientEffect.IsApplication)
      (Action.get : ClientAction WsClient) :=
  Ensures.get (composes_avoids _).refl

theorem client_invokeHandler_avoids
    (handler : Option HandlerId)
    {callback : HandlerId → ClientCallback}
    (answer : Except Exception Unit)
    (hCallback :
      ∀ handler,
        ¬ ClientEffect.IsApplication
          (.invoke (callback handler))) :
    Ensures (Avoids ClientEffect.IsApplication)
      (WsClient.invokeHandler handler callback answer) := by
  cases handler with
  | none => exact Ensures.pure ()
  | some handler =>
      refine
        Ensures.bind (Ensures.emit ?_)
          (fun _ => Ensures.ofExcept answer)
      intro w effect hEffect
      rw [List.mem_singleton.mp hEffect]
      exact hCallback handler

/- The completions of a section call no handler. -/
theorem client_requestSection_avoids
    (f : ClientRequestTable → List Completion × ClientRequestTable) :
    Ensures (Avoids ClientEffect.IsApplication)
      (WsClient.requestSection f) := by
  apply Ensures.atomic
  intro w effect hEffect
  rcases List.mem_map.mp hEffect with ⟨completion, _, hSame⟩
  rw [← hSame]
  exact id

theorem client_dispatchStream_avoids
    (input : ClientInput)
    (stream : Option StreamRef)
    (handlerOf : Stream Unit → Option HandlerId)
    {callback : HandlerId → ClientCallback}
    (hCallback :
      ∀ handler,
        ¬ ClientEffect.IsApplication
          (.invoke (callback handler))) :
    Ensures (Avoids ClientEffect.IsApplication)
      (WsClient.dispatchStream input stream handlerOf
        callback) :=
  Ensures.bind client_get_avoids
    (fun _ => client_invokeHandler_avoids _ _ hCallback)

/- Of the branches of `dispatch`, only one calls them. -/
theorem client_dispatch_avoids
    {w : WsClient}
    {payload : Payload}
    {message : Message}
    (hParse :
      Message.parse w.config.opcodes payload = .ok message)
    (hKind : message.kind ≠ .application)
    (S : Sodium)
    (input : ClientInput) :
    ∀ effect ∈
        ((WsClient.dispatch S input payload).run
          w).effects,
      ¬ ClientEffect.IsApplication effect := by
  have hAvoids :=
    composes_avoids (σ := WsClient) ClientEffect.IsApplication
  unfold WsClient.dispatch
  rw [Action.run_get_bind, hParse,
    Action.run_ofExcept_ok_bind]
  refine Ensures.run hAvoids ?_ w
  cases message with
  | response requestId response =>
      exact client_requestSection_avoids _
  | streamStart streamId opCode =>
      apply Ensures.bind
      · exact Ensures.atomic (fun _ => avoids_nil _ _ _)
      · intro stream
        apply Ensures.bind client_get_avoids
        intro w'
        exact client_invokeHandler_avoids _ _ (fun _ => id)
  | streamData streamId data =>
      apply Ensures.bind
      · exact
          Ensures.bind client_get_avoids
            (fun _ => Ensures.pure _)
      · intro stream
        exact
          client_dispatchStream_avoids _ _ _ (fun _ => id)
  | streamEnd streamId =>
      apply Ensures.bind
      · exact
          Ensures.bind client_get_avoids
            (fun _ => Ensures.pure _)
      · intro stream
        exact
          client_dispatchStream_avoids _ _ _ (fun _ => id)
  | streamCancel streamId =>
      apply Ensures.bind
      · exact Ensures.atomic (fun _ => avoids_nil _ _ _)
      · intro stream
        exact
          client_dispatchStream_avoids _ _ _ (fun _ => id)
  | application payload => exact absurd rfl hKind

------------------------------------------------------------
-- Agreement
------------------------------------------------------------

/- The three codes the emitters of a stream do not read. -/
def StreamCodesDefault (oc : ReservedOpcodes) : Prop :=
  oc.streamData = 0xFFFC ∧
    oc.streamEnd = 0xFFFB ∧
      oc.streamCancel = 0xFFFA

theorem read_build
    {SendFn : Type}
    {oc : ReservedOpcodes}
    {message : LibraryMessage SendFn}
    {payload : Payload}
    (hDistinct : oc.Distinct)
    (hCodes : StreamCodesDefault oc)
    (hBuild : message.build oc = .ok payload) :
    ∃ found,
      Message.parse oc payload = .ok found ∧
        found.kind = message.kind := by
  rcases hCodes with ⟨hData, hEnd, hCancel⟩
  unfold ReservedOpcodes.Distinct at hDistinct
  simp only [List.nodup_cons, List.mem_cons,
    List.not_mem_nil, or_false, not_or] at hDistinct
  rcases hDistinct with
    ⟨⟨hRS, hRD, hRE, hRC⟩, ⟨hSD, hSE, hSC⟩, ⟨hDE, hDC⟩, hEC,
      _⟩
  cases message with
  | response requestId inner =>
      have hSize := size_of_responsePayload hBuild
      rw [LibraryMessage.build,
        responsePayload_of_le oc requestId hSize] at hBuild
      cases hBuild
      refine ⟨.response requestId inner, ?_, rfl⟩
      simp only [Message.parse, ReservedOpcodes.classify,
        if_true]
      exact Message.parseResponse_of_fields hSize rfl
  | streamStart streamId opCode =>
      rw [LibraryMessage.build, streamStartPayload_eq]
        at hBuild
      cases hBuild
      refine ⟨.streamStart streamId opCode, ?_, rfl⟩
      simp only [Message.parse, ReservedOpcodes.classify,
        if_neg (Ne.symm hRS), if_true]
      exact Message.parseStreamStart_of_fields rfl
  | write stream data =>
      have hSize := Stream.size_of_writePayload hBuild
      rw [LibraryMessage.build,
        Stream.writePayload_of_le stream hSize] at hBuild
      cases hBuild
      refine ⟨.streamData stream.streamId data, ?_, rfl⟩
      have hCode : OpCode.streamData = oc.streamData :=
        hData.symm
      simp only [Message.parse, ReservedOpcodes.classify,
        hCode, if_neg (Ne.symm hRD), if_neg (Ne.symm hSD),
        if_true]
      exact Message.parseStreamData_of_fields hSize rfl
  | finish stream =>
      rw [LibraryMessage.build, Stream.endPayload_eq]
        at hBuild
      cases hBuild
      refine ⟨.streamEnd stream.streamId, ?_, rfl⟩
      have hCode : OpCode.streamEnd = oc.streamEnd :=
        hEnd.symm
      simp only [Message.parse, ReservedOpcodes.classify,
        hCode, if_neg (Ne.symm hRE), if_neg (Ne.symm hSE),
        if_neg (Ne.symm hDE), if_true]
      exact Message.parseStreamId_of_field _ rfl
  | cancel stream =>
      rw [LibraryMessage.build, Stream.cancelPayload_eq]
        at hBuild
      cases hBuild
      refine ⟨.streamCancel stream.streamId, ?_, rfl⟩
      have hCode : OpCode.streamCancel = oc.streamCancel :=
        hCancel.symm
      simp only [Message.parse, ReservedOpcodes.classify,
        hCode, if_neg (Ne.symm hRC), if_neg (Ne.symm hSC),
        if_neg (Ne.symm hDC), if_neg (Ne.symm hEC), if_true]
      exact Message.parseStreamId_of_field _ rfl

theorem understood_of_read
    {oc : ReservedOpcodes}
    {kind : MessageKind}
    {payload : Payload}
    (hRead :
      ∃ message,
        Message.parse oc payload = .ok message ∧
          message.kind = kind)
    (hKind : kind ≠ .application) :
    Understood oc kind payload := by
  refine ⟨hRead, ?_, ?_⟩
  · intro S input hdl isAuth w hCodes
    rcases hRead with ⟨message, hParse, hSame⟩
    rw [← hCodes] at hParse
    rw [← hSame] at hKind
    exact
      server_dispatch_avoids hParse hKind S input hdl isAuth
  · intro S input w hCodes
    rcases hRead with ⟨message, hParse, hSame⟩
    rw [← hCodes] at hParse
    rw [← hSame] at hKind
    exact client_dispatch_avoids hParse hKind S input

theorem LibraryMessage.kind_ne_application
    {SendFn : Type}
    (message : LibraryMessage SendFn) :
    message.kind ≠ .application := by
  cases message <;> simp [LibraryMessage.kind]

/- A payload that is understood carries the code meant. -/
theorem classify_of_understood
    {oc : ReservedOpcodes}
    {kind : MessageKind}
    {payload : Payload}
    (hUnderstood : Understood oc kind payload) :
    oc.classify payload.opCode = kind := by
  rcases hUnderstood.read with ⟨message, hParse, hKind⟩
  rw [← hKind]
  exact (Message.kind_of_parse hParse).symm

theorem codes_of_agreement
    {oc : ReservedOpcodes}
    (hAgreement : Agreement oc) :
    StreamCodesDefault oc := by
  let stream : Stream Unit :=
    { streamId := 0, sendFn := (), opCode := none }
  have hWrite :=
    classify_of_understood
      (hAgreement.2 (.write stream []) _ rfl)
  have hFinish :=
    classify_of_understood
      (hAgreement.2 (.finish stream) _ rfl)
  have hCancel :=
    classify_of_understood
      (hAgreement.2 (.cancel stream) _ rfl)
  refine ⟨?_, ?_, ?_⟩
  · exact (ReservedOpcodes.eq_streamData hWrite).symm
  · exact (ReservedOpcodes.eq_streamEnd hFinish).symm
  · exact (ReservedOpcodes.eq_streamCancel hCancel).symm

/-
  Both ends agree on every generated message just when the
  codes of stream data, end and cancel are the default ones.
-/
theorem opcode_agreement_iff
    {oc : ReservedOpcodes}
    (hDistinct : oc.Distinct) :
    Agreement oc ↔ StreamCodesDefault oc := by
  constructor
  · exact codes_of_agreement
  · intro hCodes
    constructor
    · intro message payload hBuild
      exact
        understood_of_read
          (read_build hDistinct hCodes hBuild)
          message.kind_ne_application
    · intro message payload hBuild
      exact
        understood_of_read
          (read_build hDistinct hCodes hBuild)
          message.kind_ne_application

/- Responses and stream starts may have other codes. -/
theorem opcode_agreement_moved :
    let oc : ReservedOpcodes :=
      { response := 0x7001
        streamStart := 0x7002 }
    oc.Distinct ∧ Agreement oc :=
  ⟨by decide,
    (opcode_agreement_iff (by decide)).mpr ⟨rfl, rfl, rfl⟩⟩

------------------------------------------------------------
-- A Moved Code
------------------------------------------------------------

/- Distinct codes; only that of stream data is not default. -/
def movedCodes : ReservedOpcodes :=
  { streamData := 0x7001 }

/- A server with these codes and a default handler. -/
def movedServer : WsServer :=
  { WsServer.new (PlainSodium.sampleKeyPair 6)
      { Config.withDefaults with opcodes := movedCodes }
      true with
    dispatchers := { defaultPayloadHandler := some 1 } }

/- A chunk of stream 2 as the client sends it. -/
def sampleChunk : Payload where
  opCode := 0xFFFC
  parameters := [0, 4, 0, 0, 0, 2, 0, 1, 7]

/- The chunk ends up in the handler for application codes. -/
theorem chunk_misread :
    movedCodes.Distinct ∧
      (LibraryMessage.write
          { streamId := 2, sendFn := (), opCode := none }
          [7]).build movedCodes =
        .ok sampleChunk ∧
      (∃ effect ∈
          ((WsServer.dispatch plainSodium
            (.smooth (PlainSodium.sampleKx 1)) 1 true
            sampleChunk).run movedServer).effects,
        ServerEffect.IsApplication effect) ∧
      ¬ Agreement movedCodes := by
  refine ⟨by decide, by decide, ?_, ?_⟩
  · exact
      ⟨.invoke (.payload 1 1 sampleChunk), List.Mem.head _,
        trivial⟩
  · intro hAgreement
    have hCodes := (codes_of_agreement hAgreement).1
    revert hCodes
    decide

end OpcodeAgreement

end ObscuraProto
