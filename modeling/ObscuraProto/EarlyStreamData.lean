import ObscuraProto.StreamLifecycle
import ObscuraProto.WsServer.Pool
import ObscuraProto.WsClient.Pool

/-
  Stream data that comes before its handler.

  `start_stream` registers the stream and announces it to the
  peer before the application holds it.  The io thread finds
  such a stream, but `dispatch_data` drops the chunk unless
  the handler has been installed by then.

  Key definitions include:
    * `EarlyStreamData.ServerInPlace`
    * `EarlyStreamData.ClientInPlace`

  Key theorems include:
    * `EarlyStreamData.chunks_passed`
    * `EarlyStreamData.chunk_dropped`
-/

namespace ObscuraProto

namespace EarlyStreamData

open Effectful Threads

variable {S : Sodium}

------------------------------------------------------------
-- Chunks at a Server
------------------------------------------------------------

section Server

open WsServer

/- The thread has called the handler with the chunk. -/
def ServerPassed
    (h : HandlerId)
    (data : Bytes)
    (trace : WsServer.Trace) : Prop :=
  ∃ m ∈ trace,
    ServerEffect.invoke (.streamData h data) ∈ m.effects

/-
  The frame was such a chunk; when it was looked up, a stream
  was registered for it, and when the handler was read, the
  stream had it.
-/
inductive ServerInPlace
    (S : Sodium)
    (input : IoInput)
    (hdl : Hdl)
    (frame : Frame)
    (h : HandlerId)
    (data : Bytes) : WsServer.Trace → Prop
| intro
    {received dispatched found looked :
      Transition WsServer ServerEffect}
    {rest : WsServer.Trace}
    {isAuth : Bool}
    {payload : Payload}
    {streamId : UInt32}
    {ref : StreamRef}
    {stream : Stream ServerSendFn} :
    ((receive S input hdl frame.payload).run
        received.before).result =
      .ok (.decrypted isAuth payload) →
    Message.parse dispatched.before.config.opcodes payload =
      .ok (.streamData streamId data) →
    found.before.streams.find hdl streamId = some ref →
    looked.before.streams.objects[ref]? = some stream →
    stream.onData = some h →
      ServerInPlace S input hdl frame h data
        (received :: dispatched :: found :: looked :: rest)

/- The chunk is passed exactly when all is in place. -/
def ServerPasses
    (S : Sodium)
    (input : IoInput)
    (hdl : Hdl)
    (frame : Frame)
    (trace : WsServer.Trace) : Prop :=
  ∀ h data,
    ServerPassed h data trace ↔
      ServerInPlace S input hdl frame h data trace

/- No chunk is passed by a step with these effects. -/
def ServerQuiet (effects : List ServerEffect) : Prop :=
  ∀ h data,
    ServerEffect.invoke (.streamData h data) ∉ effects

theorem serverQuiet_of_moves
    {may : May}
    {α : Type}
    {act : ServerAction α}
    (hMoves : Moves S may act)
    (hNone :
      ∀ h data, ¬ may.invokes (.streamData h data)) :
    Ensures (fun _ effects _ => ServerQuiet effects) act := by
  refine hMoves.mono ?_
  intro w effects w' hMove h data hMem
  exact hNone h data (invokesOnly_of_move hMove _ hMem)

@[simp] theorem serverQuiet_nil : ServerQuiet [] := by
  intro h data hNever
  cases hNever

theorem not_serverPassed
    {trace : WsServer.Trace}
    (hQuiet : ∀ m ∈ trace, ServerQuiet m.effects)
    (h : HandlerId)
    (data : Bytes) :
    ¬ ServerPassed h data trace := by
  rintro ⟨m, hMem, hEffect⟩
  exact hQuiet m hMem h data hEffect

/- Only the last step counts when the others are quiet. -/
theorem serverPassed_snoc
    {trace : WsServer.Trace}
    (hQuiet : ∀ m ∈ trace, ServerQuiet m.effects)
    (last : Transition WsServer ServerEffect)
    (h : HandlerId)
    (data : Bytes) :
    ServerPassed h data (trace ++ [last]) ↔
      ServerEffect.invoke (.streamData h data) ∈
        last.effects := by
  constructor
  · rintro ⟨m, hMem, hEffect⟩
    rcases List.mem_append.mp hMem with hOld | hNew
    · exact absurd hEffect (hQuiet m hOld h data)
    · rw [List.mem_singleton.mp hNew] at hEffect
      exact hEffect
  · intro hEffect
    exact ⟨last, by simp, hEffect⟩

/- Such callbacks as do not pass a chunk. -/
def otherCallbacks : May where
  establishes := fun _ => True
  usesStreams := True
  requests := fun _ => True
  invokes := fun callback =>
    ∀ h data, callback ≠ .streamData h data

theorem otherCallbacks_quiet
    {α : Type}
    {act : ServerAction α}
    (hMoves : Moves S otherCallbacks act) :
    Ensures (fun _ effects _ => ServerQuiet effects) act :=
  serverQuiet_of_moves hMoves
    (fun _ _ hMay => hMay _ _ rfl)

theorem receive_quiet
    (S : Sodium)
    (input : IoInput)
    (hdl : Hdl)
    (packet : Bytes)
    (w : WsServer) :
    ServerQuiet
      ((receive S input hdl packet).run w).effects := by
  intro h data hMem
  rcases (receive_within S input hdl packet w).closes _ hMem
    with ⟨_, _, _, hClose⟩
  cases hClose

theorem receive_atomic
    (S : Sodium)
    (input : IoInput)
    (hdl : Hdl)
    (packet : Bytes) :
    receive S input hdl packet =
      Action.atomic (receive S input hdl packet).run := by
  unfold receive
  rw [Action.atomically]
  congr 1
  funext w
  rw [Action.run_atomic]

/- Nothing but a chunk is passed as one. -/
theorem otherMessage_quiet
    (S : Sodium)
    (input : IoInput)
    (hdl : Hdl)
    (isAuth : Bool)
    {message : Message}
    (hOther :
      ∀ streamId data,
        message ≠ .streamData streamId data) :
    Ensures (fun _ effects _ => ServerQuiet effects)
      (dispatchMessage S input hdl isAuth message) := by
  apply otherCallbacks_quiet (S := S)
  cases message with
  | response requestId response =>
      exact
        requestSection_moves S
          (s := .responds hdl requestId response) trivial
  | streamStart streamId opCode =>
      refine
        dispatchStreamStart_moves S trivial ?_ input hdl isAuth
          streamId opCode
      intro handler stream h data hNever
      cases hNever
  | streamData streamId data =>
      exact absurd rfl (hOther streamId data)
  | streamEnd streamId =>
      refine
        Ensures.bind (findStream_moves S _ _)
          (fun _ => dispatchStream_moves S ?_ _ _ _)
      intro handler h data hNever
      cases hNever
  | streamCancel streamId =>
      refine
        Ensures.bind (takeStream_moves S trivial _ _)
          (fun _ => dispatchStream_moves S ?_ _ _ _)
      intro handler h data hNever
      cases hNever
  | application payload =>
      refine dispatchPayload_moves S ?_ ?_ input isAuth payload
      · intro handler payload h data hNever
        cases hNever
      · intro handler reader h data hNever
        cases hNever

/- Short for: what the trace is like in the end. -/
abbrev ServerEnds
    {α : Type}
    (Q : WsServer.Trace → Prop)
    (trace : WsServer.Trace)
    (act : ServerAction α) : Prop :=
  Traces (fun _ => True) (fun _ _ _ _ => True) Q trace act

section Chunk

variable {input : IoInput}
variable {hdl : Hdl}
variable {frame : Frame}
variable {isAuth : Bool}
variable {payload : Payload}
variable {streamId : UInt32}
variable {data : Bytes}
variable {received dispatched :
  Transition WsServer ServerEffect}

/- What is in place, once the message has been parsed. -/
theorem serverInPlace_iff
    (hReceived :
      ((receive S input hdl frame.payload).run
          received.before).result =
        .ok (.decrypted isAuth payload))
    (hParsed :
      Message.parse dispatched.before.config.opcodes payload =
        .ok (.streamData streamId data))
    (found looked : Transition WsServer ServerEffect)
    (more : WsServer.Trace)
    (h : HandlerId)
    (data' : Bytes) :
    ServerInPlace S input hdl frame h data'
        (received :: dispatched :: found :: looked :: more) ↔
      data' = data ∧
        ((found.before.streams.find hdl streamId).bind
          (looked.before.streams.objects[·]?)).bind
            Stream.onData = some h := by
  constructor
  · intro hPlace
    cases hPlace with
    | intro hRead hParse hFind hObject hOnData =>
        rw [hReceived] at hRead
        cases hRead
        rw [hParsed] at hParse
        cases hParse
        simp [hFind, hObject, hOnData]
  · rintro ⟨rfl, hHandler⟩
    rcases Option.bind_eq_some_iff.mp hHandler with
      ⟨stream, hStream, hOnData⟩
    rcases Option.bind_eq_some_iff.mp hStream with
      ⟨ref, hRef, hObject⟩
    exact .intro hReceived hParsed hRef hObject hOnData

/- A chunk, once the message has been parsed. -/
theorem streamData_passes
    (hReceived :
      ((receive S input hdl frame.payload).run
          received.before).result =
        .ok (.decrypted isAuth payload))
    (hParsed :
      Message.parse dispatched.before.config.opcodes payload =
        .ok (.streamData streamId data))
    (hQuiet :
      ∀ m ∈ [received, dispatched], ServerQuiet m.effects) :
    ServerEnds (ServerPasses S input hdl frame)
      [received, dispatched]
      (Action.catchAll
        (dispatchMessage S input hdl isAuth
          (.streamData streamId data))
        (fun _ => return ())) := by
  refine
    .catch_atomic_bind (fun _ _ => trivial) ?_
      (fun _ _ _ hNever => by cases hNever)
  intro w ref _ hFound
  cases hFound
  refine
    .catch_atomic_bind (fun _ _ => trivial) ?_
      (fun _ _ _ hNever => by cases hNever)
  intro v _ _ hLooked
  cases hLooked
  have hQuiet' :
      ∀ m ∈ [received, dispatched, ⟨w, [], w⟩, ⟨v, [], v⟩],
        ServerQuiet m.effects := by
    simpa [serverQuiet_nil] using hQuiet
  dsimp only
  cases hHandler :
      ((w.streams.find hdl streamId).bind
        (v.streams.objects[·]?)).bind Stream.onData with
  | none =>
      refine .returned () ?_
      intro h data'
      refine
        iff_of_false (not_serverPassed hQuiet' h data') ?_
      intro hPlace
      have hNever :=
        ((serverInPlace_iff hReceived hParsed _ _ _ h
          data').mp hPlace).2
      dsimp only at hNever
      rw [hHandler] at hNever
      cases hNever
  | some handler =>
      have hPassed
          (u : WsServer) :
          ServerPasses S input hdl frame
            ([received, dispatched, ⟨w, [], w⟩,
                ⟨v, [], v⟩] ++
              [⟨u, [.invoke (.streamData handler data)],
                u⟩]) := by
        intro h data'
        refine Iff.trans ?_
          (serverInPlace_iff hReceived hParsed _ _ _ h
            data').symm
        rw [serverPassed_snoc hQuiet']
        dsimp only
        rw [hHandler]
        simp [and_comm, eq_comm]
      refine
        .catch_atomic_bind (fun _ _ => trivial) ?_
          (fun _ _ _ hNever => by cases hNever)
      intro u _ _ _
      cases input.callbackAnswer with
      | error e => exact .returned () (hPassed u)
      | ok a => exact .returned () (hPassed u)

/- Any message, once it has been parsed. -/
theorem message_passes
    {message : Message}
    (hReceived :
      ((receive S input hdl frame.payload).run
          received.before).result =
        .ok (.decrypted isAuth payload))
    (hParsed :
      Message.parse dispatched.before.config.opcodes payload =
        .ok message)
    (hQuiet :
      ∀ m ∈ [received, dispatched], ServerQuiet m.effects) :
    ServerEnds (ServerPasses S input hdl frame)
      [received, dispatched]
      (Action.catchAll
        (dispatchMessage S input hdl isAuth message)
        (fun _ => return ())) := by
  by_cases hChunk :
      ∃ streamId data, message = .streamData streamId data
  · rcases hChunk with ⟨streamId, data, rfl⟩
    exact streamData_passes hReceived hParsed hQuiet
  · have hOther
        (streamId : UInt32)
        (data : Bytes) :
        message ≠ .streamData streamId data :=
      fun hSame => hChunk ⟨streamId, data, hSame⟩
    refine
      .settled
        (Ensures.catchAll
          (otherMessage_quiet S input hdl isAuth hOther)
          (fun _ => Ensures.pure ()))
        (fun _ _ _ _ _ => trivial) ?_
    intro more hMore h data
    refine iff_of_false (not_serverPassed ?_ h data) ?_
    · exact List.forall_mem_append.mpr ⟨hQuiet, hMore⟩
    · intro hPlace
      cases hPlace with
      | intro hRead hParse =>
          rw [hReceived] at hRead
          cases hRead
          rw [hParsed] at hParse
          cases hParse
          exact hOther _ _ rfl

end Chunk

/- All of `on_message`. -/
theorem onMessage_passes
    (S : Sodium)
    (input : IoInput)
    (hdl : Hdl)
    (frame : Frame) :
    ServerEnds (ServerPasses S input hdl frame) []
      (onMessage S input hdl frame) := by
  have hShort
      {trace : WsServer.Trace}
      (hQuiet : ∀ m ∈ trace, ServerQuiet m.effects)
      (hNone :
        ∀ h data,
          ¬ ServerInPlace S input hdl frame h data trace) :
      ServerPasses S input hdl frame trace :=
    fun h data =>
      iff_of_false (not_serverPassed hQuiet h data)
        (hNone h data)
  unfold onMessage
  split
  · refine .returned () (hShort (by simp) ?_)
    intro h data hNever
    cases hNever
  · rw [receive_atomic]
    refine .atomic_bind (fun _ _ => trivial) ?_
    intro w received _ hReceived
    have hFirst :=
      receive_quiet S input hdl frame.payload w
    cases received with
    | ignored =>
        refine .returned () (hShort (by simpa using hFirst) ?_)
        intro h data hNever
        cases hNever
    | unknown =>
        refine
          .settled
            (C := fun _ effects _ => ServerQuiet effects) ?_
            (fun _ _ _ _ _ => trivial) ?_
        · apply otherCallbacks_quiet (S := S)
          refine
            Ensures.catchAll
              (handshake_moves S trivial (fun _ _ => trivial)
                ?_ input frame.payload)
              (fun _ => closeHdl_moves S _ _ _ _)
          intro handler clientPk h data hNever
          cases hNever
        · intro more hMore
          refine hShort ?_ ?_
          · exact List.forall_mem_cons.mpr ⟨hFirst, hMore⟩
          · intro h data hPlace
            cases hPlace with
            | intro hRead =>
                rw [hReceived] at hRead
                cases hRead
    | decrypted isAuth payload =>
        refine
          .catch_atomic_bind (fun _ _ => trivial) ?_
            (fun _ _ _ hNever => by cases hNever)
        intro v _ _ hRead
        cases hRead
        have hQuiet
            (m : Transition WsServer ServerEffect)
            (hMem :
              m ∈
                [⟨w,
                    ((receive S input hdl frame.payload).run
                      w).effects,
                    ((receive S input hdl frame.payload).run
                      w).state⟩,
                  (⟨v, [], v⟩ :
                    Transition WsServer ServerEffect)]) :
            ServerQuiet m.effects := by
          rcases List.mem_cons.mp hMem with hHere | hLater
          · rw [hHere]
            exact receive_quiet S input hdl frame.payload w
          · rw [List.mem_singleton.mp hLater]
            exact serverQuiet_nil
        refine .catch_ofExcept_bind ?_ ?_
        · intro message hParsed
          have hBranch :=
            message_passes hReceived hParsed hQuiet
          cases message <;> exact hBranch
        · intro e _
          refine .returned () (hShort hQuiet ?_)
          intro h data hNever
          cases hNever

/- In every run of the server. -/
theorem server_chunks
    {serverSignKey : KeyPair}
    {config : Config}
    {hasOwner : Bool}
    {labels : List (Label ServerCall IoEvent)}
    {p : ServerPool}
    (hRun :
      StateMachine.Run (WsServer.PoolStep S)
        (WsServer.pool (.new serverSignKey config hasOwner))
          labels p)
    {thread :
      Thread Exception ServerEffect WsServer IoEvent}
    {input : IoInput}
    {hdl : Hdl}
    {frame : Frame}
    (hThread : p.events = some thread)
    (hMessage : thread.call.val = .message input hdl frame)
    (hReturned : thread.code = .done (.ok ())) :
    ServerPasses S input hdl frame thread.trace := by
  have hEnds :
      ∀ thread, p.events = some thread →
        ∀ input hdl frame,
          thread.call.val = .message input hdl frame →
            ServerEnds (ServerPasses S input hdl frame)
              thread.trace thread.code := by
    refine
      hRun.invariant
        (P := fun (p : ServerPool) =>
          ∀ thread, p.events = some thread →
            ∀ input hdl frame,
              thread.call.val = .message input hdl frame →
                ServerEnds (ServerPasses S input hdl frame)
                  thread.trace thread.code) ?_ ?_
    · intro q l q' hBefore hStep
      refine Pool.forall_event_step ?_ ?_ hBefore hStep
      · intro event _ input hdl frame hCall
        simp only at hCall
        simp only [WsServer.poolProgram, hCall]
        exact onMessage_passes S input hdl frame
      · intro thread effects next rest hCode hHolds input hdl
          frame hCall
        have hNow := hHolds input hdl frame hCall
        rw [hCode] at hNow
        cases hNow with
        | step _ hRest => exact hRest q.shared trivial
    · intro thread hNone
      cases hNone
  have hEnd := hEnds thread hThread input hdl frame hMessage
  rw [hReturned] at hEnd
  cases hEnd with
  | returned _ hPasses => exact hPasses

end Server

------------------------------------------------------------
-- Chunks at a Client
------------------------------------------------------------

section Client

open WsClient

/- The thread has called the handler with the chunk. -/
def ClientPassed
    (h : HandlerId)
    (data : Bytes)
    (trace : WsClient.Trace) : Prop :=
  ∃ m ∈ trace,
    ClientEffect.invoke (.streamData h data) ∈ m.effects

/-
  The frame was such a chunk; when it was looked up, a stream
  was registered for it, and when the handler was read, the
  stream had it.
-/
inductive ClientInPlace
    (S : Sodium)
    (frame : Frame)
    (h : HandlerId)
    (data : Bytes) : WsClient.Trace → Prop
| intro
    {first decrypted checked dispatched found looked :
      Transition WsClient ClientEffect}
    {rest : WsClient.Trace}
    {payload : Payload}
    {streamId : UInt32}
    {ref : StreamRef}
    {stream : Stream Unit} :
    first.before.session.isHandshakeComplete = true →
    (decrypted.before.session.decryptPacket S
        frame.payload).1 = .ok payload →
    checked.before.config.payloadTooLarge payload = false →
    Message.parse dispatched.before.config.opcodes payload =
      .ok (.streamData streamId data) →
    found.before.streams.find streamId = some ref →
    looked.before.streams.objects[ref]? = some stream →
    stream.onData = some h →
      ClientInPlace S frame h data
        (first :: decrypted :: checked :: dispatched ::
          found :: looked :: rest)

/- The chunk is passed exactly when all is in place. -/
def ClientPasses
    (S : Sodium)
    (frame : Frame)
    (trace : WsClient.Trace) : Prop :=
  ∀ h data,
    ClientPassed h data trace ↔
      ClientInPlace S frame h data trace

/- No chunk is passed by a step with these effects. -/
def ClientQuiet (effects : List ClientEffect) : Prop :=
  ∀ h data,
    ClientEffect.invoke (.streamData h data) ∉ effects

@[simp] theorem clientQuiet_nil : ClientQuiet [] := by
  intro h data hNever
  cases hNever

theorem not_clientPassed
    {trace : WsClient.Trace}
    (hQuiet : ∀ m ∈ trace, ClientQuiet m.effects)
    (h : HandlerId)
    (data : Bytes) :
    ¬ ClientPassed h data trace := by
  rintro ⟨m, hMem, hEffect⟩
  exact hQuiet m hMem h data hEffect

/- Only one step counts when the others are quiet. -/
theorem clientPassed_only
    {before after : WsClient.Trace}
    (hBefore : ∀ m ∈ before, ClientQuiet m.effects)
    (hAfter : ∀ m ∈ after, ClientQuiet m.effects)
    (m : Transition WsClient ClientEffect)
    (h : HandlerId)
    (data : Bytes) :
    ClientPassed h data (before ++ m :: after) ↔
      ClientEffect.invoke (.streamData h data) ∈
        m.effects := by
  constructor
  · rintro ⟨m', hMem, hEffect⟩
    rcases List.mem_append.mp hMem with hOld | hLater
    · exact absurd hEffect (hBefore m' hOld h data)
    · rcases List.mem_cons.mp hLater with hHere | hNew
      · rw [hHere] at hEffect
        exact hEffect
      · exact absurd hEffect (hAfter m' hNew h data)
  · intro hEffect
    exact ⟨m, by simp, hEffect⟩

/- Such callbacks as do not pass a chunk. -/
def otherClientCallbacks : ClientMay where
  encrypts := True
  finalizes := True
  ends := True
  usesStreams := True
  requests := fun _ => True
  invokes := fun callback =>
    ∀ h data, callback ≠ .streamData h data

theorem otherClientCallbacks_quiet
    {α : Type}
    {act : ClientAction α}
    (hMoves : Moves S otherClientCallbacks act) :
    Ensures (fun _ effects _ => ClientQuiet effects) act := by
  refine hMoves.mono ?_
  intro w effects w' hMove h data hMem
  exact invokesOnly_of_move hMove _ hMem h data rfl

theorem disconnect_quiet :
    Ensures (fun _ effects _ => ClientQuiet effects)
      (disconnect true) :=
  otherClientCallbacks_quiet (S := plainSodium)
    (disconnect_moves _ trivial trivial true)

/- Nothing but a chunk is passed as one. -/
theorem otherClientMessage_quiet
    (S : Sodium)
    (input : ClientInput)
    {message : Message}
    (hOther :
      ∀ streamId data,
        message ≠ .streamData streamId data) :
    Ensures (fun _ effects _ => ClientQuiet effects)
      (dispatchMessage S input message) := by
  apply otherClientCallbacks_quiet (S := S)
  cases message with
  | response requestId response =>
      exact
        requestSection_moves S
          (s := .responds requestId response) trivial
  | streamStart streamId opCode =>
      refine
        dispatchStreamStart_moves S trivial ?_ input streamId
          opCode
      intro handler stream h data hNever
      cases hNever
  | streamData streamId data =>
      exact absurd rfl (hOther streamId data)
  | streamEnd streamId =>
      refine
        Ensures.bind (findStream_moves S _)
          (fun _ => dispatchStream_moves S ?_ _ _ _)
      intro handler h data hNever
      cases hNever
  | streamCancel streamId =>
      refine
        Ensures.bind (takeStream_moves S trivial _)
          (fun _ => dispatchStream_moves S ?_ _ _ _)
      intro handler h data hNever
      cases hNever
  | application payload =>
      refine dispatchPayload_moves S trivial ?_ ?_ input payload
      · intro handler payload h data hNever
        cases hNever
      · intro handler reader h data hNever
        cases hNever

/- Short for: what the trace is like in the end. -/
abbrev ClientEnds
    {α : Type}
    (Q : WsClient.Trace → Prop)
    (trace : WsClient.Trace)
    (act : ClientAction α) : Prop :=
  Traces (fun _ => True) (fun _ _ _ _ => True) Q trace act

section Chunk

variable {frame : Frame}
variable {payload : Payload}
variable {streamId : UInt32}
variable {data : Bytes}
variable {first decrypted checked dispatched :
  Transition WsClient ClientEffect}

/- From here on the thread is quiet, and no chunk was read. -/
theorem clientPasses_quiet
    {α : Type}
    {trace : WsClient.Trace}
    {act : ClientAction α}
    (hQuiet : ∀ m ∈ trace, ClientQuiet m.effects)
    (hAct :
      Ensures (fun _ effects _ => ClientQuiet effects) act)
    (hNone :
      ∀ more h data,
        ¬ ClientInPlace S frame h data (trace ++ more)) :
    ClientEnds (ClientPasses S frame) trace act := by
  refine .settled hAct (fun _ _ _ _ _ => trivial) ?_
  intro more hMore h data
  refine iff_of_false (not_clientPassed ?_ h data) ?_
  · exact List.forall_mem_append.mpr ⟨hQuiet, hMore⟩
  · exact hNone more h data

/- What is in place, once the message has been parsed. -/
theorem clientInPlace_iff
    (hComplete :
      first.before.session.isHandshakeComplete = true)
    (hDecrypted :
      (decrypted.before.session.decryptPacket S
          frame.payload).1 = .ok payload)
    (hFits :
      checked.before.config.payloadTooLarge payload = false)
    (hParsed :
      Message.parse dispatched.before.config.opcodes payload =
        .ok (.streamData streamId data))
    (found looked : Transition WsClient ClientEffect)
    (more : WsClient.Trace)
    (h : HandlerId)
    (data' : Bytes) :
    ClientInPlace S frame h data'
        (first :: decrypted :: checked :: dispatched ::
          found :: looked :: more) ↔
      data' = data ∧
        ((found.before.streams.find streamId).bind
          (looked.before.streams.objects[·]?)).bind
            Stream.onData = some h := by
  constructor
  · intro hPlace
    cases hPlace with
    | intro _ hPayload _ hParse hFind hObject hOnData =>
        rw [hDecrypted] at hPayload
        cases hPayload
        rw [hParsed] at hParse
        cases hParse
        simp [hFind, hObject, hOnData]
  · rintro ⟨rfl, hHandler⟩
    rcases Option.bind_eq_some_iff.mp hHandler with
      ⟨stream, hStream, hOnData⟩
    rcases Option.bind_eq_some_iff.mp hStream with
      ⟨ref, hRef, hObject⟩
    exact
      .intro hComplete hDecrypted hFits hParsed hRef hObject
        hOnData

/- Any message, once it has been parsed. -/
theorem clientMessage_passes
    (input : ClientInput)
    {message : Message}
    (hComplete :
      first.before.session.isHandshakeComplete = true)
    (hDecrypted :
      (decrypted.before.session.decryptPacket S
          frame.payload).1 = .ok payload)
    (hFits :
      checked.before.config.payloadTooLarge payload = false)
    (hParsed :
      Message.parse dispatched.before.config.opcodes payload =
        .ok message)
    (hQuiet :
      ∀ m ∈ [first, decrypted, checked, dispatched],
        ClientQuiet m.effects) :
    ClientEnds (ClientPasses S frame)
      [first, decrypted, checked, dispatched]
      (Action.catchAll (dispatchMessage S input message)
        (fun _ => disconnect true)) := by
  by_cases hChunk :
      ∃ streamId data, message = .streamData streamId data
  · rcases hChunk with ⟨streamId, data, rfl⟩
    refine
      .catch_atomic_bind (fun _ _ => trivial) ?_
        (fun _ _ _ hNever => by cases hNever)
    intro w ref _ hFound
    cases hFound
    refine
      .catch_atomic_bind (fun _ _ => trivial) ?_
        (fun _ _ _ hNever => by cases hNever)
    intro v _ _ hLooked
    cases hLooked
    have hQuiet' :
        ∀ m ∈
            [first, decrypted, checked, dispatched,
              ⟨w, [], w⟩, ⟨v, [], v⟩],
          ClientQuiet m.effects := by
      simpa using hQuiet
    have hIff (more : WsClient.Trace) :=
      clientInPlace_iff hComplete hDecrypted hFits hParsed
        ⟨w, [], w⟩ ⟨v, [], v⟩ more
    dsimp only at hIff ⊢
    cases hHandler :
        ((w.streams.find streamId).bind
          (v.streams.objects[·]?)).bind Stream.onData with
    | none =>
        rw [hHandler] at hIff
        refine
          clientPasses_quiet hQuiet'
            (Ensures.catchAll (Ensures.pure ())
              (fun _ => disconnect_quiet)) ?_
        intro more h data' hPlace
        cases ((hIff more h data').mp hPlace).2
    | some handler =>
        rw [hHandler] at hIff
        refine
          .catch_atomic_bind (fun _ _ => trivial) ?_
            (fun _ _ _ hNever => by cases hNever)
        intro u _ _ _
        refine
          .settled
            (Ensures.catchAll (Ensures.ofExcept _)
              (fun _ => disconnect_quiet))
            (fun _ _ _ _ _ => trivial) ?_
        intro more hMore h data'
        refine Iff.trans ?_ (hIff (_ :: more) h data').symm
        simp only [List.cons_append, List.nil_append]
        refine
          (clientPassed_only hQuiet' hMore
            ⟨u, [.invoke (.streamData handler data)], u⟩ h
            data').trans ?_
        simp [and_comm, eq_comm]
  · have hOther
        (streamId : UInt32)
        (data : Bytes) :
        message ≠ .streamData streamId data :=
      fun hSame => hChunk ⟨streamId, data, hSame⟩
    refine
      clientPasses_quiet hQuiet
        (Ensures.catchAll
          (otherClientMessage_quiet S input hOther)
          (fun _ => disconnect_quiet)) ?_
    intro more h data hPlace
    cases hPlace with
    | intro _ hPayload _ hParse =>
        rw [hDecrypted] at hPayload
        cases hPayload
        rw [hParsed] at hParse
        cases hParse
        exact hOther _ _ rfl

/- What follows the decryption. -/
theorem clientPayload_passes
    (input : ClientInput)
    (hComplete :
      first.before.session.isHandshakeComplete = true)
    (hDecrypted :
      (decrypted.before.session.decryptPacket S
          frame.payload).1 = .ok payload)
    (hQuiet :
      ∀ m ∈ [first, decrypted], ClientQuiet m.effects) :
    ClientEnds (ClientPasses S frame) [first, decrypted]
      (Action.catchAll
        (do
          let w ← Action.get
          if w.config.payloadTooLarge payload then
            disconnect true
          else
            dispatch S input payload)
        (fun _ => disconnect true)) := by
  refine
    .catch_atomic_bind (fun _ _ => trivial) ?_
      (fun _ _ _ hNever => by cases hNever)
  intro checked _ _ hRead
  cases hRead
  split
  · next hLarge =>
      refine
        clientPasses_quiet (by simpa using hQuiet)
          (Ensures.catchAll disconnect_quiet
            (fun _ => disconnect_quiet)) ?_
      intro more h data hPlace
      cases hPlace with
      | intro _ hPayload hFits =>
          rw [hDecrypted] at hPayload
          cases hPayload
          rw [hLarge] at hFits
          cases hFits
  · next hFits =>
      refine
        .catch_atomic_bind (fun _ _ => trivial) ?_
          (fun _ _ _ hNever => by cases hNever)
      intro dispatched _ _ hRead
      cases hRead
      refine .catch_ofExcept_bind ?_ ?_
      · intro message hParsed
        have hBranch :
            ClientEnds (ClientPasses S frame)
              [first, decrypted, ⟨checked, [], checked⟩,
                ⟨dispatched, [], dispatched⟩] _ :=
          clientMessage_passes input hComplete hDecrypted
            (by simpa using hFits) hParsed
            (by simpa using hQuiet)
        cases message <;> exact hBranch
      · intro e hParsed
        refine
          clientPasses_quiet (by simpa using hQuiet)
            disconnect_quiet ?_
        intro more h data hPlace
        cases hPlace with
        | intro _ hPayload _ hParse =>
            rw [hDecrypted] at hPayload
            cases hPayload
            rw [hParsed] at hParse
            cases hParse

end Chunk

/- All of `on_message`. -/
theorem client_onMessage_passes
    (S : Sodium)
    (input : ClientInput)
    (frame : Frame) :
    ClientEnds (ClientPasses S frame) []
      (onMessage S input frame) := by
  unfold onMessage
  split
  · refine .returned () ?_
    intro h data
    refine iff_of_false (not_clientPassed (by simp) h data) ?_
    intro hNever
    cases hNever
  · refine
      .catch_atomic_bind (fun _ _ => trivial) ?_
        (fun _ _ _ hNever => by cases hNever)
    intro first _ _ hRead
    cases hRead
    split
    · next hIncomplete =>
        refine
          clientPasses_quiet (by simp)
            (Ensures.catchAll ?_ (fun _ => disconnect_quiet)) ?_
        · apply otherClientCallbacks_quiet (S := S)
          refine finishHandshake_moves S trivial ?_ input _
          intro handler h data hNever
          cases hNever
        · intro more h data hPlace
          cases hPlace with
          | intro hComplete =>
              rw [hComplete] at hIncomplete
              cases hIncomplete
    · next hComplete =>
        have hComplete' :
            first.session.isHandshakeComplete = true := by
          simpa using hComplete
        refine .catch_atomic_bind (fun _ _ => trivial) ?_ ?_
        · intro decrypted payload _ hDecrypted
          exact
            clientPayload_passes input hComplete' hDecrypted
              (by simp)
        · intro decrypted e _ hFails
          have hDecrypted :
              (decrypted.session.decryptPacket S
                  frame.payload).1 = .error e :=
            hFails
          refine
            clientPasses_quiet (by simp) disconnect_quiet ?_
          intro more h data hPlace
          cases hPlace with
          | intro _ hPayload =>
              rw [hDecrypted] at hPayload
              cases hPayload

/- In every run of the client. -/
theorem client_chunks
    {serverSignKey : KeyPair}
    {config : Config}
    {hasOwner : Bool}
    {labels : List (Label ClientCall ClientIoEvent)}
    {p : ClientPool}
    (hRun :
      StateMachine.Run (WsClient.PoolStep S)
        (WsClient.pool (.new serverSignKey config hasOwner))
          labels p)
    {thread :
      Thread Exception ClientEffect WsClient ClientIoEvent}
    {input : ClientInput}
    {frame : Frame}
    (hThread : p.events = some thread)
    (hMessage : thread.call.val = .message input frame)
    (hReturned : thread.code = .done (.ok ())) :
    ClientPasses S frame thread.trace := by
  have hEnds :
      ∀ thread, p.events = some thread →
        ∀ input frame,
          thread.call.val = .message input frame →
            ClientEnds (ClientPasses S frame) thread.trace
              thread.code := by
    refine
      hRun.invariant
        (P := fun (p : ClientPool) =>
          ∀ thread, p.events = some thread →
            ∀ input frame,
              thread.call.val = .message input frame →
                ClientEnds (ClientPasses S frame)
                  thread.trace thread.code) ?_ ?_
    · intro q l q' hBefore hStep
      refine Pool.forall_event_step ?_ ?_ hBefore hStep
      · intro event _ input frame hCall
        simp only at hCall
        simp only [WsClient.poolProgram, hCall]
        exact client_onMessage_passes S input frame
      · intro thread effects next rest hCode hHolds input
          frame hCall
        have hNow := hHolds input frame hCall
        rw [hCode] at hNow
        cases hNow with
        | step _ hRest => exact hRest q.shared trivial
    · intro thread hNone
      cases hNone
  have hEnd := hEnds thread hThread input frame hMessage
  rw [hReturned] at hEnd
  cases hEnd with
  | returned _ hPasses => exact hPasses

end Client

------------------------------------------------------------
-- Both Wrappers
------------------------------------------------------------

/-
  In every run of either wrapper, a message that has been
  handled has passed a chunk to a handler exactly when the
  stream was registered and had that handler as the io thread
  looked for them.
-/
theorem chunks_passed :
    (∀ (serverSignKey : KeyPair) (config : Config)
        (hasOwner : Bool)
        (labels : List (Label WsServer.ServerCall IoEvent))
        (p : WsServer.ServerPool)
        (thread :
          Thread Exception ServerEffect WsServer IoEvent)
        (input : IoInput) (hdl : Hdl) (frame : Frame),
      StateMachine.Run (WsServer.PoolStep S)
          (WsServer.pool (.new serverSignKey config hasOwner))
          labels p →
        p.events = some thread →
          thread.call.val = .message input hdl frame →
            thread.code = .done (.ok ()) →
              ServerPasses S input hdl frame thread.trace) ∧
      ∀ (serverSignKey : KeyPair) (config : Config)
        (hasOwner : Bool)
        (labels : List (Label ClientCall ClientIoEvent))
        (p : WsClient.ClientPool)
        (thread :
          Thread Exception ClientEffect WsClient
            ClientIoEvent)
        (input : ClientInput) (frame : Frame),
      StateMachine.Run (WsClient.PoolStep S)
          (WsClient.pool (.new serverSignKey config hasOwner))
          labels p →
        p.events = some thread →
          thread.call.val = .message input frame →
            thread.code = .done (.ok ()) →
              ClientPasses S frame thread.trace := by
  constructor
  · intro serverSignKey config hasOwner labels p thread input
      hdl frame hRun hThread hMessage hReturned
    exact server_chunks hRun hThread hMessage hReturned
  · intro serverSignKey config hasOwner labels p thread input
      frame hRun hThread hMessage hReturned
    exact client_chunks hRun hThread hMessage hReturned

------------------------------------------------------------
-- A Chunk Before Its Handler
------------------------------------------------------------

open PlainSodium WsServer StreamLifecycle

def chunkInput : IoInput := .smooth (sampleKx 1)

/- The peer's first chunk on the stream with the id 1. -/
def chunkFrame : Frame where
  payload :=
    Crypto.packet plainSodium sampleNonce
      { opCode := OpCode.streamData
        parameters := [0, 4, 0, 0, 0, 1, 0, 1, 7] }
      1
      (sessionKey 1 (List.replicate 32 1)
        (List.replicate 32 1))

/- `start_stream` has returned, the handler is set later. -/
def started : List (Label ServerCall IoEvent) :=
  [.event (IoEvent.hello 1 1)] ++
    List.replicate 20 .stepEvent ++
    [.call (.method (.startStream sampleNonce 1))] ++
    List.replicate 10 (.stepCall 0)

def chunkArrives : List (Label ServerCall IoEvent) :=
  .event ⟨.message chunkInput 1 chunkFrame, rfl⟩ ::
    List.replicate 10 .stepEvent

def handlerSet : List (Label ServerCall IoEvent) :=
  [.call (.method (.register (.dataHandler 0) (some 9))),
    .stepCall 1]

def after (labels : List (Label ServerCall IoEvent)) :
    ServerPool :=
  labels.foldl (Pool.exec (poolProgram plainSodium))
    (pool (.new (sampleKeyPair 6) unlimited true))

/- The chunks that the steps have passed. -/
def passedIn (trace : WsServer.Trace) : List Bytes :=
  (trace.flatMap Transition.effects).filterMap (fun
    | .invoke (.streamData _ data) => some data
    | _ => none)

theorem not_passed
    {trace : WsServer.Trace}
    (hNone : passedIn trace = [])
    (h : HandlerId)
    (data : Bytes) :
    ¬ ServerPassed h data trace := by
  rintro ⟨m, hMem, hEffect⟩
  have hData : data ∈ passedIn trace := by
    refine
      List.mem_filterMap.mpr
        ⟨.invoke (.streamData h data), ?_, rfl⟩
    exact List.mem_flatMap.mpr ⟨m, hMem, hEffect⟩
  rw [hNone] at hData
  cases hData

theorem run_after
    (labels : List (Label ServerCall IoEvent))
    (hAllowed :
      StateMachine.Allowed
        (fun (p : ServerPool) l => p.allowed l = true)
        (Pool.exec (poolProgram plainSodium))
        (pool (.new (sampleKeyPair 6) unlimited true)) labels) :
    StateMachine.Run (PoolStep plainSodium)
      (pool (.new (sampleKeyPair 6) unlimited true)) labels
      (after labels) :=
  StateMachine.run_of_allowed
    (fun (p : ServerPool) l => p.allowed l = true)
    (Pool.exec (poolProgram plainSodium))
    (pool (.new (sampleKeyPair 6) unlimited true)) labels hAllowed

def prompt : ServerPool :=
  after (started ++ handlerSet ++ chunkArrives)

/- With the handler in place the chunk is passed to it. -/
set_option maxRecDepth 8000 in
theorem chunks_passed_prompt :
    ∃ thread,
      prompt.events = some thread ∧
        passedIn thread.trace = [[7]] ∧
          ServerPasses plainSodium chunkInput 1 chunkFrame
            thread.trace := by
  rcases returned_of (p := prompt) (by decide) with
    ⟨thread, hThread, hCode⟩
  have hCall :
      thread.call.val = .message chunkInput 1 chunkFrame := by
    have hEvent :
        prompt.events.map (fun t => t.call.val) =
          some (.message chunkInput 1 chunkFrame) := rfl
    rw [hThread] at hEvent
    injection hEvent
  have hPassed : passedIn thread.trace = [[7]] := by
    have hEvent :
        prompt.events.map (fun t => passedIn t.trace) =
          some [[7]] := by
      decide
    rw [hThread] at hEvent
    injection hEvent
  refine ⟨thread, hThread, hPassed, ?_⟩
  exact
    chunks_passed.1 (sampleKeyPair 6) unlimited true _ prompt
      thread chunkInput 1 chunkFrame (run_after _ (by decide)) hThread
      hCall hCode

/-
  The chunk comes after `start_stream` has returned and is
  handled before the handler is set as the next step.
-/
set_option maxRecDepth 8000 in
theorem chunk_dropped :
    let p := after (started ++ chunkArrives ++ handlerSet)
    StateMachine.Run (PoolStep plainSodium)
        (pool (.new (sampleKeyPair 6) unlimited true))
        (started ++ chunkArrives ++ handlerSet) p ∧
      readMessage plainSodium chunkInput 1 chunkFrame
          (after started).shared =
        some (true, .streamData 1 [7]) ∧
      (after started).shared.streams.find 1 1 = some 0 ∧
      (p.shared.streams.objects[0]?).bind Stream.onData =
          some 9 ∧
        ∀ h data, ¬ ServerPassed h data p.history := by
  refine ⟨run_after _ (by decide), by decide, by decide,
    by decide, not_passed (by decide)⟩

end EarlyStreamData

end ObscuraProto
