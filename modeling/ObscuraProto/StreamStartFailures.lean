import ObscuraProto.StreamLifecycle
import ObscuraProto.WsServer.Pool
import ObscuraProto.WsClient.Pool

/-
  Calls of `start_stream` that throw.

  Both wrappers register a new stream before they look at the
  session that has to announce it, and leave it registered if
  the announcement fails.  A call keeps its tables on failure
  just if it does not fail.

  Key definitions include:
    * `StreamStartFailures.StrongGuarantee`
    * `StreamStartFailures.ServerAtomic`
    * `StreamStartFailures.ClientAtomic`
    * `StreamStartFailures.ClientAnnounces`

  Key theorems include:
    * `StreamStartFailures.start_stream_atomic`
    * `StreamStartFailures.start_stream_leftover`
-/

namespace ObscuraProto

namespace StreamStartFailures

open Effectful StateMachine

------------------------------------------------------------
-- Atomic Failure
------------------------------------------------------------

section StrongGuarantee

variable {ε χ σ τ α : Type}

/- If the action throws, what is observed is as before. -/
def StrongGuarantee
    (observe : σ → τ)
    (act : Action ε χ σ α)
    (s : σ) : Prop :=
  ∀ e, (act.run s).result = .error e →
    observe (act.run s).state = observe s

/- An action that changes it anyway must not throw. -/
theorem strongGuarantee_iff
    {observe : σ → τ}
    {act : Action ε χ σ α}
    {s : σ}
    (hChanges : observe (act.run s).state ≠ observe s) :
    StrongGuarantee observe act s ↔
      (act.run s).result.isOk = true := by
  unfold StrongGuarantee
  cases (act.run s).result with
  | ok a => simp [Except.isOk, Except.toBool]
  | error e =>
      constructor
      · intro hSame
        exact absurd (hSame e rfl) hChanges
      · intro hOk
        cases hOk

end StrongGuarantee

/- The table of all connections, and that of the client. -/
def ServerAtomic
    (act : ServerAction StreamRef)
    (w : WsServer) : Prop :=
  StrongGuarantee
    (fun w => w.streams.perConnectionStreams) act w

def ClientAtomic
    (act : ClientAction StreamRef)
    (w : WsClient) : Prop :=
  StrongGuarantee (fun w => w.streams.activeStreams) act w

/- A connected client whose STREAM_START is not too long. -/
def ClientAnnounces
    (opCode : Option OpCode)
    (w : WsClient) : Prop :=
  w.isReady = true ∧
    ∀ start : Payload,
      streamStartPayload w.config.opcodes
          (w.nextOutgoingStreamId * 2) opCode =
          .ok start →
        w.config.payloadTooLarge start = false

------------------------------------------------------------
-- Started Streams
------------------------------------------------------------

/- A new object is found under its key, so a table changes. -/
theorem find_ne_of_add
    {K U V : Type}
    [DecidableEq K]
    {t t' : Registry.Table K}
    {k : K}
    (hSound : t.Sound)
    (hAdd : t' = t.exec (.add k : Registry.Act K U V)) :
    t'.find k ≠ t.find k := by
  intro hSame
  have hNew : t'.find k = some t.size := by
    rw [hAdd]
    exact if_pos rfl
  rw [hNew] at hSame
  exact absurd (hSound.added k _ hSame.symm) (lt_irrefl _)

variable (S : Sodium)

theorem server_changes
    {act : ServerAction StreamRef}
    {w : WsServer}
    {k : WsServer.StreamKey}
    (hSound : (WsServer.streamTable w).Sound)
    (hAdd :
      WsServer.streamTable (act.run w).state =
        (WsServer.streamTable w).exec
          (.add k : StreamAct WsServer.StreamKey)) :
    (act.run w).state.streams.perConnectionStreams ≠
      w.streams.perConnectionStreams := by
  intro hSame
  apply find_ne_of_add hSound hAdd
  unfold WsServer.streamTable StreamTable.find
  simp only [hSame]

theorem client_changes
    {act : ClientAction StreamRef}
    {w : WsClient}
    {streamId : UInt32}
    (hSound : (WsClient.streamTable w).Sound)
    (hAdd :
      WsClient.streamTable (act.run w).state =
        (WsClient.streamTable w).exec
          (.add streamId : StreamAct UInt32)) :
    (act.run w).state.streams.activeStreams ≠
      w.streams.activeStreams := by
  intro hSame
  apply find_ne_of_add hSound hAdd
  unfold WsClient.streamTable ClientStreamTable.find
  simp only [hSame]

------------------------------------------------------------
-- Whether a Start Throws
------------------------------------------------------------

theorem isOk_bind_pure
    {ε χ σ α β : Type}
    (act : Action ε χ σ α)
    (b : β)
    (s : σ) :
    ((act >>= fun _ => pure b).run s).result.isOk =
      (act.run s).result.isOk := by
  rw [Action.run_bind]
  cases (act.run s).result <;> rfl

/- A send throws if the connection has no ready session. -/
theorem server_send_isOk
    (nonce : Nonce)
    (hdl : Hdl)
    (payload : Payload)
    (w : WsServer) :
    ((WsServer.send S nonce hdl payload).run
        w).result.isOk =
      (w.sessionTable.ready hdl).isSome := by
  unfold WsServer.send WsServer.sessionSection
    SessionTable.send
  cases hReady : w.sessionTable.ready hdl with
  | none =>
      simp only [Action.run_atomic, hReady]
      rfl
  | some found =>
      simp only [Action.run_atomic, hReady]
      rfl

/- Taking an id and registering a stream always succeed. -/
theorem server_start_isOk
    (hdl : Hdl)
    (stream : UInt32 → Stream ServerSendFn)
    {rest : UInt32 → StreamRef → ServerAction StreamRef}
    {w : WsServer}
    {b : Bool}
    (hRest :
      ∀ (streamId : UInt32) (ref : StreamRef) (v : WsServer),
        v.sessionTable = w.sessionTable →
          ((rest streamId ref).run v).result.isOk = b) :
    ((WsServer.takeStreamId >>= fun streamId =>
        WsServer.registerStream hdl (stream streamId) >>=
          rest streamId).run w).result.isOk = b := by
  have hTake :
      WsServer.takeStreamId.run w =
        { result := .ok (w.nextOutgoingStreamId * 2 + 1)
          effects := []
          state :=
            { w with
              nextOutgoingStreamId :=
                w.nextOutgoingStreamId + 1 } } :=
    rfl
  rw [Action.run_bind_ok hTake]
  generalize w.nextOutgoingStreamId * 2 + 1 = streamId
  generalize hNext :
    ({ w with
      nextOutgoingStreamId :=
        w.nextOutgoingStreamId + 1 } : WsServer) = w₁
  have hRegister :
      (WsServer.registerStream hdl (stream streamId)).run w₁ =
        { result := .ok w₁.streams.objects.length
          effects := []
          state :=
            { w₁ with
              streams :=
                (w₁.streams.register hdl
                  (stream streamId)).2 } } :=
    rfl
  rw [Action.run_bind_ok hRegister]
  apply hRest
  rw [← hNext]

theorem startStream_isOk
    (nonce : Nonce)
    (hdl : Hdl)
    (w : WsServer) :
    ((WsServer.startStream S nonce hdl).run
        w).result.isOk =
      (w.sessionTable.ready hdl).isSome := by
  apply server_start_isOk
  intro streamId ref v hTable
  simp only [Action.run_get_bind, streamStartPayload_eq,
    Action.run_ofExcept_ok_bind]
  rw [isOk_bind_pure, server_send_isOk, hTable]

/- A ready session is stored, so the lookup finds one. -/
theorem selectedVersion_of_ready
    {hdl : Hdl}
    {t : SessionTable}
    (hReady : (t.ready hdl).isSome = true) :
    (t.selectedVersion hdl).isSome = true := by
  rcases Option.isSome_iff_exists.mp hReady with
    ⟨⟨isAuth, state⟩, hFound⟩
  have hStored := (SessionTable.ready_eq_some hFound).1
  unfold SessionTable.selectedVersion
  cases hAuth : t.sessions[hdl]? with
  | some state => rfl
  | none =>
      cases isAuth with
      | true =>
          have hSome : t.sessions[hdl]? = some state := hStored
          rw [hAuth] at hSome
          cases hSome
      | false =>
          have hSome : t.anonSessions[hdl]? = some state :=
            hStored
          simp only [hSome, Option.isSome_some]

theorem startStreamWith_isOk
    (nonce : Nonce)
    (hdl : Hdl)
    (streamOpCode : OpCode)
    (w : WsServer) :
    ((WsServer.startStreamWith S nonce hdl streamOpCode).run
        w).result.isOk =
      (w.sessionTable.ready hdl).isSome := by
  apply server_start_isOk
  intro streamId ref v hTable
  rw [Action.run_get_bind, hTable]
  cases hVersion : w.sessionTable.selectedVersion hdl with
  | none =>
      -- Without a stored session there is no ready one.
      have hNone :
          (w.sessionTable.ready hdl).isSome = false := by
        by_contra hReady
        have hSome :=
          selectedVersion_of_ready (Bool.not_eq_false _ ▸ hReady)
        rw [hVersion] at hSome
        cases hSome
      rw [hNone]
      rfl
  | some version =>
      simp only [streamStartPayload_eq,
        Action.run_ofExcept_ok_bind]
      rw [isOk_bind_pure, server_send_isOk, hTable]

------------------------------------------------------------
-- The Client
------------------------------------------------------------

/- A handler that only returns leaves nothing thrown. -/
theorem recover_isOk
    {ε α : Type}
    (a : α)
    (x : Except ε α) :
    (Action.recover a x).isOk = true := by
  cases x <;> rfl

/- A send throws before it has encrypted anything. -/
theorem client_send_isOk
    (nonce : Nonce)
    (payload : Payload)
    (w : WsClient) :
    ((WsClient.send S nonce payload).run w).result.isOk =
      (w.isReady && !w.config.payloadTooLarge payload) := by
  unfold WsClient.send
  rw [Action.run_get_bind]
  unfold WsClient.checkSend
  cases hReady : w.isReady with
  | false => rfl
  | true =>
      cases hLarge : w.config.payloadTooLarge payload with
      | true => rfl
      | false =>
          simp only [Bool.not_true, Bool.false_eq_true,
            if_false, Action.run_ofExcept_ok_bind]
          rw [Action.run_catchAll_pure]
          exact recover_isOk () _

theorem client_start_isOk
    (stream : UInt32 → Stream Unit)
    {rest : UInt32 → StreamRef → ClientAction StreamRef}
    {w : WsClient}
    {P : Prop}
    (hRest :
      ∀ (ref : StreamRef) (v : WsClient),
        v.isReady = w.isReady → v.config = w.config →
          v.session = w.session →
            (((rest (w.nextOutgoingStreamId * 2) ref).run
                v).result.isOk = true ↔
              P)) :
    ((WsClient.takeStreamId >>= fun streamId =>
        WsClient.registerStream (stream streamId) >>=
          rest streamId).run w).result.isOk = true ↔
      P := by
  have hTake :
      WsClient.takeStreamId.run w =
        { result := .ok (w.nextOutgoingStreamId * 2)
          effects := []
          state :=
            { w with
              nextOutgoingStreamId :=
                w.nextOutgoingStreamId + 1 } } :=
    rfl
  rw [Action.run_bind_ok hTake]
  generalize w.nextOutgoingStreamId * 2 = streamId at *
  generalize hNext :
    ({ w with
      nextOutgoingStreamId :=
        w.nextOutgoingStreamId + 1 } : WsClient) = w₁
  have hRegister :
      (WsClient.registerStream (stream streamId)).run w₁ =
        { result := .ok w₁.streams.objects.length
          effects := []
          state :=
            { w₁ with
              streams :=
                (w₁.streams.register (stream streamId)).2 } } :=
    rfl
  rw [Action.run_bind_ok hRegister]
  subst hNext
  exact hRest _ _ rfl rfl rfl

/- Sending STREAM_START succeeds if it can be announced. -/
theorem announcement_isOk
    (nonce : Nonce)
    (opCode : Option OpCode)
    (ref : StreamRef)
    {v w : WsClient}
    (hReady : v.isReady = w.isReady)
    (hConfig : v.config = w.config) :
    ((Action.ofExcept
          (streamStartPayload w.config.opcodes
            (w.nextOutgoingStreamId * 2) opCode) >>=
        fun start =>
          WsClient.send S nonce start >>= fun _ =>
            pure ref).run v).result.isOk =
        true ↔
      ClientAnnounces opCode w := by
  unfold ClientAnnounces
  simp only [streamStartPayload_eq,
    Action.run_ofExcept_ok_bind, Except.ok.injEq,
    forall_eq']
  rw [isOk_bind_pure, client_send_isOk, hReady, hConfig]
  simp

theorem client_startStream_isOk
    (nonce : Nonce)
    (w : WsClient) :
    ((WsClient.startStream S nonce).run w).result.isOk =
        true ↔
      ClientAnnounces none w := by
  apply client_start_isOk
  intro ref v hReady hConfig _
  rw [Action.run_get_bind, hConfig]
  exact announcement_isOk S nonce none ref hReady hConfig

/- The code is announced if the version knows of codes. -/
theorem client_startStreamWith_isOk
    (nonce : Nonce)
    (streamOpCode : OpCode)
    (w : WsClient) :
    ((WsClient.startStreamWith S nonce streamOpCode).run
        w).result.isOk = true ↔
      ClientAnnounces
        (startStreamOpCode w.session.getSelectedVersion
          streamOpCode) w := by
  apply client_start_isOk
  intro ref v hReady hConfig hSession
  rw [Action.run_get_bind, hConfig, hSession]
  exact announcement_isOk S nonce _ ref hReady hConfig

------------------------------------------------------------
-- Atomicity
------------------------------------------------------------

variable {S}

/- Streams have keys of their own in every state of a run. -/
theorem server_sound_of_run
    {serverSignKey : KeyPair}
    {config : Config}
    {hasOwner : Bool}
    {labels : List (Threads.Label WsServer.ServerCall IoEvent)}
    {p : WsServer.ServerPool}
    (hRun :
      Run (WsServer.PoolStep S)
        (WsServer.pool (.new serverSignKey config hasOwner))
        labels p) :
    (WsServer.streamTable p.shared).Sound := by
  refine
    Threads.Pool.invariant_of_ensures
      (C := fun w _ w' =>
        (WsServer.streamTable w).Sound →
          (WsServer.streamTable w').Sound)
      (I := fun w => (WsServer.streamTable w).Sound)
      (fun k =>
        (WsServer.callCode_moves S k).mono
          (fun _ _ _ => WsServer.sound_of_move))
      (fun event =>
        (WsServer.handle_moves S event.val).mono
          (fun _ _ _ => WsServer.sound_of_move))
      (fun _ _ _ hSound hStep => hStep hSound) hRun ?_ rfl rfl
  change
    (WsServer.streamTable
      (.new serverSignKey config hasOwner)).Sound
  rw [StreamLifecycle.server_streamTable_new]
  exact Registry.Table.sound_empty

theorem client_sound_of_run
    {serverSignKey : KeyPair}
    {config : Config}
    {hasOwner : Bool}
    {labels : List (Threads.Label ClientCall ClientIoEvent)}
    {p : WsClient.ClientPool}
    (hRun :
      Run (WsClient.PoolStep S)
        (WsClient.pool (.new serverSignKey config hasOwner))
        labels p) :
    (WsClient.streamTable p.shared).Sound := by
  refine
    Threads.Pool.invariant_of_ensures
      (C := fun w _ w' =>
        (WsClient.streamTable w).Sound →
          (WsClient.streamTable w').Sound)
      (I := fun w => (WsClient.streamTable w).Sound)
      (fun k =>
        (WsClient.callCode_moves S k).mono
          (fun _ _ _ => WsClient.sound_of_move))
      (fun event =>
        (WsClient.handle_moves S event.val).mono
          (fun _ _ _ => WsClient.sound_of_move))
      (fun _ _ _ hSound hStep => hStep hSound) hRun ?_ rfl rfl
  change
    (WsClient.streamTable
      (.new serverSignKey config hasOwner)).Sound
  rw [StreamLifecycle.client_streamTable_new]
  exact Registry.Table.sound_empty

/-
  In every state of every run of either wrapper, also in the
  middle of other calls, a start leaves no record on failure
  just if there is a ready session for the handle, and the
  client can announce the stream, respectively.
-/
theorem start_stream_atomic :
    (∀ (serverSignKey : KeyPair) (config : Config)
        (hasOwner : Bool)
        (labels :
          List (Threads.Label WsServer.ServerCall IoEvent))
        (p : WsServer.ServerPool) (nonce : Nonce)
        (hdl : Hdl) (streamOpCode : OpCode),
      Run (WsServer.PoolStep S)
          (WsServer.pool (.new serverSignKey config hasOwner))
          labels p →
        (ServerAtomic (WsServer.startStream S nonce hdl)
              p.shared ↔
            (p.shared.sessionTable.ready hdl).isSome =
              true) ∧
          (ServerAtomic
              (WsServer.startStreamWith S nonce hdl
                streamOpCode) p.shared ↔
            (p.shared.sessionTable.ready hdl).isSome =
              true)) ∧
      ∀ (serverSignKey : KeyPair) (config : Config)
        (hasOwner : Bool)
        (labels : List (Threads.Label ClientCall ClientIoEvent))
        (p : WsClient.ClientPool) (nonce : Nonce)
        (streamOpCode : OpCode),
      Run (WsClient.PoolStep S)
          (WsClient.pool (.new serverSignKey config hasOwner))
          labels p →
        (ClientAtomic (WsClient.startStream S nonce)
              p.shared ↔
            ClientAnnounces none p.shared) ∧
          (ClientAtomic
              (WsClient.startStreamWith S nonce streamOpCode)
              p.shared ↔
            ClientAnnounces
              (startStreamOpCode
                p.shared.session.getSelectedVersion
                streamOpCode) p.shared) := by
  constructor
  · intro serverSignKey config hasOwner labels p nonce hdl
      streamOpCode hRun
    have hSound := server_sound_of_run hRun
    constructor
    · rw [← startStream_isOk S nonce hdl p.shared]
      exact
        strongGuarantee_iff
          (server_changes hSound
            (WsServer.startStream_streamTable S nonce hdl
              p.shared))
    · rw [← startStreamWith_isOk S nonce hdl streamOpCode
          p.shared]
      exact
        strongGuarantee_iff
          (server_changes hSound
            (WsServer.startStreamWith_streamTable S nonce hdl
              streamOpCode p.shared))
  · intro serverSignKey config hasOwner labels p nonce
      streamOpCode hRun
    have hSound := client_sound_of_run hRun
    constructor
    · rw [← client_startStream_isOk S nonce p.shared]
      exact
        strongGuarantee_iff
          (client_changes hSound
            (WsClient.startStream_streamTable S nonce p.shared))
    · rw [← client_startStreamWith_isOk S nonce streamOpCode
          p.shared]
      exact
        strongGuarantee_iff
          (client_changes hSound
            (WsClient.startStreamWith_streamTable S nonce
              streamOpCode p.shared))

/- A handshake on connection 1. -/
def handshakeRun :
    List (Threads.Label WsServer.ServerCall IoEvent) :=
  .event (IoEvent.hello 1 1) :: List.replicate 20 .stepEvent

def handshaken : WsServer.ServerPool :=
  handshakeRun.foldl
    (Threads.Pool.exec (WsServer.poolProgram plainSodium))
    (WsServer.pool WsServer.sample)

/- After the handshake a start is safe, at a new client not. -/
set_option maxRecDepth 8000 in
theorem start_stream_atomic_ready :
    (handshaken.shared.sessionTable.ready 1).isSome = true ∧
      ServerAtomic
          (WsServer.startStream plainSodium
            StreamLifecycle.sampleNonce 1)
          handshaken.shared ∧
        ¬ ClientAtomic
            (WsClient.startStream plainSodium
              StreamLifecycle.sampleNonce) WsClient.sample := by
  have hReady :
      (handshaken.shared.sessionTable.ready 1).isSome =
        true := by
    decide
  have hRun :
      Run (WsServer.PoolStep plainSodium)
        (WsServer.pool WsServer.sample) handshakeRun
        handshaken :=
    run_of_allowed
      (fun (p : WsServer.ServerPool) l => p.allowed l = true)
      (Threads.Pool.exec (WsServer.poolProgram plainSodium))
      (WsServer.pool WsServer.sample) handshakeRun (by decide)
  refine
    ⟨hReady,
      (start_stream_atomic.1 _ _ _ handshakeRun handshaken
        StreamLifecycle.sampleNonce 1 0 hRun).1.mpr hReady, ?_⟩
  intro hAtomic
  have hAnnounces :=
    (start_stream_atomic.2 _ _ _ [] _
      StreamLifecycle.sampleNonce 0 (.nil _)).1.mp hAtomic
  cases hAnnounces.1

/-
  A start for a handle without a session throws, and its
  stream stays registered.
-/
theorem start_stream_leftover :
    let o :=
      (WsServer.startStream plainSodium
        StreamLifecycle.sampleNonce 1).run WsServer.sample
    o.result.isOk = false ∧
      WsServer.sample.streams.find 1 1 = none ∧
        o.state.streams.find 1 1 = some 0 ∧
          ¬ ServerAtomic
            (WsServer.startStream plainSodium
              StreamLifecycle.sampleNonce 1)
            WsServer.sample := by
  intro o
  have hFailed : o.result.isOk = false := by
    decide
  have hBefore : WsServer.sample.streams.find 1 1 = none := by
    decide
  have hAfter : o.state.streams.find 1 1 = some 0 := by
    decide
  refine ⟨hFailed, hBefore, hAfter, ?_⟩
  intro hAtomic
  cases hResult : o.result with
  | ok ref =>
      rw [hResult] at hFailed
      cases hFailed
  | error e =>
      have hSame := hAtomic e hResult
      simp only at hSame
      unfold StreamTable.find at hBefore hAfter
      rw [hSame, hBefore] at hAfter
      cases hAfter

end StreamStartFailures

end ObscuraProto
