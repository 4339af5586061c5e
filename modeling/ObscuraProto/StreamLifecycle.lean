import ObscuraProto.PlainSodium
import ObscuraProto.WsClient.Streams
import ObscuraProto.WsServer.Streams

/-
  How long a stream stays registered, and when it is over.

  Both wrappers register streams by plain assignments, and a
  stream object has no state of its own.  A handle keeps its
  registration as long as no other stream is started under
  its id; a stream terminates in the proper way if neither
  side goes on after an end or cancels on its own.

  Key definitions include:
    * `StreamLifecycle.ServerDelivers`
    * `StreamLifecycle.ClientDelivers`

  Key theorems include:
    * `StreamLifecycle.stream_exclusivity`
    * `StreamLifecycle.stream_replaced`
    * `StreamLifecycle.stream_termination`
    * `StreamLifecycle.stream_not_terminated`
-/

namespace ObscuraProto

namespace StreamLifecycle

open StateMachine

variable (S : Sodium)

------------------------------------------------------------
-- Where Data Goes
------------------------------------------------------------

/- Data for the id goes to the handler of this object. -/
def ServerDelivers
    (hdl : Hdl)
    (streamId : UInt32)
    (ref : StreamRef)
    (w : WsServer) : Prop :=
  ∀ (input : IoInput) (frame : Frame) (isAuth : Bool)
    (data : Bytes),
    WsServer.readMessage S input hdl frame w =
        some (isAuth, .streamData streamId data) →
      ((WsServer.handle S (.message input hdl frame)).run
          w).effects.filter WsServer.isStreamCallback =
        WsServer.invocation
          ((w.streams.objects[ref]?).bind Stream.onData)
          (.streamData · data)

def ClientDelivers
    (streamId : UInt32)
    (ref : StreamRef)
    (w : WsClient) : Prop :=
  ∀ (input : ClientInput) (frame : Frame) (data : Bytes),
    WsClient.readMessage S frame w =
        some (.streamData streamId data) →
      ((WsClient.handle S (.message input frame)).run
          w).effects.filter WsClient.isStreamCallback =
        WsClient.invocation
          ((w.streams.objects[ref]?).bind Stream.onData)
          (.streamData · data)

variable {S}

theorem serverDelivers_of_find
    {hdl : Hdl}
    {streamId : UInt32}
    {ref : StreamRef}
    {w : WsServer}
    (hFound : w.streams.find hdl streamId = some ref) :
    ServerDelivers S hdl streamId ref w := by
  intro input frame isAuth data hRead
  rw [WsServer.handle_streamCallbacks]
  simp only [hRead, WsServer.streamCallbacks,
    WsServer.streamHandler, hFound, Option.bind_some]

theorem clientDelivers_of_find
    {streamId : UInt32}
    {ref : StreamRef}
    {w : WsClient}
    (hFound : w.streams.find streamId = some ref) :
    ClientDelivers S streamId ref w := by
  intro input frame data hRead
  rw [WsClient.handle_streamCallbacks]
  simp only [hRead, WsClient.streamCallbacks,
    WsClient.streamHandler, hFound, Option.bind_some]

------------------------------------------------------------
-- New Wrappers
------------------------------------------------------------

theorem server_streamTable_new
    (serverSignKey : KeyPair)
    (config : Config)
    {hasOwner : Bool} :
    WsServer.streamTable (.new serverSignKey config hasOwner) =
      Registry.Table.empty := by
  unfold WsServer.streamTable Registry.Table.empty
  congr

theorem client_streamTable_new
    (serverSignKey : KeyPair)
    (config : Config)
    {hasOwner : Bool} :
    WsClient.streamTable (.new serverSignKey config hasOwner) =
      Registry.Table.empty := by
  unfold WsClient.streamTable Registry.Table.empty
  congr

------------------------------------------------------------
-- Exclusivity of Identifiers
------------------------------------------------------------

/-
  A stream that is registered after `before`, followed
  through events none of which cancels it (or closes its
  connection at the server): it is still registered, and is
  given its data, just if none of them starts a stream under
  the same id on the same connection.
-/
theorem stream_exclusivity :
    (∀ (serverSignKey : KeyPair) (config : Config)
        (hasOwner : Bool)
        (before after : List ServerEvent) (hdl : Hdl)
        (streamId : UInt32) (ref : StreamRef),
      let m := WsServer.streamMachine S
      let w :=
        before.foldl (WsServer.next S)
          (WsServer.new serverSignKey config hasOwner)
      let w' := after.foldl (WsServer.next S) w
      w.streams.find hdl streamId = some ref →
        Allowed (m.Keeps (hdl, streamId)) (WsServer.next S) w
            after →
          (w'.streams.find hdl streamId = some ref ↔
              Allowed (m.Spares (hdl, streamId))
                (WsServer.next S) w after) ∧
            (Allowed (m.Spares (hdl, streamId))
                (WsServer.next S) w after →
              ServerDelivers S hdl streamId ref w')) ∧
      ∀ (serverSignKey : KeyPair) (config : Config)
        (hasOwner : Bool)
        (before after : List ClientEvent) (streamId : UInt32)
        (ref : StreamRef),
      let m := WsClient.streamMachine S
      let w :=
        before.foldl (WsClient.next S)
          (WsClient.new serverSignKey config hasOwner)
      let w' := after.foldl (WsClient.next S) w
      w.streams.find streamId = some ref →
        Allowed (m.Keeps streamId) (WsClient.next S) w
            after →
          (w'.streams.find streamId = some ref ↔
              Allowed (m.Spares streamId) (WsClient.next S) w
                after) ∧
            (Allowed (m.Spares streamId) (WsClient.next S) w
                after →
              ClientDelivers S streamId ref w') := by
  constructor
  · intro serverSignKey config hasOwner before after hdl
      streamId ref
      m w w' hFound hKept
    have hStart :
        (WsServer.streamTable
          (.new serverSignKey config hasOwner)).Sound := by
      rw [server_streamTable_new]
      exact Registry.Table.sound_empty
    have hRefines : m.Refines :=
      WsServer.streamMachine_refines S
    have hStays :
        w'.streams.find hdl streamId = some ref ↔
          Allowed (m.Spares (hdl, streamId))
            (WsServer.next S) w after :=
      hRefines.find_iff (k := (hdl, streamId))
        (hRefines.sound hStart before) hFound hKept
    exact
      ⟨hStays,
        fun hSpared =>
          serverDelivers_of_find (hStays.mpr hSpared)⟩
  · intro serverSignKey config hasOwner before after streamId
      ref m w
      w' hFound hKept
    have hStart :
        (WsClient.streamTable
          (.new serverSignKey config hasOwner)).Sound := by
      rw [client_streamTable_new]
      exact Registry.Table.sound_empty
    have hRefines : m.Refines :=
      WsClient.streamMachine_refines S
    have hStays :
        w'.streams.find streamId = some ref ↔
          Allowed (m.Spares streamId) (WsClient.next S) w
            after :=
      hRefines.find_iff (hRefines.sound hStart before) hFound
        hKept
    exact
      ⟨hStays,
        fun hSpared =>
          clientDelivers_of_find (hStays.mpr hSpared)⟩

------------------------------------------------------------
-- Termination
------------------------------------------------------------

/-
  In every run of either wrapper that is orderly on every
  registered stream.
-/
theorem stream_termination :
    (∀ (serverSignKey : KeyPair) (config : Config)
        (hasOwner : Bool)
        (events : List ServerEvent)
        (x : Registry.Logged WsServer StreamUse StreamCall),
      Run
          (Guarded (Streams.Orderly (WsServer.streamMachine S))
            (WsServer.streamMachine S).logged)
          { state := WsServer.new serverSignKey config hasOwner }
          events x →
        Streams.Terminated (WsServer.streamTable x.state)
          x.log) ∧
      ∀ (serverSignKey : KeyPair) (config : Config)
        (hasOwner : Bool)
        (events : List ClientEvent)
        (x : Registry.Logged WsClient StreamUse StreamCall),
      Run
          (Guarded (Streams.Orderly (WsClient.streamMachine S))
            (WsClient.streamMachine S).logged)
          { state := WsClient.new serverSignKey config hasOwner }
          events x →
        Streams.Terminated (WsClient.streamTable x.state)
          x.log := by
  constructor
  · intro serverSignKey config hasOwner events x hRun
    exact
      Streams.terminated_of_run
        (WsServer.streamMachine_refines S)
        (WsServer.streamMachine_regular S)
        (server_streamTable_new serverSignKey config) hRun
  · intro serverSignKey config hasOwner events x hRun
    exact
      Streams.terminated_of_run
        (WsClient.streamMachine_refines S)
        (WsClient.streamMachine_regular S)
        (client_streamTable_new serverSignKey config) hRun

------------------------------------------------------------
-- Sample Runs
------------------------------------------------------------

open PlainSodium WsServer

/- STREAM_START for the ids 2 and 4. -/
def startTwo (counter : UInt64) : ServerEvent :=
  .sealed 1 1 counter OpCode.streamStart [0, 4, 0, 0, 0, 2]

def startFour (counter : UInt64) : ServerEvent :=
  .sealed 1 1 counter OpCode.streamStart [0, 4, 0, 0, 0, 4]

/- STREAM_END and STREAM_DATA for the id 2. -/
def endTwo (counter : UInt64) : ServerEvent :=
  .sealed 1 1 counter OpCode.streamEnd [0, 4, 0, 0, 0, 2]

def dataTwo (counter : UInt64) : ServerEvent :=
  .sealed 1 1 counter OpCode.streamData
    [0, 4, 0, 0, 0, 2, 0, 1, 7]

def sampleNonce : Nonce := .zero

/- A server that does not limit the rate of messages. -/
def unlimited : Config :=
  { Config.withDefaults with rateLimit := { enabled := false } }

def afterStart : WsServer :=
  [.hello 1 1, startTwo 1].foldl (next plainSodium)
    (.new (sampleKeyPair 6) unlimited true)

set_option maxRecDepth 8000 in
theorem stream_exclusivity_twoStreams :
    let w' := [startFour 2].foldl (next plainSodium) afterStart
    w'.streams.find 1 2 = some 0 ∧
      ServerDelivers plainSodium 1 2 0 w' := by
  intro w'
  have hStays :=
    (@stream_exclusivity plainSodium).1 (sampleKeyPair 6)
      unlimited true [.hello 1 1, startTwo 1] [startFour 2] 1
      2 0
      (by decide) (by decide)
  have hSpared :
      Allowed
        ((streamMachine plainSodium).Spares (1, 2))
        (next plainSodium) afterStart [startFour 2] := by
    decide
  exact ⟨hStays.1.mpr hSpared, hStays.2 hSpared⟩

/- A second start replaces the stream the handler was given. -/
set_option maxRecDepth 8000 in
theorem stream_replaced :
    let w' := [startTwo 2].foldl (next plainSodium) afterStart
    afterStart.streams.find 1 2 = some 0 ∧
      Allowed ((streamMachine plainSodium).Keeps (1, 2))
          (next plainSodium) afterStart [startTwo 2] ∧
        w'.streams.find 1 2 = some 1 := by
  decide

/- The server after some events, with what it has reached. -/
def logged
    (events : List ServerEvent) :
    Registry.Logged WsServer StreamUse StreamCall :=
  events.foldl (streamMachine plainSodium).logged
    { state := .new (sampleKeyPair 6) unlimited true }

def orderlyEnd : List ServerEvent :=
  [.hello 1 1, startTwo 1, dataTwo 2, endTwo 3]

/- Data after the end, and a cancellation by this side. -/
def dataAfterEnd : List ServerEvent :=
  [.hello 1 1, startTwo 1, endTwo 2, dataTwo 3]

def localCancel : List ServerEvent :=
  [.hello 1 1, startTwo 1,
    .call (.streamCancel sampleNonce 0)]

set_option maxRecDepth 8000 in
theorem stream_termination_orderlyEnd :
    (logged orderlyEnd).log =
        [.used 0 .data, .used 0 .finish] ∧
      Streams.Terminated
        (streamTable (logged orderlyEnd).state)
        (logged orderlyEnd).log := by
  refine ⟨by decide, ?_⟩
  apply
    (@stream_termination plainSodium).1 (sampleKeyPair 6)
      unlimited true orderlyEnd
  apply run_of_allowed
  refine ⟨trivial, trivial, ?_, ?_, trivial⟩
  · intro ref _
    exact List.not_mem_nil
  · intro ref _ hMark
    revert hMark
    have hLog :
        ∀ ref : Nat,
          Registry.Fact.marked ref StreamCall.finish ∉
            ([.used 0 .data] : List StreamFact) := by
      simp
    exact hLog ref

/-
  The handler gets data after the end, and a stream that this
  side has cancelled is still registered.
-/
set_option maxRecDepth 8000 in
theorem stream_not_terminated :
    (Run
          (Guarded (fun _ _ => True)
            (streamMachine plainSodium).logged)
          { state := .new (sampleKeyPair 6) unlimited true }
          dataAfterEnd (logged dataAfterEnd) ∧
        ¬ Streams.Terminated
          (streamTable (logged dataAfterEnd).state)
          (logged dataAfterEnd).log) ∧
      Run
          (Guarded (fun _ _ => True)
            (streamMachine plainSodium).logged)
          { state := .new (sampleKeyPair 6) unlimited true }
          localCancel (logged localCancel) ∧
        ¬ Streams.Terminated
          (streamTable (logged localCancel).state)
          (logged localCancel).log := by
  refine ⟨⟨?_, ?_⟩, ?_, ?_⟩
  · exact
      run_of_allowed (fun _ _ => True)
        (streamMachine plainSodium).logged _ dataAfterEnd
        (by decide)
  · intro hTerminated
    have hLog :
        (logged dataAfterEnd).log =
          [.used 0 .finish, .used 0 .data] := by
      decide
    have hOrdered := hTerminated.ordered
    rw [hLog] at hOrdered
    have hFollows :=
      List.rel_of_pairwise_cons hOrdered
        (List.mem_singleton_self _)
    exact (hFollows 0).1 rfl rfl
  · exact
      run_of_allowed (fun _ _ => True)
        (streamMachine plainSodium).logged _ localCancel
        (by decide)
  · intro hTerminated
    have hLog :
        (logged localCancel).log = [.marked 0 .cancel] := by
      decide
    have hFound :
        (logged localCancel).state.streams.find 1 2 =
          some 0 := by
      decide
    apply hTerminated.removed 0 _ ⟨(1, 2), hFound⟩
    rw [hLog]
    exact Or.inl ⟨_, List.mem_singleton_self _, rfl⟩

end StreamLifecycle

end ObscuraProto
