import ObscuraProto.Streams
import ObscuraProto.WsClient.Moves

/-
  The streams of the client.

  What an event does to the streams is decided by the message
  it reads or the call it is; everything else leaves them
  alone.  The streams outlive the connection.

  Key definitions include:
    * `WsClient.readMessage`, `WsClient.dispatchMessage`
    * `WsClient.streamTable`, `WsClient.streamAct`
    * `WsClient.streamMachine`

  Key theorems include:
    * `WsClient.onMessage_of_read`
    * `WsClient.streamMachine_refines`
    * `WsClient.handle_streamCallbacks`
-/

namespace ObscuraProto

open Effectful

namespace WsClient

variable (S : Sodium)

------------------------------------------------------------
-- Messages That Are Read
------------------------------------------------------------

/- The decrypted and parsed message. -/
def readMessage
    (frame : Frame)
    (w : WsClient) : Option Message :=
  if frame.binary && w.session.isHandshakeComplete then
    match (w.session.decryptPacket S frame.payload).1 with
    | .error _ => none
    | .ok payload =>
        if w.config.payloadTooLarge payload then
          none
        else
          match Message.parse w.config.opcodes payload with
          | .ok message => some message
          | .error _ => none
  else
    none

/- The state after `decrypt_packet`. -/
def afterDecrypt (packet : Bytes) (w : WsClient) : WsClient :=
  { w with session := (w.session.decryptPacket S packet).2 }

/- The branches of `dispatch`. -/
def dispatchMessage
    (input : ClientInput) : Message → ClientAction Unit
| .response requestId response =>
    requestSection (fun t => t.respond requestId response)
| .streamStart streamId opCode =>
    dispatchStreamStart input streamId opCode
| .streamData streamId data => do
    let stream ← findStream streamId
    dispatchStream input stream Stream.onData
      (fun handler => .streamData handler data)
| .streamEnd streamId => do
    let stream ← findStream streamId
    dispatchStream input stream Stream.onEnd .streamEnd
| .streamCancel streamId => do
    let stream ← takeStream streamId
    dispatchStream input stream Stream.onCancel .streamCancel
| .application payload => dispatchPayload S input payload

theorem dispatch_run
    (input : ClientInput)
    (payload : Payload)
    (w : WsClient) :
    (dispatch S input payload).run w =
      match Message.parse w.config.opcodes payload with
      | .error e =>
          { result := .error e, effects := [], state := w }
      | .ok message =>
          (dispatchMessage S input message).run w := by
  unfold dispatch
  rw [Action.run_get_bind]
  cases Message.parse w.config.opcodes payload with
  | error e => rfl
  | ok message =>
      rw [Action.run_ofExcept_ok_bind]
      cases message <;> rfl

/- A message that is read goes to its branch. -/
theorem onMessage_of_read
    {frame : Frame}
    {message : Message}
    {w : WsClient}
    (hRead : readMessage S frame w = some message)
    (input : ClientInput) :
    (onMessage S input frame).run w =
      (Action.catchAll (dispatchMessage S input message)
        (fun _ => disconnect true)).run
          (afterDecrypt S frame.payload w) := by
  unfold readMessage at hRead
  split at hRead
  · next hReady =>
    have hBinary : frame.binary = true := by
      rw [Bool.and_eq_true] at hReady
      exact hReady.1
    have hComplete : w.session.isHandshakeComplete = true := by
      rw [Bool.and_eq_true] at hReady
      exact hReady.2
    split at hRead
    · cases hRead
    · next payload hDecrypt =>
      split at hRead
      · cases hRead
      · next hSize =>
        split at hRead
        · next message' hParse =>
          cases hRead
          have hRun :
              (decrypt S frame.payload).run w =
                { result := .ok payload
                  effects := []
                  state := afterDecrypt S frame.payload w } := by
            simp only [decrypt, Action.run_atomic, hDecrypt]
            rfl
          have hProcess :
              (processMessage S input frame.payload).run w =
                (dispatchMessage S input message).run
                  (afterDecrypt S frame.payload w) := by
            unfold processMessage
            rw [Action.run_get_bind, hComplete]
            simp only [Bool.not_true, Bool.false_eq_true,
              if_false]
            unfold receive
            rw [Action.run_bind_ok hRun, Action.run_get_bind]
            have hFits :
                ¬ (afterDecrypt S frame.payload
                    w).config.payloadTooLarge payload = true :=
              hSize
            rw [if_neg hFits, dispatch_run]
            have hParsed :
                Message.parse
                    (afterDecrypt S frame.payload
                      w).config.opcodes payload =
                  .ok message :=
              hParse
            rw [hParsed]
            simp
          unfold onMessage
          rw [hBinary]
          simp only [Bool.not_true, Bool.false_eq_true,
            if_false]
          rw [Action.run_catchAll, Action.run_catchAll,
            hProcess]
        · cases hRead
  · cases hRead

/- What is left of `on_message` when nothing is read. -/
def unreadMessage
    (input : ClientInput)
    (frame : Frame) : ClientAction Unit :=
  if !frame.binary then
    return ()
  else
    Action.catchAll
      (do
        let w ← Action.get
        if !w.session.isHandshakeComplete then
          finishHandshake S input frame.payload
        else
          let payload ← decrypt S frame.payload
          let w ← Action.get
          if w.config.payloadTooLarge payload then
            disconnect true
          else
            let _ ←
              Action.ofExcept
                (Message.parse w.config.opcodes payload))
      (fun _ => disconnect true)

theorem unreadMessage_moves
    (input : ClientInput)
    (frame : Frame) :
    Moves S
      { decrypts := True
        finalizes := True
        ends := True
        requests := (· = .disconnects)
        invokes := fun callback =>
          ∃ handler, callback = .ready handler }
      (unreadMessage S input frame) := by
  unfold unreadMessage
  split
  · exact Ensures.pure ()
  · apply Ensures.catchAll
    · apply Ensures.bind (get_moves S)
      intro w
      split
      · refine finishHandshake_moves S trivial ?_ input _
        exact fun handler => ⟨handler, rfl⟩
      · apply Ensures.bind (decrypt_moves S trivial _)
        intro payload
        apply Ensures.bind (get_moves S)
        intro w'
        split
        · exact disconnect_moves S trivial rfl true
        · exact
            Ensures.bind (Ensures.ofExcept _)
              (fun _ => Ensures.pure ())
    · intro _
      exact disconnect_moves S trivial rfl true

theorem onMessage_unread
    {frame : Frame}
    {w : WsClient}
    (hRead : readMessage S frame w = none)
    (input : ClientInput) :
    (onMessage S input frame).run w =
      (unreadMessage S input frame).run w := by
  unfold onMessage unreadMessage
  cases hBinary : frame.binary with
  | false => rfl
  | true =>
      simp only [Bool.not_true, Bool.false_eq_true, if_false]
      have hSame :
          (processMessage S input frame.payload).run w =
            (do
              let w ← Action.get
              if !w.session.isHandshakeComplete then
                finishHandshake S input frame.payload
              else
                let payload ← decrypt S frame.payload
                let w ← Action.get
                if w.config.payloadTooLarge payload then
                  disconnect true
                else
                  let _ ←
                    Action.ofExcept
                      (Message.parse w.config.opcodes payload)
                : ClientAction Unit).run w := by
        unfold processMessage
        rw [Action.run_get_bind, Action.run_get_bind]
        cases hComplete : w.session.isHandshakeComplete with
        | false => rfl
        | true =>
            simp only [Bool.not_true, Bool.false_eq_true,
              if_false]
            unfold receive
            unfold readMessage at hRead
            rw [hBinary, hComplete] at hRead
            simp only [Bool.and_self, if_true] at hRead
            have hDecrypt :
                (decrypt S frame.payload).run w =
                  { result :=
                      (w.session.decryptPacket S
                        frame.payload).1
                    effects := []
                    state :=
                      afterDecrypt S frame.payload w } :=
              rfl
            cases hPayload :
                (w.session.decryptPacket S
                  frame.payload).1 with
            | error e =>
                rw [hPayload] at hDecrypt
                rw [Action.run_bind_error hDecrypt,
                  Action.run_bind_error hDecrypt]
            | ok payload =>
                rw [hPayload] at hDecrypt hRead
                rw [Action.run_bind_ok hDecrypt,
                  Action.run_bind_ok hDecrypt,
                  Action.run_get_bind, Action.run_get_bind]
                have hConfig :
                    (afterDecrypt S frame.payload w).config =
                      w.config :=
                  rfl
                rw [hConfig]
                cases hSize :
                    w.config.payloadTooLarge payload with
                | true => rfl
                | false =>
                    simp only [hSize, Bool.false_eq_true,
                      if_false] at hRead ⊢
                    rw [dispatch_run, hConfig]
                    cases hParse :
                        Message.parse w.config.opcodes
                          payload with
                    | error e => rfl
                    | ok message =>
                        rw [hParse] at hRead
                        cases hRead
      rw [Action.run_catchAll, Action.run_catchAll, hSame]

------------------------------------------------------------
-- The Registry of Streams
------------------------------------------------------------

def streamTable (w : WsClient) : Registry.Table UInt32 where
  find := w.streams.find
  size := w.streams.objects.length

def streamAct (w : WsClient) : ClientEvent → StreamAct UInt32
| .message _ frame =>
    match readMessage S frame w with
    | none => .skip
    | some message => message.streamAct id
| .call (.startStream _) => .add (w.nextOutgoingStreamId * 2)
| .call (.startStreamWith _ _) =>
    .add (w.nextOutgoingStreamId * 2)
| .call (.streamEnd _ ref) => .mark ref .finish
| .call (.streamCancel _ ref) => .mark ref .cancel
| _ => .skip

def streamMachine :
    Registry.Machine WsClient ClientEvent UInt32 StreamUse
      StreamCall where
  next := next S
  table := streamTable
  act := streamAct S

------------------------------------------------------------
-- What Leaves the Streams Alone
------------------------------------------------------------

theorem streamTable_register
    (stream : Stream Unit)
    (w : WsClient) :
    streamTable
        { w with streams := (w.streams.register stream).2 } =
      (streamTable w).exec
        (.add stream.streamId : StreamAct UInt32) := by
  unfold streamTable ClientStreamTable.register
  simp only [Registry.Table.exec, List.length_append,
    List.length_singleton, Registry.Table.mk.injEq, and_true]
  funext streamId
  unfold ClientStreamTable.find
  by_cases hSame : streamId = stream.streamId
  · rw [if_pos hSame, hSame]
    exact Std.ExtTreeMap.getElem?_insert_self
  · rw [if_neg hSame]
    exact OrderedMap.getElem?_insert_of_ne hSame _ _

theorem streamTable_erase
    (streamId : UInt32)
    (w : WsClient) :
    streamTable { w with streams := w.streams.erase streamId } =
      (streamTable w).exec
        (.take streamId .cancel : StreamAct UInt32) := by
  unfold streamTable ClientStreamTable.erase
  simp only [Registry.Table.exec, Registry.Table.mk.injEq,
    and_true]
  funext other
  unfold ClientStreamTable.find
  by_cases hSame : other = streamId
  · rw [if_pos hSame, hSame]
    exact Std.ExtTreeMap.getElem?_erase_self
  · rw [if_neg hSame]
    exact OrderedMap.getElem?_erase_of_ne hSame _

theorem streamTable_callback
    (callback : Option HandlerId)
    (registration : Registration)
    (w : WsClient) :
    streamTable ((register callback registration).run w).state =
      streamTable w := by
  cases registration with
  | dataHandler ref | endHandler ref | cancelHandler ref =>
      unfold streamTable
      simp only [register, updateStream, Action.modify,
        Action.run_atomic, List.length_modify]
      rfl
  | _ => rfl

/- Whatever a step does, the table stays sound. -/
theorem sound_of_move
    {S : Sodium}
    {may : ClientMay}
    {w w' : WsClient}
    {effects : List ClientEffect}
    (hMove : ClientMove S may w effects w')
    (hSound : (streamTable w).Sound) :
    (streamTable w').Sound := by
  have hSame
      (hStreams : streamTable w' = streamTable w) :
      (streamTable w').Sound := by
    rw [hStreams]
    exact hSound
  cases hMove with
  | registersStream stream _ =>
      rw [streamTable_register]
      exact hSound.exec _
  | dropsStream streamId _ =>
      rw [streamTable_erase]
      exact hSound.exec _
  | registers registration callback _ =>
      exact hSame (streamTable_callback callback registration w)
  | _ => exact hSame rfl

/- Streams are only changed by code that uses them. -/
def KeepsStreams
    (may : ClientMay)
    (w : WsClient)
    (_ : List ClientEffect)
    (w' : WsClient) : Prop :=
  ¬ may.usesStreams → streamTable w' = streamTable w

theorem composes_keepsStreams (may : ClientMay) :
    Composes (KeepsStreams may) where
  refl := fun _ _ => rfl
  trans := by
    intro w v u _ _ hFirst hSecond hUses
    exact (hSecond hUses).trans (hFirst hUses)

theorem keepsStreams_of_move
    {S : Sodium}
    {may : ClientMay}
    {w w' : WsClient}
    {effects : List ClientEffect}
    (hMove : ClientMove S may w effects w') :
    KeepsStreams may w effects w' := by
  intro hUses
  cases hMove with
  | registersStream _ hMay => exact absurd hMay hUses
  | dropsStream _ hMay => exact absurd hMay hUses
  | registers registration callback _ =>
      exact streamTable_callback callback registration w
  | _ => rfl

theorem Moves.streamTable
    {S : Sodium}
    {may : ClientMay}
    {α : Type}
    {act : ClientAction α}
    (hMoves : Moves S may act)
    (hUses : ¬ may.usesStreams)
    (w : WsClient) :
    streamTable (act.run w).state = streamTable w :=
  (hMoves.mono
    (fun _ _ _ hMove => keepsStreams_of_move hMove)).run
      (composes_keepsStreams may) w hUses

------------------------------------------------------------
-- What Each Call Does
------------------------------------------------------------

/- A start takes an id, registers the stream and sends. -/
theorem start_streamTable
    {α : Type}
    {S : Sodium}
    {stream : UInt32 → Stream Unit}
    (hId : ∀ streamId, (stream streamId).streamId = streamId)
    {rest : UInt32 → StreamRef → ClientAction α}
    (hRest :
      ∀ streamId ref,
        Moves S { encrypts := True } (rest streamId ref))
    (w : WsClient) :
    streamTable
        ((takeStreamId >>= fun streamId =>
          registerStream (stream streamId) >>=
            rest streamId).run w).state =
      (streamTable w).exec
        (.add (w.nextOutgoingStreamId * 2) :
          StreamAct UInt32) := by
  have hTake :
      takeStreamId.run w =
        { result := .ok (w.nextOutgoingStreamId * 2)
          effects := []
          state :=
            { w with
              nextOutgoingStreamId :=
                w.nextOutgoingStreamId + 1 } } :=
    rfl
  rw [Action.run_bind_ok hTake]
  generalize hNew : w.nextOutgoingStreamId * 2 = streamId
  let w₁ : WsClient :=
    { w with
      nextOutgoingStreamId := w.nextOutgoingStreamId + 1 }
  have hRegister :
      (registerStream (stream streamId)).run w₁ =
        { result := .ok w.streams.objects.length
          effects := []
          state :=
            { w₁ with
              streams :=
                (w₁.streams.register (stream streamId)).2 } } :=
    rfl
  rw [Action.run_bind_ok hRegister]
  rw [(hRest streamId _).streamTable (by simp),
    streamTable_register, hId]
  rfl

theorem startStream_streamTable
    (nonce : Nonce)
    (w : WsClient) :
    streamTable ((startStream S nonce).run w).state =
      (streamTable w).exec
        (.add (w.nextOutgoingStreamId * 2) :
          StreamAct UInt32) := by
  refine start_streamTable (S := S) (fun _ => rfl) ?_ w
  intro streamId ref
  apply Ensures.bind (get_moves S)
  intro w
  apply Ensures.bind (Ensures.ofExcept _)
  intro start
  exact
    Ensures.bind (send_moves S trivial nonce start)
      (fun _ => Ensures.pure ref)

theorem startStreamWith_streamTable
    (nonce : Nonce)
    (streamOpCode : OpCode)
    (w : WsClient) :
    streamTable
        ((startStreamWith S nonce streamOpCode).run w).state =
      (streamTable w).exec
        (.add (w.nextOutgoingStreamId * 2) :
          StreamAct UInt32) := by
  refine start_streamTable (S := S) (fun _ => rfl) ?_ w
  intro streamId ref
  apply Ensures.bind (get_moves S)
  intro w
  apply Ensures.bind (Ensures.ofExcept _)
  intro start
  exact
    Ensures.bind (send_moves S trivial nonce start)
      (fun _ => Ensures.pure ref)

theorem call_streamTable
    (method : PublicCall)
    (w : WsClient) :
    streamTable ((call S method).run w).state =
      (streamTable w).exec (streamAct S w (.call method)) := by
  have hOther
      (hNot : method.startsStream = false) :
      streamTable ((call S method).run w).state =
        streamTable w := by
    apply (call_moves S method).streamTable
    simp [PublicCall.may, hNot]
  cases method with
  | startStream nonce =>
      have hState :
          ((call S (.startStream nonce)).run w).state =
            ((startStream S nonce).run w).state := by
        unfold call
        rw [Action.run_bind]
        cases ((startStream S nonce).run w).result <;> rfl
      rw [hState, startStream_streamTable]
      rfl
  | startStreamWith nonce streamOpCode =>
      have hState :
          ((call S
              (.startStreamWith nonce streamOpCode)).run
                w).state =
            ((startStreamWith S nonce streamOpCode).run
              w).state := by
        unfold call
        rw [Action.run_bind]
        cases
          ((startStreamWith S nonce streamOpCode).run
            w).result <;> rfl
      rw [hState, startStreamWith_streamTable]
      rfl
  | _ => exact hOther rfl

------------------------------------------------------------
-- What Each Message Does
------------------------------------------------------------

/- The invocation of a handler, if it is set. -/
def invocation
    (handler : Option HandlerId)
    (callback : HandlerId → ClientCallback) :
    List ClientEffect :=
  (handler.map (fun handler =>
    ClientEffect.invoke (callback handler))).toList

/- Nothing is called, or the answer is passed on. -/
def answered
    (handler : Option HandlerId)
    (answer : Except Exception Unit) : Except Exception Unit :=
  match handler with
  | none => .ok ()
  | some _ => answer

theorem invokeHandler_run_eq
    (handler : Option HandlerId)
    (callback : HandlerId → ClientCallback)
    (answer : Except Exception Unit)
    (w : WsClient) :
    (invokeHandler handler callback answer).run w =
      { result := answered handler answer
        effects := invocation handler callback
        state := w } := by
  cases handler with
  | none => rfl
  | some handler =>
      unfold invokeHandler invoke
      rw [Action.run_emit_bind]
      rfl

/- The handler of a stream object that a message is for. -/
def streamHandler
    (stream : Option StreamRef)
    (handlerOf : Stream Unit → Option HandlerId)
    (w : WsClient) : Option HandlerId :=
  (stream.bind (w.streams.objects[·]?)).bind handlerOf

theorem dispatchStream_run
    (input : ClientInput)
    (stream : Option StreamRef)
    (handlerOf : Stream Unit → Option HandlerId)
    (callback : HandlerId → ClientCallback)
    (w : WsClient) :
    (dispatchStream input stream handlerOf callback).run w =
      { result :=
          answered (streamHandler stream handlerOf w)
            input.callbackAnswer
        effects :=
          invocation (streamHandler stream handlerOf w) callback
        state := w } := by
  unfold dispatchStream
  rw [Action.run_get_bind, invokeHandler_run_eq]
  rfl

theorem dispatch_streamData_run
    (input : ClientInput)
    (streamId : UInt32)
    (data : Bytes)
    (w : WsClient) :
    let handler :=
      streamHandler (w.streams.find streamId) Stream.onData w
    (dispatchMessage S input (.streamData streamId data)).run
        w =
      { result := answered handler input.callbackAnswer
        effects := invocation handler (.streamData · data)
        state := w } :=
  dispatchStream_run input (w.streams.find streamId)
    Stream.onData _ w

theorem dispatch_streamEnd_run
    (input : ClientInput)
    (streamId : UInt32)
    (w : WsClient) :
    let handler :=
      streamHandler (w.streams.find streamId) Stream.onEnd w
    (dispatchMessage S input (.streamEnd streamId)).run w =
      { result := answered handler input.callbackAnswer
        effects := invocation handler .streamEnd
        state := w } :=
  dispatchStream_run input (w.streams.find streamId)
    Stream.onEnd _ w

theorem dispatch_streamCancel_run
    (input : ClientInput)
    (streamId : UInt32)
    (w : WsClient) :
    let handler :=
      streamHandler (w.streams.find streamId) Stream.onCancel w
    (dispatchMessage S input (.streamCancel streamId)).run w =
      { result := answered handler input.callbackAnswer
        effects := invocation handler .streamCancel
        state :=
          { w with streams := w.streams.erase streamId } } := by
  have hTake :
      (takeStream streamId).run w =
        { result := .ok (w.streams.find streamId)
          effects := []
          state :=
            { w with streams := w.streams.erase streamId } } :=
    rfl
  dsimp only [dispatchMessage]
  rw [Action.run_bind_ok hTake, dispatchStream_run]
  rfl

/- The stream handler of the code, or the generic one. -/
def startHandler
    (opCode : Option OpCode)
    (w : WsClient) : Option HandlerId :=
  match opCode.bind (w.dispatchers.streamHandlers[·]?) with
  | some handler => handler
  | none => w.incomingStreamHandler

/- The stream a STREAM_START message makes. -/
def startedStream
    (streamId : UInt32)
    (opCode : Option OpCode) : Stream Unit where
  streamId := streamId
  sendFn := ()
  opCode := opCode

theorem dispatch_streamStart_run
    (input : ClientInput)
    (streamId : UInt32)
    (opCode : Option OpCode)
    (w : WsClient) :
    let handler := startHandler opCode w
    (dispatchMessage S input
        (.streamStart streamId opCode)).run w =
      { result := answered handler input.callbackAnswer
        effects :=
          invocation handler
            (.incomingStream · w.streams.objects.length)
        state :=
          { w with
            streams :=
              (w.streams.register
                (startedStream streamId opCode)).2 } } := by
  have hRegister :
      (registerStream (startedStream streamId opCode)).run w =
        { result := .ok w.streams.objects.length
          effects := []
          state :=
            { w with
              streams :=
                (w.streams.register
                  (startedStream streamId opCode)).2 } } :=
    rfl
  dsimp only [dispatchMessage, dispatchStreamStart]
  unfold startedStream at hRegister
  rw [Action.run_bind_ok hRegister, Action.run_get_bind,
    invokeHandler_run_eq]
  rfl

theorem dispatchMessage_streamTable
    (input : ClientInput)
    (message : Message)
    (w : WsClient) :
    streamTable
        ((dispatchMessage S input message).run w).state =
      (streamTable w).exec (message.streamAct id) := by
  cases message with
  | response requestId response => rfl
  | streamStart streamId opCode =>
      rw [dispatch_streamStart_run, streamTable_register]
      rfl
  | streamData streamId data =>
      rw [dispatch_streamData_run]
      rfl
  | streamEnd streamId =>
      rw [dispatch_streamEnd_run]
      rfl
  | streamCancel streamId =>
      rw [dispatch_streamCancel_run, streamTable_erase]
      rfl
  | application payload =>
      have hMoves :
          Moves S
            { encrypts := True, invokes := fun _ => True }
            (dispatchPayload S input payload) :=
        dispatchPayload_moves S trivial (fun _ _ => trivial)
          (fun _ _ => trivial) input payload
      exact hMoves.streamTable (by simp) w

theorem disconnect_plain :
    Moves S { ends := True, requests := fun _ => True }
      (disconnect true) :=
  disconnect_moves S trivial trivial true

theorem streamMachine_refines :
    (streamMachine S).Refines where
  step := by
    intro w event
    cases event with
    | message input frame =>
        change
          streamTable ((onMessage S input frame).run w).state =
            _
        simp only [streamMachine, streamAct]
        cases hRead : readMessage S frame w with
        | none =>
            rw [onMessage_unread S hRead]
            exact
              (unreadMessage_moves S input frame).streamTable
                (by simp) w
        | some message =>
            have hDispatched :=
              dispatchMessage_streamTable S input message
                (afterDecrypt S frame.payload w)
            rw [onMessage_of_read S hRead, Action.run_catchAll]
            cases ((dispatchMessage S input message).run
                (afterDecrypt S frame.payload w)).result with
            | ok u => exact hDispatched
            | error e =>
                simp only
                rw [(disconnect_plain S).streamTable (by simp)]
                exact hDispatched
    | call method => exact call_streamTable S method w
    | opened input hdl =>
        exact
          (handle_moves S (.opened input hdl)).streamTable
            (by simp [ClientEvent.may]) w
    | closed input =>
        exact
          (handle_moves S (.closed input)).streamTable
            (by simp [ClientEvent.may]) w
    | failed input =>
        exact
          (handle_moves S (.failed input)).streamTable
            (by simp [ClientEvent.may]) w
    | watchdogPass now =>
        exact
          (handle_moves S (.watchdogPass now)).streamTable
            (by simp [ClientEvent.may]) w

theorem streamMachine_regular
    (w : WsClient)
    (event : ClientEvent) :
    Streams.Regular ((streamMachine S).act w event) := by
  simp only [streamMachine, streamAct]
  split
  · split
    · trivial
    · exact Streams.regular_streamAct _ _
  all_goals trivial

------------------------------------------------------------
-- Handlers of Streams
------------------------------------------------------------

/- Callbacks are only invoked by code that may do so. -/
def InvokesOnly
    (may : ClientMay)
    (_ : WsClient)
    (effects : List ClientEffect)
    (_ : WsClient) : Prop :=
  ∀ callback, ClientEffect.invoke callback ∈ effects →
    may.invokes callback

theorem composes_invokesOnly (may : ClientMay) :
    Composes (InvokesOnly may) where
  refl := by simp [InvokesOnly]
  trans := by
    intro w v u _ _ hFirst hSecond callback hMem
    rcases List.mem_append.mp hMem with hMem | hMem
    · exact hFirst callback hMem
    · exact hSecond callback hMem

theorem invokesOnly_of_move
    {S : Sodium}
    {may : ClientMay}
    {w w' : WsClient}
    {effects : List ClientEffect}
    (hMove : ClientMove S may w effects w') :
    InvokesOnly may w effects w' := by
  intro callback hMem
  cases hMove with
  | invokes hMay =>
      cases List.mem_singleton.mp hMem
      exact hMay
  | _ => simp at hMem

theorem Moves.invokesOnly
    {S : Sodium}
    {may : ClientMay}
    {α : Type}
    {act : ClientAction α}
    (hMoves : Moves S may act)
    (w : WsClient) :
    ∀ callback,
      ClientEffect.invoke callback ∈ (act.run w).effects →
        may.invokes callback :=
  (hMoves.mono
    (fun _ _ _ hMove => invokesOnly_of_move hMove)).run
      (composes_invokesOnly may) w

/- A handler of a stream object is called. -/
def isStreamCallback : ClientEffect → Bool
| .invoke (.streamData _ _) => true
| .invoke (.streamEnd _) => true
| .invoke (.streamCancel _) => true
| _ => false

/- The handler of the stream the message is for. -/
def streamCallbacks
    (w : WsClient) : Message → List ClientEffect
| .streamData streamId data =>
    invocation
      (streamHandler (w.streams.find streamId) Stream.onData w)
      (.streamData · data)
| .streamEnd streamId =>
    invocation
      (streamHandler (w.streams.find streamId) Stream.onEnd w)
      .streamEnd
| .streamCancel streamId =>
    invocation
      (streamHandler (w.streams.find streamId)
        Stream.onCancel w)
      .streamCancel
| _ => []

theorem Moves.no_streamCallbacks
    {S : Sodium}
    {may : ClientMay}
    {α : Type}
    {act : ClientAction α}
    (hMoves : Moves S may act)
    (hNone :
      ∀ callback, may.invokes callback →
        isStreamCallback (.invoke callback) = false)
    (w : WsClient) :
    (act.run w).effects.filter isStreamCallback = [] := by
  rw [List.filter_eq_nil_iff]
  intro effect hMem
  cases effect with
  | invoke callback =>
      rw [hNone callback (hMoves.invokesOnly w callback hMem)]
      simp
  | connect | stopIo | close | transmit | complete =>
      simp [isStreamCallback]

theorem invocation_streamCallback
    (isStream : Bool)
    {callback : HandlerId → ClientCallback}
    (hAll :
      ∀ handler,
        isStreamCallback (.invoke (callback handler)) =
          isStream)
    (handler : Option HandlerId) :
    (invocation handler callback).filter isStreamCallback =
      if isStream then invocation handler callback else [] := by
  cases handler with
  | none => cases isStream <;> rfl
  | some handler =>
      cases isStream <;>
        simp [invocation, hAll]

theorem dispatchMessage_streamCallbacks
    (input : ClientInput)
    (message : Message)
    (w : WsClient) :
    ((dispatchMessage S input message).run w).effects.filter
        isStreamCallback =
      streamCallbacks w message := by
  cases message with
  | response requestId response =>
      have hMoves :
          Moves S { requests := fun _ => True }
            (dispatchMessage S input
              (.response requestId response)) :=
        requestSection_moves S
          (s := .responds requestId response) trivial
      exact hMoves.no_streamCallbacks (by simp) w
  | streamStart streamId opCode =>
      rw [dispatch_streamStart_run]
      exact
        invocation_streamCallback false (fun _ => rfl) _
  | streamData streamId data =>
      rw [dispatch_streamData_run]
      exact invocation_streamCallback true (fun _ => rfl) _
  | streamEnd streamId =>
      rw [dispatch_streamEnd_run]
      exact invocation_streamCallback true (fun _ => rfl) _
  | streamCancel streamId =>
      rw [dispatch_streamCancel_run]
      exact invocation_streamCallback true (fun _ => rfl) _
  | application payload =>
      have hMoves :
          Moves S
            { encrypts := True
              invokes := fun callback =>
                isStreamCallback (.invoke callback) = false }
            (dispatchPayload S input payload) :=
        dispatchPayload_moves S trivial (fun _ _ => rfl)
          (fun _ _ => rfl) input payload
      exact hMoves.no_streamCallbacks (fun _ hNot => hNot) w

/- Only messages that are read call handlers of streams. -/
theorem handle_streamCallbacks
    (event : ClientEvent)
    (w : WsClient) :
    ((handle S event).run w).effects.filter
        isStreamCallback =
      match event with
      | .message _ frame =>
          match readMessage S frame w with
          | none => []
          | some message => streamCallbacks w message
      | _ => [] := by
  cases event with
  | message input frame =>
      simp only [handle]
      cases hRead : readMessage S frame w with
      | none =>
          rw [onMessage_unread S hRead]
          apply
            (unreadMessage_moves S input
              frame).no_streamCallbacks
          rintro callback ⟨handler, hCallback⟩
          rw [hCallback]
          rfl
      | some message =>
          have hDispatched :=
            dispatchMessage_streamCallbacks S input message
              (afterDecrypt S frame.payload w)
          have hSame :
              streamCallbacks (afterDecrypt S frame.payload w)
                  message =
                streamCallbacks w message := by
            cases message <;> rfl
          rw [onMessage_of_read S hRead, Action.run_catchAll]
          cases ((dispatchMessage S input message).run
              (afterDecrypt S frame.payload w)).result with
          | ok u => exact hDispatched.trans hSame
          | error e =>
              simp only [List.filter_append]
              rw [(disconnect_plain S).no_streamCallbacks
                (by simp), List.append_nil]
              exact hDispatched.trans hSame
  | opened input hdl =>
      exact
        (handle_moves S (.opened input hdl)).no_streamCallbacks
          (fun _ hMay => hMay.elim) w
  | closed input =>
      apply (handle_moves S (.closed input)).no_streamCallbacks
      rintro callback ⟨handler, hCallback⟩
      rw [hCallback]
      rfl
  | failed input =>
      apply (handle_moves S (.failed input)).no_streamCallbacks
      rintro callback ⟨handler, hCallback⟩
      rw [hCallback]
      rfl
  | watchdogPass now =>
      exact
        (handle_moves S (.watchdogPass now)).no_streamCallbacks
          (fun _ hMay => hMay.elim) w
  | call method =>
      exact
        (call_moves S method).no_streamCallbacks
          (fun _ hMay => hMay.elim) w

end WsClient

end ObscuraProto
