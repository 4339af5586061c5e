import ObscuraProto.Streams
import ObscuraProto.WsServer.Changes

/-
  The streams of the server.

  What an event does to the streams is decided by the message
  it reads, the close, or the call it is; everything else
  leaves them alone.

  Key definitions include:
    * `WsServer.readMessage`, `WsServer.dispatchMessage`
    * `WsServer.streamTable`, `WsServer.streamAct`
    * `WsServer.streamMachine`

  Key theorems include:
    * `WsServer.onMessage_of_read`
    * `WsServer.streamMachine_refines`
    * `WsServer.handle_streamCallbacks`
-/

namespace ObscuraProto

open Effectful

namespace WsServer

variable (S : Sodium)

------------------------------------------------------------
-- Messages That Are Read
------------------------------------------------------------

/- The decrypted and parsed message, with its table. -/
def readMessage
    (input : IoInput)
    (hdl : Hdl)
    (frame : Frame)
    (w : WsServer) : Option (Bool × Message) :=
  if frame.binary then
    match ((receive S input hdl frame.payload).run w).result with
    | .ok (.decrypted isAuth payload) =>
        match Message.parse w.config.opcodes payload with
        | .ok message => some (isAuth, message)
        | .error _ => none
    | _ => none
  else
    none

/- The branches of `dispatch`. -/
def dispatchMessage
    (input : IoInput)
    (hdl : Hdl)
    (isAuth : Bool) : Message → ServerAction Unit
| .response requestId response =>
    requestSection (fun t =>
      t.respond hdl requestId response)
| .streamStart streamId opCode =>
    dispatchStreamStart input hdl isAuth streamId opCode
| .streamData streamId data => do
    let stream ← findStream hdl streamId
    dispatchStream input stream Stream.onData
      (fun handler => .streamData handler data)
| .streamEnd streamId => do
    let stream ← findStream hdl streamId
    dispatchStream input stream Stream.onEnd .streamEnd
| .streamCancel streamId => do
    let stream ← takeStream hdl streamId
    dispatchStream input stream Stream.onCancel .streamCancel
| .application payload =>
    dispatchPayload S input hdl isAuth payload

theorem dispatch_run
    (input : IoInput)
    (hdl : Hdl)
    (isAuth : Bool)
    (payload : Payload)
    (w : WsServer) :
    (dispatch S input hdl isAuth payload).run w =
      match Message.parse w.config.opcodes payload with
      | .error e =>
          { result := .error e, effects := [], state := w }
      | .ok message =>
          (dispatchMessage S input hdl isAuth message).run w := by
  unfold dispatch
  rw [Action.run_get_bind]
  cases Message.parse w.config.opcodes payload with
  | error e => rfl
  | ok message =>
      rw [Action.run_ofExcept_ok_bind]
      cases message <;> rfl

/- A message that is read goes to its branch. -/
theorem onMessage_of_read
    {input : IoInput}
    {hdl : Hdl}
    {frame : Frame}
    {isAuth : Bool}
    {message : Message}
    {w : WsServer}
    (hRead :
      readMessage S input hdl frame w =
        some (isAuth, message)) :
    let r := (receive S input hdl frame.payload).run w
    let o :=
      (dispatchMessage S input hdl isAuth message).run r.state
    (onMessage S input hdl frame).run w =
      { result := .ok ()
        effects := r.effects ++ o.effects
        state := o.state } := by
  dsimp only
  unfold readMessage at hRead
  split at hRead
  · next hBinary =>
    have hWithin := receive_within S input hdl frame.payload w
    cases hRun : (receive S input hdl frame.payload).run w with
    | mk result effects state =>
        simp only [hRun] at hRead hWithin
        split at hRead
        · next isAuth' payload =>
          have hConfig : state.config = w.config := by
            rw [hWithin.state]
          split at hRead
          · next message' hParse =>
            cases hRead
            unfold onMessage
            rw [hBinary]
            simp only [Bool.not_true, Bool.false_eq_true,
              if_false]
            rw [Action.run_bind_ok hRun]
            simp only [Action.run_catchAll_pure, dispatch_run,
              hConfig, hParse]
            cases ((dispatchMessage S input hdl isAuth
                message).run state).result with
            | ok u => rfl
            | error e => rfl
          · cases hRead
        · cases hRead
  · cases hRead

/- What is left of `on_message` when nothing is read. -/
def unreadMessage
    (input : IoInput)
    (hdl : Hdl)
    (frame : Frame) : ServerAction Unit := do
  if !frame.binary then
    return ()
  else
    let received ← receive S input hdl frame.payload
    match received with
    | .unknown =>
        Action.catchAll
          (handshake S input hdl frame.payload)
          (fun _ =>
            closeHdl input hdl .policyViolation
              "Handshake error")
    | _ => return ()

theorem unreadMessage_moves
    (input : IoInput)
    (hdl : Hdl)
    (frame : Frame) :
    Moves S
      { receives := fun _ _ => True
        establishes := (· = hdl)
        invokes := fun callback =>
          ∃ handler clientPk,
            callback = .identity handler hdl clientPk }
      (unreadMessage S input hdl frame) := by
  unfold unreadMessage
  split
  · exact Ensures.pure ()
  · apply Ensures.bind
      (receive_moves S (fun _ _ => trivial) input hdl
        frame.payload)
    intro received
    cases received with
    | unknown =>
        refine
          Ensures.catchAll
            (handshake_moves S rfl (fun _ _ => trivial) ?_
              input _)
            (fun _ => closeHdl_moves S _ _ _ _)
        exact fun handler clientPk => ⟨handler, clientPk, rfl⟩
    | ignored | decrypted => exact Ensures.pure ()

/- A swallowed parse error is as good as nothing read. -/
theorem onMessage_unread
    {input : IoInput}
    {hdl : Hdl}
    {frame : Frame}
    {w : WsServer}
    (hRead : readMessage S input hdl frame w = none) :
    (onMessage S input hdl frame).run w =
      (unreadMessage S input hdl frame).run w := by
  unfold onMessage unreadMessage
  cases hBinary : frame.binary with
  | false => rfl
  | true =>
      simp only [Bool.not_true, Bool.false_eq_true, if_false]
      unfold readMessage at hRead
      rw [if_pos hBinary] at hRead
      have hWithin :=
        receive_within S input hdl frame.payload w
      cases hRun :
          (receive S input hdl frame.payload).run w with
      | mk result effects state =>
          simp only [hRun] at hRead hWithin
          cases result with
          | error e =>
              rw [Action.run_bind_error hRun,
                Action.run_bind_error hRun]
          | ok received =>
              rw [Action.run_bind_ok hRun,
                Action.run_bind_ok hRun]
              cases received with
              | ignored | unknown => rfl
              | decrypted isAuth payload =>
                  have hConfig : state.config = w.config := by
                    rw [hWithin.state]
                  simp only at hRead
                  cases hParse :
                      Message.parse w.config.opcodes
                        payload with
                  | ok message =>
                      rw [hParse] at hRead
                      cases hRead
                  | error e =>
                      simp only [Action.run_catchAll_pure,
                        dispatch_run, hConfig, hParse,
                        Action.recover, Action.run_pure]

------------------------------------------------------------
-- The Registry of Streams
------------------------------------------------------------

abbrev StreamKey := Hdl × UInt32

def streamTable (w : WsServer) : Registry.Table StreamKey where
  find := fun k => w.streams.find k.1 k.2
  size := w.streams.objects.length

/- A close whose callback returns clears its connection. -/
def closeRuns (input : IoInput) (w : WsServer) : Bool :=
  w.onCloseCallback.isNone ||
    decide (input.callbackAnswer = .ok ())

def streamAct (w : WsServer) : ServerEvent → StreamAct StreamKey
| .message input hdl frame =>
    match readMessage S input hdl frame w with
    | none => .skip
    | some (_, message) => message.streamAct (Prod.mk hdl)
| .closed input hdl =>
    if closeRuns input w then
      .drop (fun k => k.1 == hdl)
    else
      .skip
| .call (.startStream _ hdl) =>
    .add (hdl, w.nextOutgoingStreamId * 2 + 1)
| .call (.startStreamWith _ hdl _) =>
    .add (hdl, w.nextOutgoingStreamId * 2 + 1)
| .call (.streamEnd _ ref) => .mark ref .finish
| .call (.streamCancel _ ref) => .mark ref .cancel
| _ => .skip

def streamMachine :
    Registry.Machine WsServer ServerEvent StreamKey StreamUse
      StreamCall where
  next := next S
  table := streamTable
  act := streamAct S

------------------------------------------------------------
-- What Leaves the Streams Alone
------------------------------------------------------------

theorem streamTable_register
    (hdl : Hdl)
    (stream : Stream ServerSendFn)
    (w : WsServer) :
    streamTable
        { w with streams := (w.streams.register hdl stream).2 } =
      (streamTable w).exec
        (.add (hdl, stream.streamId) : StreamAct StreamKey) := by
  unfold streamTable StreamTable.register StreamTable.find
  simp only [Registry.Table.exec, List.length_append,
    List.length_singleton, Registry.Table.mk.injEq, and_true]
  funext k
  rw [NestedMap.lookupAt_insertAt]
  simp only [Prod.ext_iff]

theorem streamTable_erase
    (hdl : Hdl)
    (streamId : UInt32)
    (w : WsServer) :
    streamTable
        { w with streams := w.streams.erase hdl streamId } =
      (streamTable w).exec
        (.take (hdl, streamId) .cancel :
          StreamAct StreamKey) := by
  unfold streamTable StreamTable.erase StreamTable.find
  simp only [Registry.Table.exec, Registry.Table.mk.injEq,
    and_true]
  funext k
  rw [NestedMap.lookupAt_eraseAt]
  simp only [Prod.ext_iff]

theorem streamTable_closeConnection
    (hdl : Hdl)
    (w w' : WsServer)
    (hStreams : w'.streams = w.streams.closeConnection hdl) :
    streamTable w' =
      (streamTable w).exec
        (.drop (fun k => k.1 == hdl) :
          StreamAct StreamKey) := by
  unfold streamTable
  rw [hStreams]
  unfold StreamTable.closeConnection StreamTable.find
  simp only [Registry.Table.exec, Registry.Table.mk.injEq,
    and_true]
  funext k
  rw [NestedMap.lookupAt_erase]
  simp only [beq_iff_eq]

theorem streamTable_callback
    (callback : Option HandlerId)
    (registration : Registration)
    (w : WsServer) :
    streamTable ((register callback registration).run w).state =
      streamTable w := by
  cases registration with
  | dataHandler ref | endHandler ref | cancelHandler ref =>
      unfold streamTable
      simp only [register, updateStream, Action.modify,
        Action.run_atomic, List.length_modify]
      rfl
  | _ => rfl

/- Whatever a step does, the table stays sound. -/
theorem sound_of_move
    {S : Sodium}
    {may : May}
    {w w' : WsServer}
    {effects : List ServerEffect}
    (hMove : Move S may w effects w')
    (hSound : (streamTable w).Sound) :
    (streamTable w').Sound := by
  have hSame
      (hStreams : streamTable w' = streamTable w) :
      (streamTable w').Sound := by
    rw [hStreams]
    exact hSound
  cases hMove with
  | registersStream hdl stream _ =>
      rw [streamTable_register]
      exact hSound.exec _
  | dropsStream hdl streamId _ =>
      rw [streamTable_erase]
      exact hSound.exec _
  | closesStreams _ =>
      rw [streamTable_closeConnection _ w _ rfl]
      exact hSound.exec _
  | closesSessions _ =>
      apply hSame
      unfold closeSession
      split <;> split <;> rfl
  | receives _ hWithin =>
      apply hSame
      rw [hWithin.state]
      rfl
  | registers registration callback _ =>
      exact hSame (streamTable_callback callback registration w)
  | _ => exact hSame rfl

/- Streams are only changed by code that uses them. -/
def KeepsStreams
    (may : May)
    (w : WsServer)
    (_ : List ServerEffect)
    (w' : WsServer) : Prop :=
  ¬ may.usesStreams → (∀ hdl, ¬ may.closes hdl) →
    streamTable w' = streamTable w

theorem composes_keepsStreams (may : May) :
    Composes (KeepsStreams may) where
  refl := fun _ _ _ => rfl
  trans := by
    intro w v u _ _ hFirst hSecond hUses hCloses
    exact
      (hSecond hUses hCloses).trans (hFirst hUses hCloses)

theorem streamTable_of_eq
    {w w' : WsServer}
    (hStreams : w'.streams = w.streams) :
    streamTable w' = streamTable w := by
  unfold streamTable
  rw [hStreams]

theorem keepsStreams_of_move
    {S : Sodium}
    {may : May}
    {w w' : WsServer}
    {effects : List ServerEffect}
    (hMove : Move S may w effects w') :
    KeepsStreams may w effects w' := by
  intro hUses hCloses
  cases hMove with
  | registersStream _ _ hMay => exact absurd hMay hUses
  | dropsStream _ _ hMay => exact absurd hMay hUses
  | closesStreams hMay => exact absurd hMay (hCloses _)
  | closesSessions hMay => exact absurd hMay (hCloses _)
  | receives _ hWithin =>
      apply streamTable_of_eq
      rw [hWithin.state]
  | registers registration callback _ =>
      exact streamTable_callback callback registration w
  | _ => exact streamTable_of_eq rfl

theorem Moves.streamTable
    {S : Sodium}
    {may : May}
    {α : Type}
    {act : ServerAction α}
    (hMoves : Moves S may act)
    (hUses : ¬ may.usesStreams)
    (hCloses : ∀ hdl, ¬ may.closes hdl)
    (w : WsServer) :
    streamTable (act.run w).state = streamTable w :=
  (hMoves.mono
    (fun _ _ _ hMove => keepsStreams_of_move hMove)).run
      (composes_keepsStreams may) w hUses hCloses

------------------------------------------------------------
-- What Each Event Does
------------------------------------------------------------

/- A start takes an id, registers the stream and sends. -/
theorem start_streamTable
    {α : Type}
    {S : Sodium}
    (hdl : Hdl)
    {stream : UInt32 → Stream ServerSendFn}
    (hId : ∀ streamId, (stream streamId).streamId = streamId)
    {rest : UInt32 → StreamRef → ServerAction α}
    (hRest :
      ∀ streamId ref, Moves S {} (rest streamId ref))
    (w : WsServer) :
    streamTable
        ((takeStreamId >>= fun streamId =>
          registerStream hdl (stream streamId) >>=
            rest streamId).run w).state =
      (streamTable w).exec
        (.add (hdl, w.nextOutgoingStreamId * 2 + 1) :
          StreamAct StreamKey) := by
  have hTake :
      takeStreamId.run w =
        { result := .ok (w.nextOutgoingStreamId * 2 + 1)
          effects := []
          state :=
            { w with
              nextOutgoingStreamId :=
                w.nextOutgoingStreamId + 1 } } :=
    rfl
  rw [Action.run_bind_ok hTake]
  generalize hNew : w.nextOutgoingStreamId * 2 + 1 = streamId
  let w₁ : WsServer :=
    { w with
      nextOutgoingStreamId := w.nextOutgoingStreamId + 1 }
  have hRegister :
      (registerStream hdl (stream streamId)).run w₁ =
        { result := .ok w.streams.objects.length
          effects := []
          state :=
            { w₁ with
              streams :=
                (w₁.streams.register hdl
                  (stream streamId)).2 } } :=
    rfl
  rw [Action.run_bind_ok hRegister]
  rw [(hRest streamId _).streamTable (by simp) (by simp),
    streamTable_register, hId]
  rfl

theorem startStream_streamTable
    (nonce : Nonce)
    (hdl : Hdl)
    (w : WsServer) :
    streamTable ((startStream S nonce hdl).run w).state =
      (streamTable w).exec
        (.add (hdl, w.nextOutgoingStreamId * 2 + 1) :
          StreamAct StreamKey) := by
  refine
    start_streamTable (S := S) hdl (fun _ => rfl) ?_ w
  intro streamId ref
  apply Ensures.bind (get_moves S)
  intro w
  apply Ensures.bind (Ensures.ofExcept _)
  intro start
  exact
    Ensures.bind (send_moves S nonce hdl start)
      (fun _ => Ensures.pure ref)

theorem startStreamWith_streamTable
    (nonce : Nonce)
    (hdl : Hdl)
    (streamOpCode : OpCode)
    (w : WsServer) :
    streamTable
        ((startStreamWith S nonce hdl streamOpCode).run
          w).state =
      (streamTable w).exec
        (.add (hdl, w.nextOutgoingStreamId * 2 + 1) :
          StreamAct StreamKey) := by
  refine
    start_streamTable (S := S) hdl (fun _ => rfl) ?_ w
  intro streamId ref
  apply Ensures.bind (get_moves S)
  intro w
  split
  · exact Ensures.throw _
  · apply Ensures.bind (Ensures.ofExcept _)
    intro start
    exact
      Ensures.bind (send_moves S nonce hdl start)
        (fun _ => Ensures.pure ref)

theorem call_streamTable
    (method : PublicCall)
    (w : WsServer) :
    streamTable ((call S method).run w).state =
      (streamTable w).exec (streamAct S w (.call method)) := by
  have hOther
      (hNot : method.startsStream = false) :
      streamTable ((call S method).run w).state =
        streamTable w := by
    apply (call_moves S method).streamTable
    · simp [PublicCall.may, hNot]
    · simp [PublicCall.may]
  cases method with
  | startStream nonce hdl =>
      have hState :
          ((call S (.startStream nonce hdl)).run w).state =
            ((startStream S nonce hdl).run w).state := by
        unfold call
        rw [Action.run_bind]
        cases ((startStream S nonce hdl).run w).result <;> rfl
      rw [hState, startStream_streamTable]
      rfl
  | startStreamWith nonce hdl streamOpCode =>
      have hState :
          ((call S
              (.startStreamWith nonce hdl
                streamOpCode)).run w).state =
            ((startStreamWith S nonce hdl streamOpCode).run
              w).state := by
        unfold call
        rw [Action.run_bind]
        cases
          ((startStreamWith S nonce hdl streamOpCode).run
            w).result <;> rfl
      rw [hState, startStreamWith_streamTable]
      rfl
  | _ => exact hOther rfl

------------------------------------------------------------
-- What Each Message Does
------------------------------------------------------------

/- The invocation of a handler, if it is set. -/
def invocation
    (handler : Option HandlerId)
    (callback : HandlerId → ServerCallback) :
    List ServerEffect :=
  (handler.map (fun handler =>
    ServerEffect.invoke (callback handler))).toList

/- Nothing is called, or the answer is passed on. -/
def answered
    (handler : Option HandlerId)
    (answer : Except Exception Unit) : Except Exception Unit :=
  match handler with
  | none => .ok ()
  | some _ => answer

theorem invokeHandler_run_eq
    (handler : Option HandlerId)
    (callback : HandlerId → ServerCallback)
    (answer : Except Exception Unit)
    (w : WsServer) :
    (invokeHandler handler callback answer).run w =
      { result := answered handler answer
        effects := invocation handler callback
        state := w } := by
  cases handler with
  | none => rfl
  | some handler =>
      unfold invokeHandler invoke
      rw [Action.run_emit_bind]
      rfl

/- The handler of a stream object that a message is for. -/
def streamHandler
    (stream : Option StreamRef)
    (handlerOf : Stream ServerSendFn → Option HandlerId)
    (w : WsServer) : Option HandlerId :=
  (stream.bind (w.streams.objects[·]?)).bind handlerOf

theorem dispatchStream_run
    (input : IoInput)
    (stream : Option StreamRef)
    (handlerOf : Stream ServerSendFn → Option HandlerId)
    (callback : HandlerId → ServerCallback)
    (w : WsServer) :
    (dispatchStream input stream handlerOf callback).run w =
      { result :=
          answered (streamHandler stream handlerOf w)
            input.callbackAnswer
        effects :=
          invocation (streamHandler stream handlerOf w) callback
        state := w } := by
  unfold dispatchStream
  rw [Action.run_get_bind, invokeHandler_run_eq]
  rfl

theorem dispatch_streamData_run
    (input : IoInput)
    (hdl : Hdl)
    (isAuth : Bool)
    (streamId : UInt32)
    (data : Bytes)
    (w : WsServer) :
    let handler :=
      streamHandler (w.streams.find hdl streamId)
        Stream.onData w
    (dispatchMessage S input hdl isAuth
        (.streamData streamId data)).run w =
      { result := answered handler input.callbackAnswer
        effects := invocation handler (.streamData · data)
        state := w } :=
  dispatchStream_run input (w.streams.find hdl streamId)
    Stream.onData _ w

theorem dispatch_streamEnd_run
    (input : IoInput)
    (hdl : Hdl)
    (isAuth : Bool)
    (streamId : UInt32)
    (w : WsServer) :
    let handler :=
      streamHandler (w.streams.find hdl streamId)
        Stream.onEnd w
    (dispatchMessage S input hdl isAuth
        (.streamEnd streamId)).run w =
      { result := answered handler input.callbackAnswer
        effects := invocation handler .streamEnd
        state := w } :=
  dispatchStream_run input (w.streams.find hdl streamId)
    Stream.onEnd _ w

theorem dispatch_streamCancel_run
    (input : IoInput)
    (hdl : Hdl)
    (isAuth : Bool)
    (streamId : UInt32)
    (w : WsServer) :
    let handler :=
      streamHandler (w.streams.find hdl streamId)
        Stream.onCancel w
    (dispatchMessage S input hdl isAuth
        (.streamCancel streamId)).run w =
      { result := answered handler input.callbackAnswer
        effects := invocation handler .streamCancel
        state :=
          { w with
            streams := w.streams.erase hdl streamId } } := by
  have hTake :
      (takeStream hdl streamId).run w =
        { result := .ok (w.streams.find hdl streamId)
          effects := []
          state :=
            { w with
              streams := w.streams.erase hdl streamId } } :=
    rfl
  dsimp only [dispatchMessage]
  rw [Action.run_bind_ok hTake, dispatchStream_run]
  rfl

/- The stream handler of the code, or the generic one. -/
def startHandler
    (isAuth : Bool)
    (opCode : Option OpCode)
    (w : WsServer) : Option HandlerId :=
  match opCode.bind
      ((w.dispatchersOf isAuth).streamHandlers[·]?) with
  | some handler => handler
  | none => w.incomingStreamHandler

/- The stream a STREAM_START message makes. -/
def startedStream
    (hdl : Hdl)
    (isAuth : Bool)
    (streamId : UInt32)
    (opCode : Option OpCode) : Stream ServerSendFn where
  streamId := streamId
  sendFn :=
    if isAuth then
      .send hdl
    else
      .sendAnonymous hdl
  opCode := opCode

theorem dispatch_streamStart_run
    (input : IoInput)
    (hdl : Hdl)
    (isAuth : Bool)
    (streamId : UInt32)
    (opCode : Option OpCode)
    (w : WsServer) :
    let handler := startHandler isAuth opCode w
    (dispatchMessage S input hdl isAuth
        (.streamStart streamId opCode)).run w =
      { result := answered handler input.callbackAnswer
        effects :=
          invocation handler
            (.incomingStream · w.streams.objects.length)
        state :=
          { w with
            streams :=
              (w.streams.register hdl
                (startedStream hdl isAuth streamId
                  opCode)).2 } } := by
  have hRegister :
      (registerStream hdl
          (startedStream hdl isAuth streamId opCode)).run w =
        { result := .ok w.streams.objects.length
          effects := []
          state :=
            { w with
              streams :=
                (w.streams.register hdl
                  (startedStream hdl isAuth streamId
                    opCode)).2 } } :=
    rfl
  dsimp only [dispatchMessage, dispatchStreamStart]
  unfold startedStream at hRegister
  rw [Action.run_bind_ok hRegister, Action.run_get_bind,
    invokeHandler_run_eq]
  rfl

theorem dispatchMessage_streamTable
    (input : IoInput)
    (hdl : Hdl)
    (isAuth : Bool)
    (message : Message)
    (w : WsServer) :
    streamTable
        ((dispatchMessage S input hdl isAuth message).run
          w).state =
      (streamTable w).exec
        (message.streamAct (Prod.mk hdl)) := by
  cases message with
  | response requestId response =>
      exact streamTable_of_eq rfl
  | streamStart streamId opCode =>
      rw [dispatch_streamStart_run, streamTable_register]
      rfl
  | streamData streamId data =>
      rw [dispatch_streamData_run]
      rfl
  | streamEnd streamId =>
      rw [dispatch_streamEnd_run]
      rfl
  | streamCancel streamId =>
      rw [dispatch_streamCancel_run, streamTable_erase]
      rfl
  | application payload =>
      have hMoves :
          Moves S { invokes := fun _ => True }
            (dispatchPayload S input hdl isAuth payload) :=
        dispatchPayload_moves S (fun _ _ => trivial)
          (fun _ _ => trivial) input isAuth payload
      exact hMoves.streamTable (by simp) (by simp) w

theorem onClose_streamTable
    (input : IoInput)
    (hdl : Hdl)
    (w : WsServer) :
    streamTable ((onClose input hdl).run w).state =
      (streamTable w).exec
        (streamAct S w (.closed input hdl)) := by
  have hInvoked :=
    invokeHandler_run_eq w.onCloseCallback
      (fun handler => .onClose handler hdl)
      input.callbackAnswer w
  have hRuns :
      closeRuns input w = true ↔
        answered w.onCloseCallback input.callbackAnswer =
          .ok () := by
    unfold closeRuns answered
    cases w.onCloseCallback with
    | none => simp
    | some handler => simp
  have hAct :
      streamAct S w (.closed input hdl) =
        if closeRuns input w then
          .drop (fun k => k.1 == hdl)
        else
          .skip :=
    rfl
  cases hAnswer :
      answered w.onCloseCallback input.callbackAnswer with
  | error e =>
      rw [hAnswer] at hInvoked hRuns
      rw [hAct, if_neg (by simp [hRuns])]
      unfold onClose
      rw [Action.run_get_bind, Action.run_bind_error hInvoked]
      rfl
  | ok u =>
      rw [hAnswer] at hInvoked hRuns
      rw [hAct, if_pos (hRuns.mpr rfl)]
      apply streamTable_closeConnection
      rcases onClose_cases input hdl w with
        ⟨_, e, hError⟩ | hClosed
      · exfalso
        unfold onClose at hError
        rw [Action.run_get_bind,
          Action.run_bind_ok hInvoked] at hError
        cases hError
      · exact hClosed.streams

theorem streamMachine_refines :
    (streamMachine S).Refines where
  step := by
    intro w event
    cases event with
    | opened input hdl =>
        exact
          (onOpen_moves S input hdl).streamTable
            (by simp [ServerEvent.may])
            (by simp [ServerEvent.may]) w
    | message input hdl frame =>
        change
          streamTable
              ((onMessage S input hdl frame).run w).state = _
        simp only [streamMachine, streamAct]
        cases hRead : readMessage S input hdl frame w with
        | none =>
            rw [onMessage_unread S hRead]
            exact
              (unreadMessage_moves S input hdl
                frame).streamTable (by simp) (by simp) w
        | some read =>
            rcases read with ⟨isAuth, message⟩
            rw [onMessage_of_read S hRead]
            have hWithin :=
              receive_within S input hdl frame.payload w
            simp only [dispatchMessage_streamTable]
            rw [streamTable_of_eq]
            rw [hWithin.state]
    | closed input hdl => exact onClose_streamTable S input hdl w
    | timeouts input =>
        exact
          (checkTimeouts_moves S input).streamTable
            (by simp [ServerEvent.may])
            (by simp [ServerEvent.may]) w
    | call method => exact call_streamTable S method w

theorem streamMachine_regular
    (w : WsServer)
    (event : ServerEvent) :
    Streams.Regular ((streamMachine S).act w event) := by
  simp only [streamMachine, streamAct]
  split
  · split
    · trivial
    · exact Streams.regular_streamAct _ _
  · split <;> trivial
  all_goals trivial

------------------------------------------------------------
-- Handlers of Streams
------------------------------------------------------------

/- Callbacks are only invoked by code that may do so. -/
def InvokesOnly
    (may : May)
    (_ : WsServer)
    (effects : List ServerEffect)
    (_ : WsServer) : Prop :=
  ∀ callback, ServerEffect.invoke callback ∈ effects →
    may.invokes callback

theorem composes_invokesOnly (may : May) :
    Composes (InvokesOnly may) where
  refl := by simp [InvokesOnly]
  trans := by
    intro w v u _ _ hFirst hSecond callback hMem
    rcases List.mem_append.mp hMem with hMem | hMem
    · exact hFirst callback hMem
    · exact hSecond callback hMem

theorem invokesOnly_of_move
    {S : Sodium}
    {may : May}
    {w w' : WsServer}
    {effects : List ServerEffect}
    (hMove : Move S may w effects w') :
    InvokesOnly may w effects w' := by
  intro callback hMem
  cases hMove with
  | invokes hMay =>
      cases List.mem_singleton.mp hMem
      exact hMay
  | receives _ hWithin =>
      rcases hWithin.closes _ hMem with ⟨_, _, _, hClose⟩
      cases hClose
  | stopsSessions _ hCloses =>
      rcases hCloses _ hMem with ⟨_, _, _, hClose⟩
      cases hClose
  | _ => simp at hMem

theorem Moves.invokesOnly
    {S : Sodium}
    {may : May}
    {α : Type}
    {act : ServerAction α}
    (hMoves : Moves S may act)
    (w : WsServer) :
    ∀ callback,
      ServerEffect.invoke callback ∈ (act.run w).effects →
        may.invokes callback :=
  (hMoves.mono
    (fun _ _ _ hMove => invokesOnly_of_move hMove)).run
      (composes_invokesOnly may) w

/- A handler of a stream object is called. -/
def isStreamCallback : ServerEffect → Bool
| .invoke (.streamData _ _) => true
| .invoke (.streamEnd _) => true
| .invoke (.streamCancel _) => true
| _ => false

/- The handler of the stream the message is for. -/
def streamCallbacks
    (hdl : Hdl)
    (w : WsServer) : Message → List ServerEffect
| .streamData streamId data =>
    invocation
      (streamHandler (w.streams.find hdl streamId)
        Stream.onData w)
      (.streamData · data)
| .streamEnd streamId =>
    invocation
      (streamHandler (w.streams.find hdl streamId)
        Stream.onEnd w)
      .streamEnd
| .streamCancel streamId =>
    invocation
      (streamHandler (w.streams.find hdl streamId)
        Stream.onCancel w)
      .streamCancel
| _ => []

theorem Moves.no_streamCallbacks
    {S : Sodium}
    {may : May}
    {α : Type}
    {act : ServerAction α}
    (hMoves : Moves S may act)
    (hNone :
      ∀ callback, may.invokes callback →
        isStreamCallback (.invoke callback) = false)
    (w : WsServer) :
    (act.run w).effects.filter isStreamCallback = [] := by
  rw [List.filter_eq_nil_iff]
  intro effect hMem
  cases effect with
  | invoke callback =>
      rw [hNone callback (hMoves.invokesOnly w callback hMem)]
      simp
  | transmit | close | complete => simp [isStreamCallback]

theorem invocation_streamCallback
    (isStream : Bool)
    {callback : HandlerId → ServerCallback}
    (hAll :
      ∀ handler,
        isStreamCallback (.invoke (callback handler)) =
          isStream)
    (handler : Option HandlerId) :
    (invocation handler callback).filter isStreamCallback =
      if isStream then invocation handler callback else [] := by
  cases handler with
  | none => cases isStream <;> rfl
  | some handler =>
      cases isStream <;>
        simp [invocation, hAll]

theorem dispatchMessage_streamCallbacks
    (input : IoInput)
    (hdl : Hdl)
    (isAuth : Bool)
    (message : Message)
    (w : WsServer) :
    ((dispatchMessage S input hdl isAuth message).run
        w).effects.filter isStreamCallback =
      streamCallbacks hdl w message := by
  cases message with
  | response requestId response =>
      have hMoves :
          Moves S { requests := fun _ => True }
            (dispatchMessage S input hdl isAuth
              (.response requestId response)) :=
        requestSection_moves S
          (s := .responds hdl requestId response) trivial
      exact hMoves.no_streamCallbacks (by simp) w
  | streamStart streamId opCode =>
      rw [dispatch_streamStart_run]
      exact
        invocation_streamCallback false (fun _ => rfl) _
  | streamData streamId data =>
      rw [dispatch_streamData_run]
      exact
        invocation_streamCallback true (fun _ => rfl) _
  | streamEnd streamId =>
      rw [dispatch_streamEnd_run]
      exact
        invocation_streamCallback true (fun _ => rfl) _
  | streamCancel streamId =>
      rw [dispatch_streamCancel_run]
      exact
        invocation_streamCallback true (fun _ => rfl) _
  | application payload =>
      have hMoves :
          Moves S
            { invokes := fun callback =>
                isStreamCallback (.invoke callback) = false }
            (dispatchPayload S input hdl isAuth payload) :=
        dispatchPayload_moves S (fun _ _ => rfl)
          (fun _ _ => rfl) input isAuth payload
      exact hMoves.no_streamCallbacks (fun _ hNot => hNot) w

/- Only messages that are read call handlers of streams. -/
theorem handle_streamCallbacks
    (event : ServerEvent)
    (w : WsServer) :
    ((handle S event).run w).effects.filter
        isStreamCallback =
      match event with
      | .message input hdl frame =>
          match readMessage S input hdl frame w with
          | none => []
          | some (_, message) => streamCallbacks hdl w message
      | _ => [] := by
  cases event with
  | opened input hdl =>
      apply (onOpen_moves S input hdl).no_streamCallbacks
      rintro callback ⟨handler, hCallback⟩
      rw [hCallback]
      rfl
  | message input hdl frame =>
      simp only [handle]
      cases hRead : readMessage S input hdl frame w with
      | none =>
          rw [onMessage_unread S hRead]
          apply
            (unreadMessage_moves S input hdl
              frame).no_streamCallbacks
          rintro callback ⟨handler, clientPk, hCallback⟩
          rw [hCallback]
          rfl
      | some read =>
          rcases read with ⟨isAuth, message⟩
          have hWithin :=
            receive_within S input hdl frame.payload w
          have hStreams :
              ((receive S input hdl frame.payload).run
                w).state.streams = w.streams := by
            rw [hWithin.state]
          rw [onMessage_of_read S hRead]
          simp only [List.filter_append,
            dispatchMessage_streamCallbacks]
          have hCloses :
              ((receive S input hdl frame.payload).run
                w).effects.filter isStreamCallback = [] := by
            rw [List.filter_eq_nil_iff]
            intro effect hMem
            rcases hWithin.closes effect hMem with
              ⟨_, _, _, hClose⟩
            rw [hClose]
            simp [isStreamCallback]
          rw [hCloses, List.nil_append]
          cases message <;>
            simp only [streamCallbacks, streamHandler, hStreams]
  | closed input hdl =>
      apply (onClose_moves S input hdl).no_streamCallbacks
      rintro callback ⟨handler, hCallback⟩
      rw [hCallback]
      rfl
  | timeouts input =>
      exact
        (checkTimeouts_moves S input).no_streamCallbacks
          (fun _ hMay => hMay.elim) w
  | call method =>
      exact
        (call_moves S method).no_streamCallbacks
          (fun _ hMay => hMay.elim) w

end WsServer

end ObscuraProto
