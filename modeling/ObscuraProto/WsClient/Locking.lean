import ObscuraProto.Library.Locks
import ObscuraProto.WsClient.Events

/-
  The mutexes of the client wrapper.

  Every entry point once more, with the scopes of its lock
  guards.  Forgetting the mutexes gives the actions of the
  client back; and every entry point calls back only outside
  of its sections, none of which contains another.

  Key definitions include:
    * `WsClient.Mutex`, `WsClient.lockPolicy`
    * `WsClient.Locking.call`, `WsClient.Locking.handle`
    * `WsClient.Entry`, `WsClient.Locking.enter`

  Key theorems include:
    * `WsClient.Locking.enter_erases`
    * `WsClient.Locking.enter_balanced`
-/

namespace ObscuraProto

namespace WsClient

open Effectful Locks

------------------------------------------------------------
-- Mutexes
------------------------------------------------------------

inductive Mutex where
| opHandlers
| pendingRequests
| watchdog
| streams
| streamHandlers
deriving DecidableEq

/- As for the server, with all but the streams as leaves. -/
def Mutex.rank : Mutex → Nat
| .streams => 1
| _ => 3

def lockPolicy : Policy Mutex ClientEffect where
  before m m' := m.rank < m'.rank
  callback effect := ∃ callback, effect = .invoke callback

abbrev LockedAction (α : Type) : Type :=
  Action Exception (Locks.Event Mutex ClientEffect) WsClient α

variable (S : Sodium)

namespace Locking

------------------------------------------------------------
-- Sending and Requests
------------------------------------------------------------

def requestSection
    (f :
      ClientRequestTable →
        List Completion × ClientRequestTable) :
    LockedAction Unit :=
  holding .pendingRequests
    (unlocked (WsClient.requestSection f))

/- `send` takes no mutex at all. -/
def send
    (nonce : Nonce)
    (payload : Payload) : LockedAction Unit :=
  unlocked (WsClient.send S nonce payload)

def sendResponse
    (nonce : Nonce)
    (requestId : UInt32)
    (payload : Payload) : LockedAction Unit := do
  let w ← Action.get
  let response ←
    Action.ofExcept
      (responsePayload w.config.opcodes requestId payload)
  send S nonce response

/- The flag is exchanged before the mutex is taken. -/
def startWatchdog : LockedAction Unit := do
  let isFirst ←
    unlocked
      (Action.atomic (fun w : WsClient =>
        { result := .ok (!w.watchdog.started)
          effects := []
          state :=
            { w with
              watchdog :=
                { w.watchdog with started := true } } }))
  if isFirst then
    holding .watchdog
      (Action.modify (fun w =>
        { w with
          watchdog :=
            { w.watchdog with stop := false, thread := true } }))

def ensureWatchdog
    (deadline : Option TimePoint) : LockedAction Unit :=
  if deadline.isSome then
    startWatchdog
  else
    return ()

def asyncRequest
    (nonce : Nonce)
    (promise : PromiseId)
    (clock : TimePoint)
    (payload : Payload)
    (timeoutMs : UInt32) : LockedAction PromiseId := do
  let w ← Action.get
  if !w.isReady then
    Action.throw
      (.logicError
        "Session not ready for sending requests.")
  else
    let requestId ← unlocked takeRequestId
    let request ←
      Action.ofExcept (requestPayload requestId payload)
    let deadline := w.deadlineFor clock timeoutMs
    requestSection (fun t =>
      ([], t.register requestId promise deadline))
    ensureWatchdog deadline
    Action.catchAll (send S nonce request)
      (fun e => do
        requestSection (fun t => t.fail requestId e)
        Action.throw e)
    return promise

------------------------------------------------------------
-- Streams
------------------------------------------------------------

def registerStream
    (stream : Stream Unit) : LockedAction StreamRef :=
  holding .streams (unlocked (WsClient.registerStream stream))

def startStream (nonce : Nonce) : LockedAction StreamRef := do
  let streamId ← unlocked takeStreamId
  let stream ←
    registerStream
      { streamId := streamId, sendFn := (), opCode := none }
  let w ← Action.get
  let start ←
    Action.ofExcept
      (streamStartPayload w.config.opcodes streamId none)
  send S nonce start
  return stream

def startStreamWith
    (nonce : Nonce)
    (streamOpCode : OpCode) : LockedAction StreamRef := do
  let streamId ← unlocked takeStreamId
  let stream ←
    registerStream
      { streamId := streamId
        sendFn := ()
        opCode := some streamOpCode }
  let w ← Action.get
  let start ←
    Action.ofExcept
      (streamStartPayload w.config.opcodes streamId
        (startStreamOpCode w.session.getSelectedVersion
          streamOpCode))
  send S nonce start
  return stream

------------------------------------------------------------
-- Connecting and Disconnecting
------------------------------------------------------------

/- The mutex is given back while the thread is joined. -/
def stopWatchdog : LockedAction Unit := do
  let joinable ←
    holding .watchdog do
      let w ← Action.get
      if w.watchdog.thread then
        Action.modify (fun w =>
          { w with
            watchdog := { w.watchdog with stop := true } })
        return true
      else
        Action.modify (fun w =>
          { w with
            watchdog := { w.watchdog with started := false } })
        return false
  if joinable then
    holding .watchdog
      (Action.modify (fun w =>
        { w with
          watchdog :=
            { w.watchdog with
              thread := false
              started := false } }))

def releaseThread (onIoThread : Bool) : LockedAction Unit :=
  if onIoThread then
    Action.modify (fun w => { w with isConnected := false })
  else do
    Action.modify (fun w =>
      { w with clientThread := false, isConnected := false })
    stopWatchdog

def disconnect (onIoThread : Bool) : LockedAction Unit := do
  let w ← Action.get
  if w.clientThread then
    unlocked (Action.emit .stopIo)
    requestSection ClientRequestTable.disconnect
    unlocked closeConnection
    releaseThread onIoThread
  else
    return ()

/- The mutex of a registration, if it takes one. -/
def guard? : Registration → Option Mutex
| .opHandler _ => some .opHandlers
| .requestHandler _ => some .opHandlers
| .defaultPayloadHandler => some .opHandlers
| .streamHandler _ => some .streamHandlers
| .incomingStreamHandler => none
| .onReadyCallback => none
| .onDisconnectCallback => none
| .dataHandler _ => none
| .endHandler _ => none
| .cancelHandler _ => none

def register
    (callback : Option HandlerId)
    (registration : Registration) : LockedAction Unit :=
  match guard? registration with
  | none => unlocked (WsClient.register callback registration)
  | some m =>
      holding m
        (unlocked (WsClient.register callback registration))

def call : PublicCall → LockedAction Unit
| .send nonce payload => send S nonce payload
| .sendResponse nonce requestId payload =>
    sendResponse S nonce requestId payload
| .asyncRequest nonce promise clock payload timeoutMs => do
    let _ ←
      asyncRequest S nonce promise clock payload timeoutMs
| .startStream nonce => do
    let _ ← startStream S nonce
| .startStreamWith nonce streamOpCode => do
    let _ ← startStreamWith S nonce streamOpCode
| .streamWrite nonce data ref =>
    unlocked (streamWrite S nonce data ref)
| .streamEnd nonce ref => unlocked (streamEnd S nonce ref)
| .streamCancel nonce ref => unlocked (streamCancel S nonce ref)
| .connect uri created => unlocked (connect uri created)
| .disconnect onIoThread => disconnect onIoThread
| .setClientIdentity identityKp =>
    unlocked (setClientIdentity identityKp)
| .register registration callback =>
    register callback registration

------------------------------------------------------------
-- Events
------------------------------------------------------------

def onOpen
    (input : ClientInput)
    (hdl : Hdl) : LockedAction Unit := do
  Action.modify (fun w =>
    { w with connectionHdl := some hdl, isConnected := true })
  Action.catchAll (unlocked (sendHello S input hdl))
    (fun _ => disconnect true)

/- The handler is copied out of its table. -/
def streamHandlerOf
    (opCode : Option OpCode) :
    LockedAction (Option HandlerId) := do
  let w ← Action.get
  match opCode with
  | none => return w.incomingStreamHandler
  | some opCode => do
      let w ← holding .streamHandlers Action.get
      match w.dispatchers.streamHandlers[opCode]? with
      | some handler => return handler
      | none => return w.incomingStreamHandler

def dispatchStreamStart
    (input : ClientInput)
    (streamId : UInt32)
    (opCode : Option OpCode) : LockedAction Unit := do
  let stream ←
    registerStream
      { streamId := streamId, sendFn := (), opCode := opCode }
  let handler ← streamHandlerOf opCode
  unlocked
    (invokeHandler handler
      (fun handler => .incomingStream handler stream)
      input.callbackAnswer)

def findStream
    (streamId : UInt32) :
    LockedAction (Option StreamRef) :=
  holding .streams (unlocked (WsClient.findStream streamId))

def takeStream
    (streamId : UInt32) :
    LockedAction (Option StreamRef) :=
  holding .streams (unlocked (WsClient.takeStream streamId))

/- The handlers are copied out of their tables. -/
def dispatchPayload
    (input : ClientInput)
    (payload : Payload) : LockedAction Unit := do
  let w ← holding .opHandlers Action.get
  let d := w.dispatchers
  match d.requestHandlers[payload.opCode]? with
  | some none => return ()
  | some (some handler) =>
      let (requestId, reader) :=
        (PayloadReader.new payload).readParamUint32
      let requestId ← Action.ofExcept requestId
      let response ←
        unlocked
          (invoke (.request handler reader) input.requestAnswer)
      sendResponse S input.nonce requestId response
  | none =>
      let handler :=
        match d.opCodeHandlers[payload.opCode]? with
        | some handler => handler
        | none => d.defaultPayloadHandler
      unlocked
        (invokeHandler handler
          (fun handler => .payload handler payload)
          input.callbackAnswer)

def dispatch
    (input : ClientInput)
    (payload : Payload) : LockedAction Unit := do
  let w ← Action.get
  let message ←
    Action.ofExcept (Message.parse w.config.opcodes payload)
  match message with
  | .response requestId response =>
      requestSection (fun t => t.respond requestId response)
  | .streamStart streamId opCode =>
      dispatchStreamStart input streamId opCode
  | .streamData streamId data => do
      let stream ← findStream streamId
      unlocked
        (dispatchStream input stream Stream.onData
          (fun handler => .streamData handler data))
  | .streamEnd streamId => do
      let stream ← findStream streamId
      unlocked
        (dispatchStream input stream Stream.onEnd .streamEnd)
  | .streamCancel streamId => do
      let stream ← takeStream streamId
      unlocked
        (dispatchStream input stream Stream.onCancel
          .streamCancel)
  | .application payload =>
      dispatchPayload S input payload

def receive
    (input : ClientInput)
    (packet : Bytes) : LockedAction Unit := do
  let payload ← unlocked (decrypt S packet)
  let w ← Action.get
  if w.config.payloadTooLarge payload then
    disconnect true
  else
    dispatch S input payload

def processMessage
    (input : ClientInput)
    (data : Bytes) : LockedAction Unit := do
  let w ← Action.get
  if !w.session.isHandshakeComplete then
    unlocked (finishHandshake S input data)
  else
    receive S input data

def onMessage
    (input : ClientInput)
    (frame : Frame) : LockedAction Unit :=
  if !frame.binary then
    return ()
  else
    Action.catchAll (processMessage S input frame.payload)
      (fun _ => disconnect true)

/- The watchdog gives the mutex back while it waits. -/
def watchdogPass (now : TimePoint) : LockedAction Unit :=
  holding .pendingRequests
    (unlocked (WsClient.watchdogPass now))

def handle : ClientEvent → LockedAction Unit
| .opened input hdl => onOpen S input hdl
| .message input frame => onMessage S input frame
| .closed input => unlocked (onClose input)
| .failed input => unlocked (onFail input)
| .watchdogPass now => watchdogPass now
| .call method => call S method

end Locking

------------------------------------------------------------
-- Entry Points
------------------------------------------------------------

/- A synchronous request waits for the answer. -/
inductive Entry where
| event (event : ClientEvent)
| syncRequest
    (nonce : Nonce)
    (promise : PromiseId)
    (clock : TimePoint)
    (payload : Payload)
    (timeoutMs : UInt32)
    (answer : Except Exception Payload)

def enter : Entry → ClientAction Unit
| .event event => handle S event
| .syncRequest nonce promise clock payload timeoutMs
      answer => do
    let _ ←
      asyncRequest S nonce promise clock payload timeoutMs
    let _ ← Action.ofExcept answer

namespace Locking

def enter : Entry → LockedAction Unit
| .event event => handle S event
| .syncRequest nonce promise clock payload timeoutMs
      answer => do
    let _ ←
      asyncRequest S nonce promise clock payload timeoutMs
    let _ ← Action.ofExcept answer

------------------------------------------------------------
-- Forgetting the Mutexes
------------------------------------------------------------

theorem requestSection_erases
    (f :
      ClientRequestTable →
        List Completion × ClientRequestTable) :
    Erases (requestSection f) (WsClient.requestSection f) :=
  .holding _ (.unlocked _)

theorem sendResponse_erases
    (nonce : Nonce)
    (requestId : UInt32)
    (payload : Payload) :
    Erases (sendResponse S nonce requestId payload)
      (WsClient.sendResponse S nonce requestId payload) := by
  refine .bind .get (fun w => .bind (.done _) ?_)
  exact fun response => .unlocked _

/- Setting a flag that is set changes nothing. -/
theorem eq_of_started
    {d : Watchdog}
    (hStarted : d.started = true) :
    { d with started := true } = d := by
  cases d
  cases hStarted
  rfl

/- The exchange and the section make one step. -/
theorem startWatchdog_erases :
    Erases startWatchdog
      (Action.modify (fun w =>
        { w with watchdog := w.watchdog.ensure })) := by
  have hSteps (isFirst : Bool) :
      Erases
        (if isFirst then
          holding Mutex.watchdog
            (Action.modify (fun w : WsClient =>
              { w with
                watchdog :=
                  { w.watchdog with
                    stop := false
                    thread := true } }))
        else
          return ())
        (if isFirst then
          Action.modify (fun w : WsClient =>
            { w with
              watchdog :=
                { w.watchdog with
                  stop := false
                  thread := true } })
        else
          return () : ClientAction Unit) := by
    split
    · exact .holding _ (.modify _)
    · exact .pure _
  refine (Erases.bind (.unlocked _) hSteps).congr (fun w => ?_)
  rw [Action.run_bind, Action.run_atomic]
  cases hStarted : w.watchdog.started with
  | true =>
      simp [Watchdog.ensure, hStarted, Action.modify,
        eq_of_started hStarted]
  | false => simp [Watchdog.ensure, hStarted, Action.modify]

theorem ensureWatchdog_erases (deadline : Option TimePoint) :
    Erases (ensureWatchdog deadline)
      (WsClient.ensureWatchdog deadline) := by
  unfold ensureWatchdog WsClient.ensureWatchdog
  split
  · exact startWatchdog_erases
  · exact .pure _

theorem asyncRequest_erases
    (nonce : Nonce)
    (promise : PromiseId)
    (clock : TimePoint)
    (payload : Payload)
    (timeoutMs : UInt32) :
    Erases
      (asyncRequest S nonce promise clock payload timeoutMs)
      (WsClient.asyncRequest S nonce promise clock payload
        timeoutMs) := by
  refine .bind .get (fun w => ?_)
  split
  · exact .done _
  · refine .bind (.unlocked _) (fun requestId => ?_)
    refine .bind (.done _) (fun request => ?_)
    refine .bind (requestSection_erases _) (fun _ => ?_)
    refine .bind (ensureWatchdog_erases _) (fun _ => ?_)
    refine .bind ?_ (fun _ => .pure _)
    refine .catchAll (.unlocked _) (fun e => ?_)
    exact .bind (requestSection_erases _) (fun _ => .done _)

theorem registerStream_erases (stream : Stream Unit) :
    Erases (registerStream stream)
      (WsClient.registerStream stream) :=
  .holding _ (.unlocked _)

theorem startStream_erases (nonce : Nonce) :
    Erases (startStream S nonce)
      (WsClient.startStream S nonce) := by
  refine .bind (.unlocked _) (fun streamId => ?_)
  refine .bind (registerStream_erases _) (fun stream => ?_)
  refine .bind .get (fun w => .bind (.done _) ?_)
  exact fun start => .bind (.unlocked _) (fun _ => .pure _)

theorem startStreamWith_erases
    (nonce : Nonce)
    (streamOpCode : OpCode) :
    Erases (startStreamWith S nonce streamOpCode)
      (WsClient.startStreamWith S nonce streamOpCode) := by
  refine .bind (.unlocked _) (fun streamId => ?_)
  refine .bind (registerStream_erases _) (fun stream => ?_)
  refine .bind .get (fun w => .bind (.done _) ?_)
  exact fun start => .bind (.unlocked _) (fun _ => .pure _)

/- Both ways to leave the watchdog make one step. -/
theorem releaseThread_erases (onIoThread : Bool) :
    Erases (releaseThread onIoThread)
      (WsClient.releaseThread onIoThread) := by
  unfold releaseThread WsClient.releaseThread
  split
  · exact .modify _
  · intro w
    unfold stopWatchdog holding
    cases hThread : w.watchdog.thread with
    | true =>
        simp [Action.run_bind, Action.run_catchAll,
          Action.emit, Action.modify, Action.get,
          Watchdog.shutdown, hThread, visible_acquire,
          visible_release, visible_nil]
    | false =>
        simp [Action.run_bind, Action.run_catchAll,
          Action.emit, Action.modify, Action.get,
          Watchdog.shutdown, hThread, visible_acquire,
          visible_release, visible_nil]

theorem disconnect_erases (onIoThread : Bool) :
    Erases (disconnect onIoThread)
      (WsClient.disconnect onIoThread) := by
  refine .bind .get (fun w => ?_)
  split
  · refine .bind (.unlocked _) (fun _ => ?_)
    refine .bind (requestSection_erases _) (fun _ => ?_)
    exact
      .bind (.unlocked _) (fun _ => releaseThread_erases _)
  · exact .pure _

theorem register_erases
    (callback : Option HandlerId)
    (registration : Registration) :
    Erases (register callback registration)
      (WsClient.register callback registration) := by
  unfold register
  split
  · exact .unlocked _
  · exact .holding _ (.unlocked _)

theorem call_erases (method : PublicCall) :
    Erases (call S method) (WsClient.call S method) := by
  cases method with
  | sendResponse nonce requestId payload =>
      exact sendResponse_erases S nonce requestId payload
  | asyncRequest nonce promise clock payload timeoutMs =>
      exact
        .bind (asyncRequest_erases S _ _ _ _ _)
          (fun _ => .pure _)
  | startStream nonce =>
      exact .bind (startStream_erases S _) (fun _ => .pure _)
  | startStreamWith nonce streamOpCode =>
      exact
        .bind (startStreamWith_erases S _ _) (fun _ => .pure _)
  | disconnect onIoThread => exact disconnect_erases onIoThread
  | register registration callback =>
      exact register_erases callback registration
  | send | streamWrite | streamEnd | streamCancel
  | connect | setClientIdentity =>
      exact .unlocked _

/- The tables are read twice, with the same result. -/
theorem dispatchStreamStart_erases
    (input : ClientInput)
    (streamId : UInt32)
    (opCode : Option OpCode) :
    Erases (dispatchStreamStart input streamId opCode)
      (WsClient.dispatchStreamStart input streamId opCode) := by
  have hHandler :
      Erases (streamHandlerOf opCode)
        (do
          let w ← Action.get
          match opCode with
          | none => return w.incomingStreamHandler
          | some opCode => do
              let w ← Action.get
              match w.dispatchers.streamHandlers[opCode]? with
              | some handler => return handler
              | none => return w.incomingStreamHandler) := by
    refine .bind .get (fun w => ?_)
    cases opCode with
    | none => exact .pure _
    | some opCode =>
        refine .bind (.holding _ .get) (fun w => ?_)
        cases w.dispatchers.streamHandlers[opCode]? with
        | none => exact .pure _
        | some handler => exact .pure _
  refine .bind (registerStream_erases _) (fun stream => ?_)
  have hInvoked (handler : Option HandlerId) :=
    Erases.unlocked (M := Mutex)
      (invokeHandler handler
        (fun handler => .incomingStream handler stream)
        input.callbackAnswer)
  refine (hHandler.bind hInvoked).congr (fun w => ?_)
  rw [Action.bind_assoc, Action.run_get_bind,
    Action.run_get_bind]
  cases opCode with
  | none => rfl
  | some opCode =>
      rw [Action.bind_assoc, Action.run_get_bind]
      simp only [Option.bind_some]
      cases w.dispatchers.streamHandlers[opCode]? with
      | none => rfl
      | some handler => rfl

theorem dispatchPayload_erases
    (input : ClientInput)
    (payload : Payload) :
    Erases (dispatchPayload S input payload)
      (WsClient.dispatchPayload S input payload) := by
  refine .bind (.holding _ .get) (fun w => ?_)
  dsimp only
  cases w.dispatchers.requestHandlers[payload.opCode]? with
  | none => exact .unlocked _
  | some handler =>
      cases handler with
      | none => exact .pure _
      | some handler =>
          refine .bind (.done _) (fun requestId => ?_)
          refine .bind (.unlocked _) (fun response => ?_)
          exact sendResponse_erases S _ _ _

theorem dispatch_erases
    (input : ClientInput)
    (payload : Payload) :
    Erases (dispatch S input payload)
      (WsClient.dispatch S input payload) := by
  have hStream
      {lookup : ClientAction (Option StreamRef)}
      {f : Option StreamRef → ClientAction Unit} :
      Erases
        (holding Mutex.streams (unlocked lookup) >>=
          fun stream => unlocked (f stream))
        (lookup >>= f) :=
    .bind (.holding _ (.unlocked _)) (fun _ => .unlocked _)
  refine .bind .get (fun w => .bind (.done _) ?_)
  intro message
  cases message with
  | response requestId response =>
      exact requestSection_erases _
  | streamStart streamId opCode =>
      exact dispatchStreamStart_erases input streamId opCode
  | streamData streamId data => exact hStream
  | streamEnd streamId => exact hStream
  | streamCancel streamId => exact hStream
  | application payload =>
      exact dispatchPayload_erases S input payload

theorem onMessage_erases
    (input : ClientInput)
    (frame : Frame) :
    Erases (onMessage S input frame)
      (WsClient.onMessage S input frame) := by
  unfold onMessage WsClient.onMessage
  split
  · exact .pure _
  · refine
      .catchAll (.bind .get (fun w => ?_))
        (fun _ => disconnect_erases true)
    split
    · exact .unlocked _
    · refine .bind (.unlocked _) (fun payload => ?_)
      refine .bind .get (fun w => ?_)
      split
      · exact disconnect_erases true
      · exact dispatch_erases S input payload

theorem handle_erases (event : ClientEvent) :
    Erases (handle S event) (WsClient.handle S event) := by
  cases event with
  | opened input hdl =>
      refine .bind (.modify _) (fun _ => ?_)
      exact
        .catchAll (.unlocked _)
          (fun _ => disconnect_erases true)
  | message input frame => exact onMessage_erases S input frame
  | closed input => exact .unlocked _
  | failed input => exact .unlocked _
  | watchdogPass now => exact .holding _ (.unlocked _)
  | call method => exact call_erases S method

/- The entries are those of the client, with mutexes. -/
theorem enter_erases (entry : Entry) :
    Erases (enter S entry) (WsClient.enter S entry) := by
  cases entry with
  | event event => exact handle_erases S event
  | syncRequest nonce promise clock payload timeoutMs answer =>
      refine .bind (asyncRequest_erases S _ _ _ _ _) ?_
      exact fun _ => .bind (.done _) (fun _ => .pure _)

------------------------------------------------------------
-- Lock Discipline
------------------------------------------------------------

/- A section that is entered with nothing held. -/
theorem holding_balanced
    {α : Type}
    {m : Mutex}
    {act : LockedAction α}
    (hAct : Balanced lockPolicy [m] act) :
    Balanced lockPolicy [] (holding m act) :=
  .holding (fun _ hMem => by cases hMem) hAct

/- A step without effects may be taken in any section. -/
theorem silent_balanced
    {α : Type}
    {held : List Mutex}
    {f : WsClient → Outcome Exception ClientEffect WsClient α}
    (hSilent : ∀ w, (f w).effects = []) :
    Balanced lockPolicy held (unlocked (Action.atomic f)) := by
  apply Balanced.unlocked
  apply Ensures.atomic
  intro w effect hMem
  rw [hSilent w] at hMem
  cases hMem

/- Completions are no callbacks. -/
theorem requestSection_quiet
    (f :
      ClientRequestTable →
        List Completion × ClientRequestTable)
    (w : WsClient)
    (effect : ClientEffect)
    (hMem :
      effect ∈ ((WsClient.requestSection f).run w).effects) :
    ¬ lockPolicy.callback effect := by
  rintro ⟨callback, hEffect⟩
  rw [hEffect] at hMem
  simp [WsClient.requestSection] at hMem

theorem requestSection_balanced
    (f :
      ClientRequestTable →
        List Completion × ClientRequestTable) :
    Balanced lockPolicy [] (requestSection f) := by
  apply holding_balanced
  apply Balanced.unlocked
  apply Ensures.atomic
  intro w effect hMem hCallback
  apply (requestSection_quiet f w effect ?_ hCallback).elim
  rw [WsClient.requestSection, Action.run_atomic]
  exact hMem

theorem sendResponse_balanced
    (nonce : Nonce)
    (requestId : UInt32)
    (payload : Payload) :
    Balanced lockPolicy []
      (sendResponse S nonce requestId payload) :=
  .bind .get
    (fun _ =>
      .bind (.ofExcept _) (fun _ => .unlocked_nil _))

theorem ensureWatchdog_balanced (deadline : Option TimePoint) :
    Balanced lockPolicy [] (ensureWatchdog deadline) := by
  unfold ensureWatchdog
  split
  · refine .bind (.unlocked_nil _) (fun isFirst => ?_)
    split
    · exact holding_balanced (.modify _)
    · exact .pure _
  · exact .pure _

theorem asyncRequest_balanced
    (nonce : Nonce)
    (promise : PromiseId)
    (clock : TimePoint)
    (payload : Payload)
    (timeoutMs : UInt32) :
    Balanced lockPolicy []
      (asyncRequest S nonce promise clock payload
        timeoutMs) := by
  refine .bind .get (fun w => ?_)
  split
  · exact .throw _
  · refine .bind (.unlocked_nil _) (fun requestId => ?_)
    refine .bind (.ofExcept _) (fun request => ?_)
    refine .bind (requestSection_balanced _) (fun _ => ?_)
    refine .bind (ensureWatchdog_balanced _) (fun _ => ?_)
    refine .bind ?_ (fun _ => .pure _)
    refine .catchAll (.unlocked_nil _) (fun e => ?_)
    exact .bind (requestSection_balanced _) (fun _ => .throw e)

theorem registerStream_balanced (stream : Stream Unit) :
    Balanced lockPolicy [] (registerStream stream) :=
  holding_balanced (silent_balanced (fun _ => rfl))

theorem startStream_balanced (nonce : Nonce) :
    Balanced lockPolicy [] (startStream S nonce) := by
  refine .bind (.unlocked_nil _) (fun streamId => ?_)
  refine .bind (registerStream_balanced _) (fun stream => ?_)
  refine .bind .get (fun w => .bind (.ofExcept _) ?_)
  exact fun start => .bind (.unlocked_nil _) (fun _ => .pure _)

theorem startStreamWith_balanced
    (nonce : Nonce)
    (streamOpCode : OpCode) :
    Balanced lockPolicy []
      (startStreamWith S nonce streamOpCode) := by
  refine .bind (.unlocked_nil _) (fun streamId => ?_)
  refine .bind (registerStream_balanced _) (fun stream => ?_)
  refine .bind .get (fun w => .bind (.ofExcept _) ?_)
  exact fun start => .bind (.unlocked_nil _) (fun _ => .pure _)

theorem disconnect_balanced (onIoThread : Bool) :
    Balanced lockPolicy [] (disconnect onIoThread) := by
  have hStop : Balanced lockPolicy [] stopWatchdog := by
    refine .bind (holding_balanced ?_) (fun joinable => ?_)
    · refine .bind .get (fun w => ?_)
      split
      · exact .bind (.modify _) (fun _ => .pure _)
      · exact .bind (.modify _) (fun _ => .pure _)
    · split
      · exact holding_balanced (.modify _)
      · exact .pure _
  have hRelease :
      Balanced lockPolicy [] (releaseThread onIoThread) := by
    unfold releaseThread
    split
    · exact .modify _
    · exact .bind (.modify _) (fun _ => hStop)
  refine .bind .get (fun w => ?_)
  split
  · refine .bind (.unlocked_nil _) (fun _ => ?_)
    refine .bind (requestSection_balanced _) (fun _ => ?_)
    exact .bind (.unlocked_nil _) (fun _ => hRelease)
  · exact .pure _

theorem register_balanced
    (callback : Option HandlerId)
    (registration : Registration) :
    Balanced lockPolicy [] (register callback registration) := by
  have hModify :
      ∃ f,
        WsClient.register callback registration =
          Action.modify f := by
    cases registration <;> exact ⟨_, rfl⟩
  rcases hModify with ⟨f, hModify⟩
  unfold register
  split
  · exact .unlocked_nil _
  · rw [hModify]
    exact holding_balanced (silent_balanced (fun _ => rfl))

theorem call_balanced (method : PublicCall) :
    Balanced lockPolicy [] (call S method) := by
  cases method with
  | sendResponse nonce requestId payload =>
      exact sendResponse_balanced S nonce requestId payload
  | asyncRequest nonce promise clock payload timeoutMs =>
      exact
        .bind (asyncRequest_balanced S _ _ _ _ _)
          (fun _ => .pure _)
  | startStream nonce =>
      exact .bind (startStream_balanced S _) (fun _ => .pure _)
  | startStreamWith nonce streamOpCode =>
      exact
        .bind (startStreamWith_balanced S _ _)
          (fun _ => .pure _)
  | disconnect onIoThread =>
      exact disconnect_balanced onIoThread
  | register registration callback =>
      exact register_balanced callback registration
  | send | streamWrite | streamEnd | streamCancel
  | connect | setClientIdentity =>
      exact .unlocked_nil _

theorem dispatchStreamStart_balanced
    (input : ClientInput)
    (streamId : UInt32)
    (opCode : Option OpCode) :
    Balanced lockPolicy []
      (dispatchStreamStart input streamId opCode) := by
  have hHandler :
      Balanced lockPolicy [] (streamHandlerOf opCode) := by
    refine .bind .get (fun w => ?_)
    cases opCode with
    | none => exact .pure _
    | some opCode =>
        refine .bind (holding_balanced .get) (fun w => ?_)
        cases w.dispatchers.streamHandlers[opCode]? with
        | none => exact .pure _
        | some handler => exact .pure _
  refine .bind (registerStream_balanced _) (fun stream => ?_)
  exact .bind hHandler (fun handler => .unlocked_nil _)

/- The handlers are called after their tables are left. -/
theorem dispatchPayload_balanced
    (input : ClientInput)
    (payload : Payload) :
    Balanced lockPolicy [] (dispatchPayload S input payload) := by
  refine .bind (holding_balanced .get) (fun w => ?_)
  dsimp only
  cases w.dispatchers.requestHandlers[payload.opCode]? with
  | none => exact .unlocked_nil _
  | some handler =>
      cases handler with
      | none => exact .pure _
      | some handler =>
          refine .bind (.ofExcept _) (fun requestId => ?_)
          refine .bind (.unlocked_nil _) (fun response => ?_)
          exact sendResponse_balanced S _ _ _

theorem dispatch_balanced
    (input : ClientInput)
    (payload : Payload) :
    Balanced lockPolicy [] (dispatch S input payload) := by
  have hFind (streamId : UInt32) :
      Balanced lockPolicy [] (findStream streamId) := by
    apply holding_balanced
    apply Balanced.unlocked
    refine .bind (.get ?_) (fun w => .pure _)
    intro w effect hMem
    cases hMem
  have hTake (streamId : UInt32) :
      Balanced lockPolicy [] (takeStream streamId) :=
    holding_balanced (silent_balanced (fun _ => rfl))
  refine .bind .get (fun w => .bind (.ofExcept _) ?_)
  intro message
  cases message with
  | response requestId response =>
      exact requestSection_balanced _
  | streamStart streamId opCode =>
      exact dispatchStreamStart_balanced input streamId opCode
  | streamData streamId data =>
      exact .bind (hFind streamId) (fun _ => .unlocked_nil _)
  | streamEnd streamId =>
      exact .bind (hFind streamId) (fun _ => .unlocked_nil _)
  | streamCancel streamId =>
      exact .bind (hTake streamId) (fun _ => .unlocked_nil _)
  | application payload =>
      exact dispatchPayload_balanced S input payload

theorem onMessage_balanced
    (input : ClientInput)
    (frame : Frame) :
    Balanced lockPolicy [] (onMessage S input frame) := by
  unfold onMessage
  split
  · exact .pure _
  · refine
      .catchAll (.bind .get (fun w => ?_))
        (fun _ => disconnect_balanced true)
    split
    · exact .unlocked_nil _
    · refine .bind (.unlocked_nil _) (fun payload => ?_)
      refine .bind .get (fun w => ?_)
      split
      · exact disconnect_balanced true
      · exact dispatch_balanced S input payload

theorem watchdogPass_balanced (now : TimePoint) :
    Balanced lockPolicy [] (watchdogPass now) := by
  apply holding_balanced
  apply Balanced.unlocked
  apply Ensures.atomic
  intro w effect hMem hCallback
  rw [Action.run_get_bind] at hMem
  split at hMem
  · cases hMem
  · exact
      (requestSection_quiet _ w effect hMem hCallback).elim

theorem handle_balanced (event : ClientEvent) :
    Balanced lockPolicy [] (handle S event) := by
  cases event with
  | opened input hdl =>
      refine .bind (.modify _) (fun _ => ?_)
      exact
        .catchAll (.unlocked_nil _)
          (fun _ => disconnect_balanced true)
  | message input frame =>
      exact onMessage_balanced S input frame
  | closed input => exact .unlocked_nil _
  | failed input => exact .unlocked_nil _
  | watchdogPass now => exact watchdogPass_balanced now
  | call method => exact call_balanced S method

theorem enter_balanced (entry : Entry) :
    Balanced lockPolicy [] (enter S entry) := by
  cases entry with
  | event event => exact handle_balanced S event
  | syncRequest nonce promise clock payload timeoutMs answer =>
      refine .bind (asyncRequest_balanced S _ _ _ _ _) ?_
      exact fun _ => .bind (.ofExcept _) (fun _ => .pure _)

end Locking

end WsClient

end ObscuraProto
