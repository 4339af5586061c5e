import ObscuraProto.WsClient.State

/-
  The events of the client's io thread and its watchdog.

  `on_open`, `on_close`, `on_fail` and `on_message`, and one
  iteration of `watchdog_loop`.  Each is the sequence of its
  critical sections and callbacks; a result that is an
  exception has escaped the handler.

  Key definitions include:
    * `ClientInput`
    * `WsClient.onOpen`, `WsClient.onEnd`
    * `WsClient.dispatch`, `WsClient.onMessage`
    * `WsClient.watchdogPass`
    * `ClientEvent`, `WsClient.handle`, `WsClient.next`
-/

namespace ObscuraProto

/-
  What an event reads from the outside: random values, and
  what the transport and the user callbacks answer.
-/
structure ClientInput where
  kx : KxKeyPair
  nonce : Nonce
  transmit : Except Exception Unit
  requestAnswer : Except Exception Payload
  callbackAnswer : Except Exception Unit

namespace WsClient

open Effectful

def invoke
    {α : Type}
    (callback : ClientCallback)
    (answer : Except Exception α) : ClientAction α := do
  Action.emit (.invoke callback)
  Action.ofExcept answer

/- An empty `std::function` is not called. -/
def invokeHandler
    (handler : Option HandlerId)
    (callback : HandlerId → ClientCallback)
    (answer : Except Exception Unit) : ClientAction Unit :=
  match handler with
  | none => return ()
  | some handler => invoke (callback handler) answer

variable (S : Sodium)

------------------------------------------------------------
-- Open and Close
------------------------------------------------------------

def setIdentityKey : ClientAction Unit :=
  Action.atomic (fun w =>
    match w.clientIdentityKp with
    | none =>
        { result := .ok (), effects := [], state := w }
    | some identityKp =>
        let (result, session) :=
          w.session.setClientIdentityKey identityKp
        { result := result
          effects := []
          state := { w with session := session } })

def initiateHandshake
    (kx : KxKeyPair) : ClientAction ClientHello :=
  Action.atomic (fun w =>
    let (hello, session) :=
      w.session.clientInitiateHandshake S kx
    { result := hello
      effects := []
      state := { w with session := session } })

/- The guarded part of `on_open`. -/
def sendHello
    (input : ClientInput)
    (hdl : Hdl) : ClientAction Unit := do
  setIdentityKey
  let clientHello ← initiateHandshake S input.kx
  Action.emit (.transmit (some hdl) clientHello.serialize)
  Action.ofExcept input.transmit

def onOpen
    (input : ClientInput)
    (hdl : Hdl) : ClientAction Unit := do
  Action.modify (fun w =>
    { w with connectionHdl := some hdl, isConnected := true })
  Action.catchAll (sendHello S input hdl)
    (fun _ => disconnect true)

/- `on_close` and `on_fail` do the same. -/
def onEnd (input : ClientInput) : ClientAction Unit := do
  Action.modify (fun w => { w with isConnected := false })
  let w ← Action.get
  invokeHandler w.onDisconnectCallback .disconnect
    input.callbackAnswer

def onClose (input : ClientInput) : ClientAction Unit :=
  onEnd input

def onFail (input : ClientInput) : ClientAction Unit :=
  onEnd input

------------------------------------------------------------
-- Dispatch
------------------------------------------------------------

/- The handler of the code, or the generic one. -/
def dispatchStreamStart
    (input : ClientInput)
    (streamId : UInt32)
    (opCode : Option OpCode) : ClientAction Unit := do
  let stream ←
    registerStream
      { streamId := streamId, sendFn := (), opCode := opCode }
  let w ← Action.get
  let handlers := w.dispatchers.streamHandlers
  let handler :=
    match opCode.bind (handlers[·]?) with
    | some handler => handler
    | none => w.incomingStreamHandler
  invokeHandler handler
    (fun handler => .incomingStream handler stream)
    input.callbackAnswer

/- A registered stream. -/
def findStream
    (streamId : UInt32) :
    ClientAction (Option StreamRef) := do
  let w ← Action.get
  return w.streams.find streamId

/- The same, and the registration is dropped. -/
def takeStream
    (streamId : UInt32) :
    ClientAction (Option StreamRef) :=
  Action.atomic (fun w =>
    { result := .ok (w.streams.find streamId)
      effects := []
      state :=
        { w with streams := w.streams.erase streamId } })

/- A handler of the stream object is called, if it is set. -/
def dispatchStream
    (input : ClientInput)
    (stream : Option StreamRef)
    (handlerOf : Stream Unit → Option HandlerId)
    (callback : HandlerId → ClientCallback) :
    ClientAction Unit := do
  let w ← Action.get
  let object := stream.bind (w.streams.objects[·]?)
  invokeHandler (object.bind handlerOf) callback
    input.callbackAnswer

/- A request, a payload handler or the default handler. -/
def dispatchPayload
    (input : ClientInput)
    (payload : Payload) : ClientAction Unit := do
  let w ← Action.get
  let d := w.dispatchers
  match d.requestHandlers[payload.opCode]? with
  | some none => return ()
  | some (some handler) =>
      let (requestId, reader) :=
        (PayloadReader.new payload).readParamUint32
      let requestId ← Action.ofExcept requestId
      let response ←
        invoke (.request handler reader) input.requestAnswer
      sendResponse S input.nonce requestId response
  | none =>
      let handler :=
        match d.opCodeHandlers[payload.opCode]? with
        | some handler => handler
        | none => d.defaultPayloadHandler
      invokeHandler handler
        (fun handler => .payload handler payload)
        input.callbackAnswer

def dispatch
    (input : ClientInput)
    (payload : Payload) : ClientAction Unit := do
  let w ← Action.get
  let message ←
    Action.ofExcept (Message.parse w.config.opcodes payload)
  match message with
  | .response requestId response =>
      requestSection (fun t => t.respond requestId response)
  | .streamStart streamId opCode =>
      dispatchStreamStart input streamId opCode
  | .streamData streamId data => do
      let stream ← findStream streamId
      dispatchStream input stream Stream.onData
        (fun handler => .streamData handler data)
  | .streamEnd streamId => do
      let stream ← findStream streamId
      dispatchStream input stream Stream.onEnd .streamEnd
  | .streamCancel streamId => do
      let stream ← takeStream streamId
      dispatchStream input stream Stream.onCancel
        .streamCancel
  | .application payload =>
      dispatchPayload S input payload

------------------------------------------------------------
-- on_message
------------------------------------------------------------

def finalizeHandshake
    (serverHello : ServerHello) : ClientAction Unit :=
  Action.atomic (fun w =>
    let (result, session) :=
      w.session.clientFinalizeHandshake S serverHello
    { result := result
      effects := []
      state := { w with session := session } })

/- The branch before the handshake is complete. -/
def finishHandshake
    (input : ClientInput)
    (data : Bytes) : ClientAction Unit := do
  let serverHello ←
    Action.ofExcept (ServerHello.deserialize data)
  finalizeHandshake S serverHello
  let w ← Action.get
  if w.session.isHandshakeComplete then
    invokeHandler w.onReadyCallback .ready
      input.callbackAnswer
  else
    return ()

def decrypt (packet : Bytes) : ClientAction Payload :=
  Action.atomic (fun w =>
    let (payload, session) := w.session.decryptPacket S packet
    { result := payload
      effects := []
      state := { w with session := session } })

/- The branch of the established session. -/
def receive
    (input : ClientInput)
    (packet : Bytes) : ClientAction Unit := do
  let payload ← decrypt S packet
  let w ← Action.get
  if w.config.payloadTooLarge payload then
    disconnect true
  else
    dispatch S input payload

def processMessage
    (input : ClientInput)
    (data : Bytes) : ClientAction Unit := do
  let w ← Action.get
  if !w.session.isHandshakeComplete then
    finishHandshake S input data
  else
    receive S input data

def onMessage
    (input : ClientInput)
    (frame : Frame) : ClientAction Unit :=
  if !frame.binary then
    return ()
  else
    Action.catchAll (processMessage S input frame.payload)
      (fun _ => disconnect true)

------------------------------------------------------------
-- The Watchdog
------------------------------------------------------------

/- One iteration of the loop, unless it has been stopped. -/
def watchdogPass (now : TimePoint) : ClientAction Unit :=
  Action.atomically do
    let w ← Action.get
    if w.watchdog.stop then
      return ()
    else
      requestSection (fun t => t.expire now)

------------------------------------------------------------
-- All Events
------------------------------------------------------------

end WsClient

/- An event of a thread of the client, or a public call. -/
inductive ClientEvent where
| opened (input : ClientInput) (hdl : Hdl)
| message (input : ClientInput) (frame : Frame)
| closed (input : ClientInput)
| failed (input : ClientInput)
| watchdogPass (now : TimePoint)
| call (method : WsClient.PublicCall)

namespace WsClient

def handle (S : Sodium) : ClientEvent → ClientAction Unit
| .opened input hdl => onOpen S input hdl
| .message input frame => onMessage S input frame
| .closed input => onClose input
| .failed input => onFail input
| .watchdogPass now => watchdogPass now
| .call method => call S method

/- The state after an event, whether it threw or not. -/
def next
    (S : Sodium)
    (w : WsClient)
    (event : ClientEvent) : WsClient :=
  ((handle S event).run w).state

end WsClient

end ObscuraProto
