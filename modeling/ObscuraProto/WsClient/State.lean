import ObscuraProto.Library.Effectful
import ObscuraProto.WsClient.RequestTable

/-
  The state of the client wrapper and its public methods.

  A method is an action on the state; its effects are what
  leaves the wrapper: packets and closes handed to the
  transport, completed promises and invoked callbacks.  A
  send is a readiness check, an encryption and a hand-over;
  no mutex joins the three.

  Key definitions include:
    * `WsClient`, `ClientEffect`, `ClientAction`
    * `WsClient.checkSend`, `WsClient.encrypt`
    * `WsClient.handOver`, `WsClient.send`
    * `WsClient.asyncRequest`, `WsClient.sendResponse`
    * `WsClient.startStream`, `WsClient.streamWrite`
    * `WsClient.disconnect`
    * `WsClient.PublicCall`, `WsClient.call`
-/

namespace ObscuraProto

------------------------------------------------------------
-- State
------------------------------------------------------------

/- The flags of the watchdog thread; `thread` is its handle. -/
structure Watchdog where
  started : Bool := false
  stop : Bool := false
  thread : Bool := false

namespace Watchdog

def ensure (d : Watchdog) : Watchdog :=
  if d.started then
    d
  else
    { started := true, stop := false, thread := true }

/- The thread is joined before its handle is released. -/
def shutdown (d : Watchdog) : Watchdog :=
  if d.thread then
    { started := false, stop := true, thread := false }
  else
    { d with started := false }

end Watchdog

/-
  The send function of a client stream is `send` of its
  owner, so there is nothing to remember about it.
-/
structure ClientStreamTable where
  activeStreams : Map UInt32 StreamRef := ∅
  objects : List (Stream Unit) := []

namespace ClientStreamTable

/- `active_streams_[stream_id] = stream`. -/
def register
    (stream : Stream Unit)
    (t : ClientStreamTable) :
    StreamRef × ClientStreamTable :=
  (t.objects.length,
    { activeStreams :=
        t.activeStreams.insert stream.streamId
          t.objects.length
      objects := t.objects ++ [stream] })

def find
    (streamId : UInt32)
    (t : ClientStreamTable) : Option StreamRef :=
  t.activeStreams[streamId]?

def erase
    (streamId : UInt32)
    (t : ClientStreamTable) : ClientStreamTable :=
  { t with activeStreams := t.activeStreams.erase streamId }

end ClientStreamTable

/-
  `client_thread_` is modelled by whether it is set, and
  `hasOwner` is whether `weak_from_this` can be locked.
-/
structure WsClient where
  config : Config
  session : Session
  hasOwner : Bool
  clientIdentityKp : Option KeyPair := none
  connectionHdl : Option Hdl := none
  clientThread : Bool := false
  isConnected : Bool := false
  onReadyCallback : Option HandlerId := none
  onDisconnectCallback : Option HandlerId := none
  dispatchers : Dispatchers := {}
  requests : ClientRequestTable := {}
  nextRequestId : UInt32 := 0
  watchdog : Watchdog := {}
  streams : ClientStreamTable := {}
  incomingStreamHandler : Option HandlerId := none
  nextOutgoingStreamId : UInt32 := 0

/- An invocation of a callback with its arguments. -/
inductive ClientCallback where
| ready (handler : HandlerId)
| disconnect (handler : HandlerId)
| payload (handler : HandlerId) (payload : Payload)
| request (handler : HandlerId) (reader : PayloadReader)
| incomingStream (handler : HandlerId) (stream : StreamRef)
| streamData (handler : HandlerId) (data : Bytes)
| streamEnd (handler : HandlerId)
| streamCancel (handler : HandlerId)
deriving DecidableEq

/- What leaves the wrapper. -/
inductive ClientEffect where
| connect (uri : String)
| stopIo
| close (hdl : Option Hdl)
| transmit (hdl : Option Hdl) (packet : Bytes)
| complete (completion : Completion)
| invoke (callback : ClientCallback)

abbrev ClientAction (α : Type) : Type :=
  Effectful.Action Exception ClientEffect WsClient α

namespace WsClient

open Effectful

/-
  The constructor, and whether a `shared_ptr` owns what it
  has constructed from then on.
-/
def new
    (serverSignKey : KeyPair)
    (config : Config)
    (hasOwner : Bool) : WsClient where
  config := config
  hasOwner := hasOwner
  session :=
    Session.new .client serverSignKey
      config.supportedVersions

/- A section of `pending_requests_mutex_`. -/
def requestSection
    (f :
      ClientRequestTable →
        List Completion × ClientRequestTable) :
    ClientAction Unit :=
  Action.atomic (fun w =>
    let (completions, t) := f w.requests
    { result := .ok ()
      effects := completions.map ClientEffect.complete
      state := { w with requests := t } })

------------------------------------------------------------
-- Sending
------------------------------------------------------------

variable (S : Sodium)

/- The condition `send` and `async_request` begin with. -/
def isReady (w : WsClient) : Bool :=
  w.isConnected && w.session.isHandshakeComplete

def checkSend
    (payload : Payload)
    (w : WsClient) : Except Exception Unit :=
  if !w.isReady then
    .error (.logicError "Session not ready for sending data.")
  else if w.config.payloadTooLarge payload then
    .error (.logicError
      "Payload exceeds max_decrypted_payload limit.")
  else
    .ok ()

def encrypt
    (nonce : Nonce)
    (payload : Payload) : ClientAction Bytes :=
  Action.atomic (fun w =>
    let (packet, session) :=
      w.session.encryptPayload S nonce payload
    { result := packet
      effects := []
      state := { w with session := session } })

/- `client_.send`; an exception of it would be swallowed. -/
def handOver (packet : Bytes) : ClientAction Unit :=
  Action.atomic (fun w =>
    { result := .ok ()
      effects := [.transmit w.connectionHdl packet]
      state := w })

def send
    (nonce : Nonce)
    (payload : Payload) : ClientAction Unit := do
  let w ← Action.get
  Action.ofExcept (checkSend payload w)
  Action.catchAll
    (do
      let packet ← encrypt S nonce payload
      handOver packet)
    (fun _ => return ())

def sendResponse
    (nonce : Nonce)
    (requestId : UInt32)
    (payload : Payload) : ClientAction Unit := do
  let w ← Action.get
  let response ←
    Action.ofExcept
      (responsePayload w.config.opcodes requestId payload)
  send S nonce response

------------------------------------------------------------
-- Requests
------------------------------------------------------------

/- `next_request_id_++`. -/
def takeRequestId : ClientAction UInt32 :=
  Action.atomic (fun w =>
    { result := .ok w.nextRequestId
      effects := []
      state :=
        { w with nextRequestId := w.nextRequestId + 1 } })

/- The deadline of a request that is registered now. -/
def deadlineFor
    (clock : TimePoint)
    (timeoutMs : UInt32)
    (w : WsClient) : Option TimePoint :=
  let effectiveTimeout :=
    w.config.resolveRequestTimeout timeoutMs
  if effectiveTimeout > 0 then
    some (afterMs clock effectiveTimeout)
  else
    none

/- A request with a deadline needs the watchdog. -/
def ensureWatchdog
    (deadline : Option TimePoint) : ClientAction Unit :=
  if deadline.isSome then
    Action.modify (fun w =>
      { w with watchdog := w.watchdog.ensure })
  else
    return ()

/-
  The promise is registered before the request is sent; when
  the send throws, the record is removed and the exception
  passed on.  The result stands for the future.
-/
def asyncRequest
    (nonce : Nonce)
    (promise : PromiseId)
    (clock : TimePoint)
    (payload : Payload)
    (timeoutMs : UInt32) : ClientAction PromiseId := do
  let w ← Action.get
  if !w.isReady then
    Action.throw
      (.logicError
        "Session not ready for sending requests.")
  else
    let requestId ← takeRequestId
    let request ←
      Action.ofExcept (requestPayload requestId payload)
    let deadline := w.deadlineFor clock timeoutMs
    requestSection (fun t =>
      ([], t.register requestId promise deadline))
    ensureWatchdog deadline
    Action.catchAll (send S nonce request)
      (fun e => do
        requestSection (fun t => t.fail requestId e)
        Action.throw e)
    return promise

------------------------------------------------------------
-- Streams
------------------------------------------------------------

/- `next_outgoing_stream_id_.fetch_add(1) * 2`. -/
def takeStreamId : ClientAction UInt32 :=
  Action.atomic (fun w =>
    { result := .ok (w.nextOutgoingStreamId * 2)
      effects := []
      state :=
        { w with
          nextOutgoingStreamId :=
            w.nextOutgoingStreamId + 1 } })

def registerStream
    (stream : Stream Unit) : ClientAction StreamRef :=
  Action.atomic (fun w =>
    let (ref, t) := w.streams.register stream
    { result := .ok ref
      effects := []
      state := { w with streams := t } })

/- `start_stream()`. -/
def startStream (nonce : Nonce) : ClientAction StreamRef := do
  let streamId ← takeStreamId
  let stream ←
    registerStream
      { streamId := streamId, sendFn := (), opCode := none }
  let w ← Action.get
  let start ←
    Action.ofExcept
      (streamStartPayload w.config.opcodes streamId none)
  send S nonce start
  return stream

/- `start_stream(stream_op_code)`. -/
def startStreamWith
    (nonce : Nonce)
    (streamOpCode : OpCode) : ClientAction StreamRef := do
  let streamId ← takeStreamId
  let stream ←
    registerStream
      { streamId := streamId
        sendFn := ()
        opCode := some streamOpCode }
  let w ← Action.get
  let start ←
    Action.ofExcept
      (streamStartPayload w.config.opcodes streamId
        (startStreamOpCode w.session.getSelectedVersion
          streamOpCode))
  send S nonce start
  return stream

/-
  `write`, `end` and `cancel` of a stream of this client,
  with the payload each of them builds; noexcept.  Without
  an owner to lock the payload is dropped.
-/
def streamCall
    (nonce : Nonce)
    (build : Stream Unit → Except Exception Payload)
    (ref : StreamRef) : ClientAction Unit := do
  let w ← Action.get
  match w.streams.objects[ref]? with
  | none => return ()
  | some stream =>
      Action.catchAll
        (do
          let payload ← Action.ofExcept (build stream)
          if w.hasOwner then
            send S nonce payload
          else
            return ())
        (fun _ => return ())

def streamWrite
    (nonce : Nonce)
    (data : Bytes) : StreamRef → ClientAction Unit :=
  streamCall S nonce (Stream.writePayload data)

def streamEnd (nonce : Nonce) :
    StreamRef → ClientAction Unit :=
  streamCall S nonce Stream.endPayload

def streamCancel (nonce : Nonce) :
    StreamRef → ClientAction Unit :=
  streamCall S nonce Stream.cancelPayload

------------------------------------------------------------
-- Connecting and Disconnecting
------------------------------------------------------------

/-
  A connection that cannot be created is reported and
  dropped; a previous thread is joined first.
-/
def connect
    (uri : String)
    (created : Except Exception Unit) : ClientAction Unit :=
  Action.catchAll
    (do
      Action.ofExcept created
      Action.emit (.connect uri)
      Action.modify (fun w => { w with clientThread := true }))
    (fun _ => return ())

def setClientIdentity (identityKp : KeyPair) :
    ClientAction Unit :=
  Action.modify (fun w =>
    { w with clientIdentityKp := some identityKp })

def closeConnection : ClientAction Unit := do
  let w ← Action.get
  if w.isConnected then
    Action.emit (.close w.connectionHdl)

/- On the io thread the join is left to a later call. -/
def releaseThread (onIoThread : Bool) : ClientAction Unit :=
  if onIoThread then
    Action.modify (fun w => { w with isConnected := false })
  else
    Action.modify (fun w =>
      { w with
        clientThread := false
        isConnected := false
        watchdog := w.watchdog.shutdown })

def disconnect (onIoThread : Bool) : ClientAction Unit := do
  let w ← Action.get
  if w.clientThread then
    Action.emit .stopIo
    requestSection ClientRequestTable.disconnect
    closeConnection
    releaseThread onIoThread
  else
    return ()

------------------------------------------------------------
-- Registrations
------------------------------------------------------------

def setDispatchers
    (f : Dispatchers → Dispatchers) : ClientAction Unit :=
  Action.modify (fun w =>
    { w with dispatchers := f w.dispatchers })

def registerOpHandler
    (opCode : OpCode)
    (callback : Option HandlerId) : ClientAction Unit :=
  setDispatchers (fun d =>
    { d with
      opCodeHandlers :=
        d.opCodeHandlers.insert opCode callback })

def registerRequestHandler
    (opCode : OpCode)
    (callback : Option HandlerId) : ClientAction Unit :=
  setDispatchers (fun d =>
    { d with
      requestHandlers :=
        d.requestHandlers.insert opCode callback })

def registerStreamHandler
    (opCode : OpCode)
    (callback : Option HandlerId) : ClientAction Unit :=
  setDispatchers (fun d =>
    { d with
      streamHandlers :=
        d.streamHandlers.insert opCode callback })

def setDefaultPayloadHandler
    (callback : Option HandlerId) : ClientAction Unit :=
  setDispatchers (fun d =>
    { d with defaultPayloadHandler := callback })

def registerIncomingStreamHandler
    (callback : Option HandlerId) : ClientAction Unit :=
  Action.modify (fun w =>
    { w with incomingStreamHandler := callback })

def setOnReadyCallback
    (callback : Option HandlerId) : ClientAction Unit :=
  Action.modify (fun w =>
    { w with onReadyCallback := callback })

def setOnDisconnectCallback
    (callback : Option HandlerId) : ClientAction Unit :=
  Action.modify (fun w =>
    { w with onDisconnectCallback := callback })

/- The setters of a stream object of this client. -/
def updateStream
    (f : Stream Unit → Stream Unit)
    (ref : StreamRef) : ClientAction Unit :=
  Action.modify (fun w =>
    { w with
      streams :=
        { w.streams with
          objects := w.streams.objects.modify ref f } })

/- A registration, without the callback it registers. -/
inductive Registration where
| opHandler (opCode : OpCode)
| requestHandler (opCode : OpCode)
| streamHandler (opCode : OpCode)
| defaultPayloadHandler
| incomingStreamHandler
| onReadyCallback
| onDisconnectCallback
| dataHandler (ref : StreamRef)
| endHandler (ref : StreamRef)
| cancelHandler (ref : StreamRef)

def register
    (callback : Option HandlerId) :
    Registration → ClientAction Unit
| .opHandler opCode => registerOpHandler opCode callback
| .requestHandler opCode =>
    registerRequestHandler opCode callback
| .streamHandler opCode =>
    registerStreamHandler opCode callback
| .defaultPayloadHandler => setDefaultPayloadHandler callback
| .incomingStreamHandler =>
    registerIncomingStreamHandler callback
| .onReadyCallback => setOnReadyCallback callback
| .onDisconnectCallback => setOnDisconnectCallback callback
| .dataHandler ref =>
    updateStream (Stream.setDataHandler callback) ref
| .endHandler ref =>
    updateStream (Stream.setEndHandler callback) ref
| .cancelHandler ref =>
    updateStream (Stream.setCancelHandler callback) ref

------------------------------------------------------------
-- Public Methods
------------------------------------------------------------

/- A call of a public method by some thread. -/
inductive PublicCall where
| send (nonce : Nonce) (payload : Payload)
| sendResponse
    (nonce : Nonce)
    (requestId : UInt32)
    (payload : Payload)
| asyncRequest
    (nonce : Nonce)
    (promise : PromiseId)
    (clock : TimePoint)
    (payload : Payload)
    (timeoutMs : UInt32)
| startStream (nonce : Nonce)
| startStreamWith (nonce : Nonce) (streamOpCode : OpCode)
| streamWrite (nonce : Nonce) (data : Bytes) (ref : StreamRef)
| streamEnd (nonce : Nonce) (ref : StreamRef)
| streamCancel (nonce : Nonce) (ref : StreamRef)
| connect (uri : String) (created : Except Exception Unit)
| disconnect (onIoThread : Bool)
| setClientIdentity (identityKp : KeyPair)
| register
    (registration : Registration)
    (callback : Option HandlerId)

/- The call, with its return value dropped. -/
def call : PublicCall → ClientAction Unit
| .send nonce payload => send S nonce payload
| .sendResponse nonce requestId payload =>
    sendResponse S nonce requestId payload
| .asyncRequest nonce promise clock payload timeoutMs => do
    let _ ←
      asyncRequest S nonce promise clock payload timeoutMs
| .startStream nonce => do
    let _ ← startStream S nonce
| .startStreamWith nonce streamOpCode => do
    let _ ← startStreamWith S nonce streamOpCode
| .streamWrite nonce data ref => streamWrite S nonce data ref
| .streamEnd nonce ref => streamEnd S nonce ref
| .streamCancel nonce ref => streamCancel S nonce ref
| .connect uri created => connect uri created
| .disconnect onIoThread => disconnect onIoThread
| .setClientIdentity identityKp =>
    setClientIdentity identityKp
| .register registration callback =>
    register callback registration

end WsClient

end ObscuraProto
