import ObscuraProto.Library.Effectful
import ObscuraProto.RateLimiter
import ObscuraProto.WsServer.IdentityMap
import ObscuraProto.WsServer.RequestTable
import ObscuraProto.WsServer.SessionTable

/-
  The state of the server wrapper and its public methods.

  The state is grouped by the mutexes that guard it.  A
  method is an action on the state; its effects are what
  leaves the wrapper: packets and closes handed to the
  transport, completed promises and invoked callbacks.  What
  the outside answers is an input of the method.

  Key definitions include:
    * `WsServer`, `ServerEffect`, `ServerAction`
    * `WsServer.send`, `WsServer.sendAnonymous`
    * `WsServer.sendResponse`, `WsServer.sendToIdentity`
    * `WsServer.asyncRequest`
    * `WsServer.startStream`
    * `WsServer.streamWrite`
    * `WsServer.Registration`, `WsServer.register`
    * `WsServer.PublicCall`, `WsServer.call`
-/

namespace ObscuraProto

------------------------------------------------------------
-- State
------------------------------------------------------------

/- The send function of a stream: `send`, `send_anonymous`. -/
inductive ServerSendFn where
| send (hdl : Hdl)
| sendAnonymous (hdl : Hdl)
deriving DecidableEq, Repr

/- Guarded by `streams_mutex_`; the objects are shared. -/
structure StreamTable where
  perConnectionStreams : NestedMap StreamRef := ∅
  objects : List (Stream ServerSendFn) := []

namespace StreamTable

open NestedMap

/- `per_connection_streams_[hdl][stream_id] = stream`. -/
def register
    (hdl : Hdl)
    (stream : Stream ServerSendFn)
    (t : StreamTable) : StreamRef × StreamTable :=
  (t.objects.length,
    { perConnectionStreams :=
        insertAt hdl stream.streamId
          t.objects.length t.perConnectionStreams
      objects := t.objects ++ [stream] })

def find
    (hdl : Hdl)
    (streamId : UInt32)
    (t : StreamTable) : Option StreamRef :=
  lookupAt hdl streamId t.perConnectionStreams

def erase
    (hdl : Hdl)
    (streamId : UInt32)
    (t : StreamTable) : StreamTable :=
  { t with
    perConnectionStreams :=
      eraseAt hdl streamId
        t.perConnectionStreams }

def closeConnection
    (hdl : Hdl)
    (t : StreamTable) : StreamTable :=
  { t with
    perConnectionStreams := t.perConnectionStreams.erase hdl }

end StreamTable

/- `hasOwner`: whether `weak_from_this` can be locked. -/
structure WsServer where
  config : Config
  serverSignKey : KeyPair
  hasOwner : Bool
  rateLimiter : RateLimiter
  sessionTable : SessionTable := {}
  handshakeOpenTime : Map Hdl Int := ∅
  dispatchers : Dispatchers := {}
  anonDispatchers : Dispatchers := {}
  requests : RequestTable := {}
  nextRequestId : UInt32 := 0
  streams : StreamTable := {}
  incomingStreamHandler : Option HandlerId := none
  nextOutgoingStreamId : UInt32 := 0
  clientIdentityHandler : Option HandlerId := none
  identities : IdentityMap := {}
  onOpenCallback : Option HandlerId := none
  onCloseCallback : Option HandlerId := none
  stopping : Bool := false

/- An invocation of a callback with its arguments. -/
inductive ServerCallback where
| onOpen (handler : HandlerId) (hdl : Hdl)
| onClose (handler : HandlerId) (hdl : Hdl)
| identity
    (handler : HandlerId) (hdl : Hdl) (clientPk : PublicKey)
| payload (handler : HandlerId) (hdl : Hdl) (payload : Payload)
| request
    (handler : HandlerId) (hdl : Hdl) (reader : PayloadReader)
| incomingStream (handler : HandlerId) (stream : StreamRef)
| streamData (handler : HandlerId) (data : Bytes)
| streamEnd (handler : HandlerId)
| streamCancel (handler : HandlerId)
deriving DecidableEq

inductive CloseStatus where
| goingAway
| policyViolation
deriving DecidableEq

/- What leaves the wrapper. -/
inductive ServerEffect where
| transmit (hdl : Hdl) (packet : Bytes)
| close (hdl : Hdl) (status : CloseStatus) (reason : String)
| complete (completion : Completion)
| invoke (callback : ServerCallback)

abbrev ServerAction (α : Type) : Type :=
  Effectful.Action Exception ServerEffect WsServer α

namespace WsServer

open Effectful

/-
  The constructor, and whether a `shared_ptr` owns what it
  has constructed from then on.
-/
def new
    (serverSignKey : KeyPair)
    (config : Config)
    (hasOwner : Bool) : WsServer where
  config := config
  serverSignKey := serverSignKey
  hasOwner := hasOwner
  rateLimiter := RateLimiter.new config.rateLimit

def dispatchersOf
    (isAuth : Bool)
    (w : WsServer) : Dispatchers :=
  if isAuth then
    w.dispatchers
  else
    w.anonDispatchers

------------------------------------------------------------
-- Critical Sections
------------------------------------------------------------

/- A section of `sessions_mutex_` that may transmit. -/
def sessionSection
    (hdl : Hdl)
    (f :
      SessionTable →
        Except Exception (Option Bytes) × SessionTable) :
    ServerAction Unit :=
  Action.atomic (fun w =>
    let (result, t) := f w.sessionTable
    match result with
    | .error e =>
        { result := .error e
          effects := []
          state := { w with sessionTable := t } }
    | .ok packet =>
        { result := .ok ()
          effects :=
            match packet with
            | none => []
            | some packet => [.transmit hdl packet]
          state := { w with sessionTable := t } })

/- A section of `pending_requests_mutex_`. -/
def requestSection
    (f : RequestTable → List Completion × RequestTable) :
    ServerAction Unit :=
  Action.atomic (fun w =>
    let (completions, t) := f w.requests
    { result := .ok ()
      effects := completions.map ServerEffect.complete
      state := { w with requests := t } })

------------------------------------------------------------
-- Sending
------------------------------------------------------------

variable (S : Sodium)

/-
  Lookup, encryption and hand-over in one critical section;
  an exception of the transport is swallowed in it.
-/
def send
    (nonce : Nonce)
    (hdl : Hdl)
    (payload : Payload) : ServerAction Unit :=
  sessionSection hdl
    (fun t => t.send S nonce hdl payload)

def sendAnonymous
    (nonce : Nonce)
    (hdl : Hdl)
    (payload : Payload) : ServerAction Unit :=
  sessionSection hdl
    (fun t => t.sendAnonymous S nonce hdl payload)

def sendResponse
    (nonce : Nonce)
    (hdl : Hdl)
    (requestId : UInt32)
    (payload : Payload) : ServerAction Unit := do
  let w ← Action.get
  let response ←
    Action.ofExcept
      (responsePayload w.config.opcodes requestId payload)
  send S nonce hdl response

/- The response of a handler for anonymous requests. -/
def sendAnonymousResponse
    (nonce : Nonce)
    (hdl : Hdl)
    (requestId : UInt32)
    (payload : Payload) : ServerAction Unit := do
  let w ← Action.get
  let response ←
    Action.ofExcept
      (responsePayload w.config.opcodes requestId payload)
  sendAnonymous S nonce hdl response

def sendToIdentity
    (nonce : Nonce)
    (identityPk : PublicKey)
    (payload : Payload) : ServerAction Unit := do
  let w ← Action.get
  let hdl ←
    Action.ofExcept (w.identities.lookup identityPk)
  send S nonce hdl payload

------------------------------------------------------------
-- Requests
------------------------------------------------------------

/- The inputs of an `async_request` call. -/
structure RequestInput where
  promise : PromiseId
  clock : TimePoint
  nonce : Nonce

/- `next_request_id_++`. -/
def takeRequestId : ServerAction UInt32 :=
  Action.atomic (fun w =>
    { result := .ok w.nextRequestId
      effects := []
      state :=
        { w with nextRequestId := w.nextRequestId + 1 } })

/-
  The promise is registered before the request is sent; when
  the send throws, the record is removed and the exception
  passed on.  The result stands for the future.
-/
def asyncRequest
    (input : RequestInput)
    (hdl : Hdl)
    (payload : Payload)
    (timeoutMs : UInt32) : ServerAction PromiseId := do
  let w ← Action.get
  if (w.sessionTable.ready hdl).isNone then
    Action.throw
      (.logicError
        "Session not ready for sending requests.")
  else
    let requestId ← takeRequestId
    let request ←
      Action.ofExcept (requestPayload requestId payload)
    let effectiveTimeout :=
      w.config.resolveRequestTimeout timeoutMs
    let deadline :=
      if effectiveTimeout > 0 then
        some (afterMs input.clock effectiveTimeout)
      else
        none
    requestSection (fun t =>
      ([], t.register hdl requestId input.promise deadline))
    Action.catchAll (send S input.nonce hdl request)
      (fun e => do
        requestSection (fun t => t.fail hdl requestId e)
        Action.throw e)
    return input.promise

def asyncRequestToIdentity
    (input : RequestInput)
    (identityPk : PublicKey)
    (payload : Payload) : ServerAction PromiseId := do
  let w ← Action.get
  let hdl ←
    Action.ofExcept (w.identities.lookup identityPk)
  asyncRequest S input hdl payload 0

------------------------------------------------------------
-- Streams
------------------------------------------------------------

/- `next_outgoing_stream_id_.fetch_add(1) * 2 + 1`. -/
def takeStreamId : ServerAction UInt32 :=
  Action.atomic (fun w =>
    { result := .ok (w.nextOutgoingStreamId * 2 + 1)
      effects := []
      state :=
        { w with
          nextOutgoingStreamId :=
            w.nextOutgoingStreamId + 1 } })

def registerStream
    (hdl : Hdl)
    (stream : Stream ServerSendFn) :
    ServerAction StreamRef :=
  Action.atomic (fun w =>
    let (ref, t) := w.streams.register hdl stream
    { result := .ok ref
      effects := []
      state := { w with streams := t } })

/- `start_stream(hdl)`. -/
def startStream
    (nonce : Nonce)
    (hdl : Hdl) : ServerAction StreamRef := do
  let streamId ← takeStreamId
  let stream ←
    registerStream hdl
      { streamId := streamId
        sendFn := .send hdl
        opCode := none }
  let w ← Action.get
  let start ←
    Action.ofExcept
      (streamStartPayload w.config.opcodes streamId none)
  send S nonce hdl start
  return stream

/- `start_stream(hdl, stream_op_code)`. -/
def startStreamWith
    (nonce : Nonce)
    (hdl : Hdl)
    (streamOpCode : OpCode) : ServerAction StreamRef := do
  let streamId ← takeStreamId
  let stream ←
    registerStream hdl
      { streamId := streamId
        sendFn := .send hdl
        opCode := some streamOpCode }
  let w ← Action.get
  match w.sessionTable.selectedVersion hdl with
  | none =>
      Action.throw
        (.logicError "Session not found for this connection.")
  | some version =>
      let start ←
        Action.ofExcept
          (streamStartPayload w.config.opcodes streamId
            (startStreamOpCode version streamOpCode))
      send S nonce hdl start
      return stream

/- A call through the send function of a stream. -/
def runSendFn
    (nonce : Nonce)
    (payload : Payload) :
    ServerSendFn → ServerAction Unit
| .send hdl => send S nonce hdl payload
| .sendAnonymous hdl => sendAnonymous S nonce hdl payload

/-
  `write`, `end` and `cancel` of a stream of this server,
  with the payload each of them builds; noexcept.  Without
  an owner to lock the payload is dropped.
-/
def streamCall
    (nonce : Nonce)
    (build :
      Stream ServerSendFn → Except Exception Payload)
    (ref : StreamRef) : ServerAction Unit := do
  let w ← Action.get
  match w.streams.objects[ref]? with
  | none => return ()
  | some stream =>
      Action.catchAll
        (do
          let payload ← Action.ofExcept (build stream)
          if w.hasOwner then
            runSendFn S nonce payload stream.sendFn
          else
            return ())
        (fun _ => return ())

def streamWrite
    (nonce : Nonce)
    (data : Bytes) : StreamRef → ServerAction Unit :=
  streamCall S nonce (Stream.writePayload data)

def streamEnd (nonce : Nonce) :
    StreamRef → ServerAction Unit :=
  streamCall S nonce Stream.endPayload

def streamCancel (nonce : Nonce) :
    StreamRef → ServerAction Unit :=
  streamCall S nonce Stream.cancelPayload

------------------------------------------------------------
-- Registrations
------------------------------------------------------------

/- A write to the handlers of one kind of session. -/
def setDispatchers
    (isAuth : Bool)
    (f : Dispatchers → Dispatchers) : ServerAction Unit :=
  Action.modify (fun w =>
    if isAuth then
      { w with dispatchers := f w.dispatchers }
    else
      { w with anonDispatchers := f w.anonDispatchers })

def setOpHandler
    (isAuth : Bool)
    (opCode : OpCode)
    (callback : Option HandlerId) : ServerAction Unit :=
  setDispatchers isAuth (fun d =>
    { d with
      opCodeHandlers :=
        d.opCodeHandlers.insert opCode callback })

def setRequestHandler
    (isAuth : Bool)
    (opCode : OpCode)
    (callback : Option HandlerId) : ServerAction Unit :=
  setDispatchers isAuth (fun d =>
    { d with
      requestHandlers :=
        d.requestHandlers.insert opCode callback })

def setStreamHandler
    (isAuth : Bool)
    (opCode : OpCode)
    (callback : Option HandlerId) : ServerAction Unit :=
  setDispatchers isAuth (fun d =>
    { d with
      streamHandlers :=
        d.streamHandlers.insert opCode callback })

def setDefaultHandler
    (isAuth : Bool)
    (callback : Option HandlerId) : ServerAction Unit :=
  setDispatchers isAuth (fun d =>
    { d with defaultPayloadHandler := callback })

def registerOpHandler :
    OpCode → Option HandlerId → ServerAction Unit :=
  setOpHandler true

def registerAnonOpHandler :
    OpCode → Option HandlerId → ServerAction Unit :=
  setOpHandler false

def registerRequestHandler :
    OpCode → Option HandlerId → ServerAction Unit :=
  setRequestHandler true

def registerAnonRequestHandler :
    OpCode → Option HandlerId → ServerAction Unit :=
  setRequestHandler false

def registerStreamHandler :
    OpCode → Option HandlerId → ServerAction Unit :=
  setStreamHandler true

def registerAnonStreamHandler :
    OpCode → Option HandlerId → ServerAction Unit :=
  setStreamHandler false

def setDefaultPayloadHandler :
    Option HandlerId → ServerAction Unit :=
  setDefaultHandler true

def setAnonDefaultPayloadHandler :
    Option HandlerId → ServerAction Unit :=
  setDefaultHandler false

def registerIncomingStreamHandler
    (callback : Option HandlerId) : ServerAction Unit :=
  Action.modify (fun w =>
    { w with incomingStreamHandler := callback })

def setOnOpenCallback
    (callback : Option HandlerId) : ServerAction Unit :=
  Action.modify (fun w => { w with onOpenCallback := callback })

def setOnCloseCallback
    (callback : Option HandlerId) : ServerAction Unit :=
  Action.modify (fun w =>
    { w with onCloseCallback := callback })

def setClientIdentityHandler
    (callback : Option HandlerId) : ServerAction Unit :=
  Action.modify (fun w =>
    { w with clientIdentityHandler := callback })

/- The setters of a stream object of this server. -/
def updateStream
    (f : Stream ServerSendFn → Stream ServerSendFn)
    (ref : StreamRef) : ServerAction Unit :=
  Action.modify (fun w =>
    { w with
      streams :=
        { w.streams with
          objects := w.streams.objects.modify ref f } })

/- A registration, without the callback it registers. -/
inductive Registration where
| opHandler (opCode : OpCode)
| anonOpHandler (opCode : OpCode)
| requestHandler (opCode : OpCode)
| anonRequestHandler (opCode : OpCode)
| streamHandler (opCode : OpCode)
| anonStreamHandler (opCode : OpCode)
| defaultPayloadHandler
| anonDefaultPayloadHandler
| incomingStreamHandler
| onOpenCallback
| onCloseCallback
| clientIdentityHandler
| dataHandler (ref : StreamRef)
| endHandler (ref : StreamRef)
| cancelHandler (ref : StreamRef)

def register
    (callback : Option HandlerId) :
    Registration → ServerAction Unit
| .opHandler opCode => registerOpHandler opCode callback
| .anonOpHandler opCode =>
    registerAnonOpHandler opCode callback
| .requestHandler opCode =>
    registerRequestHandler opCode callback
| .anonRequestHandler opCode =>
    registerAnonRequestHandler opCode callback
| .streamHandler opCode =>
    registerStreamHandler opCode callback
| .anonStreamHandler opCode =>
    registerAnonStreamHandler opCode callback
| .defaultPayloadHandler => setDefaultPayloadHandler callback
| .anonDefaultPayloadHandler =>
    setAnonDefaultPayloadHandler callback
| .incomingStreamHandler =>
    registerIncomingStreamHandler callback
| .onOpenCallback => setOnOpenCallback callback
| .onCloseCallback => setOnCloseCallback callback
| .clientIdentityHandler => setClientIdentityHandler callback
| .dataHandler ref =>
    updateStream (Stream.setDataHandler callback) ref
| .endHandler ref =>
    updateStream (Stream.setEndHandler callback) ref
| .cancelHandler ref =>
    updateStream (Stream.setCancelHandler callback) ref

------------------------------------------------------------
-- Public Methods
------------------------------------------------------------

/- A call of a public method by some thread. -/
inductive PublicCall where
| send (nonce : Nonce) (hdl : Hdl) (payload : Payload)
| sendAnonymous (nonce : Nonce) (hdl : Hdl) (payload : Payload)
| sendResponse
    (nonce : Nonce)
    (hdl : Hdl)
    (requestId : UInt32)
    (payload : Payload)
| sendToIdentity
    (nonce : Nonce)
    (identityPk : PublicKey)
    (payload : Payload)
| asyncRequest
    (input : RequestInput)
    (hdl : Hdl)
    (payload : Payload)
    (timeoutMs : UInt32)
| asyncRequestToIdentity
    (input : RequestInput)
    (identityPk : PublicKey)
    (payload : Payload)
| startStream (nonce : Nonce) (hdl : Hdl)
| startStreamWith
    (nonce : Nonce)
    (hdl : Hdl)
    (streamOpCode : OpCode)
| streamWrite (nonce : Nonce) (data : Bytes) (ref : StreamRef)
| streamEnd (nonce : Nonce) (ref : StreamRef)
| streamCancel (nonce : Nonce) (ref : StreamRef)
| register
    (registration : Registration)
    (callback : Option HandlerId)

/- The call, with its return value dropped. -/
def call : PublicCall → ServerAction Unit
| .send nonce hdl payload => send S nonce hdl payload
| .sendAnonymous nonce hdl payload =>
    sendAnonymous S nonce hdl payload
| .sendResponse nonce hdl requestId payload =>
    sendResponse S nonce hdl requestId payload
| .sendToIdentity nonce identityPk payload =>
    sendToIdentity S nonce identityPk payload
| .asyncRequest input hdl payload timeoutMs => do
    let _ ← asyncRequest S input hdl payload timeoutMs
| .asyncRequestToIdentity input identityPk payload => do
    let _ ← asyncRequestToIdentity S input identityPk payload
| .startStream nonce hdl => do
    let _ ← startStream S nonce hdl
| .startStreamWith nonce hdl streamOpCode => do
    let _ ← startStreamWith S nonce hdl streamOpCode
| .streamWrite nonce data ref => streamWrite S nonce data ref
| .streamEnd nonce ref => streamEnd S nonce ref
| .streamCancel nonce ref => streamCancel S nonce ref
| .register registration callback =>
    register callback registration

end WsServer

end ObscuraProto
