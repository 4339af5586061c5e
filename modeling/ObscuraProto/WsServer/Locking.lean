import ObscuraProto.Library.Locks
import ObscuraProto.WsServer.Streams

/-
  The mutexes of the server wrapper.

  Every entry point once more, with the scopes of its lock
  guards: which mutex each section holds, and which code runs
  outside of all of them.  Forgetting the mutexes gives the
  actions of the server back.

  Key definitions include:
    * `WsServer.Mutex`, `WsServer.Mutex.rank`
    * `WsServer.lockPolicy`, `WsServer.LockedAction`
    * `WsServer.Locking.call`, `WsServer.Locking.handle`
    * `WsServer.Entry`, `WsServer.Locking.enter`

  Key theorems include:
    * `WsServer.Locking.enter_erases`
    * `WsServer.Locking.enter_balanced`
-/

namespace ObscuraProto

namespace WsServer

open Effectful Locks

------------------------------------------------------------
-- Mutexes and Their Order
------------------------------------------------------------

/- The mutexes of the wrapper and of its rate limiter. -/
inductive Mutex where
| sessions
| streams
| identityMap
| pendingRequests
| handshakeTime
| opHandlers
| anonOpHandlers
| streamHandlers
| anonStreamHandlers
| rateLimiter
deriving DecidableEq

/- The lock order; all other mutexes are leaves. -/
def Mutex.rank : Mutex → Nat
| .sessions => 0
| .streams => 1
| .identityMap => 2
| _ => 3

def lockPolicy : Policy Mutex ServerEffect where
  before m m' := m.rank < m'.rank
  callback effect := ∃ callback, effect = .invoke callback

abbrev LockedAction (α : Type) : Type :=
  Action Exception (Locks.Event Mutex ServerEffect) WsServer α

namespace Locking

------------------------------------------------------------
-- Public Methods
------------------------------------------------------------

section Methods

variable (S : Sodium)

/- A section of `pending_requests_mutex_`. -/
def requestSection
    (f : RequestTable → List Completion × RequestTable) :
    LockedAction Unit :=
  holding .pendingRequests (unlocked (WsServer.requestSection f))

def send
    (nonce : Nonce)
    (hdl : Hdl)
    (payload : Payload) : LockedAction Unit :=
  holding .sessions
    (unlocked (WsServer.send S nonce hdl payload))

def sendAnonymous
    (nonce : Nonce)
    (hdl : Hdl)
    (payload : Payload) : LockedAction Unit :=
  holding .sessions
    (unlocked (WsServer.sendAnonymous S nonce hdl payload))

def sendResponse
    (nonce : Nonce)
    (hdl : Hdl)
    (requestId : UInt32)
    (payload : Payload) : LockedAction Unit := do
  let w ← Action.get
  let response ←
    Action.ofExcept
      (responsePayload w.config.opcodes requestId payload)
  send S nonce hdl response

def sendAnonymousResponse
    (nonce : Nonce)
    (hdl : Hdl)
    (requestId : UInt32)
    (payload : Payload) : LockedAction Unit := do
  let w ← Action.get
  let response ←
    Action.ofExcept
      (responsePayload w.config.opcodes requestId payload)
  sendAnonymous S nonce hdl response

/- The handle of an identity, read under its mutex. -/
def lookupIdentity (identityPk : PublicKey) : LockedAction Hdl :=
  holding .identityMap do
    let w ← Action.get
    Action.ofExcept (w.identities.lookup identityPk)

def sendToIdentity
    (nonce : Nonce)
    (identityPk : PublicKey)
    (payload : Payload) : LockedAction Unit := do
  let hdl ← lookupIdentity identityPk
  send S nonce hdl payload

def asyncRequest
    (input : RequestInput)
    (hdl : Hdl)
    (payload : Payload)
    (timeoutMs : UInt32) : LockedAction PromiseId := do
  let w ← holding .sessions Action.get
  if (w.sessionTable.ready hdl).isNone then
    Action.throw
      (.logicError
        "Session not ready for sending requests.")
  else
    let requestId ← unlocked takeRequestId
    let request ←
      Action.ofExcept (requestPayload requestId payload)
    let effectiveTimeout :=
      w.config.resolveRequestTimeout timeoutMs
    let deadline :=
      if effectiveTimeout > 0 then
        some (afterMs input.clock effectiveTimeout)
      else
        none
    requestSection (fun t =>
      ([], t.register hdl requestId input.promise deadline))
    Action.catchAll (send S input.nonce hdl request)
      (fun e => do
        requestSection (fun t => t.fail hdl requestId e)
        Action.throw e)
    return input.promise

def asyncRequestToIdentity
    (input : RequestInput)
    (identityPk : PublicKey)
    (payload : Payload) : LockedAction PromiseId := do
  let hdl ← lookupIdentity identityPk
  asyncRequest S input hdl payload 0

def registerStream
    (hdl : Hdl)
    (stream : Stream ServerSendFn) : LockedAction StreamRef :=
  holding .streams
    (unlocked (WsServer.registerStream hdl stream))

def startStream
    (nonce : Nonce)
    (hdl : Hdl) : LockedAction StreamRef := do
  let streamId ← unlocked takeStreamId
  let stream ←
    registerStream hdl
      { streamId := streamId
        sendFn := .send hdl
        opCode := none }
  let w ← Action.get
  let start ←
    Action.ofExcept
      (streamStartPayload w.config.opcodes streamId none)
  send S nonce hdl start
  return stream

/- The version is read under the mutex of the sessions. -/
def startStreamWith
    (nonce : Nonce)
    (hdl : Hdl)
    (streamOpCode : OpCode) : LockedAction StreamRef := do
  let streamId ← unlocked takeStreamId
  let stream ←
    registerStream hdl
      { streamId := streamId
        sendFn := .send hdl
        opCode := some streamOpCode }
  let w ← holding .sessions Action.get
  match w.sessionTable.selectedVersion hdl with
  | none =>
      Action.throw
        (.logicError "Session not found for this connection.")
  | some version =>
      let start ←
        Action.ofExcept
          (streamStartPayload w.config.opcodes streamId
            (startStreamOpCode version streamOpCode))
      send S nonce hdl start
      return stream

def runSendFn
    (nonce : Nonce)
    (payload : Payload) :
    ServerSendFn → LockedAction Unit
| .send hdl => send S nonce hdl payload
| .sendAnonymous hdl => sendAnonymous S nonce hdl payload

/- The caller of a stream has the object itself. -/
def streamCall
    (nonce : Nonce)
    (build :
      Stream ServerSendFn → Except Exception Payload)
    (ref : StreamRef) : LockedAction Unit := do
  let w ← Action.get
  match w.streams.objects[ref]? with
  | none => return ()
  | some stream =>
      Action.catchAll
        (do
          let payload ← Action.ofExcept (build stream)
          if w.hasOwner then
            runSendFn S nonce payload stream.sendFn
          else
            return ())
        (fun _ => return ())

/- The mutex of a registration, if it takes one. -/
def guard? : Registration → Option Mutex
| .opHandler _ => some .opHandlers
| .requestHandler _ => some .opHandlers
| .defaultPayloadHandler => some .opHandlers
| .anonOpHandler _ => some .anonOpHandlers
| .anonRequestHandler _ => some .anonOpHandlers
| .anonDefaultPayloadHandler => some .anonOpHandlers
| .streamHandler _ => some .streamHandlers
| .anonStreamHandler _ => some .anonStreamHandlers
| .incomingStreamHandler => none
| .onOpenCallback => none
| .onCloseCallback => none
| .clientIdentityHandler => none
| .dataHandler _ => none
| .endHandler _ => none
| .cancelHandler _ => none

def register
    (callback : Option HandlerId)
    (registration : Registration) : LockedAction Unit :=
  match guard? registration with
  | none => unlocked (WsServer.register callback registration)
  | some m =>
      holding m
        (unlocked (WsServer.register callback registration))

def call : PublicCall → LockedAction Unit
| .send nonce hdl payload => send S nonce hdl payload
| .sendAnonymous nonce hdl payload =>
    sendAnonymous S nonce hdl payload
| .sendResponse nonce hdl requestId payload =>
    sendResponse S nonce hdl requestId payload
| .sendToIdentity nonce identityPk payload =>
    sendToIdentity S nonce identityPk payload
| .asyncRequest input hdl payload timeoutMs => do
    let _ ← asyncRequest S input hdl payload timeoutMs
| .asyncRequestToIdentity input identityPk payload => do
    let _ ← asyncRequestToIdentity S input identityPk payload
| .startStream nonce hdl => do
    let _ ← startStream S nonce hdl
| .startStreamWith nonce hdl streamOpCode => do
    let _ ← startStreamWith S nonce hdl streamOpCode
| .streamWrite nonce data ref =>
    streamCall S nonce (Stream.writePayload data) ref
| .streamEnd nonce ref =>
    streamCall S nonce Stream.endPayload ref
| .streamCancel nonce ref =>
    streamCall S nonce Stream.cancelPayload ref
| .register registration callback =>
    register callback registration

end Methods

------------------------------------------------------------
-- Open and Close
------------------------------------------------------------

/-
  A method of the rate limiter; some return before they take
  its mutex.
-/
def limiter
    {α : Type}
    (locks : RateLimitConfig → Bool)
    (f : RateLimiter → α × RateLimiter) :
    LockedAction α := do
  let w ← Action.get
  if locks w.rateLimiter.config then
    holding .rateLimiter (unlocked (WsServer.limiter f))
  else
    unlocked (WsServer.limiter f)

def limiterCheck
    (locks : RateLimitConfig → Bool)
    (check : RateLimiter → Bool × RateLimiter) :
    LockedAction Bool := do
  let w ← Action.get
  if w.config.rateLimit.enabled then
    limiter locks check
  else
    return true

def limiterRecord
    (record : RateLimiter → RateLimiter) :
    LockedAction Unit := do
  let w ← Action.get
  if w.config.rateLimit.enabled then
    limiter RateLimitConfig.enabled
      (fun rl => ((), record rl))
  else
    return ()

def recordOpenTime
    (hdl : Hdl)
    (now : Int) : LockedAction Unit := do
  let w ← Action.get
  if w.config.timeouts.enabled &&
      decide (w.config.timeouts.handshakeMs > 0) then
    holding .handshakeTime
      (Action.modify (fun w =>
        { w with
          handshakeOpenTime :=
            w.handshakeOpenTime.insert hdl now }))
  else
    return ()

def onOpen
    (input : IoInput)
    (hdl : Hdl) : LockedAction Unit := do
  let ip := input.remoteIp
  let allowed ←
    limiterCheck
      (fun c =>
        c.enabled && decide (c.connectionsPerMinute ≠ 0))
      (fun rl =>
        rl.checkConnectionRate ip (nowMs (input.clock 0)))
  if !allowed then
    unlocked
      (closeHdl input hdl .policyViolation
        "Connection rate limit exceeded")
  else
    limiterRecord (fun rl =>
      rl.recordConnection ip (nowMs (input.clock 1)))
    let w ← Action.get
    let limits := w.config.connectionLimits
    if limits.enabled && decide (limits.maxTotal > 0) &&
        decide
          (limits.maxTotal ≤ w.rateLimiter.activeTotal) then
      unlocked
        (closeHdl input hdl .policyViolation
          "Max connections reached")
    else
      recordOpenTime hdl (nowMs (input.clock 2))
      let w ← Action.get
      unlocked
        (invokeHandler w.onOpenCallback
          (fun handler => .onOpen handler hdl)
          input.callbackAnswer)

def clearHandshakeTime (hdl : Hdl) : LockedAction Unit :=
  holding .handshakeTime
    (unlocked (WsServer.clearHandshakeTime hdl))

/- The rate limiter is told within the section. -/
def closeSession
    (isAuth : Bool)
    (hdl : Hdl) : LockedAction Unit := do
  let w ← Action.get
  match (w.sessionTable.table isAuth)[hdl]? with
  | none => return ()
  | some state =>
      limiter (fun _ => true) (fun rl =>
        ((),
          rl.unregisterConnection state.rateLimiterId
            state.remoteIp))
      Action.modify (fun w =>
        { w with
          sessionTable := w.sessionTable.erase isAuth hdl })

def onClose
    (input : IoInput)
    (hdl : Hdl) : LockedAction Unit := do
  let w ← Action.get
  unlocked
    (invokeHandler w.onCloseCallback
      (fun handler => .onClose handler hdl)
      input.callbackAnswer)
  holding .sessions do
    closeSession true hdl
    closeSession false hdl
  holding .streams
    (Action.modify (fun w =>
      { w with streams := w.streams.closeConnection hdl }))
  holding .identityMap
    (Action.modify (fun w =>
      { w with identities := w.identities.unregister hdl }))
  requestSection (fun t => t.closeConnection hdl)
  clearHandshakeTime hdl

------------------------------------------------------------
-- Timeouts and Shutdown
------------------------------------------------------------

/- The list is made in the section, the closes follow it. -/
def closeIdle (now : Int) : LockedAction Unit := do
  let w ← Action.get
  let idleMs := w.config.timeouts.idleMs
  if idleMs > 0 then
    let w ← holding .sessions Action.get
    unlocked
      (closeQuietly
        (w.sessionTable.idleConnections now idleMs)
        .policyViolation "Idle timeout")

def closeLateHandshakes (now : Int) : LockedAction Unit := do
  let w ← Action.get
  if w.config.timeouts.handshakeMs > 0 then
    holding .handshakeTime
      (unlocked (WsServer.closeLateHandshakes now))

/- The deadlines are looked at before the mutex is taken. -/
def expireRequests (now : TimePoint) : LockedAction Unit := do
  let w ← Action.get
  if !w.requests.requestDeadlines.isEmpty then
    requestSection (fun t => t.expire now)

def checkTimeouts (input : IoInput) : LockedAction Unit := do
  let now := nowMs (input.clock 0)
  closeIdle now
  closeLateHandshakes now
  expireRequests (input.clock 1)
  limiter (fun _ => true) (fun rl =>
    ((), rl.cleanup (nowMs (input.clock 2))))

def stop : LockedAction Unit := do
  Action.modify (fun w => { w with stopping := true })
  requestSection (fun t => t.stop)
  holding .sessions (unlocked stopSessions)
  holding .identityMap
    (Action.modify (fun w => { w with identities := {} }))

------------------------------------------------------------
-- Messages on an Established Session
------------------------------------------------------------

section Messages

variable (S : Sodium)

def keepPayload
    (input : IoInput)
    (hdl : Hdl)
    (isAuth : Bool)
    (rateLimiterId : UInt64)
    (payload : Payload) : LockedAction Received := do
  let w ← Action.get
  if w.config.payloadTooLarge payload then
    unlocked
      (closeHdl input hdl .policyViolation "Payload too large")
    return .ignored
  else
    limiterRecord (fun rl =>
      rl.recordMessage rateLimiterId (nowUs (input.clock 1)))
    Action.modify (fun w =>
      { w with
        sessionTable :=
          w.sessionTable.touch isAuth hdl
            (nowMs (input.clock 2)) })
    return .decrypted isAuth payload

def accept
    (input : IoInput)
    (hdl : Hdl)
    (packet : Bytes)
    (isAuth : Bool)
    (state : ConnectionState) : LockedAction Received := do
  let payload ←
    unlocked (decrypt S hdl packet isAuth state)
  keepPayload input hdl isAuth state.rateLimiterId payload

def receiveFrom
    (input : IoInput)
    (hdl : Hdl)
    (packet : Bytes)
    (isAuth : Bool)
    (state : ConnectionState) : LockedAction Received := do
  if !state.session.isHandshakeComplete then
    return .ignored
  else
    let allowed ←
      limiterCheck
        (fun c =>
          c.enabled && decide (c.messagesPerSecond ≠ 0))
        (fun rl =>
          rl.checkMessageRate state.rateLimiterId
            (nowUs (input.clock 0)))
    if !allowed then
      unlocked
        (closeHdl input hdl .policyViolation
          "Message rate limit exceeded")
      return .ignored
    else
      Action.catchAll
        (accept S input hdl packet isAuth state)
        (fun _ => return .ignored)

/- The rate limiter is asked within the section. -/
def receive
    (input : IoInput)
    (hdl : Hdl)
    (packet : Bytes) : LockedAction Received :=
  holding .sessions do
    let w ← Action.get
    match w.sessionTable.sessions[hdl]? with
    | some state =>
        receiveFrom S input hdl packet true state
    | none =>
        match w.sessionTable.anonSessions[hdl]? with
        | some state =>
            receiveFrom S input hdl packet false state
        | none => return .unknown

------------------------------------------------------------
-- Dispatch
------------------------------------------------------------

/- The handler is copied out of its table. -/
def streamHandlerOf
    (isAuth : Bool)
    (opCode : Option OpCode) :
    LockedAction (Option HandlerId) := do
  let w ← Action.get
  match opCode with
  | none => return w.incomingStreamHandler
  | some opCode => do
      let m : Mutex :=
        if isAuth then
          .streamHandlers
        else
          .anonStreamHandlers
      let w ← holding m Action.get
      match (w.dispatchersOf isAuth).streamHandlers[opCode]? with
      | some handler => return handler
      | none => return w.incomingStreamHandler

def dispatchStreamStart
    (input : IoInput)
    (hdl : Hdl)
    (isAuth : Bool)
    (streamId : UInt32)
    (opCode : Option OpCode) : LockedAction Unit := do
  let stream ←
    registerStream hdl
      { streamId := streamId
        sendFn :=
          if isAuth then
            .send hdl
          else
            .sendAnonymous hdl
        opCode := opCode }
  let handler ← streamHandlerOf isAuth opCode
  unlocked
    (invokeHandler handler
      (fun handler => .incomingStream handler stream)
      input.callbackAnswer)

def findStream
    (hdl : Hdl)
    (streamId : UInt32) :
    LockedAction (Option StreamRef) :=
  holding .streams (unlocked (WsServer.findStream hdl streamId))

def takeStream
    (hdl : Hdl)
    (streamId : UInt32) :
    LockedAction (Option StreamRef) :=
  holding .streams (unlocked (WsServer.takeStream hdl streamId))

/- The handlers are copied out of their tables. -/
def dispatchPayload
    (input : IoInput)
    (hdl : Hdl)
    (isAuth : Bool)
    (payload : Payload) : LockedAction Unit := do
  let m : Mutex :=
    if isAuth then
      .opHandlers
    else
      .anonOpHandlers
  let w ← holding m Action.get
  let d := w.dispatchersOf isAuth
  match d.requestHandlers[payload.opCode]? with
  | some none => return ()
  | some (some handler) =>
      let (requestId, reader) :=
        (PayloadReader.new payload).readParamUint32
      let requestId ← Action.ofExcept requestId
      let response ←
        unlocked
          (invoke (.request handler hdl reader)
            input.requestAnswer)
      if isAuth then
        sendResponse S input.nonce hdl requestId response
      else
        sendAnonymousResponse S input.nonce hdl requestId
          response
  | none =>
      let handler :=
        match d.opCodeHandlers[payload.opCode]? with
        | some handler => handler
        | none => d.defaultPayloadHandler
      unlocked
        (invokeHandler handler
          (fun handler => .payload handler hdl payload)
          input.callbackAnswer)

def dispatch
    (input : IoInput)
    (hdl : Hdl)
    (isAuth : Bool)
    (payload : Payload) : LockedAction Unit := do
  let w ← Action.get
  let message ←
    Action.ofExcept (Message.parse w.config.opcodes payload)
  match message with
  | .response requestId response =>
      requestSection (fun t =>
        t.respond hdl requestId response)
  | .streamStart streamId opCode =>
      dispatchStreamStart input hdl isAuth streamId opCode
  | .streamData streamId data => do
      let stream ← findStream hdl streamId
      unlocked
        (dispatchStream input stream Stream.onData
          (fun handler => .streamData handler data))
  | .streamEnd streamId => do
      let stream ← findStream hdl streamId
      unlocked
        (dispatchStream input stream Stream.onEnd .streamEnd)
  | .streamCancel streamId => do
      let stream ← takeStream hdl streamId
      unlocked
        (dispatchStream input stream Stream.onCancel
          .streamCancel)
  | .application payload =>
      dispatchPayload S input hdl isAuth payload

------------------------------------------------------------
-- The Handshake
------------------------------------------------------------

def establish
    (input : IoInput)
    (hdl : Hdl)
    (session : Session)
    (identity : Option PublicKey) : LockedAction Unit := do
  let connId ←
    limiter (fun _ => true)
      (fun rl => rl.registerConnection input.remoteIp)
  holding .sessions
    (Action.modify (fun w =>
      { w with
        sessionTable :=
          w.sessionTable.emplace identity.isSome hdl
            { session := session
              rateLimiterId := connId
              remoteIp := input.remoteIp
              lastActivityMs := nowMs (input.clock 2) } }))
  match identity with
  | none => return ()
  | some clientPk =>
      holding .identityMap
        (Action.modify (fun w =>
          { w with
            identities :=
              w.identities.register hdl clientPk }))

def establishIdentified
    (input : IoInput)
    (hdl : Hdl)
    (session : Session)
    (clientPk : PublicKey) : LockedAction Unit := do
  let accepted ←
    unlocked (identityAccepted input hdl clientPk)
  if accepted then
    establish input hdl session (some clientPk)
  else
    unlocked
      (closeHdl input hdl .policyViolation "Identity rejected")

def conclude
    (input : IoInput)
    (hdl : Hdl)
    (clientHello : ClientHello)
    (session : Session) : LockedAction Unit := do
  limiterRecord (fun rl =>
    rl.recordHandshake input.remoteIp
      (nowMs (input.clock 1)))
  match clientHello.hasClientIdentity,
      session.getPeerIdentity with
  | true, some clientPk =>
      establishIdentified input hdl session clientPk
  | _, _ => establish input hdl session none
  clearHandshakeTime hdl

def respondToHello
    (input : IoInput)
    (hdl : Hdl)
    (data : Bytes) : LockedAction Unit := do
  let clientHello ←
    Action.ofExcept (ClientHello.deserialize data)
  let w ← Action.get
  let (reply, session) :=
    (Session.new .server w.serverSignKey
      w.config.supportedVersions).serverRespondToHandshake S
        input.kx clientHello
  let serverHello ← Action.ofExcept reply
  unlocked
    (Action.emit (.transmit hdl serverHello.serialize))
  Action.ofExcept input.transmit
  conclude input hdl clientHello session

def handshake
    (input : IoInput)
    (hdl : Hdl)
    (data : Bytes) : LockedAction Unit := do
  let allowed ←
    limiterCheck
      (fun c =>
        c.enabled &&
          decide (c.handshakeAttemptsPerMinute ≠ 0))
      (fun rl =>
        rl.checkHandshakeRate input.remoteIp
          (nowMs (input.clock 0)))
  if !allowed then
    unlocked
      (closeHdl input hdl .policyViolation
        "Handshake rate limit exceeded")
  else
    respondToHello S input hdl data

def onMessage
    (input : IoInput)
    (hdl : Hdl)
    (frame : Frame) : LockedAction Unit := do
  if !frame.binary then
    return ()
  else
    let received ← receive S input hdl frame.payload
    match received with
    | .ignored => return ()
    | .decrypted isAuth payload =>
        Action.catchAll
          (dispatch S input hdl isAuth payload)
          (fun _ => return ())
    | .unknown =>
        Action.catchAll
          (handshake S input hdl frame.payload)
          (fun _ =>
            unlocked
              (closeHdl input hdl .policyViolation
                "Handshake error"))

def handle : ServerEvent → LockedAction Unit
| .opened input hdl => onOpen input hdl
| .message input hdl frame => onMessage S input hdl frame
| .closed input hdl => onClose input hdl
| .timeouts input => checkTimeouts input
| .call method => call S method

end Messages

end Locking

------------------------------------------------------------
-- Entry Points
------------------------------------------------------------

/-
  Everything that may be entered from the outside.  `run`
  starts the thread of the events; a synchronous request
  waits for its future, with the answer it finds there.
-/
inductive Entry where
| event (event : ServerEvent)
| run
| stop
| getClientIdentity (hdl : Hdl)
| syncRequest
    (input : RequestInput)
    (hdl : Hdl)
    (payload : Payload)
    (timeoutMs : UInt32)
    (answer : Except Exception Payload)
| syncRequestToIdentity
    (input : RequestInput)
    (identityPk : PublicKey)
    (payload : Payload)
    (answer : Except Exception Payload)

variable (S : Sodium)

def enter : Entry → ServerAction Unit
| .event event => handle S event
| .run => return ()
| .stop => stop
| .getClientIdentity hdl => do
    let w ← Action.get
    let _ ←
      Action.ofExcept (w.sessionTable.getClientIdentity hdl)
| .syncRequest input hdl payload timeoutMs answer => do
    let _ ← asyncRequest S input hdl payload timeoutMs
    let _ ← Action.ofExcept answer
| .syncRequestToIdentity input identityPk payload answer => do
    let _ ← asyncRequestToIdentity S input identityPk payload
    let _ ← Action.ofExcept answer

namespace Locking

def enter : Entry → LockedAction Unit
| .event event => handle S event
| .run => return ()
| .stop => stop
| .getClientIdentity hdl => do
    let w ← holding .sessions Action.get
    let _ ←
      Action.ofExcept (w.sessionTable.getClientIdentity hdl)
| .syncRequest input hdl payload timeoutMs answer => do
    let _ ← asyncRequest S input hdl payload timeoutMs
    let _ ← Action.ofExcept answer
| .syncRequestToIdentity input identityPk payload answer => do
    let _ ← asyncRequestToIdentity S input identityPk payload
    let _ ← Action.ofExcept answer

------------------------------------------------------------
-- Forgetting the Mutexes of Methods
------------------------------------------------------------

theorem requestSection_erases
    (f : RequestTable → List Completion × RequestTable) :
    Erases (requestSection f) (WsServer.requestSection f) :=
  .holding _ (.unlocked _)

theorem send_erases
    (nonce : Nonce)
    (hdl : Hdl)
    (payload : Payload) :
    Erases (send S nonce hdl payload)
      (WsServer.send S nonce hdl payload) :=
  .holding _ (.unlocked _)

theorem sendAnonymous_erases
    (nonce : Nonce)
    (hdl : Hdl)
    (payload : Payload) :
    Erases (sendAnonymous S nonce hdl payload)
      (WsServer.sendAnonymous S nonce hdl payload) :=
  .holding _ (.unlocked _)

theorem sendResponse_erases
    (nonce : Nonce)
    (hdl : Hdl)
    (requestId : UInt32)
    (payload : Payload) :
    Erases (sendResponse S nonce hdl requestId payload)
      (WsServer.sendResponse S nonce hdl requestId
        payload) := by
  refine .bind .get (fun w => .bind (.done _) ?_)
  exact fun response => send_erases S nonce hdl response

theorem sendAnonymousResponse_erases
    (nonce : Nonce)
    (hdl : Hdl)
    (requestId : UInt32)
    (payload : Payload) :
    Erases (sendAnonymousResponse S nonce hdl requestId payload)
      (WsServer.sendAnonymousResponse S nonce hdl requestId
        payload) := by
  refine .bind .get (fun w => .bind (.done _) ?_)
  exact fun response => sendAnonymous_erases S nonce hdl response

/- What follows the lookup of an identity. -/
theorem lookupIdentity_bind_erases
    {α : Type}
    {identityPk : PublicKey}
    {f : Hdl → LockedAction α}
    {g : Hdl → ServerAction α}
    (hNext : ∀ hdl, Erases (f hdl) (g hdl)) :
    Erases (lookupIdentity identityPk >>= f)
      (do
        let w ← Action.get
        let hdl ←
          Action.ofExcept (w.identities.lookup identityPk)
        g hdl) := by
  have hLookup :
      Erases (lookupIdentity identityPk)
        (do
          let w ← Action.get
          Action.ofExcept (w.identities.lookup identityPk)) :=
    .holding _ (.bind .get (fun w => .done _))
  exact (hLookup.bind hNext).congr (fun _ => rfl)

theorem sendToIdentity_erases
    (nonce : Nonce)
    (identityPk : PublicKey)
    (payload : Payload) :
    Erases (sendToIdentity S nonce identityPk payload)
      (WsServer.sendToIdentity S nonce identityPk payload) :=
  lookupIdentity_bind_erases
    (fun hdl => send_erases S nonce hdl payload)

theorem asyncRequest_erases
    (input : RequestInput)
    (hdl : Hdl)
    (payload : Payload)
    (timeoutMs : UInt32) :
    Erases (asyncRequest S input hdl payload timeoutMs)
      (WsServer.asyncRequest S input hdl payload
        timeoutMs) := by
  refine .bind (.holding _ .get) (fun w => ?_)
  dsimp only
  split
  · exact .done _
  · refine .bind (.unlocked _) (fun requestId => ?_)
    refine .bind (.done _) (fun request => ?_)
    refine .bind (requestSection_erases _) (fun _ => ?_)
    refine .bind ?_ (fun _ => .pure _)
    refine .catchAll (send_erases S input.nonce hdl _) ?_
    intro e
    exact .bind (requestSection_erases _) (fun _ => .done _)

theorem asyncRequestToIdentity_erases
    (input : RequestInput)
    (identityPk : PublicKey)
    (payload : Payload) :
    Erases (asyncRequestToIdentity S input identityPk payload)
      (WsServer.asyncRequestToIdentity S input identityPk
        payload) :=
  lookupIdentity_bind_erases
    (fun hdl => asyncRequest_erases S input hdl payload 0)

theorem registerStream_erases
    (hdl : Hdl)
    (stream : Stream ServerSendFn) :
    Erases (registerStream hdl stream)
      (WsServer.registerStream hdl stream) :=
  .holding _ (.unlocked _)

theorem startStream_erases (nonce : Nonce) (hdl : Hdl) :
    Erases (startStream S nonce hdl)
      (WsServer.startStream S nonce hdl) := by
  refine .bind (.unlocked _) (fun streamId => ?_)
  refine .bind (registerStream_erases _ _) (fun stream => ?_)
  refine .bind .get (fun w => .bind (.done _) ?_)
  intro start
  exact .bind (send_erases S nonce hdl start) (fun _ => .pure _)

theorem startStreamWith_erases
    (nonce : Nonce)
    (hdl : Hdl)
    (streamOpCode : OpCode) :
    Erases (startStreamWith S nonce hdl streamOpCode)
      (WsServer.startStreamWith S nonce hdl
        streamOpCode) := by
  refine .bind (.unlocked _) (fun streamId => ?_)
  refine .bind (registerStream_erases _ _) (fun stream => ?_)
  refine .bind (.holding _ .get) (fun w => ?_)
  cases w.sessionTable.selectedVersion hdl with
  | none => exact .done _
  | some version =>
      refine .bind (.done _) (fun start => ?_)
      exact
        .bind (send_erases S nonce hdl start) (fun _ => .pure _)

theorem streamCall_erases
    (nonce : Nonce)
    (build :
      Stream ServerSendFn → Except Exception Payload)
    (ref : StreamRef) :
    Erases (streamCall S nonce build ref)
      (WsServer.streamCall S nonce build ref) := by
  refine .bind .get (fun w => ?_)
  cases w.streams.objects[ref]? with
  | none => exact .pure _
  | some stream =>
      refine .catchAll (.bind (.done _) ?_) (fun _ => .pure _)
      intro payload
      cases w.hasOwner with
      | false => exact .pure _
      | true =>
          cases stream.sendFn with
          | send hdl => exact send_erases S nonce hdl payload
          | sendAnonymous hdl =>
              exact sendAnonymous_erases S nonce hdl payload

theorem register_erases
    (callback : Option HandlerId)
    (registration : Registration) :
    Erases (register callback registration)
      (WsServer.register callback registration) := by
  unfold register
  split
  · exact .unlocked _
  · exact .holding _ (.unlocked _)

theorem call_erases (method : PublicCall) :
    Erases (call S method) (WsServer.call S method) := by
  cases method with
  | send nonce hdl payload => exact send_erases S nonce hdl payload
  | sendAnonymous nonce hdl payload =>
      exact sendAnonymous_erases S nonce hdl payload
  | sendResponse nonce hdl requestId payload =>
      exact sendResponse_erases S nonce hdl requestId payload
  | sendToIdentity nonce identityPk payload =>
      exact sendToIdentity_erases S nonce identityPk payload
  | asyncRequest input hdl payload timeoutMs =>
      exact
        .bind
          (asyncRequest_erases S input hdl payload timeoutMs)
          (fun _ => .pure _)
  | asyncRequestToIdentity input identityPk payload =>
      exact
        .bind
          (asyncRequestToIdentity_erases S input identityPk
            payload)
          (fun _ => .pure _)
  | startStream nonce hdl =>
      exact
        .bind (startStream_erases S nonce hdl)
          (fun _ => .pure _)
  | startStreamWith nonce hdl streamOpCode =>
      exact
        .bind (startStreamWith_erases S nonce hdl streamOpCode)
          (fun _ => .pure _)
  | streamWrite nonce data ref =>
      exact streamCall_erases S nonce _ ref
  | streamEnd nonce ref => exact streamCall_erases S nonce _ ref
  | streamCancel nonce ref =>
      exact streamCall_erases S nonce _ ref
  | register registration callback =>
      exact register_erases callback registration

------------------------------------------------------------
-- Forgetting the Mutexes of Events
------------------------------------------------------------

theorem limiter_erases
    {α : Type}
    (locks : RateLimitConfig → Bool)
    (f : RateLimiter → α × RateLimiter) :
    Erases (limiter locks f) (WsServer.limiter f) := by
  have hEither (w : WsServer) :
      Erases
        (if locks w.rateLimiter.config then
          holding Mutex.rateLimiter (unlocked (WsServer.limiter f))
        else
          unlocked (WsServer.limiter f))
        (WsServer.limiter f) := by
    split
    · exact .holding _ (.unlocked _)
    · exact .unlocked _
  exact (Erases.bind .get hEither).congr (fun _ => rfl)

theorem limiterCheck_erases
    (locks : RateLimitConfig → Bool)
    (check : RateLimiter → Bool × RateLimiter) :
    Erases (limiterCheck locks check)
      (WsServer.limiterCheck check) := by
  refine .bind .get (fun w => ?_)
  split
  · exact limiter_erases _ _
  · exact .pure _

theorem limiterRecord_erases
    (record : RateLimiter → RateLimiter) :
    Erases (limiterRecord record)
      (WsServer.limiterRecord record) := by
  refine .bind .get (fun w => ?_)
  split
  · exact limiter_erases _ _
  · exact .pure _

theorem recordOpenTime_erases (hdl : Hdl) (now : Int) :
    Erases (recordOpenTime hdl now)
      (WsServer.recordOpenTime hdl now) := by
  refine .bind .get (fun w => ?_)
  split
  · exact .holding _ (.modify _)
  · exact .pure _

theorem onOpen_erases (input : IoInput) (hdl : Hdl) :
    Erases (onOpen input hdl) (WsServer.onOpen input hdl) := by
  refine .bind (limiterCheck_erases _ _) (fun allowed => ?_)
  split
  · exact .unlocked _
  · refine .bind (limiterRecord_erases _) (fun _ => ?_)
    refine .bind .get (fun w => ?_)
    dsimp only
    split
    · exact .unlocked _
    · refine .bind (recordOpenTime_erases _ _) (fun _ => ?_)
      exact .bind .get (fun w => .unlocked _)

theorem clearHandshakeTime_erases (hdl : Hdl) :
    Erases (clearHandshakeTime hdl)
      (WsServer.clearHandshakeTime hdl) :=
  .holding _ (.unlocked _)

/- The two steps of the section make one. -/
theorem closeSession_erases (isAuth : Bool) (hdl : Hdl) :
    Erases (closeSession isAuth hdl)
      (Action.modify (WsServer.closeSession isAuth hdl)) := by
  have hSteps (w : WsServer) :
      Erases
        (match (w.sessionTable.table isAuth)[hdl]? with
          | none => return ()
          | some state => do
              limiter (fun _ => true) (fun rl =>
                ((),
                  rl.unregisterConnection state.rateLimiterId
                    state.remoteIp))
              Action.modify (fun w =>
                { w with
                  sessionTable :=
                    w.sessionTable.erase isAuth hdl }))
        (match (w.sessionTable.table isAuth)[hdl]? with
          | none => return ()
          | some state => do
              WsServer.limiter (fun rl =>
                ((),
                  rl.unregisterConnection state.rateLimiterId
                    state.remoteIp))
              Action.modify (fun w =>
                { w with
                  sessionTable :=
                    w.sessionTable.erase isAuth hdl })) := by
    cases (w.sessionTable.table isAuth)[hdl]? with
    | none => exact .pure _
    | some state =>
        exact
          .bind (limiter_erases _ _) (fun _ => .modify _)
  refine (Erases.bind .get hSteps).congr (fun w => ?_)
  rw [Action.run_get_bind]
  have hModify :
      (Action.modify (WsServer.closeSession isAuth hdl) :
          ServerAction Unit).run w =
        { result := .ok ()
          effects := []
          state := WsServer.closeSession isAuth hdl w } :=
    rfl
  rw [hModify]
  unfold WsServer.closeSession
  cases (w.sessionTable.table isAuth)[hdl]? with
  | none => rfl
  | some state => rfl

theorem onClose_erases (input : IoInput) (hdl : Hdl) :
    Erases (onClose input hdl)
      (WsServer.onClose input hdl) := by
  have hSessions :
      Erases
        (holding .sessions do
          closeSession true hdl
          closeSession false hdl)
        (Action.modify (fun w =>
          WsServer.closeSession false hdl
            (WsServer.closeSession true hdl w))) :=
    (Erases.holding _
      (.bind (closeSession_erases true hdl)
        (fun _ => closeSession_erases false hdl))).congr
          (fun _ => rfl)
  refine .bind .get (fun w => ?_)
  refine .bind (.unlocked _) (fun _ => ?_)
  refine .bind hSessions (fun _ => ?_)
  refine .bind (.holding _ (.modify _)) (fun _ => ?_)
  refine .bind (.holding _ (.modify _)) (fun _ => ?_)
  exact
    .bind (requestSection_erases _)
      (fun _ => clearHandshakeTime_erases hdl)

theorem closeIdle_erases (now : Int) :
    Erases (closeIdle now) (WsServer.closeIdle now) := by
  have hBranch (w : WsServer) :
      Erases
        (if w.config.timeouts.idleMs > 0 then do
          let v ← holding Mutex.sessions Action.get
          unlocked
            (closeQuietly
              (v.sessionTable.idleConnections now
                w.config.timeouts.idleMs)
              .policyViolation "Idle timeout")
        else
          return ())
        (if w.config.timeouts.idleMs > 0 then do
          let v ← Action.get
          closeQuietly
            (v.sessionTable.idleConnections now
              w.config.timeouts.idleMs)
            .policyViolation "Idle timeout"
        else
          return ()) := by
    split
    · exact
        .bind (.holding _ .get) (fun v => .unlocked _)
    · exact .pure _
  refine (Erases.bind .get hBranch).congr (fun w => ?_)
  unfold WsServer.closeIdle
  rw [Action.run_get_bind, Action.run_get_bind]
  dsimp only
  split
  · rfl
  · rfl

theorem closeLateHandshakes_erases (now : Int) :
    Erases (closeLateHandshakes now)
      (WsServer.closeLateHandshakes now) := by
  have hBranch (w : WsServer) :
      Erases
        (if w.config.timeouts.handshakeMs > 0 then
          holding Mutex.handshakeTime
            (unlocked (WsServer.closeLateHandshakes now))
        else
          return ())
        (if w.config.timeouts.handshakeMs > 0 then
          WsServer.closeLateHandshakes now
        else
          return ()) := by
    split
    · exact .holding _ (.unlocked _)
    · exact .pure _
  refine (Erases.bind .get hBranch).congr (fun w => ?_)
  rw [Action.run_get_bind]
  split
  · rfl
  · next hDisabled =>
      unfold WsServer.closeLateHandshakes
      rw [Action.run_atomically, Action.run_get_bind]
      dsimp only
      rw [if_neg hDisabled]

/- Without deadlines, nothing expires. -/
theorem expire_of_isEmpty
    {now : TimePoint}
    {t : RequestTable}
    (hEmpty : t.requestDeadlines.isEmpty = true) :
    t.expire now = ([], t) := by
  have hNone : t.requestDeadlines.toList = [] := by
    simpa using hEmpty
  unfold RequestTable.expire
  rw [hNone]
  rfl

theorem expireRequests_erases (now : TimePoint) :
    Erases (expireRequests now)
      (WsServer.requestSection (fun t => t.expire now)) := by
  have hBranch (w : WsServer) :
      Erases
        (if !w.requests.requestDeadlines.isEmpty then
          requestSection (fun t => t.expire now)
        else
          return ())
        (if !w.requests.requestDeadlines.isEmpty then
          WsServer.requestSection (fun t => t.expire now)
        else
          return ()) := by
    split
    · exact requestSection_erases _
    · exact .pure _
  refine (Erases.bind .get hBranch).congr (fun w => ?_)
  rw [Action.run_get_bind]
  split
  · rfl
  · next hSome =>
      have hEmpty :
          w.requests.requestDeadlines.isEmpty = true := by
        simpa using hSome
      unfold WsServer.requestSection
      rw [Action.run_atomic]
      simp only [expire_of_isEmpty hEmpty]
      rfl

theorem checkTimeouts_erases (input : IoInput) :
    Erases (checkTimeouts input)
      (WsServer.checkTimeouts input) := by
  refine .bind (closeIdle_erases _) (fun _ => ?_)
  refine .bind (closeLateHandshakes_erases _) (fun _ => ?_)
  exact
    .bind (expireRequests_erases _)
      (fun _ => limiter_erases _ _)

theorem stop_erases : Erases stop WsServer.stop := by
  refine .bind (.modify _) (fun _ => ?_)
  refine .bind (requestSection_erases _) (fun _ => ?_)
  exact
    .bind (.holding _ (.unlocked _))
      (fun _ => .holding _ (.modify _))

theorem keepPayload_erases
    (input : IoInput)
    (hdl : Hdl)
    (isAuth : Bool)
    (rateLimiterId : UInt64)
    (payload : Payload) :
    Erases (keepPayload input hdl isAuth rateLimiterId payload)
      (WsServer.keepPayload input hdl isAuth rateLimiterId
        payload) := by
  refine .bind .get (fun w => ?_)
  split
  · exact .bind (.unlocked _) (fun _ => .pure _)
  · refine .bind (limiterRecord_erases _) (fun _ => ?_)
    exact .bind (.modify _) (fun _ => .pure _)

theorem receiveFrom_erases
    (input : IoInput)
    (hdl : Hdl)
    (packet : Bytes)
    (isAuth : Bool)
    (state : ConnectionState) :
    Erases (receiveFrom S input hdl packet isAuth state)
      (WsServer.receiveFrom S input hdl packet isAuth
        state) := by
  unfold receiveFrom WsServer.receiveFrom
  split
  · exact .pure _
  · refine .bind (limiterCheck_erases _ _) (fun allowed => ?_)
    split
    · exact .bind (.unlocked _) (fun _ => .pure _)
    · refine .catchAll ?_ (fun _ => .pure _)
      exact
        .bind (.unlocked _)
          (fun payload => keepPayload_erases _ _ _ _ _)

theorem receive_erases
    (input : IoInput)
    (hdl : Hdl)
    (packet : Bytes) :
    Erases (receive S input hdl packet)
      (WsServer.receive S input hdl packet) := by
  refine .holding _ (.atomically (.bind .get (fun w => ?_)))
  cases w.sessionTable.sessions[hdl]? with
  | some state => exact receiveFrom_erases _ _ _ _ _ _
  | none =>
      cases w.sessionTable.anonSessions[hdl]? with
      | some state => exact receiveFrom_erases _ _ _ _ _ _
      | none => exact .pure _

/- The tables are read twice, with the same result. -/
theorem streamHandlerOf_bind_erases
    {isAuth : Bool}
    {opCode : Option OpCode}
    {f : Option HandlerId → LockedAction Unit}
    {g : Option HandlerId → ServerAction Unit}
    (hNext : ∀ handler, Erases (f handler) (g handler)) :
    Erases (streamHandlerOf isAuth opCode >>= f)
      (do
        let w ← Action.get
        let handlers := (w.dispatchersOf isAuth).streamHandlers
        let handler :=
          match opCode.bind (handlers[·]?) with
          | some handler => handler
          | none => w.incomingStreamHandler
        g handler) := by
  have hHandler :
      Erases (streamHandlerOf isAuth opCode)
        (do
          let w ← Action.get
          match opCode with
          | none => return w.incomingStreamHandler
          | some opCode => do
              let w ← Action.get
              match
                (w.dispatchersOf isAuth).streamHandlers[opCode]?
              with
              | some handler => return handler
              | none => return w.incomingStreamHandler) := by
    refine .bind .get (fun w => ?_)
    cases opCode with
    | none => exact .pure _
    | some opCode =>
        refine .bind (.holding _ .get) (fun w => ?_)
        cases (w.dispatchersOf isAuth).streamHandlers[opCode]?
          with
        | none => exact .pure _
        | some handler => exact .pure _
  refine (hHandler.bind hNext).congr (fun w => ?_)
  rw [Action.bind_assoc, Action.run_get_bind,
    Action.run_get_bind]
  cases opCode with
  | none => rfl
  | some opCode =>
      rw [Action.bind_assoc, Action.run_get_bind]
      simp only [Option.bind_some]
      cases (w.dispatchersOf isAuth).streamHandlers[opCode]?
        with
      | none => rfl
      | some handler => rfl

theorem dispatchPayload_erases
    (input : IoInput)
    (hdl : Hdl)
    (isAuth : Bool)
    (payload : Payload) :
    Erases (dispatchPayload S input hdl isAuth payload)
      (WsServer.dispatchPayload S input hdl isAuth
        payload) := by
  refine .bind (.holding _ .get) (fun w => ?_)
  dsimp only
  cases (w.dispatchersOf isAuth).requestHandlers[
      payload.opCode]? with
  | none => exact .unlocked _
  | some handler =>
      cases handler with
      | none => exact .pure _
      | some handler =>
          refine .bind (.done _) (fun requestId => ?_)
          refine .bind (.unlocked _) (fun response => ?_)
          split
          · exact sendResponse_erases _ _ _ _ _
          · exact sendAnonymousResponse_erases _ _ _ _ _

theorem dispatch_erases
    (input : IoInput)
    (hdl : Hdl)
    (isAuth : Bool)
    (payload : Payload) :
    Erases (dispatch S input hdl isAuth payload)
      (WsServer.dispatch S input hdl isAuth payload) := by
  refine .bind .get (fun w => .bind (.done _) ?_)
  intro message
  cases message with
  | response requestId response =>
      exact requestSection_erases _
  | streamStart streamId opCode =>
      refine .bind (registerStream_erases _ _) ?_
      intro stream
      exact
        streamHandlerOf_bind_erases
          (fun handler => .unlocked _)
  | streamData streamId data =>
      exact
        .bind (.holding _ (.unlocked _))
          (fun stream => .unlocked _)
  | streamEnd streamId =>
      exact
        .bind (.holding _ (.unlocked _))
          (fun stream => .unlocked _)
  | streamCancel streamId =>
      exact
        .bind (.holding _ (.unlocked _))
          (fun stream => .unlocked _)
  | application payload =>
      exact dispatchPayload_erases S input hdl isAuth payload

theorem establish_erases
    (input : IoInput)
    (hdl : Hdl)
    (session : Session)
    (identity : Option PublicKey) :
    Erases (establish input hdl session identity)
      (WsServer.establish input hdl session identity) := by
  refine .bind (limiter_erases _ _) (fun connId => ?_)
  refine .bind (.holding _ (.modify _)) (fun _ => ?_)
  cases identity with
  | none => exact .pure _
  | some clientPk => exact .holding _ (.modify _)

theorem conclude_erases
    (input : IoInput)
    (hdl : Hdl)
    (clientHello : ClientHello)
    (session : Session) :
    Erases (conclude input hdl clientHello session)
      (WsServer.conclude input hdl clientHello session) := by
  have hIdentified (clientPk : PublicKey) :
      Erases (establishIdentified input hdl session clientPk)
        (WsServer.establishIdentified input hdl session
          clientPk) := by
    refine .bind (.unlocked _) (fun accepted => ?_)
    split
    · exact establish_erases _ _ _ _
    · exact .unlocked _
  have hClear :=
    fun _ : Unit => clearHandshakeTime_erases hdl
  refine .bind (limiterRecord_erases _) (fun _ => ?_)
  cases clientHello.hasClientIdentity with
  | false => exact .bind (establish_erases _ _ _ _) hClear
  | true =>
      cases session.getPeerIdentity with
      | none => exact .bind (establish_erases _ _ _ _) hClear
      | some clientPk =>
          exact .bind (hIdentified clientPk) hClear

theorem respondToHello_erases
    (input : IoInput)
    (hdl : Hdl)
    (data : Bytes) :
    Erases (respondToHello S input hdl data)
      (WsServer.respondToHello S input hdl data) := by
  refine .bind (.done _) (fun clientHello => ?_)
  refine .bind .get (fun w => ?_)
  dsimp only
  refine .bind (.done _) (fun serverHello => ?_)
  refine .bind (.unlocked _) (fun _ => ?_)
  exact .bind (.done _) (fun _ => conclude_erases _ _ _ _)

theorem onMessage_erases
    (input : IoInput)
    (hdl : Hdl)
    (frame : Frame) :
    Erases (onMessage S input hdl frame)
      (WsServer.onMessage S input hdl frame) := by
  unfold onMessage WsServer.onMessage
  split
  · exact .pure _
  · refine .bind (receive_erases S _ _ _) (fun received => ?_)
    cases received with
    | ignored => exact .pure _
    | decrypted isAuth payload =>
        exact
          .catchAll (dispatch_erases S _ _ _ _)
            (fun _ => .pure _)
    | unknown =>
        refine .catchAll ?_ (fun _ => .unlocked _)
        refine
          .bind (limiterCheck_erases _ _) (fun allowed => ?_)
        split
        · exact .unlocked _
        · exact respondToHello_erases S _ _ _

theorem handle_erases (event : ServerEvent) :
    Erases (handle S event) (WsServer.handle S event) := by
  cases event with
  | opened input hdl => exact onOpen_erases input hdl
  | message input hdl frame =>
      exact onMessage_erases S input hdl frame
  | closed input hdl => exact onClose_erases input hdl
  | timeouts input => exact checkTimeouts_erases input
  | call method => exact call_erases S method

/- The entries are those of the server, with mutexes. -/
theorem enter_erases (entry : Entry) :
    Erases (enter S entry) (WsServer.enter S entry) := by
  cases entry with
  | event event => exact handle_erases S event
  | run => exact .pure _
  | stop => exact stop_erases
  | getClientIdentity hdl =>
      refine .bind (.holding _ .get) (fun w => ?_)
      exact .bind (.done _) (fun _ => .pure _)
  | syncRequest input hdl payload timeoutMs answer =>
      refine .bind (asyncRequest_erases S _ _ _ _) ?_
      exact fun _ => .bind (.done _) (fun _ => .pure _)
  | syncRequestToIdentity input identityPk payload answer =>
      refine .bind (asyncRequestToIdentity_erases S _ _ _) ?_
      exact fun _ => .bind (.done _) (fun _ => .pure _)

end Locking

end WsServer

end ObscuraProto
