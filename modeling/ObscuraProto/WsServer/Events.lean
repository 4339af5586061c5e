import ObscuraProto.PlainSodium
import ObscuraProto.WsServer.State

/-
  The events of the server's io thread.

  `on_open`, `on_message`, `on_close` and the periodic
  `check_timeouts`, together with `stop`.  Each is the
  sequence of its critical sections and callbacks; a result
  that is an exception has escaped the handler.

  Key definitions include:
    * `IoInput`, `IoInput.smooth`
    * `WsServer.onOpen`, `WsServer.onClose`
    * `WsServer.receive`, `WsServer.dispatch`
    * `WsServer.handshake`, `WsServer.onMessage`
    * `WsServer.checkTimeouts`, `WsServer.stop`
    * `ServerEvent`, `WsServer.handle`, `WsServer.next`
    * `WsServer.sample`, `ServerEvent.hello`
-/

namespace ObscuraProto

/-
  What an event reads from the outside: the remote endpoint,
  the successive clock readings, random values, and what the
  transport and the user callbacks answer.
-/
structure IoInput where
  remoteIp : String
  clock : Nat → TimePoint
  kx : KxKeyPair
  nonce : Nonce
  close : Hdl → String → Except Exception Unit
  transmit : Except Exception Unit
  identityAnswer : Except Exception Bool
  requestAnswer : Except Exception Payload
  callbackAnswer : Except Exception Unit

/- An input on which nothing outside fails. -/
def IoInput.smooth (kx : KxKeyPair) : IoInput where
  remoteIp := "127.0.0.1"
  clock := fun _ => 0
  kx := kx
  nonce := .zero
  close := fun _ _ => .ok ()
  transmit := .ok ()
  identityAnswer := .ok true
  requestAnswer := .ok { opCode := 0, parameters := [] }
  callbackAnswer := .ok ()

namespace WsServer

open Effectful

------------------------------------------------------------
-- Calls to the Outside
------------------------------------------------------------

/- `server_.close`, which may throw. -/
def closeHdl
    (input : IoInput)
    (hdl : Hdl)
    (status : CloseStatus)
    (reason : String) : ServerAction Unit := do
  Action.emit (.close hdl status reason)
  Action.ofExcept (input.close hdl reason)

/- Closes in a loop that swallows every exception. -/
def closeQuietly
    (hdls : List Hdl)
    (status : CloseStatus)
    (reason : String) : ServerAction Unit :=
  Action.atomic (fun w =>
    { result := .ok ()
      effects :=
        hdls.map (fun hdl => .close hdl status reason)
      state := w })

def invoke
    {α : Type}
    (callback : ServerCallback)
    (answer : Except Exception α) : ServerAction α := do
  Action.emit (.invoke callback)
  Action.ofExcept answer

/- An empty `std::function` is not called. -/
def invokeHandler
    (handler : Option HandlerId)
    (callback : HandlerId → ServerCallback)
    (answer : Except Exception Unit) : ServerAction Unit :=
  match handler with
  | none => return ()
  | some handler => invoke (callback handler) answer

/- A method of the rate limiter. -/
def limiter
    {α : Type}
    (f : RateLimiter → α × RateLimiter) :
    ServerAction α :=
  Action.atomic (fun w =>
    { result := .ok (f w.rateLimiter).1
      effects := []
      state := { w with rateLimiter := (f w.rateLimiter).2 } })

/- A check that is made only if rate limiting is enabled. -/
def limiterCheck
    (check : RateLimiter → Bool × RateLimiter) :
    ServerAction Bool := do
  let w ← Action.get
  if w.config.rateLimit.enabled then
    limiter check
  else
    return true

def limiterRecord
    (record : RateLimiter → RateLimiter) :
    ServerAction Unit := do
  let w ← Action.get
  if w.config.rateLimit.enabled then
    limiter (fun rl => ((), record rl))
  else
    return ()

------------------------------------------------------------
-- Open and Close
------------------------------------------------------------

def recordOpenTime
    (hdl : Hdl)
    (now : Int) : ServerAction Unit := do
  let w ← Action.get
  if w.config.timeouts.enabled &&
      decide (w.config.timeouts.handshakeMs > 0) then
    Action.modify (fun w =>
      { w with
        handshakeOpenTime :=
          w.handshakeOpenTime.insert hdl now })
  else
    return ()

def onOpen
    (input : IoInput)
    (hdl : Hdl) : ServerAction Unit := do
  let ip := input.remoteIp
  let allowed ←
    limiterCheck (fun rl =>
      rl.checkConnectionRate ip (nowMs (input.clock 0)))
  if !allowed then
    closeHdl input hdl .policyViolation
      "Connection rate limit exceeded"
  else
    limiterRecord (fun rl =>
      rl.recordConnection ip (nowMs (input.clock 1)))
    let w ← Action.get
    let limits := w.config.connectionLimits
    if limits.enabled && decide (limits.maxTotal > 0) &&
        decide
          (limits.maxTotal ≤ w.rateLimiter.activeTotal) then
      closeHdl input hdl .policyViolation
        "Max connections reached"
    else
      recordOpenTime hdl (nowMs (input.clock 2))
      let w ← Action.get
      invokeHandler w.onOpenCallback
        (fun handler => .onOpen handler hdl)
        input.callbackAnswer

def clearHandshakeTime (hdl : Hdl) : ServerAction Unit :=
  Action.modify (fun w =>
    { w with
      handshakeOpenTime := w.handshakeOpenTime.erase hdl })

/- Erase the session of `hdl` from one of the tables. -/
def closeSession
    (isAuth : Bool)
    (hdl : Hdl)
    (w : WsServer) : WsServer :=
  match (w.sessionTable.table isAuth)[hdl]? with
  | none => w
  | some state =>
      { w with
        rateLimiter :=
          w.rateLimiter.unregisterConnection
            state.rateLimiterId state.remoteIp
        sessionTable := w.sessionTable.erase isAuth hdl }

def onClose
    (input : IoInput)
    (hdl : Hdl) : ServerAction Unit := do
  let w ← Action.get
  invokeHandler w.onCloseCallback
    (fun handler => .onClose handler hdl)
    input.callbackAnswer
  Action.modify (fun w =>
    closeSession false hdl (closeSession true hdl w))
  Action.modify (fun w =>
    { w with streams := w.streams.closeConnection hdl })
  Action.modify (fun w =>
    { w with identities := w.identities.unregister hdl })
  requestSection (fun t => t.closeConnection hdl)
  clearHandshakeTime hdl

------------------------------------------------------------
-- Timeouts and Shutdown
------------------------------------------------------------

def closeIdle (now : Int) : ServerAction Unit := do
  let w ← Action.get
  let idleMs := w.config.timeouts.idleMs
  if idleMs > 0 then
    closeQuietly (w.sessionTable.idleConnections now idleMs)
      .policyViolation "Idle timeout"

/- Late connections are closed and forgotten in one section. -/
def closeLateHandshakes (now : Int) : ServerAction Unit :=
  Action.atomically do
    let w ← Action.get
    let handshakeMs := w.config.timeouts.handshakeMs
    if handshakeMs > 0 then
      let late := fun (_ : Hdl) (opened : Int) =>
        decide ((handshakeMs.toNat : Int) < now - opened)
      closeQuietly (w.handshakeOpenTime.filter late).keys
        .policyViolation "Handshake timeout"
      Action.modify (fun w =>
        { w with
          handshakeOpenTime :=
            w.handshakeOpenTime.filter
              (fun hdl opened => !late hdl opened) })

/- Requests expire by a clock reading of their own. -/
def checkTimeouts (input : IoInput) : ServerAction Unit := do
  let now := nowMs (input.clock 0)
  closeIdle now
  closeLateHandshakes now
  requestSection (fun t => t.expire (input.clock 1))
  limiter (fun rl =>
    ((), rl.cleanup (nowMs (input.clock 2))))

/- Both tables are closed and cleared in one section. -/
def stopSessions : ServerAction Unit :=
  Action.atomically do
    let w ← Action.get
    closeQuietly w.sessionTable.sessions.keys .goingAway
      "Server shutdown"
    closeQuietly w.sessionTable.anonSessions.keys .goingAway
      "Server shutdown"
    Action.modify (fun w => { w with sessionTable := {} })

/- `stop`, up to joining the server thread. -/
def stop : ServerAction Unit := do
  Action.modify (fun w => { w with stopping := true })
  requestSection (fun t => t.stop)
  stopSessions
  Action.modify (fun w => { w with identities := {} })

------------------------------------------------------------
-- Messages on an Established Session
------------------------------------------------------------

/- How `on_message` goes on after the session lookup. -/
inductive Received where
| ignored
| decrypted (isAuth : Bool) (payload : Payload)
| unknown
deriving DecidableEq

variable (S : Sodium)

/- `decrypt_packet` on the stored session. -/
def decrypt
    (hdl : Hdl)
    (packet : Bytes)
    (isAuth : Bool)
    (state : ConnectionState) : ServerAction Payload :=
  Action.atomic (fun w =>
    let (result, session) :=
      state.session.decryptPacket S packet
    { result := result
      effects := []
      state :=
        { w with
          sessionTable :=
            w.sessionTable.store isAuth hdl
              { state with session := session } } })

/- The size check of a decrypted payload and its records. -/
def keepPayload
    (input : IoInput)
    (hdl : Hdl)
    (isAuth : Bool)
    (rateLimiterId : UInt64)
    (payload : Payload) : ServerAction Received := do
  let w ← Action.get
  if w.config.payloadTooLarge payload then
    closeHdl input hdl .policyViolation "Payload too large"
    return .ignored
  else
    limiterRecord (fun rl =>
      rl.recordMessage rateLimiterId (nowUs (input.clock 1)))
    Action.modify (fun w =>
      { w with
        sessionTable :=
          w.sessionTable.touch isAuth hdl
            (nowMs (input.clock 2)) })
    return .decrypted isAuth payload

/- The guarded part, whose exceptions end the handler. -/
def accept
    (input : IoInput)
    (hdl : Hdl)
    (packet : Bytes)
    (isAuth : Bool)
    (state : ConnectionState) : ServerAction Received := do
  let payload ← decrypt S hdl packet isAuth state
  keepPayload input hdl isAuth state.rateLimiterId payload

/- The branch of one table. -/
def receiveFrom
    (input : IoInput)
    (hdl : Hdl)
    (packet : Bytes)
    (isAuth : Bool)
    (state : ConnectionState) : ServerAction Received := do
  if !state.session.isHandshakeComplete then
    return .ignored
  else
    let allowed ←
      limiterCheck (fun rl =>
        rl.checkMessageRate state.rateLimiterId
          (nowUs (input.clock 0)))
    if !allowed then
      closeHdl input hdl .policyViolation
        "Message rate limit exceeded"
      return .ignored
    else
      Action.catchAll
        (accept S input hdl packet isAuth state)
        (fun _ => return .ignored)

/- All of it is under the mutex of the sessions. -/
def receive
    (input : IoInput)
    (hdl : Hdl)
    (packet : Bytes) : ServerAction Received :=
  Action.atomically do
    let w ← Action.get
    match w.sessionTable.sessions[hdl]? with
    | some state =>
        receiveFrom S input hdl packet true state
    | none =>
        match w.sessionTable.anonSessions[hdl]? with
        | some state =>
            receiveFrom S input hdl packet false state
        | none => return .unknown

------------------------------------------------------------
-- Dispatch
------------------------------------------------------------

/- The handler of the code, or the generic one. -/
def dispatchStreamStart
    (input : IoInput)
    (hdl : Hdl)
    (isAuth : Bool)
    (streamId : UInt32)
    (opCode : Option OpCode) : ServerAction Unit := do
  let stream ←
    registerStream hdl
      { streamId := streamId
        sendFn :=
          if isAuth then
            .send hdl
          else
            .sendAnonymous hdl
        opCode := opCode }
  let w ← Action.get
  let handlers := (w.dispatchersOf isAuth).streamHandlers
  let handler :=
    match opCode.bind (handlers[·]?) with
    | some handler => handler
    | none => w.incomingStreamHandler
  invokeHandler handler
    (fun handler => .incomingStream handler stream)
    input.callbackAnswer

/- A stream of this connection, if registered. -/
def findStream
    (hdl : Hdl)
    (streamId : UInt32) :
    ServerAction (Option StreamRef) := do
  let w ← Action.get
  return w.streams.find hdl streamId

/- The same, and the registration is dropped. -/
def takeStream
    (hdl : Hdl)
    (streamId : UInt32) :
    ServerAction (Option StreamRef) :=
  Action.atomic (fun w =>
    { result := .ok (w.streams.find hdl streamId)
      effects := []
      state :=
        { w with streams := w.streams.erase hdl streamId } })

/- A handler of the stream object is called, if it is set. -/
def dispatchStream
    (input : IoInput)
    (stream : Option StreamRef)
    (handlerOf : Stream ServerSendFn → Option HandlerId)
    (callback : HandlerId → ServerCallback) :
    ServerAction Unit := do
  let w ← Action.get
  let object := stream.bind (w.streams.objects[·]?)
  invokeHandler (object.bind handlerOf) callback
    input.callbackAnswer

/- A request, a payload handler or the default handler. -/
def dispatchPayload
    (input : IoInput)
    (hdl : Hdl)
    (isAuth : Bool)
    (payload : Payload) : ServerAction Unit := do
  let w ← Action.get
  let d := w.dispatchersOf isAuth
  match d.requestHandlers[payload.opCode]? with
  | some none => return ()
  | some (some handler) =>
      let (requestId, reader) :=
        (PayloadReader.new payload).readParamUint32
      let requestId ← Action.ofExcept requestId
      let response ←
        invoke (.request handler hdl reader)
          input.requestAnswer
      if isAuth then
        sendResponse S input.nonce hdl requestId response
      else
        sendAnonymousResponse S input.nonce hdl requestId
          response
  | none =>
      let handler :=
        match d.opCodeHandlers[payload.opCode]? with
        | some handler => handler
        | none => d.defaultPayloadHandler
      invokeHandler handler
        (fun handler => .payload handler hdl payload)
        input.callbackAnswer

def dispatch
    (input : IoInput)
    (hdl : Hdl)
    (isAuth : Bool)
    (payload : Payload) : ServerAction Unit := do
  let w ← Action.get
  let message ←
    Action.ofExcept (Message.parse w.config.opcodes payload)
  match message with
  | .response requestId response =>
      requestSection (fun t =>
        t.respond hdl requestId response)
  | .streamStart streamId opCode =>
      dispatchStreamStart input hdl isAuth streamId opCode
  | .streamData streamId data => do
      let stream ← findStream hdl streamId
      dispatchStream input stream Stream.onData
        (fun handler => .streamData handler data)
  | .streamEnd streamId => do
      let stream ← findStream hdl streamId
      dispatchStream input stream Stream.onEnd .streamEnd
  | .streamCancel streamId => do
      let stream ← takeStream hdl streamId
      dispatchStream input stream Stream.onCancel
        .streamCancel
  | .application payload =>
      dispatchPayload S input hdl isAuth payload

------------------------------------------------------------
-- The Handshake
------------------------------------------------------------

/- Store the new session; an identity is recorded with it. -/
def establish
    (input : IoInput)
    (hdl : Hdl)
    (session : Session)
    (identity : Option PublicKey) : ServerAction Unit := do
  let connId ←
    limiter (fun rl => rl.registerConnection input.remoteIp)
  Action.modify (fun w =>
    { w with
      sessionTable :=
        w.sessionTable.emplace identity.isSome hdl
          { session := session
            rateLimiterId := connId
            remoteIp := input.remoteIp
            lastActivityMs := nowMs (input.clock 2) } })
  match identity with
  | none => return ()
  | some clientPk =>
      Action.modify (fun w =>
        { w with
          identities := w.identities.register hdl clientPk })

/- The answer of the identity handler, if one is set. -/
def identityAccepted
    (input : IoInput)
    (hdl : Hdl)
    (clientPk : PublicKey) : ServerAction Bool := do
  let w ← Action.get
  match w.clientIdentityHandler with
  | none => return true
  | some handler =>
      invoke (.identity handler hdl clientPk)
        input.identityAnswer

/- An identified session is stored if it is accepted. -/
def establishIdentified
    (input : IoInput)
    (hdl : Hdl)
    (session : Session)
    (clientPk : PublicKey) : ServerAction Unit := do
  let accepted ← identityAccepted input hdl clientPk
  if accepted then
    establish input hdl session (some clientPk)
  else
    closeHdl input hdl .policyViolation "Identity rejected"

/- What follows the reply to a valid ClientHello. -/
def conclude
    (input : IoInput)
    (hdl : Hdl)
    (clientHello : ClientHello)
    (session : Session) : ServerAction Unit := do
  limiterRecord (fun rl =>
    rl.recordHandshake input.remoteIp
      (nowMs (input.clock 1)))
  match clientHello.hasClientIdentity,
      session.getPeerIdentity with
  | true, some clientPk =>
      establishIdentified input hdl session clientPk
  | _, _ => establish input hdl session none
  clearHandshakeTime hdl

/- A fresh session answers the first message. -/
def respondToHello
    (input : IoInput)
    (hdl : Hdl)
    (data : Bytes) : ServerAction Unit := do
  let clientHello ←
    Action.ofExcept (ClientHello.deserialize data)
  let w ← Action.get
  let (reply, session) :=
    (Session.new .server w.serverSignKey
      w.config.supportedVersions).serverRespondToHandshake S
        input.kx clientHello
  let serverHello ← Action.ofExcept reply
  Action.emit (.transmit hdl serverHello.serialize)
  Action.ofExcept input.transmit
  conclude input hdl clientHello session

def handshake
    (input : IoInput)
    (hdl : Hdl)
    (data : Bytes) : ServerAction Unit := do
  let allowed ←
    limiterCheck (fun rl =>
      rl.checkHandshakeRate input.remoteIp
        (nowMs (input.clock 0)))
  if !allowed then
    closeHdl input hdl .policyViolation
      "Handshake rate limit exceeded"
  else
    respondToHello S input hdl data

------------------------------------------------------------
-- on_message
------------------------------------------------------------

def onMessage
    (input : IoInput)
    (hdl : Hdl)
    (frame : Frame) : ServerAction Unit := do
  if !frame.binary then
    return ()
  else
    let received ← receive S input hdl frame.payload
    match received with
    | .ignored => return ()
    | .decrypted isAuth payload =>
        Action.catchAll
          (dispatch S input hdl isAuth payload)
          (fun _ => return ())
    | .unknown =>
        Action.catchAll
          (handshake S input hdl frame.payload)
          (fun _ =>
            closeHdl input hdl .policyViolation
              "Handshake error")

------------------------------------------------------------
-- All Events
------------------------------------------------------------

end WsServer

/- An event of the io thread, or a call of a public method. -/
inductive ServerEvent where
| opened (input : IoInput) (hdl : Hdl)
| message (input : IoInput) (hdl : Hdl) (frame : Frame)
| closed (input : IoInput) (hdl : Hdl)
| timeouts (input : IoInput)
| call (method : WsServer.PublicCall)

namespace WsServer

def handle (S : Sodium) : ServerEvent → ServerAction Unit
| .opened input hdl => onOpen input hdl
| .message input hdl frame => onMessage S input hdl frame
| .closed input hdl => onClose input hdl
| .timeouts input => checkTimeouts input
| .call method => call S method

/- The state after an event, whether it threw or not. -/
def next
    (S : Sodium)
    (w : WsServer)
    (event : ServerEvent) : WsServer :=
  ((handle S event).run w).state

------------------------------------------------------------
-- Sample Runs
------------------------------------------------------------

open PlainSodium

def sample : WsServer :=
  new (sampleKeyPair 6) Config.withDefaults true

end WsServer

open PlainSodium in
/- A hello whose identity key has the label 5. -/
def ServerEvent.hello
    (hdl : Hdl)
    (ephemeral : UInt8) : ServerEvent :=
  .message (.smooth (sampleKx ephemeral)) hdl
    { payload := (sampleHello 5 ephemeral).serialize }

open PlainSodium in
/- A payload that the client of such a hello has sealed. -/
def ServerEvent.sealed
    (hdl : Hdl)
    (ephemeral : UInt8)
    (counter : UInt64)
    (opCode : OpCode)
    (parameters : Bytes) : ServerEvent :=
  .message (.smooth (sampleKx ephemeral)) hdl
    { payload :=
        Crypto.packet plainSodium .zero
          { opCode := opCode, parameters := parameters }
          counter
          (sessionKey 1 (List.replicate 32 ephemeral)
            (List.replicate 32 ephemeral)) }

end ObscuraProto
