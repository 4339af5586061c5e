import ObscuraProto.WsClient.Events

/-
  The atomic steps of the client, and which code takes them.

  A step is exactly one of a few moves; what they do to a
  part of the state is read off them by cases.  Some moves
  need a permission, and every method and event is given the
  permissions that its code makes use of.

  Key definitions include:
    * `ClientRequestSection`, `ClientMay`, `ClientMove`
    * `WsClient.Moves`
    * `WsClient.PublicCall.may`, `ClientEvent.may`

  Key theorems include:
    * `WsClient.send_moves`, `WsClient.call_moves`
    * `WsClient.dispatch_moves`
    * `WsClient.handle_moves`
-/

namespace ObscuraProto

open Effectful

/- The critical sections of the pending requests. -/
inductive ClientRequestSection where
| registers
    (requestId : UInt32)
    (promise : PromiseId)
    (deadline : Option TimePoint)
| fails (requestId : UInt32) (e : Exception)
| responds (requestId : UInt32) (response : Payload)
| expires (now : TimePoint)
| disconnects

def ClientRequestSection.apply :
    ClientRequestSection → ClientRequestTable →
      List Completion × ClientRequestTable
| .registers requestId promise deadline, t =>
    ([], t.register requestId promise deadline)
| .fails requestId e, t => t.fail requestId e
| .responds requestId response, t =>
    t.respond requestId response
| .expires now, t => t.expire now
| .disconnects, t => t.disconnect

/- What code may do besides reading and handing over. -/
structure ClientMay where
  encrypts : Prop := False
  decrypts : Prop := False
  handshakes : Prop := False
  finalizes : Prop := False
  opens : Prop := False
  ends : Prop := False
  usesStreams : Prop := False
  takesRequestId : Prop := False
  requests : ClientRequestSection → Prop := fun _ => False
  invokes : ClientCallback → Prop := fun _ => False
  registers : Prop := False

/- One step, with its effects and the state after it. -/
inductive ClientMove
    (S : Sodium)
    (may : ClientMay)
    (w : WsClient) :
    List ClientEffect → WsClient → Prop
| reads : ClientMove S may w [] w
| invokes {callback : ClientCallback} :
    may.invokes callback →
      ClientMove S may w [.invoke callback] w
| encrypts (nonce : Nonce) (payload : Payload) :
    may.encrypts →
      ClientMove S may w []
        { w with
          session :=
            (w.session.encryptPayload S nonce payload).2 }
| handsOver (packet : Bytes) :
    ClientMove S may w
      [.transmit w.connectionHdl packet] w
| decrypts (packet : Bytes) :
    may.decrypts →
      ClientMove S may w []
        { w with
          session := (w.session.decryptPacket S packet).2 }
| requests {s : ClientRequestSection} :
    may.requests s →
      ClientMove S may w
        ((s.apply w.requests).1.map ClientEffect.complete)
        { w with requests := (s.apply w.requests).2 }
| takesRequestId :
    may.takesRequestId →
      ClientMove S may w []
        { w with nextRequestId := w.nextRequestId + 1 }
| ensuresWatchdog :
    ClientMove S may w []
      { w with watchdog := w.watchdog.ensure }
| takesStreamId :
    ClientMove S may w []
      { w with
        nextOutgoingStreamId := w.nextOutgoingStreamId + 1 }
| registersStream (stream : Stream Unit) :
    may.usesStreams →
      ClientMove S may w []
        { w with streams := (w.streams.register stream).2 }
| dropsStream (streamId : UInt32) :
    may.usesStreams →
      ClientMove S may w []
        { w with streams := w.streams.erase streamId }
| registers
    (registration : WsClient.Registration)
    (callback : Option HandlerId) :
    may.registers →
      ClientMove S may w []
        ((WsClient.register callback registration).run w).state
| connects (uri : String) :
    ClientMove S may w [.connect uri] w
| startsThread :
    ClientMove S may w [] { w with clientThread := true }
| setsIdentity (identityKp : KeyPair) :
    ClientMove S may w []
      { w with clientIdentityKp := some identityKp }
| stopsIo : ClientMove S may w [.stopIo] w
| closes (hdl : Option Hdl) :
    ClientMove S may w [.close hdl] w
| opens (hdl : Hdl) :
    may.opens →
      ClientMove S may w []
        { w with connectionHdl := some hdl, isConnected := true }
| ends :
    may.ends → ClientMove S may w [] { w with isConnected := false }
| releases :
    may.ends →
      ClientMove S may w []
        { w with
          clientThread := false
          isConnected := false
          watchdog := w.watchdog.shutdown }
| identifies (identityKp : KeyPair) :
    may.handshakes →
      ClientMove S may w []
        { w with
          session := (w.session.setClientIdentityKey identityKp).2 }
| initiates (kx : KxKeyPair) :
    may.handshakes →
      ClientMove S may w []
        { w with
          session := (w.session.clientInitiateHandshake S kx).2 }
| greets (hdl : Hdl) (hello : ClientHello) :
    may.handshakes →
      ClientMove S may w
        [.transmit (some hdl) hello.serialize] w
| finalizes (serverHello : ServerHello) :
    may.finalizes →
      ClientMove S may w []
        { w with
          session :=
            (w.session.clientFinalizeHandshake S
              serverHello).2 }

namespace WsClient

/- The methods that register a request. -/
def PublicCall.isRequest : PublicCall → Bool
| .asyncRequest _ _ _ _ _ => true
| _ => false

/- The methods that register a stream. -/
def PublicCall.startsStream : PublicCall → Bool
| .startStream _ => true
| .startStreamWith _ _ => true
| _ => false

def PublicCall.isDisconnect : PublicCall → Bool
| .disconnect _ => true
| _ => false

def PublicCall.isRegister : PublicCall → Bool
| .register _ _ => true
| _ => false

def PublicCall.may (method : PublicCall) : ClientMay where
  encrypts := True
  ends := method.isDisconnect = true
  usesStreams := method.startsStream = true
  takesRequestId := method.isRequest = true
  requests := fun s =>
    (method.isRequest = true ∧
        ((∃ requestId promise deadline,
            s = .registers requestId promise deadline) ∨
          ∃ requestId e, s = .fails requestId e)) ∨
      (method.isDisconnect = true ∧ s = .disconnects)
  registers := method.isRegister = true

end WsClient

def ClientEvent.may : ClientEvent → ClientMay
| .opened _ _ =>
    { handshakes := True
      opens := True
      ends := True
      requests := (· = .disconnects) }
| .message _ _ =>
    { encrypts := True
      decrypts := True
      finalizes := True
      ends := True
      usesStreams := True
      requests := fun s =>
        s = .disconnects ∨
          ∃ requestId response, s = .responds requestId response
      invokes := fun callback =>
        ∀ handler, callback ≠ .disconnect handler }
| .closed _ =>
    { ends := True
      invokes := fun callback =>
        ∃ handler, callback = .disconnect handler }
| .failed _ =>
    { ends := True
      invokes := fun callback =>
        ∃ handler, callback = .disconnect handler }
| .watchdogPass now => { requests := (· = .expires now) }
| .call method => method.may

namespace WsClient

variable (S : Sodium)

/- Short for: every step is a move. -/
abbrev Moves
    (may : ClientMay)
    {α : Type}
    (act : ClientAction α) : Prop :=
  Ensures (ClientMove S may) act

variable {may : ClientMay}

theorem get_moves :
    Moves S may (Action.get : ClientAction WsClient) :=
  Ensures.get (fun _ => .reads)

------------------------------------------------------------
-- Sections
------------------------------------------------------------

theorem encrypt_moves
    (hMay : may.encrypts)
    (nonce : Nonce)
    (payload : Payload) :
    Moves S may (encrypt S nonce payload) :=
  Ensures.atomic (fun _ => .encrypts nonce payload hMay)

theorem handOver_moves (packet : Bytes) :
    Moves S may (handOver packet) :=
  Ensures.atomic (fun _ => .handsOver packet)

theorem send_moves
    (hMay : may.encrypts)
    (nonce : Nonce)
    (payload : Payload) :
    Moves S may (send S nonce payload) := by
  apply Ensures.bind (get_moves S)
  intro w
  apply Ensures.bind (Ensures.ofExcept _)
  intro _
  refine Ensures.catchAll ?_ (fun _ => Ensures.pure ())
  exact
    Ensures.bind (encrypt_moves S hMay nonce payload)
      (fun packet => handOver_moves S packet)

theorem sendResponse_moves
    (hMay : may.encrypts)
    (nonce : Nonce)
    (requestId : UInt32)
    (payload : Payload) :
    Moves S may (sendResponse S nonce requestId payload) := by
  apply Ensures.bind (get_moves S)
  intro w
  apply Ensures.bind (Ensures.ofExcept _)
  intro response
  exact send_moves S hMay nonce response

theorem requestSection_moves
    {s : ClientRequestSection}
    (hMay : may.requests s) :
    Moves S may (requestSection s.apply) :=
  Ensures.atomic (fun _ => .requests hMay)

theorem takeRequestId_moves
    (hMay : may.takesRequestId) :
    Moves S may takeRequestId :=
  Ensures.atomic (fun _ => .takesRequestId hMay)

theorem ensureWatchdog_moves (deadline : Option TimePoint) :
    Moves S may (ensureWatchdog deadline) := by
  unfold ensureWatchdog
  split
  · exact Ensures.modify (fun _ => .ensuresWatchdog)
  · exact Ensures.pure ()

theorem takeStreamId_moves : Moves S may takeStreamId :=
  Ensures.atomic (fun _ => .takesStreamId)

theorem registerStream_moves
    (hMay : may.usesStreams)
    (stream : Stream Unit) :
    Moves S may (registerStream stream) :=
  Ensures.atomic (fun _ => .registersStream stream hMay)

theorem invoke_moves
    {α : Type}
    {callback : ClientCallback}
    (hMay : may.invokes callback)
    (answer : Except Exception α) :
    Moves S may (invoke callback answer) :=
  Ensures.bind
    (Ensures.emit (fun _ => .invokes hMay))
    (fun _ => Ensures.ofExcept _)

theorem invokeHandler_moves
    {callback : HandlerId → ClientCallback}
    (hMay : ∀ handler, may.invokes (callback handler))
    (handler : Option HandlerId)
    (answer : Except Exception Unit) :
    Moves S may
      (invokeHandler handler callback answer) := by
  cases handler with
  | none => exact Ensures.pure ()
  | some handler => exact invoke_moves S (hMay handler) answer

------------------------------------------------------------
-- Public Methods
------------------------------------------------------------

theorem asyncRequest_moves
    (hEncrypts : may.encrypts)
    (hTakes : may.takesRequestId)
    (hRegisters :
      ∀ requestId promise deadline,
        may.requests (.registers requestId promise deadline))
    (hFails :
      ∀ requestId e, may.requests (.fails requestId e))
    (nonce : Nonce)
    (promise : PromiseId)
    (clock : TimePoint)
    (payload : Payload)
    (timeoutMs : UInt32) :
    Moves S may
      (asyncRequest S nonce promise clock payload
        timeoutMs) := by
  apply Ensures.bind (get_moves S)
  intro w
  split
  · exact Ensures.throw _
  · apply Ensures.bind (takeRequestId_moves S hTakes)
    intro requestId
    apply Ensures.bind (Ensures.ofExcept _)
    intro request
    apply Ensures.bind
    · exact requestSection_moves S (hRegisters requestId _ _)
    · intro _
      apply Ensures.bind (ensureWatchdog_moves S _)
      intro _
      apply Ensures.bind
      · apply Ensures.catchAll
          (send_moves S hEncrypts nonce request)
        intro e
        exact
          Ensures.bind
            (requestSection_moves S (hFails requestId e))
            (fun _ => Ensures.throw e)
      · intro _
        exact Ensures.pure _

theorem startStream_moves
    (hEncrypts : may.encrypts)
    (hMay : may.usesStreams)
    (nonce : Nonce) :
    Moves S may (startStream S nonce) := by
  apply Ensures.bind (takeStreamId_moves S)
  intro streamId
  apply Ensures.bind (registerStream_moves S hMay _)
  intro stream
  apply Ensures.bind (get_moves S)
  intro w
  apply Ensures.bind (Ensures.ofExcept _)
  intro start
  exact
    Ensures.bind (send_moves S hEncrypts nonce start)
      (fun _ => Ensures.pure stream)

theorem startStreamWith_moves
    (hEncrypts : may.encrypts)
    (hMay : may.usesStreams)
    (nonce : Nonce)
    (streamOpCode : OpCode) :
    Moves S may (startStreamWith S nonce streamOpCode) := by
  apply Ensures.bind (takeStreamId_moves S)
  intro streamId
  apply Ensures.bind (registerStream_moves S hMay _)
  intro stream
  apply Ensures.bind (get_moves S)
  intro w
  apply Ensures.bind (Ensures.ofExcept _)
  intro start
  exact
    Ensures.bind (send_moves S hEncrypts nonce start)
      (fun _ => Ensures.pure stream)

theorem streamCall_moves
    (hMay : may.encrypts)
    (nonce : Nonce)
    (build : Stream Unit → Except Exception Payload)
    (ref : StreamRef) :
    Moves S may (streamCall S nonce build ref) := by
  apply Ensures.bind (get_moves S)
  intro w
  split
  · exact Ensures.pure ()
  · refine Ensures.catchAll ?_ (fun _ => Ensures.pure ())
    apply Ensures.bind (Ensures.ofExcept _)
    intro payload
    split
    · exact send_moves S hMay nonce payload
    · exact Ensures.pure ()

theorem connect_moves
    (uri : String)
    (created : Except Exception Unit) :
    Moves S may (connect uri created) := by
  refine Ensures.catchAll ?_ (fun _ => Ensures.pure ())
  apply Ensures.bind (Ensures.ofExcept created)
  intro _
  apply Ensures.bind (Ensures.emit (fun _ => .connects uri))
  intro _
  exact Ensures.modify (fun _ => .startsThread)

theorem releaseThread_moves
    (hMay : may.ends)
    (onIoThread : Bool) :
    Moves S may (releaseThread onIoThread) := by
  unfold releaseThread
  split
  · exact Ensures.modify (fun _ => .ends hMay)
  · exact Ensures.modify (fun _ => .releases hMay)

theorem closeConnection_moves :
    Moves S may closeConnection := by
  apply Ensures.bind (get_moves S)
  intro w
  split
  · exact Ensures.emit (fun _ => .closes w.connectionHdl)
  · exact Ensures.pure ()

theorem disconnect_moves
    (hEnds : may.ends)
    (hRequests : may.requests .disconnects)
    (onIoThread : Bool) :
    Moves S may (disconnect onIoThread) := by
  apply Ensures.bind (get_moves S)
  intro w
  split
  · apply Ensures.bind (Ensures.emit (fun _ => .stopsIo))
    intro _
    apply Ensures.bind
    · exact requestSection_moves S (s := .disconnects) hRequests
    · intro _
      apply Ensures.bind (closeConnection_moves S)
      intro _
      exact releaseThread_moves S hEnds onIoThread
  · exact Ensures.pure ()

/- A registration is one write. -/
theorem register_eq_modify
    (registration : Registration)
    (callback : Option HandlerId) :
    ∃ f, register callback registration = Action.modify f := by
  cases registration <;> exact ⟨_, rfl⟩

theorem register_moves
    (hMay : may.registers)
    (registration : Registration)
    (callback : Option HandlerId) :
    Moves S may (register callback registration) := by
  rcases register_eq_modify registration callback with
    ⟨f, hWrite⟩
  have hState (w : WsClient) :
      ((register callback registration).run w).state = f w := by
    rw [hWrite]
    rfl
  rw [hWrite]
  apply Ensures.modify
  intro w
  rw [← hState w]
  exact .registers registration callback hMay

theorem call_moves (method : PublicCall) :
    Moves S method.may (call S method) := by
  cases method with
  | send nonce payload =>
      exact send_moves S trivial nonce payload
  | sendResponse nonce requestId payload =>
      exact sendResponse_moves S trivial nonce requestId payload
  | asyncRequest nonce promise clock payload timeoutMs =>
      refine
        Ensures.bind
          (asyncRequest_moves S trivial rfl ?_ ?_ nonce promise
            clock payload timeoutMs)
          (fun _ => Ensures.pure ()) <;>
        simp [PublicCall.may, PublicCall.isRequest]
  | startStream nonce =>
      exact
        Ensures.bind (startStream_moves S trivial rfl nonce)
          (fun _ => Ensures.pure ())
  | startStreamWith nonce streamOpCode =>
      exact
        Ensures.bind
          (startStreamWith_moves S trivial rfl nonce
            streamOpCode)
          (fun _ => Ensures.pure ())
  | streamWrite nonce data ref =>
      exact streamCall_moves S trivial nonce _ ref
  | streamEnd nonce ref =>
      exact streamCall_moves S trivial nonce _ ref
  | streamCancel nonce ref =>
      exact streamCall_moves S trivial nonce _ ref
  | connect uri created => exact connect_moves S uri created
  | disconnect onIoThread =>
      exact
        disconnect_moves S rfl (Or.inr ⟨rfl, rfl⟩) onIoThread
  | setClientIdentity identityKp =>
      exact Ensures.modify (fun _ => .setsIdentity identityKp)
  | register registration callback =>
      exact register_moves S rfl registration callback

------------------------------------------------------------
-- Open and Close
------------------------------------------------------------

theorem setIdentityKey_moves
    (hMay : may.handshakes) :
    Moves S may setIdentityKey := by
  apply Ensures.atomic
  intro w
  split
  · exact .reads
  · exact .identifies _ hMay

theorem sendHello_moves
    (hMay : may.handshakes)
    (input : ClientInput)
    (hdl : Hdl) :
    Moves S may (sendHello S input hdl) := by
  apply Ensures.bind (setIdentityKey_moves S hMay)
  intro _
  apply Ensures.bind
  · exact Ensures.atomic (fun _ => .initiates input.kx hMay)
  · intro clientHello
    apply Ensures.bind
      (Ensures.emit (fun _ => .greets hdl clientHello hMay))
    intro _
    exact Ensures.ofExcept _

theorem onOpen_moves
    (input : ClientInput)
    (hdl : Hdl) :
    Moves S (ClientEvent.opened input hdl).may
      (onOpen S input hdl) := by
  apply Ensures.bind
    (Ensures.modify (fun _ => .opens hdl trivial))
  intro _
  apply Ensures.catchAll (sendHello_moves S trivial input hdl)
  intro _
  exact disconnect_moves S trivial rfl true

theorem onEnd_moves
    (hEnds : may.ends)
    (hInvokes : ∀ handler, may.invokes (.disconnect handler))
    (input : ClientInput) :
    Moves S may (onEnd input) := by
  apply Ensures.bind (Ensures.modify (fun _ => .ends hEnds))
  intro _
  apply Ensures.bind (get_moves S)
  intro w
  exact invokeHandler_moves S hInvokes _ _

------------------------------------------------------------
-- Dispatch
------------------------------------------------------------

theorem dispatchPayload_moves
    (hEncrypts : may.encrypts)
    (hPayload :
      ∀ handler payload,
        may.invokes (.payload handler payload))
    (hRequest :
      ∀ handler reader, may.invokes (.request handler reader))
    (input : ClientInput)
    (payload : Payload) :
    Moves S may (dispatchPayload S input payload) := by
  apply Ensures.bind (get_moves S)
  intro w
  dsimp only
  split
  · exact Ensures.pure ()
  · apply Ensures.bind (Ensures.ofExcept _)
    intro requestId
    apply Ensures.bind (invoke_moves S (hRequest _ _) _)
    intro response
    exact sendResponse_moves S hEncrypts _ _ _
  · exact
      invokeHandler_moves S
        (fun handler => hPayload handler payload) _ _

theorem findStream_moves (streamId : UInt32) :
    Moves S may (findStream streamId) :=
  Ensures.bind (get_moves S) (fun _ => Ensures.pure _)

theorem takeStream_moves
    (hMay : may.usesStreams)
    (streamId : UInt32) :
    Moves S may (takeStream streamId) :=
  Ensures.atomic (fun _ => .dropsStream streamId hMay)

theorem dispatchStream_moves
    {callback : HandlerId → ClientCallback}
    (hMay : ∀ handler, may.invokes (callback handler))
    (input : ClientInput)
    (stream : Option StreamRef)
    (handlerOf : Stream Unit → Option HandlerId) :
    Moves S may
      (dispatchStream input stream handlerOf callback) :=
  Ensures.bind (get_moves S)
    (fun _ => invokeHandler_moves S hMay _ _)

theorem dispatchStreamStart_moves
    (hMay : may.usesStreams)
    (hInvokes :
      ∀ handler stream,
        may.invokes (.incomingStream handler stream))
    (input : ClientInput)
    (streamId : UInt32)
    (opCode : Option OpCode) :
    Moves S may
      (dispatchStreamStart input streamId opCode) := by
  apply Ensures.bind (registerStream_moves S hMay _)
  intro stream
  apply Ensures.bind (get_moves S)
  intro w
  exact
    invokeHandler_moves S
      (fun handler => hInvokes handler stream) _ _

theorem dispatch_moves
    (hEncrypts : may.encrypts)
    (hResponds :
      ∀ requestId response,
        may.requests (.responds requestId response))
    (hStreams : may.usesStreams)
    (hInvokes :
      ∀ callback, (∀ handler, callback ≠ .disconnect handler) →
        may.invokes callback)
    (input : ClientInput)
    (payload : Payload) :
    Moves S may (dispatch S input payload) := by
  apply Ensures.bind (get_moves S)
  intro w
  apply Ensures.bind (Ensures.ofExcept _)
  intro message
  cases message with
  | response requestId response =>
      exact
        requestSection_moves S (hResponds requestId response)
  | streamStart streamId opCode =>
      exact
        dispatchStreamStart_moves S hStreams
          (fun _ _ => hInvokes _ (by simp)) input streamId
          opCode
  | streamData streamId data =>
      exact
        Ensures.bind (findStream_moves S _)
          (fun _ =>
            dispatchStream_moves S
              (fun _ => hInvokes _ (by simp)) _ _ _)
  | streamEnd streamId =>
      exact
        Ensures.bind (findStream_moves S _)
          (fun _ =>
            dispatchStream_moves S
              (fun _ => hInvokes _ (by simp)) _ _ _)
  | streamCancel streamId =>
      exact
        Ensures.bind (takeStream_moves S hStreams _)
          (fun _ =>
            dispatchStream_moves S
              (fun _ => hInvokes _ (by simp)) _ _ _)
  | application payload =>
      exact
        dispatchPayload_moves S hEncrypts
          (fun _ _ => hInvokes _ (by simp))
          (fun _ _ => hInvokes _ (by simp)) input payload

------------------------------------------------------------
-- on_message and the Watchdog
------------------------------------------------------------

theorem finishHandshake_moves
    (hMay : may.finalizes)
    (hInvokes : ∀ handler, may.invokes (.ready handler))
    (input : ClientInput)
    (data : Bytes) :
    Moves S may (finishHandshake S input data) := by
  apply Ensures.bind (Ensures.ofExcept _)
  intro serverHello
  apply Ensures.bind
  · exact Ensures.atomic (fun _ => .finalizes serverHello hMay)
  · intro _
    apply Ensures.bind (get_moves S)
    intro w
    split
    · exact invokeHandler_moves S hInvokes _ _
    · exact Ensures.pure ()

theorem decrypt_moves
    (hMay : may.decrypts)
    (packet : Bytes) :
    Moves S may (decrypt S packet) :=
  Ensures.atomic (fun _ => .decrypts packet hMay)

theorem onMessage_moves
    (input : ClientInput)
    (frame : Frame) :
    Moves S (ClientEvent.message input frame).may
      (onMessage S input frame) := by
  unfold onMessage
  split
  · exact Ensures.pure ()
  · apply Ensures.catchAll
    · apply Ensures.bind (get_moves S)
      intro w
      split
      · refine finishHandshake_moves S trivial ?_ input _
        exact fun handler => by simp [ClientEvent.may]
      · apply Ensures.bind (decrypt_moves S trivial _)
        intro payload
        apply Ensures.bind (get_moves S)
        intro w'
        split
        · exact disconnect_moves S trivial (Or.inl rfl) true
        · refine
            dispatch_moves S trivial ?_ trivial ?_ input payload
          · exact fun requestId response =>
              Or.inr ⟨requestId, response, rfl⟩
          · exact fun callback hNot => hNot
    · intro _
      exact disconnect_moves S trivial (Or.inl rfl) true

theorem watchdogPass_moves (now : TimePoint) :
    Moves S (ClientEvent.watchdogPass now).may
      (watchdogPass now) := by
  apply Ensures.atomic
  intro w
  rw [Action.run_get_bind]
  split
  · exact .reads
  · simp only [requestSection, Action.run_atomic]
    have hMay :
        (ClientEvent.watchdogPass now).may.requests
          (.expires now) :=
      rfl
    exact .requests hMay

theorem handle_moves (event : ClientEvent) :
    Moves S event.may (handle S event) := by
  cases event with
  | opened input hdl => exact onOpen_moves S input hdl
  | message input frame => exact onMessage_moves S input frame
  | closed input =>
      refine onEnd_moves S trivial ?_ input
      exact fun handler => ⟨handler, rfl⟩
  | failed input =>
      refine onEnd_moves S trivial ?_ input
      exact fun handler => ⟨handler, rfl⟩
  | watchdogPass now => exact watchdogPass_moves S now
  | call method => exact call_moves S method

end WsClient

end ObscuraProto
