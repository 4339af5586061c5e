import ObscuraProto.IdealPrimitives
import ObscuraProto.MalformedPayloads
import ObscuraProto.WsClient.Events

/-
  The limit on decrypted payloads, at both ends.

  Both ends check what they receive against the limit, after
  decryption.  The client checks what it sends against the
  same limit, with all identifiers and framing in it, so the
  server never refuses what a client sent.  The server sends
  without a check, and whatever it seals above the limit
  makes a client disconnect.

  Key definitions include:
    * `SizeLimits.Peers`
    * `SizeLimits.ClientRefuses`, `SizeLimits.ServerRefuses`
    * `SizeLimits.ServerSend`
    * `SizeLimits.ClientAgrees`, `SizeLimits.ServerAgrees`
    * `SizeLimits.Fits`

  Key theorems include:
    * `SizeLimits.onMessage_clientRefuses`
    * `SizeLimits.onMessage_serverRefuses`
    * `SizeLimits.clientAgrees`
    * `SizeLimits.serverAgrees_iff`
    * `SizeLimits.size_limits`
-/

namespace ObscuraProto

/- There is a limit, and `n` bytes are more. -/
def Config.ExceedsLimit
    (n : Nat)
    (cfg : Config) : Prop :=
  cfg.messageLimits.enabled = true ∧
    0 < cfg.messageLimits.maxDecryptedPayload ∧
      cfg.messageLimits.maxDecryptedPayload.toNat < n

theorem Config.payloadTooLarge_iff
    {payload : Payload}
    {cfg : Config} :
    cfg.payloadTooLarge payload = true ↔
      cfg.ExceedsLimit payload.parameters.length := by
  unfold payloadTooLarge ExceedsLimit
  simp only [Bool.and_eq_true, decide_eq_true_eq, gt_iff_lt,
    and_assoc]

namespace SizeLimits

open Effectful MalformedPayloads

variable (S : Sodium)

------------------------------------------------------------
-- Receiving
------------------------------------------------------------

/- The receiver opens with the key the sender seals with. -/
def Peers (sender receiver : Session) : Prop :=
  ∃ keys keys',
    sender.Ready keys ∧
      receiver.Ready keys' ∧ keys'.rx = keys.tx

/- The client's size check fails after the decryption. -/
def ClientRefuses (packet : Bytes) (c : WsClient) : Prop :=
  ∃ payload session,
    c.session.decryptPacket S packet =
        (.ok payload, session) ∧
      c.config.payloadTooLarge payload = true

/- The server's, on the session found for the connection. -/
def ServerRefuses
    (hdl : Hdl)
    (packet : Bytes)
    (w : WsServer) : Prop :=
  ∃ isAuth state payload,
    Found hdl isAuth state w ∧
      (state.session.decryptPacket S packet).1 =
          .ok payload ∧
        w.config.payloadTooLarge payload = true

/- A peer opens what was sealed, under a newer counter. -/
theorem opened_of_sealed
    (hCorrect : S.AeadCorrect)
    {receiver : Session}
    {keys : SessionKeys}
    (hReady : receiver.Ready keys)
    {nonce : Nonce}
    {payload opened : Payload}
    {counter : UInt64}
    (hOpened :
      (receiver.decryptPacket S
          (Crypto.packet S nonce payload counter keys.rx)).1 =
        .ok opened) :
    opened = payload ∧ receiver.recvCounter < counter := by
  rw [Session.decryptPacket_ready S hReady,
    Crypto.decrypt_packet S hCorrect nonce payload counter
      keys.rx_size] at hOpened
  dsimp only at hOpened
  split at hOpened
  · cases hOpened
  · next hNewer =>
      exact
        ⟨(Except.ok.inj hOpened).symm,
          UInt64.not_le.mp hNewer⟩

theorem disconnect_throws
    {P : Exception → Prop}
    (onIoThread : Bool) :
    Throws P (WsClient.disconnect onIoThread) := by
  have hAtomic :
      ∀ f : WsClient →
          Outcome Exception ClientEffect WsClient Unit,
        (∀ c, (f c).result = .ok ()) →
          Throws P (Action.atomic f) := by
    intro f hReturns
    apply Throws.atomic
    intro c e hError
    rw [hReturns c] at hError
    cases hError
  apply Throws.bind Throws.get
  intro c
  split
  · apply Throws.bind (hAtomic _ (fun _ => rfl))
    intro _
    apply Throws.bind (hAtomic _ (fun _ => rfl))
    intro _
    apply Throws.bind
    · apply Throws.bind Throws.get
      intro c
      split
      · exact hAtomic _ (fun _ => rfl)
      · exact Throws.pure ()
    · intro _
      unfold WsClient.releaseThread
      split
      · exact hAtomic _ (fun _ => rfl)
      · exact hAtomic _ (fun _ => rfl)
  · exact Throws.pure ()

/- What follows the decryption, on the established session. -/
theorem clientOnMessage_run
    {frame : Frame}
    {c : WsClient}
    {payload : Payload}
    {session : Session}
    (hBinary : frame.binary = true)
    (hOpens :
      c.session.decryptPacket S frame.payload =
        (.ok payload, session))
    (input : ClientInput) :
    (WsClient.onMessage S input frame).run c =
      (Action.catchAll
        (if c.config.payloadTooLarge payload then
          WsClient.disconnect true
        else
          WsClient.dispatch S input payload)
        (fun _ => WsClient.disconnect true)).run
          { c with session := session } := by
  have hComplete : c.session.handshakeComplete = true := by
    by_contra hIncomplete
    rw [Session.decryptPacket_incomplete S hIncomplete]
      at hOpens
    cases hOpens
  have hDecrypt :
      (WsClient.decrypt S frame.payload).run c =
        { result := .ok payload
          effects := []
          state := { c with session := session } } := by
    simp only [WsClient.decrypt, Action.run_atomic, hOpens]
  have hProcess :
      (WsClient.processMessage S input frame.payload).run c =
        (if c.config.payloadTooLarge payload then
          WsClient.disconnect true
        else
          WsClient.dispatch S input payload).run
            { c with session := session } := by
    unfold WsClient.processMessage
    rw [Action.run_get_bind]
    simp only [Session.isHandshakeComplete, hComplete,
      Bool.not_true, Bool.false_eq_true, if_false]
    unfold WsClient.receive
    rw [Action.run_bind_ok hDecrypt, Action.run_get_bind]
    rfl
  unfold WsClient.onMessage
  rw [hBinary]
  simp only [Bool.not_true, Bool.false_eq_true, if_false]
  rw [Action.run_catchAll, Action.run_catchAll, hProcess]

/- A payload that is refused makes the client disconnect. -/
theorem onMessage_clientRefuses
    {input : ClientInput}
    {frame : Frame}
    {c : WsClient}
    (hBinary : frame.binary = true)
    (hRefuses : ClientRefuses S frame.payload c) :
    ∃ session,
      (WsClient.onMessage S input frame).run c =
        (WsClient.disconnect true).run
          { c with session := session } := by
  rcases hRefuses with ⟨payload, session, hOpens, hLarge⟩
  refine ⟨session, ?_⟩
  rw [clientOnMessage_run S hBinary hOpens input,
    if_pos hLarge, (disconnect_throws true).catchAll_eq]

/- A payload that is refused makes the server close. -/
theorem onMessage_serverRefuses
    {input : IoInput}
    {hdl : Hdl}
    {isAuth : Bool}
    {state : ConnectionState}
    {frame : Frame}
    {payload : Payload}
    {w : WsServer}
    (hBinary : frame.binary = true)
    (hFound : Found hdl isAuth state w)
    (hRate : RateAllows input state w)
    (hOpens :
      (state.session.decryptPacket S frame.payload).1 =
        .ok payload)
    (hLarge : w.config.payloadTooLarge payload = true) :
    ((WsServer.onMessage S input hdl frame).run w).effects =
      [.close hdl .policyViolation "Payload too large"] := by
  rcases receive_run_opened S hFound hRate hOpens with
    ⟨rl, counter, hReceive⟩
  have hIgnored :
      (WsServer.receive S input hdl frame.payload).run w =
        { result := .ok .ignored
          effects :=
            [.close hdl .policyViolation "Payload too large"]
          state :=
            { w with
              rateLimiter := rl
              sessionTable :=
                w.sessionTable.store isAuth hdl
                  (WsServer.ConnectionState.received counter
                    state.lastActivityMs state) } } := by
    rw [hReceive, Action.run_catchAll_pure]
    unfold WsServer.keepPayload
    rw [Action.run_get_bind, if_pos hLarge]
    have hClose :=
      WsServer.closeHdl_run input hdl .policyViolation
        "Payload too large"
        { w with
          rateLimiter := rl
          sessionTable :=
            w.sessionTable.store isAuth hdl
              (WsServer.ConnectionState.received counter
                state.lastActivityMs state) }
    cases hAnswer : input.close hdl "Payload too large" with
    | error e =>
        rw [hAnswer] at hClose
        rw [Action.run_bind_error hClose]
        rfl
    | ok u =>
        rw [hAnswer] at hClose
        rw [Action.run_bind_ok hClose]
        rfl
  unfold WsServer.onMessage
  rw [hBinary]
  simp only [Bool.not_true, Bool.false_eq_true, if_false]
  rw [Action.run_bind_ok hIgnored]
  rfl

------------------------------------------------------------
-- What a Client Sends
------------------------------------------------------------

section Client

open WsClient

/-
  Configuration and keys stay, and every packet is sealed
  under these keys for a payload within the limit.
-/
structure Checked
    (c : WsClient)
    (effects : List ClientEffect)
    (c' : WsClient) : Prop where
  config : c'.config = c.config
  keys :
    ∀ keys, c'.session.Ready keys ↔ c.session.Ready keys
  fits :
    ∀ hdl packet,
      .transmit hdl packet ∈ effects →
        ∃ nonce payload counter keys,
          c.session.Ready keys ∧
            packet =
                Crypto.packet S nonce payload counter
                  keys.tx ∧
              c.config.payloadTooLarge payload = false

theorem composes_checked : Composes (Checked S) where
  refl := by
    intro c
    exact ⟨rfl, fun _ => Iff.rfl, by simp⟩
  trans := by
    intro c c' c'' xs ys hFirst hSecond
    refine ⟨hSecond.config.trans hFirst.config, ?_, ?_⟩
    · intro keys
      exact (hSecond.keys keys).trans (hFirst.keys keys)
    · intro hdl packet hMem
      rcases List.mem_append.mp hMem with hLeft | hRight
      · exact hFirst.fits hdl packet hLeft
      · rcases hSecond.fits hdl packet hRight with
          ⟨nonce, payload, counter, keys, hReady, hPacket,
            hSize⟩
        rw [hFirst.config] at hSize
        exact
          ⟨nonce, payload, counter, keys,
            (hFirst.keys keys).mp hReady, hPacket, hSize⟩

/- A step that neither transmits nor touches the session. -/
theorem checked_of_eq
    {c c' : WsClient}
    {effects : List ClientEffect}
    (hConfig : c'.config = c.config)
    (hSession : c'.session = c.session)
    (hSilent :
      ∀ hdl packet, .transmit hdl packet ∉ effects) :
    Checked S c effects c' := by
  refine ⟨hConfig, ?_, ?_⟩
  · intro keys
    rw [hSession]
  · intro hdl packet hMem
    exact (hSilent hdl packet hMem).elim

theorem ready_counter
    {s : Session}
    {counter : UInt64}
    (keys : SessionKeys) :
    ({ s with sendCounter := counter } : Session).Ready keys ↔
      s.Ready keys :=
  ⟨fun h => ⟨h.complete, h.keys_eq⟩,
    fun h => ⟨h.complete, h.keys_eq⟩⟩

/- `send` seals what has passed its own check. -/
theorem send_checked
    (nonce : Nonce)
    (payload : Payload) :
    Runs (Checked S) (send S nonce payload) := by
  intro c
  unfold send
  rw [Action.run_get_bind]
  cases hCheck : checkSend payload c with
  | error e =>
      rw [Action.run_ofExcept_error_bind]
      exact (composes_checked S).refl c
  | ok u =>
      have hSize :
          c.config.payloadTooLarge payload = false := by
        unfold checkSend at hCheck
        split at hCheck
        · cases hCheck
        · split at hCheck
          · cases hCheck
          · next hSmall => simpa using hSmall
      have hComplete : c.session.handshakeComplete = true := by
        unfold checkSend isReady at hCheck
        split at hCheck
        · cases hCheck
        · next hNot =>
            simp only [Bool.not_eq_true, Bool.not_eq_false',
              Bool.and_eq_true] at hNot
            exact hNot.2
      rcases Session.exists_ready hComplete with
        ⟨keys, hReady⟩
      have hEncrypt :
          (encrypt S nonce payload).run c =
            { result :=
                .ok (Crypto.packet S nonce payload
                  (c.session.sendCounter + 1) keys.tx)
              effects := []
              state :=
                { c with
                  session :=
                    { c.session with
                      sendCounter :=
                        c.session.sendCounter + 1 } } } := by
        simp only [encrypt, Action.run_atomic,
          Session.encryptPayload_ready S hReady]
      rw [Action.run_ofExcept_ok_bind,
        Action.run_catchAll_pure,
        Action.run_bind_ok hEncrypt]
      refine ⟨rfl, fun keys' => ready_counter keys', ?_⟩
      intro hdl packet hMem
      simp only [handOver, Action.run_atomic,
        List.nil_append, List.mem_singleton,
        ClientEffect.transmit.injEq] at hMem
      exact ⟨nonce, payload, _, keys, hReady, hMem.2, hSize⟩

/- A step that only rearranges what the client keeps. -/
theorem checked_atomic
    {α : Type}
    {f : WsClient →
      Outcome Exception ClientEffect WsClient α}
    (hConfig : ∀ c, (f c).state.config = c.config)
    (hSession : ∀ c, (f c).state.session = c.session)
    (hSilent :
      ∀ c hdl packet, .transmit hdl packet ∉ (f c).effects) :
    Runs (Checked S) (Action.atomic f) := by
  intro c
  rw [Action.run_atomic]
  exact
    checked_of_eq S (hConfig c) (hSession c) (hSilent c)

theorem get_checked :
    Runs (Checked S) (Action.get : ClientAction WsClient) :=
  (composes_checked S).refl

theorem ofExcept_checked
    {α : Type}
    (x : Except Exception α) :
    Runs (Checked S) (Action.ofExcept x : ClientAction α) :=
  (composes_checked S).refl

theorem modify_checked
    {f : WsClient → WsClient}
    (hConfig : ∀ c, (f c).config = c.config)
    (hSession : ∀ c, (f c).session = c.session) :
    Runs (Checked S)
      (Action.modify f : ClientAction Unit) :=
  checked_atomic S hConfig hSession (by simp)

theorem requestSection_checked
    (f :
      ClientRequestTable →
        List Completion × ClientRequestTable) :
    Runs (Checked S) (requestSection f) :=
  checked_atomic S (fun _ => rfl) (fun _ => rfl) (by simp)

/- Build a payload, then send it. -/
theorem build_send_checked
    (nonce : Nonce)
    (x : Except Exception Payload) :
    Runs (Checked S)
      (do
        let payload ← Action.ofExcept x
        send S nonce payload) :=
  Runs.bind (composes_checked S) (ofExcept_checked S x)
    (fun payload => send_checked S nonce payload)

theorem sendResponse_checked
    (nonce : Nonce)
    (requestId : UInt32)
    (payload : Payload) :
    Runs (Checked S)
      (sendResponse S nonce requestId payload) :=
  Runs.bind (composes_checked S) (get_checked S)
    (fun _ => build_send_checked S nonce _)

theorem asyncRequest_checked
    (nonce : Nonce)
    (promise : PromiseId)
    (clock : TimePoint)
    (payload : Payload)
    (timeoutMs : UInt32) :
    Runs (Checked S)
      (asyncRequest S nonce promise clock payload
        timeoutMs) := by
  have hComposes := composes_checked S
  apply Runs.bind hComposes (get_checked S)
  intro c
  split
  · exact hComposes.refl
  · apply Runs.bind hComposes
      (checked_atomic S (fun _ => rfl) (fun _ => rfl)
        (by simp))
    intro requestId
    apply Runs.bind hComposes (ofExcept_checked S _)
    intro request
    apply Runs.bind hComposes (requestSection_checked S _)
    intro _
    apply Runs.bind hComposes
    · unfold ensureWatchdog
      split
      · exact
          modify_checked S (fun _ => rfl) (fun _ => rfl)
      · exact hComposes.refl
    · intro _
      apply Runs.bind hComposes
      · apply Runs.catchAll hComposes (send_checked S _ _)
        intro e
        exact
          Runs.bind hComposes (requestSection_checked S _)
            (fun _ => hComposes.refl)
      · intro _
        exact hComposes.refl

theorem startStream_checked (nonce : Nonce) :
    Runs (Checked S) (startStream S nonce) := by
  have hComposes := composes_checked S
  apply Runs.bind hComposes
    (checked_atomic S (fun _ => rfl) (fun _ => rfl)
      (by simp))
  intro streamId
  apply Runs.bind hComposes
    (checked_atomic S (fun _ => rfl) (fun _ => rfl)
      (by simp))
  intro stream
  apply Runs.bind hComposes (get_checked S)
  intro c
  apply Runs.bind hComposes (ofExcept_checked S _)
  intro start
  exact
    Runs.bind hComposes (send_checked S nonce start)
      (fun _ => hComposes.refl)

theorem startStreamWith_checked
    (nonce : Nonce)
    (streamOpCode : OpCode) :
    Runs (Checked S)
      (startStreamWith S nonce streamOpCode) := by
  have hComposes := composes_checked S
  apply Runs.bind hComposes
    (checked_atomic S (fun _ => rfl) (fun _ => rfl)
      (by simp))
  intro streamId
  apply Runs.bind hComposes
    (checked_atomic S (fun _ => rfl) (fun _ => rfl)
      (by simp))
  intro stream
  apply Runs.bind hComposes (get_checked S)
  intro c
  apply Runs.bind hComposes (ofExcept_checked S _)
  intro start
  exact
    Runs.bind hComposes (send_checked S nonce start)
      (fun _ => hComposes.refl)

theorem streamCall_checked
    (nonce : Nonce)
    (build : Stream Unit → Except Exception Payload)
    (ref : StreamRef) :
    Runs (Checked S) (streamCall S nonce build ref) := by
  have hComposes := composes_checked S
  apply Runs.bind hComposes (get_checked S)
  intro c
  split
  · exact hComposes.refl
  · apply Runs.catchAll hComposes
    · apply Runs.bind hComposes (ofExcept_checked S _)
      intro payload
      split
      · exact send_checked S nonce payload
      · exact hComposes.refl
    · intro _
      exact hComposes.refl

theorem connect_checked
    (uri : String)
    (created : Except Exception Unit) :
    Runs (Checked S) (connect uri created) := by
  have hComposes := composes_checked S
  apply Runs.catchAll hComposes
  · apply Runs.bind hComposes (ofExcept_checked S created)
    intro _
    apply Runs.bind hComposes
      (checked_atomic S (fun _ => rfl) (fun _ => rfl)
        (by simp))
    intro _
    exact modify_checked S (fun _ => rfl) (fun _ => rfl)
  · intro _
    exact hComposes.refl

theorem disconnect_checked (onIoThread : Bool) :
    Runs (Checked S) (disconnect onIoThread) := by
  have hComposes := composes_checked S
  apply Runs.bind hComposes (get_checked S)
  intro c
  split
  · apply Runs.bind hComposes
      (checked_atomic S (fun _ => rfl) (fun _ => rfl)
        (by simp))
    intro _
    apply Runs.bind hComposes (requestSection_checked S _)
    intro _
    apply Runs.bind hComposes
    · apply Runs.bind hComposes (get_checked S)
      intro c
      split
      · exact
          checked_atomic S (fun _ => rfl) (fun _ => rfl)
            (by simp)
      · exact hComposes.refl
    · intro _
      unfold releaseThread
      split
      · exact modify_checked S (fun _ => rfl) (fun _ => rfl)
      · exact modify_checked S (fun _ => rfl) (fun _ => rfl)
  · exact hComposes.refl

theorem register_checked
    (registration : Registration)
    (callback : Option HandlerId) :
    Runs (Checked S) (register callback registration) := by
  cases registration <;>
    exact modify_checked S (fun _ => rfl) (fun _ => rfl)

/- Whatever method is called. -/
theorem call_checked (method : PublicCall) :
    Runs (Checked S) (call S method) := by
  have hComposes := composes_checked S
  cases method with
  | send nonce payload => exact send_checked S nonce payload
  | sendResponse nonce requestId payload =>
      exact sendResponse_checked S nonce requestId payload
  | asyncRequest nonce promise clock payload timeoutMs =>
      exact
        Runs.bind hComposes
          (asyncRequest_checked S nonce promise clock payload
            timeoutMs)
          (fun _ => hComposes.refl)
  | startStream nonce =>
      exact
        Runs.bind hComposes (startStream_checked S nonce)
          (fun _ => hComposes.refl)
  | startStreamWith nonce streamOpCode =>
      exact
        Runs.bind hComposes
          (startStreamWith_checked S nonce streamOpCode)
          (fun _ => hComposes.refl)
  | streamWrite nonce data ref =>
      exact streamCall_checked S nonce _ ref
  | streamEnd nonce ref =>
      exact streamCall_checked S nonce _ ref
  | streamCancel nonce ref =>
      exact streamCall_checked S nonce _ ref
  | connect uri created => exact connect_checked S uri created
  | disconnect onIoThread =>
      exact disconnect_checked S onIoThread
  | setClientIdentity identityKp =>
      exact modify_checked S (fun _ => rfl) (fun _ => rfl)
  | register registration callback =>
      exact register_checked S registration callback

/-
  No server with the same limits and the session of this
  client refuses a packet of the call.
-/
def ClientAgrees (method : PublicCall) (c : WsClient) : Prop :=
  ∀ hdl packet,
    .transmit hdl packet ∈ ((call S method).run c).effects →
      ∀ (w : WsServer) (hdl' : Hdl),
        w.config = c.config →
          (∀ isAuth state,
            Found hdl' isAuth state w →
              Peers c.session state.session) →
            ¬ ServerRefuses S hdl' packet w

theorem clientAgrees
    (hCorrect : S.AeadCorrect)
    (method : PublicCall)
    (c : WsClient) :
    ClientAgrees S method c := by
  intro hdl packet hMem w hdl' hConfig hPeers
  rintro ⟨isAuth, state, opened, hFound, hOpens, hLarge⟩
  rcases (call_checked S method c).fits hdl packet hMem with
    ⟨nonce, payload, counter, keys, hReady, hPacket, hSize⟩
  rcases hPeers isAuth state hFound with
    ⟨keys₁, keys₂, hReady₁, hReady₂, hMatch⟩
  rw [hReady₁.unique hReady] at hMatch
  rw [hPacket, ← hMatch] at hOpens
  rw [(opened_of_sealed S hCorrect hReady₂ hOpens).1, hConfig,
    hSize] at hLarge
  cases hLarge

end Client

------------------------------------------------------------
-- What a Server Sends
------------------------------------------------------------

section Server

open WsServer

/- The calls that send a payload of the application. -/
inductive ServerSend where
| send (nonce : Nonce) (hdl : Hdl) (payload : Payload)
| sendAnonymous
    (nonce : Nonce)
    (hdl : Hdl)
    (payload : Payload)
| sendResponse
    (nonce : Nonce)
    (hdl : Hdl)
    (requestId : UInt32)
    (payload : Payload)
| asyncRequest
    (input : RequestInput)
    (hdl : Hdl)
    (payload : Payload)
    (timeoutMs : UInt32)
| streamWrite (nonce : Nonce) (data : Bytes) (ref : StreamRef)

namespace ServerSend

def method : ServerSend → PublicCall
| .send nonce hdl payload => .send nonce hdl payload
| .sendAnonymous nonce hdl payload =>
    .sendAnonymous nonce hdl payload
| .sendResponse nonce hdl requestId payload =>
    .sendResponse nonce hdl requestId payload
| .asyncRequest input hdl payload timeoutMs =>
    .asyncRequest input hdl payload timeoutMs
| .streamWrite nonce data ref => .streamWrite nonce data ref

/- The session a send function of a stream looks up. -/
def chosenBy (w : WsServer) :
    ServerSendFn → Option ConnectionState
| .send hdl => (w.sessionTable.ready hdl).map Prod.snd
| .sendAnonymous hdl => w.sessionTable.readyIn false hdl

/- The send function it goes through, which is that of the -/
/- stream only as long as the wrapper has an owner.        -/
def sendFn (w : WsServer) :
    ServerSend → Option ServerSendFn
| .send _ hdl _ => some (.send hdl)
| .sendAnonymous _ hdl _ => some (.sendAnonymous hdl)
| .sendResponse _ hdl _ _ => some (.send hdl)
| .asyncRequest _ hdl _ _ => some (.send hdl)
| .streamWrite _ _ ref =>
    if w.hasOwner then
      w.streams.objects[ref]?.map Stream.sendFn
    else
      none

/- The session the call sends on, if there is one. -/
def chosen
    (w : WsServer)
    (op : ServerSend) : Option ConnectionState :=
  (op.sendFn w).bind (chosenBy w)

/- A parameter that the builder writes fits its length. -/
def Built : ServerSend → Prop
| .sendResponse _ _ _ payload =>
    payload.parameters.length + 2 ≤ 65535
| .streamWrite _ data _ => data.length ≤ 65535
| _ => True

/-
  The bytes of parameters that are sealed: an identifier adds
  six, the length of a field two, a serialized payload its
  operation code.
-/
def size : ServerSend → Nat
| .send _ _ payload => payload.parameters.length
| .sendAnonymous _ _ payload => payload.parameters.length
| .sendResponse _ _ _ payload =>
    payload.parameters.length + 10
| .asyncRequest _ _ payload _ =>
    payload.parameters.length + 6
| .streamWrite _ data _ => data.length + 8

end ServerSend

/- What a send on the chosen session transmits. -/
def transmitted
    (nonce : Nonce)
    (hdl : Hdl)
    (payload : Payload) :
    Option ConnectionState → List ServerEffect
| none => []
| some state =>
    match (state.session.encryptPayload S nonce payload).1 with
    | .error _ => []
    | .ok packet => [.transmit hdl packet]

theorem send_effects
    (nonce : Nonce)
    (hdl : Hdl)
    (payload : Payload)
    (w : WsServer) :
    ((send S nonce hdl payload).run w).effects =
      transmitted S nonce hdl payload
        (ServerSend.chosenBy w (.send hdl)) := by
  simp only [send, sessionSection, Action.run_atomic,
    SessionTable.send, ServerSend.chosenBy]
  cases w.sessionTable.ready hdl with
  | none => rfl
  | some found =>
      rcases found with ⟨isAuth, state⟩
      simp only [SessionTable.transmit, Option.map_some,
        transmitted]
      cases state.session.encryptPayload S nonce payload with
      | mk result session => cases result <;> rfl

theorem sendAnonymous_effects
    (nonce : Nonce)
    (hdl : Hdl)
    (payload : Payload)
    (w : WsServer) :
    ((sendAnonymous S nonce hdl payload).run w).effects =
      transmitted S nonce hdl payload
        (ServerSend.chosenBy w (.sendAnonymous hdl)) := by
  simp only [sendAnonymous, sessionSection,
    Action.run_atomic, SessionTable.sendAnonymous,
    ServerSend.chosenBy]
  cases w.sessionTable.readyIn false hdl with
  | none => rfl
  | some state =>
      simp only [SessionTable.transmit, transmitted]
      cases state.session.encryptPayload S nonce payload with
      | mk result session => cases result <;> rfl

/- The packets of a call, by what it seals and for whom. -/
structure SealsFor
    (op : ServerSend)
    (w : WsServer)
    (nonce : Nonce)
    (hdl : Hdl)
    (payload : Payload) : Prop where
  size : payload.parameters.length = op.size
  packets :
    ∀ hdl' packet,
      .transmit hdl' packet ∈
          ((call S op.method).run w).effects ↔
        op.Built ∧
          .transmit hdl' packet ∈
            transmitted S nonce hdl payload (op.chosen w)

theorem sendResponse_seals
    (nonce : Nonce)
    (hdl : Hdl)
    (requestId : UInt32)
    (payload : Payload)
    (w : WsServer) :
    SealsFor S (.sendResponse nonce hdl requestId payload) w
      nonce hdl
      { opCode := w.config.opcodes.response
        parameters :=
          PayloadBuilder.field (htonl requestId) ++
            PayloadBuilder.field payload.serialize } where
  size := by
    simp [ServerSend.size]
    omega
  packets := by
    intro hdl' packet
    change
      .transmit hdl' packet ∈
          ((sendResponse S nonce hdl requestId payload).run
            w).effects ↔ _
    unfold sendResponse
    rw [Action.run_get_bind]
    by_cases hBuilt : payload.serialize.length ≤ 65535
    · rw [responsePayload_of_le _ _ hBuilt,
        Action.run_ofExcept_ok_bind, send_effects]
      rw [Payload.length_serialize] at hBuilt
      simp only [ServerSend.Built, hBuilt, true_and]
      rfl
    · cases hResponse :
          responsePayload w.config.opcodes requestId
            payload with
      | ok response =>
          exact
            (hBuilt (size_of_responsePayload hResponse)).elim
      | error e =>
          rw [Action.run_ofExcept_error_bind]
          rw [Payload.length_serialize] at hBuilt
          simp [ServerSend.Built, hBuilt]

/- A send that fails only completes the promise. -/
theorem transmit_of_request
    (nonce : Nonce)
    (hdl : Hdl)
    (request : Payload)
    (requestId : UInt32)
    (w : WsServer)
    (hdl' : Hdl)
    (packet : Bytes) :
    .transmit hdl' packet ∈
        ((Action.catchAll (send S nonce hdl request)
          (fun e => do
            requestSection (fun t => t.fail hdl requestId e)
            Action.throw e)).run w).effects ↔
      .transmit hdl' packet ∈
        ((send S nonce hdl request).run w).effects := by
  rw [Action.run_catchAll]
  cases hRun : (send S nonce hdl request).run w with
  | mk result effects w' =>
      cases result with
      | ok u => exact Iff.rfl
      | error e =>
          dsimp only
          rw [Action.run_bind_ok (requestSection_run _ w')]
          simp

theorem asyncRequest_seals
    (input : RequestInput)
    (hdl : Hdl)
    (payload : Payload)
    (timeoutMs : UInt32)
    (w : WsServer) :
    SealsFor S (.asyncRequest input hdl payload timeoutMs) w
      input.nonce hdl
      { opCode := payload.opCode
        parameters :=
          PayloadBuilder.field (htonl w.nextRequestId) ++
            payload.parameters } where
  size := by
    simp [ServerSend.size]
    omega
  packets := by
    intro hdl' packet
    change
      _ ∈ ((do
        let _ ← asyncRequest S input hdl payload timeoutMs :
          ServerAction Unit).run w).effects ↔ _
    rw [Action.effects_run_bind_pure]
    unfold asyncRequest
    rw [Action.run_get_bind]
    split
    · next hNone =>
        have hReady : w.sessionTable.ready hdl = none :=
          Option.isNone_iff_eq_none.mp hNone
        simp [ServerSend.chosen, ServerSend.sendFn,
          ServerSend.chosenBy, hReady, transmitted]
    · have hTake :
          takeRequestId.run w =
            { result := .ok w.nextRequestId
              effects := []
              state :=
                { w with
                  nextRequestId := w.nextRequestId + 1 } } :=
        rfl
      rw [Action.run_bind_ok hTake, requestPayload_eq,
        Action.run_ofExcept_ok_bind,
        Action.run_bind_ok (requestSection_run _ _)]
      simp only [List.map_nil, List.nil_append]
      rw [Action.effects_run_bind_pure, transmit_of_request,
        send_effects]
      exact iff_of_eq (true_and _).symm

theorem streamWrite_seals
    (nonce : Nonce)
    (data : Bytes)
    (ref : StreamRef)
    (w : WsServer) :
    ∃ hdl payload,
      SealsFor S (.streamWrite nonce data ref) w nonce hdl
        payload := by
  cases hStream : w.streams.objects[ref]? with
  | none =>
      refine
        ⟨0,
          { opCode := 0
            parameters := List.replicate (data.length + 8) 0 },
          by simp [ServerSend.size], ?_⟩
      intro hdl' packet
      simp [ServerSend.method, call, streamWrite, streamCall,
        hStream, ServerSend.chosen, ServerSend.sendFn,
        transmitted]
  | some stream =>
      have hSendFn :
          ∃ hdl, ∀ payload,
            ((runSendFn S nonce payload stream.sendFn).run
                w).effects =
              transmitted S nonce hdl payload
                (ServerSend.chosenBy w stream.sendFn) := by
        cases stream.sendFn with
        | send hdl =>
            exact ⟨hdl, fun p => send_effects S nonce hdl p w⟩
        | sendAnonymous hdl =>
            exact
              ⟨hdl, fun p =>
                sendAnonymous_effects S nonce hdl p w⟩
      rcases hSendFn with ⟨hdl, hSendFn⟩
      refine
        ⟨hdl,
          { opCode := OpCode.streamData
            parameters :=
              PayloadBuilder.field (htonl stream.streamId) ++
                PayloadBuilder.field data },
          by simp [ServerSend.size]; omega, ?_⟩
      intro hdl' packet
      change
        _ ∈ ((streamWrite S nonce data ref).run w).effects ↔ _
      unfold streamWrite streamCall
      rw [Action.run_get_bind]
      simp only [hStream, Action.run_catchAll_pure]
      by_cases hBuilt : data.length ≤ 65535
      · rw [stream.writePayload_of_le hBuilt,
          Action.run_ofExcept_ok_bind]
        simp only [ServerSend.Built, hBuilt, true_and,
          ServerSend.chosen, ServerSend.sendFn, hStream,
          Option.map_some]
        cases w.hasOwner with
        | true =>
            simp only [if_true, hSendFn, Option.bind_some]
        | false =>
            simp [transmitted]
      · cases hWrite : stream.writePayload data with
        | ok payload =>
            exact
              (hBuilt (Stream.size_of_writePayload
                hWrite)).elim
        | error e =>
            rw [Action.run_ofExcept_error_bind]
            simp [ServerSend.Built, hBuilt]

theorem exists_seals
    (op : ServerSend)
    (w : WsServer) :
    ∃ nonce hdl payload,
      SealsFor S op w nonce hdl payload := by
  cases op with
  | send nonce hdl payload =>
      refine ⟨nonce, hdl, payload, rfl, ?_⟩
      intro hdl' packet
      change
        _ ∈ ((send S nonce hdl payload).run w).effects ↔ _
      rw [send_effects]
      exact iff_of_eq (true_and _).symm
  | sendAnonymous nonce hdl payload =>
      refine ⟨nonce, hdl, payload, rfl, ?_⟩
      intro hdl' packet
      change
        _ ∈ ((sendAnonymous S nonce hdl payload).run
          w).effects ↔ _
      rw [sendAnonymous_effects]
      exact iff_of_eq (true_and _).symm
  | sendResponse nonce hdl requestId payload =>
      exact
        ⟨nonce, hdl, _,
          sendResponse_seals S nonce hdl requestId payload w⟩
  | asyncRequest input hdl payload timeoutMs =>
      exact
        ⟨input.nonce, hdl, _,
          asyncRequest_seals S input hdl payload timeoutMs w⟩
  | streamWrite nonce data ref =>
      exact ⟨nonce, streamWrite_seals S nonce data ref w⟩

/-
  No client with the same limits that is the peer of the
  chosen session refuses a packet of the call.
-/
def ServerAgrees (op : ServerSend) (w : WsServer) : Prop :=
  ∀ hdl packet,
    .transmit hdl packet ∈
        ((call S op.method).run w).effects →
      ∀ (c : WsClient) state,
        c.config = w.config →
          op.chosen w = some state →
            Peers state.session c.session →
              ¬ ClientRefuses S packet c

/-
  What is sealed is within the limit, or nothing is sealed
  that a peer could open: there is no session, the wrapper of
  the stream has no owner, a field does not fit its length or
  the counter is spent.
-/
def Fits (op : ServerSend) (w : WsServer) : Prop :=
  ∀ state,
    op.chosen w = some state →
      op.Built →
        state.session.sendCounter + 1 ≠ 0 →
          ¬ w.config.ExceedsLimit op.size

theorem ready_of_chosenBy
    {w : WsServer}
    {sendFn : ServerSendFn}
    {state : ConnectionState}
    (hChosen : ServerSend.chosenBy w sendFn = some state) :
    ∃ keys, state.session.Ready keys := by
  cases sendFn with
  | send hdl =>
      rcases Option.map_eq_some_iff.mp hChosen with
        ⟨found, hReady, hState⟩
      rw [← hState]
      exact
        Session.exists_ready
          (SessionTable.ready_eq_some hReady).2
  | sendAnonymous hdl =>
      exact
        Session.exists_ready
          (SessionTable.readyIn_eq_some.mp hChosen).2

theorem ready_of_chosen
    {op : ServerSend}
    {w : WsServer}
    {state : ConnectionState}
    (hChosen : op.chosen w = some state) :
    ∃ keys, state.session.Ready keys := by
  rcases Option.bind_eq_some_iff.mp hChosen with
    ⟨sendFn, _, hBy⟩
  exact ready_of_chosenBy hBy

theorem transmitted_ready
    (nonce : Nonce)
    (hdl : Hdl)
    (payload : Payload)
    {state : ConnectionState}
    {keys : SessionKeys}
    (hReady : state.session.Ready keys) :
    transmitted S nonce hdl payload (some state) =
      [.transmit hdl
        (state.nextPacket S nonce payload keys)] := by
  simp only [transmitted,
    Session.encryptPayload_ready S hReady,
    ConnectionState.nextPacket]

/- A client with the configuration and the matching keys. -/
def peerOf (w : WsServer) (keys : SessionKeys) : WsClient :=
  let fresh := WsClient.new w.serverSignKey w.config true
  { fresh with
    session :=
      fresh.session.established Versions.v1_0 none
        w.serverSignKey
        { rx := keys.tx
          tx := keys.rx
          rx_size := keys.tx_size
          tx_size := keys.rx_size } }

theorem peerOf_ready
    (w : WsServer)
    (keys : SessionKeys) :
    (peerOf w keys).session.Ready
      { rx := keys.tx
        tx := keys.rx
        rx_size := keys.tx_size
        tx_size := keys.rx_size } :=
  Session.ready_established _ _ _ _ _

theorem serverAgrees_iff
    (hCorrect : S.AeadCorrect)
    (op : ServerSend)
    (w : WsServer) :
    ServerAgrees S op w ↔ Fits op w := by
  rcases exists_seals S op w with ⟨nonce, hdl, payload, hSeals⟩
  constructor
  · intro hAgrees state hChosen hBuilt hCounter hExceeds
    rcases ready_of_chosen hChosen with ⟨keys, hReady⟩
    have hMem :
        .transmit hdl
            (state.nextPacket S nonce payload keys) ∈
          ((call S op.method).run w).effects := by
      rw [hSeals.packets, hChosen,
        transmitted_ready S nonce hdl payload hReady]
      exact ⟨hBuilt, List.mem_singleton.mpr rfl⟩
    have hSized :
        w.config.ExceedsLimit payload.parameters.length := by
      rw [hSeals.size]
      exact hExceeds
    have hNewer : 0 < state.session.sendCounter + 1 :=
      UInt64.pos_iff_ne_zero.mpr hCounter
    have hOpens :=
      Session.decryptPacket_packet S hCorrect
        (peerOf_ready w keys) nonce payload hNewer
    exact
      hAgrees hdl _ hMem (peerOf w keys) state rfl hChosen
        ⟨keys, _, hReady, peerOf_ready w keys, rfl⟩
        ⟨payload, _, hOpens,
          Config.payloadTooLarge_iff.mpr hSized⟩
  · intro hFits hdl' packet hMem c state hConfig hChosen
    rintro ⟨keys, keys', hReady, hReady', hMatch⟩
    rintro ⟨opened, session, hOpens, hLarge⟩
    rw [hSeals.packets, hChosen,
      transmitted_ready S nonce hdl payload hReady,
      List.mem_singleton] at hMem
    rcases hMem with ⟨hBuilt, hPacket⟩
    injection hPacket with _ hSealed
    rw [hSealed, ConnectionState.nextPacket, ← hMatch]
      at hOpens
    rcases opened_of_sealed S hCorrect hReady'
        (congrArg Prod.fst hOpens) with ⟨hSame, hNewer⟩
    rw [hSame, hConfig, Config.payloadTooLarge_iff,
      hSeals.size] at hLarge
    refine hFits state hChosen hBuilt ?_ hLarge
    intro hSpent
    rw [hSpent] at hNewer
    exact UInt64.not_lt_zero hNewer

/-
  The client keeps to the limit of the server; the server
  keeps to that of the client exactly when the parameters it
  seals happen to be within it.
-/
theorem size_limits (hCorrect : S.AeadCorrect) :
    (∀ method c, ClientAgrees S method c) ∧
      ∀ op w, ServerAgrees S op w ↔ Fits op w :=
  ⟨clientAgrees S hCorrect, serverAgrees_iff S hCorrect⟩

------------------------------------------------------------
-- At the Limit
------------------------------------------------------------

open PlainSodium

/- A server with a small limit, after a handshake. -/
def smallServer : WsServer :=
  next plainSodium
    (WsServer.new (sampleKeyPair 6)
      { Config.withDefaults with
        messageLimits :=
          { enabled := true, maxDecryptedPayload := 20 } }
      true)
    (.hello 1 1)

/- A payload with `n` bytes of parameters is sent. -/
def sendOf (n : Nat) : ServerSend :=
  .send .zero 1
    { opCode := 7, parameters := List.replicate n 0 }

set_option maxRecDepth 8000 in
theorem smallServer_limits :
    smallServer.config.messageLimits =
      { enabled := true, maxDecryptedPayload := 20 } := by
  decide

theorem smallServer_exceeds_iff (n : Nat) :
    smallServer.config.ExceedsLimit (sendOf n).size ↔
      20 < n := by
  have hSize : (sendOf n).size = n := by
    simp [sendOf, ServerSend.size]
  rw [hSize, Config.ExceedsLimit, smallServer_limits]
  simp

set_option maxRecDepth 8000 in
/- The server can send on the connection. -/
theorem smallServer_chosen :
    ((sendOf 21).chosen smallServer).any
        (fun state => state.session.sendCounter + 1 ≠ 0) =
      true := by
  decide

theorem sendOf_refused :
    ¬ Fits (sendOf 21) smallServer := by
  rcases (Option.any_eq_true _ _).mp smallServer_chosen with
    ⟨state, hChosen, hCounter⟩
  intro hFits
  exact
    hFits state hChosen trivial (by simpa using hCounter)
      ((smallServer_exceeds_iff 21).mpr (by decide))

/- One byte decides. -/
theorem size_limits_smallServer :
    ServerAgrees plainSodium (sendOf 20) smallServer ∧
      ¬ ServerAgrees plainSodium (sendOf 21) smallServer := by
  have hAgrees :=
    (size_limits plainSodium plainSodium_aeadCorrect).2
  refine ⟨(hAgrees _ _).mpr ?_, ?_⟩
  · intro state _ _ _ hExceeds
    have hMore := (smallServer_exceeds_iff 20).mp hExceeds
    omega
  · intro hSent
    exact sendOf_refused ((hAgrees _ _).mp hSent)

/-
  Under a configuration with a limit, the server hands over a
  packet that a client with this configuration refuses.
-/
theorem server_oversends :
    (smallServer.config.messageLimits.enabled = true ∧
        0 <
          smallServer.config.messageLimits.maxDecryptedPayload) ∧
      ∃ hdl packet c state,
        .transmit hdl packet ∈
            ((call plainSodium (sendOf 21).method).run
              smallServer).effects ∧
          (sendOf 21).chosen smallServer = some state ∧
            c.config = smallServer.config ∧
              Peers state.session c.session ∧
                ClientRefuses plainSodium packet c := by
  refine ⟨?_, ?_⟩
  · rw [smallServer_limits]
    decide
  · by_contra hNone
    apply sendOf_refused
    apply
      (serverAgrees_iff plainSodium plainSodium_aeadCorrect
        _ _).mp
    intro hdl packet hMem c state hConfig hChosen hPeers
      hRefuses
    exact
      hNone
        ⟨hdl, packet, c, state, hMem, hChosen, hConfig,
          hPeers, hRefuses⟩

end Server

end SizeLimits

end ObscuraProto
