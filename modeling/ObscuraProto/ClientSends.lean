import ObscuraProto.ServerSends
import ObscuraProto.WsClient.Requests

/-
  What concurrent threads of the client send.

  A send takes a counter when it seals its packet and hands
  the packet over in a later step, with no lock around the
  two.  The peer accepts what is handed over exactly when the
  counters arrive in order, so a send that is overtaken
  between its two steps is lost.

  Key definitions include:
    * `ClientSends.handedOver`
    * `ClientSends.ConnectedStep`, `ClientSends.InOrder`
    * `ClientSends.Returned`, `ClientSends.Accepted`

  Key theorems include:
    * `ClientSends.decryptAll_ok_iff`
    * `ClientSends.accepted_iff_rising`
    * `ClientSends.client_sends_accepted`
    * `ClientSends.overtaken_lost`
-/

namespace ObscuraProto

namespace ClientSends

open Effectful Threads WsClient
open ServerSends (packetCounter packetCounter_of_genuine)

------------------------------------------------------------
-- What Is Handed Over
------------------------------------------------------------

def packetsOf (effects : List ClientEffect) : List Bytes :=
  effects.filterMap (fun effect =>
    match effect with
    | .transmit _ packet => some packet
    | _ => none)

/- The transport delivers in this order and loses nothing. -/
def handedOver (history : Trace) : List Bytes :=
  history.flatMap (fun m => packetsOf m.effects)

def counters (history : Trace) : List UInt64 :=
  (handedOver history).map packetCounter

/- A packet that was sealed under the key. -/
def SealedUnder
    (S : Sodium)
    (key packet : Bytes) : Prop :=
  ∃ r : Sealed,
    r.key = key ∧ r.packet = packet ∧ r.Genuine S

/- The keys stay, and one sealed packet at most goes out. -/
structure SendStep
    (S : Sodium)
    (keys : SessionKeys)
    (w : WsClient)
    (effects : List ClientEffect)
    (w' : WsClient) : Prop where
  ready : w.session.Ready keys → w'.session.Ready keys
  genuine :
    ∀ packet ∈ packetsOf effects,
      SealedUnder S keys.tx packet
  single : (packetsOf effects).length ≤ 1

/- Short for: such steps, while the session has its keys. -/
abbrev Sends
    {α : Type}
    (S : Sodium)
    (keys : SessionKeys)
    (trace : Trace)
    (act : ClientAction α) : Prop :=
  Traces (fun w => w.session.Ready keys)
    (fun _ => SendStep S keys) (fun _ => True) trace act

/- Short for: such steps, whatever happens in between. -/
abbrev Quiet
    {α : Type}
    (S : Sodium)
    (keys : SessionKeys)
    (act : ClientAction α) : Prop :=
  Ensures (SendStep S keys) act

variable {S : Sodium}
variable {keys : SessionKeys}

theorem Sends.of_quiet
    {α : Type}
    {act : ClientAction α}
    (hQuiet : Quiet S keys act)
    (trace : Trace) :
    Sends S keys trace act :=
  .of_ensures hQuiet (fun _ _ _ _ hStep => hStep)
    (fun _ => trivial) trace

/- What sends nothing may go before. -/
theorem Sends.quiet_bind
    {α β : Type}
    {act : ClientAction α}
    {f : α → ClientAction β}
    {trace : Trace}
    (hQuiet : Quiet S keys act)
    (hNext : ∀ a trace, Sends S keys trace (f a)) :
    Sends S keys trace (act >>= f) :=
  .ensures_bind hQuiet (fun _ _ _ _ hStep => hStep)
    (fun a more => hNext a (trace ++ more))

------------------------------------------------------------
-- Steps That Send Nothing
------------------------------------------------------------

/- The session is left alone and nothing is handed over. -/
theorem quiet_atomic
    {α : Type}
    {f : WsClient → Outcome Exception ClientEffect WsClient α}
    (hSession : ∀ w, (f w).state.session = w.session)
    (hSilent : ∀ w, packetsOf (f w).effects = []) :
    Quiet S keys (Action.atomic f) := by
  refine Ensures.atomic (fun w => ⟨?_, ?_, ?_⟩)
  · intro hReady
    rw [hSession]
    exact hReady
  · intro packet hMem
    rw [hSilent] at hMem
    cases hMem
  · rw [hSilent]
    exact Nat.zero_le 1

theorem quiet_get :
    Quiet S keys (Action.get : ClientAction WsClient) :=
  quiet_atomic (fun _ => rfl) (fun _ => rfl)

theorem quiet_modify
    {f : WsClient → WsClient}
    (hSession : ∀ w, (f w).session = w.session) :
    Quiet S keys (Action.modify f : ClientAction Unit) :=
  quiet_atomic hSession (fun _ => rfl)

theorem quiet_emit
    {effect : ClientEffect}
    (hSilent : packetsOf [effect] = []) :
    Quiet S keys (Action.emit effect : ClientAction Unit) :=
  quiet_atomic (fun _ => rfl) (fun _ => hSilent)

theorem quiet_requestSection
    (f :
      ClientRequestTable →
        List Completion × ClientRequestTable) :
    Quiet S keys (requestSection f) := by
  refine quiet_atomic (fun _ => rfl) (fun w => ?_)
  simp [packetsOf]

theorem quiet_ensureWatchdog (deadline : Option TimePoint) :
    Quiet S keys (ensureWatchdog deadline) := by
  unfold ensureWatchdog
  split
  · exact quiet_modify (fun _ => rfl)
  · exact Ensures.pure ()

theorem quiet_registerStream (stream : Stream Unit) :
    Quiet S keys (registerStream stream) :=
  quiet_atomic (fun _ => rfl) (fun _ => rfl)

theorem quiet_connect
    (uri : String)
    (created : Except Exception Unit) :
    Quiet S keys (connect uri created) := by
  refine Ensures.catchAll ?_ (fun _ => Ensures.pure ())
  apply Ensures.bind (Ensures.ofExcept created)
  intro _
  apply Ensures.bind (quiet_emit rfl)
  intro _
  exact quiet_modify (fun _ => rfl)

theorem quiet_disconnect (onIoThread : Bool) :
    Quiet S keys (disconnect onIoThread) := by
  apply Ensures.bind quiet_get
  intro w
  split
  · apply Ensures.bind (quiet_emit rfl)
    intro _
    apply Ensures.bind (quiet_requestSection _)
    intro _
    apply Ensures.bind
    · apply Ensures.bind quiet_get
      intro w'
      split
      · exact quiet_emit rfl
      · exact Ensures.pure ()
    · intro _
      unfold releaseThread
      split <;> exact quiet_modify (fun _ => rfl)
  · exact Ensures.pure ()

theorem quiet_register
    (registration : Registration)
    (callback : Option HandlerId) :
    Quiet S keys (register callback registration) := by
  cases registration <;> exact quiet_modify (fun _ => rfl)

theorem quiet_invoke
    {α : Type}
    (callback : ClientCallback)
    (answer : Except Exception α) :
    Quiet S keys (invoke callback answer) :=
  Ensures.bind (quiet_emit rfl) (fun _ => Ensures.ofExcept _)

theorem quiet_invokeHandler
    (handler : Option HandlerId)
    (callback : HandlerId → ClientCallback)
    (answer : Except Exception Unit) :
    Quiet S keys (invokeHandler handler callback answer) := by
  cases handler with
  | none => exact Ensures.pure ()
  | some handler => exact quiet_invoke _ _

theorem quiet_onEnd (input : ClientInput) :
    Quiet S keys (onEnd input) := by
  refine Ensures.bind (quiet_modify ?_) (fun _ => ?_)
  · exact fun _ => rfl
  · exact
      Ensures.bind quiet_get
        (fun _ => quiet_invokeHandler _ _ _)

theorem quiet_dispatchStream
    (input : ClientInput)
    (stream : Option StreamRef)
    (handlerOf : Stream Unit → Option HandlerId)
    (callback : HandlerId → ClientCallback) :
    Quiet S keys
      (dispatchStream input stream handlerOf callback) := by
  apply Ensures.bind quiet_get
  intro w
  exact quiet_invokeHandler _ _ _

theorem quiet_dispatchStreamStart
    (input : ClientInput)
    (streamId : UInt32)
    (opCode : Option OpCode) :
    Quiet S keys
      (dispatchStreamStart input streamId opCode) := by
  apply Ensures.bind (quiet_registerStream _)
  intro stream
  apply Ensures.bind quiet_get
  intro w
  exact quiet_invokeHandler _ _ _

theorem quiet_findStream (streamId : UInt32) :
    Quiet S keys (findStream streamId) :=
  Ensures.bind quiet_get (fun _ => Ensures.pure _)

/- A packet that is read moves the receive counter only. -/
theorem quiet_decrypt (packet : Bytes) :
    Quiet S keys (decrypt S packet) := by
  refine Ensures.atomic (fun w => ⟨?_, ?_, Nat.zero_le 1⟩)
  · intro hReady
    rcases Session.decryptPacket_cases S w.session packet with
      ⟨e, hRejected⟩ | ⟨_, result, _, _, _, hAccepted⟩
    · simp only [hRejected]
      exact hReady
    · simp only [hAccepted]
      exact ⟨hReady.complete, hReady.keys_eq⟩
  · intro packet' hMem
    cases hMem

theorem quiet_watchdogPass (now : TimePoint) :
    Quiet S keys (watchdogPass now) := by
  refine quiet_atomic ?_ ?_
  · intro w
    rw [Action.run_get_bind]
    split <;> rfl
  · intro w
    rw [Action.run_get_bind]
    split
    · rfl
    · simp [requestSection, packetsOf]

------------------------------------------------------------
-- Sending
------------------------------------------------------------

/- The packet that is handed over is the one just sealed. -/
theorem send_sends
    (nonce : Nonce)
    (payload : Payload)
    (trace : Trace) :
    Sends S keys trace (send S nonce payload) := by
  refine Sends.quiet_bind quiet_get ?_
  intro w trace
  refine .ofExcept_bind ?_
  intro _ _
  refine .catch_atomic_bind ?_ ?_ ?_
  · intro w' hReady
    refine ⟨fun _ => ?_, fun packet hMem => ?_, Nat.zero_le 1⟩
    · simp only [Session.encryptPayload_ready S hReady]
      exact ⟨hReady.complete, hReady.keys_eq⟩
    · cases hMem
  · intro w' packet hReady hPacket
    simp only [Session.encryptPayload_ready S hReady,
      Except.ok.injEq] at hPacket
    refine .step ?_ (fun _ _ => .returned () trivial)
    intro w'' _
    refine ⟨id, fun packet' hMem => ?_, Nat.le_refl 1⟩
    rw [List.mem_singleton.mp hMem]
    let r : Sealed :=
      { key := keys.tx
        counter := w'.session.sendCounter + 1
        payload := payload
        packet := packet }
    exact ⟨r, rfl, rfl, nonce, hPacket.symm⟩
  · intro w' e _ _
    exact .returned () trivial

theorem sendResponse_sends
    (nonce : Nonce)
    (requestId : UInt32)
    (payload : Payload)
    (trace : Trace) :
    Sends S keys trace
      (sendResponse S nonce requestId payload) := by
  refine Sends.quiet_bind quiet_get ?_
  intro w trace
  refine .ofExcept_bind ?_
  intro response _
  exact send_sends nonce response trace

theorem asyncRequest_sends
    (nonce : Nonce)
    (promise : PromiseId)
    (clock : TimePoint)
    (payload : Payload)
    (timeoutMs : UInt32)
    (trace : Trace) :
    Sends S keys trace
      (asyncRequest S nonce promise clock payload
        timeoutMs) := by
  refine Sends.quiet_bind quiet_get ?_
  intro w trace
  split
  · exact Sends.of_quiet (Ensures.throw _) trace
  · refine
      Sends.quiet_bind
        (quiet_atomic (fun _ => rfl) (fun _ => rfl)) ?_
    intro requestId trace
    refine .ofExcept_bind ?_
    intro request _
    refine Sends.quiet_bind (quiet_requestSection _) ?_
    intro _ trace
    refine Sends.quiet_bind (quiet_ensureWatchdog _) ?_
    intro _ trace
    refine
      .bind
        (.catchAll (send_sends nonce request trace) ?_)
        (fun _ _ _ => .returned promise trivial)
    intro e more
    refine Sends.of_quiet ?_ _
    exact
      Ensures.bind (quiet_requestSection _)
        (fun _ => Ensures.throw e)

theorem startStream_sends
    (nonce : Nonce)
    (trace : Trace) :
    Sends S keys trace (startStream S nonce) := by
  refine
    Sends.quiet_bind
      (quiet_atomic (fun _ => rfl) (fun _ => rfl)) ?_
  intro streamId trace
  refine Sends.quiet_bind (quiet_registerStream _) ?_
  intro stream trace
  refine Sends.quiet_bind quiet_get ?_
  intro w trace
  refine .ofExcept_bind ?_
  intro start _
  exact
    .bind (send_sends nonce start trace)
      (fun _ _ _ => .returned stream trivial)

theorem startStreamWith_sends
    (nonce : Nonce)
    (streamOpCode : OpCode)
    (trace : Trace) :
    Sends S keys trace
      (startStreamWith S nonce streamOpCode) := by
  refine
    Sends.quiet_bind
      (quiet_atomic (fun _ => rfl) (fun _ => rfl)) ?_
  intro streamId trace
  refine Sends.quiet_bind (quiet_registerStream _) ?_
  intro stream trace
  refine Sends.quiet_bind quiet_get ?_
  intro w trace
  refine .ofExcept_bind ?_
  intro start _
  exact
    .bind (send_sends nonce start trace)
      (fun _ _ _ => .returned stream trivial)

theorem streamCall_sends
    (nonce : Nonce)
    (build : Stream Unit → Except Exception Payload)
    (ref : StreamRef)
    (trace : Trace) :
    Sends S keys trace (streamCall S nonce build ref) := by
  refine Sends.quiet_bind quiet_get ?_
  intro w trace
  split
  · exact .returned () trivial
  · refine
      .catchAll ?_ (fun _ _ => .returned () trivial)
    refine .ofExcept_bind ?_
    intro payload _
    split
    · exact send_sends nonce payload trace
    · exact .returned () trivial

theorem call_sends
    (k : ClientCall)
    (trace : Trace) :
    Sends S keys trace (callCode S k) := by
  cases k with
  | watchdogPass now =>
      exact Sends.of_quiet (quiet_watchdogPass now) trace
  | method called =>
      cases called with
      | send nonce payload =>
          exact send_sends nonce payload trace
      | sendResponse nonce requestId payload =>
          exact sendResponse_sends nonce requestId payload trace
      | asyncRequest nonce promise clock payload timeoutMs =>
          exact
            .bind
              (asyncRequest_sends nonce promise clock payload
                timeoutMs trace)
              (fun _ _ _ => .returned () trivial)
      | startStream nonce =>
          exact
            .bind (startStream_sends nonce trace)
              (fun _ _ _ => .returned () trivial)
      | startStreamWith nonce streamOpCode =>
          exact
            .bind
              (startStreamWith_sends nonce streamOpCode trace)
              (fun _ _ _ => .returned () trivial)
      | streamWrite nonce data ref =>
          exact streamCall_sends nonce _ ref trace
      | streamEnd nonce ref =>
          exact streamCall_sends nonce _ ref trace
      | streamCancel nonce ref =>
          exact streamCall_sends nonce _ ref trace
      | connect uri created =>
          exact Sends.of_quiet (quiet_connect uri created) trace
      | disconnect onIoThread =>
          exact
            Sends.of_quiet (quiet_disconnect onIoThread) trace
      | setClientIdentity identityKp =>
          refine Sends.of_quiet (quiet_modify ?_) trace
          exact fun _ => rfl
      | register registration callback =>
          exact
            Sends.of_quiet
              (quiet_register registration callback) trace

theorem dispatchPayload_sends
    (input : ClientInput)
    (payload : Payload)
    (trace : Trace) :
    Sends S keys trace (dispatchPayload S input payload) := by
  refine Sends.quiet_bind quiet_get ?_
  intro w trace
  simp only
  split
  · exact .returned () trivial
  · refine .ofExcept_bind ?_
    intro requestId _
    refine Sends.quiet_bind (quiet_invoke _ _) ?_
    intro response trace
    exact sendResponse_sends _ requestId response trace
  · exact Sends.of_quiet (quiet_invokeHandler _ _ _) trace

theorem dispatch_sends
    (input : ClientInput)
    (payload : Payload)
    (trace : Trace) :
    Sends S keys trace (dispatch S input payload) := by
  refine Sends.quiet_bind quiet_get ?_
  intro w trace
  refine .ofExcept_bind ?_
  intro message _
  cases message with
  | response requestId response =>
      exact Sends.of_quiet (quiet_requestSection _) trace
  | streamStart streamId opCode =>
      exact
        Sends.of_quiet (quiet_dispatchStreamStart _ _ _) trace
  | streamData streamId data =>
      refine Sends.of_quiet ?_ trace
      exact
        Ensures.bind (quiet_findStream streamId)
          (fun _ => quiet_dispatchStream _ _ _ _)
  | streamEnd streamId =>
      refine Sends.of_quiet ?_ trace
      exact
        Ensures.bind (quiet_findStream streamId)
          (fun _ => quiet_dispatchStream _ _ _ _)
  | streamCancel streamId =>
      refine Sends.of_quiet ?_ trace
      refine
        Ensures.bind
          (quiet_atomic (fun _ => rfl) (fun _ => rfl))
          (fun _ => quiet_dispatchStream _ _ _ _)
  | application payload =>
      exact dispatchPayload_sends input payload trace

/- With a complete handshake every message is decrypted. -/
theorem onMessage_sends
    (input : ClientInput)
    (frame : Frame)
    (trace : Trace) :
    Sends S keys trace (onMessage S input frame) := by
  unfold onMessage
  split
  · exact .returned () trivial
  · refine
      .catchAll ?_
        (fun _ _ => Sends.of_quiet (quiet_disconnect true) _)
    refine .atomic_bind ?_ ?_
    · intro w _
      exact ⟨id, fun _ hMem => (by cases hMem), Nat.zero_le 1⟩
    · intro w w' hReady hSame
      cases hSame
      have hComplete : w.session.isHandshakeComplete = true :=
        hReady.complete
      simp only [hComplete, Bool.not_true,
        Bool.false_eq_true, if_false]
      refine Sends.quiet_bind (quiet_decrypt frame.payload) ?_
      intro payload trace
      refine Sends.quiet_bind quiet_get ?_
      intro w'' trace
      split
      · exact Sends.of_quiet (quiet_disconnect true) trace
      · exact dispatch_sends input payload trace

------------------------------------------------------------
-- Runs on One Connection
------------------------------------------------------------

/- A new connection opens. -/
def opens : Label ClientCall ClientIoEvent → Bool
| .event ⟨.opened _ _, _⟩ => true
| _ => false

/- Steps of any threads while the connection stays. -/
def ConnectedStep
    (S : Sodium)
    (p : ClientPool)
    (l : Label ClientCall ClientIoEvent)
    (q : ClientPool) : Prop :=
  PoolStep S p l q ∧ opens l = false

theorem event_sends
    (event : ClientIoEvent)
    (hEvent : opens (.event event) = false)
    (trace : Trace) :
    Sends S keys trace (handle S event.val) := by
  rcases event with ⟨event, hIo⟩
  cases event with
  | opened input hdl => cases hEvent
  | message input frame =>
      exact onMessage_sends input frame trace
  | closed input | failed input =>
      exact Sends.of_quiet (quiet_onEnd input) trace
  | watchdogPass now => cases hIo
  | call method => cases hIo

/- What holds along a run on one connection. -/
structure Sound
    (S : Sodium)
    (keys : SessionKeys)
    (p : ClientPool) : Prop where
  ready : p.shared.session.Ready keys
  past : ∀ m ∈ p.history, m.before.session.Ready keys
  genuine :
    ∀ packet ∈ handedOver p.history,
      SealedUnder S keys.tx packet
  calls :
    ∀ thread ∈ p.calls, Sends S keys thread.trace thread.code
  events :
    ∀ thread, p.events = some thread →
      Sends S keys thread.trace thread.code
  logged : p.Logged

theorem sound_pool
    {w : WsClient}
    (hReady : w.session.Ready keys) :
    Sound S keys (pool w) where
  ready := hReady
  past := by simp [pool]
  genuine := by simp [pool, handedOver]
  calls := by simp [pool]
  events := by simp [pool]
  logged := ⟨by simp [pool], by simp [pool]⟩

theorem handedOver_snoc
    (history : Trace)
    (m : Transition WsClient ClientEffect) :
    handedOver (history ++ [m]) =
      handedOver history ++ packetsOf m.effects := by
  simp [handedOver]

/- The next step, with what it hands over. -/
theorem Sound.next
    {p q : ClientPool}
    {l : Label ClientCall ClientIoEvent}
    (hSound : Sound S keys p)
    (hStep : PoolStep S p l q) :
    (q.shared = p.shared ∧ q.history = p.history) ∨
      (SendStep S keys p.shared (p.nextEffects l) q.shared ∧
        q.history =
          p.history ++
            [⟨p.shared, p.nextEffects l, q.shared⟩]) := by
  refine Pool.next_step ?_ ?_ hStep
  · intro thread hThread effects next rest hCode
    have hSends := hSound.calls thread hThread
    rw [hCode] at hSends
    cases hSends with
    | step hNow _ => exact hNow p.shared hSound.ready
  · intro thread hThread effects next rest hCode
    have hSends := hSound.events thread hThread
    rw [hCode] at hSends
    cases hSends with
    | step hNow _ => exact hNow p.shared hSound.ready

theorem Sound.step
    {p q : ClientPool}
    {l : Label ClientCall ClientIoEvent}
    (hSound : Sound S keys p)
    (hStep : ConnectedStep S p l q) :
    Sound S keys q := by
  rcases hStep with ⟨hStep, hStays⟩
  have hCalls :=
    Pool.traces_step (fun k => call_sends k []) hSound.ready
      hSound.calls hStep
  have hEvents :
      ∀ thread, q.events = some thread →
        Sends S keys thread.trace thread.code := by
    refine
      Pool.forall_event_step ?_ ?_ hSound.events hStep
    · intro event hLabel
      rw [hLabel] at hStays
      exact event_sends event hStays []
    · intro thread effects next rest hCode hSends
      rw [hCode] at hSends
      cases hSends with
      | step _ hRest => exact hRest p.shared hSound.ready
  have hLogged := hSound.logged.step rfl hStep
  rcases hSound.next hStep with
    ⟨hShared, hHistory⟩ | ⟨hSend, hHistory⟩
  · refine ⟨?_, ?_, ?_, hCalls, hEvents, hLogged⟩
    · rw [hShared]
      exact hSound.ready
    · rw [hHistory]
      exact hSound.past
    · rw [hHistory]
      exact hSound.genuine
  · refine
      ⟨hSend.ready hSound.ready, ?_, ?_, hCalls, hEvents,
        hLogged⟩
    · rw [hHistory]
      intro m hMem
      rcases List.mem_append.mp hMem with hOld | hNew
      · exact hSound.past m hOld
      · rw [List.mem_singleton.mp hNew]
        exact hSound.ready
    · rw [hHistory, handedOver_snoc]
      intro packet hMem
      rcases List.mem_append.mp hMem with hOld | hNew
      · exact hSound.genuine packet hOld
      · exact hSend.genuine packet hNew

theorem sound_of_run
    {w : WsClient}
    {ls : List (Label ClientCall ClientIoEvent)}
    {p : ClientPool}
    (hReady : w.session.Ready keys)
    (hRun :
      StateMachine.Run (ConnectedStep S) (pool w) ls p) :
    Sound S keys p :=
  hRun.invariant
    (fun _ _ _ hBefore hStep => hBefore.step hStep)
    (sound_pool hReady)

------------------------------------------------------------
-- The Order of Counters
------------------------------------------------------------

/-
  What is handed over next carries a counter above that of
  the peer and of all that was handed over before: no send
  is overtaken between its encryption and its hand-over.
-/
def InOrder
    (recvCounter : UInt64)
    (p : ClientPool)
    (l : Label ClientCall ClientIoEvent) : Prop :=
  ∀ packet ∈ packetsOf (p.nextEffects l),
    ∀ counter ∈ recvCounter :: counters p.history,
      counter < packetCounter packet

instance
    (recvCounter : UInt64)
    (p : ClientPool)
    (l : Label ClientCall ClientIoEvent) :
    Decidable (InOrder recvCounter p l) :=
  -- Named, so that no instance enumerates every counter.
  @List.decidableBAll _ _
    (fun packet =>
      List.decidableBAll (· < packetCounter packet)
        (recvCounter :: counters p.history))
    (packetsOf (p.nextEffects l))

abbrev Rising
    (recvCounter : UInt64)
    (packets : List Bytes) : Prop :=
  (recvCounter :: packets.map packetCounter).Pairwise (· < ·)

theorem Rising.append
    {recvCounter : UInt64}
    {packets more : List Bytes}
    (hRising : Rising recvCounter packets)
    (hSingle : more.length ≤ 1)
    (hAbove :
      ∀ packet ∈ more,
        ∀ counter ∈
            recvCounter :: packets.map packetCounter,
          counter < packetCounter packet) :
    Rising recvCounter (packets ++ more) := by
  unfold Rising
  rw [List.map_append, ← List.cons_append,
    List.pairwise_append]
  refine ⟨hRising, ?_, ?_⟩
  · match more with
    | [] => exact .nil
    | [packet] => exact List.pairwise_singleton _ _
    | _ :: _ :: _ =>
        simp only [List.length_cons] at hSingle
        omega
  · intro counter hOld counter' hNew
    rcases List.mem_map.mp hNew with ⟨packet, hMem, hSame⟩
    rw [← hSame]
    exact hAbove packet hMem counter hOld

/- Steps in order keep the counters rising. -/
theorem rising_of_run
    {w : WsClient}
    {recvCounter : UInt64}
    {ls : List (Label ClientCall ClientIoEvent)}
    {p : ClientPool}
    (hReady : w.session.Ready keys)
    (hRun :
      StateMachine.Run
        (fun p l q =>
          ConnectedStep S p l q ∧ InOrder recvCounter p l)
        (pool w) ls p) :
    Rising recvCounter (handedOver p.history) := by
  let P (p : ClientPool) : Prop :=
    Sound S keys p ∧ Rising recvCounter (handedOver p.history)
  have hStart : P (pool w) :=
    ⟨sound_pool hReady, List.pairwise_singleton _ _⟩
  have hEnd : P p := by
    refine hRun.invariant ?_ hStart
    rintro p l q ⟨hSound, hRising⟩ ⟨hStep, hOrder⟩
    refine ⟨hSound.step hStep, ?_⟩
    rcases hSound.next hStep.1 with
      ⟨_, hHistory⟩ | ⟨hSend, hHistory⟩
    · rw [hHistory]
      exact hRising
    · rw [hHistory, handedOver_snoc]
      exact hRising.append hSend.single hOrder
  exact hEnd.2

------------------------------------------------------------
-- The Receiving Side
------------------------------------------------------------

/- A sealed packet is accepted when its counter is newer. -/
theorem decryptPacket_sealed
    (hCorrect : S.AeadCorrect)
    {peer : Session}
    {peerKeys : SessionKeys}
    (hPeer : peer.Ready peerKeys)
    {packet : Bytes}
    (hSealed : SealedUnder S peerKeys.rx packet)
    (hNewer : peer.recvCounter < packetCounter packet) :
    ∃ payload,
      peer.decryptPacket S packet =
        (.ok payload,
          { peer with recvCounter := packetCounter packet }) := by
  rcases hSealed with ⟨r, hKey, hPacket, hGenuine⟩
  have hCounter := packetCounter_of_genuine hGenuine
  rcases hGenuine with ⟨nonce, hEnvelope⟩
  rw [hPacket] at hCounter hEnvelope
  rw [hCounter] at hNewer ⊢
  rw [hKey] at hEnvelope
  rw [hEnvelope]
  exact
    ⟨r.payload,
      Session.decryptPacket_packet S hCorrect hPeer nonce
        r.payload hNewer⟩

/- Otherwise it is dropped as a replay. -/
theorem decryptPacket_stale
    (hCorrect : S.AeadCorrect)
    {peer : Session}
    {peerKeys : SessionKeys}
    (hPeer : peer.Ready peerKeys)
    {packet : Bytes}
    (hSealed : SealedUnder S peerKeys.rx packet)
    (hStale : ¬ peer.recvCounter < packetCounter packet) :
    ∃ e, (peer.decryptPacket S packet).1 = .error e := by
  rcases hSealed with ⟨r, hKey, hPacket, hGenuine⟩
  have hCounter := packetCounter_of_genuine hGenuine
  rcases hGenuine with ⟨nonce, hEnvelope⟩
  rw [hPacket] at hCounter hEnvelope
  rw [hCounter] at hStale
  rw [hKey] at hEnvelope
  rw [hEnvelope, Session.decryptPacket_ready S hPeer,
    Crypto.decrypt_packet S hCorrect nonce r.payload r.counter
      peerKeys.rx_size]
  simp only [UInt64.not_lt.mp hStale, if_true]
  exact ⟨_, rfl⟩

/- All is accepted exactly when the counters rise. -/
theorem decryptAll_ok_iff
    (hCorrect : S.AeadCorrect)
    {peer : Session}
    {peerKeys : SessionKeys}
    (hPeer : peer.Ready peerKeys)
    {packets : List Bytes}
    (hSealed :
      ∀ packet ∈ packets, SealedUnder S peerKeys.rx packet) :
    (∀ result ∈ (Session.decryptAll S packets peer).1,
        ∃ payload, result = .ok payload) ↔
      Rising peer.recvCounter packets := by
  induction packets generalizing peer with
  | nil => simp [Session.decryptAll, Rising]
  | cons packet rest ih =>
      have hFirst := hSealed packet List.mem_cons_self
      by_cases hNewer :
          peer.recvCounter < packetCounter packet
      · rcases decryptPacket_sealed hCorrect hPeer hFirst
            hNewer with
          ⟨payload, hOpens⟩
        let after : Session :=
          { peer with recvCounter := packetCounter packet }
        have hAfter : after.Ready peerKeys :=
          ⟨hPeer.complete, hPeer.keys_eq⟩
        have hRest :=
          ih hAfter
            (fun other hMem =>
              hSealed other (List.mem_cons_of_mem packet hMem))
        have hBelow :
            (∀ counter ∈ rest.map packetCounter,
                packetCounter packet < counter) →
              ∀ counter ∈ rest.map packetCounter,
                peer.recvCounter < counter :=
          fun hAbove counter hMem =>
            UInt64.lt_trans hNewer (hAbove counter hMem)
        simp only [Rising, List.map_cons,
          List.pairwise_cons] at hRest ⊢
        simp only [Session.decryptAll, hOpens,
          List.forall_mem_cons]
        constructor
        · rintro ⟨_, hAll⟩
          have hLater := hRest.mp hAll
          exact ⟨⟨hNewer, hBelow hLater.1⟩, hLater⟩
        · rintro ⟨_, hLater⟩
          exact ⟨⟨payload, rfl⟩, hRest.mpr hLater⟩
      · rcases decryptPacket_stale hCorrect hPeer hFirst
            hNewer with
          ⟨e, hDropped⟩
        constructor
        · intro hAll
          rcases hAll _
              (by
                simp only [Session.decryptAll, hDropped]
                exact List.mem_cons_self) with
            ⟨payload, hOk⟩
          cases hOk
        · intro hRising
          have hAbove :=
            (List.pairwise_cons.mp hRising).1
              (packetCounter packet) List.mem_cons_self
          exact absurd hAbove hNewer

/- The peer reads the packet, and it reads this payload. -/
def Accepted
    (S : Sodium)
    (peer : Session)
    (packets : List Bytes)
    (packet : Bytes)
    (payload : Payload) : Prop :=
  ∃ i : Nat, packets[i]? = some packet ∧
    (Session.decryptAll S packets peer).1[i]? =
      some (Except.ok payload)

/- Rising counters: everything is read as it was sealed. -/
theorem accepted_of_rising
    (hCorrect : S.AeadCorrect)
    {peer : Session}
    {peerKeys : SessionKeys}
    (hPeer : peer.Ready peerKeys)
    {packets : List Bytes}
    (hSealed :
      ∀ packet ∈ packets, SealedUnder S peerKeys.rx packet)
    (hRising : Rising peer.recvCounter packets)
    {nonce : Nonce}
    {payload : Payload}
    {counter : UInt64}
    (hMem :
      Crypto.packet S nonce payload counter peerKeys.rx ∈
        packets) :
    Accepted S peer packets
      (Crypto.packet S nonce payload counter peerKeys.rx)
      payload := by
  induction packets generalizing peer with
  | nil => cases hMem
  | cons packet rest ih =>
      have hNewer :
          peer.recvCounter < packetCounter packet :=
        (List.pairwise_cons.mp hRising).1 _
          List.mem_cons_self
      rcases decryptPacket_sealed hCorrect hPeer
          (hSealed packet List.mem_cons_self) hNewer with
        ⟨first, hOpens⟩
      rcases List.mem_cons.mp hMem with hHere | hLater
      · subst hHere
        have hCounter :
            packetCounter
                (Crypto.packet S nonce payload counter
                  peerKeys.rx) = counter := by
          unfold packetCounter
          rw [Crypto.slice_packet_counter,
            ntohllLocal_htonllLocal]
        rw [hCounter] at hNewer
        refine ⟨0, rfl, ?_⟩
        simp only [Session.decryptAll,
          Session.decryptPacket_packet S hCorrect hPeer nonce
            payload hNewer,
          List.getElem?_cons_zero]
      · let after : Session :=
          { peer with recvCounter := packetCounter packet }
        have hAfter : after.Ready peerKeys :=
          ⟨hPeer.complete, hPeer.keys_eq⟩
        rcases ih hAfter
            (fun other hOther =>
              hSealed other (List.mem_cons_of_mem packet hOther))
            (List.pairwise_cons.mp hRising).2 hLater with
          ⟨i, hPacket, hResult⟩
        refine ⟨i + 1, hPacket, ?_⟩
        simp only [Session.decryptAll, hOpens,
          List.getElem?_cons_succ]
        exact hResult

/- The condition is exact, in every run on one connection. -/
theorem accepted_iff_rising
    (hCorrect : S.AeadCorrect)
    {w : WsClient}
    {peer : Session}
    {peerKeys : SessionKeys}
    {ls : List (Label ClientCall ClientIoEvent)}
    {p : ClientPool}
    (hReady : w.session.Ready keys)
    (hPeer : peer.Ready peerKeys)
    (hMatch : peerKeys.rx = keys.tx)
    (hRun :
      StateMachine.Run (ConnectedStep S) (pool w) ls p) :
    (∀ result ∈
          (Session.decryptAll S (handedOver p.history)
            peer).1,
        ∃ payload, result = .ok payload) ↔
      Rising peer.recvCounter (handedOver p.history) := by
  apply decryptAll_ok_iff hCorrect hPeer
  rw [hMatch]
  exact (sound_of_run hReady hRun).genuine

------------------------------------------------------------
-- Sends That Have Returned
------------------------------------------------------------

/- The thread of a call, or the one of the event. -/
def Belongs (trace : Trace) (p : ClientPool) : Prop :=
  (∃ thread ∈ p.calls, thread.trace = trace) ∨
    ∃ thread, p.events = some thread ∧ thread.trace = trace

/-
  Somewhere in the thread, `send` was called with the payload
  and has returned normally after these steps.
-/
def Returned
    (S : Sodium)
    (payload : Payload)
    (steps trace : Trace) : Prop :=
  steps <:+: trace ∧
    ∃ nonce, Executes (send S nonce payload) steps (.ok ())

/- It has sealed its payload and handed the packet over. -/
theorem handedOver_of_returned
    {nonce : Nonce}
    {payload : Payload}
    {steps : Trace}
    (hExecutes :
      Executes (send S nonce payload) steps (.ok ()))
    (hReady : ∀ m ∈ steps, m.before.session.Ready keys) :
    ∃ counter,
      Crypto.packet S nonce payload counter keys.tx ∈
        handedOver steps := by
  rcases Executes.bind hExecutes with
    ⟨e, _, hError⟩ | ⟨w, front, rest, _, hRest, hSteps⟩
  · cases hError
  · subst hSteps
    rcases Executes.bind hRest with
      ⟨e, _, hError⟩ |
        ⟨_, front', rest', _, hGuarded, hSteps⟩
    · cases hError
    · subst hSteps
      have hSealed
          {steps : Trace}
          {result : Except Exception Bytes}
          (hEncrypt :
            Executes (encrypt S nonce payload) steps result)
          (hMem : ∀ m ∈ steps, m.before.session.Ready keys) :
          ∃ counter,
            result =
              .ok
                (Crypto.packet S nonce payload counter
                  keys.tx) := by
        rcases hEncrypt.atomic with ⟨s, hSteps, hResult⟩
        rw [hSteps] at hMem
        have hNow : s.session.Ready keys :=
          hMem _ (List.mem_singleton_self _)
        simp only [Session.encryptPayload_ready S hNow]
          at hResult
        exact ⟨_, hResult⟩
      rcases hGuarded.catchAll with
        ⟨_, hBoth, _⟩ | ⟨e, front'', _, hFails, _, hSteps⟩
      · rcases hBoth.bind with
          ⟨e, _, hError⟩ |
            ⟨packet, first, second, hEncrypt, hHands, hSteps⟩
        · cases hError
        · subst hSteps
          rcases hSealed hEncrypt
              (fun m hMem => hReady m (by simp [hMem])) with
            ⟨counter, hPacket⟩
          cases hPacket
          rcases hHands.atomic with ⟨s, hSecond, _⟩
          refine ⟨counter, ?_⟩
          rw [hSecond]
          simp [handedOver, packetsOf]
      · subst hSteps
        rcases hFails.bind with
          ⟨e', hEncrypt, _⟩ |
            ⟨packet, first, second, _, hHands, _⟩
        · rcases hSealed hEncrypt
              (fun m hMem => hReady m (by simp [hMem])) with
            ⟨counter, hPacket⟩
          cases hPacket
        · rcases hHands.atomic with ⟨s, _, hResult⟩
          cases hResult

/-
  In every run on one connection whose hand-overs are in
  order, the payload of every send that has returned is
  accepted by the peer.
-/
theorem client_sends_accepted
    (hCorrect : S.AeadCorrect)
    {w : WsClient}
    {peer : Session}
    {peerKeys : SessionKeys}
    {ls : List (Label ClientCall ClientIoEvent)}
    {p : ClientPool}
    (hReady : w.session.Ready keys)
    (hPeer : peer.Ready peerKeys)
    (hMatch : peerKeys.rx = keys.tx)
    (hRun :
      StateMachine.Run
        (fun p l q =>
          ConnectedStep S p l q ∧
            InOrder peer.recvCounter p l)
        (pool w) ls p)
    {trace steps : Trace}
    {payload : Payload}
    (hBelongs : Belongs trace p)
    (hReturned : Returned S payload steps trace) :
    ∃ packet ∈ handedOver steps,
      Accepted S peer (handedOver p.history) packet
        payload := by
  have hRising := rising_of_run hReady hRun
  have hSound : Sound S keys p :=
    sound_of_run hReady
      (hRun.mono (fun _ _ _ hStep => hStep.1))
  rcases hReturned with ⟨hInfix, nonce, hExecutes⟩
  have hLogged : ∀ m ∈ steps, m ∈ p.history := by
    intro m hMem
    have hTrace := hInfix.subset hMem
    rcases hBelongs with
      ⟨thread, hThread, hSame⟩ | ⟨thread, hThread, hSame⟩
    · rw [← hSame] at hTrace
      exact hSound.logged.calls thread hThread m hTrace
    · rw [← hSame] at hTrace
      exact hSound.logged.events thread hThread m hTrace
  rcases handedOver_of_returned hExecutes
      (fun m hMem => hSound.past m (hLogged m hMem)) with
    ⟨counter, hPacket⟩
  have hHanded :
      Crypto.packet S nonce payload counter keys.tx ∈
        handedOver p.history := by
    rcases List.mem_flatMap.mp hPacket with
      ⟨m, hMem, hEffects⟩
    exact List.mem_flatMap.mpr ⟨m, hLogged m hMem, hEffects⟩
  have hGenuine := hSound.genuine
  rw [← hMatch] at hPacket hHanded hGenuine
  exact
    ⟨_, hPacket,
      accepted_of_rising hCorrect hPeer hGenuine hRising
        hHanded⟩

------------------------------------------------------------
-- Two Sends at Once
------------------------------------------------------------

open PlainSodium

/- The client after a handshake with ephemeral keys 1, 2. -/
def established : WsClient :=
  let input := smooth (sampleKx 1)
  next plainSodium
    (next plainSodium sample (.opened input 1))
    (.message input { payload := welcome.serialize })

/- The session that has answered it. -/
def answering : Session :=
  let hello : ClientHello :=
    { supportedVersions := supportedVersions
      ephemeralPk := ⟨List.replicate 32 1⟩ }
  ((Session.new .server (sampleKeyPair 6)
      supportedVersions).serverRespondToHandshake plainSodium
    (sampleKx 2) hello).2

def firstPayload : Payload := ⟨0x1001, [7]⟩

def secondPayload : Payload := ⟨0x1001, [8]⟩

def bothCalled : List (Label ClientCall ClientIoEvent) :=
  let nonce := (smooth (sampleKx 1)).nonce
  [ .call (.method (.send nonce firstPayload)),
    .call (.method (.send nonce secondPayload)) ]

/- Both have passed the check before the first one sends. -/
def inTurns : List (Label ClientCall ClientIoEvent) :=
  bothCalled ++
    [ .stepCall 0, .stepCall 1, .stepCall 0, .stepCall 0,
      .stepCall 1, .stepCall 1 ]

/- The second overtakes the first before its hand-over. -/
def overtaking : List (Label ClientCall ClientIoEvent) :=
  bothCalled ++
    [ .stepCall 0, .stepCall 0, .stepCall 1, .stepCall 1,
      .stepCall 1, .stepCall 0 ]

set_option maxRecDepth 8000 in
theorem established_ready :
    ∃ keys peerKeys,
      established.session.Ready keys ∧
        answering.Ready peerKeys ∧
          peerKeys.rx = keys.tx := by
  have hComplete :
      established.session.handshakeComplete = true := by
    decide
  have hAnswered : answering.handshakeComplete = true := by
    decide
  rcases Session.exists_ready hComplete with ⟨keys, hReady⟩
  rcases Session.exists_ready hAnswered with
    ⟨peerKeys, hPeer⟩
  have hSame :
      answering.sessionKeys.map SessionKeys.rx =
        established.session.sessionKeys.map
          SessionKeys.tx := by
    decide
  rw [hReady.keys_eq, hPeer.keys_eq] at hSame
  exact ⟨keys, peerKeys, hReady, hPeer, Option.some.inj hSame⟩

/- The call has returned normally. -/
def hasReturned (i : Nat) (p : ClientPool) : Bool :=
  match p.calls[i]? with
  | none => false
  | some thread =>
      match thread.code with
      | .done (.ok _) => true
      | _ => false

/- The steps of a call of `send` that has returned. -/
theorem returned_of_call
    {w : WsClient}
    {ls : List (Label ClientCall ClientIoEvent)}
    {p : ClientPool}
    {nonce : Nonce}
    (i : Nat)
    (payload : Payload)
    (hRun : StateMachine.Run (PoolStep S) (pool w) ls p)
    (hCall :
      (p.calls.map Thread.call)[i]? =
        some (.method (.send nonce payload)))
    (hReturned : hasReturned i p = true) :
    ∃ trace, Belongs trace p ∧
      Returned S payload trace trace := by
  unfold hasReturned at hReturned
  rw [List.getElem?_map] at hCall
  cases hThread : p.calls[i]? with
  | none =>
      rw [hThread] at hReturned
      cases hReturned
  | some thread =>
      rw [hThread] at hCall hReturned
      simp only [Option.map_some, Option.some.injEq] at hCall
      have hMem := List.mem_of_getElem? hThread
      split at hReturned
      · cases hReturned
      · next thread' hSame =>
        cases hSame
        split at hReturned
        · next hCode =>
          have hExecutes :=
            Pool.executes_of_run hRun rfl hMem hCode
          rw [hCall] at hExecutes
          exact
            ⟨thread.trace, Or.inl ⟨thread, hMem, rfl⟩,
              List.infix_refl _, nonce, hExecutes⟩
        · cases hReturned

theorem connectedRun
    (ok : ClientPool → Label ClientCall ClientIoEvent → Prop)
    [∀ p l, Decidable (ok p l)]
    (w : WsClient)
    (ls : List (Label ClientCall ClientIoEvent))
    (hAllowed :
      StateMachine.Allowed
        (fun p l =>
          (p.allowed l = true ∧ opens l = false) ∧ ok p l)
        (Pool.exec (poolProgram S)) (pool w) ls) :
    StateMachine.Run
      (fun p l q => ConnectedStep S p l q ∧ ok p l)
      (pool w) ls
      (ls.foldl (Pool.exec (poolProgram S)) (pool w)) := by
  refine
    (StateMachine.run_of_allowed _ _ _ _ hAllowed).mono ?_
  rintro p l q ⟨⟨⟨hMay, hStays⟩, hOk⟩, hNext⟩
  exact ⟨⟨⟨hMay, hNext⟩, hStays⟩, hOk⟩

set_option maxRecDepth 8000 in
theorem client_sends_accepted_inTurns :
    ∃ packet,
      Accepted plainSodium answering
        (handedOver
          (inTurns.foldl (Pool.exec (poolProgram plainSodium))
            (pool established)).history)
        packet secondPayload := by
  rcases established_ready with
    ⟨keys, peerKeys, hReady, hPeer, hMatch⟩
  have hRun :=
    connectedRun (S := plainSodium)
      (InOrder answering.recvCounter) established inTurns
      (by decide)
  have hCall :
      ((inTurns.foldl (Pool.exec (poolProgram plainSodium))
          (pool established)).calls.map Thread.call)[1]? =
        some (.method (.send (smooth (sampleKx 1)).nonce
          secondPayload)) := rfl
  rcases returned_of_call 1 secondPayload
      (hRun.mono (fun _ _ _ hStep => hStep.1.1)) hCall
      (by decide) with
    ⟨trace, hBelongs, hReturned⟩
  rcases client_sends_accepted plainSodium_aeadCorrect hReady
      hPeer hMatch hRun hBelongs hReturned with
    ⟨packet, _, hAccepted⟩
  exact ⟨packet, hAccepted⟩

/- The overtaken send has returned, and its payload is lost. -/
set_option maxRecDepth 8000 in
theorem overtaken_lost :
    established.isReady = true ∧
      ∃ keys peerKeys p trace steps,
        established.session.Ready keys ∧
          answering.Ready peerKeys ∧
          peerKeys.rx = keys.tx ∧
          StateMachine.Run (ConnectedStep plainSodium)
            (pool established) overtaking p ∧
          Belongs trace p ∧
          Returned plainSodium firstPayload steps trace ∧
          ¬ ∃ packet ∈ handedOver steps,
              Accepted plainSodium answering
                (handedOver p.history) packet
                firstPayload := by
  refine ⟨by decide, ?_⟩
  rcases established_ready with
    ⟨keys, peerKeys, hReady, hPeer, hMatch⟩
  have hRun :=
    connectedRun (S := plainSodium) (fun _ _ => True)
      established overtaking (by decide)
  rcases returned_of_call 0 firstPayload
      (hRun.mono (fun _ _ _ hStep => hStep.1.1)) rfl
      (by decide) with
    ⟨trace, hBelongs, hReturned⟩
  refine
    ⟨keys, peerKeys, _, trace, trace, hReady, hPeer, hMatch,
      hRun.mono (fun _ _ _ hStep => hStep.1), hBelongs,
      hReturned, ?_⟩
  rintro ⟨packet, _, i, _, hResult⟩
  have hResults :
      (Session.decryptAll plainSodium
            (handedOver
              (overtaking.foldl
                (Pool.exec (poolProgram plainSodium))
                (pool established)).history)
            answering).1.map Except.toOption =
        [some secondPayload, none] := by
    decide
  have hHere := congrArg (fun results => results[i]?) hResults
  simp only [List.getElem?_map, hResult, Option.map_some,
    Except.toOption] at hHere
  match i with
  | 0 => exact absurd hHere (by decide)
  | 1 => exact absurd hHere (by decide)
  | _ + 2 => exact absurd hHere (by simp)

end ClientSends

end ObscuraProto
