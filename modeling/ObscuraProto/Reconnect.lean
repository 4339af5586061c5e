import Mathlib.Logic.Relation
import ObscuraProto.ClientSends
import ObscuraProto.FifoLink
import ObscuraProto.HonestHandshake
import ObscuraProto.StreamStartFailures

/-
  A further connection of the same client.

  The client has one session for all its connections, and
  nothing ever takes the completion of its handshake back.  A
  new connection has a channel of its own exactly when no
  earlier one has completed its handshake: otherwise calls do
  not wait for the new hello of the server, and that hello is
  read as a packet.

  Key definitions include:
    * `Reconnect.Exchanges`, `Reconnect.Verifies`
    * `Reconnect.Refuses`, `Reconnect.TakesHello`
    * `Reconnect.Answers`, `Reconnect.FreshChannel`
    * `Reconnect.Connection`

  Key theorems include:
    * `Reconnect.onOpen_ends`, `Reconnect.onMessage_receives`
    * `Reconnect.Connection.step_moved`
    * `Reconnect.delivers_of_verifies`
    * `Reconnect.fresh_channel_iff`
-/

namespace ObscuraProto

namespace Reconnect

open Effectful Threads WsClient
open ClientSends (opens ConnectedStep)
open StreamStartFailures (client_send_isOk)

variable {S : Sodium}

------------------------------------------------------------
-- How the Session Changes
------------------------------------------------------------

/- A payload is sealed or a packet is opened. -/
inductive Transfers
    (S : Sodium)
    (s : Session) : Session → Prop
| seals (nonce : Nonce) (payload : Payload) :
    Transfers S s (s.encryptPayload S nonce payload).2
| opens (packet : Bytes) :
    Transfers S s (s.decryptPacket S packet).2

/- Any number of these. -/
abbrev Exchanges (S : Sodium) : Session → Session → Prop :=
  Relation.ReflTransGen (Transfers S)

/- What a thread outside a handshake does to the session. -/
def Uses (S : Sodium) (s s' : Session) : Prop :=
  s' = s ∨ Transfers S s s'

/- What `on_open` does to it. -/
inductive Opening
    (S : Sodium)
    (s : Session) : Session → Prop
| uses {s' : Session} : Uses S s s' → Opening S s s'
| identifies (identityKp : KeyPair) :
    Opening S s (s.setClientIdentityKey identityKp).2
| initiates (kx : KxKeyPair) :
    Opening S s (s.clientInitiateHandshake S kx).2

/- What a message does to it, hellos included. -/
def Receives (S : Sodium) (s s' : Session) : Prop :=
  Uses S s s' ∨
    (s.handshakeComplete = false ∧
      ∃ hello, s' = (s.clientFinalizeHandshake S hello).2)

/- Only a completed handshake moves the counters. -/
structure Fresh (s : Session) : Prop where
  client : s.role = .client
  counters :
    s.handshakeComplete = false →
      s.sendCounter = 0 ∧ s.recvCounter = 0

/- Only data has been transferred in between. -/
structure SameHandshake (s s' : Session) : Prop where
  role : s'.role = s.role
  complete : s'.handshakeComplete = s.handshakeComplete
  ephemeral : s'.ephemeralKxKp = s.ephemeralKxKp

section

variable {s s' : Session}

theorem transfers_cases (hStep : Transfers S s s') :
    s' = s ∨
      (s.handshakeComplete = true ∧
        ((∃ counter,
            s' = { s with sendCounter := counter }) ∨
          ∃ counter,
            s' = { s with recvCounter := counter })) := by
  cases hStep with
  | seals nonce payload =>
      by_cases hComplete : s.handshakeComplete = true
      · rcases Session.exists_ready hComplete with
          ⟨keys, hReady⟩
        rw [Session.encryptPayload_ready S hReady]
        exact Or.inr ⟨hComplete, Or.inl ⟨_, rfl⟩⟩
      · rw [Session.encryptPayload_incomplete S hComplete]
        exact Or.inl rfl
  | opens packet =>
      rcases Session.decryptPacket_cases S s packet with
        ⟨e, hRejected⟩ | ⟨_, result, hReady, _, _, hAccepted⟩
      · rw [hRejected]
        exact Or.inl rfl
      · rw [hAccepted]
        exact
          Or.inr ⟨hReady.complete, Or.inr ⟨_, rfl⟩⟩

theorem SameHandshake.refl (s : Session) :
    SameHandshake s s :=
  ⟨rfl, rfl, rfl⟩

theorem SameHandshake.trans
    {s'' : Session}
    (hFirst : SameHandshake s s')
    (hSecond : SameHandshake s' s'') :
    SameHandshake s s'' where
  role := hSecond.role.trans hFirst.role
  complete := hSecond.complete.trans hFirst.complete
  ephemeral := hSecond.ephemeral.trans hFirst.ephemeral

theorem Uses.same (hStep : Uses S s s') :
    SameHandshake s s' := by
  rcases hStep with hSame | hStep
  · rw [hSame]
    exact .refl s
  · rcases transfers_cases hStep with
      hSame | ⟨_, ⟨_, hNext⟩ | ⟨_, hNext⟩⟩
    · rw [hSame]
      exact .refl s
    · rw [hNext]
      exact ⟨rfl, rfl, rfl⟩
    · rw [hNext]
      exact ⟨rfl, rfl, rfl⟩

theorem Opening.complete
    (hRole : s.role = .client)
    (hStep : Opening S s s') :
    s'.handshakeComplete = s.handshakeComplete := by
  cases hStep with
  | uses hUses => exact hUses.same.complete
  | identifies identityKp =>
      simp [Session.setClientIdentityKey, hRole]
  | initiates =>
      rw [Session.clientInitiateHandshake_state S _ hRole]

theorem Uses.fresh
    (hStep : Uses S s s')
    (hFresh : Fresh s) :
    Fresh s' := by
  rcases hStep with hSame | hStep
  · rw [hSame]
    exact hFresh
  · rcases transfers_cases hStep with
      hSame | ⟨hComplete, ⟨_, hNext⟩ | ⟨_, hNext⟩⟩
    · rw [hSame]
      exact hFresh
    · rw [hNext]
      refine ⟨hFresh.client, fun hNot => ?_⟩
      rw [hComplete] at hNot
      cases hNot
    · rw [hNext]
      refine ⟨hFresh.client, fun hNot => ?_⟩
      rw [hComplete] at hNot
      cases hNot

theorem Opening.fresh
    (hStep : Opening S s s')
    (hFresh : Fresh s) :
    Fresh s' := by
  have hRole := hFresh.client
  cases hStep with
  | uses hUses => exact hUses.fresh hFresh
  | identifies identityKp =>
      simp only [Session.setClientIdentityKey, hRole, ne_eq,
        not_true, if_false]
      exact ⟨rfl, hFresh.counters⟩
  | initiates =>
      rw [Session.clientInitiateHandshake_state S _ hRole]
      exact ⟨hRole, hFresh.counters⟩

/- A completion moves no counter. -/
theorem finalize_fresh
    (hello : ServerHello)
    (hFresh : Fresh s) :
    Fresh (s.clientFinalizeHandshake S hello).2 := by
  have hRole := hFresh.client
  simp only [Session.clientFinalizeHandshake, hRole, ne_eq,
    not_true, if_false]
  split
  · exact hFresh
  · split
    · exact hFresh
    · split
      · exact ⟨rfl, hFresh.counters⟩
      · split
        · exact ⟨rfl, hFresh.counters⟩
        · refine ⟨rfl, fun hNot => ?_⟩
          cases hNot

end

------------------------------------------------------------
-- What Each Thread Does
------------------------------------------------------------

/- A relation of sessions, for the steps of the client. -/
abbrev OnSession
    (R : Session → Session → Prop)
    (w : WsClient)
    (_ : List ClientEffect)
    (w' : WsClient) : Prop :=
  R w.session w'.session

/- What threads may rely on while others use the session. -/
abbrev Leaves (w w' : WsClient) : Prop :=
  SameHandshake w.session w'.session

/- Every move, by what it may do to the session. -/
theorem move_session
    {may : ClientMay}
    {w w' : WsClient}
    {effects : List ClientEffect}
    (hMove : ClientMove S may w effects w') :
    Uses S w.session w'.session ∨
      (may.handshakes ∧
        Opening S w.session w'.session) ∨
        (may.finalizes ∧
          ∃ hello,
            w'.session =
              (w.session.clientFinalizeHandshake S
                hello).2) := by
  cases hMove with
  | encrypts nonce payload =>
      exact Or.inl (Or.inr (.seals nonce payload))
  | decrypts packet => exact Or.inl (Or.inr (.opens packet))
  | registers registration callback =>
      cases registration <;> exact Or.inl (Or.inl rfl)
  | identifies identityKp hMay =>
      exact Or.inr (Or.inl ⟨hMay, .identifies identityKp⟩)
  | initiates kx hMay =>
      exact Or.inr (Or.inl ⟨hMay, .initiates kx⟩)
  | finalizes serverHello hMay =>
      exact Or.inr (Or.inr ⟨hMay, serverHello, rfl⟩)
  | reads | invokes | handsOver | requests | takesRequestId
  | ensuresWatchdog | takesStreamId | registersStream
  | dropsStream | connects | startsThread | setsIdentity
  | stopsIo | closes | opens | ends | releases | greets =>
      exact Or.inl (Or.inl rfl)

/- Moves outside a handshake only use the session. -/
theorem uses_of_moves
    {α : Type}
    {may : ClientMay}
    {act : ClientAction α}
    (hAct : Moves S may act)
    (hHandshakes : ¬ may.handshakes)
    (hFinalizes : ¬ may.finalizes) :
    Ensures (OnSession (Uses S)) act := by
  refine hAct.mono ?_
  intro w effects w' hMove
  rcases move_session hMove with
    hUses | ⟨hMay, _⟩ | ⟨hMay, _⟩
  · exact hUses
  · exact absurd hMay hHandshakes
  · exact absurd hMay hFinalizes

theorem call_uses (k : ClientCall) :
    Ensures (OnSession (Uses S)) (callCode S k) := by
  refine uses_of_moves (callCode_moves S k) ?_ ?_
  · cases k <;> exact id
  · cases k <;> exact id

/- Everything but the handshake. -/
def besides : ClientMay where
  encrypts := True
  decrypts := True
  ends := True
  usesStreams := True
  requests := fun _ => True
  invokes := fun _ => True

theorem uses_of_besides
    {α : Type}
    {act : ClientAction α}
    (hAct : Moves S besides act) :
    Ensures (OnSession (Uses S)) act :=
  uses_of_moves hAct id id

theorem onOpen_opening
    (input : ClientInput)
    (hdl : Hdl) :
    Ensures (OnSession (Opening S))
      (onOpen S input hdl) := by
  refine Ensures.bind (Ensures.modify ?_) (fun _ => ?_)
  · exact fun _ => .uses (Or.inl rfl)
  · refine Ensures.catchAll ?_ (fun _ => ?_)
    · refine Ensures.bind (Ensures.atomic ?_) (fun _ => ?_)
      · intro w
        simp only
        split
        · exact .uses (Or.inl rfl)
        · next identityKp _ => exact .identifies identityKp
      · refine Ensures.bind (Ensures.atomic ?_) (fun _ => ?_)
        · exact fun _ => .initiates input.kx
        · refine
            Ensures.bind (Ensures.emit ?_)
              (fun _ => Ensures.ofExcept _)
          exact fun _ => .uses (Or.inl rfl)
    · have hUses :
          Ensures (OnSession (Uses S)) (disconnect true) :=
        uses_of_besides
          (disconnect_moves S trivial trivial true)
      exact hUses.mono (fun _ _ _ hUses => .uses hUses)

theorem receives_of_besides
    {α : Type}
    {act : ClientAction α}
    (hAct : Moves S besides act) :
    Ensures (OnSession (Receives S)) act :=
  (uses_of_besides hAct).mono (fun _ _ _ => Or.inl)

/- The branch of the handshake is only taken before it. -/
theorem onMessage_receives
    (input : ClientInput)
    (frame : Frame)
    (w : WsClient) :
    Guarantees Leaves (OnSession (Receives S))
      (onMessage S input frame) w := by
  unfold onMessage
  split
  · exact .done _ w
  · refine Guarantees.catchAll ?_ (fun _ => ?_)
    · refine .atomic_bind (Or.inl (Or.inl rfl)) ?_
      intro w' hRead w'' hSame
      cases hRead
      split
      · next hIncomplete =>
        refine .ofExcept_bind (fun serverHello _ => ?_)
        refine .atomic_bind ?_ ?_
        · refine Or.inr ⟨?_, serverHello, rfl⟩
          rw [hSame.complete]
          simpa [Session.isHandshakeComplete]
            using hIncomplete
        · intro _ _ _ _
          apply Guarantees.of_ensures
          apply receives_of_besides
          refine Ensures.bind (get_moves S) (fun _ => ?_)
          split
          · exact
              invokeHandler_moves S (fun _ => trivial) _ _
          · exact Ensures.pure ()
      · apply Guarantees.of_ensures
        apply receives_of_besides
        refine
          Ensures.bind (decrypt_moves S trivial _)
            (fun payload => ?_)
        refine Ensures.bind (get_moves S) (fun _ => ?_)
        split
        · exact disconnect_moves S trivial trivial true
        · exact
            dispatch_moves S trivial (fun _ _ => trivial)
              trivial (fun _ _ => trivial) input payload
    · exact
        receives_of_besides
          (disconnect_moves S trivial trivial true)

/- An event of the io thread on a connection that is open. -/
theorem event_receives
    (event : ClientIoEvent)
    (hEvent : opens (.event event) = false)
    (w : WsClient) :
    Guarantees Leaves (OnSession (Receives S))
      (handle S event.val) w := by
  rcases event with ⟨event, hIo⟩
  cases event with
  | opened input hdl => cases hEvent
  | message input frame =>
      exact onMessage_receives input frame w
  | closed input | failed input =>
      apply Guarantees.of_ensures
      apply receives_of_besides
      exact onEnd_moves S trivial (fun _ => trivial) input
  | watchdogPass now => cases hIo
  | call method => cases hIo

/- The session has the ephemeral key of this opening. -/
def Holds (kx : KxKeyPair) (w : WsClient) : Prop :=
  w.session.ephemeralKxKp = some kx.keyPair

theorem Holds.leaves
    {kx : KxKeyPair}
    {w w' : WsClient}
    (hLeaves : Leaves w w')
    (hHolds : Holds kx w) :
    Holds kx w' :=
  hLeaves.ephemeral.trans hHolds

/- Code that only uses the session ends with the same key. -/
theorem ends_of_uses
    {α : Type}
    {kx : KxKeyPair}
    {act : ClientAction α}
    (hAct : Ensures (OnSession (Uses S)) act)
    {w : WsClient}
    (hHolds : Holds kx w) :
    Ends Leaves (Holds kx) act w := by
  refine Ends.of_ensures ?_ ?_ hAct hHolds
  · exact fun _ _ hLeaves => Holds.leaves hLeaves
  · exact fun _ _ _ hUses => Holds.leaves hUses.same

/- Whatever is thrown, the key has been drawn in the end. -/
theorem onOpen_ends
    (input : ClientInput)
    (hdl : Hdl)
    {w : WsClient}
    (hRole : w.session.role = .client) :
    Ends Leaves (Holds input.kx) (onOpen S input hdl) w := by
  have hDisconnect :
      Ensures (OnSession (Uses S)) (disconnect true) :=
    uses_of_besides (disconnect_moves S trivial trivial true)
  have hSend (hello : ClientHello) :
      Ensures (OnSession (Uses S))
        (Action.catchAll
          (Action.emit
              (.transmit (some hdl) hello.serialize) >>=
            fun _ => Action.ofExcept input.transmit)
          (fun _ => disconnect true)) := by
    refine Ensures.catchAll ?_ (fun _ => hDisconnect)
    refine
      Ensures.bind (Ensures.emit ?_)
        (fun _ => Ensures.ofExcept _)
    exact fun _ => Or.inl rfl
  have hLater {w : WsClient} (hHolds : Holds input.kx w) :
      Ends Leaves (Holds input.kx) (disconnect true) w :=
    ends_of_uses hDisconnect hHolds
  -- The connection is marked as open.
  refine .step (fun w₁ hFirst => ?_)
  have hRole₁ : w₁.session.role = .client :=
    hFirst.role.trans hRole
  refine Ends.catch_atomic_bind ?_ ?_
  · intro _ _ w₂ hSecond
    have hRole₂ : w₂.session.role = .client := by
      refine hSecond.role.trans ?_
      split
      · exact hRole₁
      · simp [Session.setClientIdentityKey, hRole₁]
    refine Ends.catch_atomic_bind ?_ ?_
    · intro hello _ w₃ hThird
      refine ends_of_uses (hSend hello) ?_
      refine Holds.leaves hThird ?_
      simp only [Holds,
        Session.clientInitiateHandshake_state S _ hRole₂]
    · intro _ _ w₃ hThird
      refine hLater (Holds.leaves hThird ?_)
      simp only [Holds,
        Session.clientInitiateHandshake_state S _ hRole₂]
  · -- Only a server refuses an identity.
    intro e hError
    split at hError
    · cases hError
    · simp [Session.setClientIdentityKey, hRole₁] at hError

------------------------------------------------------------
-- A Channel of Its Own
------------------------------------------------------------

/- The step accepts the reply and completes the handshake. -/
def Verifies
    (S : Sodium)
    (reply : ServerHello)
    (m : Transition WsClient ClientEffect) : Prop :=
  m.before.session.handshakeComplete = false ∧
    m.before.session.clientFinalizeHandshake S reply =
      (.ok (), m.after.session)

def Unverified (S : Sodium) (steps : Trace) : Prop :=
  ∀ m ∈ steps, ∀ reply, ¬ Verifies S reply m

/- Both methods throw and do nothing else. -/
def Refuses (S : Sodium) (w : WsClient) : Prop :=
  (∀ nonce payload,
      ∃ e, (send S nonce payload).run w = ⟨.error e, [], w⟩) ∧
    ∀ nonce promise clock payload timeoutMs,
      ∃ e,
        (asyncRequest S nonce promise clock payload
            timeoutMs).run w = ⟨.error e, [], w⟩

/- The next message is taken for the hello of the server. -/
def TakesHello (S : Sodium) (w : WsClient) : Prop :=
  ∀ input frame reply,
    frame.binary = true →
      ServerHello.deserialize frame.payload = .ok reply →
        ((handle S (.message input frame)).run w).state.session =
          (w.session.clientFinalizeHandshake S reply).2

/-
  The reply and the session of a new server session, for a
  hello with this ephemeral key pair.  The exchange of the two
  pairs gives both sides the same keys.
-/
def Answers
    (S : Sodium)
    (kx : KxKeyPair)
    (reply : ServerHello)
    (server : Session) : Prop :=
  ∃ (s : Session) (hello : ClientHello) (identity : KeyPair)
      (versions : List Version) (serverKx : KxKeyPair),
    S.Crossed kx serverKx ∧
      (s.clientInitiateHandshake S kx).1 = .ok hello ∧
        (Session.new .server identity
            versions).serverRespondToHandshake S serverKx
            hello =
          (.ok reply, server)

/- The events at both ends of a connection. -/
def opening
    (input : ClientInput)
    (hdl : Hdl) : ClientIoEvent :=
  ⟨.opened input hdl, rfl⟩

def closing (input : ClientInput) : ClientIoEvent :=
  ⟨.closed input, rfl⟩

/-
  From `on_open` on: until a hello is verified, nothing can
  be sent and every message is read as that hello.  Then the
  session is only used, and with an honest server either
  side accepts in order all that the other one seals.
-/
structure FreshChannel
    (S : Sodium)
    (input : ClientInput)
    (hdl : Hdl)
    (p : ClientPool) : Prop where
  waits :
    ∀ labels q steps,
      StateMachine.Run (ConnectedStep S)
          (p.exec (poolProgram S)
            (.event (opening input hdl)))
          labels q →
        q.history = p.history ++ steps →
          Unverified S steps →
            Refuses S q.shared ∧ TakesHello S q.shared
  connects :
    ∀ labels q before m after reply,
      StateMachine.Run (ConnectedStep S)
          (p.exec (poolProgram S)
            (.event (opening input hdl)))
          labels q →
        q.history = p.history ++ before ++ m :: after →
          Verifies S reply m →
            Exchanges S m.after.session q.shared.session ∧
              ∀ server, Answers S input.kx reply server →
                FifoLink.Delivers S m.after.session server

------------------------------------------------------------
-- Waiting for the Hello
------------------------------------------------------------

theorem refuses_of_incomplete
    {w : WsClient}
    (hIncomplete : w.session.handshakeComplete = false) :
    Refuses S w := by
  have hReady : w.isReady = false := by
    simp [isReady, Session.isHandshakeComplete, hIncomplete]
  constructor
  · intro nonce payload
    refine
      ⟨.logicError "Session not ready for sending data.", ?_⟩
    unfold send checkSend
    rw [Action.run_get_bind]
    simp only [hReady, Bool.not_false, if_true]
    rfl
  · intro nonce promise clock payload timeoutMs
    refine
      ⟨.logicError "Session not ready for sending requests.",
        ?_⟩
    unfold asyncRequest
    rw [Action.run_get_bind]
    simp only [hReady, Bool.not_false, if_true]
    rfl

/- Nothing but the session decides whether a send throws. -/
theorem not_refuses_of_complete
    {w : WsClient}
    (hConnected : w.isConnected = true)
    (hComplete : w.session.handshakeComplete = true) :
    ¬ Refuses S w := by
  intro hRefuses
  rcases hRefuses.1 .zero { opCode := 0, parameters := [] }
    with ⟨e, hThrows⟩
  have hOk :
      ((send S .zero { opCode := 0, parameters := [] }).run
          w).result.isOk = true := by
    rw [client_send_isOk]
    simp [isReady, Session.isHandshakeComplete, hConnected,
      hComplete, Config.payloadTooLarge]
  rw [hThrows] at hOk
  cases hOk

/- Without these permissions the session stays as it is. -/
theorem keeps_of_moves
    {α : Type}
    {may : ClientMay}
    {act : ClientAction α}
    (hAct : Moves S may act)
    (hEncrypts : ¬ may.encrypts)
    (hDecrypts : ¬ may.decrypts)
    (hHandshakes : ¬ may.handshakes)
    (hFinalizes : ¬ may.finalizes)
    (w : WsClient) :
    (act.run w).state.session = w.session := by
  let K (w : WsClient) (_ : List ClientEffect)
      (w' : WsClient) : Prop :=
    w'.session = w.session
  have hComposes : Composes K :=
    { refl := fun _ => rfl
      trans := fun hFirst hSecond => hSecond.trans hFirst }
  have hKeeps : Ensures K act := by
    refine hAct.mono ?_
    intro w effects w' hMove
    cases hMove with
    | encrypts nonce payload hMay => exact absurd hMay hEncrypts
    | decrypts packet hMay => exact absurd hMay hDecrypts
    | identifies identityKp hMay =>
        exact absurd hMay hHandshakes
    | initiates kx hMay => exact absurd hMay hHandshakes
    | finalizes serverHello hMay =>
        exact absurd hMay hFinalizes
    | registers registration callback =>
        cases registration <;> rfl
    | reads | invokes | handsOver | requests | takesRequestId
    | ensuresWatchdog | takesStreamId | registersStream
    | dropsStream | connects | startsThread | setsIdentity
    | stopsIo | closes | opens | ends | releases | greets =>
        rfl
  exact hKeeps.run hComposes w

theorem takesHello_of_incomplete
    {w : WsClient}
    (hIncomplete : w.session.handshakeComplete = false) :
    TakesHello S w := by
  intro input frame reply hBinary hReply
  let may : ClientMay :=
    { ends := True
      requests := fun _ => True
      invokes := fun _ => True }
  have hDisconnect (w : WsClient) :
      ((disconnect true).run w).state.session = w.session := by
    have hMoves : Moves S may (disconnect true) :=
      disconnect_moves S trivial trivial true
    exact keeps_of_moves hMoves id id id id w
  have hReady (w : WsClient) :
      ((do
          let w ← Action.get
          if w.session.isHandshakeComplete then
            invokeHandler w.onReadyCallback .ready
              input.callbackAnswer
          else
            return () : ClientAction Unit).run
          w).state.session = w.session := by
    refine
      keeps_of_moves (?_ : Moves S may _) id id id id w
    refine Ensures.bind (get_moves S) (fun _ => ?_)
    split
    · exact invokeHandler_moves S (fun _ => trivial) _ _
    · exact Ensures.pure ()
  have hProcess :
      ((processMessage S input frame.payload).run
          w).state.session =
        (w.session.clientFinalizeHandshake S reply).2 := by
    unfold processMessage finishHandshake
    rw [Action.run_get_bind]
    simp only [Session.isHandshakeComplete, hIncomplete,
      Bool.not_false, if_true, hReply,
      Action.run_ofExcept_ok_bind]
    rw [Action.run_bind, finalizeHandshake, Action.run_atomic]
    simp only
    cases (w.session.clientFinalizeHandshake S reply).1 with
    | error e => rfl
    | ok _ => exact hReady _
  unfold handle onMessage
  simp only [hBinary, Bool.not_true, Bool.false_eq_true,
    if_false]
  rw [Action.run_catchAll]
  cases ((processMessage S input frame.payload).run w).result with
  | ok _ => exact hProcess
  | error e => exact (hDisconnect _).trans hProcess

------------------------------------------------------------
-- The Hello Is Verified
------------------------------------------------------------

theorem Verifies.complete
    {reply : ServerHello}
    {m : Transition WsClient ClientEffect}
    (hVerifies : Verifies S reply m) :
    m.after.session.handshakeComplete = true := by
  rcases Session.clientFinalizeHandshake_ok S hVerifies.2 with
    ⟨_, kp, keys, _, _, _, _, hAfter⟩
  rw [hAfter]
  rfl

/- Only the completion of a handshake verifies a hello. -/
theorem not_verifies
    {w w' : WsClient}
    {effects : List ClientEffect}
    (hSame :
      w'.session.handshakeComplete =
        w.session.handshakeComplete)
    (reply : ServerHello) :
    ¬ Verifies S reply ⟨w, effects, w'⟩ := by
  intro hVerifies
  have hAfter := hVerifies.complete
  simp only at hAfter
  rw [hSame, hVerifies.1] at hAfter
  cases hAfter

/- Both counters of a new channel start at zero. -/
theorem delivers_of_verifies
    (hCorrect : S.AeadCorrect)
    {kx : KxKeyPair}
    {reply : ServerHello}
    {m : Transition WsClient ClientEffect}
    (hVerifies : Verifies S reply m)
    (hFresh : Fresh m.before.session)
    (hHolds : Holds kx m.before)
    {server : Session}
    (hAnswers : Answers S kx reply server) :
    FifoLink.Delivers S m.after.session server := by
  rcases hAnswers with
    ⟨s, hello, identity, versions, serverKx, hCrossed, hHello,
      hReply⟩
  rcases Session.clientFinalizeHandshake_ok S hVerifies.2 with
    ⟨_, kp, clientKeys, hKp, _, _, hClientKeys, hClient⟩
  rcases Session.serverRespondToHandshake_ok S hReply with
    ⟨_, version, serverKeys, _, _, _, hServerKeys, _, hPk,
      hServer⟩
  have hHelloPk :
      hello.ephemeralPk = kx.keyPair.publicKey :=
    (Session.clientInitiateHandshake_ok S
      (Prod.ext hHello rfl)).1
  have hSameKp : kp = kx.keyPair :=
    Option.some.inj (hKp.symm.trans hHolds)
  rcases hCrossed with
    ⟨clientKeys', serverKeys', hClientSide, hServerSide, hUp,
      hDown⟩
  rw [hSameKp, hPk,
    Crypto.clientComputeSessionKeys_eq serverKx.public_size
      hClientSide] at hClientKeys
  rw [hHelloPk,
    Crypto.serverComputeSessionKeys_eq kx.public_size
      hServerSide] at hServerKeys
  cases hClientKeys
  cases hServerKeys
  have hZero := hFresh.counters hVerifies.1
  refine
    FifoLink.delivers hCorrect ?_ ?_ hUp hDown ?_ ?_
  · rw [hClient]
    exact Session.ready_established _ _ _ _ _
  · rw [hServer]
    exact Session.ready_established _ _ _ _ _
  · rw [hClient]
    exact hZero
  · rw [hServer]
    exact ⟨rfl, rfl⟩

------------------------------------------------------------
-- One Step of a Connection
------------------------------------------------------------

/- The io thread is in `on_open`. -/
def Greeting (p : ClientPool) : Prop :=
  ∃ thread, p.events = some thread ∧
    opens (.event thread.call) = true

/-
  The session is used by any thread, prepared by `on_open` or
  completed by a message after it.
-/
inductive Moved
    (S : Sodium)
    (kx : KxKeyPair)
    (p : ClientPool)
    (w : WsClient) : Prop
| uses : Uses S p.shared.session w.session → Moved S kx p w
| prepares :
    Greeting p →
      Opening S p.shared.session w.session →
        Moved S kx p w
| completes (hello : ServerHello) :
    ¬ Greeting p →
      Holds kx p.shared →
        p.shared.session.handshakeComplete = false →
          w.session =
              (p.shared.session.clientFinalizeHandshake S
                hello).2 →
            Moved S kx p w

theorem finalize_cases
    (hello : ServerHello)
    (s : Session) :
    (s.clientFinalizeHandshake S hello).1 = .ok () ∨
      (s.clientFinalizeHandshake S hello).2.handshakeComplete =
        s.handshakeComplete := by
  simp only [Session.clientFinalizeHandshake]
  split
  · exact Or.inr rfl
  · split
    · exact Or.inr rfl
    · split
      · exact Or.inr rfl
      · split
        · exact Or.inr rfl
        · split
          · exact Or.inr rfl
          · exact Or.inl rfl

namespace Moved

variable {kx : KxKeyPair}
variable {p : ClientPool}
variable {w : WsClient}

theorem fresh
    (hMoved : Moved S kx p w)
    (hFresh : Fresh p.shared.session) :
    Fresh w.session := by
  cases hMoved with
  | uses hUses => exact hUses.fresh hFresh
  | prepares _ hOpening => exact hOpening.fresh hFresh
  | completes hello _ _ _ hSession =>
      rw [hSession]
      exact finalize_fresh hello hFresh

theorem holds
    (hMoved : Moved S kx p w)
    (hGreeting : ¬ Greeting p)
    (hHolds : Holds kx p.shared) :
    Holds kx w := by
  cases hMoved with
  | uses hUses => exact Holds.leaves hUses.same hHolds
  | prepares hNow _ => exact absurd hNow hGreeting
  | completes hello _ _ _ hSession =>
      have hConfig :=
        Session.clientFinalizeHandshake_config S hello
          p.shared.session
      rw [Holds, hSession, hConfig.2.2.2]
      exact hHolds

/- A verified hello was met with the key of the opening. -/
theorem verifies
    (hMoved : Moved S kx p w)
    (hFresh : Fresh p.shared.session)
    {effects : List ClientEffect}
    {reply : ServerHello}
    (hVerifies : Verifies S reply ⟨p.shared, effects, w⟩) :
    ¬ Greeting p ∧ Holds kx p.shared := by
  cases hMoved with
  | uses hUses =>
      exact
        absurd hVerifies
          (not_verifies hUses.same.complete reply)
  | prepares _ hOpening =>
      exact
        absurd hVerifies
          (not_verifies (hOpening.complete hFresh.client)
            reply)
  | completes _ hLater hHolds => exact ⟨hLater, hHolds⟩

theorem incomplete
    (hMoved : Moved S kx p w)
    (hFresh : Fresh p.shared.session)
    (hIncomplete : p.shared.session.handshakeComplete = false)
    {effects : List ClientEffect}
    (hNot :
      ∀ reply, ¬ Verifies S reply ⟨p.shared, effects, w⟩) :
    w.session.handshakeComplete = false := by
  cases hMoved with
  | uses hUses => exact hUses.same.complete.trans hIncomplete
  | prepares _ hOpening =>
      exact
        (hOpening.complete hFresh.client).trans hIncomplete
  | completes hello _ _ _ hSession =>
      rcases finalize_cases (S := S) hello p.shared.session
        with hOk | hSame
      · refine absurd ?_ (hNot hello)
        exact ⟨hIncomplete, Prod.ext hOk hSession.symm⟩
      · rw [hSession, hSame]
        exact hIncomplete

/- A complete session is only used, outside of `on_open`. -/
theorem used
    (hMoved : Moved S kx p w)
    (hGreeting : ¬ Greeting p)
    (hComplete : p.shared.session.handshakeComplete = true) :
    Uses S p.shared.session w.session := by
  cases hMoved with
  | uses hUses => exact hUses
  | prepares hNow _ => exact absurd hNow hGreeting
  | completes _ _ _ hIncomplete =>
      rw [hComplete] at hIncomplete
      cases hIncomplete

end Moved

------------------------------------------------------------
-- A Connection
------------------------------------------------------------

/- What holds after the steps since `on_open`. -/
structure Connection
    (S : Sodium)
    (kx : KxKeyPair)
    (steps : Trace)
    (p : ClientPool) : Prop where
  fresh : Fresh p.shared.session
  calls :
    ∀ thread ∈ p.calls,
      Ensures (OnSession (Uses S)) thread.code
  running : ∃ thread, p.events = some thread
  greets : Greeting p → Unverified S steps
  prepares :
    ∀ thread, p.events = some thread →
      opens (.event thread.call) = true →
        Ensures (OnSession (Opening S))
          thread.code
  ends :
    ∀ thread, p.events = some thread →
      opens (.event thread.call) = true →
        ∀ w, Leaves p.shared w →
          Ends Leaves (Holds kx) thread.code w
  holds : ¬ Greeting p → Holds kx p.shared
  receives :
    ∀ thread, p.events = some thread →
      opens (.event thread.call) = false →
        ∀ w, Leaves p.shared w →
          Guarantees Leaves (OnSession (Receives S))
            thread.code w
  waits :
    Unverified S steps →
      p.shared.session.handshakeComplete = false
  connects :
    ∀ before m after reply,
      steps = before ++ m :: after →
        Verifies S reply m →
          Fresh m.before.session ∧ Holds kx m.before ∧
            Exchanges S m.after.session p.shared.session

namespace Connection

variable {kx : KxKeyPair}
variable {steps : Trace}
variable {p q : ClientPool}
variable {l : Label ClientCall ClientIoEvent}

theorem not_greeting
    {thread : Thread Exception ClientEffect WsClient ClientIoEvent}
    (hThread : p.events = some thread)
    (hOpens : opens (.event thread.call) = false) :
    ¬ Greeting p := by
  rintro ⟨thread', hThread', hOpens'⟩
  rw [hThread] at hThread'
  cases hThread'
  rw [hOpens] at hOpens'
  cases hOpens'

/- The next step, if it is one of a thread that still runs. -/
theorem moved
    (hConnection : Connection S kx steps p)
    (hStep : PoolStep S p l q) :
    (q.shared = p.shared ∧ q.history = p.history) ∨
      ∃ effects,
        Moved S kx p q.shared ∧
          q.history =
            p.history ++ [⟨p.shared, effects, q.shared⟩] := by
  have hNext :=
    Pool.shared_step
      (P := fun _ _ w => Moved S kx p w) ?_ ?_ hStep
  · rcases hNext with hSame | ⟨effects, hMoved, hHistory⟩
    · exact Or.inl hSame
    · exact Or.inr ⟨effects, hMoved, hHistory⟩
  · intro thread hThread effects next rest hCode
    have hUses := hConnection.calls thread hThread
    rw [hCode] at hUses
    cases hUses with
    | step hNow _ => exact .uses (hNow p.shared)
  · intro thread hThread effects next rest hCode
    cases hOpens : opens (.event thread.call) with
    | true =>
        have hOpening :=
          hConnection.prepares thread hThread hOpens
        rw [hCode] at hOpening
        cases hOpening with
        | step hNow _ =>
            exact
              .prepares ⟨thread, hThread, hOpens⟩
                (hNow p.shared)
    | false =>
        have hReceives :=
          hConnection.receives thread hThread hOpens p.shared
            (.refl _)
        have hGreeting := not_greeting hThread hOpens
        rw [hCode] at hReceives
        cases hReceives with
        | step hNow _ =>
            rcases hNow with
              hUses | ⟨hIncomplete, hello, hSession⟩
            · exact .uses hUses
            · exact
                .completes hello hGreeting
                  (hConnection.holds hGreeting) hIncomplete
                  hSession

/- The event that is running was running, or has begun. -/
theorem greeting_before
    (hStep : ConnectedStep S p l q)
    (hGreeting : Greeting q) :
    Greeting p := by
  rcases hGreeting with ⟨thread, hThread, hOpens⟩
  rcases Pool.event_of_step hStep.1 thread hThread with
    hLabel | ⟨thread', hThread', hCall⟩
  · rw [← hLabel, hStep.2] at hOpens
    cases hOpens
  · refine ⟨thread', hThread', ?_⟩
    rw [hCall]
    exact hOpens

/- When `on_open` has ended, the key has been drawn. -/
theorem holds_of_idle
    (hConnection : Connection S kx steps p)
    (hIdle : p.isIdle = true) :
    Holds kx p.shared := by
  rcases hConnection.running with ⟨thread, hThread⟩
  cases hOpens : opens (.event thread.call) with
  | false =>
      exact hConnection.holds (not_greeting hThread hOpens)
  | true =>
      have hEnds :=
        hConnection.ends thread hThread hOpens p.shared
          (.refl _)
      simp only [Pool.isIdle, hThread, Thread.isDone] at hIdle
      split at hIdle
      · next result hCode =>
          rw [hCode] at hEnds
          cases hEnds with
          | done _ hHolds => exact hHolds
      · cases hIdle

theorem running_step
    (hConnection : Connection S kx steps p)
    (hStep : PoolStep S p l q) :
    ∃ thread, q.events = some thread := by
  rcases hConnection.running with ⟨thread, hThread⟩
  rcases hStep with ⟨_, hNext⟩
  rw [hNext]
  cases l with
  | call k => exact ⟨thread, hThread⟩
  | event h => exact ⟨_, rfl⟩
  | stepCall i =>
      refine ⟨thread, ?_⟩
      exact (Pool.stepCall_events _ i p).trans hThread
  | stepEvent =>
      simp only [Pool.exec, Pool.stepEvent, hThread]
      exact ⟨_, rfl⟩

theorem holds_step
    (hConnection : Connection S kx steps p)
    (hStep : ConnectedStep S p l q)
    (hGreeting : ¬ Greeting q) :
    Holds kx q.shared := by
  rcases hConnection.running_step hStep.1 with
    ⟨thread, hThread⟩
  rcases Pool.event_of_step hStep.1 thread hThread with
    hLabel | ⟨thread', hThread', hCall⟩
  · have hStep' := hStep.1
    rw [hLabel] at hStep'
    rcases hStep' with ⟨hIdle, hNext⟩
    rw [hNext]
    exact hConnection.holds_of_idle hIdle
  · have hBefore : ¬ Greeting p := by
      rintro ⟨thread'', hSame, hOpens⟩
      rw [hThread'] at hSame
      cases hSame
      rw [hCall] at hOpens
      exact hGreeting ⟨thread, hThread, hOpens⟩
    have hHolds := hConnection.holds hBefore
    rcases hConnection.moved hStep.1 with
      ⟨hShared, _⟩ | ⟨effects, hMoved, _⟩
    · rw [hShared]
      exact hHolds
    · exact hMoved.holds hBefore hHolds

theorem calls_step
    (hConnection : Connection S kx steps p)
    (hStep : PoolStep S p l q) :
    ∀ thread ∈ q.calls,
      Ensures (OnSession (Uses S)) thread.code := by
  refine
    Pool.forall_calls_step (fun k _ => call_uses k) ?_
      hConnection.calls hStep
  intro thread effects next rest hCode hUses
  rw [hCode] at hUses
  cases hUses with
  | step _ hRest => exact hRest p.shared

theorem prepares_step
    (hConnection : Connection S kx steps p)
    (hStep : ConnectedStep S p l q) :
    ∀ thread, q.events = some thread →
      opens (.event thread.call) = true →
        Ensures (OnSession (Opening S))
          thread.code := by
  refine
    Pool.forall_event_step ?_ ?_ hConnection.prepares hStep.1
  · intro h hLabel hOpens
    rw [hLabel] at hStep
    rw [hStep.2] at hOpens
    cases hOpens
  · intro thread effects next rest hCode hOpening hOpens
    have hNow := hOpening hOpens
    rw [hCode] at hNow
    cases hNow with
    | step _ hRest => exact hRest p.shared

theorem ends_step
    (hConnection : Connection S kx steps p)
    (hStep : ConnectedStep S p l q) :
    ∀ thread, q.events = some thread →
      opens (.event thread.call) = true →
        ∀ w, Leaves q.shared w →
          Ends Leaves (Holds kx) thread.code w := by
  refine
    Pool.interfered_step
      (E := fun h => opens (.event h) = true)
      (fun _ => .refl _) (fun _ _ _ => .trans)
      (fun _ _ _ hUses => hUses.same) ?_ ?_ hConnection.calls
      hConnection.ends hStep.1
  · intro effects next rest w hHere w' hOthers
    cases hHere with
    | step hRest => exact hRest w' hOthers
  · intro h hLabel hOpens
    rw [hLabel] at hStep
    rw [hStep.2] at hOpens
    cases hOpens

theorem receives_step
    (hConnection : Connection S kx steps p)
    (hStep : PoolStep S p l q) :
    ∀ thread, q.events = some thread →
      opens (.event thread.call) = false →
        ∀ w, Leaves q.shared w →
          Guarantees Leaves (OnSession (Receives S))
            thread.code w := by
  refine
    Pool.guarantees_step
      (E := fun h => opens (.event h) = false)
      (fun _ => .refl _) (fun _ _ _ => .trans)
      (fun _ _ _ hUses => hUses.same) ?_ hConnection.calls
      hConnection.receives hStep
  exact fun h _ hOpens => event_receives h hOpens

theorem exchanges_complete
    {s s' : Session}
    (hExchanges : Exchanges S s s')
    (hComplete : s.handshakeComplete = true) :
    s'.handshakeComplete = true := by
  induction hExchanges with
  | refl => exact hComplete
  | tail _ hTransfer ih =>
      have hUses : Uses S _ _ := Or.inr hTransfer
      exact hUses.same.complete.trans ih

/- A verified hello ends the time of waiting. -/
theorem complete_of_verifies
    {before after : Trace}
    {m : Transition WsClient ClientEffect}
    {reply : ServerHello}
    (hConnection : Connection S kx (before ++ m :: after) p)
    (hVerifies : Verifies S reply m) :
    ¬ Greeting p ∧ p.shared.session.handshakeComplete = true := by
  have hMem : m ∈ before ++ m :: after := by simp
  refine ⟨?_, ?_⟩
  · intro hGreeting
    exact hConnection.greets hGreeting m hMem reply hVerifies
  · have hExchanges :=
      (hConnection.connects before m after reply rfl
        hVerifies).2.2
    exact exchanges_complete hExchanges hVerifies.complete

theorem step_moved
    {effects : List ClientEffect}
    (hConnection : Connection S kx steps p)
    (hStep : ConnectedStep S p l q)
    (hMoved : Moved S kx p q.shared) :
    Connection S kx (steps ++ [⟨p.shared, effects, q.shared⟩])
      q where
  fresh := hMoved.fresh hConnection.fresh
  calls := hConnection.calls_step hStep.1
  running := hConnection.running_step hStep.1
  greets := by
    intro hGreeting m hMem reply hVerifies
    have hBefore := greeting_before hStep hGreeting
    rcases List.mem_append.mp hMem with hOld | hNew
    · exact
        hConnection.greets hBefore m hOld reply hVerifies
    · rw [List.mem_singleton.mp hNew] at hVerifies
      exact
        (hMoved.verifies hConnection.fresh hVerifies).1 hBefore
  prepares := hConnection.prepares_step hStep
  ends := hConnection.ends_step hStep
  holds := hConnection.holds_step hStep
  receives := hConnection.receives_step hStep.1
  waits := by
    intro hUnverified
    have hBefore : Unverified S steps := fun m hMem =>
      hUnverified m (List.mem_append_left _ hMem)
    have hNot :=
      hUnverified ⟨p.shared, effects, q.shared⟩ (by simp)
    exact
      hMoved.incomplete hConnection.fresh
        (hConnection.waits hBefore) hNot
  connects := by
    intro before m after reply hSplit hVerifies
    rcases List.eq_nil_or_concat after with
      hEnd | ⟨rest, last, hRest⟩
    · rw [hEnd] at hSplit
      rcases List.append_inj' hSplit rfl with ⟨_, hSame⟩
      cases hSame
      exact
        ⟨hConnection.fresh,
          (hMoved.verifies hConnection.fresh hVerifies).2,
          .refl⟩
    · have hParts :
          steps ++ [⟨p.shared, effects, q.shared⟩] =
            (before ++ m :: rest) ++ [last] := by
        rw [hSplit, hRest]
        simp
      have hSteps := (List.append_inj' hParts rfl).1
      rw [hSteps] at hConnection
      rcases hConnection.connects before m rest reply rfl
          hVerifies with
        ⟨hFresh, hHolds, hExchanges⟩
      rcases hConnection.complete_of_verifies hVerifies with
        ⟨hLater, hComplete⟩
      refine ⟨hFresh, hHolds, ?_⟩
      rcases hMoved.used hLater hComplete with
        hSame | hTransfer
      · rw [hSame]
        exact hExchanges
      · exact hExchanges.tail hTransfer

theorem step_unmoved
    (hConnection : Connection S kx steps p)
    (hStep : ConnectedStep S p l q)
    (hShared : q.shared = p.shared) :
    Connection S kx steps q where
  fresh := by
    rw [hShared]
    exact hConnection.fresh
  calls := hConnection.calls_step hStep.1
  running := hConnection.running_step hStep.1
  greets := fun hGreeting =>
    hConnection.greets (greeting_before hStep hGreeting)
  prepares := hConnection.prepares_step hStep
  ends := hConnection.ends_step hStep
  holds := hConnection.holds_step hStep
  receives := hConnection.receives_step hStep.1
  waits := by
    rw [hShared]
    exact hConnection.waits
  connects := by
    rw [hShared]
    exact hConnection.connects

end Connection

------------------------------------------------------------
-- All Runs
------------------------------------------------------------

/- The steps since `on_open` are what the history has more. -/
theorem connection_of_run
    {kx : KxKeyPair}
    {p q : ClientPool}
    {labels : List (Label ClientCall ClientIoEvent)}
    (hStart : Connection S kx [] p)
    (hRun : StateMachine.Run (ConnectedStep S) p labels q) :
    ∃ steps,
      q.history = p.history ++ steps ∧
        Connection S kx steps q := by
  refine
    hRun.invariant
      (P := fun q =>
        ∃ steps,
          q.history = p.history ++ steps ∧
            Connection S kx steps q)
      ?_ ⟨[], by simp, hStart⟩
  rintro q l q' ⟨steps, hHistory, hConnection⟩ hStep
  rcases hConnection.moved hStep.1 with
    ⟨hShared, hSame⟩ | ⟨effects, hMoved, hNext⟩
  · exact
      ⟨steps, hSame.trans hHistory,
        hConnection.step_unmoved hStep hShared⟩
  · refine
      ⟨steps ++ [⟨q.shared, effects, q'.shared⟩], ?_,
        hConnection.step_moved hStep hMoved⟩
    rw [hNext, hHistory, List.append_assoc]

/- Before any connection, and between two of them. -/
structure Resting
    (S : Sodium)
    (p : ClientPool) : Prop where
  fresh : Fresh p.shared.session
  calls :
    ∀ thread ∈ p.calls,
      Ensures (OnSession (Uses S)) thread.code

/- What any thread at all does to the session. -/
def Handles (S : Sodium) (s s' : Session) : Prop :=
  Opening S s s' ∨
    ∃ hello, s' = (s.clientFinalizeHandshake S hello).2

theorem handles_of_moves
    {may : ClientMay}
    {act : ClientAction Unit}
    (hAct : Moves S may act) :
    Ensures (OnSession (Handles S)) act := by
  refine hAct.mono ?_
  intro w effects w' hMove
  rcases move_session hMove with
    hUses | ⟨_, hOpening⟩ | ⟨_, hFinalized⟩
  · exact Or.inl (.uses hUses)
  · exact Or.inl hOpening
  · exact Or.inr hFinalized

theorem Handles.fresh
    {s s' : Session}
    (hStep : Handles S s s')
    (hFresh : Fresh s) :
    Fresh s' := by
  rcases hStep with hOpening | ⟨hello, hFinalized⟩
  · exact hOpening.fresh hFresh
  · rw [hFinalized]
    exact finalize_fresh hello hFresh

theorem resting_of_run
    {w : WsClient}
    {p : ClientPool}
    {labels : List (Label ClientCall ClientIoEvent)}
    (hFresh : Fresh w.session)
    (hRun : StateMachine.Run (PoolStep S) (pool w) labels p) :
    Resting S p := by
  let P (p : ClientPool) : Prop :=
    Resting S p ∧ p.Within (OnSession (Handles S))
  have hStart : P (pool w) :=
    ⟨⟨hFresh, by simp [pool]⟩, by simp [pool], by simp [pool]⟩
  have hEnd : P p := by
    refine hRun.invariant ?_ hStart
    rintro p l q ⟨hResting, hWithin⟩ hStep
    refine ⟨⟨?_, ?_⟩, hWithin.step ?_ ?_ hStep⟩
    · rcases hWithin.shared hStep with
        ⟨hShared, _⟩ | ⟨effects, hHandles, _⟩
      · rw [hShared]
        exact hResting.fresh
      · exact hHandles.fresh hResting.fresh
    · refine
        Pool.forall_calls_step (fun k _ => call_uses k) ?_
          hResting.calls hStep
      intro thread effects next rest hCode hUses
      rw [hCode] at hUses
      cases hUses with
      | step _ hRest => exact hRest p.shared
    · exact fun k => handles_of_moves (callCode_moves S k)
    · exact fun h => handles_of_moves (handle_moves S h.val)
  exact hEnd.1

/- A connection begins with `on_open`. -/
theorem connection_opened
    {p : ClientPool}
    (hResting : Resting S p)
    (hIncomplete : p.shared.session.handshakeComplete = false)
    (input : ClientInput)
    (hdl : Hdl) :
    Connection S input.kx []
      (p.exec (poolProgram S)
        (.event (opening input hdl))) where
  fresh := hResting.fresh
  calls := hResting.calls
  running := ⟨_, rfl⟩
  greets := by
    intro _ m hMem
    cases hMem
  prepares := by
    intro thread hThread _
    cases hThread
    exact onOpen_opening input hdl
  ends := by
    intro thread hThread _ w hLeaves
    cases hThread
    exact
      onOpen_ends input hdl
        (hLeaves.role.trans hResting.fresh.client)
  holds := by
    intro hLater
    exact absurd ⟨_, rfl, rfl⟩ hLater
  receives := by
    intro thread hThread hOpens
    cases hThread
    cases hOpens
  waits := fun _ => hIncomplete
  connects := by
    intro before m after reply hEmpty
    simp at hEmpty

------------------------------------------------------------
-- The Law
------------------------------------------------------------

theorem fresh_of_incomplete
    (hCorrect : S.AeadCorrect)
    {p : ClientPool}
    (hResting : Resting S p)
    (hIncomplete : p.shared.session.handshakeComplete = false)
    (input : ClientInput)
    (hdl : Hdl) :
    FreshChannel S input hdl p where
  waits := by
    intro labels q steps hRun hHistory hUnverified
    rcases connection_of_run
        (connection_opened hResting hIncomplete input hdl)
        hRun with
      ⟨steps', hHistory', hConnection⟩
    have hSteps : steps = steps' :=
      List.append_cancel_left (hHistory.symm.trans hHistory')
    rw [← hSteps] at hConnection
    have hWaiting := hConnection.waits hUnverified
    exact
      ⟨refuses_of_incomplete hWaiting,
        takesHello_of_incomplete hWaiting⟩
  connects := by
    intro labels q before m after reply hRun hHistory hVerifies
    rcases connection_of_run
        (connection_opened hResting hIncomplete input hdl)
        hRun with
      ⟨steps, hHistory', hConnection⟩
    rw [List.append_assoc] at hHistory
    have hSteps : before ++ m :: after = steps :=
      List.append_cancel_left (hHistory.symm.trans hHistory')
    rcases hConnection.connects before m after reply
        hSteps.symm hVerifies with
      ⟨hFresh, hHolds, hExchanges⟩
    refine ⟨hExchanges, ?_⟩
    intro server hAnswers
    exact
      delivers_of_verifies hCorrect hVerifies hFresh hHolds
        hAnswers

/- The first step of `on_open` is enough to send again. -/
theorem not_fresh_of_complete
    {p : ClientPool}
    (hComplete : p.shared.session.handshakeComplete = true)
    (input : ClientInput)
    (hdl : Hdl) :
    ¬ FreshChannel S input hdl p := by
  intro hFresh
  let opened :=
    p.exec (poolProgram S) (.event (opening input hdl))
  let q := opened.exec (poolProgram S) .stepEvent
  have hRun :
      StateMachine.Run (ConnectedStep S) opened [.stepEvent]
        q :=
    .cons ⟨⟨rfl, rfl⟩, rfl⟩ (.nil q)
  have hWaits :=
    hFresh.waits [.stepEvent] q [⟨p.shared, [], q.shared⟩]
      hRun rfl
  have hUnverified :
      Unverified S [⟨p.shared, [], q.shared⟩] := by
    intro m hMem reply hVerifies
    rw [List.mem_singleton.mp hMem] at hVerifies
    have hIncomplete := hVerifies.1
    simp only at hIncomplete
    rw [hComplete] at hIncomplete
    cases hIncomplete
  exact
    not_refuses_of_complete (w := q.shared) rfl hComplete
      (hWaits hUnverified).1

/-
  A connection of a client, at whatever point of its life,
  has a channel of its own exactly when none before it has
  completed its handshake.
-/
theorem fresh_channel_iff
    (hCorrect : S.AeadCorrect)
    {serverSignKey : KeyPair}
    {config : Config}
    {hasOwner : Bool}
    {labels : List (Label ClientCall ClientIoEvent)}
    {p : ClientPool}
    (hRun :
      StateMachine.Run (PoolStep S)
        (pool (.new serverSignKey config hasOwner)) labels p)
    (input : ClientInput)
    (hdl : Hdl) :
    FreshChannel S input hdl p ↔
      p.shared.session.handshakeComplete = false := by
  constructor
  · intro hFresh
    by_contra hNot
    exact
      not_fresh_of_complete (Bool.of_not_eq_false hNot) input
        hdl hFresh
  · intro hIncomplete
    have hNew :
        Fresh
          (WsClient.new serverSignKey config hasOwner).session :=
      ⟨rfl, fun _ => ⟨rfl, rfl⟩⟩
    exact
      fresh_of_incomplete hCorrect (resting_of_run hNew hRun)
        hIncomplete input hdl

open PlainSodium

/- The first connection closes before the hello is answered. -/
def abandoned : List (Label ClientCall ClientIoEvent) :=
  .event (opening (smooth (sampleKx 1)) 1) ::
      List.replicate 5 .stepEvent ++
    .event (closing (smooth (sampleKx 1))) ::
      List.replicate 2 .stepEvent

/- The second one has a channel of its own. -/
set_option maxRecDepth 8000 in
theorem fresh_channel_abandoned :
    let p :=
      abandoned.foldl (Pool.exec (poolProgram plainSodium))
        (pool sample)
    (p.isIdle = true ∧ p.history.length = 6) ∧
      FreshChannel plainSodium (smooth (sampleKx 3)) 2 p := by
  intro p
  have hRun :=
    StateMachine.run_of_allowed
      (fun (p : ClientPool) l => p.allowed l = true)
      (Pool.exec (poolProgram plainSodium)) (pool sample)
      abandoned (by decide)
  refine ⟨by decide, ?_⟩
  exact
    (fresh_channel_iff plainSodium_aeadCorrect hRun
      (smooth (sampleKx 3)) 2).mpr (by decide)

/- The first connection is used, and then it closes. -/
def usedOnce : List (Label ClientCall ClientIoEvent) :=
  connected ++
    .event (closing (smooth (sampleKx 1))) ::
      List.replicate 2 .stepEvent

/- The second one has no channel of its own. -/
set_option maxRecDepth 8000 in
theorem stale_channel_second :
    let p :=
      usedOnce.foldl (Pool.exec (poolProgram plainSodium))
        (pool sample)
    StateMachine.Run (PoolStep plainSodium) (pool sample)
        usedOnce p ∧
      p.isIdle = true ∧
      p.shared.isConnected = false ∧
      ¬ FreshChannel plainSodium (smooth (sampleKx 3)) 2 p := by
  refine ⟨?_, by decide, by decide, ?_⟩
  · exact StateMachine.run_of_allowed _ _ _ _ (by decide)
  · exact not_fresh_of_complete (by decide) _ _

end Reconnect

end ObscuraProto
