import ObscuraProto.IdealPrimitives
import ObscuraProto.PlainSodium
import ObscuraProto.Library.StateMachine
import ObscuraProto.Library.LossyChannel

/-
  Two established sessions and a network that the adversary
  controls.

  The adversary may deliver any byte string to either side at
  any time.  The AEAD is ideal: a packet that opens under a
  key was sealed under that key by one of the two sides.
  Each direction then refines a lossy channel whose cursor is
  the receiver's counter.

  Main declarations:
    * `SecureChannel.Step`
    * `SecureChannel.Direction`
    * `SecureChannel.channel_safety`
-/

namespace ObscuraProto

------------------------------------------------------------
-- Endpoints and Actions
------------------------------------------------------------

namespace SecureChannel

inductive Side where
| a
| b
deriving DecidableEq, Repr

def Side.other : Side → Side
| .a => .b
| .b => .a

@[simp] theorem Side.other_other (side : Side) :
    side.other.other = side := by
  cases side <;> rfl

theorem Side.other_ne (side : Side) :
    side.other ≠ side := by
  cases side <;> decide

/- A payload that `decrypt_packet` returned. -/
structure Accepted where
  counter : UInt64
  payload : Payload
deriving DecidableEq

/- A session together with the history of its calls. -/
structure Endpoint where
  session : Session
  sent : List Sealed := []
  accepted : List Accepted := []
deriving DecidableEq

abbrev Channel := Side → Endpoint

inductive Action where
| encrypt (side : Side) (nonce : Nonce) (payload : Payload)
| deliver (side : Side) (packet : Bytes)

variable (S : Sodium)

/- One call of `encrypt_payload`. -/
def Endpoint.encrypt
    (nonce : Nonce)
    (payload : Payload)
    (e : Endpoint) : Endpoint :=
  match e.session.encryptPayload S nonce payload with
  | (.error _, s) => { e with session := s }
  | (.ok packet, s) =>
      { e with
        session := s
        sent :=
          e.sent ++
            [{ key := s.txKey
               counter := s.sendCounter
               payload := payload
               packet := packet }] }

/- One call of `decrypt_packet`. -/
def Endpoint.deliver
    (packet : Bytes)
    (e : Endpoint) : Endpoint :=
  match e.session.decryptPacket S packet with
  | (.error _, s) => { e with session := s }
  | (.ok payload, s) =>
      { e with
        session := s
        accepted :=
          e.accepted ++
            [{ counter := s.recvCounter
               payload := payload }] }

def exec (w : Channel) : Action → Channel
| .encrypt side nonce payload =>
    Function.update w side
      ((w side).encrypt S nonce payload)
| .deliver side packet =>
    Function.update w side ((w side).deliver S packet)

/- Everything either side has sealed so far. -/
def sealedBy (w : Channel) : List Sealed :=
  (w .a).sent ++ (w .b).sent

/- The ideal AEAD constrains deliveries only. -/
def Ideal (w : Channel) : Action → Prop
| .encrypt _ _ _ => True
| .deliver side packet =>
    ∀ keys, (w side).session.sessionKeys = some keys →
      AuthenticDelivery S (sealedBy w) keys.rx packet

instance (w : Channel) (act : Action) :
    Decidable (Ideal S w act) := by
  cases act <;> unfold Ideal <;> infer_instance

abbrev Step : Channel → Action → Channel → Prop :=
  StateMachine.Guarded (Ideal S) (exec S)

------------------------------------------------------------
-- Endpoint Steps
------------------------------------------------------------

theorem Endpoint.encrypt_ready
    {e : Endpoint}
    {keys : SessionKeys}
    (hReady : e.session.Ready keys)
    (nonce : Nonce)
    (payload : Payload) :
    e.encrypt S nonce payload =
      { e with
        session :=
          { e.session with
            sendCounter := e.session.sendCounter + 1 }
        sent :=
          e.sent ++
            [{ key := keys.tx
               counter := e.session.sendCounter + 1
               payload := payload
               packet :=
                Crypto.packet S nonce payload
                  (e.session.sendCounter + 1)
                  keys.tx }] } := by
  have hTx := hReady.txKey_eq
  simp only [Endpoint.encrypt,
    Session.encryptPayload_ready S hReady]
  simp only [Session.txKey] at hTx ⊢
  rw [hTx]

/-
  A delivery is rejected without a trace, or it advances the
  receive counter to that of an opened packet.
-/
theorem Endpoint.deliver_cases
    {e : Endpoint}
    {keys : SessionKeys}
    (hReady : e.session.Ready keys)
    (packet : Bytes) :
    e.deliver S packet = e ∨
      ∃ result,
        Crypto.decrypt S packet keys.rx = .ok result ∧
          e.session.recvCounter < result.counter ∧
          e.deliver S packet =
            { e with
              session :=
                { e.session with
                  recvCounter := result.counter }
              accepted :=
                e.accepted ++
                  [{ counter := result.counter
                     payload := result.payload }] } := by
  rcases Session.decryptPacket_cases S e.session packet with
    ⟨error, hRejected⟩ |
      ⟨keys', result, hReady', hDecrypt, hNewer, hAccepted⟩
  · apply Or.inl
    simp only [Endpoint.deliver, hRejected]
  · apply Or.inr
    rw [hReady'.unique hReady] at hDecrypt
    refine ⟨result, hDecrypt, hNewer, ?_⟩
    simp only [Endpoint.deliver, hAccepted]

------------------------------------------------------------
-- One Direction
------------------------------------------------------------

/- The lossy channel that a direction implements. -/
def direction (x y : Endpoint) :
    LossyChannel.State Payload where
  sent := x.sent.map Sealed.payload
  cursor := y.session.recvCounter.toNat
  received := y.accepted.map Accepted.payload

/-
  The i-th packet of the sender carries the counter i + 1
  under the key the receiver reads with.
-/
structure Direction
    (x y : Endpoint)
    (kx ky : SessionKeys) : Prop where
  sender : x.session.Ready kx
  receiver : y.session.Ready ky
  crossed : kx.tx = ky.rx
  counted : x.session.sendCounter.toNat = x.sent.length
  numbered :
    ∀ i r, x.sent[i]? = some r →
      r.key = kx.tx ∧ r.counter.toNat = i + 1 ∧ r.Genuine S
  channel : LossyChannel.WellFormed (direction x y)
  cursor :
    y.session.recvCounter = 0 ∨
      ∃ d ∈ y.accepted, d.counter = y.session.recvCounter

variable {S}

/- Encrypting a payload is a send of the lossy channel. -/
theorem Direction.encrypt
    {x y : Endpoint}
    {kx ky : SessionKeys}
    (hDir : Direction S x y kx ky)
    (nonce : Nonce)
    (payload : Payload)
    (hBound : x.sent.length + 1 < 2 ^ 64) :
    Direction S (x.encrypt S nonce payload) y kx ky := by
  have hCounter :
      (x.session.sendCounter + 1).toNat =
        x.sent.length + 1 := by
    rw [UInt64.toNat_add, hDir.counted]
    exact Nat.mod_eq_of_lt hBound
  have hChannel :
      LossyChannel.Step (direction x y)
        (direction (x.encrypt S nonce payload) y) := by
    have hSend :=
      LossyChannel.Step.send (direction x y) payload
    simpa [direction,
      Endpoint.encrypt_ready S hDir.sender] using hSend
  rw [Endpoint.encrypt_ready S hDir.sender] at hChannel ⊢
  refine
    { sender := ⟨hDir.sender.complete, hDir.sender.keys_eq⟩
      receiver := hDir.receiver
      crossed := hDir.crossed
      counted := by simpa using hCounter
      numbered := ?_
      channel := hChannel.wellFormed hDir.channel
      cursor := hDir.cursor }
  intro i r hGet
  by_cases hOld : i < x.sent.length
  · rw [List.getElem?_append_left hOld] at hGet
    exact hDir.numbered i r hGet
  · rw [List.getElem?_append_right (Nat.not_lt.mp hOld)]
      at hGet
    rcases List.getElem?_eq_some_iff.mp hGet with
      ⟨hIndex, hRecord⟩
    have hLast : i - x.sent.length = 0 := by
      simpa using hIndex
    simp only [hLast, List.getElem_cons_zero] at hRecord
    subst hRecord
    refine ⟨rfl, ?_, nonce, rfl⟩
    rw [hCounter]
    omega

/- A call of the receiver's `encrypt_payload` is invisible. -/
theorem Direction.encrypt_receiver
    {x y : Endpoint}
    {kx ky : SessionKeys}
    (hDir : Direction S x y kx ky)
    (nonce : Nonce)
    (payload : Payload) :
    Direction S x (y.encrypt S nonce payload) kx ky := by
  rw [Endpoint.encrypt_ready S hDir.receiver]
  exact
    { sender := hDir.sender
      receiver :=
        ⟨hDir.receiver.complete, hDir.receiver.keys_eq⟩
      crossed := hDir.crossed
      counted := hDir.counted
      numbered := hDir.numbered
      channel := hDir.channel
      cursor := hDir.cursor }

/- A delivery to the sender is invisible. -/
theorem Direction.deliver_sender
    {x y : Endpoint}
    {kx ky : SessionKeys}
    (hDir : Direction S x y kx ky)
    (packet : Bytes) :
    Direction S (x.deliver S packet) y kx ky := by
  rcases Endpoint.deliver_cases S hDir.sender packet with
    hSame | ⟨result, _, _, hAccepted⟩
  · rw [hSame]
    exact hDir
  · rw [hAccepted]
    exact
      { sender :=
          ⟨hDir.sender.complete, hDir.sender.keys_eq⟩
        receiver := hDir.receiver
        crossed := hDir.crossed
        counted := hDir.counted
        numbered := hDir.numbered
        channel := hDir.channel
        cursor := hDir.cursor }

/-
  A delivery of one of the sender's packets is a rejection
  or a receive of the lossy channel.
-/
theorem Direction.deliver
    {x y : Endpoint}
    {kx ky : SessionKeys}
    (hCorrect : S.AeadCorrect)
    (hDir : Direction S x y kx ky)
    {packet : Bytes}
    (hOwn :
      S.Opens ky.rx packet →
        ∃ r ∈ x.sent, r.packet = packet) :
    Direction S x (y.deliver S packet) kx ky := by
  rcases Endpoint.deliver_cases S hDir.receiver packet with
    hSame | ⟨result, hDecrypt, hNewer, hAccepted⟩
  · rw [hSame]
    exact hDir
  · rcases hOwn (Crypto.opens_of_decrypt S hDecrypt) with
      ⟨r, hMem, hPacket⟩
    rcases List.getElem?_of_mem hMem with ⟨i, hGet⟩
    rcases hDir.numbered i r hGet with
      ⟨hKey, hIndex, nonce, hGenuine⟩
    have hResult :
        result =
          { payload := r.payload, counter := r.counter } := by
      rw [← hPacket, hGenuine, hKey, hDir.crossed,
        Crypto.decrypt_packet S hCorrect nonce r.payload
          r.counter ky.rx_size] at hDecrypt
      exact (Except.ok.inj hDecrypt).symm
    subst hResult
    have hLater : y.session.recvCounter.toNat ≤ i := by
      have hLt := UInt64.lt_iff_toNat_lt.mp hNewer
      simp only at hLt
      omega
    have hReceive :
        LossyChannel.Step (direction x y)
          (direction x (y.deliver S packet)) := by
      have hStep :=
        LossyChannel.Step.receive (direction x y) i r.payload
          hLater (by simp [direction, hGet])
      simpa [direction, hAccepted, hIndex] using hStep
    rw [hAccepted] at hReceive ⊢
    exact
      { sender := hDir.sender
        receiver :=
          ⟨hDir.receiver.complete, hDir.receiver.keys_eq⟩
        crossed := hDir.crossed
        counted := hDir.counted
        numbered := hDir.numbered
        channel := hReceive.wellFormed hDir.channel
        cursor :=
          Or.inr ⟨⟨r.counter, r.payload⟩, by simp, rfl⟩ }

------------------------------------------------------------
-- Both Directions
------------------------------------------------------------

/- Each side's keys and the invariant of each direction. -/
structure Safe
    (S : Sodium)
    (keys : Side → SessionKeys)
    (w : Channel) : Prop where
  distinct : ∀ side, (keys side).tx ≠ (keys side).rx
  direction :
    ∀ side,
      Direction S (w side.other) (w side)
        (keys side.other) (keys side)

/- Fewer than 2^64 payloads were encrypted on each side. -/
def Bounded (w : Channel) : Prop :=
  ∀ side, (w side).sent.length < 2 ^ 64

theorem sent_length_le
    {w w' : Channel}
    {act : Action}
    (hStep : Step S w act w')
    (side : Side) :
    (w side).sent.length ≤ (w' side).sent.length := by
  rcases hStep with ⟨_, rfl⟩
  cases act with
  | encrypt actor nonce payload =>
      by_cases hSide : side = actor
      · subst hSide
        simp only [exec, Function.update_self,
          Endpoint.encrypt]
        split <;> simp
      · simp [exec, hSide]
  | deliver actor packet =>
      by_cases hSide : side = actor
      · subst hSide
        simp only [exec, Function.update_self,
          Endpoint.deliver]
        split <;> simp
      · simp [exec, hSide]

theorem Bounded.before
    {w w' : Channel}
    {act : Action}
    (hStep : Step S w act w')
    (hBounded : Bounded w') :
    Bounded w := by
  intro side
  exact
    Nat.lt_of_le_of_lt (sent_length_le hStep side)
      (hBounded side)

/-
  What opens for a side under its receive key came from the
  other side: the two directions use different keys.
-/
theorem Safe.sent_by_other
    {keys : Side → SessionKeys}
    {w : Channel}
    (hSafe : Safe S keys w)
    {side : Side}
    {packet : Bytes}
    (hIdeal : Ideal S w (.deliver side packet))
    (hOpens : S.Opens (keys side).rx packet) :
    ∃ r ∈ (w side.other).sent, r.packet = packet := by
  have hReady := (hSafe.direction side).receiver
  rcases hIdeal _ hReady.keys_eq hOpens with
    ⟨r, hMem, hKey, hPacket⟩
  have hEither :
      r ∈ (w side).sent ∨ r ∈ (w side.other).sent := by
    have hBoth := List.mem_append.mp hMem
    cases side with
    | a => exact hBoth
    | b => exact hBoth.symm
  rcases hEither with hOwn | hOther
  · rcases List.getElem?_of_mem hOwn with ⟨i, hGet⟩
    have hOwnDir := hSafe.direction side.other
    rw [Side.other_other] at hOwnDir
    have hOwnKey := (hOwnDir.numbered i r hGet).1
    exact
      absurd (hOwnKey.symm.trans hKey)
        (hSafe.distinct side)
  · exact ⟨r, hOther, hPacket⟩

theorem Safe.step
    {keys : Side → SessionKeys}
    (hCorrect : S.AeadCorrect)
    {w w' : Channel}
    {act : Action}
    (hSafe : Safe S keys w)
    (hBounded : Bounded w')
    (hStep : Step S w act w') :
    Safe S keys w' := by
  rcases hStep with ⟨hIdeal, rfl⟩
  refine ⟨hSafe.distinct, ?_⟩
  intro side
  have hDir := hSafe.direction side
  cases act with
  | encrypt actor nonce payload =>
      by_cases hSide : actor = side
      · subst hSide
        have hOther := Side.other_ne actor
        simp only [exec, Function.update_self,
          Function.update_of_ne hOther]
        exact hDir.encrypt_receiver nonce payload
      · have hActor : actor = side.other := by
          cases actor <;> cases side <;> simp_all [Side.other]
        subst hActor
        have hSelf := (Side.other_ne side).symm
        have hLength := hBounded side.other
        simp only [exec, Function.update_self] at hLength
        rw [Endpoint.encrypt_ready S hDir.sender] at hLength
        simp only [exec, Function.update_self,
          Function.update_of_ne hSelf]
        exact hDir.encrypt nonce payload (by simpa using hLength)
  | deliver actor packet =>
      by_cases hSide : actor = side
      · subst hSide
        have hOther := Side.other_ne actor
        simp only [exec, Function.update_self,
          Function.update_of_ne hOther]
        exact
          hDir.deliver hCorrect
            (hSafe.sent_by_other hIdeal)
      · have hActor : actor = side.other := by
          cases actor <;> cases side <;> simp_all [Side.other]
        subst hActor
        have hSelf := (Side.other_ne side).symm
        simp only [exec, Function.update_self,
          Function.update_of_ne hSelf]
        exact hDir.deliver_sender packet

------------------------------------------------------------
-- Safety of the Channel
------------------------------------------------------------

/-
  Both handshakes have just completed with crossed keys and
  no data has been sent.
-/
structure Established
    (keys : Side → SessionKeys)
    (w : Channel) : Prop where
  ready : ∀ side, (w side).session.Ready (keys side)
  crossed :
    ∀ side, (keys side.other).tx = (keys side).rx
  distinct : (keys .a).tx ≠ (keys .a).rx
  counters :
    ∀ side,
      (w side).session.sendCounter = 0 ∧
        (w side).session.recvCounter = 0
  unused :
    ∀ side, (w side).sent = [] ∧ (w side).accepted = []

theorem Established.safe
    {keys : Side → SessionKeys}
    {w : Channel}
    (hStart : Established keys w) :
    Safe S keys w where
  distinct := by
    intro side
    cases side with
    | a => exact hStart.distinct
    | b =>
        have hAB := hStart.crossed .a
        have hBA := hStart.crossed .b
        simp only [Side.other] at hAB hBA
        rw [hAB, ← hBA]
        exact hStart.distinct.symm
  direction := by
    intro side
    have hSent := (hStart.unused side.other).1
    have hAccepted := (hStart.unused side).2
    refine
      { sender := hStart.ready side.other
        receiver := hStart.ready side
        crossed := hStart.crossed side
        counted := ?_
        numbered := ?_
        channel := ?_
        cursor := Or.inl (hStart.counters side).2 }
    · rw [(hStart.counters side.other).1, hSent]
      rfl
    · intro i r hGet
      simp [hSent] at hGet
    · have hInitial :
          direction (w side.other) (w side) =
            LossyChannel.initial := by
        simp [direction, LossyChannel.initial, hSent,
          hAccepted, (hStart.counters side).2]
      rw [hInitial]
      exact LossyChannel.wellFormed_initial

/- The invariant holds after every bounded run. -/
theorem safe_of_run
    {keys : Side → SessionKeys}
    (hCorrect : S.AeadCorrect)
    {w₀ w : Channel}
    {acts : List Action}
    (hStart : Established keys w₀)
    (hRun : StateMachine.Run (Step S) w₀ acts w)
    (hBounded : Bounded w) :
    Safe S keys w :=
  hRun.invariant_of
    (fun _ _ _ hStep hAfter => hAfter.before hStep)
    (fun _ _ _ _ hAfter hSafe hStep =>
      hSafe.step hCorrect hAfter hStep)
    hStart.safe hBounded

/- A packet numbered above all accepted ones is accepted. -/
theorem Direction.accepts
    {x y : Endpoint}
    {kx ky : SessionKeys}
    (hCorrect : S.AeadCorrect)
    (hDir : Direction S x y kx ky)
    {r : Sealed}
    (hMem : r ∈ x.sent)
    (hNewest : ∀ d ∈ y.accepted, d.counter < r.counter) :
    (y.session.decryptPacket S r.packet).1 =
      .ok r.payload := by
  rcases List.getElem?_of_mem hMem with ⟨i, hGet⟩
  rcases hDir.numbered i r hGet with
    ⟨hKey, hIndex, nonce, hGenuine⟩
  have hNewer : y.session.recvCounter < r.counter := by
    rcases hDir.cursor with hZero | ⟨d, hAccepted, hLast⟩
    · rw [hZero, UInt64.lt_iff_toNat_lt, hIndex]
      exact Nat.succ_pos i
    · rw [← hLast]
      exact hNewest d hAccepted
  rw [hGenuine, hKey, hDir.crossed,
    Session.decryptPacket_packet S hCorrect hDir.receiver
      nonce r.payload hNewer]

/- With nothing delivered yet, in-order delivery is exact. -/
theorem Direction.accepts_all
    {x y : Endpoint}
    {kx ky : SessionKeys}
    (hCorrect : S.AeadCorrect)
    (hDir : Direction S x y kx ky)
    (hNone : y.accepted = []) :
    (Session.decryptAll S (x.sent.map Sealed.packet)
        y.session).1 =
      x.sent.map (fun r => .ok r.payload) := by
  have hZero : y.session.recvCounter = 0 := by
    rcases hDir.cursor with hZero | ⟨d, hAccepted, _⟩
    · exact hZero
    · simp [hNone] at hAccepted
  apply Session.decryptAll_sealed hCorrect hDir.receiver
  · intro r hMem
    rcases List.getElem?_of_mem hMem with ⟨i, hGet⟩
    rcases hDir.numbered i r hGet with
      ⟨hKey, _, hGenuine⟩
    exact ⟨hKey.trans hDir.crossed, hGenuine⟩
  · intro r hMem
    rcases List.getElem?_of_mem hMem with ⟨i, hGet⟩
    rw [hZero, UInt64.lt_iff_toNat_lt,
      (hDir.numbered i r hGet).2.1]
    exact Nat.succ_pos i
  · rw [List.pairwise_iff_getElem]
    intro i j hi hj hLess
    have hFirst :=
      hDir.numbered i _ (List.getElem?_eq_getElem hi)
    have hSecond :=
      hDir.numbered j _ (List.getElem?_eq_getElem hj)
    rw [UInt64.lt_iff_toNat_lt, hFirst.2.1, hSecond.2.1]
    omega

/-
  Whatever the adversary delivers: the accepted payloads are
  an order-preserving part of the sent ones, a rejection
  changes nothing, and a packet above all accepted counters
  is accepted, so that in-order delivery loses nothing.
-/
theorem channel_safety
    (hCorrect : S.AeadCorrect)
    {keys : Side → SessionKeys}
    {w₀ w : Channel}
    {acts : List Action}
    (hStart : Established keys w₀)
    (hRun : StateMachine.Run (Step S) w₀ acts w)
    (hBounded : Bounded w)
    (side : Side) :
    ((w side).accepted.map Accepted.payload).Sublist
        ((w side.other).sent.map Sealed.payload) ∧
      (∀ packet e s',
        (w side).session.decryptPacket S packet =
            (.error e, s') →
          s' = (w side).session) ∧
      (∀ r ∈ (w side.other).sent,
        (∀ d ∈ (w side).accepted, d.counter < r.counter) →
          ((w side).session.decryptPacket S r.packet).1 =
            .ok r.payload) ∧
      ((w side).accepted = [] →
        (Session.decryptAll S
            ((w side.other).sent.map Sealed.packet)
            (w side).session).1 =
          (w side.other).sent.map
            (fun r => .ok r.payload)) := by
  have hSafe := safe_of_run hCorrect hStart hRun hBounded
  have hDir := hSafe.direction side
  refine ⟨hDir.channel.received_sublist, ?_, ?_, ?_⟩
  · intro packet e s' hError
    rcases Session.decryptPacket_cases S (w side).session
        packet with
      ⟨e', hRejected⟩ | ⟨_, _, _, _, _, hAccepted⟩
    · rw [hRejected] at hError
      exact (Prod.mk.inj hError).2.symm
    · rw [hAccepted] at hError
      cases (Prod.mk.inj hError).1
  · intro r hMem hNewest
    exact hDir.accepts hCorrect hMem hNewest
  · exact hDir.accepts_all hCorrect

/- Crossed keys for a concrete run. -/
def sampleKeys : Side → SessionKeys
| .a =>
    { rx := List.replicate 32 2
      tx := List.replicate 32 1
      rx_size := rfl
      tx_size := rfl }
| .b =>
    { rx := List.replicate 32 1
      tx := List.replicate 32 2
      rx_size := rfl
      tx_size := rfl }

def sampleStart : Channel := fun side =>
  { session :=
      { role :=
          match side with
          | .a => .client
          | .b => .server
        handshakeComplete := true
        supportedVersions := supportedVersions
        serverSignKey := ⟨⟨[]⟩, ⟨[]⟩⟩
        sessionKeys := some (sampleKeys side)
        keysReady := fun _ => rfl } }

def sampleNonce : Nonce := .zero

def samplePacket (counter : UInt64) : Bytes :=
  Crypto.packet plainSodium sampleNonce
    { opCode := 0x1001, parameters := [7] } counter
    (List.replicate 32 1)

/-
  Side a seals two payloads; the second is delivered, then
  the first comes late, the second again and reflected, and
  a forged byte string last.
-/
def sampleRun : List Action :=
  [ .encrypt .a sampleNonce ⟨0x1001, [7]⟩,
    .encrypt .a sampleNonce ⟨0x1001, [7]⟩,
    .deliver .b (samplePacket 2),
    .deliver .b (samplePacket 1),
    .deliver .b (samplePacket 2),
    .deliver .a (samplePacket 2),
    .deliver .b (List.replicate 40 9) ]

theorem channel_safety_sampleRun :
    let w := sampleRun.foldl (exec plainSodium) sampleStart
    (w .b).accepted.map Accepted.payload =
        [⟨0x1001, [7]⟩] ∧
      ((w .b).accepted.map Accepted.payload).Sublist
        ((w .a).sent.map Sealed.payload) := by
  refine ⟨by decide, ?_⟩
  have hStart : Established sampleKeys sampleStart :=
    { ready := fun side => by cases side <;> exact ⟨rfl, rfl⟩
      crossed := fun side => by cases side <;> rfl
      distinct := by decide
      counters := fun _ => ⟨rfl, rfl⟩
      unused := fun _ => ⟨rfl, rfl⟩ }
  have hRun :=
    StateMachine.run_of_allowed (Ideal plainSodium)
      (exec plainSodium) sampleStart sampleRun (by decide)
  have hBounded :
      Bounded
        (sampleRun.foldl (exec plainSodium) sampleStart) :=
    fun side => by cases side <;> decide
  exact
    (channel_safety plainSodium_aeadCorrect hStart hRun hBounded
      .b).1

end SecureChannel

end ObscuraProto
