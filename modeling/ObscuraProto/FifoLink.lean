import ObscuraProto.Session
import ObscuraProto.Library.StateMachine

/-
  Two sessions that hold crossed keys, joined by two queues.

  Either side may seal payloads at any time; a packet waits
  in the queue of the other side and is opened when it gets
  to the head.  The counters of sender and receiver are as
  far apart as the queue is long, so every packet opens.

  Key definitions include:
    * `FifoLink`, `FifoLink.exec`
    * `FifoLink.Ordered`, `FifoLink.Connected`

  Key theorems include:
    * `FifoLink.Ordered.push`, `FifoLink.Ordered.pop`
    * `FifoLink.delivers`
-/

namespace ObscuraProto

def Role.other : Role → Role
| .client => .server
| .server => .client

/- A packet on its way, with the payload that it carries. -/
structure InFlight where
  packet : Bytes
  payload : Payload

/- `queue` holds what is on its way to a side. -/
structure FifoLink where
  session : Role → Session
  queue : Role → List InFlight

namespace FifoLink

inductive Action where
| encrypt (role : Role) (nonce : Nonce) (payload : Payload)
| deliver (role : Role)

def Action.encryptsBy (role : Role) : Action → Bool
| .encrypt sender _ _ => sender == role
| .deliver _ => false

variable (S : Sodium)

def exec (l : FifoLink) : Action → FifoLink
| .encrypt role nonce payload =>
    match (l.session role).encryptPayload S nonce payload with
    | (.error _, s) =>
        { l with session := Function.update l.session role s }
    | (.ok packet, s) =>
        { session := Function.update l.session role s
          queue :=
            Function.update l.queue role.other
              (l.queue role.other ++ [⟨packet, payload⟩]) }
| .deliver role =>
    match l.queue role with
    | [] => l
    | first :: rest =>
        { session :=
            Function.update l.session role
              ((l.session role).decryptPacket S
                first.packet).2
          queue := Function.update l.queue role rest }

abbrev Step (l : FifoLink) (act : Action) (l' : FifoLink) :
    Prop :=
  l' = l.exec S act

------------------------------------------------------------
-- One Direction
------------------------------------------------------------

/-
  The receiver has opened all packets but those in the queue,
  which carry the next counters in order.
-/
structure Ordered
    (sender receiver : Session)
    (senderKeys receiverKeys : SessionKeys)
    (queue : List InFlight) : Prop where
  senderReady : sender.Ready senderKeys
  receiverReady : receiver.Ready receiverKeys
  crossed : senderKeys.tx = receiverKeys.rx
  counters :
    sender.sendCounter.toNat =
      receiver.recvCounter.toNat + queue.length
  packets :
    ∀ i item, queue[i]? = some item →
      ∃ nonce,
        item.packet =
          Crypto.packet S nonce item.payload
            (UInt64.ofNat
              (receiver.recvCounter.toNat + i + 1))
            receiverKeys.rx

namespace Ordered

variable {S}
variable {sender receiver : Session}
variable {senderKeys receiverKeys : SessionKeys}
variable {queue : List InFlight}

/- The packet that is sealed next goes to the end. -/
theorem push
    (hOrdered :
      Ordered S sender receiver senderKeys receiverKeys queue)
    (hBound : sender.sendCounter.toNat + 1 < 2 ^ 64)
    (nonce : Nonce)
    (payload : Payload) :
    ∃ packet,
      sender.encryptPayload S nonce payload =
          (.ok packet,
            { sender with
              sendCounter := sender.sendCounter + 1 }) ∧
        Ordered S
          { sender with sendCounter := sender.sendCounter + 1 }
          receiver senderKeys receiverKeys
          (queue ++ [⟨packet, payload⟩]) := by
  refine
    ⟨_, Session.encryptPayload_ready S hOrdered.senderReady nonce
      payload, ?_⟩
  have hNext :
      (sender.sendCounter + 1).toNat =
        sender.sendCounter.toNat + 1 := by
    rw [UInt64.toNat_add]
    exact Nat.mod_eq_of_lt hBound
  refine
    { senderReady := ⟨hOrdered.senderReady.complete,
        hOrdered.senderReady.keys_eq⟩
      receiverReady := hOrdered.receiverReady
      crossed := hOrdered.crossed
      counters := ?_
      packets := ?_ }
  · simp only [hNext, List.length_append,
      List.length_singleton]
    have hCounters := hOrdered.counters
    omega
  · intro i item hItem
    rw [List.getElem?_append] at hItem
    split at hItem
    · exact hOrdered.packets i item hItem
    · next hIndex =>
      have hLast : i = queue.length := by
        have hBelow := (List.getElem?_eq_some_iff.mp hItem).1
        simp only [List.length_singleton] at hBelow
        omega
      subst hLast
      simp only [Nat.sub_self, List.getElem?_cons_zero] at hItem
      cases hItem
      refine ⟨nonce, ?_⟩
      rw [← hOrdered.crossed, ← hOrdered.counters, ← hNext,
        UInt64.ofNat_toNat]

/- The packet at the head opens. -/
theorem pop
    {first : InFlight}
    (hCorrect : S.AeadCorrect)
    (hOrdered :
      Ordered S sender receiver senderKeys receiverKeys
        (first :: queue)) :
    ∃ receiver',
      receiver.decryptPacket S first.packet =
          (.ok first.payload, receiver') ∧
        (∃ counter,
          receiver' =
            { receiver with recvCounter := counter }) ∧
        Ordered S sender receiver' senderKeys receiverKeys
          queue := by
  rcases hOrdered.packets 0 first rfl with ⟨nonce, hPacket⟩
  have hBound :
      receiver.recvCounter.toNat + 0 + 1 < 2 ^ 64 := by
    have hSent := sender.sendCounter.toNat_lt
    have hCounters := hOrdered.counters
    rw [List.length_cons] at hCounters
    omega
  have hNext :
      (UInt64.ofNat
          (receiver.recvCounter.toNat + 0 + 1)).toNat =
        receiver.recvCounter.toNat + 1 :=
    UInt64.toNat_ofNat_of_lt' hBound
  have hNewer :
      receiver.recvCounter <
        UInt64.ofNat
          (receiver.recvCounter.toNat + 0 + 1) := by
    rw [UInt64.lt_iff_toNat_lt, hNext]
    exact Nat.lt_succ_self _
  have hOpens :=
    Session.decryptPacket_packet S hCorrect hOrdered.receiverReady
      nonce first.payload hNewer
  rw [← hPacket] at hOpens
  refine ⟨_, hOpens, ⟨_, rfl⟩, ?_⟩
  refine
    { senderReady := hOrdered.senderReady
      receiverReady := ⟨hOrdered.receiverReady.complete,
        hOrdered.receiverReady.keys_eq⟩
      crossed := hOrdered.crossed
      counters := ?_
      packets := ?_ }
  · rw [hNext, hOrdered.counters, List.length_cons]
    omega
  · intro i item hItem
    rcases hOrdered.packets (i + 1) item hItem with
      ⟨nonce', hPacket'⟩
    refine ⟨nonce', ?_⟩
    rw [hNext, hPacket']
    congr 2
    omega

/- The other counter of the sender does not matter. -/
theorem sender_receives
    (hOrdered :
      Ordered S sender receiver senderKeys receiverKeys queue)
    (counter : UInt64) :
    Ordered S { sender with recvCounter := counter } receiver
      senderKeys receiverKeys queue where
  senderReady := ⟨hOrdered.senderReady.complete, hOrdered.senderReady.keys_eq⟩
  receiverReady := hOrdered.receiverReady
  crossed := hOrdered.crossed
  counters := hOrdered.counters
  packets := hOrdered.packets

/- Nor does that of the receiver. -/
theorem receiver_sends
    (hOrdered :
      Ordered S sender receiver senderKeys receiverKeys queue)
    (counter : UInt64) :
    Ordered S sender { receiver with sendCounter := counter }
      senderKeys receiverKeys queue where
  senderReady := hOrdered.senderReady
  receiverReady :=
    ⟨hOrdered.receiverReady.complete, hOrdered.receiverReady.keys_eq⟩
  crossed := hOrdered.crossed
  counters := hOrdered.counters
  packets := hOrdered.packets

end Ordered

------------------------------------------------------------
-- Both Directions
------------------------------------------------------------

/- Both directions are in order; `acts` led here. -/
structure Connected
    (keys : Role → SessionKeys)
    (acts : List Action)
    (l : FifoLink) : Prop where
  ordered :
    ∀ role,
      Ordered S (l.session role) (l.session role.other)
        (keys role) (keys role.other) (l.queue role.other)
  counted :
    ∀ role,
      (l.session role).sendCounter.toNat =
        acts.countP (Action.encryptsBy role)

/- Fewer than 2^64 packets are sealed by either side. -/
def Bounded (acts : List Action) : Prop :=
  ∀ role, acts.countP (Action.encryptsBy role) < 2 ^ 64

variable {S}

@[simp] theorem other_other (role : Role) :
    role.other.other = role := by
  cases role <;> rfl

theorem eq_other {role role' : Role} (hOther : role' ≠ role) :
    role' = role.other := by
  cases role <;> cases role' <;> first | rfl | exact absurd rfl hOther

theorem other_ne (role : Role) : role.other ≠ role := by
  cases role <;> intro hSame <;> cases hSame

theorem Bounded.before
    {acts : List Action}
    {act : Action}
    (hBounded : Bounded (acts ++ [act])) :
    Bounded acts := by
  intro role
  have hBound := hBounded role
  rw [List.countP_append] at hBound
  omega

theorem Connected.encrypt
    {keys : Role → SessionKeys}
    {acts : List Action}
    {l : FifoLink}
    {role : Role}
    {nonce : Nonce}
    {payload : Payload}
    (hConnected : Connected S keys acts l)
    (hBounded :
      Bounded (acts ++ [.encrypt role nonce payload])) :
    Connected S keys (acts ++ [.encrypt role nonce payload])
      (l.exec S (.encrypt role nonce payload)) := by
  have hBound :
      (l.session role).sendCounter.toNat + 1 < 2 ^ 64 := by
    have hCount := hBounded role
    rw [List.countP_append] at hCount
    simp only [Action.encryptsBy, List.countP_singleton,
      beq_self_eq_true, if_true] at hCount
    rw [hConnected.counted role]
    exact hCount
  rcases (hConnected.ordered role).push hBound nonce payload
    with ⟨packet, hSealed, hOrdered⟩
  have hBack :=
    (hConnected.ordered role.other).receiver_sends
      ((l.session role).sendCounter + 1)
  have hNext :
      ((l.session role).sendCounter + 1).toNat =
        (l.session role).sendCounter.toNat + 1 := by
    rw [UInt64.toNat_add]
    exact Nat.mod_eq_of_lt hBound
  simp only [exec, hSealed]
  constructor
  · intro role'
    by_cases hSame : role' = role
    · subst hSame
      simpa [Function.update, other_ne] using hOrdered
    · cases eq_other hSame
      simp only [other_other] at hBack ⊢
      simpa [Function.update, other_ne, (other_ne role).symm]
        using hBack
  · intro role'
    rw [List.countP_append]
    by_cases hSame : role' = role
    · subst hSame
      simp [Action.encryptsBy, hNext, hConnected.counted]
    · have hNot : (role == role') = false :=
        beq_eq_false_iff_ne.mpr (Ne.symm hSame)
      simp [Action.encryptsBy, hSame, hNot,
        hConnected.counted]

theorem Connected.deliver
    {keys : Role → SessionKeys}
    {acts : List Action}
    {l : FifoLink}
    (hCorrect : S.AeadCorrect)
    (role : Role)
    (hConnected : Connected S keys acts l) :
    Connected S keys (acts ++ [.deliver role])
      (l.exec S (.deliver role)) := by
  have hCounted (role' : Role) :
      (acts ++ [Action.deliver role]).countP
          (Action.encryptsBy role') =
        acts.countP (Action.encryptsBy role') := by
    simp [Action.encryptsBy]
  cases hQueue : l.queue role with
  | nil =>
      simp only [exec, hQueue]
      exact
        ⟨hConnected.ordered,
          fun role' => by
            rw [hCounted, hConnected.counted]⟩
  | cons first rest =>
      have hHere := hConnected.ordered role.other
      rw [other_other, hQueue] at hHere
      rcases hHere.pop hCorrect with
        ⟨receiver, hOpens, ⟨counter, hReceiver⟩, hOrdered⟩
      have hBack :=
        (hConnected.ordered role).sender_receives counter
      rw [← hReceiver] at hBack
      have hSent :
          receiver.sendCounter =
            (l.session role).sendCounter := by
        rw [hReceiver]
      simp only [exec, hQueue, hOpens]
      constructor
      · intro role'
        by_cases hSame : role' = role
        · subst hSame
          simpa [Function.update, other_ne] using hBack
        · cases eq_other hSame
          simp only [other_other]
          simpa [Function.update, other_ne] using hOrdered
      · intro role'
        rw [hCounted]
        by_cases hSame : role' = role
        · subst hSame
          simp [hSent, hConnected.counted]
        · simp [hSame, hConnected.counted]

theorem connected_of_run
    {keys : Role → SessionKeys}
    {acts : List Action}
    {l l' : FifoLink}
    (hCorrect : S.AeadCorrect)
    (hStart : Connected S keys [] l)
    (hRun : StateMachine.Run (Step S) l acts l')
    (hBounded : Bounded acts) :
    Connected S keys acts l' := by
  refine
    hRun.invariant_labels
      (P := fun acts l => Bounded acts → Connected S keys acts l)
      ?_ (fun _ => hStart) hBounded
  intro acts l act l' _ hBefore hStep hBounded
  have hConnected := hBefore hBounded.before
  subst hStep
  cases act with
  | encrypt role nonce payload =>
      exact hConnected.encrypt hBounded
  | deliver role => exact hConnected.deliver hCorrect role

------------------------------------------------------------
-- Delivery
------------------------------------------------------------

/- Nothing is on its way yet. -/
def start (client server : Session) : FifoLink where
  session
  | .client => client
  | .server => server
  queue := fun _ => []

/-
  Whatever both sides seal, and whenever it is delivered in
  order: every payload is sealed and every packet opens.
-/
def Delivers (S : Sodium) (client server : Session) : Prop :=
  ∀ acts l,
    StateMachine.Run (Step S) (start client server) acts l →
      Bounded acts →
        (∀ role nonce payload,
            ∃ packet,
              ((l.session role).encryptPayload S nonce
                  payload).1 = .ok packet) ∧
          ∀ role first rest,
            l.queue role = first :: rest →
              ((l.session role).decryptPacket S
                  first.packet).1 = .ok first.payload

theorem delivers
    {client server : Session}
    {clientKeys serverKeys : SessionKeys}
    (hCorrect : S.AeadCorrect)
    (hClient : client.Ready clientKeys)
    (hServer : server.Ready serverKeys)
    (hUp : clientKeys.tx = serverKeys.rx)
    (hDown : clientKeys.rx = serverKeys.tx)
    (hClientZero :
      client.sendCounter = 0 ∧ client.recvCounter = 0)
    (hServerZero :
      server.sendCounter = 0 ∧ server.recvCounter = 0) :
    Delivers S client server := by
  intro acts l hRun hBounded
  let keys : Role → SessionKeys
    | .client => clientKeys
    | .server => serverKeys
  have hStart : Connected S keys [] (start client server) := by
    constructor
    · intro role
      cases role with
      | client =>
          exact
            { senderReady := hClient, receiverReady := hServer
              crossed := hUp
              counters := by
                simp [start, Role.other, hClientZero,
                  hServerZero]
              packets := by simp [start] }
      | server =>
          exact
            { senderReady := hServer, receiverReady := hClient
              crossed := hDown.symm
              counters := by
                simp [start, Role.other, hClientZero,
                  hServerZero]
              packets := by simp [start] }
    · intro role
      cases role with
      | client => simp [start, hClientZero]
      | server => simp [start, hServerZero]
  have hConnected :=
    connected_of_run hCorrect hStart hRun hBounded
  constructor
  · intro role nonce payload
    rw [Session.encryptPayload_ready S
      (hConnected.ordered role).senderReady]
    exact ⟨_, rfl⟩
  · intro role first rest hQueue
    have hHere := hConnected.ordered role.other
    rw [other_other, hQueue] at hHere
    rcases hHere.pop hCorrect with ⟨_, hOpens, _⟩
    rw [hOpens]

end FifoLink

end ObscuraProto
