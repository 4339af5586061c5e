import ObscuraProto.Session

/-
  What ideal primitives promise about a run.

  A run records the packets its honest parties sealed, the
  identity signatures they made and the session keys they
  derived.  The predicates below say that an adversary
  without their private keys produces nothing that is not on
  record: they restrict single steps of a run, never the
  primitives themselves.

  Main declarations:
    * `Sealed`, `AuthenticDelivery`
    * `IdentitySignature`, `Unforged`
    * `Derivation`, `CollisionFree`
    * `Session.decryptAll_sealed`
-/

namespace ObscuraProto

------------------------------------------------------------
-- Sealed Packets
------------------------------------------------------------

/- One `encrypt_payload` call that returned a packet. -/
structure Sealed where
  key : Bytes
  counter : UInt64
  payload : Payload
  packet : Bytes
deriving DecidableEq

/- The packet is the envelope of the recorded values. -/
def Sealed.Genuine (S : Sodium) (r : Sealed) : Prop :=
  ∃ nonce,
    r.packet =
      Crypto.packet S nonce r.payload r.counter r.key

/-
  Ideal AEAD: what opens under `key` is a recorded packet.
-/
def AuthenticDelivery
    (S : Sodium)
    (log : List Sealed)
    (key packet : Bytes) : Prop :=
  S.Opens key packet →
    ∃ r ∈ log, r.key = key ∧ r.packet = packet

instance
    (S : Sodium)
    (log : List Sealed)
    (key packet : Bytes) :
    Decidable (AuthenticDelivery S log key packet) := by
  unfold AuthenticDelivery
  infer_instance

namespace Session

/- The key `encrypt_payload` seals under. -/
def txKey (s : Session) : Bytes :=
  match s.sessionKeys with
  | none => []
  | some keys => keys.tx

theorem Ready.txKey_eq
    {s : Session}
    {keys : SessionKeys}
    (hReady : s.Ready keys) :
    s.txKey = keys.tx := by
  simp [txKey, hReady.keys_eq]

theorem Ready.unique
    {s : Session}
    {keys keys' : SessionKeys}
    (hReady : s.Ready keys)
    (hReady' : s.Ready keys') :
    keys = keys' := by
  have hSome := hReady.keys_eq.symm.trans hReady'.keys_eq
  exact Option.some.inj hSome

/- Deliver packets one after the other. -/
def decryptAll (S : Sodium) :
    List Bytes → Session →
      List (Except Exception Payload) × Session
| [], s => ([], s)
| packet :: rest, s =>
    let first := s.decryptPacket S packet
    let later := decryptAll S rest first.2
    (first.1 :: later.1, later.2)

/-
  Packets sealed for this session with rising counters are
  all accepted, in order.
-/
theorem decryptAll_sealed
    {S : Sodium}
    (hCorrect : S.AeadCorrect)
    {keys : SessionKeys}
    {records : List Sealed}
    {s : Session}
    (hReady : s.Ready keys)
    (hGenuine :
      ∀ r ∈ records, r.key = keys.rx ∧ r.Genuine S)
    (hNewer : ∀ r ∈ records, s.recvCounter < r.counter)
    (hRising :
      records.Pairwise (fun r r' => r.counter < r'.counter)) :
    (decryptAll S (records.map Sealed.packet) s).1 =
      records.map (fun r => .ok r.payload) := by
  induction records generalizing s with
  | nil => rfl
  | cons r rest ih =>
      rcases hGenuine r List.mem_cons_self with
        ⟨hKey, nonce, hPacket⟩
      rw [hKey] at hPacket
      have hFirst :=
        decryptPacket_packet S hCorrect hReady nonce
          r.payload (hNewer r List.mem_cons_self)
      rw [List.pairwise_cons] at hRising
      have hRest :=
        ih (s := { s with recvCounter := r.counter })
          ⟨hReady.complete, hReady.keys_eq⟩
          (fun r' hMem =>
            hGenuine r' (List.mem_cons_of_mem r hMem))
          hRising.1 hRising.2
      simp only [List.map_cons, decryptAll, hPacket, hFirst,
        hRest]

end Session

------------------------------------------------------------
-- Signatures and Derived Keys
------------------------------------------------------------

/- A signature made with the private key of `signer`. -/
structure IdentitySignature where
  signer : PublicKey
  message : Bytes
deriving DecidableEq

/-
  Unforgeable signatures: the identity signature of a hello
  that verifies is on record.
-/
def Unforged
    (S : Sodium)
    (signed : List IdentitySignature)
    (hello : ClientHello) : Prop :=
  hello.hasClientIdentity = true →
    Crypto.verify S hello.identitySig hello.ephemeralPk.data
        hello.identityPk = true →
      { signer := hello.identityPk
        message := hello.ephemeralPk.data } ∈ signed

instance
    (S : Sodium)
    (signed : List IdentitySignature)
    (hello : ClientHello) :
    Decidable (Unforged S signed hello) := by
  unfold Unforged
  infer_instance

/-
  The two directional keys derived from a pair of ephemeral
  keys, client to server and server to client.
-/
structure Derivation where
  clientPk : PublicKey
  serverPk : PublicKey
  c2s : Bytes
  s2c : Bytes
deriving DecidableEq

namespace Derivation

/- What a client derives: it sends under `tx`. -/
def ofClient
    (clientPk serverPk : PublicKey)
    (keys : SessionKeys) : Derivation where
  clientPk := clientPk
  serverPk := serverPk
  c2s := keys.tx
  s2c := keys.rx

/- What a server derives: it receives under `rx`. -/
def ofServer
    (clientPk serverPk : PublicKey)
    (keys : SessionKeys) : Derivation where
  clientPk := clientPk
  serverPk := serverPk
  c2s := keys.rx
  s2c := keys.tx

/- The derivation starts from the same ephemeral keys. -/
def SamePair (d d' : Derivation) : Prop :=
  d.clientPk = d'.clientPk ∧ d.serverPk = d'.serverPk

instance (d d' : Derivation) : Decidable (SamePair d d') := by
  unfold SamePair
  infer_instance

end Derivation

/-
  Collision-free derivation: a new key differs from every
  recorded key, except the same direction of the same pair.
-/
def CollisionFree
    (log : List Derivation)
    (d : Derivation) : Prop :=
  d.c2s ≠ d.s2c ∧
    ∀ d' ∈ log,
      (d'.c2s = d.c2s → d'.SamePair d) ∧
        (d'.s2c = d.s2c → d'.SamePair d) ∧
        d'.c2s ≠ d.s2c ∧ d'.s2c ≠ d.c2s

instance (log : List Derivation) (d : Derivation) :
    Decidable (CollisionFree log d) := by
  unfold CollisionFree
  infer_instance

/- A log in which equal keys mean equal origins. -/
structure KeysDistinct (log : List Derivation) : Prop where
  c2s :
    ∀ d ∈ log, ∀ d' ∈ log,
      d.c2s = d'.c2s → d.SamePair d'
  s2c :
    ∀ d ∈ log, ∀ d' ∈ log,
      d.s2c = d'.s2c → d.SamePair d'
  directions :
    ∀ d ∈ log, ∀ d' ∈ log, d.c2s ≠ d'.s2c

theorem keysDistinct_nil : KeysDistinct [] where
  c2s := by simp
  s2c := by simp
  directions := by simp

/- Collision-free derivations keep the log distinct. -/
theorem KeysDistinct.snoc
    {log : List Derivation}
    {d : Derivation}
    (hLog : KeysDistinct log)
    (hFree : CollisionFree log d) :
    KeysDistinct (log ++ [d]) := by
  have hSelf : d.SamePair d := ⟨rfl, rfl⟩
  refine ⟨?_, ?_, ?_⟩
  · intro x hx y hy hEq
    rcases List.mem_append.mp hx with hx | hx <;>
      rcases List.mem_append.mp hy with hy | hy
    · exact hLog.c2s x hx y hy hEq
    · cases List.mem_singleton.mp hy
      exact (hFree.2 x hx).1 hEq
    · cases List.mem_singleton.mp hx
      have hSame := (hFree.2 y hy).1 hEq.symm
      exact ⟨hSame.1.symm, hSame.2.symm⟩
    · cases List.mem_singleton.mp hx
      cases List.mem_singleton.mp hy
      exact hSelf
  · intro x hx y hy hEq
    rcases List.mem_append.mp hx with hx | hx <;>
      rcases List.mem_append.mp hy with hy | hy
    · exact hLog.s2c x hx y hy hEq
    · cases List.mem_singleton.mp hy
      exact (hFree.2 x hx).2.1 hEq
    · cases List.mem_singleton.mp hx
      have hSame := (hFree.2 y hy).2.1 hEq.symm
      exact ⟨hSame.1.symm, hSame.2.symm⟩
    · cases List.mem_singleton.mp hx
      cases List.mem_singleton.mp hy
      exact hSelf
  · intro x hx y hy
    rcases List.mem_append.mp hx with hx | hx <;>
      rcases List.mem_append.mp hy with hy | hy
    · exact hLog.directions x hx y hy
    · cases List.mem_singleton.mp hy
      exact (hFree.2 x hx).2.2.1
    · cases List.mem_singleton.mp hx
      intro hEq
      exact (hFree.2 y hy).2.2.2 hEq.symm
    · cases List.mem_singleton.mp hx
      cases List.mem_singleton.mp hy
      exact hFree.1

end ObscuraProto
