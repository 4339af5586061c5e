import ObscuraProto.IdealPrimitives
import ObscuraProto.NamespaceSeparation

/-
  Client sessions and a server on an open network.

  Any number of client sessions are used in any order by
  their owners.  Every message that is handed to the server
  or to a client is the choice of the network, which may
  have recorded, changed, repeated or made it up; the threads
  of the server run in any interleaving.

  Key definitions include:
    * `NetworkAttack.Initiation`, `NetworkAttack.Encryption`
    * `NetworkAttack.Exchange`, `NetworkAttack.Delivery`
    * `NetworkAttack.World`, `NetworkAttack.Action`
    * `NetworkAttack.exec`, `NetworkAttack.offered`

  Key theorems include:
    * `NetworkAttack.server_run`
-/

namespace ObscuraProto

namespace NetworkAttack

open WsServer Threads
open NamespaceSeparation (Labels)

variable (S : Sodium)

------------------------------------------------------------
-- What Is Recorded
------------------------------------------------------------

/- A `client_initiate_handshake` and the identity it used. -/
structure Initiation where
  client : Nat
  identity : Option PublicKey
  ephemeralPk : PublicKey
deriving DecidableEq

/- An `encrypt_payload` that returned a packet. -/
structure Encryption where
  client : Nat
  record : Sealed
deriving DecidableEq

/- The keys that a hello and the answer to it lead to. -/
structure Exchange where
  hdl : Hdl
  hello : ClientHello
  derivation : Derivation

/-
  A payload on its way to the authenticated handlers, with
  the session as it is when it has accepted the packet.
-/
structure Delivery where
  session : Session
  packet : Bytes
  payload : Payload

/-
  The keys in `derived` are those of the client sessions, and
  `replies` holds the keys and packets of the server's sends.
-/
structure World where
  clients : List Session := []
  initiations : List Initiation := []
  derived : List Derivation := []
  encryptions : List Encryption := []
  server : ServerPool
  labels : Labels := []
  deliveries : List Delivery := []
  replies : List (Bytes × Bytes) := []
  hellos : List (Hdl × ClientHello) := []

------------------------------------------------------------
-- Steps of the Clients
------------------------------------------------------------

def creates
    (serverPk : PublicKey)
    (versions : List Version)
    (w : World) : World :=
  { w with
    clients :=
      w.clients ++
        [Session.new .client ⟨serverPk, ⟨[]⟩⟩ versions] }

def identifies
    (i : Nat)
    (identityKp : KeyPair)
    (w : World) : World :=
  match w.clients[i]? with
  | none => w
  | some s =>
      { w with
        clients :=
          w.clients.set i
            (s.setClientIdentityKey identityKp).2 }

def initiates
    (i : Nat)
    (kx : KxKeyPair)
    (w : World) : World :=
  match w.clients[i]? with
  | none => w
  | some s =>
      { w with
        clients :=
          w.clients.set i (s.clientInitiateHandshake S kx).2
        initiations :=
          w.initiations ++
            [{ client := i
               identity :=
                 s.clientIdentityKp.map KeyPair.publicKey
               ephemeralPk := kx.keyPair.publicKey }] }

/- The keys that a finalization has derived, if it has. -/
def finalization
    (serverHello : ServerHello)
    (s : Session) : List Derivation :=
  match s.clientFinalizeHandshake S serverHello with
  | (.error _, _) => []
  | (.ok (), s') =>
      match s.ephemeralKxKp, s'.sessionKeys with
      | some kp, some keys =>
          [.ofClient kp.publicKey serverHello.ephemeralPk keys]
      | _, _ => []

def finalizes
    (i : Nat)
    (serverHello : ServerHello)
    (w : World) : World :=
  match w.clients[i]? with
  | none => w
  | some s =>
      { w with
        clients :=
          w.clients.set i
            (s.clientFinalizeHandshake S serverHello).2
        derived := w.derived ++ finalization S serverHello s }

def encrypts
    (i : Nat)
    (nonce : Nonce)
    (payload : Payload)
    (w : World) : World :=
  match w.clients[i]? with
  | none => w
  | some s =>
      let (result, s') := s.encryptPayload S nonce payload
      { w with
        clients := w.clients.set i s'
        encryptions :=
          match result with
          | .error _ => w.encryptions
          | .ok packet =>
              w.encryptions ++
                [{ client := i
                   record :=
                     { key := s.txKey
                       counter := s'.sendCounter
                       payload := payload
                       packet := packet } }] }

def decrypts
    (i : Nat)
    (packet : Bytes)
    (w : World) : World :=
  match w.clients[i]? with
  | none => w
  | some s =>
      { w with
        clients :=
          w.clients.set i (s.decryptPacket S packet).2 }

------------------------------------------------------------
-- Steps of the Server
------------------------------------------------------------

/- The message that the io thread is about to receive. -/
def arriving (p : ServerPool) :
    Option (IoInput × Hdl × Frame) :=
  match p.events with
  | some
      { call := ⟨.message input hdl frame, _⟩
        trace := []
        code := .step _ _ _ } =>
      some (input, hdl, frame)
  | _ => none

/- What the next step of the io thread lets through. -/
def delivered (p : ServerPool) : List Delivery :=
  match arriving p with
  | none => []
  | some (input, hdl, frame) =>
      let o := (receive S input hdl frame.payload).run p.shared
      match o.result, o.state.sessionTable.sessions[hdl]? with
      | .ok (.decrypted true payload), some state =>
          [{ session := state.session
             packet := frame.payload
             payload := payload }]
      | _, _ => []

/- The hello in some data, if it proves its identity. -/
def identifiedHello (data : Bytes) : Option ClientHello :=
  match ClientHello.deserialize data with
  | .error _ => none
  | .ok hello =>
      if hello.hasClientIdentity &&
          Crypto.verify S hello.identitySig
            hello.ephemeralPk.data hello.identityPk then
        some hello
      else
        none

/-
  Such a hello that the next step of the io thread takes up,
  since the connection has no session.
-/
def taken (p : ServerPool) : Option (Hdl × ClientHello) :=
  match arriving p with
  | none => none
  | some (input, hdl, frame) =>
      match
        ((receive S input hdl frame.payload).run
          p.shared).result with
      | .ok .unknown =>
          (identifiedHello S frame.payload).map (hdl, ·)
      | _ => none

def takenBy (p : ServerPool) :
    Label ServerCall IoEvent → List (Hdl × ClientHello)
| .stepEvent => (taken S p).toList
| _ => []

/- The key of the connection that a packet is sent on. -/
def sentUnder (w : WsServer) :
    ServerEffect → List (Bytes × Bytes)
| .transmit hdl packet =>
    [true, false].filterMap (fun isAuth =>
      (w.sessionTable.table isAuth)[hdl]?.map
        (fun state => (state.session.txKey, packet)))
| _ => []

def serves
    (l : Label ServerCall IoEvent)
    (w : World) : World :=
  { w with
    server := w.server.exec (poolProgram S) l
    labels := w.labels ++ [l]
    deliveries :=
      match l with
      | .stepEvent => w.deliveries ++ delivered S w.server
      | _ => w.deliveries
    replies :=
      w.replies ++
        (w.server.nextEffects l).flatMap
          (sentUnder w.server.shared)
    hellos := w.hellos ++ takenBy S w.server l }

------------------------------------------------------------
-- Runs
------------------------------------------------------------

inductive Action where
| creates (serverPk : PublicKey) (versions : List Version)
| identifies (i : Nat) (identityKp : KeyPair)
| initiates (i : Nat) (kx : KxKeyPair)
| finalizes (i : Nat) (serverHello : ServerHello)
| encrypts (i : Nat) (nonce : Nonce) (payload : Payload)
| decrypts (i : Nat) (packet : Bytes)
| serves (l : Label ServerCall IoEvent)

def exec (w : World) : Action → World
| .creates serverPk versions => creates serverPk versions w
| .identifies i identityKp => identifies i identityKp w
| .initiates i kx => initiates S i kx w
| .finalizes i serverHello => finalizes S i serverHello w
| .encrypts i nonce payload => encrypts S i nonce payload w
| .decrypts i packet => decrypts S i packet w
| .serves l => serves S l w

def start
    (serverSignKey : KeyPair)
    (config : Config)
    (hasOwner : Bool) : World where
  server := pool (.new serverSignKey config hasOwner)

------------------------------------------------------------
-- Identified Hellos
------------------------------------------------------------

/- What is handed over as one, and on which connection. -/
def offered :
    Label ServerCall IoEvent → Option (Hdl × ClientHello)
| .event ⟨.message _ hdl frame, _⟩ =>
    (identifiedHello S frame.payload).map (hdl, ·)
| _ => none

/- An ephemeral key that no client session has had. -/
def FreshEphemeral (kx : KxKeyPair) (w : World) : Prop :=
  ∀ initiation ∈ w.initiations,
    initiation.ephemeralPk ≠ kx.keyPair.publicKey

instance (kx : KxKeyPair) (w : World) :
    Decidable (FreshEphemeral kx w) :=
  inferInstanceAs
    (Decidable
      (∀ initiation ∈ w.initiations,
        initiation.ephemeralPk ≠ kx.keyPair.publicKey))

/-
  The private key of `pk` is with sessions that use it for
  their own ephemeral keys only.
-/
def HonestHello
    (pk : PublicKey)
    (l : Label ServerCall IoEvent)
    (w : World) : Prop :=
  ∀ offer, offered S l = some offer →
    offer.2.identityPk = pk →
      ∃ initiation ∈ w.initiations,
        initiation.identity = some pk ∧
          initiation.ephemeralPk = offer.2.ephemeralPk

instance
    (pk : PublicKey)
    (l : Label ServerCall IoEvent)
    (w : World) :
    Decidable (HonestHello S pk l w) :=
  decidableForallSome _ _

------------------------------------------------------------
-- The Server in a Run
------------------------------------------------------------

/- Only the steps of the server touch its state. -/
theorem exec_server
    {act : Action}
    (hOther : ∀ l, act ≠ .serves l)
    (w : World) :
    (exec S w act).server = w.server ∧
      (exec S w act).labels = w.labels := by
  cases act with
  | serves l => exact absurd rfl (hOther l)
  | creates serverPk versions => exact ⟨rfl, rfl⟩
  | identifies i identityKp =>
      simp only [exec, identifies]
      split <;> exact ⟨rfl, rfl⟩
  | initiates i kx =>
      simp only [exec, initiates]
      split <;> exact ⟨rfl, rfl⟩
  | finalizes i serverHello =>
      simp only [exec, finalizes]
      split <;> exact ⟨rfl, rfl⟩
  | encrypts i nonce payload =>
      simp only [exec, encrypts]
      split <;> exact ⟨rfl, rfl⟩
  | decrypts i packet =>
      simp only [exec, decrypts]
      split <;> exact ⟨rfl, rfl⟩

theorem exec_hellos
    {act : Action}
    (hOther : ∀ l, act ≠ .serves l)
    (w : World) :
    (exec S w act).hellos = w.hellos := by
  cases act with
  | serves l => exact absurd rfl (hOther l)
  | creates serverPk versions => rfl
  | identifies i identityKp =>
      simp only [exec, identifies]
      split <;> rfl
  | initiates i kx =>
      simp only [exec, initiates]
      split <;> rfl
  | finalizes i serverHello =>
      simp only [exec, finalizes]
      split <;> rfl
  | encrypts i nonce payload =>
      simp only [exec, encrypts]
      split <;> rfl
  | decrypts i packet =>
      simp only [exec, decrypts]
      split <;> rfl

/- What was initiated stays on record. -/
theorem initiations_exec (w : World) (act : Action) :
    w.initiations <+: (exec S w act).initiations := by
  cases act with
  | serves l => exact List.prefix_refl _
  | creates serverPk versions => exact List.prefix_refl _
  | identifies i identityKp =>
      simp only [exec, identifies]
      split <;> exact List.prefix_refl _
  | initiates i kx =>
      simp only [exec, initiates]
      split
      · exact List.prefix_refl _
      · exact List.prefix_append _ _
  | finalizes i serverHello =>
      simp only [exec, finalizes]
      split <;> exact List.prefix_refl _
  | encrypts i nonce payload =>
      simp only [exec, encrypts]
      split <;> exact List.prefix_refl _
  | decrypts i packet =>
      simp only [exec, decrypts]
      split <;> exact List.prefix_refl _

variable {S}

theorem HonestHello.mono
    {pk : PublicKey}
    {l : Label ServerCall IoEvent}
    {w w' : World}
    (hHonest : HonestHello S pk l w)
    (hMore : w.initiations <+: w'.initiations) :
    HonestHello S pk l w' := by
  intro offer hOffer hPk
  rcases hHonest offer hOffer hPk with
    ⟨initiation, hMem, hInitiation⟩
  exact ⟨initiation, hMore.subset hMem, hInitiation⟩

/- A run of all parties is a run of the server's threads. -/
theorem server_run
    {ok : World → Action → Prop}
    (hAllowed :
      ∀ w l, ok w (.serves l) → w.server.allowed l = true)
    {serverSignKey : KeyPair}
    {config : Config}
    {hasOwner : Bool}
    {acts : List Action}
    {w : World}
    (hRun :
      StateMachine.Run (StateMachine.Guarded ok (exec S))
        (start serverSignKey config hasOwner) acts w) :
    StateMachine.Run (PoolStep S)
      (pool (.new serverSignKey config hasOwner)) w.labels
        w.server := by
  refine
    hRun.invariant
      (P := fun w =>
        StateMachine.Run (PoolStep S)
          (pool (.new serverSignKey config hasOwner)) w.labels
            w.server)
      ?_ (.nil _)
  rintro v act u hBefore ⟨hOk, hNext⟩
  subst hNext
  by_cases hServes : ∃ l, act = .serves l
  · rcases hServes with ⟨l, hServes⟩
    subst hServes
    exact hBefore.snoc ⟨hAllowed _ _ hOk, rfl⟩
  · rcases exec_server S
        (fun l hSame => hServes ⟨l, hSame⟩) v with
      ⟨hServer, hLabels⟩
    rw [hServer, hLabels]
    exact hBefore

end NetworkAttack

end ObscuraProto
