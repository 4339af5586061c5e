import ObscuraProto.IdealPrimitives
import ObscuraProto.PlainSodium
import ObscuraProto.Library.StateMachine

/-
  A client session and a server under an active attacker.

  The attacker holds no private key and decides which bytes
  reach either side, and when.  A server session may answer
  several hellos; `connect` starts a fresh one, as the server
  wrapper does for every hello.  The signatures cover the
  ephemeral keys only, so the sides agree on those, while the
  version fields and the identity flag arrive as the attacker
  left them.

  Main declarations:
    * `HandshakeAgreement.World`, `HandshakeAgreement.Step`
    * `HandshakeAgreement.Inv`
    * `HandshakeAgreement.agreement_attacked`
    * `HandshakeAgreement.ephemeral_agreement`
-/

namespace ObscuraProto

namespace HandshakeAgreement

------------------------------------------------------------
-- Runs
------------------------------------------------------------

/- A successful `server_respond_to_handshake`. -/
structure Answer where
  before : Session
  hello : ClientHello
  reply : ServerHello
  session : Session
deriving DecidableEq

/- A successful `client_finalize_handshake`. -/
structure Completion where
  hello : ServerHello
  session : Session
deriving DecidableEq

/-
  `generated` are the client's ephemeral keys; `signed` and
  `derived` are the records of the ideal primitives.
-/
structure World where
  client : Session
  server : Session
  generated : List Bytes := []
  signed : List IdentitySignature := []
  derived : List Derivation := []
  answers : List Answer := []
  completions : List Completion := []

/- The server's long-term key and its version list. -/
structure ServerConfig where
  signKey : KeyPair
  versions : List Version

/-
  The byte strings are the attacker's choice.  `observe` is
  the signature of another honest client over its own
  ephemeral key, which the attacker has recorded.
-/
inductive Action where
| connect
| initiate (kx : KxKeyPair)
| observe (signature : IdentitySignature)
| respond (data : Bytes) (kx : KxKeyPair)
| finalize (data : Bytes)

variable (S : Sodium) (srv : ServerConfig)

def initiate (kx : KxKeyPair) (w : World) : World :=
  match w.client.clientInitiateHandshake S kx with
  | (.error _, s) =>
      { w with
        client := s
        generated :=
          w.generated ++ [kx.keyPair.publicKey.data] }
  | (.ok hello, s) =>
      { w with
        client := s
        generated :=
          w.generated ++ [kx.keyPair.publicKey.data]
        signed :=
          if hello.hasClientIdentity then
            w.signed ++
              [{ signer := hello.identityPk
                 message := hello.ephemeralPk.data }]
          else
            w.signed }

/- The server session answers the deserialized hello. -/
def respond
    (data : Bytes)
    (kx : KxKeyPair)
    (w : World) : World :=
  match ClientHello.deserialize data with
  | .error _ => w
  | .ok hello =>
      match w.server.serverRespondToHandshake S kx hello with
      | (.error _, s) => { w with server := s }
      | (.ok reply, s) =>
          { w with
            server := s
            derived :=
              match s.sessionKeys with
              | none => w.derived
              | some keys =>
                  w.derived ++
                    [.ofServer hello.ephemeralPk
                      reply.ephemeralPk keys]
            answers :=
              w.answers ++ [⟨w.server, hello, reply, s⟩] }

def finalize (data : Bytes) (w : World) : World :=
  match ServerHello.deserialize data with
  | .error _ => w
  | .ok hello =>
      match w.client.clientFinalizeHandshake S hello with
      | (.error _, s) => { w with client := s }
      | (.ok (), s) =>
          { w with
            client := s
            derived :=
              match s.ephemeralKxKp, s.sessionKeys with
              | some kp, some keys =>
                  w.derived ++
                    [.ofClient kp.publicKey
                      hello.ephemeralPk keys]
              | _, _ => w.derived
            completions := w.completions ++ [⟨hello, s⟩] }

def exec (w : World) : Action → World
| .connect =>
    { w with
      server :=
        Session.new .server srv.signKey srv.versions }
| .initiate kx => initiate S kx w
| .observe signature =>
    { w with signed := w.signed ++ [signature] }
| .respond data kx => respond S data kx w
| .finalize data => finalize S data w

/-
  Fresh ephemeral keys, unforgeable signatures and
  collision-free key derivation.
-/
def Ideal (w : World) : Action → Prop
| .connect => True
| .initiate kx =>
    ∀ signature ∈ w.signed,
      signature.message ≠ kx.keyPair.publicKey.data
| .observe signature =>
    signature.message ∉ w.generated
| .respond data kx =>
    ∀ hello, ClientHello.deserialize data = .ok hello →
      Unforged S w.signed hello ∧
        ∀ keys,
          Crypto.serverComputeSessionKeys S kx.keyPair
              hello.ephemeralPk = .ok keys →
            CollisionFree w.derived
              (.ofServer hello.ephemeralPk
                kx.keyPair.publicKey keys)
| .finalize data =>
    ∀ hello, ServerHello.deserialize data = .ok hello →
      ∀ kp, w.client.ephemeralKxKp = some kp →
        ∀ keys,
          Crypto.clientComputeSessionKeys S kp
              hello.ephemeralPk = .ok keys →
            CollisionFree w.derived
              (.ofClient kp.publicKey hello.ephemeralPk
                keys)

instance (w : World) (act : Action) :
    Decidable (Ideal S w act) := by
  cases act <;> unfold Ideal <;> infer_instance

abbrev Step : World → Action → World → Prop :=
  StateMachine.Guarded (Ideal S) (exec S srv)

/- A client that knows the server's public key. -/
def newClient
    (versions : List Version)
    (identity : Option KeyPair) : Session :=
  let s :=
    Session.new .client ⟨srv.signKey.publicKey, ⟨[]⟩⟩
      versions
  match identity with
  | none => s
  | some kp => (s.setClientIdentityKey kp).2

def start
    (versions : List Version)
    (identity : Option KeyPair) : World where
  client := newClient srv versions identity
  server := Session.new .server srv.signKey srv.versions

------------------------------------------------------------
-- What the Parties Know
------------------------------------------------------------

variable {srv}

/- What the server session knows after an answer. -/
structure AnswerSpec
    (srv : ServerConfig)
    (w : World)
    (a : Answer) : Prop where
  version :
    a.session.selectedVersion = some a.reply.selectedVersion
  negotiated :
    VersionNegotiator.negotiate a.hello.supportedVersions
      srv.versions = some a.reply.selectedVersion
  peer :
    a.session.peerIdentity =
      if a.hello.hasClientIdentity then
        some a.hello.identityPk
      else
        a.before.peerIdentity
  signed :
    a.hello.hasClientIdentity = true →
      { signer := a.hello.identityPk
        message := a.hello.ephemeralPk.data } ∈ w.signed
  derived :
    ∀ keys, a.session.sessionKeys = some keys →
      Derivation.ofServer a.hello.ephemeralPk
        a.reply.ephemeralPk keys ∈ w.derived

/- A completed client session. -/
structure CompletionSpec
    (w : World)
    (c : Completion) : Prop where
  version :
    c.session.selectedVersion = some c.hello.selectedVersion
  supported :
    c.hello.selectedVersion ∈ w.client.supportedVersions
  derived :
    ∀ keys, c.session.sessionKeys = some keys →
      ∃ kp,
        c.session.ephemeralKxKp = some kp ∧
          kp.publicKey.data ∈ w.generated ∧
          Derivation.ofClient kp.publicKey
            c.hello.ephemeralPk keys ∈ w.derived

/-
  Signatures over the client's ephemeral keys are the
  client's own, and derived keys name their origin.
-/
structure Inv
    (srv : ServerConfig)
    (versions : List Version)
    (identity : Option KeyPair)
    (w : World) : Prop where
  role : w.client.role = .client
  serverVersions :
    w.server.supportedVersions = srv.versions
  clientVersions : w.client.supportedVersions = versions
  identity_eq : w.client.clientIdentityKp = identity
  ephemeral :
    ∀ kp, w.client.ephemeralKxKp = some kp →
      kp.publicKey.data ∈ w.generated
  own :
    ∀ signature ∈ w.signed,
      signature.message ∈ w.generated →
        ∃ kp, identity = some kp ∧
          signature.signer = kp.publicKey
  keys : KeysDistinct w.derived
  answers : ∀ a ∈ w.answers, AnswerSpec srv w a
  completions : ∀ c ∈ w.completions, CompletionSpec w c

/- Records only grow. -/
theorem AnswerSpec.mono
    {w w' : World}
    {a : Answer}
    (hSpec : AnswerSpec srv w a)
    (hSigned : w.signed ⊆ w'.signed)
    (hDerived : w.derived ⊆ w'.derived) :
    AnswerSpec srv w' a where
  version := hSpec.version
  negotiated := hSpec.negotiated
  peer := hSpec.peer
  signed := fun hFlag => hSigned (hSpec.signed hFlag)
  derived := fun keys hSome =>
    hDerived (hSpec.derived keys hSome)

theorem CompletionSpec.mono
    {w w' : World}
    {c : Completion}
    (hSpec : CompletionSpec w c)
    (hVersions :
      w'.client.supportedVersions =
        w.client.supportedVersions)
    (hGenerated : w.generated ⊆ w'.generated)
    (hDerived : w.derived ⊆ w'.derived) :
    CompletionSpec w' c where
  version := hSpec.version
  supported := by
    rw [hVersions]
    exact hSpec.supported
  derived := by
    intro keys hSome
    rcases hSpec.derived keys hSome with
      ⟨kp, hKp, hGen, hDer⟩
    exact ⟨kp, hKp, hGenerated hGen, hDerived hDer⟩

------------------------------------------------------------
-- Steps
------------------------------------------------------------

variable
  {S : Sodium}
  {versions : List Version}
  {identity : Option KeyPair}

/-
  A fresh ephemeral key is signed, if at all, with the
  client's identity key.
-/
theorem Inv.initiated
    {w : World}
    (hInv : Inv srv versions identity w)
    (kp : KeyPair)
    (hFresh :
      ∀ signature ∈ w.signed,
        signature.message ≠ kp.publicKey.data)
    {signed : List IdentitySignature}
    (hOld : w.signed ⊆ signed)
    (hNew :
      ∀ signature ∈ signed,
        signature ∈ w.signed ∨
          ∃ kp, identity = some kp ∧
            signature.signer = kp.publicKey) :
    Inv srv versions identity
      { w with
        client := { w.client with ephemeralKxKp := some kp }
        generated := w.generated ++ [kp.publicKey.data]
        signed := signed } where
  role := hInv.role
  serverVersions := hInv.serverVersions
  clientVersions := hInv.clientVersions
  identity_eq := hInv.identity_eq
  ephemeral := by
    intro kp' hKp
    cases hKp
    simp
  own := by
    intro signature hMem hGenerated
    rcases hNew signature hMem with hSigned | hOwn
    · rcases List.mem_append.mp hGenerated with hGen | hGen
      · exact hInv.own signature hSigned hGen
      · exact
          absurd (List.mem_singleton.mp hGen)
            (hFresh signature hSigned)
    · exact hOwn
  keys := hInv.keys
  answers := fun a hMem =>
    (hInv.answers a hMem).mono hOld (fun _ h => h)
  completions := fun c hMem =>
    (hInv.completions c hMem).mono rfl
      (List.subset_append_left _ _) (fun _ h => h)

theorem Inv.initiate
    {w : World}
    (hInv : Inv srv versions identity w)
    (kx : KxKeyPair)
    (hFresh :
      ∀ signature ∈ w.signed,
        signature.message ≠ kx.keyPair.publicKey.data) :
    Inv srv versions identity (initiate S kx w) := by
  have hState :=
    Session.clientInitiateHandshake_state S kx hInv.role
  unfold HandshakeAgreement.initiate
  split
  · next e s hCall =>
      rw [hCall] at hState
      cases hState
      exact
        hInv.initiated kx.keyPair hFresh (fun _ h => h)
          (fun _ h => Or.inl h)
  · next hello s hCall =>
      have hHello :=
        Session.clientInitiateHandshake_ok S hCall
      rw [hCall] at hState
      cases hState
      apply hInv.initiated kx.keyPair hFresh
      · split
        · exact List.subset_append_left _ _
        · exact fun _ h => h
      · intro signature hMem
        split at hMem
        · next hFlag =>
            rcases List.mem_append.mp hMem with hOld | hNew
            · exact Or.inl hOld
            · apply Or.inr
              cases List.mem_singleton.mp hNew
              rw [hHello.2.2.1, hInv.identity_eq] at hFlag
              rcases Option.isSome_iff_exists.mp hFlag with
                ⟨kp, hKp⟩
              exact
                ⟨kp, hKp,
                  (hHello.2.2.2 kp
                    (hInv.identity_eq.trans hKp)).1⟩
        · exact Or.inl hMem

/- Signatures of others are over keys of others. -/
theorem Inv.observe
    {w : World}
    (hInv : Inv srv versions identity w)
    {signature : IdentitySignature}
    (hForeign : signature.message ∉ w.generated) :
    Inv srv versions identity
      { w with signed := w.signed ++ [signature] } where
  role := hInv.role
  serverVersions := hInv.serverVersions
  clientVersions := hInv.clientVersions
  identity_eq := hInv.identity_eq
  ephemeral := hInv.ephemeral
  own := by
    intro signature' hMem hGenerated
    rcases List.mem_append.mp hMem with hOld | hNew
    · exact hInv.own signature' hOld hGenerated
    · cases List.mem_singleton.mp hNew
      exact absurd hGenerated hForeign
  keys := hInv.keys
  answers := fun a hMem =>
    (hInv.answers a hMem).mono
      (List.subset_append_left _ _) (fun _ h => h)
  completions := fun c hMem =>
    (hInv.completions c hMem).mono rfl
      (fun _ h => h) (fun _ h => h)

/- The server session is replaced, the records stay. -/
theorem Inv.withServer
    {w : World}
    (hInv : Inv srv versions identity w)
    {s : Session}
    (hVersions : s.supportedVersions = srv.versions) :
    Inv srv versions identity { w with server := s } where
  role := hInv.role
  serverVersions := hVersions
  clientVersions := hInv.clientVersions
  identity_eq := hInv.identity_eq
  ephemeral := hInv.ephemeral
  own := hInv.own
  keys := hInv.keys
  answers := fun a hMem =>
    (hInv.answers a hMem).mono (fun _ h => h) (fun _ h => h)
  completions := fun c hMem =>
    (hInv.completions c hMem).mono rfl
      (fun _ h => h) (fun _ h => h)

theorem Inv.respond
    {w : World}
    (hInv : Inv srv versions identity w)
    {data : Bytes}
    {kx : KxKeyPair}
    (hIdeal : Ideal S w (.respond data kx)) :
    Inv srv versions identity (respond S data kx w) := by
  unfold HandshakeAgreement.respond
  split
  · exact hInv
  · next hello hHello =>
      have hConfig :=
        (Session.serverRespondToHandshake_config S kx hello
          w.server).2.1
      rw [hInv.serverVersions] at hConfig
      split
      · next e s hCall =>
          rw [hCall] at hConfig
          exact hInv.withServer hConfig
      · next reply s hCall =>
          rw [hCall] at hConfig
          rcases Session.serverRespondToHandshake_ok S hCall
            with ⟨_, version, keys, hNegotiate, hVerify, _,
              hKeys, hVersion, hEphemeral, hState⟩
          rcases hIdeal hello hHello with
            ⟨hUnforged, hCollision⟩
          have hSession : s.sessionKeys = some keys := by
            rw [hState]
            rfl
          simp only [hSession, hEphemeral]
          have hInv' := hInv.withServer hConfig
          refine
            { role := hInv'.role
              serverVersions := hInv'.serverVersions
              clientVersions := hInv'.clientVersions
              identity_eq := hInv'.identity_eq
              ephemeral := hInv'.ephemeral
              own := hInv'.own
              keys := hInv'.keys.snoc (hCollision keys hKeys)
              answers := ?_
              completions := ?_ }
          · intro a hMem
            rcases List.mem_append.mp hMem with hOld | hNew
            · exact
                (hInv'.answers a hOld).mono (fun _ h => h)
                  (List.subset_append_left _ _)
            · cases List.mem_singleton.mp hNew
              rw [hInv.serverVersions, ← hVersion]
                at hNegotiate
              exact
                { version := by
                    rw [hState, hVersion]
                    rfl
                  negotiated := hNegotiate
                  peer := by
                    rw [hState]
                    rfl
                  signed := fun hFlag =>
                    hUnforged hFlag (hVerify hFlag)
                  derived := by
                    intro keys' hSome
                    rw [hSome] at hSession
                    cases hSession
                    simp [hEphemeral] }
          · intro c hMem
            exact
              (hInv'.completions c hMem).mono rfl
                (fun _ h => h) (List.subset_append_left _ _)

theorem Inv.finalize
    {w : World}
    (hInv : Inv srv versions identity w)
    {data : Bytes}
    (hIdeal : Ideal S w (.finalize data)) :
    Inv srv versions identity (finalize S data w) := by
  unfold HandshakeAgreement.finalize
  split
  · exact hInv
  · next hello hHello =>
      rcases Session.clientFinalizeHandshake_config S hello
          w.client with
        ⟨hRole, hVersions, hIdentity, hEphemeral⟩
      split
      · next e s hCall =>
          rw [hCall] at hRole hVersions hIdentity hEphemeral
          exact
            { role := hRole.trans hInv.role
              serverVersions := hInv.serverVersions
              clientVersions :=
                hVersions.trans hInv.clientVersions
              identity_eq := hIdentity.trans hInv.identity_eq
              ephemeral := fun kp hKp =>
                hInv.ephemeral kp (hEphemeral.symm.trans hKp)
              own := hInv.own
              keys := hInv.keys
              answers := fun a hMem =>
                (hInv.answers a hMem).mono
                  (fun _ h => h) (fun _ h => h)
              completions := fun c hMem =>
                (hInv.completions c hMem).mono hVersions
                  (fun _ h => h) (fun _ h => h) }
      · next s hCall =>
          rw [hCall] at hRole hVersions hIdentity hEphemeral
          rcases Session.clientFinalizeHandshake_ok S hCall
            with ⟨_, kp, keys, hKp, hSupported, _, hKeys,
              hState⟩
          have hKp' : s.ephemeralKxKp = some kp :=
            hEphemeral.trans hKp
          have hSession : s.sessionKeys = some keys := by
            rw [hState]
            rfl
          simp only [hKp', hSession]
          have hCollision := hIdeal hello hHello kp hKp keys hKeys
          refine
            { role := hRole.trans hInv.role
              serverVersions := hInv.serverVersions
              clientVersions :=
                hVersions.trans hInv.clientVersions
              identity_eq := hIdentity.trans hInv.identity_eq
              ephemeral := fun kp hKp =>
                hInv.ephemeral kp (hEphemeral.symm.trans hKp)
              own := hInv.own
              keys := hInv.keys.snoc hCollision
              answers := ?_
              completions := ?_ }
          · intro a hMem
            exact
              (hInv.answers a hMem).mono (fun _ h => h)
                (List.subset_append_left _ _)
          · intro c hMem
            rcases List.mem_append.mp hMem with hOld | hNew
            · exact
                (hInv.completions c hOld).mono hVersions
                  (fun _ h => h)
                  (List.subset_append_left _ _)
            · cases List.mem_singleton.mp hNew
              exact
                { version := by
                    rw [hState]
                    rfl
                  supported := by
                    rw [hVersions]
                    exact hSupported
                  derived := by
                    intro keys' hSome
                    rw [hSome] at hSession
                    cases hSession
                    exact
                      ⟨kp, hKp', hInv.ephemeral kp hKp,
                        by simp⟩ }

theorem Inv.step
    {w w' : World}
    {act : Action}
    (hInv : Inv srv versions identity w)
    (hStep : Step S srv w act w') :
    Inv srv versions identity w' := by
  rcases hStep with ⟨hIdeal, rfl⟩
  cases act with
  | connect => exact hInv.withServer rfl
  | initiate kx => exact hInv.initiate kx hIdeal
  | observe signature => exact hInv.observe hIdeal
  | respond data kx => exact hInv.respond hIdeal
  | finalize data => exact hInv.finalize hIdeal

theorem inv_start :
    Inv srv versions identity
      (start srv versions identity) := by
  cases identity with
  | none =>
      constructor <;>
        simp [start, newClient, Session.new,
          keysDistinct_nil]
  | some kp =>
      constructor <;>
        simp [start, newClient, Session.new,
          Session.setClientIdentityKey, keysDistinct_nil]

theorem inv_of_run
    {w : World}
    {acts : List Action}
    (hRun :
      StateMachine.Run (Step S srv)
        (start srv versions identity) acts w) :
    Inv srv versions identity w :=
  hRun.invariant
    (fun _ _ _ hInv hStep => hInv.step hStep) inv_start

------------------------------------------------------------
-- Agreement
------------------------------------------------------------

/- Each side receives under the key the other sends with. -/
def Matching (client server : Session) : Prop :=
  ∃ kc ∈ client.sessionKeys, ∃ ks ∈ server.sessionKeys,
    kc.tx = ks.rx ∧ kc.rx = ks.tx

instance (client server : Session) :
    Decidable (Matching client server) := by
  unfold Matching
  infer_instance

/- Agreement on the version and on the client's identity. -/
def FullAgreement
    (identity : Option KeyPair)
    (client server : Session) : Prop :=
  client.getSelectedVersion = server.getSelectedVersion ∧
    server.getPeerIdentity =
      identity.map KeyPair.publicKey

instance
    (identity : Option KeyPair)
    (client server : Session) :
    Decidable (FullAgreement identity client server) := by
  unfold FullAgreement
  infer_instance

/-
  Matching keys mean the same pair of ephemeral keys.  The
  versions are each side's own choice, equal only if the
  accepted hello names the answered version; an identity that
  the server learns from the hello is the client's.
-/
theorem ephemeral_agreement
    {w : World}
    {acts : List Action}
    (hRun :
      StateMachine.Run (Step S srv)
        (start srv versions identity) acts w)
    {a : Answer}
    {c : Completion}
    (hAnswer : a ∈ w.answers)
    (hCompletion : c ∈ w.completions)
    (hMatching : Matching c.session a.session) :
    ((∃ kp,
        c.session.ephemeralKxKp = some kp ∧
          kp.publicKey = a.hello.ephemeralPk) ∧
      c.hello.ephemeralPk = a.reply.ephemeralPk) ∧
    (c.session.getSelectedVersion =
        some c.hello.selectedVersion ∧
      c.hello.selectedVersion ∈ versions ∧
      a.session.getSelectedVersion =
        VersionNegotiator.negotiate
          a.hello.supportedVersions srv.versions ∧
      (c.session.getSelectedVersion =
          a.session.getSelectedVersion ↔
        c.hello.selectedVersion =
          a.reply.selectedVersion)) ∧
    (a.hello.hasClientIdentity = true →
      ∃ kp,
        identity = some kp ∧
          a.session.getPeerIdentity = some kp.publicKey) ∧
    (a.hello.hasClientIdentity = false →
      a.session.getPeerIdentity =
        a.before.getPeerIdentity) := by
  have hInv := inv_of_run hRun
  have hServer := hInv.answers a hAnswer
  have hClient := hInv.completions c hCompletion
  rcases hMatching with ⟨kc, hKc, ks, hKs, hTx, _⟩
  rcases hClient.derived kc hKc with
    ⟨kp, hKp, hGenerated, hDerived⟩
  have hPair :=
    hInv.keys.c2s _ hDerived _ (hServer.derived ks hKs) hTx
  have hSameKey : kp.publicKey = a.hello.ephemeralPk :=
    hPair.1
  refine ⟨⟨⟨kp, hKp, hSameKey⟩, hPair.2⟩, ?_, ?_, ?_⟩
  · refine ⟨hClient.version, ?_, ?_, ?_⟩
    · rw [← hInv.clientVersions]
      exact hClient.supported
    · rw [hServer.negotiated]
      exact hServer.version
    · unfold Session.getSelectedVersion
      rw [hClient.version, hServer.version]
      exact Option.some_inj
  · intro hFlag
    rw [hSameKey] at hGenerated
    rcases hInv.own _ (hServer.signed hFlag) hGenerated with
      ⟨identityKp, hIdentity, hSigner⟩
    refine ⟨identityKp, hIdentity, ?_⟩
    unfold Session.getPeerIdentity
    rw [hServer.peer, if_pos hFlag, ← hSigner]
  · intro hFlag
    unfold Session.getPeerIdentity
    rw [hServer.peer, if_neg (by simp [hFlag])]

------------------------------------------------------------
-- An Attacked Handshake
------------------------------------------------------------

open PlainSodium

def sampleServer : ServerConfig where
  signKey := sampleKeyPair 6
  versions := supportedVersions

/- The client's hello without its identity. -/
def strippedHello : ClientHello where
  supportedVersions := supportedVersions
  ephemeralPk := ⟨List.replicate 32 1⟩

/- The server's reply with the older version written in. -/
def downgradedHello : ServerHello where
  selectedVersion := Versions.v1_0
  ephemeralPk := ⟨List.replicate 32 2⟩
  signature :=
    ⟨PlainSodium.signature (List.replicate 32 6)
      (List.replicate 32 2)⟩

def attack : List Action :=
  [ .initiate (sampleKx 1),
    .respond strippedHello.serialize (sampleKx 2),
    .finalize downgradedHello.serialize ]

def attackStart : World :=
  start sampleServer supportedVersions
    (some (sampleKeyPair 5))

def attacked : World :=
  attack.foldl (exec plainSodium sampleServer) attackStart

theorem run_attack :
    StateMachine.Run (Step plainSodium sampleServer)
      attackStart attack attacked :=
  StateMachine.run_of_allowed _ _ _ _ (by decide)

/-
  Both sides succeed with matching keys, on different
  versions and with the client's identity lost.
-/
theorem agreement_attacked :
    StateMachine.Run (Step plainSodium sampleServer)
        attackStart attack attacked ∧
      ∃ a ∈ attacked.answers, ∃ c ∈ attacked.completions,
        Matching c.session a.session ∧
          ¬ FullAgreement (some (sampleKeyPair 5))
            c.session a.session :=
  ⟨run_attack, by decide⟩

theorem ephemeral_agreement_attack :
    ∃ a ∈ attacked.answers, ∃ c ∈ attacked.completions,
      c.hello.ephemeralPk = a.reply.ephemeralPk ∧
        c.hello.selectedVersion ∈ supportedVersions ∧
        a.session.getPeerIdentity =
          a.before.getPeerIdentity := by
  have hExists :
      ∃ a ∈ attacked.answers, ∃ c ∈ attacked.completions,
        Matching c.session a.session ∧
          a.hello.hasClientIdentity = false := by
    decide
  rcases hExists with
    ⟨a, hAnswer, c, hCompletion, hMatching, hFlag⟩
  have hAgree :=
    ephemeral_agreement run_attack hAnswer hCompletion
      hMatching
  exact
    ⟨a, hAnswer, c, hCompletion, hAgree.1.2,
      hAgree.2.1.2.1, hAgree.2.2.2 hFlag⟩

end HandshakeAgreement

end ObscuraProto
