import ObscuraProto.PlainSodium
import ObscuraProto.Session

/-
  An undisturbed handshake over the wire.

  Two fresh sessions exchange the two handshake messages as
  byte strings.  Both sides complete exactly when their
  version lists meet, and then they agree on the version, on
  crossed keys and on the identity of the client.

  Key definitions include:
    * `Sodium.SignsFor`, `Sodium.Crossed`
    * `HonestHandshake.exchange`

  Key theorems include:
    * `Session.clientInitiateHandshake_succeeds`
    * `Session.serverRespondToHandshake_succeeds`
    * `Session.clientFinalizeHandshake_succeeds`
    * `HonestHandshake.honest_handshake`
-/

namespace ObscuraProto

------------------------------------------------------------
-- Correct Primitives
------------------------------------------------------------

namespace Sodium

/- The keys are a signing pair, and `verify` accepts `sign`. -/
structure SignsFor (S : Sodium) (kp : KeyPair) : Prop where
  public_size : kp.publicKey.data.length = 32
  private_size : kp.privateKey.data.length = 64
  accepts :
    ∀ message,
      S.signVerifyDetached
          (S.signDetached message kp.privateKey.data) message
          kp.publicKey.data = true

/- The two sides of a key exchange give crossed keys. -/
def Crossed (S : Sodium) (client server : KxKeyPair) : Prop :=
  ∃ clientKeys serverKeys,
    S.kxClientSessionKeys client.keyPair.publicKey.data
        client.keyPair.privateKey.data
        server.keyPair.publicKey.data = some clientKeys ∧
      S.kxServerSessionKeys server.keyPair.publicKey.data
          server.keyPair.privateKey.data
          client.keyPair.publicKey.data =
        some serverKeys ∧
      clientKeys.tx = serverKeys.rx ∧
      clientKeys.rx = serverKeys.tx

end Sodium

namespace Crypto

variable {S : Sodium}

theorem sign_of_signsFor
    {kp : KeyPair}
    (hSigns : S.SignsFor kp)
    (message : Bytes) :
    sign S message kp.privateKey =
      .ok ⟨S.signDetached message kp.privateKey.data⟩ := by
  simp [sign, hSigns.private_size]

theorem verify_of_signsFor
    {kp : KeyPair}
    (hSigns : S.SignsFor kp)
    (message : Bytes) :
    verify S ⟨S.signDetached message kp.privateKey.data⟩
      message kp.publicKey = true := by
  simp [verify, S.length_signDetached, hSigns.public_size,
    hSigns.accepts]

theorem clientComputeSessionKeys_eq
    {kx : KxKeyPair}
    {serverEphPk : PublicKey}
    {keys : SessionKeys}
    (hSize : serverEphPk.data.length = 32)
    (hKeys :
      S.kxClientSessionKeys kx.keyPair.publicKey.data
        kx.keyPair.privateKey.data serverEphPk.data =
          some keys) :
    clientComputeSessionKeys S kx.keyPair serverEphPk =
      .ok keys := by
  simp [clientComputeSessionKeys, kx.public_size,
    kx.private_size, hSize, hKeys]

theorem serverComputeSessionKeys_eq
    {kx : KxKeyPair}
    {clientEphPk : PublicKey}
    {keys : SessionKeys}
    (hSize : clientEphPk.data.length = 32)
    (hKeys :
      S.kxServerSessionKeys kx.keyPair.publicKey.data
        kx.keyPair.privateKey.data clientEphPk.data =
          some keys) :
    serverComputeSessionKeys S kx.keyPair clientEphPk =
      .ok keys := by
  simp [serverComputeSessionKeys, kx.public_size,
    kx.private_size, hSize, hKeys]

end Crypto

------------------------------------------------------------
-- Each Method on its Honest Input
------------------------------------------------------------

namespace Session

variable (S : Sodium)

/- The identity part of a hello. -/
def identifiedHello
    (versions : List Version)
    (ephemeralPk : PublicKey) :
    Option KeyPair → ClientHello
| none =>
    { supportedVersions := versions
      ephemeralPk := ephemeralPk }
| some kp =>
    { supportedVersions := versions
      ephemeralPk := ephemeralPk
      hasClientIdentity := true
      identityPk := kp.publicKey
      identitySig :=
        ⟨S.signDetached ephemeralPk.data
          kp.privateKey.data⟩ }

variable {S}

theorem clientInitiateHandshake_succeeds
    (kx : KxKeyPair)
    {s : Session}
    {versions : List Version}
    {identity : Option KeyPair}
    (hRole : s.role = .client)
    (hVersions : s.supportedVersions = versions)
    (hKp : s.clientIdentityKp = identity)
    (hIdentity :
      ∀ kp, identity = some kp → S.SignsFor kp) :
    s.clientInitiateHandshake S kx =
      (.ok
        (identifiedHello S versions kx.keyPair.publicKey
          identity),
        { s with ephemeralKxKp := some kx.keyPair }) := by
  simp only [clientInitiateHandshake, hRole, ne_eq,
    not_true, if_false, Crypto.generateKxKeypair, hKp,
    hVersions]
  cases identity with
  | none => rfl
  | some kp =>
      have hSign :=
        Crypto.sign_of_signsFor (hIdentity kp rfl)
          kx.keyPair.publicKey.data
      simp only [hSign, identifiedHello]

/- The hello of a session can be read back. -/
theorem identifiedHello_wellSized
    {versions : List Version}
    {identity : Option KeyPair}
    (hCount : versions.length ≤ 65535)
    (kx : KxKeyPair)
    (hIdentity :
      ∀ kp, identity = some kp → S.SignsFor kp) :
    (identifiedHello S versions kx.keyPair.publicKey
      identity).WellSized := by
  cases identity with
  | none =>
      exact
        { count := hCount
          ephemeral := kx.public_size
          identity := by simp [identifiedHello]
          anonymous := by simp [identifiedHello] }
  | some kp =>
      have hSigns := hIdentity kp rfl
      exact
        { count := hCount
          ephemeral := kx.public_size
          identity := fun _ =>
            ⟨hSigns.public_size,
              S.length_signDetached _ _⟩
          anonymous := by simp [identifiedHello] }

/- The signature in the hello is valid. -/
theorem identifiedHello_verified
    {versions : List Version}
    {identity : Option KeyPair}
    (ephemeralPk : PublicKey)
    (hIdentity :
      ∀ kp, identity = some kp → S.SignsFor kp) :
    let hello :=
      identifiedHello S versions ephemeralPk identity
    hello.hasClientIdentity = true →
      Crypto.verify S hello.identitySig
        hello.ephemeralPk.data hello.identityPk = true := by
  intro hello hFlag
  cases identity with
  | none => simp [hello, identifiedHello] at hFlag
  | some kp =>
      exact Crypto.verify_of_signsFor (hIdentity kp rfl) _

theorem serverRespondToHandshake_succeeds
    {kx : KxKeyPair}
    {hello : ClientHello}
    {s : Session}
    {version : Version}
    {keys : SessionKeys}
    (hRole : s.role = .server)
    (hVersion :
      VersionNegotiator.negotiate hello.supportedVersions
        s.supportedVersions = some version)
    (hVerified :
      hello.hasClientIdentity = true →
        Crypto.verify S hello.identitySig
          hello.ephemeralPk.data hello.identityPk = true)
    (hSigns : S.SignsFor s.serverSignKey)
    (hKeys :
      Crypto.serverComputeSessionKeys S kx.keyPair
        hello.ephemeralPk = .ok keys) :
    s.serverRespondToHandshake S kx hello =
      (.ok
        { selectedVersion := version
          ephemeralPk := kx.keyPair.publicKey
          signature :=
            ⟨S.signDetached kx.keyPair.publicKey.data
              s.serverSignKey.privateKey.data⟩ },
        s.established version
          (if hello.hasClientIdentity then
            some hello.identityPk
          else
            s.peerIdentity)
          kx.keyPair keys) := by
  have hNotRefused :
      (hello.hasClientIdentity &&
        !Crypto.verify S hello.identitySig
          hello.ephemeralPk.data hello.identityPk) =
        false := by
    cases hFlag : hello.hasClientIdentity with
    | false => rfl
    | true => simp [hVerified hFlag]
  have hSign :=
    Crypto.sign_of_signsFor hSigns kx.keyPair.publicKey.data
  simp [serverRespondToHandshake, hRole, hVersion,
    hNotRefused, Crypto.generateKxKeypair, hSign, hKeys,
    established]

theorem clientFinalizeHandshake_succeeds
    {kp : KeyPair}
    {hello : ServerHello}
    {s : Session}
    {keys : SessionKeys}
    (hRole : s.role = .client)
    (hKp : s.ephemeralKxKp = some kp)
    (hVersion : hello.selectedVersion ∈ s.supportedVersions)
    (hVerified :
      Crypto.verify S hello.signature hello.ephemeralPk.data
        s.serverSignKey.publicKey = true)
    (hKeys :
      Crypto.clientComputeSessionKeys S kp
        hello.ephemeralPk = .ok keys) :
    s.clientFinalizeHandshake S hello =
      (.ok (),
        s.established hello.selectedVersion s.peerIdentity
          kp keys) := by
  have hListed :
      s.supportedVersions.any
        (hello.selectedVersion == ·) = true := by
    simpa using hVersion
  simp [clientFinalizeHandshake, hRole, hKp, hListed,
    hVerified, hKeys, established]

end Session

------------------------------------------------------------
-- The Exchange
------------------------------------------------------------

namespace HonestHandshake

/- Both sessions at the end, and what was thrown by whom. -/
structure Outcome where
  client : Session
  server : Session
  thrown : Option (Role × Exception) := none

variable (S : Sodium)

def finish
    (client server : Session)
    (serverHello : Bytes) : Outcome :=
  match ServerHello.deserialize serverHello with
  | .error e => ⟨client, server, some (.client, e)⟩
  | .ok hello =>
      match client.clientFinalizeHandshake S hello with
      | (.error e, client) =>
          ⟨client, server, some (.client, e)⟩
      | (.ok (), client) => { client, server }

def answer
    (kx : KxKeyPair)
    (client server : Session)
    (clientHello : Bytes) : Outcome :=
  match ClientHello.deserialize clientHello with
  | .error e => ⟨client, server, some (.server, e)⟩
  | .ok hello =>
      match server.serverRespondToHandshake S kx hello with
      | (.error e, server) =>
          ⟨client, server, some (.server, e)⟩
      | (.ok reply, server) =>
          finish S client server reply.serialize

/- The whole handshake, with both messages as bytes. -/
def exchange
    (clientKx serverKx : KxKeyPair)
    (client server : Session) : Outcome :=
  match client.clientInitiateHandshake S clientKx with
  | (.error e, client) =>
      ⟨client, server, some (.client, e)⟩
  | (.ok hello, client) =>
      answer S serverKx client server hello.serialize

/- A client, with its identity set if there is one. -/
def freshClient
    (serverKey : KeyPair)
    (versions : List Version)
    (identity : Option KeyPair) : Session :=
  let s := Session.new .client serverKey versions
  match identity with
  | none => s
  | some kp => (s.setClientIdentityKey kp).2

def freshServer
    (signKey : KeyPair)
    (versions : List Version) : Session :=
  Session.new .server signKey versions

theorem freshClient_role
    (serverKey : KeyPair)
    (versions : List Version)
    (identity : Option KeyPair) :
    (freshClient serverKey versions identity).role =
      .client := by
  cases identity <;> rfl

theorem freshClient_versions
    (serverKey : KeyPair)
    (versions : List Version)
    (identity : Option KeyPair) :
    (freshClient serverKey versions
      identity).supportedVersions = versions := by
  cases identity <;> rfl

theorem freshClient_identity
    (serverKey : KeyPair)
    (versions : List Version)
    (identity : Option KeyPair) :
    (freshClient serverKey versions
      identity).clientIdentityKp = identity := by
  cases identity <;> rfl

theorem freshClient_serverKey
    (serverKey : KeyPair)
    (versions : List Version)
    (identity : Option KeyPair) :
    (freshClient serverKey versions
      identity).serverSignKey = serverKey := by
  cases identity <;> rfl

theorem freshClient_incomplete
    (serverKey : KeyPair)
    (versions : List Version)
    (identity : Option KeyPair) :
    (freshClient serverKey versions
      identity).isHandshakeComplete = false := by
  cases identity <;> rfl

------------------------------------------------------------
-- Agreement
------------------------------------------------------------

/- The server answers nothing when the lists do not meet. -/
theorem respond_refuses
    (kx : KxKeyPair)
    (signKey : KeyPair)
    {hello : ClientHello}
    {versions : List Version}
    (hNone :
      VersionNegotiator.negotiate hello.supportedVersions
        versions = none) :
    (freshServer signKey versions).serverRespondToHandshake S
        kx hello =
      (.error (.runtimeError
        "Client and server have no supported protocol versions in common."),
        freshServer signKey versions) := by
  simp [Session.serverRespondToHandshake, freshServer,
    Session.new, hNone]

/- What both sides hold after a handshake that succeeds. -/
structure Agreed
    (version : Option Version)
    (identity : Option PublicKey)
    (o : Outcome) : Prop where
  clientComplete : o.client.isHandshakeComplete = true
  serverComplete : o.server.isHandshakeComplete = true
  clientVersion : o.client.getSelectedVersion = version
  serverVersion : o.server.getSelectedVersion = version
  keys :
    ∃ clientKeys serverKeys,
      o.client.sessionKeys = some clientKeys ∧
        o.server.sessionKeys = some serverKeys ∧
        clientKeys.tx = serverKeys.rx ∧
        clientKeys.rx = serverKeys.tx
  peer : o.server.getPeerIdentity = identity

section

variable
  {S : Sodium}
  {clientVersions serverVersions : List Version}
  {signKey serverKey : KeyPair}
  {identity : Option KeyPair}
  {clientKx serverKx : KxKeyPair}

/- The hello reaches the server as it was sent. -/
theorem exchange_eq
    (hCount : clientVersions.length ≤ 65535)
    (hIdentity :
      ∀ kp, identity = some kp → S.SignsFor kp)
    (server : Session) :
    exchange S clientKx serverKx
        (freshClient serverKey clientVersions identity)
        server =
      let hello :=
        Session.identifiedHello S clientVersions
          clientKx.keyPair.publicKey identity
      let client :=
        { freshClient serverKey clientVersions identity with
          ephemeralKxKp := some clientKx.keyPair }
      match server.serverRespondToHandshake S serverKx
          hello with
      | (.error e, server) =>
          ⟨client, server, some (.server, e)⟩
      | (.ok reply, server) =>
          finish S client server reply.serialize := by
  have hInitiate :=
    Session.clientInitiateHandshake_succeeds clientKx
      (freshClient_role serverKey clientVersions identity)
      (freshClient_versions _ _ _)
      (freshClient_identity _ _ _) hIdentity
  have hSized :=
    Session.identifiedHello_wellSized hCount clientKx
      hIdentity
  simp only [exchange, hInitiate, answer,
    ClientHello.deserialize_serialize hSized]

theorem exchange_refused
    (signKey serverKey : KeyPair)
    (clientKx serverKx : KxKeyPair)
    (hCount : clientVersions.length ≤ 65535)
    (hIdentity :
      ∀ kp, identity = some kp → S.SignsFor kp)
    (hNone :
      VersionNegotiator.negotiate clientVersions
        serverVersions = none) :
    let o :=
      exchange S clientKx serverKx
        (freshClient serverKey clientVersions identity)
        (freshServer signKey serverVersions)
    (∃ e, o.thrown = some (.server, e)) ∧
      o.client.isHandshakeComplete = false ∧
      o.server.isHandshakeComplete = false := by
  have hVersions :
      (Session.identifiedHello S clientVersions
        clientKx.keyPair.publicKey
        identity).supportedVersions = clientVersions := by
    cases identity <;> rfl
  rw [← hVersions] at hNone
  have hRefuse := respond_refuses S serverKx signKey hNone
  simp only [exchange_eq hCount hIdentity, hRefuse]
  exact
    ⟨⟨_, rfl⟩,
      freshClient_incomplete serverKey clientVersions
        identity,
      rfl⟩

theorem exchange_agreed
    {version : Version}
    (hCount : clientVersions.length ≤ 65535)
    (hSigns : S.SignsFor signKey)
    (hKnown : serverKey.publicKey = signKey.publicKey)
    (hIdentity :
      ∀ kp, identity = some kp → S.SignsFor kp)
    (hCrossed : S.Crossed clientKx serverKx)
    (hVersion :
      VersionNegotiator.negotiate clientVersions
        serverVersions = some version) :
    let o :=
      exchange S clientKx serverKx
        (freshClient serverKey clientVersions identity)
        (freshServer signKey serverVersions)
    o.thrown = none ∧
      Agreed (some version)
        (identity.map KeyPair.publicKey) o := by
  rcases hCrossed with
    ⟨clientKeys, serverKeys, hClientKeys, hServerKeys,
      hForward, hBackward⟩
  have hVersions :
      (Session.identifiedHello S clientVersions
        clientKx.keyPair.publicKey
        identity).supportedVersions = clientVersions := by
    cases identity <;> rfl
  have hEphemeral :
      (Session.identifiedHello S clientVersions
        clientKx.keyPair.publicKey identity).ephemeralPk =
          clientKx.keyPair.publicKey := by
    cases identity <;> rfl
  have hServer :
      Crypto.serverComputeSessionKeys S serverKx.keyPair
        (Session.identifiedHello S clientVersions
          clientKx.keyPair.publicKey identity).ephemeralPk =
            .ok serverKeys := by
    rw [hEphemeral]
    exact
      Crypto.serverComputeSessionKeys_eq
        clientKx.public_size hServerKeys
  have hPeer :
      (if (Session.identifiedHello S clientVersions
          clientKx.keyPair.publicKey
          identity).hasClientIdentity then
        some
          (Session.identifiedHello S clientVersions
            clientKx.keyPair.publicKey identity).identityPk
      else
        (freshServer signKey serverVersions).peerIdentity) =
          identity.map KeyPair.publicKey := by
    cases identity <;> rfl
  have hServerRole :
      (freshServer signKey serverVersions).role = .server :=
    rfl
  rw [← hVersions] at hVersion
  have hRespond :=
    Session.serverRespondToHandshake_succeeds hServerRole
      hVersion
      (Session.identifiedHello_verified _ hIdentity)
      hSigns hServer
  rw [hPeer] at hRespond
  let reply : ServerHello :=
    { selectedVersion := version
      ephemeralPk := serverKx.keyPair.publicKey
      signature :=
        ⟨S.signDetached serverKx.keyPair.publicKey.data
          signKey.privateKey.data⟩ }
  have hRead :
      ServerHello.deserialize reply.serialize = .ok reply :=
    ServerHello.deserialize_serialize serverKx.public_size
      (S.length_signDetached _ _)
  let client : Session :=
    { freshClient serverKey clientVersions identity with
      ephemeralKxKp := some clientKx.keyPair }
  have hListed :
      reply.selectedVersion ∈ client.supportedVersions := by
    change
      version ∈
        (freshClient serverKey clientVersions
          identity).supportedVersions
    rw [freshClient_versions, ← hVersions]
    exact (VersionNegotiator.negotiate_mem hVersion).1
  have hVerified :
      Crypto.verify S reply.signature reply.ephemeralPk.data
        client.serverSignKey.publicKey = true := by
    change
      Crypto.verify S _ _
        (freshClient serverKey clientVersions
          identity).serverSignKey.publicKey = true
    rw [freshClient_serverKey, hKnown]
    exact Crypto.verify_of_signsFor hSigns _
  have hFinalize :=
    Session.clientFinalizeHandshake_succeeds
      (freshClient_role serverKey clientVersions identity)
      (s := client) rfl hListed hVerified
      (Crypto.clientComputeSessionKeys_eq
        serverKx.public_size hClientKeys)
  have hOutcome :
      exchange S clientKx serverKx
          (freshClient serverKey clientVersions identity)
          (freshServer signKey serverVersions) =
        finish S client
          ((freshServer signKey serverVersions).established
            version (identity.map KeyPair.publicKey)
            serverKx.keyPair serverKeys)
          reply.serialize := by
    simp only [exchange_eq hCount hIdentity, hRespond]
    rfl
  rw [hOutcome, finish, hRead]
  simp only [hFinalize]
  refine ⟨trivial, ?_⟩
  exact
    { clientComplete := rfl
      serverComplete := rfl
      clientVersion := rfl
      serverVersion := rfl
      keys :=
        ⟨clientKeys, serverKeys, rfl, rfl, hForward,
          hBackward⟩
      peer := rfl }

/-
  Both sides succeed exactly when the lists share a version;
  the selected one is the first of the client's list that
  the server supports.
-/
theorem honest_handshake
    (hCount : clientVersions.length ≤ 65535)
    (hSigns : S.SignsFor signKey)
    (hKnown : serverKey.publicKey = signKey.publicKey)
    (hIdentity :
      ∀ kp, identity = some kp → S.SignsFor kp)
    (hCrossed : S.Crossed clientKx serverKx) :
    let o :=
      exchange S clientKx serverKx
        (freshClient serverKey clientVersions identity)
        (freshServer signKey serverVersions)
    let shared := ∃ v ∈ clientVersions, v ∈ serverVersions
    (o.thrown = none ↔ shared) ∧
      (shared →
        Agreed (clientVersions.find? (· ∈ serverVersions))
          (identity.map KeyPair.publicKey) o) ∧
      (¬ shared →
        (∃ e, o.thrown = some (.server, e)) ∧
          o.client.isHandshakeComplete = false ∧
          o.server.isHandshakeComplete = false) := by
  intro o shared
  have hFind :=
    VersionNegotiator.negotiate_eq_find? clientVersions
      serverVersions
  cases hVersion :
      VersionNegotiator.negotiate clientVersions
        serverVersions with
  | none =>
      have hNotShared : ¬ shared := by
        rintro ⟨v, hClient, hServer⟩
        rw [hFind] at hVersion
        have hAbsent :=
          List.find?_eq_none.mp hVersion v hClient
        simp [hServer] at hAbsent
      have hRefused :=
        exchange_refused signKey serverKey clientKx serverKx
          hCount hIdentity hVersion
      rcases hRefused.1 with ⟨e, hThrown⟩
      refine
        ⟨⟨fun hNone => ?_, fun hShared => ?_⟩,
          fun hShared => absurd hShared hNotShared,
          fun _ => hRefused⟩
      · cases hThrown.symm.trans hNone
      · exact absurd hShared hNotShared
  | some version =>
      have hMem := VersionNegotiator.negotiate_mem hVersion
      have hShared : shared := ⟨version, hMem⟩
      have hAgreed :=
        exchange_agreed hCount hSigns hKnown hIdentity
          hCrossed hVersion
      refine
        ⟨⟨fun _ => hShared, fun _ => hAgreed.1⟩,
          fun _ => ?_,
          fun hNot => absurd hShared hNot⟩
      rw [← hFind, hVersion]
      exact hAgreed.2

end

------------------------------------------------------------
-- A Sample Handshake
------------------------------------------------------------

open PlainSodium

theorem plainSodium_signsFor (label : UInt8) :
    plainSodium.SignsFor (sampleKeyPair label) where
  public_size := by simp [sampleKeyPair]
  private_size := by simp [sampleKeyPair]
  accepts := by
    intro message
    simp [plainSodium, sampleKeyPair]

theorem plainSodium_crossed (client server : KxKeyPair) :
    plainSodium.Crossed client server :=
  ⟨_, _, rfl, rfl, rfl, rfl⟩

/- The preferred version 1.2 of the client is skipped. -/
theorem honest_handshake_identified :
    let o :=
      exchange plainSodium (sampleKx 1) (sampleKx 2)
        (freshClient ⟨(sampleKeyPair 6).publicKey, ⟨[]⟩⟩
          [0x0102, Versions.v1_1, Versions.v1_0]
          (some (sampleKeyPair 5)))
        (freshServer (sampleKeyPair 6) supportedVersions)
    o.thrown = none ∧
      Agreed (some Versions.v1_1)
        (some (sampleKeyPair 5).publicKey) o := by
  intro o
  have hRun :=
    @honest_handshake plainSodium
      [0x0102, Versions.v1_1, Versions.v1_0]
      supportedVersions (sampleKeyPair 6)
      ⟨(sampleKeyPair 6).publicKey, ⟨[]⟩⟩
      (some (sampleKeyPair 5)) (sampleKx 1) (sampleKx 2)
      (by decide) (plainSodium_signsFor 6) rfl
      (by
        rintro kp hKp
        cases hKp
        exact plainSodium_signsFor 5)
      (plainSodium_crossed (sampleKx 1) (sampleKx 2))
  exact
    ⟨hRun.1.mpr (by decide), hRun.2.1 (by decide)⟩

end HonestHandshake

end ObscuraProto
