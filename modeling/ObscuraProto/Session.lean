import ObscuraProto.Crypto

/-
  One end of a secure channel: handshake and data transfer.

  Every method takes the session and returns its result
  together with the session it leaves behind, so that what a
  throwing method has already written stays visible.  A
  complete session carries its keys by construction.

  Key definitions include:
    * `Session`
    * `Session.clientInitiateHandshake`
    * `Session.serverRespondToHandshake`
    * `Session.clientFinalizeHandshake`
    * `Session.encryptPayload`, `Session.decryptPacket`

  Key theorems include:
    * `Session.serverRespondToHandshake_ok`
    * `Session.clientFinalizeHandshake_ok`
    * `Session.encryptPayload_ready`
    * `Session.decryptPacket_cases`
-/

namespace ObscuraProto

inductive Role where
| client
| server
deriving DecidableEq, Repr

------------------------------------------------------------
-- Session State
------------------------------------------------------------

/-
  `keysReady` is the invariant behind the unchecked pointer
  read of `session_keys_` in the data-transfer methods.
-/
structure Session where
  role : Role
  handshakeComplete : Bool := false
  selectedVersion : Option Version := none
  supportedVersions : List Version
  serverSignKey : KeyPair
  ephemeralKxKp : Option KeyPair := none
  sessionKeys : Option SessionKeys := none
  clientIdentityKp : Option KeyPair := none
  peerIdentity : Option PublicKey := none
  sendCounter : UInt64 := 0
  recvCounter : UInt64 := 0
  keysReady :
    handshakeComplete = true → sessionKeys.isSome = true
deriving DecidableEq

namespace Session

/- The constructor. -/
def new
    (role : Role)
    (serverSignKey : KeyPair)
    (supportedVersions : List Version) : Session where
  role := role
  supportedVersions := supportedVersions
  serverSignKey := serverSignKey
  keysReady := by simp

def isHandshakeComplete (s : Session) : Bool :=
  s.handshakeComplete

def getSelectedVersion (s : Session) : Option Version :=
  s.selectedVersion

def hasPeerIdentity (s : Session) : Bool :=
  s.peerIdentity.isSome

def getPeerIdentity (s : Session) : Option PublicKey :=
  s.peerIdentity

def setClientIdentityKey
    (identityKp : KeyPair)
    (s : Session) : Except Exception Unit × Session :=
  if s.role ≠ .client then
    (.error (.logicError
      "Only clients can set an identity key."), s)
  else
    (.ok (), { s with clientIdentityKp := some identityKp })

------------------------------------------------------------
-- Handshake
------------------------------------------------------------

variable (S : Sodium)

def clientInitiateHandshake
    (kx : KxKeyPair)
    (s : Session) :
    Except Exception ClientHello × Session :=
  if s.role ≠ .client then
    (.error (.logicError
      "Only clients can initiate a handshake."), s)
  else
    let kp := Crypto.generateKxKeypair kx
    let s := { s with ephemeralKxKp := some kp }
    match s.clientIdentityKp with
    | none =>
        (.ok
          { supportedVersions := s.supportedVersions
            ephemeralPk := kp.publicKey }, s)
    | some identityKp =>
        match Crypto.sign S kp.publicKey.data
            identityKp.privateKey with
        | .error e => (.error e, s)
        | .ok identitySig =>
            (.ok
              { supportedVersions := s.supportedVersions
                ephemeralPk := kp.publicKey
                hasClientIdentity := true
                identityPk := identityKp.publicKey
                identitySig := identitySig }, s)

def serverRespondToHandshake
    (kx : KxKeyPair)
    (clientHello : ClientHello)
    (s : Session) :
    Except Exception ServerHello × Session :=
  if s.role ≠ .server then
    (.error (.logicError
      "Only servers can respond to a handshake."), s)
  else
    match VersionNegotiator.negotiate
        clientHello.supportedVersions
        s.supportedVersions with
    | none =>
        (.error (.runtimeError
          "Client and server have no supported protocol versions in common."),
          s)
    | some chosenVersion =>
        let s :=
          { s with selectedVersion := some chosenVersion }
        if clientHello.hasClientIdentity &&
            !Crypto.verify S clientHello.identitySig
              clientHello.ephemeralPk.data
              clientHello.identityPk then
          (.error (.runtimeError
            "Client identity signature verification failed."),
            s)
        else
          let s :=
            { s with
              peerIdentity :=
                if clientHello.hasClientIdentity then
                  some clientHello.identityPk
                else
                  s.peerIdentity }
          let kp := Crypto.generateKxKeypair kx
          let s := { s with ephemeralKxKp := some kp }
          match Crypto.sign S kp.publicKey.data
              s.serverSignKey.privateKey with
          | .error e => (.error e, s)
          | .ok signature =>
              match Crypto.serverComputeSessionKeys S kp
                  clientHello.ephemeralPk with
              | .error e => (.error e, s)
              | .ok keys =>
                  (.ok
                    { selectedVersion := chosenVersion
                      ephemeralPk := kp.publicKey
                      signature := signature },
                    { s with
                      sessionKeys := some keys
                      handshakeComplete := true
                      keysReady := by simp })

def clientFinalizeHandshake
    (serverHello : ServerHello)
    (s : Session) : Except Exception Unit × Session :=
  if s.role ≠ .client then
    (.error (.logicError
      "Only clients can finalize a handshake."), s)
  else
    match s.ephemeralKxKp with
    | none =>
        (.error (.logicError
          "client_initiate_handshake must be called first."),
          s)
    | some kp =>
        if !s.supportedVersions.any
            (serverHello.selectedVersion == ·) then
          (.error (.runtimeError
            "Server selected a protocol version that the client does not support."),
            s)
        else
          let s :=
            { s with
              selectedVersion :=
                some serverHello.selectedVersion }
          if !Crypto.verify S serverHello.signature
              serverHello.ephemeralPk.data
              s.serverSignKey.publicKey then
            (.error (.runtimeError
              "Server's signature for its ephemeral key is invalid."),
              s)
          else
            match Crypto.clientComputeSessionKeys S kp
                serverHello.ephemeralPk with
            | .error e => (.error e, s)
            | .ok keys =>
                (.ok (),
                  { s with
                    sessionKeys := some keys
                    handshakeComplete := true
                    keysReady := by simp })

------------------------------------------------------------
-- Data Transfer
------------------------------------------------------------

/- The counter is spent even when the encryption throws. -/
def encryptPayload
    (nonce : Nonce)
    (payload : Payload)
    (s : Session) : Except Exception Bytes × Session :=
  if hComplete : s.handshakeComplete = true then
    let key :=
      (s.sessionKeys.get (s.keysReady hComplete)).tx
    let s := { s with sendCounter := s.sendCounter + 1 }
    (Crypto.encrypt S nonce payload s.sendCounter key, s)
  else
    (.error (.logicError
      "Handshake must be complete before sending data."), s)

def decryptPacket
    (packet : Bytes)
    (s : Session) : Except Exception Payload × Session :=
  if hComplete : s.handshakeComplete = true then
    let key :=
      (s.sessionKeys.get (s.keysReady hComplete)).rx
    match Crypto.decrypt S packet key with
    | .error e => (.error e, s)
    | .ok result =>
        if result.counter ≤ s.recvCounter then
          (.error (.runtimeError
            "Counter mismatch. Possible replay attack."), s)
        else
          (.ok result.payload,
            { s with recvCounter := result.counter })
  else
    (.error (.logicError
      "Handshake must be complete before receiving data."),
      s)

------------------------------------------------------------
-- Completed Handshakes
------------------------------------------------------------

/- The session that a successful handshake leaves behind. -/
def established
    (version : Version)
    (peer : Option PublicKey)
    (kp : KeyPair)
    (keys : SessionKeys)
    (s : Session) : Session :=
  { s with
    selectedVersion := some version
    peerIdentity := peer
    ephemeralKxKp := some kp
    sessionKeys := some keys
    handshakeComplete := true
    keysReady := by simp }

/- The session can transfer data and holds `keys`. -/
structure Ready (s : Session) (keys : SessionKeys) :
    Prop where
  complete : s.handshakeComplete = true
  keys_eq : s.sessionKeys = some keys

theorem ready_established
    (version : Version)
    (peer : Option PublicKey)
    (kp : KeyPair)
    (keys : SessionKeys)
    (s : Session) :
    (s.established version peer kp keys).Ready keys :=
  ⟨rfl, rfl⟩

/- An initiation keeps everything but the ephemeral key. -/
theorem clientInitiateHandshake_state
    (kx : KxKeyPair)
    {s : Session}
    (hRole : s.role = .client) :
    (s.clientInitiateHandshake S kx).2 =
      { s with ephemeralKxKp := some kx.keyPair } := by
  simp only [clientInitiateHandshake, hRole, ne_eq,
    not_true, if_false, Crypto.generateKxKeypair]
  split
  · rfl
  · split <;> rfl

/-
  The hello carries the ephemeral key and, when an identity
  is configured, that identity with its signature.
-/
theorem clientInitiateHandshake_ok
    {kx : KxKeyPair}
    {s s' : Session}
    {hello : ClientHello}
    (hOk :
      s.clientInitiateHandshake S kx = (.ok hello, s')) :
    hello.ephemeralPk = kx.keyPair.publicKey ∧
      hello.supportedVersions = s.supportedVersions ∧
      hello.hasClientIdentity = s.clientIdentityKp.isSome ∧
      ∀ identityKp, s.clientIdentityKp = some identityKp →
        hello.identityPk = identityKp.publicKey ∧
          Crypto.sign S kx.keyPair.publicKey.data
              identityKp.privateKey =
            .ok hello.identitySig := by
  simp only [clientInitiateHandshake,
    Crypto.generateKxKeypair] at hOk
  split at hOk
  · cases (Prod.mk.inj hOk).1
  · split at hOk
    · next hNone =>
        cases (Prod.mk.inj hOk).1
        simp [hNone]
    · next identityKp hSome =>
        split at hOk
        · cases (Prod.mk.inj hOk).1
        · next sig hSign =>
            cases (Prod.mk.inj hOk).1
            simp only [hSome]
            simpa using hSign

/- An answer, given or refused, keeps the configuration. -/
theorem serverRespondToHandshake_config
    (kx : KxKeyPair)
    (hello : ClientHello)
    (s : Session) :
    let s' := (s.serverRespondToHandshake S kx hello).2
    s'.role = s.role ∧
      s'.supportedVersions = s.supportedVersions ∧
      s'.serverSignKey = s.serverSignKey := by
  simp only [serverRespondToHandshake]
  split
  · exact ⟨rfl, rfl, rfl⟩
  · split
    · exact ⟨rfl, rfl, rfl⟩
    · split
      · exact ⟨rfl, rfl, rfl⟩
      · split
        · exact ⟨rfl, rfl, rfl⟩
        · split <;> exact ⟨rfl, rfl, rfl⟩

theorem clientInitiateHandshake_counter
    (kx : KxKeyPair)
    (s : Session) :
    (s.clientInitiateHandshake S kx).2.sendCounter =
      s.sendCounter := by
  simp only [clientInitiateHandshake]
  split
  · rfl
  · split
    · rfl
    · split <;> rfl

theorem clientFinalizeHandshake_counter
    (hello : ServerHello)
    (s : Session) :
    (s.clientFinalizeHandshake S hello).2.sendCounter =
      s.sendCounter := by
  simp only [clientFinalizeHandshake]
  split
  · rfl
  · split
    · rfl
    · split
      · rfl
      · split
        · rfl
        · split <;> rfl

/- So does a completion, which also keeps the ephemeral key. -/
theorem clientFinalizeHandshake_config
    (hello : ServerHello)
    (s : Session) :
    let s' := (s.clientFinalizeHandshake S hello).2
    s'.role = s.role ∧
      s'.supportedVersions = s.supportedVersions ∧
      s'.clientIdentityKp = s.clientIdentityKp ∧
      s'.ephemeralKxKp = s.ephemeralKxKp := by
  simp only [clientFinalizeHandshake]
  split
  · exact ⟨rfl, rfl, rfl, rfl⟩
  · split
    · exact ⟨rfl, rfl, rfl, rfl⟩
    · split
      · exact ⟨rfl, rfl, rfl, rfl⟩
      · split
        · exact ⟨rfl, rfl, rfl, rfl⟩
        · split <;> exact ⟨rfl, rfl, rfl, rfl⟩

/- Everything a successful answer has checked and written. -/
theorem serverRespondToHandshake_ok
    {kx : KxKeyPair}
    {hello : ClientHello}
    {s s' : Session}
    {reply : ServerHello}
    (hOk :
      s.serverRespondToHandshake S kx hello =
        (.ok reply, s')) :
    s.role = .server ∧
      ∃ version keys,
        VersionNegotiator.negotiate hello.supportedVersions
            s.supportedVersions = some version ∧
          (hello.hasClientIdentity = true →
            Crypto.verify S hello.identitySig
              hello.ephemeralPk.data hello.identityPk =
                true) ∧
          Crypto.sign S kx.keyPair.publicKey.data
              s.serverSignKey.privateKey =
            .ok reply.signature ∧
          Crypto.serverComputeSessionKeys S kx.keyPair
            hello.ephemeralPk = .ok keys ∧
          reply.selectedVersion = version ∧
          reply.ephemeralPk = kx.keyPair.publicKey ∧
          s' =
            s.established version
              (if hello.hasClientIdentity then
                some hello.identityPk
              else
                s.peerIdentity)
              kx.keyPair keys := by
  simp only [serverRespondToHandshake,
    Crypto.generateKxKeypair] at hOk
  split at hOk
  · cases (Prod.mk.inj hOk).1
  · next hRole =>
      split at hOk
      · cases (Prod.mk.inj hOk).1
      · next version hNegotiate =>
          split at hOk
          · cases (Prod.mk.inj hOk).1
          · next hIdentity =>
              split at hOk
              · cases (Prod.mk.inj hOk).1
              · next signature hSign =>
                  split at hOk
                  · cases (Prod.mk.inj hOk).1
                  · next keys hKeys =>
                      rcases Prod.mk.inj hOk with
                        ⟨hReply, hState⟩
                      cases hReply
                      refine
                        ⟨not_not.mp hRole, version, keys,
                          hNegotiate, ?_, hSign, hKeys, rfl,
                          rfl, hState.symm⟩
                      intro hFlag
                      simpa [hFlag] using hIdentity

/- Everything a successful completion has checked. -/
theorem clientFinalizeHandshake_ok
    {hello : ServerHello}
    {s s' : Session}
    (hOk :
      s.clientFinalizeHandshake S hello = (.ok (), s')) :
    s.role = .client ∧
      ∃ kp keys,
        s.ephemeralKxKp = some kp ∧
          hello.selectedVersion ∈ s.supportedVersions ∧
          Crypto.verify S hello.signature
            hello.ephemeralPk.data
            s.serverSignKey.publicKey = true ∧
          Crypto.clientComputeSessionKeys S kp
            hello.ephemeralPk = .ok keys ∧
          s' =
            s.established hello.selectedVersion
              s.peerIdentity kp keys := by
  simp only [clientFinalizeHandshake] at hOk
  split at hOk
  · cases (Prod.mk.inj hOk).1
  · next hRole =>
      split at hOk
      · cases (Prod.mk.inj hOk).1
      · next kp hKp =>
          split at hOk
          · cases (Prod.mk.inj hOk).1
          · next hVersion =>
              split at hOk
              · cases (Prod.mk.inj hOk).1
              · next hVerify =>
                  split at hOk
                  · cases (Prod.mk.inj hOk).1
                  · next keys hKeys =>
                      refine
                        ⟨not_not.mp hRole, kp, keys, hKp,
                          ?_, ?_, hKeys, ?_⟩
                      · simpa using hVersion
                      · simpa using hVerify
                      · rw [← (Prod.mk.inj hOk).2]
                        simp [established, hKp]

/- A completion that fails leaves the keys as they were. -/
theorem clientFinalizeHandshake_error
    {hello : ServerHello}
    {s s' : Session}
    {e : Exception}
    (hError :
      s.clientFinalizeHandshake S hello = (.error e, s')) :
    s'.sessionKeys = s.sessionKeys ∧
      s'.handshakeComplete = s.handshakeComplete := by
  simp only [clientFinalizeHandshake] at hError
  split at hError
  · cases hError
    exact ⟨rfl, rfl⟩
  · split at hError
    · cases hError
      exact ⟨rfl, rfl⟩
    · split at hError
      · cases hError
        exact ⟨rfl, rfl⟩
      · split at hError
        · cases hError
          exact ⟨rfl, rfl⟩
        · split at hError <;> cases hError
          exact ⟨rfl, rfl⟩

------------------------------------------------------------
-- Established Sessions
------------------------------------------------------------

theorem exists_ready
    {s : Session}
    (hComplete : s.handshakeComplete = true) :
    ∃ keys, s.Ready keys := by
  rcases Option.isSome_iff_exists.mp
      (s.keysReady hComplete) with
    ⟨keys, hKeys⟩
  exact ⟨keys, hComplete, hKeys⟩

/- Before the handshake is complete nothing is sealed. -/
theorem encryptPayload_incomplete
    {s : Session}
    (hIncomplete : ¬ s.handshakeComplete = true)
    (nonce : Nonce)
    (payload : Payload) :
    s.encryptPayload S nonce payload =
      (.error (.logicError
        "Handshake must be complete before sending data."),
        s) := by
  rw [encryptPayload, dif_neg hIncomplete]

theorem decryptPacket_incomplete
    {s : Session}
    (hIncomplete : ¬ s.handshakeComplete = true)
    (packet : Bytes) :
    s.decryptPacket S packet =
      (.error (.logicError
        "Handshake must be complete before receiving data."),
        s) := by
  rw [decryptPacket, dif_neg hIncomplete]

/- A ready session seals under `tx` with the next counter. -/
theorem encryptPayload_ready
    {s : Session}
    {keys : SessionKeys}
    (hReady : s.Ready keys)
    (nonce : Nonce)
    (payload : Payload) :
    s.encryptPayload S nonce payload =
      (.ok (Crypto.packet S nonce payload
          (s.sendCounter + 1) keys.tx),
        { s with sendCounter := s.sendCounter + 1 }) := by
  have hTx :
      (s.sessionKeys.get
        (s.keysReady hReady.complete)) = keys := by
    simp [hReady.keys_eq]
  simp only [encryptPayload, hReady.complete, dif_pos, hTx]
  rw [Crypto.encrypt_of_size S nonce payload _ keys.tx_size]

/- A ready session reads under `rx` and checks the counter. -/
theorem decryptPacket_ready
    {s : Session}
    {keys : SessionKeys}
    (hReady : s.Ready keys)
    (packet : Bytes) :
    s.decryptPacket S packet =
      match Crypto.decrypt S packet keys.rx with
      | .error e => (.error e, s)
      | .ok result =>
          if result.counter ≤ s.recvCounter then
            (.error (.runtimeError
              "Counter mismatch. Possible replay attack."),
              s)
          else
            (.ok result.payload,
              { s with recvCounter := result.counter }) := by
  have hRx :
      (s.sessionKeys.get
        (s.keysReady hReady.complete)) = keys := by
    simp [hReady.keys_eq]
  simp only [decryptPacket, hReady.complete, dif_pos, hRx]

/-
  A delivery is either rejected, and then changes nothing, or
  it opens under `rx` with a counter above the last one.
-/
theorem decryptPacket_cases
    (s : Session)
    (packet : Bytes) :
    (∃ e, s.decryptPacket S packet = (.error e, s)) ∨
      ∃ keys result,
        s.Ready keys ∧
          Crypto.decrypt S packet keys.rx = .ok result ∧
          s.recvCounter < result.counter ∧
          s.decryptPacket S packet =
            (.ok result.payload,
              { s with recvCounter := result.counter }) := by
  by_cases hComplete : s.handshakeComplete = true
  · rcases exists_ready hComplete with ⟨keys, hReady⟩
    rw [decryptPacket_ready S hReady]
    cases hDecrypt : Crypto.decrypt S packet keys.rx with
    | error e => exact Or.inl ⟨e, rfl⟩
    | ok result =>
        by_cases hOld : result.counter ≤ s.recvCounter
        · apply Or.inl
          simp only [hOld, if_true]
          exact ⟨_, rfl⟩
        · apply Or.inr
          refine
            ⟨keys, result, hReady, hDecrypt,
              UInt64.not_le.mp hOld, ?_⟩
          simp only [hOld, if_false]
  · exact
      Or.inl ⟨_, decryptPacket_incomplete S hComplete packet⟩

/- A packet sealed for this session is accepted in turn. -/
theorem decryptPacket_packet
    (hCorrect : S.AeadCorrect)
    {s : Session}
    {keys : SessionKeys}
    (hReady : s.Ready keys)
    (nonce : Nonce)
    (payload : Payload)
    {counter : UInt64}
    (hNewer : s.recvCounter < counter) :
    s.decryptPacket S
        (Crypto.packet S nonce payload counter keys.rx) =
      (.ok payload, { s with recvCounter := counter }) := by
  have hFresh : ¬ counter ≤ s.recvCounter :=
    UInt64.not_le.mpr hNewer
  rw [decryptPacket_ready S hReady,
    Crypto.decrypt_packet S hCorrect nonce payload counter
      keys.rx_size]
  simp only [hFresh, if_false]

end Session

end ObscuraProto
