import ObscuraProto.IdealPrimitives
import ObscuraProto.PlainSodium
import ObscuraProto.Library.StateMachine

/-
  What a handshake step that throws leaves behind.

  Both handshake methods write a field between two checks.
  What has been written is visible when a later check throws:
  the selected version, and for the server the identity of
  the peer.  Keys and counters are written last, so that data
  transfer never notices.

  Key definitions include:
    * `HandshakeFailures.Observed`, `HandshakeFailures.Step`
    * `HandshakeFailures.Keeps`
    * `HandshakeFailures.SameTransfer`

  Key theorems include:
    * `HandshakeFailures.respond_fails`
    * `HandshakeFailures.finalize_fails`
    * `HandshakeFailures.failed_handshake`
-/

namespace ObscuraProto

namespace HandshakeFailures

------------------------------------------------------------
-- Observations
------------------------------------------------------------

/- The answers of the four public getters. -/
structure Observed where
  complete : Bool
  version : Option Version
  hasPeer : Bool
  peer : Option PublicKey
deriving DecidableEq

def observe (s : Session) : Observed where
  complete := s.isHandshakeComplete
  version := s.getSelectedVersion
  hasPeer := s.hasPeerIdentity
  peer := s.getPeerIdentity

variable (S : Sodium)

/- Packets are opened and payloads are sealed as before. -/
structure SameTransfer (s s' : Session) : Prop where
  opens :
    ∀ packets,
      (Session.decryptAll S packets s').1 =
        (Session.decryptAll S packets s).1
  seals :
    ∀ nonce payload,
      (s'.encryptPayload S nonce payload).1 =
        (s.encryptPayload S nonce payload).1

/- A call of one of the two methods. -/
inductive Step where
| respond (kx : KxKeyPair) (hello : ClientHello)
| finalize (hello : ServerHello)

def Step.run (s : Session) :
    Step → Except Exception Unit × Session
| .respond kx hello =>
    let (reply, s) := s.serverRespondToHandshake S kx hello
    (reply.map (fun _ => ()), s)
| .finalize hello => s.clientFinalizeHandshake S hello

------------------------------------------------------------
-- The Condition
------------------------------------------------------------

/- The hello claims an identity that it does not prove. -/
def refusesIdentity (hello : ClientHello) : Bool :=
  hello.hasClientIdentity &&
    !Crypto.verify S hello.identitySig
      hello.ephemeralPk.data hello.identityPk

/- The checks of the server after the last early write. -/
def Answers
    (kx : KxKeyPair)
    (hello : ClientHello)
    (s : Session) : Prop :=
  (∃ signature,
      Crypto.sign S kx.keyPair.publicKey.data
        s.serverSignKey.privateKey = .ok signature) ∧
    ∃ keys,
      Crypto.serverComputeSessionKeys S kx.keyPair
        hello.ephemeralPk = .ok keys

/-
  The server gets past all checks, or what it writes before
  the failing one was there already.
-/
def RespondKeeps
    (kx : KxKeyPair)
    (hello : ClientHello)
    (s : Session) : Prop :=
  s.role = .server →
    ∀ version,
      VersionNegotiator.negotiate hello.supportedVersions
          s.supportedVersions = some version →
        (refusesIdentity S hello = false ∧
            Answers S kx hello s) ∨
          (s.selectedVersion = some version ∧
            (refusesIdentity S hello = true ∨
              hello.hasClientIdentity = false ∨
                s.peerIdentity = some hello.identityPk))

/- The same for the client. -/
def FinalizeKeeps
    (hello : ServerHello)
    (s : Session) : Prop :=
  s.role = .client →
    ∀ kp, s.ephemeralKxKp = some kp →
      hello.selectedVersion ∈ s.supportedVersions →
        (Crypto.verify S hello.signature
              hello.ephemeralPk.data
              s.serverSignKey.publicKey = true ∧
            ∃ keys,
              Crypto.clientComputeSessionKeys S kp
                hello.ephemeralPk = .ok keys) ∨
          s.selectedVersion = some hello.selectedVersion

def Keeps (s : Session) : Step → Prop
| .respond kx hello => RespondKeeps S kx hello s
| .finalize hello => FinalizeKeeps S hello s

------------------------------------------------------------
-- Data Transfer
------------------------------------------------------------

/- What data transfer reads from a session. -/
structure SameKeys (s s' : Session) : Prop where
  complete : s'.handshakeComplete = s.handshakeComplete
  keys : s'.sessionKeys = s.sessionKeys
  sent : s'.sendCounter = s.sendCounter
  received : s'.recvCounter = s.recvCounter

variable {S}

theorem SameKeys.decrypt
    {s s' : Session}
    (hSame : SameKeys s s')
    (packet : Bytes) :
    (s'.decryptPacket S packet).1 =
        (s.decryptPacket S packet).1 ∧
      SameKeys (s.decryptPacket S packet).2
        (s'.decryptPacket S packet).2 := by
  by_cases hComplete : s.handshakeComplete = true
  · rcases Session.exists_ready hComplete with ⟨keys, hReady⟩
    have hReady' : s'.Ready keys :=
      ⟨hSame.complete.trans hComplete,
        hSame.keys.trans hReady.keys_eq⟩
    rw [Session.decryptPacket_ready S hReady,
      Session.decryptPacket_ready S hReady', hSame.received]
    cases Crypto.decrypt S packet keys.rx with
    | error e => exact ⟨rfl, hSame⟩
    | ok result =>
        simp only
        split
        · exact ⟨rfl, hSame⟩
        · exact
            ⟨rfl, hSame.complete, hSame.keys, hSame.sent, rfl⟩
  · have hComplete' : ¬ s'.handshakeComplete = true := by
      rw [hSame.complete]
      exact hComplete
    rw [Session.decryptPacket_incomplete S hComplete,
      Session.decryptPacket_incomplete S hComplete']
    exact ⟨rfl, hSame⟩

theorem SameKeys.transfer
    {s s' : Session}
    (hSame : SameKeys s s') :
    SameTransfer S s s' where
  opens := by
    intro packets
    induction packets generalizing s s' with
    | nil => rfl
    | cons packet rest ih =>
        rcases hSame.decrypt (S := S) packet with
          ⟨hResult, hNext⟩
        simp only [Session.decryptAll, hResult, ih hNext]
  seals := by
    intro nonce payload
    by_cases hComplete : s.handshakeComplete = true
    · rcases Session.exists_ready hComplete with
        ⟨keys, hReady⟩
      have hReady' : s'.Ready keys :=
        ⟨hSame.complete.trans hComplete,
          hSame.keys.trans hReady.keys_eq⟩
      rw [Session.encryptPayload_ready S hReady,
        Session.encryptPayload_ready S hReady', hSame.sent]
    · have hComplete' : ¬ s'.handshakeComplete = true := by
        rw [hSame.complete]
        exact hComplete
      rw [Session.encryptPayload_incomplete S hComplete,
        Session.encryptPayload_incomplete S hComplete']

------------------------------------------------------------
-- Failing Steps
------------------------------------------------------------

/- How far the server has got when it throws. -/
inductive RespondFailure
    (S : Sodium)
    (kx : KxKeyPair)
    (hello : ClientHello)
    (s : Session) : Session → Prop
| early :
    (s.role = .server →
      VersionNegotiator.negotiate hello.supportedVersions
        s.supportedVersions = none) →
      RespondFailure S kx hello s s
| identity (version : Version) :
    s.role = .server →
      VersionNegotiator.negotiate hello.supportedVersions
          s.supportedVersions = some version →
        refusesIdentity S hello = true →
          RespondFailure S kx hello s
            { s with selectedVersion := some version }
| late (version : Version) :
    s.role = .server →
      VersionNegotiator.negotiate hello.supportedVersions
          s.supportedVersions = some version →
        refusesIdentity S hello = false →
          ¬ Answers S kx hello s →
            RespondFailure S kx hello s
              { s with
                selectedVersion := some version
                peerIdentity :=
                  if hello.hasClientIdentity then
                    some hello.identityPk
                  else
                    s.peerIdentity
                ephemeralKxKp := some kx.keyPair }

theorem respond_fails
    {kx : KxKeyPair}
    {hello : ClientHello}
    {s s' : Session}
    {e : Exception}
    (hThrows :
      s.serverRespondToHandshake S kx hello =
        (.error e, s')) :
    RespondFailure S kx hello s s' := by
  simp only [Session.serverRespondToHandshake,
    Crypto.generateKxKeypair] at hThrows
  split at hThrows
  · next hRole =>
      cases (Prod.mk.inj hThrows).2
      exact .early (fun hServer => absurd hServer hRole)
  · next hRole =>
      have hServer := not_not.mp hRole
      split at hThrows
      · next hNone =>
          cases (Prod.mk.inj hThrows).2
          exact .early (fun _ => hNone)
      · next version hVersion =>
          split at hThrows
          · next hRefused =>
              cases (Prod.mk.inj hThrows).2
              exact .identity version hServer hVersion hRefused
          · next hAccepted =>
              have hIdentity :
                  refusesIdentity S hello = false :=
                Bool.eq_false_iff.mpr hAccepted
              split at hThrows
              · next hSign =>
                  cases (Prod.mk.inj hThrows).2
                  refine
                    .late version hServer hVersion hIdentity ?_
                  rintro ⟨⟨signature, hOk⟩, _⟩
                  cases hSign.symm.trans hOk
              · split at hThrows
                · next hKeys =>
                    cases (Prod.mk.inj hThrows).2
                    refine
                      .late version hServer hVersion
                        hIdentity ?_
                    rintro ⟨_, keys, hOk⟩
                    cases hKeys.symm.trans hOk
                · cases (Prod.mk.inj hThrows).1

/- How far the client has got. -/
inductive FinalizeFailure
    (S : Sodium)
    (hello : ServerHello)
    (s : Session) : Session → Prop
| early :
    (s.role = .client →
      ∀ kp, s.ephemeralKxKp = some kp →
        hello.selectedVersion ∉ s.supportedVersions) →
      FinalizeFailure S hello s s
| late
    {kp : KeyPair} :
    s.role = .client →
      s.ephemeralKxKp = some kp →
        hello.selectedVersion ∈ s.supportedVersions →
          ¬ (Crypto.verify S hello.signature
                hello.ephemeralPk.data
                s.serverSignKey.publicKey = true ∧
              ∃ keys,
                Crypto.clientComputeSessionKeys S kp
                  hello.ephemeralPk = .ok keys) →
            FinalizeFailure S hello s
              { s with
                selectedVersion :=
                  some hello.selectedVersion }

theorem finalize_fails
    {hello : ServerHello}
    {s s' : Session}
    {e : Exception}
    (hThrows :
      s.clientFinalizeHandshake S hello = (.error e, s')) :
    FinalizeFailure S hello s s' := by
  simp only [Session.clientFinalizeHandshake] at hThrows
  split at hThrows
  · next hRole =>
      cases (Prod.mk.inj hThrows).2
      exact .early (fun hClient => absurd hClient hRole)
  · next hRole =>
      have hClient := not_not.mp hRole
      split at hThrows
      · next hNone =>
          cases (Prod.mk.inj hThrows).2
          refine .early (fun _ kp hSome => ?_)
          cases hNone.symm.trans hSome
      · next kp hKp =>
          split at hThrows
          · next hVersion =>
              cases (Prod.mk.inj hThrows).2
              refine .early (fun _ _ _ hListed => ?_)
              simp at hVersion
              exact hVersion _ hListed rfl
          · next hVersion =>
              have hListed :
                  hello.selectedVersion ∈
                    s.supportedVersions := by
                simpa using hVersion
              split at hThrows
              · next hVerify =>
                  cases (Prod.mk.inj hThrows).2
                  refine .late hClient hKp hListed ?_
                  rintro ⟨hOk, _⟩
                  simp [hOk] at hVerify
              · split at hThrows
                · next hKeys =>
                    cases (Prod.mk.inj hThrows).2
                    refine .late hClient hKp hListed ?_
                    rintro ⟨_, keys, hOk⟩
                    cases hKeys.symm.trans hOk
                · cases (Prod.mk.inj hThrows).1

theorem RespondFailure.sameKeys
    {kx : KxKeyPair}
    {hello : ClientHello}
    {s s' : Session}
    (hFailure : RespondFailure S kx hello s s') :
    SameKeys s s' := by
  cases hFailure <;> exact ⟨rfl, rfl, rfl, rfl⟩

theorem FinalizeFailure.sameKeys
    {hello : ServerHello}
    {s s' : Session}
    (hFailure : FinalizeFailure S hello s s') :
    SameKeys s s' := by
  cases hFailure <;> exact ⟨rfl, rfl, rfl, rfl⟩

theorem observe_eq_iff (s s' : Session) :
    observe s' = observe s ↔
      s'.handshakeComplete = s.handshakeComplete ∧
        s'.selectedVersion = s.selectedVersion ∧
        s'.peerIdentity = s.peerIdentity := by
  constructor
  · intro hSame
    exact
      ⟨congrArg Observed.complete hSame,
        congrArg Observed.version hSame,
        congrArg Observed.peer hSame⟩
  · rintro ⟨hComplete, hVersion, hPeer⟩
    simp only [observe, Session.isHandshakeComplete,
      Session.getSelectedVersion, Session.hasPeerIdentity,
      Session.getPeerIdentity, hComplete, hVersion, hPeer]

/- Exactly the early writes can be observed. -/
theorem RespondFailure.observe_iff
    {kx : KxKeyPair}
    {hello : ClientHello}
    {s s' : Session}
    (hFailure : RespondFailure S kx hello s s') :
    observe s' = observe s ↔ RespondKeeps S kx hello s := by
  cases hFailure with
  | early hEarly =>
      refine ⟨fun _ => ?_, fun _ => rfl⟩
      intro hServer version hVersion
      cases (hEarly hServer).symm.trans hVersion
  | identity version hServer hVersion hRefused =>
      rw [observe_eq_iff]
      constructor
      · rintro ⟨_, hSelected, _⟩ _ version' hVersion'
        cases hVersion.symm.trans hVersion'
        exact Or.inr ⟨hSelected.symm, Or.inl hRefused⟩
      · intro hKeeps
        rcases hKeeps hServer version hVersion with
          ⟨hAccepted, _⟩ | ⟨hSelected, _⟩
        · cases hAccepted.symm.trans hRefused
        · exact ⟨rfl, hSelected.symm, rfl⟩
  | late version hServer hVersion hAccepted hFails =>
      rw [observe_eq_iff]
      constructor
      · rintro ⟨_, hSelected, hPeer⟩ _ version' hVersion'
        cases hVersion.symm.trans hVersion'
        refine Or.inr ⟨hSelected.symm, Or.inr ?_⟩
        cases hFlag : hello.hasClientIdentity with
        | false => exact Or.inl rfl
        | true =>
            simp only [hFlag, if_true] at hPeer
            exact Or.inr hPeer.symm
      · intro hKeeps
        rcases hKeeps hServer version hVersion with
          ⟨_, hAnswers⟩ | ⟨hSelected, hRefused | hFlag | hPeer⟩
        · exact absurd hAnswers hFails
        · cases hAccepted.symm.trans hRefused
        · exact ⟨rfl, hSelected.symm, by simp [hFlag]⟩
        · exact ⟨rfl, hSelected.symm, by simp [hPeer]⟩

theorem FinalizeFailure.observe_iff
    {hello : ServerHello}
    {s s' : Session}
    (hFailure : FinalizeFailure S hello s s') :
    observe s' = observe s ↔ FinalizeKeeps S hello s := by
  cases hFailure with
  | early hEarly =>
      refine ⟨fun _ => ?_, fun _ => rfl⟩
      intro hClient kp hKp hListed
      exact absurd hListed (hEarly hClient kp hKp)
  | late hClient hKp hListed hFails =>
      rw [observe_eq_iff]
      constructor
      · rintro ⟨_, hSelected, _⟩ _ _ _ _
        exact Or.inr hSelected.symm
      · intro hKeeps
        rcases hKeeps hClient _ hKp hListed with
          hPasses | hSelected
        · exact absurd hPasses hFails
        · exact ⟨rfl, hSelected.symm, rfl⟩

/- A step that throws is one of the failures above. -/
theorem observe_iff_of_throws
    {s s' : Session}
    {step : Step}
    {e : Exception}
    (hThrows : step.run S s = (.error e, s')) :
    (observe s' = observe s ↔ Keeps S s step) ∧
      SameKeys s s' := by
  cases step with
  | respond kx hello =>
      cases hRun : s.serverRespondToHandshake S kx hello with
      | mk reply session =>
          simp only [Step.run, hRun] at hThrows
          rcases Prod.mk.inj hThrows with ⟨hReply, hState⟩
          subst hState
          cases reply with
          | ok reply => cases hReply
          | error e' =>
              have hFailure := respond_fails hRun
              exact
                ⟨hFailure.observe_iff, hFailure.sameKeys⟩
  | finalize hello =>
      have hFailure := finalize_fails hThrows
      exact ⟨hFailure.observe_iff, hFailure.sameKeys⟩

------------------------------------------------------------
-- Runs of a Session
------------------------------------------------------------

/- A call of a public method that changes the session. -/
inductive Call where
| setIdentity (identityKp : KeyPair)
| initiate (kx : KxKeyPair)
| handshake (step : Step)
| encrypt (nonce : Nonce) (payload : Payload)
| decrypt (packet : Bytes)

variable (S) in
def exec (s : Session) : Call → Session
| .setIdentity identityKp => (s.setClientIdentityKey identityKp).2
| .initiate kx => (s.clientInitiateHandshake S kx).2
| .handshake step => (step.run S s).2
| .encrypt nonce payload =>
    (s.encryptPayload S nonce payload).2
| .decrypt packet => (s.decryptPacket S packet).2

variable (S) in
/- The handshake steps of a run meet the condition. -/
def Quiet (s : Session) : Call → Prop
| .handshake step => Keeps S s step
| _ => True

/- A selected version is one of a complete handshake. -/
def Settled (s : Session) : Prop :=
  s.getSelectedVersion.isSome → s.isHandshakeComplete = true

theorem settled_of_observe
    {s s' : Session}
    (hSame : observe s' = observe s)
    (hSettled : Settled s) :
    Settled s' := by
  rcases (observe_eq_iff s s').mp hSame with
    ⟨hComplete, hVersion, _⟩
  intro hSome
  have hBefore : s.getSelectedVersion.isSome := by
    rw [Session.getSelectedVersion, ← hVersion]
    exact hSome
  exact hComplete.trans (hSettled hBefore)

/- A step that returns leaves a complete session. -/
theorem complete_of_returns
    {s s' : Session}
    {step : Step}
    (hReturns : step.run S s = (.ok (), s')) :
    s'.isHandshakeComplete = true := by
  cases step with
  | respond kx hello =>
      cases hRun : s.serverRespondToHandshake S kx hello with
      | mk reply session =>
          simp only [Step.run, hRun] at hReturns
          rcases Prod.mk.inj hReturns with ⟨hReply, hState⟩
          subst hState
          cases reply with
          | error e => cases hReply
          | ok reply =>
              rcases (Session.serverRespondToHandshake_ok S
                  hRun).2 with
                ⟨_, _, _, _, _, _, _, _, hState⟩
              rw [hState]
              rfl
  | finalize hello =>
      rcases (Session.clientFinalizeHandshake_ok S
          hReturns).2 with
        ⟨_, _, _, _, _, _, hState⟩
      rw [hState]
      rfl

theorem Settled.step
    {s : Session}
    {call : Call}
    (hSettled : Settled s)
    (hQuiet : Quiet S s call) :
    Settled (exec S s call) := by
  have hKeeps
      {s' : Session}
      (hVersion : s'.selectedVersion = s.selectedVersion)
      (hComplete :
        s'.handshakeComplete = s.handshakeComplete) :
      Settled s' := by
    intro hSome
    apply hComplete.trans
    apply hSettled
    rw [Session.getSelectedVersion, ← hVersion]
    exact hSome
  cases call with
  | setIdentity identityKp =>
      simp only [exec, Session.setClientIdentityKey]
      split <;> exact hKeeps rfl rfl
  | initiate kx =>
      simp only [exec, Session.clientInitiateHandshake]
      split
      · exact hKeeps rfl rfl
      · split
        · exact hKeeps rfl rfl
        · split <;> exact hKeeps rfl rfl
  | encrypt nonce payload =>
      simp only [exec, Session.encryptPayload]
      split <;> exact hKeeps rfl rfl
  | decrypt packet =>
      rcases Session.decryptPacket_cases S s packet with
        ⟨e, hRejected⟩ | ⟨_, _, _, _, _, hAccepted⟩
      · simp only [exec, hRejected]
        exact hSettled
      · simp only [exec, hAccepted]
        exact hKeeps rfl rfl
  | handshake step =>
      cases hRun : step.run S s with
      | mk result s' =>
          simp only [exec, hRun]
          cases result with
          | error e =>
              have hSame :=
                (observe_iff_of_throws hRun).1.mpr hQuiet
              exact settled_of_observe hSame hSettled
          | ok u =>
              exact fun _ => complete_of_returns hRun

/- A step that returns has passed all checks. -/
theorem keeps_of_returns
    {s s' : Session}
    {step : Step}
    (hReturns : step.run S s = (.ok (), s')) :
    Keeps S s step := by
  cases step with
  | respond kx hello =>
      cases hRun : s.serverRespondToHandshake S kx hello with
      | mk reply session =>
          simp only [Step.run, hRun] at hReturns
          cases reply with
          | error e => cases (Prod.mk.inj hReturns).1
          | ok reply =>
              rcases (Session.serverRespondToHandshake_ok S
                  hRun).2 with
                ⟨_, keys, _, hVerified, hSign, hKeys, _⟩
              intro _ _ _
              refine
                Or.inl ⟨?_, ⟨_, hSign⟩, keys, hKeys⟩
              cases hFlag : hello.hasClientIdentity with
              | false => simp [refusesIdentity, hFlag]
              | true =>
                  simp [refusesIdentity, hVerified hFlag]
  | finalize hello =>
      rcases (Session.clientFinalizeHandshake_ok S
          hReturns).2 with
        ⟨kp, keys, hKp, _, hVerified, hKeys, _⟩
      intro _ kp' hKp' _
      cases hKp.symm.trans hKp'
      exact Or.inl ⟨hVerified, keys, hKeys⟩

/-
  When a step throws, nothing observable has changed exactly
  under the condition, and data transfer goes on in any case.
  In a run whose steps meet the condition, a version is
  selected only when the handshake is complete.
-/
theorem failed_handshake (S : Sodium) :
    (∀ s step,
        ((∀ e s', step.run S s = (.error e, s') →
              observe s' = observe s) ↔
            Keeps S s step) ∧
          ∀ e s', step.run S s = (.error e, s') →
            SameTransfer S s s') ∧
      ∀ role serverSignKey versions calls s,
        StateMachine.Run
            (StateMachine.Guarded (Quiet S) (exec S))
            (Session.new role serverSignKey versions)
            calls s →
          s.getSelectedVersion.isSome →
            s.isHandshakeComplete = true := by
  constructor
  · intro s step
    refine ⟨⟨fun hUnchanged => ?_, fun hKeeps => ?_⟩, ?_⟩
    · cases hRun : step.run S s with
      | mk result s' =>
          cases result with
          | ok u => exact keeps_of_returns hRun
          | error e =>
              exact
                (observe_iff_of_throws hRun).1.mp
                  (hUnchanged e s' hRun)
    · intro e s' hThrows
      exact (observe_iff_of_throws hThrows).1.mpr hKeeps
    · intro e s' hThrows
      exact (observe_iff_of_throws hThrows).2.transfer
  · intro role serverSignKey versions calls s hRun
    refine hRun.invariant (P := Settled) ?_ ?_
    · rintro s call s' hSettled ⟨hQuiet, hNext⟩
      rw [hNext]
      exact hSettled.step hQuiet
    · intro hSome
      cases hSome

/- A complete session refuses a second hello, badly signed. -/
theorem failed_handshake_second :
    let s :=
      ((Step.respond (PlainSodium.sampleKx 1)
          (PlainSodium.sampleHello 5 1)).run plainSodium
        (Session.new .server (PlainSodium.sampleKeyPair 6)
          supportedVersions)).2
    let hello : ClientHello :=
      { PlainSodium.sampleHello 5 2 with
        identitySig := ⟨List.replicate 64 0⟩ }
    let step := Step.respond (PlainSodium.sampleKx 2) hello
    s.isHandshakeComplete = true ∧
      ∃ e s', step.run plainSodium s = (.error e, s') ∧
        observe s' = observe s ∧
        SameTransfer plainSodium s s' := by
  intro s hello step
  have hStep := (failed_handshake plainSodium).1 s step
  have hKeeps : Keeps plainSodium s step := by
    intro _ version hVersion
    refine Or.inr ⟨?_, Or.inl (by decide)⟩
    rw [← hVersion]
    decide
  exact
    ⟨by decide, _, _, rfl, hStep.1.mpr hKeeps _ _ rfl,
      hStep.2 _ _ rfl⟩

/- A hello with a bad signature selects a version anyway. -/
theorem failed_handshake_observed :
    let s :=
      Session.new .server (PlainSodium.sampleKeyPair 6)
        supportedVersions
    let hello : ClientHello :=
      { PlainSodium.sampleHello 5 1 with
        identitySig := ⟨List.replicate 64 0⟩ }
    let step := Step.respond (PlainSodium.sampleKx 2) hello
    ∃ e s', step.run plainSodium s = (.error e, s') ∧
      observe s' ≠ observe s ∧
      s'.getSelectedVersion = some Versions.v1_1 ∧
      s'.isHandshakeComplete = false := by
  intro s hello step
  exact ⟨_, _, rfl, by decide, by decide, by decide⟩

end HandshakeFailures

end ObscuraProto
