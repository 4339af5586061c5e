import ObscuraProto.EndToEnd.Link
import ObscuraProto.HonestHandshake
import ObscuraProto.WsClient.Pool
import ObscuraProto.WsServer.Opening

/-
  How a connection gets established.

  A client that has just opened its connection sends a hello,
  the server answers it, and the client finishes.  If nothing
  is refused then both ends hold crossed keys, agree on the
  version and on the identity of the client, and the link is
  ready for the application.

  Key definitions include:
    * `Link.Greeting`, `Link.connect`
    * `Link.Waiting`, `Link.Welcome`

  Key theorems include:
    * `WsClient.onOpen_sends`, `WsServer.handshake_answers`
    * `WsClient.onMessage_finishes`
    * `Link.connect_established`
-/

namespace ObscuraProto

open Effectful HonestHandshake MalformedPayloads

------------------------------------------------------------
-- The Client
------------------------------------------------------------

namespace WsClient

variable {S : Sodium}
variable {c : WsClient}

/- The session has been created, and not been used. -/
def Unused (c : WsClient) : Prop :=
  c.session =
    Session.new .client c.session.serverSignKey
      c.config.supportedVersions

/- The session once the hello has been built. -/
def helloSession (kx : KxKeyPair) (c : WsClient) : Session :=
  { freshClient c.session.serverSignKey
      c.config.supportedVersions c.clientIdentityKp with
    ephemeralKxKp := some kx.keyPair }

theorem helloSession_again
    {kx : KxKeyPair}
    {hdl : Option Hdl}
    {isConnected : Bool} :
    WsClient.helloSession kx
        { c with
          connectionHdl := hdl
          isConnected := isConnected
          session := c.helloSession kx } =
      c.helloSession kx := by
  rcases c with ⟨config, session, hasOwner, identity⟩
  cases identity <;> rfl

variable (S) in
/- The hello of this client. -/
def hello (kx : KxKeyPair) (c : WsClient) : ClientHello :=
  Session.identifiedHello S c.config.supportedVersions
    kx.keyPair.publicKey c.clientIdentityKp

theorem setIdentityKey_run (hUnused : c.Unused) :
    setIdentityKey.run c =
      { result := .ok ()
        effects := []
        state :=
          { c with
            session :=
              freshClient c.session.serverSignKey
                c.config.supportedVersions
                c.clientIdentityKp } } := by
  have hSession : c.session = _ := hUnused
  unfold setIdentityKey
  rw [Action.run_atomic]
  split
  · next hNone =>
      have hFresh :
          freshClient c.session.serverSignKey
              c.config.supportedVersions c.clientIdentityKp =
            c.session := by
        rw [hNone]
        exact hUnused.symm
      rw [hFresh]
  · next kp hSome =>
      have hFresh :
          c.session.setClientIdentityKey kp =
            (.ok (),
              freshClient c.session.serverSignKey
                c.config.supportedVersions
                c.clientIdentityKp) := by
        rw [hSome]
        exact
          (congrArg (Session.setClientIdentityKey kp)
            hUnused).trans rfl
      rw [hFresh]

/- `on_open` sends the hello, and nothing is thrown. -/
theorem onOpen_sends
    {input : ClientInput}
    (hUnused : c.Unused)
    (hIdentity :
      ∀ kp, c.clientIdentityKp = some kp → S.SignsFor kp)
    (hTransmit : input.transmit = .ok ())
    (hdl : Hdl) :
    (onOpen S input hdl).run c =
      { result := .ok ()
        effects :=
          [.transmit (some hdl) (c.hello S input.kx).serialize]
        state :=
          { c with
            connectionHdl := some hdl
            isConnected := true
            session := c.helloSession input.kx } } := by
  let opened : WsClient :=
    { c with connectionHdl := some hdl, isConnected := true }
  let ready : WsClient :=
    { opened with
      session :=
        freshClient c.session.serverSignKey
          c.config.supportedVersions c.clientIdentityKp }
  have hSet :
      setIdentityKey.run opened =
        { result := .ok (), effects := [], state := ready } :=
    setIdentityKey_run (c := opened) hUnused
  have hInitiate :
      (initiateHandshake S input.kx).run ready =
        { result := .ok (c.hello S input.kx)
          effects := []
          state :=
            { opened with
              session := c.helloSession input.kx } } := by
    unfold initiateHandshake
    rw [Action.run_atomic,
      show ready.session = _ from rfl,
      Session.clientInitiateHandshake_succeeds input.kx
        (freshClient_role _ _ _) (freshClient_versions _ _ _)
        (freshClient_identity _ _ _) hIdentity]
    rfl
  have hSend :
      (sendHello S input hdl).run opened =
        { result := .ok ()
          effects :=
            [.transmit (some hdl)
              (c.hello S input.kx).serialize]
          state :=
            { opened with
              session := c.helloSession input.kx } } := by
    unfold sendHello
    rw [Action.run_bind_ok hSet, Action.run_bind_ok hInitiate,
      Action.run_emit_bind, hTransmit]
    rfl
  unfold onOpen
  rw [Action.run_modify_bind, Action.run_catchAll]
  rw [show (sendHello S input hdl).run
    { c with connectionHdl := some hdl, isConnected := true } =
      _ from hSend]

/- A reply that verifies finishes the handshake. -/
theorem onMessage_finishes
    {input : ClientInput}
    (reply : ServerHello)
    {keys : SessionKeys}
    {kx : KxKeyPair}
    (hSession : c.session = c.helloSession kx)
    (hEphemeral : reply.ephemeralPk.data.length = 32)
    (hSignature : reply.signature.data.length = 64)
    (hVersion :
      reply.selectedVersion ∈ c.config.supportedVersions)
    (hVerified :
      Crypto.verify S reply.signature reply.ephemeralPk.data
        c.session.serverSignKey.publicKey = true)
    (hKeys :
      Crypto.clientComputeSessionKeys S kx.keyPair
        reply.ephemeralPk = .ok keys)
    (hReady : input.callbackAnswer = .ok ()) :
    (onMessage S input { payload := reply.serialize }).run c =
      { result := .ok ()
        effects := invocation c.onReadyCallback .ready
        state :=
          { c with
            session :=
              c.session.established reply.selectedVersion none
                kx.keyPair keys } } := by
  have hRole : c.session.role = .client := by
    rw [hSession]
    exact freshClient_role _ _ _
  have hPeer : c.session.peerIdentity = none := by
    rw [hSession]
    unfold helloSession
    cases c.clientIdentityKp <;> rfl
  have hIncomplete : c.session.isHandshakeComplete = false := by
    rw [hSession]
    exact freshClient_incomplete _ _ _
  have hListed :
      reply.selectedVersion ∈ c.session.supportedVersions := by
    rw [hSession]
    unfold helloSession
    dsimp only
    rw [freshClient_versions]
    exact hVersion
  have hFinalize :=
    Session.clientFinalizeHandshake_succeeds
      hRole
      (show c.session.ephemeralKxKp = some kx.keyPair by
        rw [hSession]; rfl)
      hListed hVerified hKeys
  rw [hPeer] at hFinalize
  have hFinish :
      (finalizeHandshake S reply).run c =
        { result := .ok ()
          effects := []
          state :=
            { c with
              session :=
                c.session.established reply.selectedVersion
                  none kx.keyPair keys } } := by
    unfold finalizeHandshake
    rw [Action.run_atomic, hFinalize]
  have hProcess :
      (processMessage S input reply.serialize).run c =
        { result := .ok ()
          effects := invocation c.onReadyCallback .ready
          state :=
            { c with
              session :=
                c.session.established reply.selectedVersion
                  none kx.keyPair keys } } := by
    unfold processMessage
    rw [Action.run_get_bind, hIncomplete]
    simp only [Bool.not_false, if_true]
    unfold finishHandshake
    rw [ServerHello.deserialize_serialize hEphemeral hSignature,
      Action.run_ofExcept_ok_bind, Action.run_bind_ok hFinish,
      Action.run_get_bind]
    dsimp only
    rw [show Session.isHandshakeComplete _ = true from rfl,
      if_pos rfl, invokeHandler_run_eq, hReady, answered_ok]
    rfl
  unfold onMessage
  rw [if_neg (by simp), Action.run_catchAll, hProcess]

end WsClient

------------------------------------------------------------
-- The Server
------------------------------------------------------------

namespace WsServer

variable {S : Sodium}
variable {w : WsServer}
variable {hdl : Hdl}

/- The identity handler, if there is one, is asked. -/
theorem identityAccepted_consents
    {input : IoInput}
    (hConsents : Consents input w)
    (hdl : Hdl)
    (clientPk : PublicKey) :
    ∃ effects,
      (identityAccepted input hdl clientPk).run w =
          { result := .ok true
            effects := effects
            state := w } ∧
        effects.filterMap (ServerEffect.packet? hdl) = [] := by
  unfold identityAccepted
  rw [Action.run_get_bind]
  cases hHandler : w.clientIdentityHandler with
  | none => exact ⟨[], rfl, rfl⟩
  | some handler =>
      rcases hConsents with hNone | hYes
      · rw [hNone] at hHandler
        cases hHandler
      · refine
          ⟨[.invoke (.identity handler hdl clientPk)], ?_, rfl⟩
        dsimp only [invoke]
        rw [Action.run_emit_bind, hYes]
        rfl

/- What is left of the server once a session is stored. -/
structure Holds
    (hdl : Hdl)
    (session : Session)
    (w w' : WsServer) : Prop where
  config : w'.config = w.config
  dispatchers :
    ∀ isAuth, w'.dispatchersOf isAuth = w.dispatchersOf isAuth
  incoming : w'.incomingStreamHandler = w.incomingStreamHandler
  requests : w'.requests = w.requests
  streams : w'.streams = w.streams
  table :
    ∃ state,
      state.session = session ∧
        w'.sessionTable =
          w.sessionTable.emplace session.peerIdentity.isSome
            hdl state

/- The session is stored, and nothing more is sent. -/
theorem conclude_holds
    {input : IoInput}
    {hello : ClientHello}
    (session : Session)
    (hPeer :
      session.peerIdentity =
        if hello.hasClientIdentity then
          some hello.identityPk
        else
          none)
    (hConsents :
      hello.hasClientIdentity = true → Consents input w)
    (hdl : Hdl) :
    let o := (conclude input hdl hello session).run w
    o.result = .ok () ∧
      o.effects.filterMap (ServerEffect.packet? hdl) = [] ∧
        Holds hdl session w o.state := by
  dsimp only
  unfold conclude
  rw [Action.run_bind_ok (limiterRecord_run_eq _ w)]
  cases hFlag : hello.hasClientIdentity with
  | false =>
      rw [hFlag] at hPeer
      simp only [Bool.false_eq_true, if_false] at hPeer
      dsimp only
      rw [Action.run_bind_ok
        (establish_run_eq input hdl session none _)]
      refine
        ⟨rfl, rfl, rfl, fun _ => rfl, rfl, rfl, rfl, ?_⟩
      rw [hPeer]
      exact ⟨_, rfl, rfl⟩
  | true =>
      rw [hFlag] at hPeer
      simp only [if_true] at hPeer
      have hAsked :=
        identityAccepted_consents
          (w :=
            { w with
              rateLimiter :=
                if w.config.rateLimit.enabled then
                  w.rateLimiter.recordHandshake input.remoteIp
                    (nowMs (input.clock 1))
                else
                  w.rateLimiter })
          (hConsents hFlag) hdl hello.identityPk
      rcases hAsked with ⟨effects, hAsked, hSilent⟩
      simp only [Session.getPeerIdentity, hPeer]
      unfold establishIdentified
      rw [Action.bind_assoc, Action.run_bind_ok hAsked]
      simp only [if_true]
      rw [Action.run_bind_ok
        (establish_run_eq input hdl session
          (some hello.identityPk) _)]
      refine
        ⟨rfl, ?_, rfl, fun _ => rfl, rfl, rfl, rfl, ?_⟩
      · simpa [clearHandshakeTime, Action.modify] using hSilent
      · rw [hPeer]
        exact ⟨_, rfl, rfl⟩

variable (S) in
/- What is answered to a hello with a version in common. -/
def answer
    (kx : KxKeyPair)
    (version : Version)
    (w : WsServer) : ServerHello where
  selectedVersion := version
  ephemeralPk := kx.keyPair.publicKey
  signature :=
    ⟨S.signDetached kx.keyPair.publicKey.data
      w.serverSignKey.privateKey.data⟩

/- The session that answers a hello. -/
def answerSession
    (kx : KxKeyPair)
    (version : Version)
    (identity : Option PublicKey)
    (keys : SessionKeys)
    (w : WsServer) : Session :=
  (Session.new .server w.serverSignKey
    w.config.supportedVersions).established version identity
      kx.keyPair keys

/- A hello that verifies is answered, and stored. -/
theorem handshake_answers
    {input : IoInput}
    {data : Bytes}
    {hello : ClientHello}
    {version : Version}
    {keys : SessionKeys}
    (hRead : ClientHello.deserialize data = .ok hello)
    (hRate :
      w.config.rateLimit.enabled = true →
        (w.rateLimiter.checkHandshakeRate input.remoteIp
          (nowMs (input.clock 0))).1 = true)
    (hVersion :
      VersionNegotiator.negotiate hello.supportedVersions
        w.config.supportedVersions = some version)
    (hVerified :
      hello.hasClientIdentity = true →
        Crypto.verify S hello.identitySig
          hello.ephemeralPk.data hello.identityPk = true)
    (hSigns : S.SignsFor w.serverSignKey)
    (hKeys :
      Crypto.serverComputeSessionKeys S input.kx.keyPair
        hello.ephemeralPk = .ok keys)
    (hTransmit : input.transmit = .ok ())
    (hConsents :
      hello.hasClientIdentity = true → Consents input w)
    (hdl : Hdl) :
    let identity :=
      if hello.hasClientIdentity then
        some hello.identityPk
      else
        none
    let o := (handshake S input hdl data).run w
    o.result = .ok () ∧
      o.effects.filterMap (ServerEffect.packet? hdl) =
          [(w.answer S input.kx version).serialize] ∧
        Holds hdl
          (w.answerSession input.kx version identity keys)
          w o.state := by
  rcases limiterCheck_run_allowed hRate with
    ⟨rl, hCheck⟩
  have hRespond :
      (Session.new .server w.serverSignKey
          w.config.supportedVersions).serverRespondToHandshake
            S input.kx hello =
        (.ok (w.answer S input.kx version),
          w.answerSession input.kx version
            (if hello.hasClientIdentity then
              some hello.identityPk
            else
              none) keys) :=
    Session.serverRespondToHandshake_succeeds rfl hVersion
      hVerified hSigns hKeys
  have hConclude :=
    conclude_holds
      (w := { w with rateLimiter := rl })
      (w.answerSession input.kx version
        (if hello.hasClientIdentity then
          some hello.identityPk
        else
          none) keys)
      rfl hConsents hdl
  dsimp only
  unfold handshake
  rw [Action.run_bind_ok hCheck]
  simp only [Bool.not_true, Bool.false_eq_true, if_false]
  unfold respondToHello
  rw [hRead, Action.run_ofExcept_ok_bind, Action.run_get_bind]
  dsimp only
  rw [hRespond, Action.run_ofExcept_ok_bind,
    Action.run_emit_bind, hTransmit, Action.run_ofExcept_ok_bind]
  rcases hConclude with ⟨hResult, hSilent, hHolds⟩
  refine ⟨hResult, ?_, ?_⟩
  · have hReply :
        ServerEffect.packet? hdl
            (.transmit hdl
              (w.answer S input.kx version).serialize) =
          some (w.answer S input.kx version).serialize :=
      if_pos rfl
    rw [List.nil_append, List.filterMap_cons_some hReply,
      hSilent]
  · exact
      { config := hHolds.config
        dispatchers := hHolds.dispatchers
        incoming := hHolds.incoming
        requests := hHolds.requests
        streams := hHolds.streams
        table := hHolds.table }

/- A first message is taken for a hello. -/
theorem onMessage_greets
    {input : IoInput}
    {data : Bytes}
    (hUnknown :
      ∀ isAuth, (w.sessionTable.table isAuth)[hdl]? = none)
    (hDone :
      ((handshake S input hdl data).run w).result = .ok ()) :
    (onMessage S input hdl { payload := data }).run w =
      (handshake S input hdl data).run w := by
  have hReceive :
      (receive S input hdl data).run w =
        { result := .ok .unknown
          effects := []
          state := w } := by
    have hSessions : w.sessionTable.sessions[hdl]? = none :=
      hUnknown true
    have hAnon : w.sessionTable.anonSessions[hdl]? = none :=
      hUnknown false
    unfold receive
    rw [Action.run_atomically, Action.run_get_bind]
    simp only [hSessions, hAnon]
    rfl
  unfold onMessage
  rw [if_neg (by simp), Action.run_bind_ok hReceive]
  dsimp only
  rw [Action.run_catchAll, hDone]
  dsimp only
  rw [List.nil_append, ← hDone]

end WsServer

------------------------------------------------------------
-- The Link
------------------------------------------------------------

namespace Link

/- What is put in from outside while a link is set up. -/
structure Greeting where
  opened : ClientInput
  clientHdl : Hdl
  answered : IoInput
  finished : ClientInput

variable (S : Sodium)
variable (hdl : Hdl)

/- `on_open`, and the two messages of the handshake. -/
def connect (g : Greeting) (l : Link) : Link :=
  let opened :=
    l.afterClient
      ((WsClient.onOpen S g.opened g.clientHdl).run l.client)
      l.queue
  (opened.exec S hdl (.hearServer g.answered)).exec S hdl
    (.hearClient g.finished)

/- The client has an identity to tell. -/
def isAuth (l : Link) : Bool :=
  l.client.clientIdentityKp.isSome

/- Nothing has been done for the connection yet. -/
structure Waiting (l : Link) : Prop where
  config : l.server.config = l.client.config
  distinct : l.client.config.opcodes.Distinct
  unused : l.client.Unused
  unstored :
    ∀ isAuth, (l.server.sessionTable.table isAuth)[hdl]? = none
  pending : ∀ role id, (l.ending hdl role).pending id = none
  streams : ∀ role key, (l.ending hdl role).streams key = none
  queue : ∀ role, l.queue role = []

/- There is nothing to refuse in the handshake. -/
structure Welcome (g : Greeting) (l : Link) : Prop where
  versions : l.client.config.supportedVersions ≠ []
  count : l.client.config.supportedVersions.length ≤ 65535
  signs : S.SignsFor l.server.serverSignKey
  known :
    l.client.session.serverSignKey.publicKey =
      l.server.serverSignKey.publicKey
  identity :
    ∀ kp, l.client.clientIdentityKp = some kp → S.SignsFor kp
  crossed : S.Crossed g.opened.kx g.answered.kx
  rate :
    l.server.config.rateLimit.enabled = true →
      (l.server.rateLimiter.checkHandshakeRate
        g.answered.remoteIp
        (nowMs (g.answered.clock 0))).1 = true
  consents : l.isAuth = true → l.server.Consents g.answered
  opened : g.opened.transmit = .ok ()
  answered : g.answered.transmit = .ok ()
  finished : g.finished.callbackAnswer = .ok ()

variable {S}
variable {hdl}
variable {g : Greeting}
variable {l : Link}

/- Both ends have the same versions, so the first is chosen. -/
theorem negotiate_same
    {versions : List Version}
    (hVersions : versions ≠ []) :
    ∃ version ∈ versions,
      VersionNegotiator.negotiate versions versions =
        some version := by
  cases hFound :
      VersionNegotiator.negotiate versions versions with
  | some version =>
      exact
        ⟨version, (VersionNegotiator.negotiate_mem hFound).1,
          rfl⟩
  | none =>
      rw [VersionNegotiator.negotiate_eq_find?] at hFound
      rcases List.exists_mem_of_ne_nil _ hVersions with
        ⟨version, hMem⟩
      have hAbsent := List.find?_eq_none.mp hFound version hMem
      simp [hMem] at hAbsent

/- The session of the server, where nothing was stored. -/
theorem found_of_holds
    {session : Session}
    {w w' : WsServer}
    (hUnstored :
      ∀ isAuth, (w.sessionTable.table isAuth)[hdl]? = none)
    (hHolds : WsServer.Holds hdl session w w') :
    ∃ state,
      Found hdl session.peerIdentity.isSome state w' ∧
        state.session = session := by
  rcases hHolds.table with ⟨state, hSession, hTable⟩
  refine ⟨state, ⟨?_, ?_⟩, hSession⟩
  · rw [hTable, SessionTable.table_emplace_self,
      OrderedMap.insertIfNew_of_absent (hUnstored _),
      Std.ExtTreeMap.getElem?_insert_self]
  · intro hAnonymous
    have hOther :=
      SessionTable.table_emplace_not
        session.peerIdentity.isSome hdl state w.sessionTable
    rw [hAnonymous] at hOther hTable
    rw [hTable]
    exact
      (congrArg (fun m : Map Hdl ConnectionState => m[hdl]?)
        hOther).trans (hUnstored true)

/- The server has been reached by the hello of the client. -/
theorem answers_hello
    {version : Version}
    {keys : SessionKeys}
    (hWelcome : l.Welcome S g)
    (hVersion :
      VersionNegotiator.negotiate
        l.client.config.supportedVersions
        l.server.config.supportedVersions = some version)
    (hKeys :
      S.kxServerSessionKeys
        g.answered.kx.keyPair.publicKey.data
        g.answered.kx.keyPair.privateKey.data
        g.opened.kx.keyPair.publicKey.data = some keys)
    (hUnstored :
      ∀ isAuth,
        (l.server.sessionTable.table isAuth)[hdl]? = none) :
    let identity :=
      l.client.clientIdentityKp.map KeyPair.publicKey
    let o :=
      (WsServer.onMessage S g.answered hdl
        { payload :=
            (l.client.hello S g.opened.kx).serialize }).run
              l.server
    o.effects.filterMap (ServerEffect.packet? hdl) =
        [(l.server.answer S g.answered.kx version).serialize] ∧
      WsServer.Holds hdl
        (l.server.answerSession g.answered.kx version identity
          keys)
        l.server o.state := by
  have hParts :
      (l.client.hello S g.opened.kx).supportedVersions =
          l.client.config.supportedVersions ∧
        (l.client.hello S g.opened.kx).ephemeralPk =
          g.opened.kx.keyPair.publicKey ∧
        (l.client.hello S g.opened.kx).hasClientIdentity =
          l.client.clientIdentityKp.isSome ∧
        (if (l.client.hello S
            g.opened.kx).hasClientIdentity then
          some (l.client.hello S g.opened.kx).identityPk
        else
          none) =
          l.client.clientIdentityKp.map KeyPair.publicKey := by
    unfold WsClient.hello
    cases l.client.clientIdentityKp <;>
      exact ⟨rfl, rfl, rfl, rfl⟩
  rcases hParts with
    ⟨hVersions, hEphemeral, hFlag, hIdentity⟩
  have hRead :
      ClientHello.deserialize
          (l.client.hello S g.opened.kx).serialize =
        .ok (l.client.hello S g.opened.kx) :=
    ClientHello.deserialize_serialize
      (Session.identifiedHello_wellSized hWelcome.count
        g.opened.kx hWelcome.identity)
  have hCompute :
      Crypto.serverComputeSessionKeys S
          g.answered.kx.keyPair
          (l.client.hello S g.opened.kx).ephemeralPk =
        .ok keys := by
    rw [hEphemeral]
    exact
      Crypto.serverComputeSessionKeys_eq
        g.opened.kx.public_size hKeys
  have hAnswers :=
    WsServer.handshake_answers hRead hWelcome.rate
      (by rw [hVersions]; exact hVersion)
      (Session.identifiedHello_verified _ hWelcome.identity)
      hWelcome.signs hCompute hWelcome.answered
      (fun hIdentified =>
        hWelcome.consents (hFlag.symm.trans hIdentified))
      hdl
  dsimp only at hAnswers ⊢
  rw [hIdentity] at hAnswers
  rw [WsServer.onMessage_greets hUnstored hAnswers.1]
  exact hAnswers.2

/- What the handshake leaves at the two ends. -/
structure Introduced
    (hdl : Hdl)
    (isAuth : Bool)
    (l l' : Link) : Prop where
  terms : l'.terms isAuth = l.terms isAuth
  version :
    ∃ version ∈ l.client.config.supportedVersions,
      l'.client.session.getSelectedVersion = some version ∧
        ∀ state, Found hdl isAuth state l'.server →
          state.session.getSelectedVersion = some version
  identity :
    ∀ state, Found hdl isAuth state l'.server →
      state.session.getPeerIdentity =
        l.client.clientIdentityKp.map KeyPair.publicKey

/- The handlers stay as they were registered. -/
theorem terms_of_holds
    {l' : Link}
    {clientHdl : Option Hdl}
    {isConnected isAuth : Bool}
    {clientSession session : Session}
    (hClient :
      l'.client =
        { l.client with
          connectionHdl := clientHdl
          isConnected := isConnected
          session := clientSession })
    (hHolds : WsServer.Holds hdl session l.server l'.server) :
    l'.terms isAuth = l.terms isAuth := by
  have hHandlers :
      (l'.terms isAuth).requestHandlers =
        (l.terms isAuth).requestHandlers := by
    funext role
    cases role with
    | client =>
        change (WsClient.dispatchers _).requestHandlers = _
        rw [hClient]
        rfl
    | server =>
        change (WsServer.dispatchersOf _ _).requestHandlers = _
        rw [hHolds.dispatchers]
        rfl
  have hStarts :
      (l'.terms isAuth).startHandler =
        (l.terms isAuth).startHandler := by
    funext role opCode
    cases role with
    | client =>
        change WsClient.startHandler opCode _ = _
        rw [hClient]
        rfl
    | server =>
        change WsServer.startHandler isAuth opCode _ = _
        unfold WsServer.startHandler
        rw [hHolds.dispatchers, hHolds.incoming]
        rfl
  have hConfig :
      (l'.terms isAuth).config = (l.terms isAuth).config := by
    change (WsClient.config _) = _
    rw [hClient]
    rfl
  cases hLeft : l'.terms isAuth with
  | mk config requestHandlers startHandler =>
      rw [hLeft] at hConfig hHandlers hStarts
      dsimp only at hConfig hHandlers hStarts
      rw [hConfig, hHandlers, hStarts]

/- The keys of the two ends. -/
def keysOf
    (clientKeys serverKeys : SessionKeys) :
    Role → SessionKeys
| .client => clientKeys
| .server => serverKeys

/- Each message of the handshake is handled at once. -/
theorem connect_run
    {hello reply : Bytes}
    {c c' : WsClient}
    {effects : List ClientEffect}
    (hQueue : ∀ role, l.queue role = [])
    (hOpen :
      (WsClient.onOpen S g.opened g.clientHdl).run l.client =
        { result := .ok ()
          effects := [.transmit (some g.clientHdl) hello]
          state := c })
    (hAnswer :
      ((WsServer.onMessage S g.answered hdl
        { payload := hello }).run
          l.server).effects.filterMap
            (ServerEffect.packet? hdl) = [reply])
    (hFinish :
      (WsClient.onMessage S g.finished
        { payload := reply }).run c =
        { result := .ok (), effects := effects, state := c' })
    (hSilent : effects.filterMap ClientEffect.packet? = []) :
    (l.connect S hdl g).client = c' ∧
      (l.connect S hdl g).server =
          ((WsServer.onMessage S g.answered hdl
            { payload := hello }).run l.server).state ∧
        ∀ role, (l.connect S hdl g).queue role = [] := by
  have hHello :
      carry .client [hello] l.queue .server = [hello] := by
    change l.queue .server ++ [hello] = _
    rw [hQueue .server]
    rfl
  have hSent :
      l.afterClient
          ((WsClient.onOpen S g.opened g.clientHdl).run
            l.client) l.queue =
        { client := c
          server := l.server
          queue := carry .client [hello] l.queue } := by
    rw [hOpen]
    rfl
  have hAnswered :
      exec S hdl
          { client := c
            server := l.server
            queue := carry .client [hello] l.queue }
          (.hearServer g.answered) =
        { client := c
          server :=
            ((WsServer.onMessage S g.answered hdl
              { payload := hello }).run l.server).state
          queue :=
            carry .server [reply]
              (Function.update (carry .client [hello] l.queue)
                .server []) } := by
    unfold exec
    dsimp only
    rw [hHello]
    unfold afterServer
    dsimp only
    rw [hAnswer]
  have hReply :
      carry .server [reply]
          (Function.update (carry .client [hello] l.queue)
            .server []) .client = [reply] := by
    change l.queue .client ++ [reply] = _
    rw [hQueue .client]
    rfl
  unfold connect
  dsimp only
  rw [hSent, hAnswered]
  unfold exec
  dsimp only
  rw [hReply]
  unfold afterClient
  dsimp only
  rw [hFinish]
  refine ⟨rfl, rfl, ?_⟩
  intro role
  dsimp only
  rw [hSilent]
  cases role <;> rfl

theorem connect_established
    (hWaiting : l.Waiting hdl)
    (hWelcome : l.Welcome S g) :
    let l' := l.connect S hdl g
    (∃ keys, l'.Established hdl l.isAuth keys) ∧
      Introduced hdl l.isAuth l l' := by
  rcases negotiate_same hWelcome.versions with
    ⟨version, hListed, hVersion⟩
  rcases hWelcome.crossed with
    ⟨clientKeys, serverKeys, hClientKeys, hServerKeys,
      hForward, hBackward⟩
  have hOpen :=
    WsClient.onOpen_sends hWaiting.unused hWelcome.identity
      hWelcome.opened g.clientHdl
  have hAnswer :=
    answers_hello hWelcome
      (by rw [hWaiting.config]; exact hVersion) hServerKeys
      hWaiting.unstored
  dsimp only at hAnswer
  let c : WsClient :=
    { l.client with
      connectionHdl := some g.clientHdl
      isConnected := true
      session := l.client.helloSession g.opened.kx }
  have hPinned :
      c.session.serverSignKey = l.client.session.serverSignKey :=
    freshClient_serverKey _ _ _
  have hVerified :
      Crypto.verify S
          (l.server.answer S g.answered.kx version).signature
          (l.server.answer S
            g.answered.kx version).ephemeralPk.data
          c.session.serverSignKey.publicKey = true := by
    rw [hPinned, hWelcome.known]
    exact Crypto.verify_of_signsFor hWelcome.signs _
  have hFinish :=
    WsClient.onMessage_finishes (S := S) (c := c)
      (l.server.answer S g.answered.kx version)
      WsClient.helloSession_again.symm
      g.answered.kx.public_size (S.length_signDetached _ _)
      hListed hVerified
      (Crypto.clientComputeSessionKeys_eq
        g.answered.kx.public_size hClientKeys)
      hWelcome.finished
  rcases connect_run hWaiting.queue hOpen hAnswer.1 hFinish
      (by cases c.onReadyCallback <;> rfl) with
    ⟨hClient, hServer, hQueue⟩
  have hHolds := hAnswer.2
  rw [← hServer] at hHolds
  have hIsAuth :
      (l.server.answerSession g.answered.kx version
          (l.client.clientIdentityKp.map KeyPair.publicKey)
          serverKeys).peerIdentity.isSome = l.isAuth :=
    Option.isSome_map
  rcases found_of_holds hWaiting.unstored hHolds with
    ⟨state, hFound, hSession⟩
  rw [hIsAuth] at hFound
  have hOnly (state' : ConnectionState) :
      Found hdl l.isAuth state' (l.connect S hdl g).server →
        state' = state := by
    intro hFound'
    exact
      Option.some.inj (hFound'.stored.symm.trans hFound.stored)
  have hCounters :
      c.session.sendCounter = 0 ∧ c.session.recvCounter = 0 := by
    change
      (freshClient _ _ _).sendCounter = 0 ∧
        (freshClient _ _ _).recvCounter = 0
    cases l.client.clientIdentityKp <;> exact ⟨rfl, rfl⟩
  refine ⟨⟨keysOf clientKeys serverKeys, ?_⟩, ?_⟩
  · exact
      { config := by
          rw [hClient, hHolds.config]
          exact hWaiting.config
        distinct := by
          rw [hClient]
          exact hWaiting.distinct
        isConnected := by rw [hClient]
        clientReady := by
          rw [hClient]
          exact Session.ready_established _ _ _ _ _
        clientCounters := by
          rw [hClient]
          exact hCounters
        server := by
          refine ⟨state, hFound, ?_⟩
          rw [hSession]
          exact
            ⟨Session.ready_established _ _ _ _ _, rfl, rfl⟩
        crossed := by
          intro role
          cases role with
          | client => exact hForward
          | server => exact hBackward.symm
        pending := by
          intro role id
          cases role with
          | client =>
              change
                (WsClient.ending _).pending id = none
              rw [hClient]
              exact hWaiting.pending .client id
          | server =>
              change
                (WsServer.requests _).pendingAt hdl id = none
              rw [hHolds.requests]
              exact hWaiting.pending .server id
        streams := by
          intro role key
          cases role with
          | client =>
              change
                (WsClient.ending _).streams key = none
              rw [hClient]
              exact hWaiting.streams .client key
          | server =>
              change
                (WsServer.streams _).find hdl key = none
              rw [hHolds.streams]
              exact hWaiting.streams .server key
        queue := hQueue }
  · exact
      { terms := terms_of_holds hClient hHolds
        version := by
          refine ⟨version, hListed, ?_, ?_⟩
          · rw [hClient]
            rfl
          · intro state' hFound'
            rw [hOnly state' hFound', hSession]
            rfl
        identity := by
          intro state' hFound'
          rw [hOnly state' hFound', hSession]
          rfl }

------------------------------------------------------------
-- A Sample Connection
------------------------------------------------------------

open PlainSodium

/- Both ends serve requests with the operation code 9. -/
def sample : Link where
  client :=
    { WsClient.new (sampleKeyPair 6)
        { Config.withDefaults with
          rateLimit := { enabled := false } }
        true with
      clientIdentityKp := some (sampleKeyPair 5)
      dispatchers :=
        { requestHandlers :=
            (∅ : HandlerTable).insert 9 (some 3)
          streamHandlers :=
            (∅ : HandlerTable).insert 8 (some 1) } }
  server :=
    { WsServer.new (sampleKeyPair 6)
        { Config.withDefaults with
          rateLimit := { enabled := false } }
        true with
      clientIdentityHandler := some 2
      dispatchers :=
        { requestHandlers :=
            (∅ : HandlerTable).insert 9 (some 4)
          streamHandlers :=
            (∅ : HandlerTable).insert 8 (some 5) } }
  queue := fun _ => []

/- The ephemeral keys are 7 and 8. -/
def sampleGreeting : Greeting where
  opened := WsClient.smooth (sampleKx 7)
  clientHdl := 1
  answered := .smooth (sampleKx 8)
  finished := WsClient.smooth (sampleKx 7)

theorem lookupAt_empty
    {V : Type}
    (hdl : Hdl)
    (id : UInt32) :
    NestedMap.lookupAt hdl id (∅ : NestedMap V) = none := by
  unfold NestedMap.lookupAt
  rw [Std.ExtTreeMap.getElem?_empty]

theorem sample_waiting : sample.Waiting 1 where
  config := rfl
  distinct := by decide
  unused := rfl
  unstored := by
    intro isAuth
    cases isAuth <;> exact Std.ExtTreeMap.getElem?_empty
  pending := by
    intro role id
    cases role with
    | client => exact Std.ExtTreeMap.getElem?_empty
    | server => exact lookupAt_empty 1 id
  streams := by
    intro role key
    cases role with
    | client => exact Std.ExtTreeMap.getElem?_empty
    | server => exact lookupAt_empty 1 key
  queue := fun _ => rfl

theorem sample_welcome :
    sample.Welcome plainSodium sampleGreeting where
  versions := by decide
  count := by decide
  signs := plainSodium_signsFor 6
  known := rfl
  identity := by
    intro kp hSome
    cases hSome
    exact plainSodium_signsFor 5
  crossed := plainSodium_crossed _ _
  rate := by
    intro hEnabled
    cases hEnabled
  consents := fun _ => Or.inr rfl
  opened := rfl
  answered := rfl
  finished := rfl

/- The sample connection, after its handshake. -/
def connected : Link :=
  sample.connect plainSodium 1 sampleGreeting

end Link

end ObscuraProto
