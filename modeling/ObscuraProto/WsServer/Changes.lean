import ObscuraProto.WsServer.Frame

/-
  What an event of the server may change.

  Only the first section of `on_message` advances a receive
  counter, only a handshake adds a session and an identity,
  and only `on_close` removes them; everything else is within
  the frame of a send.

  Key definitions include:
    * `WsServer.Accepts`, `WsServer.Answers`
    * `WsServer.Stored`, `WsServer.Closed`
    * `WsServer.Change`

  Key theorems include:
    * `WsServer.receive_spec`
    * `WsServer.handshake_cases`
    * `WsServer.onMessage_cases`
    * `WsServer.onClose_cases`
    * `WsServer.next_change`
-/

namespace ObscuraProto

open Effectful

namespace WsServer

variable (S : Sodium)

------------------------------------------------------------
-- The First Section of on_message
------------------------------------------------------------

theorem limiterCheck_run
    {check : RateLimiter → Bool × RateLimiter}
    (hCounts : ∀ rl, RateLimiter.SameCounts rl (check rl).2)
    (w : WsServer) :
    ∃ allowed rl,
      (limiterCheck check).run w =
        { result := .ok allowed
          effects := []
          state := { w with rateLimiter := rl } } ∧
        w.rateLimiter.SameCounts rl ∧
        (w.config.rateLimit.enabled = true →
          allowed = (check w.rateLimiter).1) := by
  unfold limiterCheck
  rw [Action.run_get_bind]
  split
  · exact ⟨_, _, rfl, hCounts w.rateLimiter, fun _ => rfl⟩
  · next hDisabled =>
      exact
        ⟨_, w.rateLimiter, rfl, .refl _,
          fun hEnabled => absurd hEnabled hDisabled⟩

theorem limiterRecord_run
    {record : RateLimiter → RateLimiter}
    (hCounts : ∀ rl, RateLimiter.SameCounts rl (record rl))
    (w : WsServer) :
    ∃ rl,
      (limiterRecord record).run w =
        { result := .ok ()
          effects := []
          state := { w with rateLimiter := rl } } ∧
        w.rateLimiter.SameCounts rl := by
  unfold limiterRecord
  rw [Action.run_get_bind]
  split
  · exact ⟨_, rfl, hCounts w.rateLimiter⟩
  · exact ⟨w.rateLimiter, rfl, .refl _⟩

theorem closeHdl_run
    (input : IoInput)
    (hdl : Hdl)
    (status : CloseStatus)
    (reason : String)
    (w : WsServer) :
    (closeHdl input hdl status reason).run w =
      { result := input.close hdl reason
        effects := [.close hdl status reason]
        state := w } := by
  unfold closeHdl
  rw [Action.run_emit_bind]
  rfl

theorem requestSection_run
    (f : RequestTable → List Completion × RequestTable)
    (w : WsServer) :
    (requestSection f).run w =
      { result := .ok ()
        effects := (f w.requests).1.map .complete
        state :=
          { w with requests := (f w.requests).2 } } := by
  unfold requestSection
  rw [Action.run_atomic]

/- A close, then a return: the state is unchanged. -/
theorem closeHdl_return_run
    {α : Type}
    (input : IoInput)
    (hdl : Hdl)
    (status : CloseStatus)
    (reason : String)
    (a : α)
    (w : WsServer) :
    ∃ result effects,
      (closeHdl input hdl status reason >>= fun _ =>
          pure a).run w =
        { result := result, effects := effects, state := w } ∧
        (∀ hdl packet,
          ServerEffect.transmit hdl packet ∉ effects) ∧
        (result = .ok a ∨ ∃ e, result = .error e) := by
  have hClose := closeHdl_run input hdl status reason w
  cases hAnswer : input.close hdl reason with
  | error e =>
      rw [hAnswer] at hClose
      rw [Action.run_bind_error hClose]
      exact ⟨_, _, rfl, by simp, Or.inr ⟨e, rfl⟩⟩
  | ok u =>
      rw [hAnswer] at hClose
      rw [Action.run_bind_ok hClose]
      exact ⟨_, _, rfl, by simp, Or.inl rfl⟩

/- A callback leaves the state to its caller. -/
theorem invokeHandler_run
    (handler : Option HandlerId)
    (callback : HandlerId → ServerCallback)
    (answer : Except Exception Unit)
    (w : WsServer) :
    ∃ result effects,
      (invokeHandler handler callback answer).run w =
        { result := result
          effects := effects
          state := w } := by
  cases handler with
  | none => exact ⟨_, _, rfl⟩
  | some handler =>
      unfold invokeHandler invoke
      rw [Action.run_bind_ok (a := ()) rfl]
      exact ⟨_, _, rfl⟩

/- The stored connection after an accepted packet. -/
def ConnectionState.received
    (counter : UInt64)
    (lastActivityMs : Int)
    (state : ConnectionState) : ConnectionState :=
  { state with
    session := { state.session with recvCounter := counter }
    lastActivityMs := lastActivityMs }

/-
  The packet opened under the key of the stored session, and
  only its receive counter and activity time are written.
-/
structure Accepts
    (S : Sodium)
    (hdl : Hdl)
    (packet : Bytes)
    (isAuth : Bool)
    (opened : Crypto.DecryptedResult)
    (w : WsServer)
    (effects : List ServerEffect)
    (w' : WsServer) : Prop where
  silent :
    ∀ hdl packet, ServerEffect.transmit hdl packet ∉ effects
  config : w'.config = w.config
  serverSignKey : w'.serverSignKey = w.serverSignKey
  identities : w'.identities = w.identities
  counts : w.rateLimiter.SameCounts w'.rateLimiter
  connection :
    ∃ state keys lastActivityMs,
      (w.sessionTable.table isAuth)[hdl]? = some state ∧
        state.session.Ready keys ∧
        Crypto.decrypt S packet keys.rx = .ok opened ∧
        state.session.recvCounter < opened.counter ∧
        w'.sessionTable =
          w.sessionTable.store isAuth hdl
            (ConnectionState.received opened.counter
              lastActivityMs state)

/- What may be reported after `payload` was decrypted. -/
structure Reports
    (isAuth : Bool)
    (payload : Payload)
    (result : Except Exception Received) : Prop where
  decrypted :
    ∀ isAuth' payload',
      result = .ok (.decrypted isAuth' payload') →
        isAuth' = isAuth ∧ payload' = payload
  known : result ≠ .ok .unknown

/- A swallowed exception reports nothing. -/
theorem Reports.swallow
    {isAuth : Bool}
    {payload : Payload}
    {result : Except Exception Received}
    (hReports : Reports isAuth payload result) :
    Reports isAuth payload
      (Action.recover .ignored result) := by
  cases result with
  | ok received => exact hReports
  | error e => constructor <;> simp [Action.recover]

/- The records of a decrypted payload touch one entry. -/
theorem keepPayload_run
    (input : IoInput)
    (hdl : Hdl)
    (isAuth : Bool)
    (rateLimiterId : UInt64)
    (payload : Payload)
    (w : WsServer) :
    ∃ result effects rl t,
      (keepPayload input hdl isAuth rateLimiterId
          payload).run w =
        { result := result
          effects := effects
          state :=
            { w with rateLimiter := rl, sessionTable := t } } ∧
        (∀ hdl packet,
          ServerEffect.transmit hdl packet ∉ effects) ∧
        (t = w.sessionTable ∨
          ∃ now,
            t = w.sessionTable.touch isAuth hdl now) ∧
        Reports isAuth payload result ∧
        w.rateLimiter.SameCounts rl := by
  unfold keepPayload
  rw [Action.run_get_bind]
  split
  · rcases closeHdl_return_run input hdl .policyViolation
        "Payload too large" Received.ignored w with
      ⟨result, effects, hRun, hSilent, hResult⟩
    rw [hRun]
    refine
      ⟨result, effects, w.rateLimiter, _, rfl, hSilent,
        Or.inl rfl, ?_, .refl _⟩
    rcases hResult with hIgnored | ⟨e, hError⟩
    · constructor <;> simp [hIgnored]
    · constructor <;> simp [hError]
  · rcases limiterRecord_run
        (fun rl =>
          rl.recordMessage_counts rateLimiterId
            (nowUs (input.clock 1))) w with
      ⟨rl, hRecord, hCounts⟩
    rw [Action.run_bind_ok hRecord, Action.run_modify_bind]
    refine
      ⟨_, _, rl, _, rfl, by simp,
        Or.inr ⟨nowMs (input.clock 2), rfl⟩, ?_, hCounts⟩
    constructor
    · intro isAuth' payload' hResult
      cases hResult
      exact ⟨rfl, rfl⟩
    · simp

/- A rejected packet stores the session back unchanged. -/
theorem accept_cases
    {w : WsServer}
    {isAuth : Bool}
    {hdl : Hdl}
    {state : ConnectionState}
    (hStored :
      (w.sessionTable.table isAuth)[hdl]? = some state)
    (input : IoInput)
    (packet : Bytes) :
    let o := (accept S input hdl packet isAuth state).run w
    (Quiet w o.effects o.state ∧
        ∃ e, o.result = .error e) ∨
      ∃ opened,
        Accepts S hdl packet isAuth opened w o.effects
            o.state ∧
          Reports isAuth opened.payload o.result := by
  dsimp only
  unfold accept
  rcases Session.decryptPacket_cases S state.session packet
    with ⟨e, hRejected⟩ |
      ⟨keys, opened, hReady, hOpened, hNewer, hAccepted⟩
  · apply Or.inl
    have hDecrypt :
        (decrypt S hdl packet isAuth state).run w =
          { result := .error e
            effects := []
            state :=
              { w with
                sessionTable :=
                  w.sessionTable.store isAuth hdl state } } := by
      simp only [decrypt, Action.run_atomic, hRejected]
    rw [Action.run_bind_error hDecrypt]
    exact
      ⟨⟨rfl, rfl, rfl, SessionTable.store_same hStored,
        .refl _, by simp⟩, e, rfl⟩
  · apply Or.inr
    refine ⟨opened, ?_⟩
    have hDecrypt :
        (decrypt S hdl packet isAuth state).run w =
          { result := .ok opened.payload
            effects := []
            state :=
              { w with
                sessionTable :=
                  w.sessionTable.store isAuth hdl
                    (ConnectionState.received opened.counter
                      state.lastActivityMs state) } } := by
      simp only [decrypt, Action.run_atomic, hAccepted]
      rfl
    rw [Action.run_bind_ok hDecrypt]
    rcases keepPayload_run input hdl isAuth
        state.rateLimiterId opened.payload
        { w with
          sessionTable :=
            w.sessionTable.store isAuth hdl
              (ConnectionState.received opened.counter
                state.lastActivityMs state) } with
      ⟨result, effects, rl, t, hRun, hSilent, hTable,
        hReports, hCounts⟩
    rw [hRun]
    refine
      ⟨{ silent := by simpa using hSilent
         config := rfl
         serverSignKey := rfl
         identities := rfl
         counts := hCounts
         connection := ?_ }, hReports⟩
    rcases hTable with hSame | ⟨now, hTouched⟩
    · exact
        ⟨state, keys, _, hStored, hReady, hOpened, hNewer,
          hSame⟩
    · rw [SessionTable.touch_store] at hTouched
      exact
        ⟨state, keys, now, hStored, hReady, hOpened, hNewer,
          hTouched⟩

/- How the first section may end for a stored session. -/
def ReceiveSpec
    (S : Sodium)
    (hdl : Hdl)
    (packet : Bytes)
    (w : WsServer)
    (o :
      Outcome Exception ServerEffect WsServer Received) :
    Prop :=
  (Quiet w o.effects o.state ∧
      ∀ isAuth payload,
        o.result ≠ .ok (.decrypted isAuth payload)) ∨
    ∃ isAuth opened,
      Accepts S hdl packet isAuth opened w o.effects
          o.state ∧
        Reports isAuth opened.payload o.result

theorem receiveFrom_spec
    (isAuth : Bool)
    {w : WsServer}
    {hdl : Hdl}
    {state : ConnectionState}
    (hStored :
      (w.sessionTable.table isAuth)[hdl]? = some state)
    (input : IoInput)
    (packet : Bytes) :
    let o :=
      (receiveFrom S input hdl packet isAuth state).run w
    ReceiveSpec S hdl packet w o ∧
      o.result ≠ .ok .unknown := by
  dsimp only
  unfold receiveFrom
  split
  · refine ⟨Or.inl ⟨composes_quiet.refl w, ?_⟩, ?_⟩ <;>
      simp
  · rcases limiterCheck_run
        (fun rl =>
          rl.checkMessageRate_counts state.rateLimiterId
            (nowUs (input.clock 0))) w with
      ⟨allowed, rl, hCheck, hCounts, _⟩
    have hLimited : Quiet w [] { w with rateLimiter := rl } :=
      ⟨rfl, rfl, rfl, rfl, hCounts, by simp⟩
    rw [Action.run_bind_ok hCheck]
    cases allowed with
    | false =>
        rcases closeHdl_return_run input hdl .policyViolation
            "Message rate limit exceeded" Received.ignored
            { w with rateLimiter := rl } with
          ⟨result, effects, hRun, hSilent, hResult⟩
        simp only [Bool.not_false, if_true, hRun]
        have hOther :
            ∀ received, received ≠ .ignored →
              result ≠ .ok received := by
          rcases hResult with hIgnored | ⟨e, hError⟩
          · simp [hIgnored, eq_comm]
          · simp [hError]
        refine
          ⟨Or.inl ⟨⟨rfl, rfl, rfl, rfl, hCounts, hSilent⟩,
            ?_⟩, ?_⟩
        · intro isAuth' payload
          exact hOther _ (by simp)
        · exact hOther _ (by simp)
    | true =>
        simp only [Bool.not_true, Bool.false_eq_true,
          if_false, Action.run_catchAll_pure]
        rcases accept_cases S
            (w := { w with rateLimiter := rl }) hStored input
            packet with
          ⟨hSends, e, hError⟩ | ⟨opened, hAccepts, hReports⟩
        · rw [hError]
          refine ⟨Or.inl ⟨?_, ?_⟩, ?_⟩
          · exact composes_quiet.trans hLimited hSends
          · simp [Action.recover]
          · simp [Action.recover]
        · refine
            ⟨Or.inr
              ⟨isAuth, opened, ?_, hReports.swallow⟩,
              hReports.swallow.known⟩
          exact
            { silent := hAccepts.silent
              config := hAccepts.config
              serverSignKey := hAccepts.serverSignKey
              identities := hAccepts.identities
              counts := hCounts.trans hAccepts.counts
              connection := hAccepts.connection }

theorem receive_spec
    (input : IoInput)
    (hdl : Hdl)
    (packet : Bytes)
    (w : WsServer) :
    let o := (receive S input hdl packet).run w
    ReceiveSpec S hdl packet w o ∧
      (o.result = .ok .unknown →
        o.state = w ∧
          ∀ isAuth,
            (w.sessionTable.table isAuth)[hdl]? = none) := by
  dsimp only
  unfold receive
  rw [Action.run_atomically, Action.run_get_bind]
  split
  · next state hStored =>
      rcases receiveFrom_spec S true hStored input packet with
        ⟨hSpec, hKnown⟩
      exact ⟨hSpec, fun hResult => absurd hResult hKnown⟩
  · next hNone =>
      split
      · next state hStored =>
          rcases receiveFrom_spec S false hStored input
              packet with
            ⟨hSpec, hKnown⟩
          exact
            ⟨hSpec, fun hResult => absurd hResult hKnown⟩
      · next hNone' =>
          refine ⟨Or.inl ⟨composes_quiet.refl w, ?_⟩, ?_⟩
          · simp
          · intro _
            refine ⟨rfl, ?_⟩
            intro isAuth
            cases isAuth with
            | true => exact hNone
            | false => exact hNone'

------------------------------------------------------------
-- The Handshake
------------------------------------------------------------

/- The maps after a registration, if there is an identity. -/
def registered
    (hdl : Hdl)
    (identity : Option PublicKey)
    (m : IdentityMap) : IdentityMap :=
  match identity with
  | none => m
  | some clientPk => m.register hdl clientPk

theorem establish_run_eq
    (input : IoInput)
    (hdl : Hdl)
    (session : Session)
    (identity : Option PublicKey)
    (w : WsServer) :
    (establish input hdl session identity).run w =
      { result := .ok ()
        effects := []
        state :=
          { w with
            rateLimiter :=
              (w.rateLimiter.registerConnection
                input.remoteIp).2
            sessionTable :=
              w.sessionTable.emplace identity.isSome hdl
                { session := session
                  rateLimiterId := w.rateLimiter.nextConnId
                  remoteIp := input.remoteIp
                  lastActivityMs := nowMs (input.clock 2) }
            identities :=
              registered hdl identity w.identities } } := by
  have hRegister :
      (limiter
          (fun rl =>
            rl.registerConnection input.remoteIp)).run w =
        { result :=
            .ok
              (w.rateLimiter.registerConnection
                input.remoteIp).1
          effects := []
          state :=
            { w with
              rateLimiter :=
                (w.rateLimiter.registerConnection
                  input.remoteIp).2 } } :=
    rfl
  unfold establish
  rw [Action.run_bind_ok hRegister, Action.run_modify_bind]
  cases identity with
  | none => rfl
  | some clientPk => rfl

theorem establish_run
    (input : IoInput)
    (hdl : Hdl)
    (session : Session)
    (identity : Option PublicKey)
    (w : WsServer) :
    ∃ rateLimiterId,
      (establish input hdl session identity).run w =
        { result := .ok ()
          effects := []
          state :=
            { w with
              rateLimiter :=
                (w.rateLimiter.registerConnection
                  input.remoteIp).2
              sessionTable :=
                w.sessionTable.emplace identity.isSome hdl
                  { session := session
                    rateLimiterId := rateLimiterId
                    remoteIp := input.remoteIp
                    lastActivityMs := nowMs (input.clock 2) }
              identities :=
                registered hdl identity w.identities } } :=
  ⟨_, establish_run_eq input hdl session identity w⟩

/- No identity handler is set, or it has said yes. -/
def Consents (input : IoInput) (w : WsServer) : Prop :=
  w.clientIdentityHandler = none ∨
    input.identityAnswer = .ok true

theorem identityAccepted_run
    (input : IoInput)
    (hdl : Hdl)
    (clientPk : PublicKey)
    (w : WsServer) :
    ∃ result effects,
      (identityAccepted input hdl clientPk).run w =
        { result := result
          effects := effects
          state := w } ∧
        (result = .ok true → Consents input w) := by
  unfold identityAccepted
  rw [Action.run_get_bind]
  split
  · next hNone => exact ⟨_, _, rfl, fun _ => Or.inl hNone⟩
  · unfold invoke
    rw [Action.run_bind_ok (a := ()) rfl]
    exact ⟨_, _, rfl, fun hYes => Or.inr hYes⟩

/- The session as it is stored, and its registration. -/
structure Stored
    (remoteIp : String)
    (hdl : Hdl)
    (session : Session)
    (w w' : WsServer) : Prop where
  config : w'.config = w.config
  serverSignKey : w'.serverSignKey = w.serverSignKey
  counts :
    ∃ rl,
      w.rateLimiter.SameCounts rl ∧
        w'.rateLimiter = (rl.registerConnection remoteIp).2
  table :
    ∃ rateLimiterId lastActivityMs,
      w'.sessionTable =
        w.sessionTable.emplace session.peerIdentity.isSome hdl
          { session := session
            rateLimiterId := rateLimiterId
            remoteIp := remoteIp
            lastActivityMs := lastActivityMs }
  identities :
    w'.identities =
      registered hdl session.peerIdentity w.identities

/- What precedes may have kept the counters. -/
theorem Stored.after_counts
    {remoteIp : String}
    {hdl : Hdl}
    {session : Session}
    {w w' : WsServer}
    {rl : RateLimiter}
    {openTime : Map Hdl Int}
    (hStored :
      Stored remoteIp hdl session { w with rateLimiter := rl }
        w')
    (hCounts : w.rateLimiter.SameCounts rl) :
    Stored remoteIp hdl session w
      { w' with handshakeOpenTime := openTime } where
  config := hStored.config
  serverSignKey := hStored.serverSignKey
  counts := by
    rcases hStored.counts with ⟨rl', hSame, hRegistered⟩
    exact ⟨rl', hCounts.trans hSame, hRegistered⟩
  table := hStored.table
  identities := hStored.identities

theorem not_mem_cleared
    (hdl : Hdl)
    (openTime : Map Hdl Int) :
    hdl ∉ openTime.erase hdl := by
  simp

/- Identified sessions need the consent of the handler. -/
theorem establishIdentified_cases
    (input : IoInput)
    (hdl : Hdl)
    {session : Session}
    {clientPk : PublicKey}
    (hPeer : session.peerIdentity = some clientPk)
    (w : WsServer) :
    let o :=
      (establishIdentified input hdl session clientPk).run w
    o.state = w ∨
      (o.result = .ok () ∧
        Stored input.remoteIp hdl session w o.state ∧
        Consents input w) := by
  dsimp only
  unfold establishIdentified
  rcases identityAccepted_run input hdl clientPk w with
    ⟨result, effects, hAsk, hConsents⟩
  cases result with
  | error e =>
      rw [Action.run_bind_error hAsk]
      exact Or.inl rfl
  | ok accepted =>
      rw [Action.run_bind_ok hAsk]
      cases accepted with
      | false =>
          simp only [Bool.false_eq_true, if_false,
            closeHdl_run]
          exact Or.inl trivial
      | true =>
          rcases establish_run input hdl session
              (some clientPk) w with
            ⟨rateLimiterId, hRun⟩
          simp only [if_true, hRun]
          refine
            Or.inr
              ⟨trivial,
                ⟨rfl, rfl, ⟨_, .refl _, rfl⟩, ?_, ?_⟩,
                hConsents rfl⟩
          · rw [hPeer]
            exact ⟨rateLimiterId, _, rfl⟩
          · rw [hPeer]

/- After the reply: a refusal, or the session is stored. -/
theorem conclude_cases
    (input : IoInput)
    (hdl : Hdl)
    (hello : ClientHello)
    {session : Session}
    (hPeer :
      session.peerIdentity =
        if hello.hasClientIdentity then
          some hello.identityPk
        else
          none)
    (w : WsServer) :
    let o := (conclude input hdl hello session).run w
    OnlySends w o.effects o.state ∨
      (Stored input.remoteIp hdl session w o.state ∧
        hdl ∉ o.state.handshakeOpenTime ∧
        (hello.hasClientIdentity = true →
          Consents input w)) := by
  dsimp only
  unfold conclude
  rcases limiterRecord_run
      (fun rl =>
        rl.recordHandshake_counts input.remoteIp
          (nowMs (input.clock 1))) w with
    ⟨rl, hRecord, hCounts⟩
  rw [Action.run_bind_ok hRecord]
  cases hFlag : hello.hasClientIdentity with
  | false =>
      rw [hFlag] at hPeer
      simp only [Bool.false_eq_true, if_false] at hPeer
      rcases establish_run input hdl session none
          { w with rateLimiter := rl } with
        ⟨rateLimiterId, hRun⟩
      simp only
      rw [Action.run_bind_ok hRun]
      refine
        Or.inr
          ⟨⟨rfl, rfl, ⟨rl, hCounts, rfl⟩, ?_, ?_⟩,
            not_mem_cleared hdl _, by simp⟩
      · rw [hPeer]
        exact ⟨rateLimiterId, _, rfl⟩
      · rw [hPeer]
        rfl
  | true =>
      rw [hFlag] at hPeer
      simp only [if_true] at hPeer
      simp only [Session.getPeerIdentity, hPeer]
      have hCases :=
        establishIdentified_cases input hdl hPeer
          { w with rateLimiter := rl }
      cases hRun :
          (establishIdentified input hdl session
            hello.identityPk).run
              { w with rateLimiter := rl } with
      | mk result effects state =>
          rw [hRun] at hCases
          simp only at hCases
          cases result with
          | error e =>
              rw [Action.run_bind_error hRun]
              rcases hCases with hSame | ⟨hOk, _, _⟩
              · subst hSame
                exact
                  Or.inl
                    (OnlySends.of_eq rfl rfl rfl rfl hCounts)
              · cases hOk
          | ok u =>
              rw [Action.run_bind_ok hRun]
              rcases hCases with
                hSame | ⟨_, hStored, hConsents⟩
              · subst hSame
                exact
                  Or.inl
                    (OnlySends.of_eq rfl rfl rfl rfl hCounts)
              · exact
                  Or.inr
                    ⟨hStored.after_counts hCounts,
                      not_mem_cleared hdl _,
                      fun _ => hConsents⟩

/- A valid hello was answered by a fresh session. -/
structure Answers
    (S : Sodium)
    (kx : KxKeyPair)
    (data : Bytes)
    (hello : ClientHello)
    (reply : ServerHello)
    (session : Session)
    (w : WsServer) : Prop where
  hello_eq : ClientHello.deserialize data = .ok hello
  replied :
    (Session.new .server w.serverSignKey
        w.config.supportedVersions).serverRespondToHandshake S
          kx hello = (.ok reply, session)

/- The peer identity is the one whose signature verified. -/
theorem Answers.peerIdentity
    {S : Sodium}
    {kx : KxKeyPair}
    {data : Bytes}
    {hello : ClientHello}
    {reply : ServerHello}
    {session : Session}
    {w : WsServer}
    (hAnswers : Answers S kx data hello reply session w) :
    session.peerIdentity =
      if hello.hasClientIdentity then
        some hello.identityPk
      else
        none := by
  rcases Session.serverRespondToHandshake_ok S
      hAnswers.replied with
    ⟨_, version, keys, _, _, _, _, _, _, hSession⟩
  rw [hSession]
  rfl

/- What lets the answer to a hello end in a session. -/
structure Admits
    (input : IoInput)
    (hello : ClientHello)
    (w : WsServer) : Prop where
  rate :
    w.config.rateLimit.enabled = true →
      (w.rateLimiter.checkHandshakeRate input.remoteIp
        (nowMs (input.clock 0))).1 = true
  transmitted : input.transmit = .ok ()
  consents :
    hello.hasClientIdentity = true → Consents input w

theorem handshake_cases
    (input : IoInput)
    (hdl : Hdl)
    (data : Bytes)
    (w : WsServer) :
    let o := (handshake S input hdl data).run w
    OnlySends w o.effects o.state ∨
      ∃ hello reply session,
        Answers S input.kx data hello reply session w ∧
          Admits input hello w ∧
          Stored input.remoteIp hdl session w o.state ∧
          hdl ∉ o.state.handshakeOpenTime := by
  dsimp only
  unfold handshake
  rcases limiterCheck_run
      (fun rl =>
        rl.checkHandshakeRate_counts input.remoteIp
          (nowMs (input.clock 0))) w with
    ⟨allowed, rl, hCheck, hCounts, hRate⟩
  rw [Action.run_bind_ok hCheck]
  cases allowed with
  | false =>
      simp only [Bool.not_false, if_true, closeHdl_run]
      exact Or.inl (OnlySends.of_eq rfl rfl rfl rfl hCounts)
  | true =>
      simp only [Bool.not_true, Bool.false_eq_true, if_false]
      unfold respondToHello
      cases hHello : ClientHello.deserialize data with
      | error e =>
          rw [Action.run_ofExcept_error_bind]
          exact Or.inl (OnlySends.of_eq rfl rfl rfl rfl hCounts)
      | ok hello =>
          rw [Action.run_ofExcept_ok_bind, Action.run_get_bind]
          dsimp only
          cases hReply :
              (Session.new .server w.serverSignKey
                w.config.supportedVersions
                ).serverRespondToHandshake S input.kx
                  hello with
          | mk reply session =>
              cases reply with
              | error e =>
                  rw [Action.run_ofExcept_error_bind]
                  exact
                    Or.inl (OnlySends.of_eq rfl rfl rfl rfl hCounts)
              | ok reply =>
                  rw [Action.run_ofExcept_ok_bind,
                    Action.run_bind_ok (a := ()) rfl]
                  have hAnswers :
                      Answers S input.kx data hello reply
                        session w :=
                    ⟨hHello, hReply⟩
                  cases hTransmit : input.transmit with
                  | error e =>
                      rw [Action.run_ofExcept_error_bind]
                      exact
                        Or.inl
                          (OnlySends.of_eq rfl rfl rfl rfl hCounts)
                  | ok u =>
                      rw [Action.run_ofExcept_ok_bind]
                      rcases conclude_cases input hdl hello
                          hAnswers.peerIdentity
                          { w with rateLimiter := rl } with
                        hSends |
                          ⟨hStored, hCleared, hConsents⟩
                      · exact
                          Or.inl
                            ⟨hSends.config,
                              hSends.serverSignKey,
                              hSends.identities,
                              hSends.connections,
                              hCounts.trans hSends.counts⟩
                      · exact
                          Or.inr
                            ⟨hello, reply, session, hAnswers,
                              { rate := fun hEnabled =>
                                  (hRate hEnabled).symm
                                transmitted := hTransmit
                                consents := hConsents },
                              hStored.after_counts hCounts,
                              hCleared⟩

------------------------------------------------------------
-- on_message and on_close
------------------------------------------------------------

/-
  A message is one of three things: within the frame of a
  send, a packet accepted on a stored session and then
  dispatched, or a hello that establishes a session.
-/
theorem onMessage_cases
    (input : IoInput)
    (hdl : Hdl)
    (frame : Frame)
    (w : WsServer) :
    let o := (onMessage S input hdl frame).run w
    OnlySends w o.effects o.state ∨
      (∃ isAuth opened effects w₁ effects',
        Accepts S hdl frame.payload isAuth opened w effects
            w₁ ∧
          OnlySends w₁ effects' o.state) ∨
      (frame.binary = true ∧
        (∀ isAuth,
          (w.sessionTable.table isAuth)[hdl]? = none) ∧
        ∃ hello reply session,
          Answers S input.kx frame.payload hello reply
              session w ∧
            Admits input hello w ∧
            Stored input.remoteIp hdl session w o.state ∧
            hdl ∉ o.state.handshakeOpenTime) := by
  dsimp only
  unfold onMessage
  split
  · exact Or.inl (composes_onlySends.refl w)
  · next hBinary =>
    have hBinary : frame.binary = true := by
      simpa using hBinary
    rcases receive_spec S input hdl frame.payload w with
      ⟨hSpec, hUnknown⟩
    cases hRun : (receive S input hdl frame.payload).run w with
    | mk result effects state =>
        rw [hRun] at hSpec hUnknown
        cases result with
        | error e =>
            rw [Action.run_bind_error hRun]
            rcases hSpec with
              ⟨hSends, _⟩ | ⟨isAuth, opened, hAccepts, _⟩
            · exact Or.inl hSends.onlySends
            · exact
                Or.inr
                  (Or.inl
                    ⟨isAuth, opened, _, state, [], hAccepts,
                      composes_onlySends.refl state⟩)
        | ok received =>
            rw [Action.run_bind_ok hRun]
            cases received with
            | ignored =>
                rcases hSpec with
                  ⟨hSends, _⟩ |
                    ⟨isAuth, opened, hAccepts, _⟩
                · exact Or.inl (hSends.onlySends.forget _)
                · exact
                    Or.inr
                      (Or.inl
                        ⟨isAuth, opened, _, state, [],
                          hAccepts,
                          composes_onlySends.refl state⟩)
            | decrypted isAuth payload =>
                have hDispatch :=
                  Sends.run
                    (Ensures.catchAll
                      (dispatch_sends S input hdl isAuth
                        payload)
                      (fun _ => Ensures.pure ())) state
                rcases hSpec with
                  ⟨_, hNot⟩ | ⟨isAuth', opened, hAccepts, _⟩
                · exact absurd rfl (hNot isAuth payload)
                · exact
                    Or.inr
                      (Or.inl
                        ⟨isAuth', opened, _, state, _,
                          hAccepts, hDispatch⟩)
            | unknown =>
                rcases hUnknown rfl with ⟨hState, hNone⟩
                simp only at hState
                subst hState
                simp only
                rw [Action.state_run_catchAll
                  (fun e s => by rw [closeHdl_run])]
                rcases handshake_cases S input hdl
                    frame.payload state with
                  hSends | hEstablished
                · exact Or.inl (hSends.forget _)
                · exact
                    Or.inr
                      (Or.inr ⟨hBinary, hNone, hEstablished⟩)

/- The maps and tables after `on_close`. -/
structure Closed
    (hdl : Hdl)
    (w w' : WsServer) : Prop where
  config : w'.config = w.config
  serverSignKey : w'.serverSignKey = w.serverSignKey
  table :
    ∀ isAuth,
      w'.sessionTable.table isAuth =
        (w.sessionTable.table isAuth).erase hdl
  identities : w'.identities = w.identities.unregister hdl
  rateLimiter :
    w'.rateLimiter =
      (closeSession false hdl
        (closeSession true hdl w)).rateLimiter
  openTime :
    w'.handshakeOpenTime = w.handshakeOpenTime.erase hdl
  streams : w'.streams = w.streams.closeConnection hdl
  requests :
    w'.requests = (w.requests.closeConnection hdl).2

theorem closeSession_table
    (isAuth isAuth' : Bool)
    (hdl : Hdl)
    (w : WsServer) :
    (closeSession isAuth hdl w).sessionTable.table isAuth' =
      if isAuth' = isAuth then
        (w.sessionTable.table isAuth').erase hdl
      else
        w.sessionTable.table isAuth' := by
  unfold closeSession
  cases hEntry : (w.sessionTable.table isAuth)[hdl]? with
  | some state =>
      by_cases hSame : isAuth' = isAuth
      · subst hSame
        simp only [if_true, SessionTable.table_erase_self]
      · have hNot : isAuth' = !isAuth :=
          Bool.eq_not.mpr hSame
        subst hNot
        simp
  | none =>
      by_cases hSame : isAuth' = isAuth
      · subst hSame
        simp only [if_true]
        exact (OrderedMap.erase_of_absent hEntry).symm
      · simp only [if_neg hSame]

theorem closeSession_frame
    (isAuth : Bool)
    (hdl : Hdl)
    (w : WsServer) :
    (closeSession isAuth hdl w).config = w.config ∧
      (closeSession isAuth hdl w).serverSignKey =
          w.serverSignKey ∧
        (closeSession isAuth hdl w).identities =
          w.identities ∧
        (closeSession isAuth hdl w).handshakeOpenTime =
          w.handshakeOpenTime ∧
        (closeSession isAuth hdl w).streams = w.streams ∧
        (closeSession isAuth hdl w).requests =
          w.requests := by
  unfold closeSession
  split <;> exact ⟨rfl, rfl, rfl, rfl, rfl, rfl⟩

/- A close callback that throws keeps everything in place. -/
theorem onClose_cases
    (input : IoInput)
    (hdl : Hdl)
    (w : WsServer) :
    let o := (onClose input hdl).run w
    (o.state = w ∧ ∃ e, o.result = .error e) ∨
      Closed hdl w o.state := by
  dsimp only
  unfold onClose
  rw [Action.run_get_bind]
  rcases invokeHandler_run w.onCloseCallback
      (fun handler => .onClose handler hdl)
      input.callbackAnswer w with
    ⟨result, effects, hRun⟩
  cases result with
  | error e =>
      rw [Action.run_bind_error hRun]
      exact Or.inl ⟨rfl, e, rfl⟩
  | ok u =>
      apply Or.inr
      rw [Action.run_bind_ok hRun, Action.run_modify_bind,
        Action.run_modify_bind, Action.run_modify_bind,
        Action.run_bind_ok (a := ()) rfl]
      rcases closeSession_frame true hdl w with
        ⟨hConfig, hKey, hIdentities, hTimes, hStreams,
          hRequests⟩
      rcases closeSession_frame false hdl
          (closeSession true hdl w) with
        ⟨hConfig', hKey', hIdentities', hTimes', hStreams',
          hRequests'⟩
      refine
        { config := hConfig'.trans hConfig
          serverSignKey := hKey'.trans hKey
          table := ?_
          identities := ?_
          rateLimiter := rfl
          openTime := ?_
          streams := ?_
          requests := ?_ }
      · intro isAuth
        have hTable :=
          closeSession_table false isAuth hdl
            (closeSession true hdl w)
        rw [closeSession_table true isAuth hdl w] at hTable
        cases isAuth with
        | true => exact hTable
        | false => exact hTable
      · exact
          congrArg (IdentityMap.unregister hdl)
            (hIdentities'.trans hIdentities)
      · exact
          congrArg
            (fun openTime : Map Hdl Int => openTime.erase hdl)
            (hTimes'.trans hTimes)
      · exact
          congrArg (StreamTable.closeConnection hdl)
            (hStreams'.trans hStreams)
      · exact
          congrArg
            (fun t => (RequestTable.closeConnection hdl t).2)
            (hRequests'.trans hRequests)

------------------------------------------------------------
-- Every Event
------------------------------------------------------------

/- What an event does to the sessions and identities. -/
inductive Change (S : Sodium) :
    ServerEvent → WsServer → WsServer → Prop
| sends
    {event : ServerEvent}
    {w w' : WsServer} :
    OnlySends w [] w' → Change S event w w'
| receives
    {input : IoInput}
    {hdl : Hdl}
    {frame : Frame}
    {isAuth : Bool}
    {opened : Crypto.DecryptedResult}
    {effects : List ServerEffect}
    {w w₁ w' : WsServer} :
    Accepts S hdl frame.payload isAuth opened w effects
        w₁ →
      OnlySends w₁ [] w' →
        Change S (.message input hdl frame) w w'
| establishes
    {input : IoInput}
    {hdl : Hdl}
    {frame : Frame}
    {hello : ClientHello}
    {reply : ServerHello}
    {session : Session}
    {w w' : WsServer} :
    frame.binary = true →
      (∀ isAuth,
          (w.sessionTable.table isAuth)[hdl]? = none) →
        Answers S input.kx frame.payload hello reply session
            w →
          Admits input hello w →
            Stored input.remoteIp hdl session w w' →
              hdl ∉ w'.handshakeOpenTime →
                Change S (.message input hdl frame) w w'
| closes
    {input : IoInput}
    {hdl : Hdl}
    {w w' : WsServer} :
    Closed hdl w w' → Change S (.closed input hdl) w w'

theorem next_change
    (event : ServerEvent)
    (w : WsServer) :
    Change S event w (next S w event) := by
  unfold next
  cases event with
  | opened input hdl =>
      exact .sends ((onOpen_sends S input hdl).run w |>.forget [])
  | message input hdl frame =>
      rcases onMessage_cases S input hdl frame w with
        hSends |
          ⟨isAuth, opened, effects, w₁, effects', hAccepts,
            hSends⟩ |
            ⟨hBinary, hNone, hello, reply, session, hAnswers,
              hAdmits, hStored, hCleared⟩
      · exact .sends (hSends.forget [])
      · exact .receives hAccepts (hSends.forget [])
      · exact
          .establishes hBinary hNone hAnswers hAdmits hStored
            hCleared
  | closed input hdl =>
      rcases onClose_cases input hdl w with
        ⟨hSame, _⟩ | hClosed
      · apply Change.sends
        simp only [handle, hSame]
        exact composes_onlySends.refl w
      · exact .closes hClosed
  | timeouts input =>
      exact .sends ((checkTimeouts_sends S input).run w |>.forget [])
  | call method =>
      exact .sends ((call_sends S method).run w |>.forget [])

------------------------------------------------------------
-- Identities of Connections
------------------------------------------------------------

theorem Accepts.identityOf
    {S : Sodium}
    {hdl : Hdl}
    {packet : Bytes}
    {isAuth : Bool}
    {opened : Crypto.DecryptedResult}
    {effects : List ServerEffect}
    {w w' : WsServer}
    (hAccepts :
      Accepts S hdl packet isAuth opened w effects w')
    (other : Hdl) :
    w'.sessionTable.identityOf other =
      w.sessionTable.identityOf other := by
  rcases hAccepts.connection with
    ⟨state, keys, now, hStored, _, _, _, hTable⟩
  rw [hTable]
  cases isAuth with
  | false => rfl
  | true =>
      unfold SessionTable.identityOf SessionTable.store
      simp only [if_true]
      by_cases hSame : other = hdl
      · have hSession :
            w.sessionTable.sessions[hdl]? = some state :=
          hStored
        rw [hSame, Std.ExtTreeMap.getElem?_insert_self,
          hSession]
        rfl
      · rw [OrderedMap.getElem?_insert_of_ne hSame]

theorem Stored.identityOf
    {remoteIp : String}
    {hdl : Hdl}
    {session : Session}
    {w w' : WsServer}
    (hStored : Stored remoteIp hdl session w w')
    (hNone :
      ∀ isAuth, (w.sessionTable.table isAuth)[hdl]? = none)
    (other : Hdl) :
    w'.sessionTable.identityOf other =
      if other = hdl then
        session.peerIdentity
      else
        w.sessionTable.identityOf other := by
  rcases hStored.table with
    ⟨rateLimiterId, now, hTable⟩
  have hAbsent : w.sessionTable.sessions[hdl]? = none :=
    hNone true
  rw [hTable]
  unfold SessionTable.identityOf SessionTable.emplace
  cases hPeer : session.peerIdentity with
  | none =>
      simp only [Option.isSome_none, Bool.false_eq_true,
        if_false]
      split
      · next hSame => rw [hSame, hAbsent]; rfl
      · rfl
  | some pk =>
      simp only [Option.isSome_some, if_true,
        OrderedMap.insertIfNew_of_absent hAbsent]
      split
      · next hSame =>
          rw [hSame, Std.ExtTreeMap.getElem?_insert_self]
          exact hPeer
      · next hOther =>
          rw [OrderedMap.getElem?_insert_of_ne hOther]

theorem Closed.identityOf
    {hdl : Hdl}
    {w w' : WsServer}
    (hClosed : Closed hdl w w')
    (other : Hdl) :
    w'.sessionTable.identityOf other =
      if other = hdl then
        none
      else
        w.sessionTable.identityOf other := by
  have hTable :
      w'.sessionTable.sessions =
        w.sessionTable.sessions.erase hdl :=
    hClosed.table true
  unfold SessionTable.identityOf
  rw [hTable]
  split
  · next hSame =>
      rw [hSame, Std.ExtTreeMap.getElem?_erase_self]
      rfl
  · next hOther =>
      rw [OrderedMap.getElem?_erase_of_ne hOther]

------------------------------------------------------------
-- The Map From Connections to Identities
------------------------------------------------------------

/- A handshake registers what it stores. -/
theorem Stored.agree
    {remoteIp : String}
    {hdl : Hdl}
    {session : Session}
    {w w' : WsServer}
    (hStored : Stored remoteIp hdl session w w')
    (hAgree :
      ∀ hdl,
        w.identities.hdlToIdentity[hdl]? =
          w.sessionTable.identityOf hdl)
    (hNone :
      ∀ isAuth, (w.sessionTable.table isAuth)[hdl]? = none)
    (other : Hdl) :
    w'.identities.hdlToIdentity[other]? =
      w'.sessionTable.identityOf other := by
  have hSessions : w.sessionTable.sessions[hdl]? = none :=
    hNone true
  rw [hStored.identityOf hNone other, hStored.identities]
  unfold registered
  cases hPeer : session.peerIdentity with
  | none =>
      by_cases hSame : other = hdl
      · rw [if_pos hSame, hSame, hAgree hdl]
        simp [SessionTable.identityOf, hSessions]
      · rw [if_neg hSame]
        exact hAgree other
  | some clientPk =>
      simp only [IdentityMap.register]
      by_cases hSame : other = hdl
      · rw [if_pos hSame, hSame]
        exact Std.ExtTreeMap.getElem?_insert_self
      · rw [if_neg hSame,
          OrderedMap.getElem?_insert_of_ne hSame]
        exact hAgree other

theorem Closed.agree
    {hdl : Hdl}
    {w w' : WsServer}
    (hClosed : Closed hdl w w')
    (hAgree :
      ∀ hdl,
        w.identities.hdlToIdentity[hdl]? =
          w.sessionTable.identityOf hdl)
    (other : Hdl) :
    w'.identities.hdlToIdentity[other]? =
      w'.sessionTable.identityOf other := by
  rw [hClosed.identityOf other, hClosed.identities]
  unfold IdentityMap.unregister
  have hOther := hAgree other
  cases hFound : w.identities.hdlToIdentity[hdl]? with
  | none =>
      by_cases hSame : other = hdl
      · rw [if_pos hSame, hSame]
        exact hFound
      · rw [if_neg hSame]
        exact hOther
  | some pk =>
      by_cases hSame : other = hdl
      · rw [if_pos hSame, hSame]
        exact Std.ExtTreeMap.getElem?_erase_self
      · rw [if_neg hSame,
          OrderedMap.getElem?_erase_of_ne hSame]
        exact hOther

end WsServer

end ObscuraProto
