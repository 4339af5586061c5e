import ObscuraProto.Library.StateMachine
import ObscuraProto.RemoteEndpoint
import ObscuraProto.WsServer.Counting

/-
  The limits on established sessions.

  A session belongs to the address of its peer, whatever the
  source port is.  The limit on all connections is tested
  when a connection opens, a session is counted when its
  handshake completes, and the limit per address is tested
  nowhere.  The limits hold along a run if every handshake
  that completes finds room for its session.

  Key definitions include:
    * `ConnectionLimits.sizeAt`
    * `ConnectionLimits.WithinLimits`
    * `ConnectionLimits.completesHandshake`
    * `ConnectionLimits.HasRoom`

  Key theorems include:
    * `ConnectionLimits.connection_limits`
    * `ConnectionLimits.stored_withinLimits_iff`
    * `ConnectionLimits.limits_exceeded`
-/

namespace ObscuraProto

namespace ConnectionLimits

open Effectful WsServer

variable (S : Sodium)

------------------------------------------------------------
-- The Property
------------------------------------------------------------

/- The established sessions whose peers have this address. -/
def sizeAt (address : String) (t : SessionTable) : Nat :=
  t.tally (fun text => remoteAddress text == address)

/- The established sessions are within the enabled limits. -/
structure WithinLimits (w : WsServer) : Prop where
  total :
    w.config.connectionLimits.enabled = true →
      w.config.connectionLimits.maxTotal > 0 →
        w.sessionTable.size ≤
          w.config.connectionLimits.maxTotal.toNat
  perIp :
    w.config.connectionLimits.enabled = true →
      w.config.connectionLimits.maxPerIp > 0 →
        ∀ address,
          sizeAt address w.sessionTable ≤
            w.config.connectionLimits.maxPerIp.toNat

------------------------------------------------------------
-- The Condition
------------------------------------------------------------

/- One more session from this peer is within the limits. -/
def HasRoom (remoteIp : String) (w : WsServer) : Prop :=
  w.config.connectionLimits.enabled = true →
    (w.config.connectionLimits.maxTotal > 0 →
        w.sessionTable.size <
          w.config.connectionLimits.maxTotal.toNat) ∧
      (w.config.connectionLimits.maxPerIp > 0 →
        sizeAt (remoteAddress remoteIp) w.sessionTable <
          w.config.connectionLimits.maxPerIp.toNat)

instance (remoteIp : String) (w : WsServer) :
    Decidable (HasRoom remoteIp w) := by
  unfold HasRoom
  infer_instance

/-
  The message is the ClientHello of a connection without a
  session, it is not rate limited, it is answered, and no
  identity handler refuses it.
-/
def completesHandshake
    (input : IoInput)
    (hdl : Hdl)
    (frame : Frame)
    (w : WsServer) : Bool :=
  frame.binary &&
    (w.sessionTable.sessions[hdl]?).isNone &&
    (w.sessionTable.anonSessions[hdl]?).isNone &&
    (!w.config.rateLimit.enabled ||
      (w.rateLimiter.checkHandshakeRate input.remoteIp
        (nowMs (input.clock 0))).1) &&
    decide (input.transmit = .ok ()) &&
    match ClientHello.deserialize frame.payload with
    | .error _ => false
    | .ok hello =>
        ((Session.new .server w.serverSignKey
            w.config.supportedVersions
            ).serverRespondToHandshake S input.kx
              hello).1.isOk &&
          (!hello.hasClientIdentity ||
            w.clientIdentityHandler.isNone ||
            decide (input.identityAnswer = .ok true))

/- An event of the io thread, a call, or `stop`. -/
inductive Step where
| event (event : ServerEvent)
| stop

def exec (w : WsServer) : Step → WsServer
| .event event => next S w event
| .stop => (stop.run w).state

/- Handshakes complete only while there is room. -/
def CompletesWithRoom (w : WsServer) : Step → Prop
| .event (.message input hdl frame) =>
    completesHandshake S input hdl frame w = true →
      HasRoom input.remoteIp w
| _ => True

instance (w : WsServer) (step : Step) :
    Decidable (CompletesWithRoom S w step) := by
  unfold CompletesWithRoom
  split <;> infer_instance

------------------------------------------------------------
-- Handshakes That Complete
------------------------------------------------------------

variable {S}

theorem completesHandshake_of_answers
    {input : IoInput}
    {hdl : Hdl}
    {frame : Frame}
    {hello : ClientHello}
    {reply : ServerHello}
    {session : Session}
    {w : WsServer}
    (hBinary : frame.binary = true)
    (hNone :
      ∀ isAuth, (w.sessionTable.table isAuth)[hdl]? = none)
    (hAnswers :
      Answers S input.kx frame.payload hello reply session w)
    (hAdmits : Admits input hello w) :
    completesHandshake S input hdl frame w = true := by
  have hSessions : w.sessionTable.sessions[hdl]? = none :=
    hNone true
  have hAnon : w.sessionTable.anonSessions[hdl]? = none :=
    hNone false
  have hRate :
      (!w.config.rateLimit.enabled ||
        (w.rateLimiter.checkHandshakeRate input.remoteIp
          (nowMs (input.clock 0))).1) = true := by
    cases hEnabled : w.config.rateLimit.enabled with
    | false => rfl
    | true => exact hAdmits.rate hEnabled
  have hConsents :
      (!hello.hasClientIdentity ||
        w.clientIdentityHandler.isNone ||
        decide (input.identityAnswer = .ok true)) = true := by
    cases hFlag : hello.hasClientIdentity with
    | false => rfl
    | true =>
        rcases hAdmits.consents hFlag with hUnset | hYes
        · simp [hUnset]
        · simp [hYes]
  unfold completesHandshake
  rw [hBinary, hSessions, hAnon, hRate, hAdmits.transmitted,
    hAnswers.hello_eq]
  simp only [hAnswers.replied, hConsents]
  rfl

------------------------------------------------------------
-- Single Steps
------------------------------------------------------------

theorem WithinLimits.of_tally_le
    {w w' : WsServer}
    (hWithin : WithinLimits w)
    (hConfig : w'.config = w.config)
    (hTally :
      ∀ p : String → Bool,
        w'.sessionTable.tally p ≤ w.sessionTable.tally p) :
    WithinLimits w' := by
  constructor
  · intro hEnabled hLimited
    rw [hConfig] at hEnabled hLimited ⊢
    have hBefore := hWithin.total hEnabled hLimited
    have hSize := hTally (fun _ => true)
    simp only [SessionTable.tally_true] at hSize
    omega
  · intro hEnabled hLimited address
    rw [hConfig] at hEnabled hLimited ⊢
    exact
      (hTally _).trans
        (hWithin.perIp hEnabled hLimited address)

/- A handshake keeps the limits just if it has room. -/
theorem stored_withinLimits_iff
    {remoteIp : String}
    {hdl : Hdl}
    {session : Session}
    {w w' : WsServer}
    (hWithin : WithinLimits w)
    (hNone :
      ∀ isAuth, (w.sessionTable.table isAuth)[hdl]? = none)
    (hStored : Stored remoteIp hdl session w w') :
    WithinLimits w' ↔ HasRoom remoteIp w := by
  have hSize :
      w'.sessionTable.size = w.sessionTable.size + 1 := by
    rw [← SessionTable.tally_true, hStored.tally hNone,
      SessionTable.tally_true, if_pos rfl]
  have hSizeAt (address : String) :
      sizeAt address w'.sessionTable =
        sizeAt address w.sessionTable +
          if remoteAddress remoteIp == address then 1 else 0 :=
    hStored.tally hNone _
  have hConfig := hStored.config
  constructor
  · intro hAfter hEnabled
    constructor
    · intro hLimited
      have hTotal :=
        hAfter.total (hConfig ▸ hEnabled)
          (hConfig ▸ hLimited)
      rw [hConfig] at hTotal
      omega
    · intro hLimited
      have hPerIp :=
        hAfter.perIp (hConfig ▸ hEnabled)
          (hConfig ▸ hLimited) (remoteAddress remoteIp)
      rw [hConfig, hSizeAt, beq_self_eq_true, if_pos rfl]
        at hPerIp
      omega
  · intro hRoom
    constructor
    · intro hEnabled hLimited
      rw [hConfig] at hEnabled hLimited ⊢
      have hTotal := (hRoom hEnabled).1 hLimited
      omega
    · intro hEnabled hLimited address
      rw [hConfig] at hEnabled hLimited ⊢
      have hBefore := hWithin.perIp hEnabled hLimited address
      rw [hSizeAt]
      by_cases hSame : remoteAddress remoteIp = address
      · subst hSame
        have hPerIp := (hRoom hEnabled).2 hLimited
        rw [beq_self_eq_true, if_pos rfl]
        omega
      · rw [if_neg (by simpa using hSame)]
        omega

theorem closed_tally_le
    {hdl : Hdl}
    {w w' : WsServer}
    (hClosed : Closed hdl w w')
    (p : String → Bool) :
    w'.sessionTable.tally p ≤ w.sessionTable.tally p := by
  have hCount (isAuth : Bool) :
      OrderedMap.count (fun state => p state.remoteIp)
          (w'.sessionTable.table isAuth) ≤
        OrderedMap.count (fun state => p state.remoteIp)
          (w.sessionTable.table isAuth) := by
    rw [hClosed.table isAuth]
    exact OrderedMap.count_erase_le _ _ _
  exact Nat.add_le_add (hCount true) (hCount false)

theorem stop_tally_le
    (w : WsServer)
    (p : String → Bool) :
    (stop.run w).state.sessionTable.tally p ≤
      w.sessionTable.tally p := by
  have hEmpty : (stop.run w).state.sessionTable = {} := rfl
  rw [hEmpty, SessionTable.tally_empty]
  exact Nat.zero_le _

theorem WithinLimits.next
    {w : WsServer}
    {event : ServerEvent}
    (hWithin : WithinLimits w)
    (hRoom : CompletesWithRoom S w (.event event)) :
    WithinLimits (next S w event) := by
  have hChange := next_change S event w
  generalize WsServer.next S w event = w' at hChange ⊢
  cases hChange with
  | sends hSends =>
      refine hWithin.of_tally_le hSends.config (fun p => ?_)
      rw [(OnlySends.unreplaced hSends).tally]
  | receives hAccepts hSends =>
      refine
        hWithin.of_tally_le
          (hSends.config.trans hAccepts.config) (fun p => ?_)
      rw [(OnlySends.unreplaced hSends).tally,
        (Accepts.unreplaced hAccepts).tally]
  | establishes hBinary hNone hAnswers hAdmits hStored _ =>
      apply (stored_withinLimits_iff hWithin hNone hStored).mpr
      exact
        hRoom
          (completesHandshake_of_answers hBinary hNone
            hAnswers hAdmits)
  | closes hClosed =>
      exact
        hWithin.of_tally_le hClosed.config
          (closed_tally_le hClosed)

theorem WithinLimits.exec
    {w : WsServer}
    {step : Step}
    (hWithin : WithinLimits w)
    (hRoom : CompletesWithRoom S w step) :
    WithinLimits (exec S w step) := by
  cases step with
  | event event => exact hWithin.next hRoom
  | stop => exact hWithin.of_tally_le rfl (stop_tally_le w)

theorem withinLimits_new
    (serverSignKey : KeyPair)
    (config : Config)
    {hasOwner : Bool} :
    WithinLimits (WsServer.new serverSignKey config hasOwner) := by
  have hTally (p : String → Bool) :
      (WsServer.new serverSignKey config hasOwner).sessionTable.tally
          p = 0 :=
    SessionTable.tally_empty p
  constructor
  · intro _ _
    rw [← SessionTable.tally_true, hTally]
    exact Nat.zero_le _
  · intro _ _ address
    exact (hTally _).trans_le (Nat.zero_le _)

------------------------------------------------------------
-- Runs
------------------------------------------------------------

/-
  In every run of opens, messages, closes, timer checks,
  calls and stops whose completing handshakes find room.
-/
theorem connection_limits
    {serverSignKey : KeyPair}
    {config : Config}
    {hasOwner : Bool}
    {steps : List Step}
    {w : WsServer}
    (hRun :
      StateMachine.Run
        (StateMachine.Guarded (CompletesWithRoom S) (exec S))
        (WsServer.new serverSignKey config hasOwner) steps w) :
    WithinLimits w := by
  refine
    hRun.invariant ?_ (withinLimits_new serverSignKey config)
  rintro v step v' hBefore ⟨hRoom, hExec⟩
  rw [hExec]
  exact hBefore.exec hRoom

------------------------------------------------------------
-- Two Opens Before the First Handshake
------------------------------------------------------------

open PlainSodium

/- A server that admits one session in all. -/
def oneInAll : WsServer :=
  new (sampleKeyPair 6)
    { Config.withDefaults with
      connectionLimits := { maxTotal := 1 } }
    true

/- A server that admits two, but one from each address. -/
def onePerIp : WsServer :=
  new (sampleKeyPair 6)
    { Config.withDefaults with
      connectionLimits := { maxTotal := 2, maxPerIp := 1 } }
    true

def inputOf (peer : RemoteEndpoint) (n : UInt8) : IoInput :=
  { IoInput.smooth (sampleKx n) with remoteIp := peer.text }

/- The connection opens, or its ClientHello arrives. -/
def opens (peer : RemoteEndpoint) (hdl : Hdl) : Step :=
  .event (.opened (inputOf peer 0) hdl)

def hello
    (peer : RemoteEndpoint)
    (hdl : Hdl)
    (ephemeral : UInt8) : Step :=
  .event
    (.message (inputOf peer ephemeral) hdl
      { payload := (sampleHello 5 ephemeral).serialize })

/- Two ports of one address, and another address. -/
def first : RemoteEndpoint := ⟨"10.0.0.1", 5000⟩
def second : RemoteEndpoint := ⟨"10.0.0.1", 5001⟩
def other : RemoteEndpoint := ⟨"10.0.0.2", 5000⟩

/- Both connections are open before either is counted. -/
def overlapping : List Step :=
  [opens first 1, opens other 2, hello first 1 1,
    hello other 2 2]

/- Each connection has its handshake when it has opened. -/
def successive (peer : RemoteEndpoint) : List Step :=
  [opens first 1, hello first 1 1, opens peer 2,
    hello peer 2 2]

set_option maxRecDepth 8000 in
theorem connection_limits_apart :
    let w :=
      (successive other).foldl (exec plainSodium) onePerIp
    w.sessionTable.size = 2 ∧ WithinLimits w :=
  ⟨by decide,
    connection_limits
      (StateMachine.run_of_allowed
        (CompletesWithRoom plainSodium) (exec plainSodium)
        onePerIp (successive other) (by decide +kernel))⟩

/-
  A second session over the limit in all, and a second one
  over the limit per address, from another port.
-/
set_option maxRecDepth 8000 in
theorem limits_exceeded :
    (∃ w,
        StateMachine.Run
            (StateMachine.Guarded (fun _ _ => True)
              (exec plainSodium))
            oneInAll overlapping w ∧
          ¬ WithinLimits w) ∧
      ∃ w,
        StateMachine.Run
            (StateMachine.Guarded (fun _ _ => True)
              (exec plainSodium))
            onePerIp (successive second) w ∧
          ¬ WithinLimits w := by
  constructor
  · refine
      ⟨overlapping.foldl (exec plainSodium) oneInAll, ?_, ?_⟩
    · exact
        StateMachine.run_of_allowed (fun _ _ => True)
          (exec plainSodium) oneInAll overlapping (by decide)
    · intro hWithin
      have hTotal := hWithin.total (by decide) (by decide)
      revert hTotal
      decide
  · refine
      ⟨(successive second).foldl (exec plainSodium) onePerIp,
        ?_, ?_⟩
    · exact
        StateMachine.run_of_allowed (fun _ _ => True)
          (exec plainSodium) onePerIp (successive second)
          (by decide)
    · intro hWithin
      have hPerIp :=
        hWithin.perIp (by decide) (by decide) "10.0.0.1"
      revert hPerIp
      decide +kernel

end ConnectionLimits

end ObscuraProto
