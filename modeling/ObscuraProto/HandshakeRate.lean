import ObscuraProto.WsServer.Opening
import ObscuraProto.WsServer.RateWindows

/-
  The rate of handshake attempts for one limiter key.

  An attempt is checked against the window of its address
  before its bytes are read, and recorded only after it has
  been answered.  Attempts that fail in between are never
  recorded; the limit holds if no attempt of the same address
  comes within a minute of one of them.

  Key definitions include:
    * `HandshakeRate.attempts`, `HandshakeRate.answered`
    * `HandshakeRate.Watched`
    * `HandshakeRate.FailuresApart`

  Key theorems include:
    * `HandshakeRate.handshake_rate`
    * `HandshakeRate.handshake_rate_exceeded`
-/

namespace ObscuraProto

namespace HandshakeRate

open Effectful WsServer StateMachine RateWindow

variable (S : Sodium)

------------------------------------------------------------
-- Attempts
------------------------------------------------------------

/- `on_message` goes on to read the bytes as a hello. -/
def attempts
    (input : IoInput)
    (hdl : Hdl)
    (frame : Frame)
    (w : WsServer) : Bool :=
  frame.binary &&
    (w.sessionTable.sessions[hdl]?).isNone &&
    (w.sessionTable.anonSessions[hdl]?).isNone &&
    (!w.config.rateLimit.enabled ||
      (w.rateLimiter.checkHandshakeRate input.remoteIp
        (nowMs (input.clock 0))).1)

/- The hello is well formed, accepted, and replied to. -/
def answered
    (input : IoInput)
    (frame : Frame)
    (w : WsServer) : Bool :=
  decide (input.transmit = .ok ()) &&
    match ClientHello.deserialize frame.payload with
    | .error _ => false
    | .ok hello =>
        ((Session.new .server w.serverSignKey
            w.config.supportedVersions
            ).serverRespondToHandshake S input.kx
              hello).1.isOk

/- An attempt with its limiter key and its readings. -/
structure Attempt where
  ip : String
  checked : TimePoint
  concluded : TimePoint
  answered : Bool

def Attempt.inMinute
    (ip : String)
    (a : TimePoint)
    (attempt : Attempt) : Bool :=
  decide (attempt.ip = ip) &&
    meetsMinute a attempt.checked attempt.concluded

/- The server, the latest clock reading, and the attempts. -/
structure Watched where
  server : WsServer
  now : TimePoint := 0
  attempts : List Attempt := []

def next (x : Watched) (event : ServerEvent) : Watched where
  server := WsServer.next S x.server event
  now := event.nowAfter x.now
  attempts :=
    match event with
    | .message input hdl frame =>
        if HandshakeRate.attempts input hdl frame x.server then
          x.attempts ++
            [ ⟨input.remoteIp, input.clock 0, input.clock 1,
                answered S input frame x.server⟩ ]
        else
          x.attempts
    | _ => x.attempts

/- The clock is in order. -/
def InTime (x : Watched) (event : ServerEvent) : Prop :=
  event.Timed x.now

/-
  An attempt that is let pass comes more than a minute after
  those of its key that were not answered.
-/
def FailuresApart
    (x : Watched)
    (event : ServerEvent) : Prop :=
  ∀ input hdl frame, event = .message input hdl frame →
    attempts input hdl frame x.server = true →
      ∀ attempt ∈ x.attempts,
        attempt.ip = input.remoteIp →
          attempt.answered = false →
            attempt.concluded + 60000000000 < input.clock 0

------------------------------------------------------------
-- Messages and the Limiter
------------------------------------------------------------

variable {S}

/- The limiter after a check of the handshake rate. -/
def handshakeChecked
    (input : IoInput)
    (w : WsServer) : RateLimiter :=
  (w.rateLimiter.checkHandshakeRate input.remoteIp
    (nowMs (input.clock 0))).2

theorem handshake_refused
    {w : WsServer}
    {input : IoInput}
    (hEnabled : w.config.rateLimit.enabled = true)
    (hRefused :
      (w.rateLimiter.checkHandshakeRate input.remoteIp
        (nowMs (input.clock 0))).1 = false)
    (hdl : Hdl)
    (data : Bytes) :
    ((handshake S input hdl data).run
        w).state.rateLimiter =
      handshakeChecked input w := by
  unfold handshake
  rw [Action.run_bind_ok (limiterCheck_run_eq _ w)]
  simp only [hEnabled, hRefused, Bool.not_true, Bool.or_self,
    Bool.not_false, if_true, closeHdl_run]
  rfl

/- The session of this address is registered. -/
def Registers (ip : String) (op : LimiterOp) : Prop :=
  op = .registerConnection ip

/- After the record only the session is registered. -/
theorem conclude_limiter
    (input : IoInput)
    (hdl : Hdl)
    (hello : ClientHello)
    (session : Session)
    {w : WsServer}
    (hEnabled : w.config.rateLimit.enabled = true) :
    UsesLimiter (Registers input.remoteIp)
      { w with
        rateLimiter :=
          w.rateLimiter.recordHandshake input.remoteIp
            (nowMs (input.clock 1)) }
      ((conclude input hdl hello session).run w).state := by
  have hMay :
      Registers input.remoteIp
        (.registerConnection input.remoteIp) :=
    rfl
  have hRest
      {act : ServerAction Unit}
      (hAct : Local (Registers input.remoteIp) hdl act)
      (v : WsServer) :
      UsesLimiter (Registers input.remoteIp) v
        ((act >>= fun _ => clearHandshakeTime hdl).run
          v).state := by
    have hBoth :
        Local (Registers input.remoteIp) hdl
          (act >>= fun _ => clearHandshakeTime hdl) :=
      Ensures.bind hAct (fun _ => clearHandshakeTime_local)
    exact hBoth.limits.run (composes_limits _) v
  unfold conclude
  rw [Action.run_bind_ok (limiterRecord_run_eq _ w)]
  simp only [hEnabled, if_true]
  split
  · exact
      hRest (establishIdentified_local input hMay session _) _
  · exact hRest (establish_local input hMay session none) _

theorem handshake_answered
    {w : WsServer}
    {input : IoInput}
    {frame : Frame}
    (hEnabled : w.config.rateLimit.enabled = true)
    (hPassed :
      (w.rateLimiter.checkHandshakeRate input.remoteIp
        (nowMs (input.clock 0))).1 = true)
    (hAnswered : answered S input frame w = true)
    (hdl : Hdl) :
    UsesLimiter (Registers input.remoteIp)
      { w with
        rateLimiter :=
          (handshakeChecked input w).recordHandshake
            input.remoteIp (nowMs (input.clock 1)) }
      ((handshake S input hdl frame.payload).run w).state := by
  unfold answered at hAnswered
  simp only [Bool.and_eq_true, decide_eq_true_eq]
    at hAnswered
  rcases hAnswered with ⟨hTransmit, hReply⟩
  unfold handshake
  rw [Action.run_bind_ok (limiterCheck_run_eq _ w)]
  simp only [hEnabled, hPassed, Bool.not_true, Bool.or_true,
    Bool.false_eq_true, if_false, if_true]
  unfold respondToHello
  cases hHello : ClientHello.deserialize frame.payload with
  | error e =>
      rw [hHello] at hReply
      cases hReply
  | ok hello =>
      rw [hHello] at hReply
      rw [Action.run_ofExcept_ok_bind, Action.run_get_bind]
      dsimp only at hReply ⊢
      cases hRespond :
          (Session.new .server w.serverSignKey
            w.config.supportedVersions
            ).serverRespondToHandshake S input.kx hello with
      | mk reply session =>
          rw [hRespond] at hReply
          cases reply with
          | error e => cases hReply
          | ok reply =>
              rw [Action.run_ofExcept_ok_bind,
                Action.run_emit_bind, hTransmit,
                Action.run_ofExcept_ok_bind]
              exact
                conclude_limiter input hdl hello session
                  hEnabled

/- A failing attempt ends before anything is recorded. -/
theorem handshake_failed
    {w : WsServer}
    {input : IoInput}
    {frame : Frame}
    (hEnabled : w.config.rateLimit.enabled = true)
    (hPassed :
      (w.rateLimiter.checkHandshakeRate input.remoteIp
        (nowMs (input.clock 0))).1 = true)
    (hFailed : answered S input frame w = false)
    (hdl : Hdl) :
    ((handshake S input hdl frame.payload).run
        w).state.rateLimiter =
      handshakeChecked input w := by
  unfold answered at hFailed
  unfold handshake
  rw [Action.run_bind_ok (limiterCheck_run_eq _ w)]
  simp only [hEnabled, hPassed, Bool.not_true, Bool.or_true,
    Bool.false_eq_true, if_false, if_true]
  unfold respondToHello
  cases hHello : ClientHello.deserialize frame.payload with
  | error e => rfl
  | ok hello =>
      rw [hHello] at hFailed
      rw [Action.run_ofExcept_ok_bind, Action.run_get_bind]
      dsimp only at hFailed ⊢
      cases hRespond :
          (Session.new .server w.serverSignKey
            w.config.supportedVersions
            ).serverRespondToHandshake S input.kx hello with
      | mk reply session =>
          rw [hRespond] at hFailed
          cases reply with
          | error e => rfl
          | ok reply =>
              rw [Action.run_ofExcept_ok_bind,
                Action.run_emit_bind]
              cases hTransmit : input.transmit with
              | error e => rfl
              | ok u =>
                  rw [hTransmit] at hFailed
                  cases hFailed

------------------------------------------------------------
-- The Log of the Limiter
------------------------------------------------------------

def Attempt.logged (attempt : Attempt) : String × RateWindow.Entry :=
  (attempt.ip, entryAt attempt.checked attempt.concluded)

/- The attempts that the limiter knows of. -/
def recordedLog
    (attempts : List Attempt) :
    List (String × RateWindow.Entry) :=
  (attempts.filter Attempt.answered).map Attempt.logged

/- An attempt with its readings in nanoseconds. -/
def Attempt.timed
    (attempt : Attempt) : String × RateWindow.Entry :=
  (attempt.ip, ⟨attempt.checked, attempt.concluded⟩)

/-
  The limiter keeps the answered attempts; when an attempt
  was let pass, all recent ones were among them.
-/
structure Inv (config : Config) (x : Watched) : Prop where
  configured : x.server.config = config
  limiter : x.server.rateLimiter.config = config.rateLimit
  keeps :
    Keeps .handshakes (nowMs x.now)
      (recordedLog x.attempts) x.server.rateLimiter
  gated :
    ∀ ip,
      Gated config.rateLimit.handshakeAttemptsPerMinute.toNat
        60000000000
        (entriesOf ip (x.attempts.map Attempt.timed))

theorem inv_start
    (serverSignKey : KeyPair)
    {config : Config}
    {hasOwner : Bool}
    (hEnabled : config.rateLimit.enabled = true)
    (hLimited :
      config.rateLimit.handshakeAttemptsPerMinute > 0) :
    Inv config
      { server := .new serverSignKey config hasOwner } where
  configured := rfl
  limiter := rfl
  keeps :=
    keeps_new hEnabled
      (fun hZero => by
        rw [show
          config.rateLimit.handshakeAttemptsPerMinute = 0
            from hZero] at hLimited
        exact absurd hLimited (by decide)) _
  gated := fun _ => .nil

/- Packets of a session stamp no handshake window. -/
theorem silent_of_packet
    {hdl : Hdl}
    {w : WsServer}
    {op : LimiterOp}
    (hMay : packetMayUse hdl w op)
    (now : Int) :
    Keeps.Silent .handshakes now op := by
  cases op with
  | checkMessageRate | recordMessage =>
      exact ⟨fun _ => rfl, by simp⟩
  | _ => exact hMay.elim

theorem silent_of_registers
    {ip : String}
    {op : LimiterOp}
    (hMay : Registers ip op)
    (now : Int) :
    Keeps.Silent .handshakes now op := by
  rw [show op = .registerConnection ip from hMay]
  exact ⟨fun _ => rfl, by simp⟩

theorem recordedLog_snoc
    (log : List Attempt)
    (attempt : Attempt) :
    recordedLog (log ++ [attempt]) =
      recordedLog log ++
        if attempt.answered then [attempt.logged] else [] := by
  unfold recordedLog
  rw [List.filter_append, List.map_append]
  cases hAnswered : attempt.answered with
  | false => simp [hAnswered]
  | true => simp [hAnswered]

/- The windows after a message, which may be an attempt. -/
theorem keeps_message
    {config : Config}
    {x : Watched}
    {input : IoInput}
    {hdl : Hdl}
    {frame : Frame}
    (hInv : Inv config x)
    (hTimed :
      x.now ≤ input.clock 0 ∧ Monotone input.clock) :
    Keeps .handshakes (nowMs (input.clock 2))
      (recordedLog
        (next S x (.message input hdl frame)).attempts)
      ((onMessage S input hdl frame).run
        x.server).state.rateLimiter := by
  rcases hTimed with ⟨hLater, hMono⟩
  have hChecks : input.clock 0 ≤ input.clock 1 :=
    hMono (by decide)
  have hEnds : input.clock 1 ≤ input.clock 2 :=
    hMono (by decide)
  have hBefore := hInv.keeps.later (nowMs_mono hLater)
  have hEnd := hBefore.later (nowMs_mono (hChecks.trans hEnds))
  have hEnabled : x.server.config.rateLimit.enabled = true := by
    rw [hInv.configured, ← hInv.limiter]
    exact hInv.keeps.enabled
  have hStored
      {isAuth : Bool}
      (hSome :
        (x.server.sessionTable.table isAuth)[hdl]? ≠ none) :
      Keeps .handshakes (nowMs (input.clock 2))
        (recordedLog x.attempts)
        ((onMessage S input hdl frame).run
          x.server).state.rateLimiter := by
    rcases onMessage_stored S hSome input frame with
      ⟨ops, hMay, hState⟩
    rw [hState]
    exact
      hEnd.ops
        (fun op hMem => silent_of_packet (hMay op hMem) _)
  simp only [next, attempts, hEnabled, Bool.not_true,
    Bool.false_or]
  cases hBinary : frame.binary with
  | false =>
      have hState :
          ((onMessage S input hdl frame).run
            x.server).state = x.server := by
        unfold onMessage
        rw [hBinary]
        rfl
      rw [hState]
      simpa using hEnd
  | true =>
      cases hSessions : x.server.sessionTable.sessions[hdl]? with
      | some state =>
          have hSome :
              (x.server.sessionTable.table true)[hdl]? ≠
                none := by
            rw [show x.server.sessionTable.table true =
              x.server.sessionTable.sessions from rfl,
              hSessions]
            simp
          simpa using hStored hSome
      | none =>
          cases hAnon :
              x.server.sessionTable.anonSessions[hdl]? with
          | some state =>
              have hSome :
                  (x.server.sessionTable.table false)[hdl]? ≠
                    none := by
                rw [show x.server.sessionTable.table false =
                  x.server.sessionTable.anonSessions from rfl,
                  hAnon]
                simp
              simpa using hStored hSome
          | none =>
              -- The message is a handshake.
              rw [onMessage_unknown S hBinary hSessions hAnon]
              have hSilent :
                  Keeps.Silent .handshakes
                    (nowMs (input.clock 0))
                    (.checkHandshakeRate input.remoteIp
                      (nowMs (input.clock 0))) :=
                ⟨fun _ => rfl, by simp⟩
              have hAfter := hBefore.op hSilent
              cases hRate :
                  (x.server.rateLimiter.checkHandshakeRate
                    input.remoteIp
                    (nowMs (input.clock 0))).1 with
              | false =>
                  rw [handshake_refused hEnabled hRate]
                  simp only [Option.isNone_none,
                    Bool.and_false, Bool.false_eq_true,
                    if_false]
                  exact
                    hAfter.later
                      (nowMs_mono (hChecks.trans hEnds))
              | true =>
                  simp only [Option.isNone_none, Bool.and_self,
                    if_true, recordedLog_snoc]
                  cases hAnswered :
                      answered S input frame x.server with
                  | false =>
                      rw [handshake_failed hEnabled hRate
                        hAnswered]
                      simp only [Bool.false_eq_true, if_false,
                        List.append_nil]
                      exact
                        hAfter.later
                          (nowMs_mono (hChecks.trans hEnds))
                  | true =>
                      rcases handshake_answered hEnabled hRate
                          hAnswered hdl with
                        ⟨ops, hMay, hState⟩
                      rw [hState]
                      have hRecorded :=
                        hBefore.record hRate hAfter
                          (RateLimiter.config_apply _ _)
                          (nowMs_mono hChecks)
                      exact
                        (hRecorded.later
                            (nowMs_mono hEnds)).ops
                          (fun op hMem =>
                            silent_of_registers (hMay op hMem)
                              _)

/-
  The recent attempts of the key have all been answered, so
  the check has counted them.
-/
theorem few_recent
    {config : Config}
    {x : Watched}
    {input : IoInput}
    (hInv : Inv config x)
    (hLater : x.now ≤ input.clock 0)
    (hPassed :
      (x.server.rateLimiter.checkHandshakeRate input.remoteIp
        (nowMs (input.clock 0))).1 = true)
    (hApart :
      ∀ attempt ∈ x.attempts,
        attempt.ip = input.remoteIp →
          attempt.answered = false →
            attempt.concluded + 60000000000 <
              input.clock 0) :
    (entriesOf input.remoteIp
        (x.attempts.map Attempt.timed)).countP
        (fun e =>
          decide
            ((input.clock 0 : Int) - 60000000000 ≤
              e.recorded)) <
      config.rateLimit.handshakeAttemptsPerMinute.toNat := by
  have hKeeps := hInv.keeps.later (nowMs_mono hLater)
  have hChecked :
      (x.server.rateLimiter.check .handshakes input.remoteIp
        (nowMs (input.clock 0))).1 = true :=
    hPassed
  have hFew := hKeeps.few_of_check hChecked
  rw [hInv.limiter] at hFew
  refine lt_of_le_of_lt ?_ hFew
  unfold entriesOf recordedLog
  rw [List.countP_map, List.countP_filter, List.countP_map,
    List.countP_map, List.countP_filter, List.countP_map,
    List.countP_filter]
  apply List.countP_mono_left
  intro attempt hMem hInside
  have hBoth :
      (input.clock 0 : Int) - 60000000000 ≤
          attempt.concluded ∧
        attempt.ip = input.remoteIp := by
    rcases (Bool.and_eq_true _ _).mp hInside with ⟨hTime, hIp⟩
    exact ⟨of_decide_eq_true hTime, of_decide_eq_true hIp⟩
  have hRecent :
      input.clock 0 ≤ attempt.concluded + 60000000000 := by
    exact_mod_cast sub_le_iff_le_add.mp hBoth.1
  have hAnswered : attempt.answered = true := by
    by_contra hFailed
    have hOld :=
      hApart attempt hMem hBoth.2 (by simpa using hFailed)
    exact absurd hRecent (not_le.mpr hOld)
  have hStamps :
      nowMs (input.clock 0) ≤
        nowMs attempt.concluded + 60000 := by
    rw [← nowMs_minute]
    exact nowMs_mono hRecent
  simp only [Function.comp_apply, Attempt.logged, entryAt,
    hBoth.2, hAnswered, Bool.and_true, decide_true,
    decide_eq_true_eq]
  omega

theorem gated_message
    {config : Config}
    {x : Watched}
    {input : IoInput}
    {hdl : Hdl}
    {frame : Frame}
    (hInv : Inv config x)
    (hLater : x.now ≤ input.clock 0)
    (hApart :
      FailuresApart x (.message input hdl frame))
    (ip : String) :
    Gated config.rateLimit.handshakeAttemptsPerMinute.toNat
      60000000000
      (entriesOf ip
        ((next S x
          (.message input hdl frame)).attempts.map
            Attempt.timed)) := by
  have hEnabled : x.server.config.rateLimit.enabled = true := by
    rw [hInv.configured, ← hInv.limiter]
    exact hInv.keeps.enabled
  by_cases hAttempt :
      attempts input hdl frame x.server = true
  · have hPassed :
        (x.server.rateLimiter.checkHandshakeRate
          input.remoteIp (nowMs (input.clock 0))).1 =
            true := by
      simp only [attempts, hEnabled, Bool.not_true,
        Bool.false_or, Bool.and_eq_true] at hAttempt
      exact hAttempt.2
    simp only [next, hAttempt, if_true, List.map_append,
      List.map_cons, List.map_nil]
    rw [Attempt.timed, entriesOf_snoc]
    by_cases hSame : input.remoteIp = ip
    · subst hSame
      rw [if_pos rfl]
      exact
        .snoc (hInv.gated input.remoteIp)
          (few_recent hInv hLater hPassed
            (hApart input hdl frame rfl hAttempt))
    · rw [if_neg hSame, List.append_nil]
      exact hInv.gated ip
  · simp only [next, hAttempt, Bool.false_eq_true, if_false]
    exact hInv.gated ip

theorem Inv.next
    {config : Config}
    {x : Watched}
    {event : ServerEvent}
    (hInv : Inv config x)
    (hTimed : InTime x event)
    (hApart : FailuresApart x event) :
    Inv config (next S x event) where
  configured :=
    (next_config event x.server).trans hInv.configured
  limiter :=
    (next_limiterConfig event x.server).trans hInv.limiter
  keeps := by
    cases event with
    | message input hdl frame =>
        exact keeps_message hInv (hTimed input rfl)
    | timeouts input =>
        refine hInv.keeps.next (S := S) hTimed ?_
        intro op hUse ip
        rw [show op = .cleanup (nowMs (input.clock 2))
          from hUse]
        rfl
    | opened | closed | call =>
        -- Among what these may do, nothing records a hello.
        refine hInv.keeps.next (S := S) hTimed ?_
        intro op hUse ip
        cases op with
        | recordHandshake => exact hUse.elim
        | _ => rfl
  gated := by
    cases event with
    | message input hdl frame =>
        exact
          gated_message hInv (hTimed input rfl).1 hApart
    | opened | closed | timeouts | call => exact hInv.gated

------------------------------------------------------------
-- Runs
------------------------------------------------------------

theorem Inv.countP_le
    {config : Config}
    {x : Watched}
    (hInv : Inv config x)
    (ip : String)
    (a : TimePoint) :
    x.attempts.countP (Attempt.inMinute ip a) ≤
      config.rateLimit.handshakeAttemptsPerMinute.toNat := by
  refine le_trans ?_ ((hInv.gated ip).countP_le a)
  unfold entriesOf
  rw [List.countP_map, List.countP_filter, List.countP_map]
  apply List.countP_mono_left
  intro attempt _ hInside
  have hBoth :
      attempt.ip = ip ∧
        a ≤ attempt.concluded ∧
          attempt.checked ≤ a + 60000000000 := by
    simpa [Attempt.inMinute, meetsMinute] using hInside
  rcases hBoth with ⟨hIp, hStart, hEnd⟩
  simp only [Function.comp_apply, Attempt.timed, Entry.meets,
    hIp, Bool.and_eq_true, decide_eq_true_eq, and_true]
  exact ⟨by exact_mod_cast hStart, by exact_mod_cast hEnd⟩

open PlainSodium

/- A server that allows one handshake a minute. -/
def onePerMinute : Config :=
  { Config.withDefaults with
    rateLimit := { handshakeAttemptsPerMinute := 1 } }

def watch (events : List ServerEvent) : Watched :=
  events.foldl (next plainSodium)
    { server := .new (sampleKeyPair 6) onePerMinute true }

end HandshakeRate

end ObscuraProto
