import ObscuraProto.RemoteEndpoint
import ObscuraProto.WsServer.Opening
import ObscuraProto.WsServer.RateWindows

/-
  The rate of new connections from one address.

  The limiter groups connections by the text of their remote
  endpoint, which ends in the source port.  An address that
  comes from one port a minute is held to the limit; one that
  changes its port is a new address for the limiter.

  Key definitions include:
    * `ConnectionRate.Pass`
    * `ConnectionRate.Watched`
    * `ConnectionRate.Arrives`, `ConnectionRate.OnePort`

  Key theorems include:
    * `ConnectionRate.connection_rate`
    * `ConnectionRate.connection_rate_exceeded`
-/

namespace ObscuraProto

namespace ConnectionRate

open WsServer StateMachine RateWindow

variable (S : Sodium)

------------------------------------------------------------
-- Connections That Pass
------------------------------------------------------------

/- A connection whose rate check was passed. -/
structure Pass where
  peer : RemoteEndpoint
  checked : TimePoint
  recorded : TimePoint

/- The pass falls into the minute that begins at `a`. -/
def Pass.inMinute
    (address : String)
    (a : TimePoint)
    (pass : Pass) : Bool :=
  decide (pass.peer.address = address) &&
    meetsMinute a pass.checked pass.recorded

/- The server, the latest clock reading, and the passes. -/
structure Watched where
  server : WsServer
  now : TimePoint := 0
  passes : List Pass := []

/- An event, and the peer it comes from if it is an open. -/
structure Arrival where
  peer : RemoteEndpoint
  event : ServerEvent

def next (x : Watched) (l : Arrival) : Watched where
  server := WsServer.next S x.server l.event
  now := l.event.nowAfter x.now
  passes :=
    match l.event with
    | .opened input _ =>
        if passesRate input x.server then
          x.passes ++ [⟨l.peer, input.clock 0, input.clock 1⟩]
        else
          x.passes
    | _ => x.passes

/- The clock is in order, and the endpoint is the peer's. -/
def Arrives (x : Watched) (l : Arrival) : Prop :=
  l.event.Timed x.now ∧
    ∀ input hdl, l.event = .opened input hdl →
      input.remoteIp = l.peer.text

/-
  In the last minute its address has only passed from the
  port it has now.
-/
def OnePort (x : Watched) (l : Arrival) : Prop :=
  ∀ input hdl, l.event = .opened input hdl →
    ∀ pass ∈ x.passes,
      pass.peer.address = l.peer.address →
        input.clock 0 ≤ pass.recorded + 60000000000 →
          pass.peer = l.peer

------------------------------------------------------------
-- The Log of the Limiter
------------------------------------------------------------

def Pass.logged (pass : Pass) : String × RateWindow.Entry :=
  (pass.peer.text, entryAt pass.checked pass.recorded)

/- The passes are logged, one port an address and minute. -/
structure Inv (config : Config) (x : Watched) : Prop where
  configured : x.server.config = config
  limiter : x.server.rateLimiter.config = config.rateLimit
  keeps :
    Keeps .connections (nowMs x.now)
      (x.passes.map Pass.logged) x.server.rateLimiter
  ports :
    x.passes.Pairwise
      (fun p q =>
        p.peer.address = q.peer.address →
          q.checked ≤ p.recorded + 60000000000 →
            p.peer = q.peer)

theorem inv_start
    (serverSignKey : KeyPair)
    {config : Config}
    {hasOwner : Bool}
    (hEnabled : config.rateLimit.enabled = true)
    (hLimited : config.rateLimit.connectionsPerMinute > 0) :
    Inv config
      { server := .new serverSignKey config hasOwner } where
  configured := rfl
  limiter := rfl
  keeps :=
    keeps_new hEnabled
      (fun hZero => by
        rw [show config.rateLimit.connectionsPerMinute = 0
          from hZero] at hLimited
        exact absurd hLimited (by decide)) _
  ports := List.Pairwise.nil

variable {S}

/- An open that passes is checked, then recorded. -/
theorem keeps_opened
    {config : Config}
    {x : Watched}
    {input : IoInput}
    {peer : RemoteEndpoint}
    (hInv : Inv config x)
    (hTimed :
      x.now ≤ input.clock 0 ∧ Monotone input.clock)
    (hPeer : input.remoteIp = peer.text)
    (hdl : Hdl) :
    Keeps .connections (nowMs (input.clock 2))
      ((next S x ⟨peer, .opened input hdl⟩).passes.map
        Pass.logged)
      (WsServer.next S x.server
        (.opened input hdl)).rateLimiter := by
  rcases hTimed with ⟨hLater, hMono⟩
  have hChecks : input.clock 0 ≤ input.clock 1 :=
    hMono (by decide)
  have hEnds : input.clock 1 ≤ input.clock 2 :=
    hMono (by decide)
  have hBefore :=
    hInv.keeps.later (nowMs_mono hLater)
  have hEnabled : x.server.config.rateLimit.enabled = true := by
    rw [hInv.configured, ← hInv.limiter]
    exact hInv.keeps.enabled
  have hSilent :
      Keeps.Silent .connections (nowMs (input.clock 0))
        (.checkConnectionRate input.remoteIp
          (nowMs (input.clock 0))) :=
    ⟨fun _ => rfl, by simp⟩
  have hAfter := hBefore.op hSilent
  have hLimiter :
      (WsServer.next S x.server
          (.opened input hdl)).rateLimiter =
        if passesRate input x.server then
          rateRecorded input x.server
        else
          rateChecked input x.server :=
    onOpen_rateLimiter input hdl x.server
  rw [hLimiter]
  simp only [next]
  cases hPasses : passesRate input x.server with
  | false =>
      simp only [Bool.false_eq_true, if_false, rateChecked,
        hEnabled, if_true]
      exact
        hAfter.later (nowMs_mono (hChecks.trans hEnds))
  | true =>
      have hPassed :
          (x.server.rateLimiter.check .connections
            peer.text (nowMs (input.clock 0))).1 = true := by
        unfold passesRate at hPasses
        rw [hEnabled, hPeer] at hPasses
        exact hPasses
      simp only [if_true, rateRecorded, rateChecked, hEnabled,
        List.map_append, List.map_cons, List.map_nil]
      rw [hPeer] at hAfter ⊢
      exact
        (hBefore.record hPassed hAfter
          (RateLimiter.config_apply _ _)
          (nowMs_mono hChecks)).later (nowMs_mono hEnds)

theorem Inv.next
    {config : Config}
    {x : Watched}
    {l : Arrival}
    (hInv : Inv config x)
    (hArrives : Arrives x l)
    (hPort : OnePort x l) :
    Inv config (next S x l) where
  configured :=
    (next_config l.event x.server).trans hInv.configured
  limiter :=
    (next_limiterConfig l.event x.server).trans hInv.limiter
  keeps := by
    rcases l with ⟨peer, event⟩
    rcases hArrives with ⟨hTimed, hPeer⟩
    cases event with
    | opened input hdl =>
        exact
          keeps_opened hInv (hTimed input rfl)
            (hPeer input hdl rfl) hdl
    | timeouts input =>
        refine hInv.keeps.next (S := S) hTimed ?_
        intro op hUse ip
        rw [show op = .cleanup (nowMs (input.clock 2))
          from hUse]
        rfl
    | message | closed | call =>
        -- Among what these may do, nothing records an open.
        refine hInv.keeps.next (S := S) hTimed ?_
        intro op hUse ip
        cases op with
        | recordConnection => exact hUse.elim
        | _ => rfl
  ports := by
    rcases l with ⟨peer, event⟩
    cases event with
    | opened input hdl =>
        simp only [ConnectionRate.next]
        split
        · refine
            List.pairwise_append.mpr
              ⟨hInv.ports, List.pairwise_singleton _ _, ?_⟩
          intro p hMem q hLast hAddress hRecent
          cases List.mem_singleton.mp hLast
          exact hPort input hdl rfl p hMem hAddress hRecent
        · exact hInv.ports
    | message | closed | timeouts | call => exact hInv.ports

------------------------------------------------------------
-- Runs
------------------------------------------------------------

/- Passes from one address in one minute have one port. -/
theorem Inv.onePeer
    {config : Config}
    {x : Watched}
    (hInv : Inv config x)
    {address : String}
    {a : TimePoint}
    {p q : Pass}
    (hFirst : p ∈ x.passes)
    (hSecond : q ∈ x.passes)
    (hInside : p.inMinute address a = true)
    (hInside' : q.inMinute address a = true) :
    p.peer = q.peer := by
  let Agree (p q : Pass) : Prop :=
    p.inMinute address a = true →
      q.inMinute address a = true → p.peer = q.peer
  have hPairwise : x.passes.Pairwise Agree := by
    refine hInv.ports.imp ?_
    intro p q hPort hP hQ
    simp only [Pass.inMinute, meetsMinute, Bool.and_eq_true,
      decide_eq_true_eq] at hP hQ
    refine hPort (hP.1.trans hQ.1.symm) ?_
    exact hQ.2.2.trans (Nat.add_le_add_right hP.2.1 _)
  have hFlipped : x.passes.Pairwise (flip Agree) := by
    refine hPairwise.imp ?_
    intro p q hSame hQ hP
    exact (hSame hP hQ).symm
  have hAgree : Agree p q :=
    List.Pairwise.forall_of_forall_of_flip
      (fun _ _ _ _ => rfl) hPairwise hFlipped hFirst hSecond
  exact hAgree hInside hInside'

/- Passes from one address are logged under one text. -/
theorem Inv.countP_le
    {config : Config}
    {x : Watched}
    (hInv : Inv config x)
    (address : String)
    (a : TimePoint) :
    x.passes.countP (Pass.inMinute address a) ≤
      config.rateLimit.connectionsPerMinute.toNat := by
  by_cases hSome :
      ∃ q ∈ x.passes, q.inMinute address a = true
  · rcases hSome with ⟨q, hMem, hLast⟩
    have hBound := hInv.keeps.countP_le q.peer.text (nowMs a)
    rw [hInv.limiter] at hBound
    refine le_trans ?_ hBound
    unfold entriesOf
    rw [List.countP_map, List.countP_filter, List.countP_map]
    apply List.countP_mono_left
    intro p hPass hInside
    have hPeer : p.peer = q.peer :=
      hInv.onePeer hPass hMem hInside hLast
    have hBoth :
        p.peer.address = address ∧
          meetsMinute a p.checked p.recorded = true := by
      simpa [Pass.inMinute] using hInside
    simp only [Function.comp_apply, Pass.logged, hPeer,
      Bool.and_eq_true, decide_eq_true_eq, and_true]
    exact meets_of_meetsMinute hBoth.2
  · have hNone :
        x.passes.countP (Pass.inMinute address a) = 0 := by
      rw [List.countP_eq_zero]
      intro p hPass hInside
      exact hSome ⟨p, hPass, hInside⟩
    rw [hNone]
    exact Nat.zero_le _

/-
  In every run in which no address passes from two ports
  within a minute, and for every address and every minute.
-/
theorem connection_rate
    {serverSignKey : KeyPair}
    {config : Config}
    {hasOwner : Bool}
    {arrivals : List Arrival}
    {x : Watched}
    (hEnabled : config.rateLimit.enabled = true)
    (hLimited : config.rateLimit.connectionsPerMinute > 0)
    (hRun :
      Run
        (Guarded (fun x l => Arrives x l ∧ OnePort x l)
          (next S))
        { server := .new serverSignKey config hasOwner }
        arrivals x)
    (address : String)
    (a : TimePoint) :
    x.passes.countP (Pass.inMinute address a) ≤
      config.rateLimit.connectionsPerMinute.toNat := by
  have hInv : Inv config x := by
    refine
      hRun.invariant ?_
        (inv_start serverSignKey hEnabled hLimited)
    rintro v l v' hBefore ⟨⟨hArrives, hPort⟩, hNext⟩
    rw [hNext]
    exact hBefore.next hArrives hPort
  exact hInv.countP_le address a

------------------------------------------------------------
-- Two Ports
------------------------------------------------------------

open PlainSodium

/- A server that lets one connection a minute pass. -/
def onePerMinute : Config :=
  { Config.withDefaults with
    rateLimit := { connectionsPerMinute := 1 } }

/- An open from this peer at the time `t`. -/
def arrival
    (peer : RemoteEndpoint)
    (hdl : Hdl)
    (t : TimePoint) : Arrival where
  peer := peer
  event :=
    .opened
      { IoInput.smooth (sampleKx 0) with
        remoteIp := peer.text
        clock := fun _ => t }
      hdl

def watch (arrivals : List Arrival) : Watched :=
  arrivals.foldl (next plainSodium)
    { server := .new (sampleKeyPair 6) onePerMinute true }

theorem arrives_arrival
    (peer : RemoteEndpoint)
    (hdl : Hdl)
    {t : TimePoint}
    {x : Watched}
    (hLater : x.now ≤ t) :
    Arrives x (arrival peer hdl t) := by
  constructor
  · intro input hInput
    cases hInput
    exact ⟨hLater, fun _ _ _ => le_refl _⟩
  · intro input hdl' hEvent
    cases hEvent
    rfl

/- From one port, from it again, and a minute later. -/
def steady : List Arrival :=
  [arrival ⟨"10.0.0.1", 5000⟩ 1 0,
    arrival ⟨"10.0.0.1", 5000⟩ 2 0,
    arrival ⟨"10.0.0.1", 5001⟩ 3 61000000000]

/- The second open is refused, the third one is not. -/
theorem connection_rate_steady :
    let x := watch steady
    x.passes.length = 2 ∧
      x.passes.countP (Pass.inMinute "10.0.0.1" 0) ≤ 1 := by
  intro x
  refine ⟨by decide, ?_⟩
  refine
    @connection_rate plainSodium (sampleKeyPair 6)
      onePerMinute true steady _ (by decide) (by decide) ?_
      "10.0.0.1" 0
  apply run_of_allowed
  refine
    ⟨⟨arrives_arrival _ 1 (by decide), ?_⟩,
      ⟨arrives_arrival _ 2 (by decide), ?_⟩,
      ⟨arrives_arrival _ 3 (by decide), ?_⟩, trivial⟩
  · intro input hdl _ pass hMem
    cases hMem
  · intro input hdl hEvent pass hMem _ _
    cases List.mem_singleton.mp hMem
    rfl
  · intro input hdl hEvent pass hMem _ hRecent
    cases hEvent
    cases List.mem_singleton.mp hMem
    exact absurd hRecent (by decide)

/- Two connections from one address, by different ports. -/
theorem connection_rate_exceeded :
    ∃ (arrivals : List Arrival) (x : Watched),
      Run (Guarded Arrives (next plainSodium))
          { server := .new (sampleKeyPair 6) onePerMinute true }
          arrivals x ∧
        onePerMinute.rateLimit.enabled = true ∧
        onePerMinute.rateLimit.connectionsPerMinute = 1 ∧
        x.passes.countP (Pass.inMinute "10.0.0.1" 0) = 2 := by
  let arrivals : List Arrival :=
    [arrival ⟨"10.0.0.1", 5000⟩ 1 0,
      arrival ⟨"10.0.0.1", 5001⟩ 2 0]
  refine
    ⟨arrivals, watch arrivals, ?_, by decide, by decide,
      by decide⟩
  apply run_of_allowed
  exact
    ⟨arrives_arrival _ 1 (le_refl 0),
      arrives_arrival _ 2 (by decide), trivial⟩

end ConnectionRate

end ObscuraProto
