import Mathlib.Algebra.Order.Ring.Unbundled.Rat
import ObscuraProto.Config

/-
  The rate limiter of the server.

  Every method that reads the steady clock takes the reading
  as an argument, in the unit the method uses.  Token counts
  are exact rationals where the source uses a double.

  Key definitions include:
    * `SlidingWindow`, `TokenBucket`, `PerIPState`
    * `RateLimiter.checkConnectionRate`
    * `RateLimiter.checkHandshakeRate`
    * `RateLimiter.checkMessageRate`
    * `RateLimiter.registerConnection`
    * `RateLimiter.cleanup`
    * `RateLimiter.activeOf`, `RateLimiter.SameCounts`

  Key theorems include:
    * `RateLimiter.cleanup_counts`
    * `RateLimiter.registerConnection_counts`
    * `RateLimiter.unregisterConnection_counts`
-/

namespace ObscuraProto

------------------------------------------------------------
-- Windows and Buckets
------------------------------------------------------------

/- Timestamps in milliseconds, oldest first. -/
structure SlidingWindow where
  timestampsMs : List Int := []
deriving DecidableEq

namespace SlidingWindow

def add (nowMs : Int) (w : SlidingWindow) : SlidingWindow :=
  { timestampsMs := w.timestampsMs ++ [nowMs] }

/- Counts from the newest stamp back to the first old one. -/
def countLast
    (nowMs windowMs : Int)
    (w : SlidingWindow) : Nat :=
  if windowMs = 0 then
    0
  else
    (w.timestampsMs.reverse.takeWhile
      (nowMs - windowMs ≤ ·)).length

def clean
    (nowMs windowMs : Int)
    (w : SlidingWindow) : SlidingWindow :=
  if windowMs = 0 then
    { timestampsMs := [] }
  else
    { timestampsMs :=
        w.timestampsMs.dropWhile (· < nowMs - windowMs) }

end SlidingWindow

structure TokenBucket where
  tokens : Rat
  lastRefillUs : Int

structure PerIPState where
  connections : SlidingWindow := {}
  handshakes : SlidingWindow := {}
  activeConnections : UInt32 := 0
deriving DecidableEq

structure RateLimiter where
  config : RateLimitConfig
  perIp : Map String PerIPState := ∅
  messageBuckets : Map UInt64 TokenBucket := ∅
  connToIp : Map UInt64 String := ∅
  totalConnections : UInt32 := 0
  nextConnId : UInt64 := 0

namespace RateLimiter

def new (config : RateLimitConfig) : RateLimiter where
  config := config

/- `per_ip_[ip]`, which inserts an empty state. -/
def stateOf (ip : String) (rl : RateLimiter) : PerIPState :=
  (rl.perIp[ip]?).getD {}

def setState
    (ip : String)
    (state : PerIPState)
    (rl : RateLimiter) : RateLimiter :=
  { rl with perIp := rl.perIp.insert ip state }

------------------------------------------------------------
-- Connection and Handshake Rates
------------------------------------------------------------

def checkConnectionRate
    (ip : String)
    (nowMs : Int)
    (rl : RateLimiter) : Bool × RateLimiter :=
  if !rl.config.enabled ||
      rl.config.connectionsPerMinute = 0 then
    (true, rl)
  else
    let state := rl.stateOf ip
    let recent := state.connections.countLast nowMs 60000
    (recent < rl.config.connectionsPerMinute.toNat,
      rl.setState ip state)

def recordConnection
    (ip : String)
    (nowMs : Int)
    (rl : RateLimiter) : RateLimiter :=
  if !rl.config.enabled then
    rl
  else
    let state := rl.stateOf ip
    rl.setState ip
      { state with
        connections := state.connections.add nowMs }

def checkHandshakeRate
    (ip : String)
    (nowMs : Int)
    (rl : RateLimiter) : Bool × RateLimiter :=
  if !rl.config.enabled ||
      rl.config.handshakeAttemptsPerMinute = 0 then
    (true, rl)
  else
    let state := rl.stateOf ip
    let recent := state.handshakes.countLast nowMs 60000
    (recent < rl.config.handshakeAttemptsPerMinute.toNat,
      rl.setState ip state)

def recordHandshake
    (ip : String)
    (nowMs : Int)
    (rl : RateLimiter) : RateLimiter :=
  if !rl.config.enabled then
    rl
  else
    let state := rl.stateOf ip
    rl.setState ip
      { state with
        handshakes := state.handshakes.add nowMs }

------------------------------------------------------------
-- Message Rate
------------------------------------------------------------

/- `burst_size` if it is positive, else the rate. -/
def capacity (rl : RateLimiter) : Rat :=
  if rl.config.burstSize > 0 then
    rl.config.burstSize.toNat
  else
    rl.config.messagesPerSecond.toNat

def refill
    (nowUs : Int)
    (bucket : TokenBucket)
    (rl : RateLimiter) : TokenBucket :=
  let elapsedS : Rat :=
    ((nowUs - bucket.lastRefillUs : Int) : Rat) / 1000000
  { tokens :=
      min
        (bucket.tokens +
          elapsedS * rl.config.messagesPerSecond.toNat)
        rl.capacity
    lastRefillUs := nowUs }

def checkMessageRate
    (connId : UInt64)
    (nowUs : Int)
    (rl : RateLimiter) : Bool × RateLimiter :=
  if !rl.config.enabled ||
      rl.config.messagesPerSecond = 0 then
    (true, rl)
  else
    match rl.messageBuckets[connId]? with
    | none => (true, rl)
    | some bucket =>
        let bucket := rl.refill nowUs bucket
        (1 ≤ bucket.tokens,
          { rl with
            messageBuckets :=
              rl.messageBuckets.insert connId bucket })

def recordMessage
    (connId : UInt64)
    (nowUs : Int)
    (rl : RateLimiter) : RateLimiter :=
  if !rl.config.enabled then
    rl
  else
    let bucket :=
      match rl.messageBuckets[connId]? with
      | none =>
          { tokens :=
              if rl.capacity > 0 then
                rl.capacity - 1
              else
                rl.capacity
            lastRefillUs := nowUs }
      | some bucket =>
          let bucket := rl.refill nowUs bucket
          { bucket with
            tokens :=
              if 1 ≤ bucket.tokens then
                bucket.tokens - 1
              else
                bucket.tokens }
    { rl with
      messageBuckets :=
        rl.messageBuckets.insert connId bucket }

------------------------------------------------------------
-- Active Connections and Cleanup
------------------------------------------------------------

def activeTotal (rl : RateLimiter) : UInt32 :=
  rl.totalConnections

def registerConnection
    (ip : String)
    (rl : RateLimiter) : UInt64 × RateLimiter :=
  let connId := rl.nextConnId
  let state := rl.stateOf ip
  (connId,
    { rl with
      totalConnections := rl.totalConnections + 1
      nextConnId := connId + 1
      perIp :=
        rl.perIp.insert ip
          { state with
            activeConnections :=
              state.activeConnections + 1 }
      connToIp := rl.connToIp.insert connId ip })

def unregisterConnection
    (connId : UInt64)
    (ip : String)
    (rl : RateLimiter) : RateLimiter :=
  { rl with
    totalConnections := rl.totalConnections - 1
    perIp :=
      match rl.perIp[ip]? with
      | none => rl.perIp
      | some state =>
          if state.activeConnections > 0 then
            rl.perIp.insert ip
              { state with
                activeConnections :=
                  state.activeConnections - 1 }
          else
            rl.perIp
    connToIp := rl.connToIp.erase connId
    messageBuckets := rl.messageBuckets.erase connId }

/- Entries with nothing left to count are dropped. -/
def cleanup (nowMs : Int) (rl : RateLimiter) : RateLimiter :=
  { rl with
    perIp :=
      (rl.perIp.map
        (fun _ state =>
          { state with
            connections := state.connections.clean nowMs 60000
            handshakes :=
              state.handshakes.clean nowMs 60000 })).filter
        (fun _ state =>
          !(state.activeConnections == 0 &&
            state.connections.timestampsMs.isEmpty &&
            state.handshakes.timestampsMs.isEmpty)) }

------------------------------------------------------------
-- Counters of Active Connections
------------------------------------------------------------

/- The counter of an address without a state is zero. -/
def activeOf (ip : String) (rl : RateLimiter) : UInt32 :=
  (rl.stateOf ip).activeConnections

/- Both counters are as they were. -/
structure SameCounts (rl rl' : RateLimiter) : Prop where
  total : rl'.totalConnections = rl.totalConnections
  active : ∀ ip, rl'.activeOf ip = rl.activeOf ip

theorem SameCounts.refl (rl : RateLimiter) :
    SameCounts rl rl :=
  ⟨rfl, fun _ => rfl⟩

theorem SameCounts.trans
    {rl rl' rl'' : RateLimiter}
    (hFirst : SameCounts rl rl')
    (hSecond : SameCounts rl' rl'') :
    SameCounts rl rl'' where
  total := hSecond.total.trans hFirst.total
  active := fun ip =>
    (hSecond.active ip).trans (hFirst.active ip)

theorem activeOf_insert
    (ip other : String)
    (state : PerIPState)
    (rl : RateLimiter) :
    activeOf other
        { rl with perIp := rl.perIp.insert ip state } =
      if other = ip then
        state.activeConnections
      else
        rl.activeOf other := by
  unfold activeOf stateOf
  split
  · next hSame =>
      rw [hSame, Std.ExtTreeMap.getElem?_insert_self]
      rfl
  · next hOther =>
      rw [OrderedMap.getElem?_insert_of_ne hOther]

theorem sameCounts_setState
    {ip : String}
    {state : PerIPState}
    {rl : RateLimiter}
    (hActive :
      state.activeConnections = rl.activeOf ip) :
    SameCounts rl (rl.setState ip state) where
  total := rfl
  active := by
    intro other
    rw [setState, activeOf_insert]
    split
    · next hSame => rw [hSame, hActive]
    · rfl

theorem checkConnectionRate_counts
    (ip : String)
    (nowMs : Int)
    (rl : RateLimiter) :
    SameCounts rl (rl.checkConnectionRate ip nowMs).2 := by
  unfold checkConnectionRate
  split
  · exact .refl rl
  · exact sameCounts_setState rfl

theorem recordConnection_counts
    (ip : String)
    (nowMs : Int)
    (rl : RateLimiter) :
    SameCounts rl (rl.recordConnection ip nowMs) := by
  unfold recordConnection
  split
  · exact .refl rl
  · exact sameCounts_setState rfl

theorem checkHandshakeRate_counts
    (ip : String)
    (nowMs : Int)
    (rl : RateLimiter) :
    SameCounts rl (rl.checkHandshakeRate ip nowMs).2 := by
  unfold checkHandshakeRate
  split
  · exact .refl rl
  · exact sameCounts_setState rfl

theorem recordHandshake_counts
    (ip : String)
    (nowMs : Int)
    (rl : RateLimiter) :
    SameCounts rl (rl.recordHandshake ip nowMs) := by
  unfold recordHandshake
  split
  · exact .refl rl
  · exact sameCounts_setState rfl

theorem checkMessageRate_counts
    (connId : UInt64)
    (nowUs : Int)
    (rl : RateLimiter) :
    SameCounts rl (rl.checkMessageRate connId nowUs).2 := by
  unfold checkMessageRate
  split
  · exact .refl rl
  · split
    · exact .refl rl
    · exact ⟨rfl, fun _ => rfl⟩

theorem recordMessage_counts
    (connId : UInt64)
    (nowUs : Int)
    (rl : RateLimiter) :
    SameCounts rl (rl.recordMessage connId nowUs) := by
  unfold recordMessage
  split
  · exact .refl rl
  · exact ⟨rfl, fun _ => rfl⟩

/- Only states that count no connection are dropped. -/
theorem cleanup_counts (nowMs : Int) (rl : RateLimiter) :
    SameCounts rl (rl.cleanup nowMs) where
  total := rfl
  active := by
    intro ip
    unfold activeOf stateOf cleanup
    rw [Std.ExtTreeMap.getElem?_filter',
      Std.ExtTreeMap.getElem?_map]
    cases rl.perIp[ip]? with
    | none => rfl
    | some state =>
        simp only [Option.map_some, Option.filter]
        split
        · rfl
        · next hDropped =>
            have hZero : state.activeConnections = 0 := by
              simp only [Bool.not_eq_true',
                Bool.and_eq_false_iff, not_or] at hDropped
              simpa using hDropped.1.1
            simp [hZero]

/- A registration counts one more connection. -/
theorem registerConnection_counts
    (ip : String)
    (rl : RateLimiter) :
    let rl' := (rl.registerConnection ip).2
    rl'.totalConnections = rl.totalConnections + 1 ∧
      ∀ other,
        rl'.activeOf other =
          if other = ip then
            rl.activeOf ip + 1
          else
            rl.activeOf other := by
  refine ⟨rfl, ?_⟩
  intro other
  exact activeOf_insert ip other _ rl

/- And its end one less, if it was counted. -/
theorem unregisterConnection_counts
    (connId : UInt64)
    {ip : String}
    {rl : RateLimiter}
    (hCounted : 0 < rl.activeOf ip) :
    let rl' := rl.unregisterConnection connId ip
    rl'.totalConnections = rl.totalConnections - 1 ∧
      ∀ other,
        rl'.activeOf other =
          if other = ip then
            rl.activeOf ip - 1
          else
            rl.activeOf other := by
  refine ⟨rfl, ?_⟩
  intro other
  unfold unregisterConnection
  cases hState : rl.perIp[ip]? with
  | none =>
      simp [activeOf, stateOf, hState] at hCounted
  | some state =>
      have hActive :
          rl.activeOf ip = state.activeConnections := by
        simp [activeOf, stateOf, hState]
      rw [hActive] at hCounted ⊢
      simp only [gt_iff_lt, hCounted, if_true]
      exact activeOf_insert ip other _ rl

end RateLimiter

end ObscuraProto
