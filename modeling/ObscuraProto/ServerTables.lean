import Mathlib.Data.List.Perm.Subperm
import ObscuraProto.Library.StateMachine
import ObscuraProto.WsServer.Counting

/-
  How the tables of the server agree with each other.

  The transport opens each connection once, then delivers
  messages, then closes it; an exception that escapes a
  handler ends the io thread.  Other threads call the public
  methods at any time.

  Key definitions include:
    * `ServerTables.World`, `ServerTables.Delivers`
    * `ServerTables.TablesAgree`
    * `ServerTables.Inv`

  Key theorems include:
    * `ServerTables.server_tables`
-/

namespace ObscuraProto

namespace ServerTables

open Effectful WsServer

variable (S : Sodium)

------------------------------------------------------------
-- Runs
------------------------------------------------------------

/- The server and what its transport has delivered so far. -/
structure World where
  server : WsServer
  opened : List Hdl := []
  closed : List Hdl := []
  ended : Bool := false

/- The connections that have not been closed yet. -/
def World.live (x : World) : List Hdl :=
  x.opened.filter (· ∉ x.closed)

/-
  What may happen next.  A socket descriptor is an `int`, so
  there are always fewer than 2^32 live connections.
-/
def Delivers (x : World) : ServerEvent → Prop
| .opened _ hdl =>
    x.ended = false ∧ hdl ∉ x.opened ∧
      x.live.length + 1 < 2 ^ 32
| .message _ hdl _ => x.ended = false ∧ hdl ∈ x.live
| .closed _ hdl => x.ended = false ∧ hdl ∈ x.live
| .timeouts _ => x.ended = false
| .call _ => True

instance (x : World) :
    (event : ServerEvent) → Decidable (Delivers x event)
| .opened _ hdl =>
    inferInstanceAs
      (Decidable
        (x.ended = false ∧ hdl ∉ x.opened ∧
          x.live.length + 1 < 2 ^ 32))
| .message _ hdl _ =>
    inferInstanceAs
      (Decidable (x.ended = false ∧ hdl ∈ x.live))
| .closed _ hdl =>
    inferInstanceAs
      (Decidable (x.ended = false ∧ hdl ∈ x.live))
| .timeouts _ =>
    inferInstanceAs (Decidable (x.ended = false))
| .call _ => inferInstanceAs (Decidable True)

def isError
    {ε α : Type} : Except ε α → Bool
| .error _ => true
| .ok _ => false

def exec (x : World) (event : ServerEvent) : World :=
  let o := (handle S event).run x.server
  match event with
  | .opened _ hdl =>
      { x with
        server := o.state
        opened := x.opened ++ [hdl]
        ended := isError o.result }
  | .message _ _ _ =>
      { x with server := o.state, ended := isError o.result }
  | .closed _ hdl =>
      { x with
        server := o.state
        closed := x.closed ++ [hdl]
        ended := isError o.result }
  | .timeouts _ =>
      { x with server := o.state, ended := isError o.result }
  | .call _ => { x with server := o.state }

abbrev Step : World → ServerEvent → World → Prop :=
  StateMachine.Guarded Delivers (exec S)

def start
    (serverSignKey : KeyPair)
    (config : Config)
    (hasOwner : Bool) : World where
  server := WsServer.new serverSignKey config hasOwner

------------------------------------------------------------
-- The Property
------------------------------------------------------------

/- How the tables, the maps and the counters agree. -/
structure TablesAgree (w : WsServer) : Prop where
  disjoint :
    ∀ hdl, hdl ∈ w.sessionTable.sessions →
      hdl ∉ w.sessionTable.anonSessions
  complete :
    ∀ (isAuth : Bool) (hdl : Hdl) (state : ConnectionState),
      (w.sessionTable.table isAuth)[hdl]? = some state →
        state.session.isHandshakeComplete = true
  identified :
    ∀ (isAuth : Bool) (hdl : Hdl) (state : ConnectionState),
      (w.sessionTable.table isAuth)[hdl]? = some state →
        state.session.hasPeerIdentity = isAuth
  keys :
    ∀ hdl, hdl ∈ w.identities.hdlToIdentity ↔
      hdl ∈ w.sessionTable.sessions
  identities :
    ∀ (hdl : Hdl) (state : ConnectionState),
      w.sessionTable.sessions[hdl]? = some state →
        w.identities.hdlToIdentity[hdl]? =
          state.session.getPeerIdentity
  entries :
    ∀ (pk : PublicKey) (hdl : Hdl),
      w.identities.identityToHdl[pk]? = some hdl →
        ∃ state,
          w.sessionTable.sessions[hdl]? = some state ∧
            state.session.getPeerIdentity = some pk
  openTime :
    ∀ (isAuth : Bool) (hdl : Hdl),
      hdl ∈ w.sessionTable.table isAuth →
        hdl ∉ w.handshakeOpenTime
  total :
    w.rateLimiter.activeTotal.toNat = w.sessionTable.size
  perIp :
    ∀ ip,
      (w.rateLimiter.activeOf ip).toNat =
        w.sessionTable.sizeFrom ip

/- No message replaces the session of its connection. -/
def MessagesKeepSessions (w : WsServer) : Prop :=
  ∀ (input : IoInput) (hdl : Hdl) (frame : Frame)
    (isAuth : Bool) (state : ConnectionState),
    (w.sessionTable.table isAuth)[hdl]? = some state →
      ∃ state',
        ((next S w
          (.message input hdl frame)).sessionTable.table
            isAuth)[hdl]? = some state' ∧
          state'.fixed = state.fixed

------------------------------------------------------------
-- Open Times
------------------------------------------------------------

variable {S}

/- Only a connection that opens is given an open time. -/
def OpenTimes
    (may : May)
    (w : WsServer)
    (_ : List ServerEffect)
    (w' : WsServer) : Prop :=
  ∀ hdl, hdl ∈ w'.handshakeOpenTime →
    hdl ∈ w.handshakeOpenTime ∨ may.opens hdl

theorem openTimes_of_eq
    {may : May}
    {w w' : WsServer}
    {effects : List ServerEffect}
    (hSame : w'.handshakeOpenTime = w.handshakeOpenTime) :
    OpenTimes may w effects w' := by
  intro hdl hMem
  rw [hSame] at hMem
  exact Or.inl hMem

theorem composes_openTimes (may : May) :
    Composes (OpenTimes may) where
  refl := fun _ => openTimes_of_eq rfl
  trans := by
    intro w v u _ _ hFirst hSecond hdl hMem
    rcases hSecond hdl hMem with hBefore | hMay
    · exact hFirst hdl hBefore
    · exact Or.inr hMay

theorem openTimes_of_move
    {may : May}
    {w w' : WsServer}
    {effects : List ServerEffect}
    (hMove : Move S may w effects w') :
    OpenTimes may w effects w' := by
  cases hMove with
  | registers registration callback _ =>
      cases registration <;> exact openTimes_of_eq rfl
  | opens now hMay =>
      intro hdl hMem
      rcases Std.ExtTreeMap.mem_insert.mp hMem with
        hSame | hBefore
      · rw [Std.LawfulEqOrd.eq_of_compare hSame] at hMay
        exact Or.inr hMay
      · exact Or.inl hBefore
  | closesLate status reason late =>
      intro hdl hMem
      exact Or.inl (Std.ExtTreeMap.mem_of_mem_filter hMem)
  | clearsTime hdl' =>
      intro hdl hMem
      exact Or.inl (Std.ExtTreeMap.mem_of_mem_erase hMem)
  | receives _ hWithin =>
      apply openTimes_of_eq
      rw [hWithin.state]
  | @closesSessions hdl' _ =>
      rcases closeSession_frame true hdl' w with
        ⟨_, _, _, hTimes, _, _⟩
      rcases closeSession_frame false hdl'
          (closeSession true hdl' w) with
        ⟨_, _, _, hTimes', _, _⟩
      exact openTimes_of_eq (hTimes'.trans hTimes)
  | _ => exact openTimes_of_eq rfl

/- Who has an open time after an event. -/
theorem next_openTimes
    {w : WsServer}
    {event : ServerEvent}
    {hdl : Hdl}
    (hMem : hdl ∈ (next S w event).handshakeOpenTime) :
    hdl ∈ w.handshakeOpenTime ∨
      ∃ input, event = .opened input hdl := by
  have hTimes :=
    ((handle_moves S event).mono
      (fun _ _ _ hMove => openTimes_of_move hMove)).run
      (composes_openTimes event.may) w
  rcases hTimes hdl hMem with hBefore | hMay
  · exact Or.inl hBefore
  · cases event with
    | opened input hdl' =>
        cases (show hdl = hdl' from hMay)
        exact Or.inr ⟨input, rfl⟩
    | message | closed | timeouts | call => cases hMay

------------------------------------------------------------
-- The Invariant
------------------------------------------------------------

/- What is known of a stored session. -/
structure Known
    (x : World)
    (isAuth : Bool)
    (hdl : Hdl)
    (state : ConnectionState) : Prop where
  complete : state.session.handshakeComplete = true
  identified : state.session.peerIdentity.isSome = isAuth
  opened : hdl ∈ x.opened
  live : x.ended = false → hdl ∈ x.live
  openTime : hdl ∉ x.server.handshakeOpenTime

structure Inv (x : World) : Prop where
  exclusive :
    ∀ hdl : Hdl,
      (x.server.sessionTable.table true)[hdl]? = none ∨
        (x.server.sessionTable.table false)[hdl]? = none
  known :
    ∀ (isAuth : Bool) (hdl : Hdl) (state : ConnectionState),
      (x.server.sessionTable.table isAuth)[hdl]? =
          some state →
        Known x isAuth hdl state
  agree :
    ∀ hdl,
      x.server.identities.hdlToIdentity[hdl]? =
        x.server.sessionTable.identityOf hdl
  registered : x.server.identities.Registered
  total :
    x.server.rateLimiter.totalConnections.toNat =
      x.server.sessionTable.size
  active :
    ∀ ip,
      (x.server.rateLimiter.activeOf ip).toNat =
        x.server.sessionTable.tally (· == ip)
  bounded : x.live.length < 2 ^ 32

theorem inv_start
    (serverSignKey : KeyPair)
    (config : Config)
    {hasOwner : Bool} :
    Inv (start serverSignKey config hasOwner) where
  exclusive := by
    intro hdl
    exact Or.inl Std.ExtTreeMap.getElem?_empty
  known := by
    intro isAuth hdl state hStored
    cases isAuth with
    | true =>
        simp [start, WsServer.new, SessionTable.table]
          at hStored
    | false =>
        simp [start, WsServer.new, SessionTable.table]
          at hStored
  agree := by
    intro hdl
    simp [start, WsServer.new, SessionTable.identityOf]
  registered := by
    intro pk hdl hFound
    simp [start, WsServer.new] at hFound
  total := by
    simp [start, WsServer.new, RateLimiter.new,
      SessionTable.size]
  active := by
    intro ip
    simp [start, WsServer.new, RateLimiter.new,
      RateLimiter.activeOf, RateLimiter.stateOf,
      SessionTable.tally_empty]
  bounded := by
    change 0 < 2 ^ 32
    decide

theorem not_mem_of_getElem?
    {V : Type}
    {m : Map Hdl V}
    {hdl : Hdl}
    (hNone : m[hdl]? = none) :
    hdl ∉ m := by
  rw [Std.ExtTreeMap.mem_iff_isSome_getElem?, hNone]
  simp

theorem getElem?_of_mem
    {V : Type}
    {m : Map Hdl V}
    {hdl : Hdl}
    (hMem : hdl ∈ m) :
    ∃ v, m[hdl]? = some v := by
  rw [Std.ExtTreeMap.mem_iff_isSome_getElem?] at hMem
  exact Option.isSome_iff_exists.mp hMem

/- Every live connection stores at most one session. -/
theorem Inv.size_lt
    {x : World}
    {hdl : Hdl}
    (hInv : Inv x)
    (hRunning : x.ended = false)
    (hLive : hdl ∈ x.live)
    (hNone :
      ∀ isAuth,
        (x.server.sessionTable.table isAuth)[hdl]? = none) :
    x.server.sessionTable.size < x.live.length := by
  have hKey
      {isAuth : Bool}
      {other : Hdl}
      (hMem :
        other ∈ (x.server.sessionTable.table isAuth).keys) :
      other ∈ x.server.sessionTable.table isAuth :=
    Std.ExtTreeMap.mem_keys.mp hMem
  have hNodup :
      (hdl ::
        ((x.server.sessionTable.table true).keys ++
          (x.server.sessionTable.table false).keys)).Nodup := by
    rw [List.nodup_cons, List.nodup_append]
    refine
      ⟨?_, Std.ExtTreeMap.nodup_keys,
        Std.ExtTreeMap.nodup_keys, ?_⟩
    · intro hMem
      rcases List.mem_append.mp hMem with hAuth | hAnon
      · exact not_mem_of_getElem? (hNone true) (hKey hAuth)
      · exact not_mem_of_getElem? (hNone false) (hKey hAnon)
    · rintro first hAuth second hAnon rfl
      rcases hInv.exclusive first with hNo | hNo
      · exact not_mem_of_getElem? hNo (hKey hAuth)
      · exact not_mem_of_getElem? hNo (hKey hAnon)
  have hSubset :
      hdl ::
          ((x.server.sessionTable.table true).keys ++
            (x.server.sessionTable.table false).keys) ⊆
        x.live := by
    intro other hMem
    rcases List.mem_cons.mp hMem with hSame | hStored
    · rw [hSame]
      exact hLive
    · rcases List.mem_append.mp hStored with hAuth | hAnon
      · rcases getElem?_of_mem (hKey hAuth) with ⟨state, hEntry⟩
        exact (hInv.known true other state hEntry).live hRunning
      · rcases getElem?_of_mem (hKey hAnon) with ⟨state, hEntry⟩
        exact (hInv.known false other state hEntry).live hRunning
  have hLength :=
    (List.subperm_of_subset hNodup hSubset).length_le
  simp only [List.length_cons, List.length_append,
    Std.ExtTreeMap.length_keys] at hLength
  exact hLength

------------------------------------------------------------
-- Steps That Replace No Session
------------------------------------------------------------

theorem fixed_complete
    {state state' : ConnectionState}
    (hFixed : state'.fixed = state.fixed) :
    state'.session.handshakeComplete =
        state.session.handshakeComplete ∧
      state'.session.peerIdentity =
        state.session.peerIdentity := by
  have hComplete :
      state'.fixed.session.handshakeComplete =
        state.fixed.session.handshakeComplete := by
    rw [hFixed]
  have hPeer :
      state'.fixed.session.peerIdentity =
        state.fixed.session.peerIdentity := by
    rw [hFixed]
  exact ⟨hComplete, hPeer⟩

theorem Unreplaced.identityOf
    {w w' : WsServer}
    (hSame : Unreplaced w w')
    (hdl : Hdl) :
    w'.sessionTable.identityOf hdl =
      w.sessionTable.identityOf hdl := by
  have hEntry := hSame true hdl
  unfold SessionTable.identityOf
  cases hAfter : (w'.sessionTable.table true)[hdl]? with
  | none =>
      rw [hAfter, Option.map_none, eq_comm,
        Option.map_eq_none_iff] at hEntry
      rw [show w'.sessionTable.sessions[hdl]? = none from
          hAfter,
        show w.sessionTable.sessions[hdl]? = none from hEntry]
  | some state' =>
      rcases hSame.stored_before hAfter with
        ⟨state, hBefore, hFixed⟩
      rw [show w'.sessionTable.sessions[hdl]? = some state'
          from hAfter,
        show w.sessionTable.sessions[hdl]? = some state from
          hBefore]
      exact (fixed_complete hFixed).2

/-
  Nothing is replaced, counted or given an open time, and the
  stored sessions stay live.
-/
theorem Inv.of_unreplaced
    {x y : World}
    (hInv : Inv x)
    (hSame : Unreplaced x.server y.server)
    (hIdentities :
      y.server.identities = x.server.identities)
    (hCounts :
      x.server.rateLimiter.SameCounts y.server.rateLimiter)
    (hKnown :
      ∀ (isAuth : Bool) (hdl : Hdl) (state : ConnectionState),
        Known x isAuth hdl state →
          hdl ∈ y.opened ∧ (y.ended = false → hdl ∈ y.live) ∧
            hdl ∉ y.server.handshakeOpenTime)
    (hBounded : y.live.length < 2 ^ 32) :
    Inv y where
  exclusive := by
    intro hdl
    rcases hInv.exclusive hdl with hNone | hNone
    · exact Or.inl (hSame.unstored hNone)
    · exact Or.inr (hSame.unstored hNone)
  known := by
    intro isAuth hdl state' hStored
    rcases hSame.stored_before hStored with
      ⟨state, hBefore, hFixed⟩
    have hOld := hInv.known isAuth hdl state hBefore
    rcases hKnown isAuth hdl state hOld with
      ⟨hOpened, hLive, hTime⟩
    rcases fixed_complete hFixed with ⟨hComplete, hPeer⟩
    exact
      { complete := hComplete.trans hOld.complete
        identified := by
          rw [hPeer]
          exact hOld.identified
        opened := hOpened
        live := hLive
        openTime := hTime }
  agree := by
    intro hdl
    rw [hIdentities, Unreplaced.identityOf hSame]
    exact hInv.agree hdl
  registered := by
    rw [hIdentities]
    exact hInv.registered
  total := by
    rw [hCounts.total, hInv.total, ← SessionTable.tally_true,
      ← SessionTable.tally_true, hSame.tally]
  active := by
    intro ip
    rw [hCounts.active ip, hInv.active ip, hSame.tally]
  bounded := hBounded

------------------------------------------------------------
-- A Handshake
------------------------------------------------------------

/- An entry is the new one, or it was there before. -/
theorem Stored.of_stored
    {remoteIp : String}
    {hdl other : Hdl}
    {session : Session}
    {w w' : WsServer}
    {isAuth : Bool}
    {state : ConnectionState}
    (hStored : Stored remoteIp hdl session w w')
    (hNone :
      ∀ isAuth, (w.sessionTable.table isAuth)[hdl]? = none)
    (hEntry :
      (w'.sessionTable.table isAuth)[other]? = some state) :
    (other = hdl ∧
        session.peerIdentity.isSome = isAuth ∧
        state.session = session) ∨
      (w.sessionTable.table isAuth)[other]? =
        some state := by
  rcases hStored.table with ⟨rateLimiterId, now, hTable⟩
  rw [hTable] at hEntry
  by_cases hSide : isAuth = session.peerIdentity.isSome
  · rw [← hSide, SessionTable.table_emplace_self,
      OrderedMap.insertIfNew_of_absent (hNone isAuth)]
      at hEntry
    rcases OrderedMap.of_getElem?_insert hEntry with
      ⟨hSame, hNew⟩ | ⟨_, hOld⟩
    · rw [hNew]
      exact Or.inl ⟨hSame, hSide.symm, rfl⟩
    · exact Or.inr hOld
  · rw [Bool.eq_not.mpr hSide,
      SessionTable.table_emplace_not] at hEntry
    rw [Bool.eq_not.mpr hSide]
    exact Or.inr hEntry

theorem toNat_succ
    {n : UInt32}
    (hFits : n.toNat + 1 < 2 ^ 32) :
    (n + 1).toNat = n.toNat + 1 := by
  rw [UInt32.toNat_add]
  exact Nat.mod_eq_of_lt hFits

theorem toNat_pred
    {n : UInt32}
    (hPositive : 0 < n.toNat) :
    (n - 1).toNat = n.toNat - 1 := by
  apply UInt32.toNat_sub_of_le
  rw [UInt32.le_iff_toNat_le]
  exact hPositive

theorem Inv.established
    {x y : World}
    {remoteIp : String}
    {hdl : Hdl}
    {session : Session}
    (hInv : Inv x)
    (hRunning : x.ended = false)
    (hLive : hdl ∈ x.live)
    (hNone :
      ∀ isAuth,
        (x.server.sessionTable.table isAuth)[hdl]? = none)
    (hComplete : session.handshakeComplete = true)
    (hStored :
      Stored remoteIp hdl session x.server y.server)
    (hCleared : hdl ∉ y.server.handshakeOpenTime)
    (hTimes :
      ∀ other, other ∈ y.server.handshakeOpenTime →
        other ∈ x.server.handshakeOpenTime)
    (hOpened : y.opened = x.opened)
    (hClosed : y.closed = x.closed) :
    Inv y := by
  have hSameLive : y.live = x.live := by
    unfold World.live
    rw [hOpened, hClosed]
  have hRoom := hInv.size_lt hRunning hLive hNone
  have hBounded := hInv.bounded
  rcases hStored.counts with ⟨rl, hCounts, hRegistered⟩
  rcases rl.registerConnection_counts remoteIp with
    ⟨hTotal, hActive⟩
  constructor
  · intro other
    cases hAuth :
        (y.server.sessionTable.table true)[other]? with
    | none => exact Or.inl rfl
    | some state =>
        cases hAnon :
            (y.server.sessionTable.table false)[other]? with
        | none => exact Or.inr rfl
        | some state' =>
            rcases Stored.of_stored hStored hNone hAuth with
              ⟨hSame, hSide, _⟩ | hOld
            · rcases Stored.of_stored hStored hNone hAnon with
                ⟨_, hSide', _⟩ | hOld'
              · rw [hSide] at hSide'
                cases hSide'
              · rw [hSame, hNone false] at hOld'
                cases hOld'
            · rcases Stored.of_stored hStored hNone hAnon with
                ⟨hSame, _, _⟩ | hOld'
              · rw [hSame, hNone true] at hOld
                cases hOld
              · rcases hInv.exclusive other with hNo | hNo
                · rw [hNo] at hOld
                  cases hOld
                · rw [hNo] at hOld'
                  cases hOld'
  · intro isAuth other state hEntry
    rcases Stored.of_stored hStored hNone hEntry with
      ⟨hSame, hSide, hSession⟩ | hOld
    · exact
        { complete := by rw [hSession]; exact hComplete
          identified := by rw [hSession]; exact hSide
          opened := by
            rw [hSame, hOpened]
            exact (List.mem_filter.mp hLive).1
          live := by
            intro _
            rw [hSame, hSameLive]
            exact hLive
          openTime := by
            rw [hSame]
            exact hCleared }
    · have hKnown := hInv.known isAuth other state hOld
      exact
        { complete := hKnown.complete
          identified := hKnown.identified
          opened := by
            rw [hOpened]
            exact hKnown.opened
          live := by
            intro _
            rw [hSameLive]
            exact hKnown.live hRunning
          openTime := fun hMem =>
            hKnown.openTime (hTimes other hMem) }
  · exact hStored.agree hInv.agree hNone
  · rw [hStored.identities]
    unfold WsServer.registered
    cases session.peerIdentity with
    | none => exact hInv.registered
    | some clientPk =>
        apply IdentityMap.register_registered hInv.registered
        rw [hInv.agree hdl]
        unfold SessionTable.identityOf
        rw [show x.server.sessionTable.sessions[hdl]? = none
            from hNone true]
        rfl
  · rw [hRegistered, hTotal, hCounts.total]
    rw [← SessionTable.tally_true, hStored.tally hNone,
      SessionTable.tally_true, if_pos rfl]
    rw [toNat_succ, hInv.total]
    rw [hInv.total]
    omega
  · intro ip
    rw [hRegistered, hActive ip, hStored.tally hNone]
    by_cases hSame : ip = remoteIp
    · rw [if_pos hSame, hSame, hCounts.active, toNat_succ,
        hInv.active]
      · simp
      · have hLe :=
          SessionTable.tally_le_size (· == remoteIp)
            x.server.sessionTable
        rw [hInv.active]
        omega
    · have hOther : (remoteIp == ip) = false := by
        simpa using Ne.symm hSame
      rw [if_neg hSame, hCounts.active, hInv.active, hOther]
      simp
  · rw [hSameLive]
    exact hBounded

------------------------------------------------------------
-- A Close
------------------------------------------------------------

/- The counters after the sessions of `hdl` are erased. -/
theorem Inv.closed_counts
    {x : World}
    {w' : WsServer}
    {hdl : Hdl}
    (hInv : Inv x)
    (hClosed : Closed hdl x.server w') :
    w'.rateLimiter.totalConnections.toNat =
        w'.sessionTable.size ∧
      ∀ ip,
        (w'.rateLimiter.activeOf ip).toNat =
          w'.sessionTable.tally (· == ip) := by
  by_cases hNone :
      ∀ isAuth,
        (x.server.sessionTable.table isAuth)[hdl]? = none
  · have hSame :
        w'.rateLimiter = x.server.rateLimiter := by
      rw [hClosed.rateLimiter,
        closeSession_absent (hNone true),
        closeSession_absent (hNone false)]
    rw [hSame]
    constructor
    · rw [hInv.total, ← SessionTable.tally_true,
        ← SessionTable.tally_true,
        SessionTable.tally_erased_absent hNone hClosed.table]
    · intro ip
      rw [hInv.active,
        SessionTable.tally_erased_absent hNone hClosed.table]
  · simp only [not_forall] at hNone
    rcases hNone with ⟨isAuth, hSome⟩
    rcases Option.ne_none_iff_exists'.mp hSome with
      ⟨state, hStored⟩
    have hOther :
        (x.server.sessionTable.table (!isAuth))[hdl]? =
          none := by
      cases isAuth with
      | true =>
          rcases hInv.exclusive hdl with hNo | hNo
          · exact absurd hNo hSome
          · exact hNo
      | false =>
          rcases hInv.exclusive hdl with hNo | hNo
          · exact hNo
          · exact absurd hNo hSome
    have hTally :=
      SessionTable.tally_erased hStored hOther hClosed.table
    have hHere : 0 < (x.server.rateLimiter.activeOf
        state.remoteIp).toNat := by
      have hLess := hTally (· == state.remoteIp)
      rw [hInv.active]
      simp only [beq_self_eq_true, if_true] at hLess
      omega
    have hCounts :=
      x.server.rateLimiter.unregisterConnection_counts
        state.rateLimiterId
        (UInt32.lt_iff_toNat_lt.mpr hHere)
    rw [hClosed.rateLimiter,
      closeSessions_rateLimiter hStored hOther]
    constructor
    · have hAll := hTally (fun _ => true)
      simp only [SessionTable.tally_true, if_true] at hAll
      have hPositive :
          0 < x.server.rateLimiter.totalConnections.toNat := by
        rw [hInv.total]
        omega
      rw [hCounts.1, toNat_pred hPositive, hInv.total]
      omega
    · intro ip
      have hFrom := hTally (· == ip)
      rw [hCounts.2 ip]
      by_cases hSame : ip = state.remoteIp
      · subst hSame
        rw [if_pos rfl, toNat_pred hHere, hInv.active]
        simp only [beq_self_eq_true, if_true] at hFrom
        omega
      · have hNot : (state.remoteIp == ip) = false := by
          simpa using Ne.symm hSame
        rw [if_neg hSame, hInv.active, ← hFrom, hNot]
        simp

theorem Inv.closes
    {x y : World}
    {hdl : Hdl}
    (hInv : Inv x)
    (hRunning : x.ended = false)
    (hClosed : Closed hdl x.server y.server)
    (hOpened : y.opened = x.opened)
    (hLive : y.live = x.live.filter (· ≠ hdl)) :
    Inv y := by
  rcases hInv.closed_counts hClosed with ⟨hTotal, hActive⟩
  have hBefore
      {isAuth : Bool}
      {other : Hdl}
      {state : ConnectionState}
      (hEntry :
        (y.server.sessionTable.table isAuth)[other]? =
          some state) :
      other ≠ hdl ∧
        (x.server.sessionTable.table isAuth)[other]? =
          some state := by
    rw [hClosed.table] at hEntry
    exact OrderedMap.of_getElem?_erase hEntry
  have hNone
      {isAuth : Bool}
      {other : Hdl}
      (hNo :
        (x.server.sessionTable.table isAuth)[other]? =
          none) :
      (y.server.sessionTable.table isAuth)[other]? = none := by
    cases hEntry :
        (y.server.sessionTable.table isAuth)[other]? with
    | none => rfl
    | some state =>
        rw [(hBefore hEntry).2] at hNo
        cases hNo
  constructor
  · intro other
    rcases hInv.exclusive other with hNo | hNo
    · exact Or.inl (hNone hNo)
    · exact Or.inr (hNone hNo)
  · intro isAuth other state hEntry
    rcases hBefore hEntry with ⟨hOther, hOld⟩
    have hKnown := hInv.known isAuth other state hOld
    exact
      { complete := hKnown.complete
        identified := hKnown.identified
        opened := by
          rw [hOpened]
          exact hKnown.opened
        live := by
          intro _
          rw [hLive]
          exact
            List.mem_filter.mpr
              ⟨hKnown.live hRunning, by simpa using hOther⟩
        openTime := by
          rw [hClosed.openTime]
          intro hMem
          exact
            hKnown.openTime
              (Std.ExtTreeMap.mem_of_mem_erase hMem) }
  · exact hClosed.agree hInv.agree
  · rw [hClosed.identities]
    exact
      IdentityMap.unregister_registered hInv.registered hdl
  · exact hTotal
  · exact hActive
  · rw [hLive]
    have hShorter :=
      List.length_filter_le (fun other => decide (other ≠ hdl))
        x.live
    have hBounded := hInv.bounded
    omega

------------------------------------------------------------
-- Every Step
------------------------------------------------------------

theorem live_closed (x : World) (hdl : Hdl) :
    x.opened.filter (· ∉ x.closed ++ [hdl]) =
      x.live.filter (· ≠ hdl) := by
  unfold World.live
  rw [List.filter_filter]
  apply List.filter_congr
  intro other _
  simp [Bool.and_comm]

/- A step that keeps the transport's view of connections. -/
theorem Inv.undisturbed
    {x y : World}
    (hInv : Inv x)
    (hSame : Unreplaced x.server y.server)
    (hIdentities :
      y.server.identities = x.server.identities)
    (hCounts :
      x.server.rateLimiter.SameCounts y.server.rateLimiter)
    (hTimes :
      ∀ hdl, hdl ∈ y.server.handshakeOpenTime →
        hdl ∈ x.server.handshakeOpenTime)
    (hOpened : y.opened = x.opened)
    (hClosed : y.closed = x.closed)
    (hRunning : y.ended = false → x.ended = false) :
    Inv y := by
  have hLive : y.live = x.live := by
    unfold World.live
    rw [hOpened, hClosed]
  refine
    hInv.of_unreplaced hSame hIdentities hCounts ?_ ?_
  · intro isAuth hdl state hKnown
    refine ⟨?_, ?_, ?_⟩
    · rw [hOpened]
      exact hKnown.opened
    · intro hEnded
      rw [hLive]
      exact hKnown.live (hRunning hEnded)
    · exact fun hMem => hKnown.openTime (hTimes hdl hMem)
  · rw [hLive]
    exact hInv.bounded

theorem Inv.opens
    {x : World}
    {input : IoInput}
    {hdl : Hdl}
    (hInv : Inv x)
    (hDelivers : Delivers x (.opened input hdl)) :
    Inv (exec S x (.opened input hdl)) := by
  rcases hDelivers with ⟨hRunning, hNew, hRoom⟩
  have hSends :
      OnlySends x.server []
        (next S x.server (.opened input hdl)) :=
    (onOpen_sends S input hdl).run x.server |>.forget []
  refine
    hInv.of_unreplaced (OnlySends.unreplaced hSends)
      hSends.identities hSends.counts ?_ ?_
  · intro isAuth other state hKnown
    have hOld := List.mem_filter.mp (hKnown.live hRunning)
    refine
      ⟨List.mem_append_left _ hKnown.opened, ?_, ?_⟩
    · intro _
      exact
        List.mem_filter.mpr
          ⟨List.mem_append_left _ hOld.1, hOld.2⟩
    · intro hMem
      rcases next_openTimes hMem with hBefore | ⟨_, hSame⟩
      · exact hKnown.openTime hBefore
      · cases hSame
        exact hNew hKnown.opened
  · change
      ((x.opened ++ [hdl]).filter (· ∉ x.closed)).length <
        2 ^ 32
    have hOne :=
      List.length_filter_le (· ∉ x.closed) [hdl]
    rw [List.filter_append, List.length_append]
    unfold World.live at hRoom
    simp only [List.length_singleton] at hOne
    omega

theorem Inv.messages
    {x : World}
    {input : IoInput}
    {hdl : Hdl}
    {frame : Frame}
    (hInv : Inv x)
    (hDelivers : Delivers x (.message input hdl frame)) :
    Inv (exec S x (.message input hdl frame)) := by
  rcases hDelivers with ⟨hRunning, hLive⟩
  have hTimes (other : Hdl)
      (hMem :
        other ∈
          (next S x.server
            (.message input hdl frame)).handshakeOpenTime) :
      other ∈ x.server.handshakeOpenTime := by
    rcases next_openTimes hMem with hBefore | ⟨_, hSame⟩
    · exact hBefore
    · cases hSame
  have hChange :=
    next_change S (.message input hdl frame) x.server
  cases hChange with
  | sends hSends =>
      exact
        hInv.undisturbed (OnlySends.unreplaced hSends)
          hSends.identities hSends.counts hTimes rfl rfl
          (fun _ => hRunning)
  | receives hAccepts hSends =>
      exact
        hInv.undisturbed
          (hAccepts.unreplaced.trans
            (OnlySends.unreplaced hSends))
          (hSends.identities.trans hAccepts.identities)
          (hAccepts.counts.trans hSends.counts) hTimes rfl rfl
          (fun _ => hRunning)
  | establishes _ hNone hAnswers _ hStored hCleared =>
      rcases Session.serverRespondToHandshake_ok S
          hAnswers.replied with
        ⟨_, _, _, _, _, _, _, _, _, hSession⟩
      have hComplete := congrArg Session.handshakeComplete hSession
      exact
        hInv.established hRunning hLive hNone hComplete hStored
          hCleared hTimes rfl rfl

theorem Inv.closedEvent
    {x : World}
    {input : IoInput}
    {hdl : Hdl}
    (hInv : Inv x)
    (hDelivers : Delivers x (.closed input hdl)) :
    Inv (exec S x (.closed input hdl)) := by
  rcases hDelivers with ⟨hRunning, hLive⟩
  have hAfter :
      (exec S x (.closed input hdl)).live =
        x.live.filter (· ≠ hdl) :=
    live_closed x hdl
  rcases onClose_cases input hdl x.server with
    ⟨hSame, e, hError⟩ | hClosed
  · have hServer :
        (exec S x (.closed input hdl)).server = x.server :=
      hSame
    have hEnded :
        (exec S x (.closed input hdl)).ended = true := by
      change isError ((onClose input hdl).run x.server).result = true
      rw [hError]
      rfl
    refine hInv.of_unreplaced ?_ ?_ ?_ ?_ ?_
    · rw [hServer]
      exact fun _ _ => rfl
    · rw [hServer]
    · rw [hServer]
      exact .refl _
    · intro isAuth other state hKnown
      refine ⟨hKnown.opened, ?_, ?_⟩
      · intro hNot
        rw [hEnded] at hNot
        cases hNot
      · rw [hServer]
        exact hKnown.openTime
    · rw [hAfter]
      have hShorter :=
        List.length_filter_le
          (fun other => decide (other ≠ hdl)) x.live
      have hBounded := hInv.bounded
      omega
  · exact hInv.closes hRunning hClosed rfl hAfter

theorem Inv.exec
    {x : World}
    {event : ServerEvent}
    (hInv : Inv x)
    (hDelivers : Delivers x event) :
    Inv (exec S x event) := by
  have hTimes
      (hNot : ∀ input hdl, event ≠ .opened input hdl)
      (hdl : Hdl)
      (hMem :
        hdl ∈ (next S x.server event).handshakeOpenTime) :
      hdl ∈ x.server.handshakeOpenTime := by
    rcases next_openTimes hMem with hBefore | ⟨input, hSame⟩
    · exact hBefore
    · exact absurd hSame (hNot input hdl)
  cases event with
  | opened input hdl => exact hInv.opens hDelivers
  | message input hdl frame => exact hInv.messages hDelivers
  | closed input hdl => exact hInv.closedEvent hDelivers
  | timeouts input =>
      have hSends :
          OnlySends x.server []
            (next S x.server (.timeouts input)) :=
        (checkTimeouts_sends S input).run x.server |>.forget []
      exact
        hInv.undisturbed (OnlySends.unreplaced hSends)
          hSends.identities hSends.counts
          (hTimes (by simp)) rfl rfl (fun _ => hDelivers)
  | call method =>
      have hSends :
          OnlySends x.server []
            (next S x.server (.call method)) :=
        (call_sends S method).run x.server |>.forget []
      exact
        hInv.undisturbed (OnlySends.unreplaced hSends)
          hSends.identities hSends.counts
          (hTimes (by simp)) rfl rfl (fun hEnded => hEnded)

------------------------------------------------------------
-- The Theorem
------------------------------------------------------------

theorem Inv.tablesAgree
    {x : World}
    (hInv : Inv x) :
    TablesAgree x.server where
  disjoint := by
    intro hdl hAuth hAnon
    rcases hInv.exclusive hdl with hNo | hNo
    · exact not_mem_of_getElem? hNo hAuth
    · exact not_mem_of_getElem? hNo hAnon
  complete := fun isAuth hdl state hStored =>
    (hInv.known isAuth hdl state hStored).complete
  identified := fun isAuth hdl state hStored =>
    (hInv.known isAuth hdl state hStored).identified
  keys := by
    intro hdl
    rw [Std.ExtTreeMap.mem_iff_isSome_getElem?,
      Std.ExtTreeMap.mem_iff_isSome_getElem?, hInv.agree hdl]
    unfold SessionTable.identityOf
    cases hEntry :
        x.server.sessionTable.sessions[hdl]? with
    | none => rfl
    | some state =>
        have hKnown := hInv.known true hdl state hEntry
        simpa [Session.getPeerIdentity] using
          hKnown.identified
  identities := by
    intro hdl state hStored
    rw [hInv.agree hdl]
    unfold SessionTable.identityOf
    rw [hStored]
    rfl
  entries := by
    intro pk hdl hFound
    have hRegistered := hInv.registered pk hdl hFound
    rw [hInv.agree hdl] at hRegistered
    unfold SessionTable.identityOf at hRegistered
    exact Option.bind_eq_some_iff.mp hRegistered
  openTime := by
    intro isAuth hdl hMem
    rcases getElem?_of_mem hMem with ⟨state, hStored⟩
    exact (hInv.known isAuth hdl state hStored).openTime
  total := hInv.total
  perIp := hInv.active

theorem messagesKeepSessions (w : WsServer) :
    MessagesKeepSessions S w := by
  intro input hdl frame isAuth state hStored
  have hChange := next_change S (.message input hdl frame) w
  generalize next S w (.message input hdl frame) = w'
    at hChange ⊢
  cases hChange with
  | sends hSends =>
      exact (OnlySends.unreplaced hSends).stored_after hStored
  | receives hAccepts hSends =>
      have hSame :=
        hAccepts.unreplaced.trans (OnlySends.unreplaced hSends)
      exact hSame.stored_after hStored
  | establishes _ hNone _ _ _ _ =>
      rw [hNone isAuth] at hStored
      cases hStored

/- In every state between two events of the io thread. -/
theorem server_tables
    {serverSignKey : KeyPair}
    {config : Config}
    {hasOwner : Bool}
    {events : List ServerEvent}
    {x : World}
    (hRun :
      StateMachine.Run (Step S) (start serverSignKey config hasOwner)
        events x) :
    TablesAgree x.server ∧
      MessagesKeepSessions S x.server := by
  have hInv : Inv x := by
    refine
      hRun.invariant ?_ (inv_start serverSignKey config)
    rintro y event z hBefore ⟨hDelivers, hExec⟩
    rw [hExec]
    exact hBefore.exec hDelivers
  exact ⟨hInv.tablesAgree, messagesKeepSessions x.server⟩

------------------------------------------------------------
-- A Sample Run
------------------------------------------------------------

open PlainSodium

/- Two connections, a hello, a stray message and a close. -/
def visits : List ServerEvent :=
  [ .opened (.smooth (sampleKx 0)) 1,
    .hello 1 1,
    .opened (.smooth (sampleKx 0)) 2,
    .message (.smooth (sampleKx 0)) 2 { payload := [0] },
    .hello 2 2,
    .timeouts (.smooth (sampleKx 0)),
    .closed (.smooth (sampleKx 0)) 1 ]

set_option maxRecDepth 8000 in
theorem server_tables_visits :
    let x :=
      visits.foldl (exec plainSodium)
        (start (sampleKeyPair 6) Config.withDefaults true)
    x.server.sessionTable.size = 1 ∧
      TablesAgree x.server ∧
      MessagesKeepSessions plainSodium x.server :=
  ⟨by decide,
    server_tables
      (StateMachine.run_of_allowed Delivers
        (exec plainSodium)
        (start (sampleKeyPair 6) Config.withDefaults true)
        visits (by decide))⟩

end ServerTables

end ObscuraProto
