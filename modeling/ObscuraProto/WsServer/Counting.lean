import ObscuraProto.WsServer.Changes

/-
  The number of established sessions.

  Sends and received packets replace no session, so they keep
  the numbers; a handshake adds one session and a close takes
  one away.  The counters of the rate limiter follow.

  Key definitions include:
    * `ConnectionState.fixed`
    * `SessionTable.tally`
    * `WsServer.Unreplaced`

  Key theorems include:
    * `WsServer.OnlySends.unreplaced`
    * `WsServer.Accepts.unreplaced`
    * `WsServer.Stored.tally`, `WsServer.Closed.tally`
-/

namespace ObscuraProto

/- All of a stored connection that no message changes. -/
def ConnectionState.fixed
    (state : ConnectionState) : ConnectionState :=
  { state with
    session :=
      { state.session with sendCounter := 0, recvCounter := 0 }
    lastActivityMs := 0 }

------------------------------------------------------------
-- Tallies
------------------------------------------------------------

namespace SessionTable

/- The sessions whose remote address has `p`. -/
def tally (p : String → Bool) (t : SessionTable) : Nat :=
  OrderedMap.count (fun state => p state.remoteIp)
      t.sessions +
    OrderedMap.count (fun state => p state.remoteIp)
      t.anonSessions

theorem tally_true (t : SessionTable) :
    t.tally (fun _ => true) = t.size := by
  unfold tally size
  rw [OrderedMap.count_true, OrderedMap.count_true]

theorem tally_empty (p : String → Bool) :
    ({} : SessionTable).tally p = 0 := by
  have hNone := OrderedMap.count_empty (K := Hdl)
    (fun state : ConnectionState => p state.remoteIp)
  exact congrArg₂ (· + ·) hNone hNone

theorem tally_le_size
    (p : String → Bool)
    (t : SessionTable) :
    t.tally p ≤ t.size :=
  Nat.add_le_add (OrderedMap.count_le_size _ _)
    (OrderedMap.count_le_size _ _)

theorem tally_eq_add
    (isAuth : Bool)
    (p : String → Bool)
    (t : SessionTable) :
    t.tally p =
      OrderedMap.count (fun state => p state.remoteIp)
          (t.table isAuth) +
        OrderedMap.count (fun state => p state.remoteIp)
          (t.table (!isAuth)) := by
  cases isAuth with
  | true => rfl
  | false => exact Nat.add_comm _ _

theorem tally_emplace
    {isAuth : Bool}
    {hdl : Hdl}
    {state : ConnectionState}
    {t : SessionTable}
    (hAbsent : (t.table isAuth)[hdl]? = none)
    (p : String → Bool) :
    (t.emplace isAuth hdl state).tally p =
      t.tally p + if p state.remoteIp then 1 else 0 := by
  rw [tally_eq_add isAuth, tally_eq_add isAuth,
    table_emplace_self, table_emplace_not,
    OrderedMap.insertIfNew_of_absent hAbsent,
    OrderedMap.count_insert_of_absent hAbsent]
  omega

/- Tables without the entries of one connection. -/
theorem tally_erased
    {isAuth : Bool}
    {hdl : Hdl}
    {state : ConnectionState}
    {t t' : SessionTable}
    (hStored : (t.table isAuth)[hdl]? = some state)
    (hOther : (t.table (!isAuth))[hdl]? = none)
    (hErased :
      ∀ isAuth, t'.table isAuth = (t.table isAuth).erase hdl)
    (p : String → Bool) :
    t'.tally p + (if p state.remoteIp then 1 else 0) =
      t.tally p := by
  rw [tally_eq_add isAuth, tally_eq_add isAuth, hErased,
    hErased, OrderedMap.erase_of_absent hOther,
    ← OrderedMap.count_erase_of_present hStored]
  omega

theorem tally_erased_absent
    {hdl : Hdl}
    {t t' : SessionTable}
    (hNone : ∀ isAuth, (t.table isAuth)[hdl]? = none)
    (hErased :
      ∀ isAuth, t'.table isAuth = (t.table isAuth).erase hdl)
    (p : String → Bool) :
    t'.tally p = t.tally p := by
  rw [tally_eq_add true, tally_eq_add true, hErased,
    hErased, OrderedMap.erase_of_absent (hNone true),
    OrderedMap.erase_of_absent (hNone !true)]

end SessionTable

namespace WsServer

------------------------------------------------------------
-- Sessions That Are Not Replaced
------------------------------------------------------------

/- The same connections are stored, up to their counters. -/
def Unreplaced (w w' : WsServer) : Prop :=
  ∀ (isAuth : Bool) (hdl : Hdl),
    ((w'.sessionTable.table isAuth)[hdl]?).map
        ConnectionState.fixed =
      ((w.sessionTable.table isAuth)[hdl]?).map
        ConnectionState.fixed

theorem Unreplaced.trans
    {w v u : WsServer}
    (hFirst : Unreplaced w v)
    (hSecond : Unreplaced v u) :
    Unreplaced w u :=
  fun isAuth hdl =>
    (hSecond isAuth hdl).trans (hFirst isAuth hdl)

theorem OnlySends.unreplaced
    {w w' : WsServer}
    {effects : List ServerEffect}
    (hSends : OnlySends w effects w') :
    Unreplaced w w' := by
  intro isAuth hdl
  rcases hSends.connections isAuth hdl with ⟨c, hEntry⟩
  rw [hEntry, Option.map_map]
  rfl

theorem Accepts.unreplaced
    {S : Sodium}
    {hdl : Hdl}
    {packet : Bytes}
    {isAuth : Bool}
    {opened : Crypto.DecryptedResult}
    {effects : List ServerEffect}
    {w w' : WsServer}
    (hAccepts :
      Accepts S hdl packet isAuth opened w effects w') :
    Unreplaced w w' := by
  rcases hAccepts.connection with
    ⟨state, keys, now, hStored, _, _, _, hTable⟩
  intro isAuth' other
  rw [hTable]
  by_cases hSide : isAuth' = isAuth
  · subst hSide
    rw [SessionTable.table_store_self]
    by_cases hSame : other = hdl
    · rw [hSame, Std.ExtTreeMap.getElem?_insert_self, hStored]
      rfl
    · rw [OrderedMap.getElem?_insert_of_ne hSame]
  · rw [Bool.eq_not.mpr hSide, SessionTable.table_store_not]

/- What is stored afterwards was stored before. -/
theorem Unreplaced.stored_before
    {w w' : WsServer}
    {isAuth : Bool}
    {hdl : Hdl}
    {state' : ConnectionState}
    (hSame : Unreplaced w w')
    (hStored :
      (w'.sessionTable.table isAuth)[hdl]? = some state') :
    ∃ state,
      (w.sessionTable.table isAuth)[hdl]? = some state ∧
        state'.fixed = state.fixed := by
  have hEntry := hSame isAuth hdl
  rw [hStored, Option.map_some, eq_comm,
    Option.map_eq_some_iff] at hEntry
  rcases hEntry with ⟨state, hBefore, hFixed⟩
  exact ⟨state, hBefore, hFixed.symm⟩

/- And what was stored before still is. -/
theorem Unreplaced.stored_after
    {w w' : WsServer}
    {isAuth : Bool}
    {hdl : Hdl}
    {state : ConnectionState}
    (hSame : Unreplaced w w')
    (hStored :
      (w.sessionTable.table isAuth)[hdl]? = some state) :
    ∃ state',
      (w'.sessionTable.table isAuth)[hdl]? = some state' ∧
        state'.fixed = state.fixed := by
  have hEntry := hSame isAuth hdl
  rw [hStored, Option.map_some, Option.map_eq_some_iff]
    at hEntry
  exact hEntry

theorem Unreplaced.unstored
    {w w' : WsServer}
    {isAuth : Bool}
    {hdl : Hdl}
    (hSame : Unreplaced w w')
    (hNone : (w.sessionTable.table isAuth)[hdl]? = none) :
    (w'.sessionTable.table isAuth)[hdl]? = none := by
  have hEntry := hSame isAuth hdl
  rw [hNone, Option.map_none, Option.map_eq_none_iff]
    at hEntry
  exact hEntry

theorem Unreplaced.tally
    {w w' : WsServer}
    (hSame : Unreplaced w w')
    (p : String → Bool) :
    w'.sessionTable.tally p = w.sessionTable.tally p := by
  have hCount (isAuth : Bool) :
      OrderedMap.count (fun state => p state.remoteIp)
          (w'.sessionTable.table isAuth) =
        OrderedMap.count (fun state => p state.remoteIp)
          (w.sessionTable.table isAuth) :=
    OrderedMap.count_congr ConnectionState.fixed
      (hSame isAuth) (fun state => p state.remoteIp)
  rw [SessionTable.tally_eq_add true,
    SessionTable.tally_eq_add true, hCount, hCount]

------------------------------------------------------------
-- Sessions That Come and Go
------------------------------------------------------------

theorem Stored.tally
    {remoteIp : String}
    {hdl : Hdl}
    {session : Session}
    {w w' : WsServer}
    (hStored : Stored remoteIp hdl session w w')
    (hNone :
      ∀ isAuth, (w.sessionTable.table isAuth)[hdl]? = none)
    (p : String → Bool) :
    w'.sessionTable.tally p =
      w.sessionTable.tally p + if p remoteIp then 1 else 0 := by
  rcases hStored.table with ⟨rateLimiterId, now, hTable⟩
  rw [hTable, SessionTable.tally_emplace (hNone _)]

theorem closeSession_absent
    {isAuth : Bool}
    {hdl : Hdl}
    {w : WsServer}
    (hNone : (w.sessionTable.table isAuth)[hdl]? = none) :
    closeSession isAuth hdl w = w := by
  unfold closeSession
  rw [hNone]

/- One session is unregistered. -/
theorem closeSessions_rateLimiter
    {isAuth : Bool}
    {hdl : Hdl}
    {state : ConnectionState}
    {w : WsServer}
    (hStored :
      (w.sessionTable.table isAuth)[hdl]? = some state)
    (hOther :
      (w.sessionTable.table (!isAuth))[hdl]? = none) :
    (closeSession false hdl
        (closeSession true hdl w)).rateLimiter =
      w.rateLimiter.unregisterConnection state.rateLimiterId
        state.remoteIp := by
  cases isAuth with
  | true =>
      have hAbsent :
          ((closeSession true hdl w).sessionTable.table
            false)[hdl]? = none := by
        rw [closeSession_table, if_neg (by decide)]
        exact hOther
      rw [closeSession_absent hAbsent]
      unfold closeSession
      rw [hStored]
  | false =>
      have hSame : closeSession true hdl w = w :=
        closeSession_absent hOther
      rw [hSame]
      unfold closeSession
      rw [hStored]

end WsServer

end ObscuraProto
