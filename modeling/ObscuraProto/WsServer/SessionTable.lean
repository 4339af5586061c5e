import ObscuraProto.WsCommon

/-
  The two session tables of the server.

  `sessions_mutex_` guards both; every function here is one
  critical section of that mutex, or a part of one.  The
  sending sections return the packet that is handed to the
  transport before the mutex is released.

  Key definitions include:
    * `ConnectionState`, `SessionTable`
    * `SessionTable.send`, `SessionTable.sendAnonymous`
    * `SessionTable.selectedVersion`
    * `SessionTable.identityOf`
    * `SessionTable.idleConnections`
    * `SessionTable.size`, `SessionTable.sizeFrom`

  Key theorems include:
    * `SessionTable.send_cases`
    * `SessionTable.sendAnonymous_cases`
-/

namespace ObscuraProto

structure ConnectionState where
  session : Session
  rateLimiterId : UInt64 := 0
  remoteIp : String
  lastActivityMs : Int := 0
deriving DecidableEq

/- The connection state after one more encryption. -/
def ConnectionState.afterSend
    (state : ConnectionState) : ConnectionState :=
  { state with
    session :=
      { state.session with
        sendCounter := state.session.sendCounter + 1 } }

structure SessionTable where
  sessions : Map Hdl ConnectionState := ∅
  anonSessions : Map Hdl ConnectionState := ∅

namespace SessionTable

/- The table of authenticated or of anonymous sessions. -/
def table
    (isAuth : Bool)
    (t : SessionTable) : Map Hdl ConnectionState :=
  if isAuth then
    t.sessions
  else
    t.anonSessions

/- Write through an iterator into one of the tables. -/
def store
    (isAuth : Bool)
    (hdl : Hdl)
    (state : ConnectionState)
    (t : SessionTable) : SessionTable :=
  if isAuth then
    { t with sessions := t.sessions.insert hdl state }
  else
    { t with
      anonSessions := t.anonSessions.insert hdl state }

/- `emplace`: an existing entry is kept. -/
def emplace
    (isAuth : Bool)
    (hdl : Hdl)
    (state : ConnectionState)
    (t : SessionTable) : SessionTable :=
  if isAuth then
    { t with sessions := t.sessions.insertIfNew hdl state }
  else
    { t with
      anonSessions :=
        t.anonSessions.insertIfNew hdl state }

def erase
    (isAuth : Bool)
    (hdl : Hdl)
    (t : SessionTable) : SessionTable :=
  if isAuth then
    { t with sessions := t.sessions.erase hdl }
  else
    { t with anonSessions := t.anonSessions.erase hdl }

/- Update `last_activity_ms` of a stored connection. -/
def touch
    (isAuth : Bool)
    (hdl : Hdl)
    (now : Int)
    (t : SessionTable) : SessionTable :=
  match (t.table isAuth)[hdl]? with
  | none => t
  | some state =>
      t.store isAuth hdl { state with lastActivityMs := now }

/- A stored session whose handshake is complete. -/
def readyIn
    (isAuth : Bool)
    (hdl : Hdl)
    (t : SessionTable) : Option ConnectionState :=
  match (t.table isAuth)[hdl]? with
  | none => none
  | some state =>
      if state.session.isHandshakeComplete then
        some state
      else
        none

/- The session `send` and `async_request` choose. -/
def ready
    (hdl : Hdl)
    (t : SessionTable) : Option (Bool × ConnectionState) :=
  match t.readyIn true hdl with
  | some state => some (true, state)
  | none =>
      match t.readyIn false hdl with
      | some state => some (false, state)
      | none => none

------------------------------------------------------------
-- Sending
------------------------------------------------------------

variable (S : Sodium)

/-
  Encrypt and hand over.  The result is the packet given to
  the transport, or none after a swallowed exception.
-/
def transmit
    (nonce : Nonce)
    (isAuth : Bool)
    (hdl : Hdl)
    (state : ConnectionState)
    (payload : Payload)
    (t : SessionTable) : Option Bytes × SessionTable :=
  match state.session.encryptPayload S nonce payload with
  | (.error _, s) =>
      (none, t.store isAuth hdl { state with session := s })
  | (.ok packet, s) =>
      (some packet,
        t.store isAuth hdl { state with session := s })

def send
    (nonce : Nonce)
    (hdl : Hdl)
    (payload : Payload)
    (t : SessionTable) :
    Except Exception (Option Bytes) × SessionTable :=
  match t.ready hdl with
  | none =>
      (.error (.logicError
        "Session not ready for sending data."), t)
  | some (isAuth, state) =>
      let (packet, t) :=
        t.transmit S nonce isAuth hdl state payload
      (.ok packet, t)

def sendAnonymous
    (nonce : Nonce)
    (hdl : Hdl)
    (payload : Payload)
    (t : SessionTable) :
    Except Exception (Option Bytes) × SessionTable :=
  match t.readyIn false hdl with
  | none =>
      (.error (.logicError
        "Anonymous session not ready for sending data."), t)
  | some state =>
      let (packet, t) :=
        t.transmit S nonce false hdl state payload
      (.ok packet, t)

------------------------------------------------------------
-- Other Lookups
------------------------------------------------------------

/- What `start_stream` learns about the connection. -/
def selectedVersion
    (hdl : Hdl)
    (t : SessionTable) : Option (Option Version) :=
  match t.sessions[hdl]? with
  | some state => some state.session.getSelectedVersion
  | none =>
      match t.anonSessions[hdl]? with
      | some state => some state.session.getSelectedVersion
      | none => none

def getClientIdentity
    (hdl : Hdl)
    (t : SessionTable) : Except Exception PublicKey :=
  match t.sessions[hdl]? with
  | none =>
      .error (.logicError
        "Session not found for this connection.")
  | some state =>
      match state.session.getPeerIdentity with
      | none =>
          .error (.logicError "Session has no peer identity.")
      | some pk => .ok pk

/- The identity of an authenticated connection. -/
def identityOf
    (hdl : Hdl)
    (t : SessionTable) : Option PublicKey :=
  (t.sessions[hdl]?).bind
    (fun state => state.session.getPeerIdentity)

/- Connections of both tables without recent activity. -/
def idleConnections
    (now : Int)
    (idleMs : UInt32)
    (t : SessionTable) : List Hdl :=
  let idle := fun (entry : Hdl × ConnectionState) =>
    decide (0 < entry.2.lastActivityMs) &&
      decide (idleMs.toNat < now - entry.2.lastActivityMs)
  ((t.sessions.toList ++ t.anonSessions.toList).filter
    idle).map Prod.fst

/- How many established sessions there are. -/
def size (t : SessionTable) : Nat :=
  t.sessions.size + t.anonSessions.size

/- How many of them have this remote address. -/
def sizeFrom (ip : String) (t : SessionTable) : Nat :=
  OrderedMap.count (fun state => state.remoteIp == ip)
      t.sessions +
    OrderedMap.count (fun state => state.remoteIp == ip)
      t.anonSessions

------------------------------------------------------------
-- Facts
------------------------------------------------------------

@[simp] theorem table_store_self
    (isAuth : Bool)
    (hdl : Hdl)
    (state : ConnectionState)
    (t : SessionTable) :
    (t.store isAuth hdl state).table isAuth =
      (t.table isAuth).insert hdl state := by
  cases isAuth <;> rfl

@[simp] theorem table_store_not
    (isAuth : Bool)
    (hdl : Hdl)
    (state : ConnectionState)
    (t : SessionTable) :
    (t.store isAuth hdl state).table (!isAuth) =
      t.table (!isAuth) := by
  cases isAuth <;> rfl

@[simp] theorem table_erase_self
    (isAuth : Bool)
    (hdl : Hdl)
    (t : SessionTable) :
    (t.erase isAuth hdl).table isAuth =
      (t.table isAuth).erase hdl := by
  cases isAuth <;> rfl

@[simp] theorem table_erase_not
    (isAuth : Bool)
    (hdl : Hdl)
    (t : SessionTable) :
    (t.erase isAuth hdl).table (!isAuth) =
      t.table (!isAuth) := by
  cases isAuth <;> rfl

@[simp] theorem table_emplace_self
    (isAuth : Bool)
    (hdl : Hdl)
    (state : ConnectionState)
    (t : SessionTable) :
    (t.emplace isAuth hdl state).table isAuth =
      (t.table isAuth).insertIfNew hdl state := by
  cases isAuth <;> rfl

@[simp] theorem table_emplace_not
    (isAuth : Bool)
    (hdl : Hdl)
    (state : ConnectionState)
    (t : SessionTable) :
    (t.emplace isAuth hdl state).table (!isAuth) =
      t.table (!isAuth) := by
  cases isAuth <;> rfl

@[simp] theorem store_store
    (isAuth : Bool)
    (hdl : Hdl)
    (first second : ConnectionState)
    (t : SessionTable) :
    (t.store isAuth hdl first).store isAuth hdl second =
      t.store isAuth hdl second := by
  have hInsert (m : Map Hdl ConnectionState) :
      (m.insert hdl first).insert hdl second =
        m.insert hdl second := by
    apply Std.ExtTreeMap.ext_getElem?
    intro k
    simp only [Std.ExtTreeMap.getElem?_insert]
    split <;> rfl
  cases isAuth <;> simp [store, hInsert]

/- Storing back what is stored changes nothing. -/
theorem store_same
    {isAuth : Bool}
    {hdl : Hdl}
    {t : SessionTable}
    {state : ConnectionState}
    (hStored : (t.table isAuth)[hdl]? = some state) :
    t.store isAuth hdl state = t := by
  have hInsert
      {m : Map Hdl ConnectionState}
      (hFound : m[hdl]? = some state) :
      m.insert hdl state = m := by
    apply Std.ExtTreeMap.ext_getElem?
    intro k
    by_cases hSame : k = hdl
    · rw [hSame, Std.ExtTreeMap.getElem?_insert_self, hFound]
    · exact OrderedMap.getElem?_insert_of_ne hSame m state
  cases isAuth with
  | true => simp [store, hInsert (m := t.sessions) hStored]
  | false =>
      simp [store, hInsert (m := t.anonSessions) hStored]

/- The activity time of a stored connection is replaced. -/
theorem touch_store
    (isAuth : Bool)
    (hdl : Hdl)
    (now : Int)
    (state : ConnectionState)
    (t : SessionTable) :
    (t.store isAuth hdl state).touch isAuth hdl now =
      t.store isAuth hdl
        { state with lastActivityMs := now } := by
  simp [touch]

theorem readyIn_eq_some
    {isAuth : Bool}
    {hdl : Hdl}
    {t : SessionTable}
    {state : ConnectionState} :
    t.readyIn isAuth hdl = some state ↔
      (t.table isAuth)[hdl]? = some state ∧
        state.session.handshakeComplete = true := by
  unfold readyIn Session.isHandshakeComplete
  cases hEntry : (t.table isAuth)[hdl]? with
  | none => simp
  | some entry =>
      by_cases hComplete :
          entry.session.handshakeComplete = true
      · simp only [hComplete, if_true, Option.some.injEq]
        constructor
        · intro hEq
          rw [← hEq]
          exact ⟨rfl, hComplete⟩
        · exact fun hBoth => hBoth.1
      · simp only [hComplete, Option.some.injEq]
        constructor
        · intro hNone
          cases hNone
        · rintro ⟨hEq, hReady⟩
          rw [hEq] at hComplete
          exact absurd hReady hComplete

/- The chosen session is stored and complete. -/
theorem ready_eq_some
    {hdl : Hdl}
    {t : SessionTable}
    {isAuth : Bool}
    {state : ConnectionState}
    (hReady : t.ready hdl = some (isAuth, state)) :
    (t.table isAuth)[hdl]? = some state ∧
      state.session.handshakeComplete = true := by
  unfold ready at hReady
  cases hAuth : t.readyIn true hdl with
  | some found =>
      rw [hAuth] at hReady
      cases hReady
      exact readyIn_eq_some.mp hAuth
  | none =>
      rw [hAuth] at hReady
      cases hAnon : t.readyIn false hdl with
      | some found =>
          rw [hAnon] at hReady
          cases hReady
          exact readyIn_eq_some.mp hAnon
      | none =>
          rw [hAnon] at hReady
          cases hReady

/- A ready session always hands a packet over. -/
theorem transmit_ready
    {state : ConnectionState}
    {keys : SessionKeys}
    (hReady : state.session.Ready keys)
    (nonce : Nonce)
    (isAuth : Bool)
    (hdl : Hdl)
    (payload : Payload)
    (t : SessionTable) :
    t.transmit S nonce isAuth hdl state payload =
      (some (Crypto.packet S nonce payload
          (state.session.sendCounter + 1) keys.tx),
        t.store isAuth hdl
          state.afterSend) := by
  simp only [transmit,
    Session.encryptPayload_ready S hReady,
    ConnectionState.afterSend]

/-
  A send is refused and changes nothing, or it hands over
  the next packet of a stored session.
-/
theorem send_cases
    (nonce : Nonce)
    (hdl : Hdl)
    (payload : Payload)
    (t : SessionTable) :
    t.send S nonce hdl payload =
        (.error (.logicError
          "Session not ready for sending data."), t) ∨
      ∃ isAuth state keys,
        (t.table isAuth)[hdl]? = some state ∧
          state.session.Ready keys ∧
          t.send S nonce hdl payload =
            (.ok (some (Crypto.packet S nonce payload
                (state.session.sendCounter + 1) keys.tx)),
              t.store isAuth hdl
                state.afterSend) := by
  unfold send
  cases hReady : t.ready hdl with
  | none => exact Or.inl rfl
  | some found =>
      rcases found with ⟨isAuth, state⟩
      rcases ready_eq_some hReady with ⟨hStored, hComplete⟩
      rcases Session.exists_ready hComplete with
        ⟨keys, hKeys⟩
      apply Or.inr
      refine ⟨isAuth, state, keys, hStored, hKeys, ?_⟩
      simp only [transmit_ready S hKeys]

theorem sendAnonymous_cases
    (nonce : Nonce)
    (hdl : Hdl)
    (payload : Payload)
    (t : SessionTable) :
    t.sendAnonymous S nonce hdl payload =
        (.error (.logicError
          "Anonymous session not ready for sending data."),
          t) ∨
      ∃ state keys,
        (t.table false)[hdl]? = some state ∧
          state.session.Ready keys ∧
          t.sendAnonymous S nonce hdl payload =
            (.ok (some (Crypto.packet S nonce payload
                (state.session.sendCounter + 1) keys.tx)),
              t.store false hdl
                state.afterSend) := by
  unfold sendAnonymous
  cases hReady : t.readyIn false hdl with
  | none => exact Or.inl rfl
  | some state =>
      rcases readyIn_eq_some.mp hReady with
        ⟨hStored, hComplete⟩
      rcases Session.exists_ready hComplete with
        ⟨keys, hKeys⟩
      apply Or.inr
      refine ⟨state, keys, hStored, hKeys, ?_⟩
      simp only [transmit_ready S hKeys]

end SessionTable

end ObscuraProto
