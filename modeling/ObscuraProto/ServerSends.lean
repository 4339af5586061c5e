import ObscuraProto.IdealPrimitives
import ObscuraProto.WsServer.Steps

/-
  What concurrent calls hand over to each connection.

  Public methods and `stop` run on any number of threads
  next to the io thread.  A history keeps, for every
  connection, the packets handed over since its session was
  stored.  They carry the counters 1, 2, ... under one key,
  so the peer accepts all of them, and also what is left of
  them after some hand-overs have failed.

  Key definitions include:
    * `ServerSends.Outbox`, `ServerSends.note`
    * `ServerSends.program`, `ServerSends.start`
    * `ServerSends.Numbered`, `ServerSends.WellFormed`

  Key theorems include:
    * `ServerSends.wellFormed_of_run`
    * `ServerSends.server_sends_accepted`
-/

namespace ObscuraProto

namespace ServerSends

open Effectful Threads WsServer

------------------------------------------------------------
-- Histories
------------------------------------------------------------

/- A session as it was stored, and what it has handed over. -/
structure Outbox where
  session : Session
  packets : List Bytes := []

abbrev History := Hdl → Option Outbox

def sentTo
    (hdl : Hdl)
    (effects : List ServerEffect) : List Bytes :=
  effects.filterMap (fun effect =>
    match effect with
    | .transmit other packet =>
        if other = hdl then
          some packet
        else
          none
    | _ => none)

def storedAt
    (hdl : Hdl)
    (w : WsServer) : Option ConnectionState :=
  match w.sessionTable.sessions[hdl]? with
  | some state => some state
  | none => w.sessionTable.anonSessions[hdl]?

/- A new session starts afresh; a stored one hands over. -/
def note
    (w : WsServer)
    (effects : List ServerEffect)
    (w' : WsServer)
    (history : History) : History := fun hdl =>
  match storedAt hdl w, storedAt hdl w' with
  | none, none => history hdl
  | none, some state => some { session := state.session }
  | some _, _ =>
      (history hdl).map (fun outbox =>
        { outbox with
          packets := outbox.packets ++ sentTo hdl effects })

/- All threads of the server, with the history of packets. -/
def program (S : Sodium) :
    Program Exception ServerEffect WsServer History
      ServerCall ServerEvent where
  callCode := callCode S
  eventCode := handle S
  note := note

abbrev ServerPool :=
  Pool Exception ServerEffect WsServer History ServerCall
    ServerEvent

def start (w : WsServer) : ServerPool where
  shared := w
  history := fun _ => none

abbrev Step (S : Sodium) :
    ServerPool → Label ServerCall ServerEvent →
      ServerPool → Prop :=
  Pool.Step (program S)

/- The counter field of a packet. -/
def packetCounter (packet : Bytes) : UInt64 :=
  ntohllLocal (slice packet 12 8)

------------------------------------------------------------
-- The Invariant
------------------------------------------------------------

/- The i-th packet is sealed with the counter i + 1. -/
structure Numbered
    (S : Sodium)
    (key : Bytes)
    (records : List Sealed) : Prop where
  numbered :
    ∀ i r, records[i]? = some r →
      r.key = key ∧ r.counter = UInt64.ofNat (i + 1) ∧
        r.Genuine S

/- The outbox of a session holds numbered packets. -/
def Outbox.Sound (S : Sodium) (outbox : Outbox) : Prop :=
  ∃ keys records,
    outbox.session.Ready keys ∧
      outbox.packets = records.map Sealed.packet ∧
      Numbered S keys.tx records

/- The stored session is the one of the outbox, later on. -/
structure Continues
    (outbox : Outbox)
    (session : Session) : Prop where
  complete : session.handshakeComplete = true
  keys_eq : session.sessionKeys = outbox.session.sessionKeys
  counter :
    session.sendCounter =
      UInt64.ofNat outbox.packets.length

structure WellFormed
    (S : Sodium)
    (w : WsServer)
    (history : History) : Prop where
  exclusive :
    ∀ hdl : Hdl,
      w.sessionTable.sessions[hdl]? = none ∨
        w.sessionTable.anonSessions[hdl]? = none
  stored :
    ∀ hdl state, storedAt hdl w = some state →
      ∃ outbox, history hdl = some outbox ∧
        Continues outbox state.session
  sound :
    ∀ hdl outbox, history hdl = some outbox →
      outbox.Sound S

------------------------------------------------------------
-- Stored Sessions
------------------------------------------------------------

variable {S : Sodium}

theorem storedAt_eq_none
    {hdl : Hdl}
    {w : WsServer} :
    storedAt hdl w = none ↔ Unstored hdl w := by
  unfold storedAt Unstored
  constructor
  · intro hNone isAuth
    cases hSessions : w.sessionTable.sessions[hdl]? with
    | some state =>
        rw [hSessions] at hNone
        cases hNone
    | none =>
        rw [hSessions] at hNone
        cases isAuth with
        | true => exact hSessions
        | false => exact hNone
  · intro hUnstored
    have hSessions : w.sessionTable.sessions[hdl]? = none :=
      hUnstored true
    rw [hSessions]
    exact hUnstored false

/- A stored session is in one of the tables. -/
theorem exists_table_of_storedAt
    {hdl : Hdl}
    {w : WsServer}
    {state : ConnectionState}
    (hStored : storedAt hdl w = some state) :
    ∃ isAuth,
      (w.sessionTable.table isAuth)[hdl]? = some state := by
  unfold storedAt at hStored
  cases hSessions : w.sessionTable.sessions[hdl]? with
  | some found =>
      rw [hSessions] at hStored
      cases hStored
      exact ⟨true, hSessions⟩
  | none =>
      rw [hSessions] at hStored
      exact ⟨false, hStored⟩

/- With one table at most, the table does not matter. -/
theorem WellFormed.storedAt_of_table
    {w : WsServer}
    {history : History}
    (hWf : WellFormed S w history)
    {isAuth : Bool}
    {hdl : Hdl}
    {state : ConnectionState}
    (hEntry :
      (w.sessionTable.table isAuth)[hdl]? = some state) :
    storedAt hdl w = some state := by
  unfold storedAt
  cases isAuth with
  | true =>
      have hSessions :
          w.sessionTable.sessions[hdl]? = some state :=
        hEntry
      rw [hSessions]
  | false =>
      have hAnon :
          w.sessionTable.anonSessions[hdl]? = some state :=
        hEntry
      rcases hWf.exclusive hdl with hNone | hNone
      · rw [hNone]
        exact hAnon
      · rw [hAnon] at hNone
        cases hNone

/- The other table has no entry then. -/
theorem WellFormed.not_table
    {w : WsServer}
    {history : History}
    (hWf : WellFormed S w history)
    {isAuth : Bool}
    {hdl : Hdl}
    {state : ConnectionState}
    (hEntry :
      (w.sessionTable.table isAuth)[hdl]? = some state) :
    (w.sessionTable.table (!isAuth))[hdl]? = none := by
  rcases hWf.exclusive hdl with hNone | hNone
  · cases isAuth with
    | true =>
        rw [show (w.sessionTable.table true)[hdl]? = none from
          hNone] at hEntry
        cases hEntry
    | false => exact hNone
  · cases isAuth with
    | true => exact hNone
    | false =>
        rw [show (w.sessionTable.table false)[hdl]? = none from
          hNone] at hEntry
        cases hEntry

/- Entries that agree in both tables. -/
theorem storedAt_congr
    {hdl : Hdl}
    {w w' : WsServer}
    (hSame :
      ∀ isAuth,
        (w'.sessionTable.table isAuth)[hdl]? =
          (w.sessionTable.table isAuth)[hdl]?) :
    storedAt hdl w' = storedAt hdl w := by
  have hSessions :
      w'.sessionTable.sessions[hdl]? =
        w.sessionTable.sessions[hdl]? :=
    hSame true
  have hAnon :
      w'.sessionTable.anonSessions[hdl]? =
        w.sessionTable.anonSessions[hdl]? :=
    hSame false
  unfold storedAt
  rw [hSessions, hAnon]

/- A connection that a step does not concern. -/
theorem note_of_same
    {hdl : Hdl}
    {w w' : WsServer}
    {effects : List ServerEffect}
    (hStored : storedAt hdl w' = storedAt hdl w)
    (hSent : sentTo hdl effects = [])
    (history : History) :
    note w effects w' history hdl = history hdl := by
  unfold note
  rw [hStored, hSent]
  cases storedAt hdl w with
  | none => rfl
  | some state => simp

theorem sentTo_of_silent
    {effects : List ServerEffect}
    (hSilent :
      ∀ hdl packet,
        ServerEffect.transmit hdl packet ∉ effects)
    (hdl : Hdl) :
    sentTo hdl effects = [] := by
  unfold sentTo
  rw [List.filterMap_eq_nil_iff]
  intro effect hMem
  cases effect with
  | transmit other packet =>
      exact absurd hMem (hSilent other packet)
  | close | complete | invoke => rfl

/- A silent step that stores nothing leaves no trace. -/
theorem note_of_silent
    {w w' : WsServer}
    {effects : List ServerEffect}
    (hSilent :
      ∀ hdl packet,
        ServerEffect.transmit hdl packet ∉ effects)
    (hAddsNone : AddsNone w w')
    (history : History) :
    note w effects w' history = history := by
  funext hdl
  unfold note
  rw [sentTo_of_silent hSilent]
  cases hBefore : storedAt hdl w with
  | none =>
      have hAfter :=
        hAddsNone hdl (storedAt_eq_none.mp hBefore)
      rw [storedAt_eq_none.mpr hAfter]
  | some state => simp

------------------------------------------------------------
-- Silent Steps
------------------------------------------------------------

/- Sessions go, or stay with their keys and send counter. -/
def Keeps (w w' : WsServer) : Prop :=
  ∀ (isAuth : Bool) (hdl : Hdl) (state' : ConnectionState),
    (w'.sessionTable.table isAuth)[hdl]? = some state' →
      ∃ state,
        (w.sessionTable.table isAuth)[hdl]? = some state ∧
          state'.session.handshakeComplete =
            state.session.handshakeComplete ∧
          state'.session.sessionKeys =
            state.session.sessionKeys ∧
          state'.session.sendCounter =
            state.session.sendCounter

theorem Keeps.table_none
    {w w' : WsServer}
    (hKeeps : Keeps w w')
    (isAuth : Bool)
    {hdl : Hdl}
    (hNone : (w.sessionTable.table isAuth)[hdl]? = none) :
    (w'.sessionTable.table isAuth)[hdl]? = none := by
  cases hEntry : (w'.sessionTable.table isAuth)[hdl]? with
  | none => rfl
  | some state' =>
      rcases hKeeps isAuth hdl state' hEntry with
        ⟨state, hBefore, _⟩
      rw [hNone] at hBefore
      cases hBefore

theorem Keeps.addsNone
    {w w' : WsServer}
    (hKeeps : Keeps w w') :
    AddsNone w w' :=
  fun _ hUnstored isAuth =>
    hKeeps.table_none isAuth (hUnstored isAuth)

theorem WellFormed.keeps
    {w w' : WsServer}
    {history : History}
    (hWf : WellFormed S w history)
    (hKeeps : Keeps w w') :
    WellFormed S w' history where
  exclusive := by
    intro hdl
    rcases hWf.exclusive hdl with hNone | hNone
    · exact Or.inl (hKeeps.table_none true hNone)
    · exact Or.inr (hKeeps.table_none false hNone)
  stored := by
    intro hdl state' hStored
    rcases exists_table_of_storedAt hStored with
      ⟨isAuth, hEntry⟩
    rcases hKeeps isAuth hdl state' hEntry with
      ⟨state, hBefore, hComplete, hKeys, hCounter⟩
    rcases hWf.stored hdl state
        (hWf.storedAt_of_table hBefore) with
      ⟨outbox, hOutbox, hContinues⟩
    exact
      ⟨outbox, hOutbox, hComplete.trans hContinues.complete,
        hKeys.trans hContinues.keys_eq,
        hCounter.trans hContinues.counter⟩
  sound := hWf.sound

theorem keeps_of_eq
    {w w' : WsServer}
    (hTable : w'.sessionTable = w.sessionTable) :
    Keeps w w' := by
  intro isAuth hdl state' hEntry
  rw [hTable] at hEntry
  exact ⟨state', hEntry, rfl, rfl, rfl⟩

theorem Removes.keeps
    {w w' : WsServer}
    {effects : List ServerEffect}
    (hRemoves : Removes w effects w') :
    Keeps w w' := by
  intro isAuth hdl state' hEntry
  rcases hRemoves.table isAuth hdl with hSame | hGone
  · exact ⟨state', hSame.symm.trans hEntry, rfl, rfl, rfl⟩
  · rw [hGone] at hEntry
    cases hEntry

theorem Accepts.keeps
    {hdl : Hdl}
    {packet : Bytes}
    {isAuth : Bool}
    {opened : Crypto.DecryptedResult}
    {w w' : WsServer}
    {effects : List ServerEffect}
    (hAccepts :
      Accepts S hdl packet isAuth opened w effects w') :
    Keeps w w' := by
  rcases hAccepts.connection with
    ⟨state, keys, now, hStored, _, _, _, hTable⟩
  intro isAuth' other state' hEntry
  rw [hTable] at hEntry
  by_cases hSide : isAuth' = isAuth
  · rw [hSide, SessionTable.table_store_self] at hEntry
    rcases OrderedMap.of_getElem?_insert hEntry with
      ⟨hSame, hState⟩ | ⟨_, hBefore⟩
    · rw [hSide, hSame, hState]
      exact ⟨state, hStored, rfl, rfl, rfl⟩
    · rw [hSide]
      exact ⟨state', hBefore, rfl, rfl, rfl⟩
  · have hNot : isAuth' = !isAuth := Bool.eq_not.mpr hSide
    rw [hNot, SessionTable.table_store_not] at hEntry
    rw [hNot]
    exact ⟨state', hEntry, rfl, rfl, rfl⟩

------------------------------------------------------------
-- One Connection Is Written
------------------------------------------------------------

/- One entry is written, the others are as before. -/
structure Writes
    (hdl : Hdl)
    (state : ConnectionState)
    (w w' : WsServer) : Prop where
  self :
    ∃ isAuth,
      (w'.sessionTable.table isAuth)[hdl]? = some state ∧
        (w'.sessionTable.table (!isAuth))[hdl]? = none
  other :
    ∀ (hdl' : Hdl), hdl' ≠ hdl → ∀ (isAuth : Bool),
      (w'.sessionTable.table isAuth)[hdl']? =
        (w.sessionTable.table isAuth)[hdl']?

theorem Writes.storedAt
    {hdl : Hdl}
    {state : ConnectionState}
    {w w' : WsServer}
    (hWrites : Writes hdl state w w') :
    storedAt hdl w' = some state := by
  rcases hWrites.self with ⟨isAuth, hSelf, hNot⟩
  unfold ServerSends.storedAt
  cases isAuth with
  | true =>
      have hSessions :
          w'.sessionTable.sessions[hdl]? = some state :=
        hSelf
      rw [hSessions]
  | false =>
      have hSessions :
          w'.sessionTable.sessions[hdl]? = none :=
        hNot
      rw [hSessions]
      exact hSelf

/- It is enough to look at the connection that is written. -/
theorem WellFormed.writes
    {w w' : WsServer}
    {hdl : Hdl}
    {state : ConnectionState}
    {effects : List ServerEffect}
    {history : History}
    {outbox : Outbox}
    (hWf : WellFormed S w history)
    (hWrites : Writes hdl state w w')
    (hSilent : ∀ other, other ≠ hdl → sentTo other effects = [])
    (hNow : note w effects w' history hdl = some outbox)
    (hContinues : Continues outbox state.session)
    (hSound : outbox.Sound S) :
    WellFormed S w' (note w effects w' history) := by
  have hStored (other : Hdl) (hNe : other ≠ hdl) :
      storedAt other w' = storedAt other w :=
    storedAt_congr (hWrites.other other hNe)
  have hSame (other : Hdl) (hNe : other ≠ hdl) :
      note w effects w' history other = history other :=
    note_of_same (hStored other hNe) (hSilent other hNe)
      history
  refine ⟨?_, ?_, ?_⟩
  · intro other
    by_cases hHdl : other = hdl
    · subst hHdl
      rcases hWrites.self with ⟨isAuth, _, hNot⟩
      cases isAuth with
      | true => exact Or.inr hNot
      | false => exact Or.inl hNot
    · have hTable := hWrites.other other hHdl
      rcases hWf.exclusive other with hNone | hNone
      · exact Or.inl ((hTable true).trans hNone)
      · exact Or.inr ((hTable false).trans hNone)
  · intro other state' hState'
    by_cases hHdl : other = hdl
    · subst hHdl
      rw [hWrites.storedAt] at hState'
      cases hState'
      exact ⟨outbox, hNow, hContinues⟩
    · rw [hStored other hHdl] at hState'
      rw [hSame other hHdl]
      exact hWf.stored other state' hState'
  · intro other outbox' hOutbox'
    by_cases hHdl : other = hdl
    · subst hHdl
      rw [hNow] at hOutbox'
      cases hOutbox'
      exact hSound
    · rw [hSame other hHdl] at hOutbox'
      exact hWf.sound other outbox' hOutbox'

------------------------------------------------------------
-- A Packet Is Handed Over
------------------------------------------------------------

theorem Numbered.snoc
    {key : Bytes}
    {records : List Sealed}
    {r : Sealed}
    (hRecords : Numbered S key records)
    (hKey : r.key = key)
    (hCounter :
      r.counter = UInt64.ofNat (records.length + 1))
    (hGenuine : r.Genuine S) :
    Numbered S key (records ++ [r]) where
  numbered := by
    intro i r' hGet
    by_cases hOld : i < records.length
    · rw [List.getElem?_append_left hOld] at hGet
      exact hRecords.numbered i r' hGet
    · rw [List.getElem?_append_right (Nat.not_lt.mp hOld)]
        at hGet
      rcases List.getElem?_eq_some_iff.mp hGet with
        ⟨hIndex, hRecord⟩
      have hLast : i = records.length := by
        simp only [List.length_singleton] at hIndex
        omega
      subst hLast
      simp only [Nat.sub_self, List.getElem_cons_zero]
        at hRecord
      subst hRecord
      exact ⟨hKey, hCounter, hGenuine⟩

/- The outbox after one more packet of its session. -/
theorem Outbox.Sound.snoc
    {outbox : Outbox}
    {state : ConnectionState}
    {keys : SessionKeys}
    (hSound : outbox.Sound S)
    (hContinues : Continues outbox state.session)
    (hReady : state.session.Ready keys)
    (nonce : Nonce)
    (payload : Payload) :
    ({ outbox with
        packets :=
          outbox.packets ++
            [state.nextPacket S nonce payload keys] } :
      Outbox).Sound S := by
  rcases hSound with
    ⟨keys', records, hReady', hPackets, hNumbered⟩
  have hKeys : keys' = keys := by
    have hSome := hContinues.keys_eq
    rw [hReady.keys_eq, hReady'.keys_eq] at hSome
    exact (Option.some.inj hSome).symm
  subst hKeys
  have hLength : outbox.packets.length = records.length := by
    rw [hPackets, List.length_map]
  refine
    ⟨keys',
      records ++
        [{ key := keys'.tx
           counter := state.session.sendCounter + 1
           payload := payload
           packet :=
             state.nextPacket S nonce payload keys' }],
      hReady', ?_, ?_⟩
  · simp [hPackets]
  · apply hNumbered.snoc rfl
    · rw [hContinues.counter, hLength, UInt64.ofNat_add]
      rfl
    · exact ⟨nonce, rfl⟩

theorem Continues.afterSend
    {outbox : Outbox}
    {state : ConnectionState}
    (hContinues : Continues outbox state.session)
    (packet : Bytes) :
    Continues
      { outbox with packets := outbox.packets ++ [packet] }
      state.afterSend.session where
  complete := hContinues.complete
  keys_eq := hContinues.keys_eq
  counter := by
    simp only [ConnectionState.afterSend, hContinues.counter,
      List.length_append, List.length_singleton,
      UInt64.ofNat_add]
    rfl

theorem WellFormed.handsOver
    {w w' : WsServer}
    {effects : List ServerEffect}
    {history : History}
    (hWf : WellFormed S w history)
    (hHandsOver : HandsOver S w effects w') :
    WellFormed S w' (note w effects w' history) := by
  rcases hHandsOver.packet with
    ⟨isAuth, hdl, state, keys, nonce, payload, hEntry, hReady,
      hEffects, hTable⟩
  have hWrites : Writes hdl state.afterSend w w' := by
    refine ⟨⟨isAuth, ?_, ?_⟩, ?_⟩
    · rw [hTable, SessionTable.table_store_self,
        Std.ExtTreeMap.getElem?_insert_self]
    · rw [hTable, SessionTable.table_store_not]
      exact hWf.not_table hEntry
    · intro other hNe isAuth'
      rw [hTable]
      by_cases hSide : isAuth' = isAuth
      · rw [hSide, SessionTable.table_store_self,
          OrderedMap.getElem?_insert_of_ne hNe]
      · rw [Bool.eq_not.mpr hSide,
          SessionTable.table_store_not]
  have hStored := hWf.storedAt_of_table hEntry
  rcases hWf.stored hdl state hStored with
    ⟨outbox, hOutbox, hContinues⟩
  have hSound := hWf.sound hdl outbox hOutbox
  refine
    hWf.writes hWrites ?_ ?_ (hContinues.afterSend _)
      (hSound.snoc hContinues hReady nonce payload)
  · intro other hNe
    simp [hEffects, sentTo, hNe.symm]
  · simp [note, sentTo, hStored, hOutbox, hEffects]

------------------------------------------------------------
-- A Session Is Stored
------------------------------------------------------------

theorem WellFormed.establishes
    {w w' : WsServer}
    {hdl : Hdl}
    {state : ConnectionState}
    {effects : List ServerEffect}
    {history : History}
    (hWf : WellFormed S w history)
    (hEstablishes : Establishes hdl state w effects w') :
    WellFormed S w' (note w effects w' history) := by
  rcases hEstablishes.table with ⟨isAuth, hTable⟩
  have hAbsent := hEstablishes.unstored isAuth
  have hWrites : Writes hdl state w w' := by
    refine ⟨⟨isAuth, ?_, ?_⟩, ?_⟩
    · rw [hTable, SessionTable.table_emplace_self,
        OrderedMap.insertIfNew_of_absent hAbsent,
        Std.ExtTreeMap.getElem?_insert_self]
    · rw [hTable, SessionTable.table_emplace_not]
      exact hEstablishes.unstored (!isAuth)
    · intro other hNe isAuth'
      rw [hTable]
      by_cases hSide : isAuth' = isAuth
      · rw [hSide, SessionTable.table_emplace_self,
          OrderedMap.insertIfNew_of_absent hAbsent,
          OrderedMap.getElem?_insert_of_ne hNe]
      · rw [Bool.eq_not.mpr hSide,
          SessionTable.table_emplace_not]
  rcases Session.exists_ready hEstablishes.complete with
    ⟨keys, hReady⟩
  have hNow :
      note w effects w' history hdl =
        some { session := state.session } := by
    have hNone := storedAt_eq_none.mpr hEstablishes.unstored
    simp [note, hNone, hWrites.storedAt]
  refine hWf.writes hWrites ?_ hNow ?_ ?_
  · intro other _
    rw [hEstablishes.silent]
    rfl
  · exact
      ⟨hEstablishes.complete, rfl, hEstablishes.unused⟩
  · exact ⟨keys, [], hReady, rfl, ⟨by simp⟩⟩

------------------------------------------------------------
-- Every Interleaving
------------------------------------------------------------

/- Silent steps that store nothing. -/
theorem WellFormed.silent
    {w w' : WsServer}
    {effects : List ServerEffect}
    {history : History}
    (hWf : WellFormed S w history)
    (hSilent :
      ∀ hdl packet,
        ServerEffect.transmit hdl packet ∉ effects)
    (hKeeps : Keeps w w') :
    WellFormed S w' (note w effects w' history) := by
  rw [note_of_silent hSilent hKeeps.addsNone]
  exact hWf.keeps hKeeps

/- The reply to a hello belongs to no stored session. -/
theorem note_of_replies
    {hdl : Hdl}
    {w w' : WsServer}
    {effects : List ServerEffect}
    (hReplies : Replies hdl w effects w')
    (history : History) :
    note w effects w' history = history := by
  rcases hReplies.transmit with ⟨reply, hEffects⟩
  rw [hReplies.state]
  funext other
  by_cases hSame : other = hdl
  · have hNone := storedAt_eq_none.mpr hReplies.unstored
    simp [note, hSame, hNone]
  · apply note_of_same rfl
    have hNe : ¬ hdl = other := fun hEq => hSame hEq.symm
    simp [hEffects, sentTo, hNe]

theorem WellFormed.step
    {w w' : WsServer}
    {effects : List ServerEffect}
    {history : History}
    (hWf : WellFormed S w history)
    (hStep : IoStep S w effects w') :
    WellFormed S w' (note w effects w' history) := by
  cases hStep with
  | sends hSends =>
      cases hSends with
      | quiet hQuiet =>
          exact
            hWf.silent hQuiet.silent
              (keeps_of_eq hQuiet.sessionTable)
      | handsOver hHandsOver => exact hWf.handsOver hHandsOver
  | receives hAccepts =>
      exact hWf.silent hAccepts.silent (Accepts.keeps hAccepts)
  | replies hReplies =>
      rw [note_of_replies hReplies, hReplies.state]
      exact hWf
  | establishes hEstablishes =>
      exact hWf.establishes hEstablishes
  | removes hRemoves =>
      exact hWf.silent hRemoves.silent (Removes.keeps hRemoves)

theorem wellFormed_new
    (serverSignKey : KeyPair)
    (config : Config)
    {hasOwner : Bool} :
    WellFormed S (WsServer.new serverSignKey config hasOwner)
      (fun _ => none) where
  exclusive := by
    intro hdl
    exact Or.inl Std.ExtTreeMap.getElem?_empty
  stored := by
    intro hdl state hStored
    rcases exists_table_of_storedAt hStored with
      ⟨isAuth, hEntry⟩
    cases isAuth <;>
      cases Std.ExtTreeMap.getElem?_empty.symm.trans hEntry
  sound := by
    intro hdl outbox hOutbox
    cases hOutbox

/-
  Calls rely on nothing, and the io thread relies on the
  calls not storing any session.
-/
theorem sendRules (S : Sodium) :
    Rules (program S) (fun _ _ => True) AddsNone (CallStep S)
      (IoStep S) (WellFormed S) where
  callRefl := fun _ _ _ => trivial
  eventRefl := fun w _ _ => AddsNone.refl w
  callTrans := fun _ _ _ _ _ => trivial
  eventTrans := AddsNone.trans
  callCode := fun k _ _ w _ _ =>
    .of_ensures (callCode_steps S k) w
  eventCode := fun event _ _ w _ _ => handle_steps S event w
  callKeeps := fun _ _ _ _ hWf hStep => hWf.step hStep.io
  eventKeeps := fun _ _ _ _ hWf hStep => hWf.step hStep
  callCall := fun _ _ _ _ _ _ => trivial
  callEvent := fun w effects w' _ _ hStep =>
    CallStep.addsNone w effects w' hStep
  eventCall := fun _ _ _ _ _ _ => trivial

theorem wellFormed_of_run
    {serverSignKey : KeyPair}
    {config : Config}
    {hasOwner : Bool}
    {labels : List (Label ServerCall ServerEvent)}
    {p : ServerPool}
    (hRun :
      StateMachine.Run (Step S)
        (start (WsServer.new serverSignKey config hasOwner))
          labels p) :
    WellFormed S p.shared p.history :=
  (sendRules S).invariant hRun
    (Pool.safe_start (wellFormed_new serverSignKey config) rfl
      rfl)

------------------------------------------------------------
-- Delivery
------------------------------------------------------------

theorem Numbered.toNat_counter
    {key : Bytes}
    {records : List Sealed}
    (hNumbered : Numbered S key records)
    (hBound : records.length < 2 ^ 64)
    {i : Nat}
    {r : Sealed}
    (hGet : records[i]? = some r) :
    r.counter.toNat = i + 1 := by
  have hIndex : i < records.length :=
    (List.getElem?_eq_some_iff.mp hGet).1
  have hSize : UInt64.size = 2 ^ 64 := rfl
  rw [(hNumbered.numbered i r hGet).2.1]
  exact UInt64.toNat_ofNat_of_lt' (by omega)

theorem Numbered.rising
    {key : Bytes}
    {records : List Sealed}
    (hNumbered : Numbered S key records)
    (hBound : records.length < 2 ^ 64) :
    records.Pairwise (fun r r' => r.counter < r'.counter) := by
  rw [List.pairwise_iff_getElem]
  intro i j hi hj hLess
  have hFirst :=
    hNumbered.toNat_counter hBound
      (List.getElem?_eq_getElem hi)
  have hSecond :=
    hNumbered.toNat_counter hBound
      (List.getElem?_eq_getElem hj)
  rw [UInt64.lt_iff_toNat_lt, hFirst, hSecond]
  omega

/- A genuine packet shows its counter. -/
theorem packetCounter_of_genuine
    {r : Sealed}
    (hGenuine : r.Genuine S) :
    packetCounter r.packet = r.counter := by
  rcases hGenuine with ⟨nonce, hPacket⟩
  unfold packetCounter
  rw [hPacket, Crypto.slice_packet_counter,
    ntohllLocal_htonllLocal]

/- The packets of an outbox carry rising counters. -/
theorem Outbox.Sound.rising
    {outbox : Outbox}
    (hSound : outbox.Sound S)
    (hBound : outbox.packets.length < 2 ^ 64) :
    (outbox.packets.map packetCounter).Pairwise (· < ·) := by
  rcases hSound with
    ⟨keys, records, hReady, hPackets, hNumbered⟩
  rw [hPackets, List.length_map] at hBound
  rw [hPackets, List.map_map, List.pairwise_map]
  refine (hNumbered.rising hBound).imp_of_mem ?_
  intro r r' hMem hMem' hLess
  rcases List.getElem?_of_mem hMem with ⟨i, hGet⟩
  rcases List.getElem?_of_mem hMem' with ⟨j, hGet'⟩
  have hFirst := (hNumbered.numbered i r hGet).2.2
  have hSecond := (hNumbered.numbered j r' hGet').2.2
  simp only [Function.comp_apply,
    packetCounter_of_genuine hFirst,
    packetCounter_of_genuine hSecond]
  exact hLess

/- The peer has the key of the outbox and is still unused. -/
structure Receives
    (outbox : Outbox)
    (peer : Session) : Prop where
  keys :
    ∃ keys peerKeys,
      outbox.session.Ready keys ∧ peer.Ready peerKeys ∧
        peerKeys.rx = keys.tx
  unused : peer.recvCounter = 0

/- The peer accepts what arrives of the packets, in order. -/
theorem Outbox.Sound.accepted
    (hCorrect : S.AeadCorrect)
    {outbox : Outbox}
    (hSound : outbox.Sound S)
    (hBound : outbox.packets.length < 2 ^ 64)
    {peer : Session}
    (hReceives : Receives outbox peer)
    {arrived : List Bytes}
    (hArrived : arrived.Sublist outbox.packets) :
    ∀ result ∈ (Session.decryptAll S arrived peer).1,
      ∃ payload, result = .ok payload := by
  rcases hSound with
    ⟨keys, records, hReady, hPackets, hNumbered⟩
  rcases hReceives.keys with
    ⟨keys', peerKeys, hReady', hPeer, hMatch⟩
  have hKeys := hReady'.unique hReady
  subst hKeys
  rw [hPackets, List.length_map] at hBound
  rw [hPackets] at hArrived
  rcases List.sublist_map_iff.mp hArrived with
    ⟨kept, hKept, hMap⟩
  have hAll :
      (Session.decryptAll S (kept.map Sealed.packet) peer).1 =
        kept.map (fun r => .ok r.payload) := by
    apply Session.decryptAll_sealed hCorrect hPeer
    · intro r hMem
      rcases List.getElem?_of_mem (hKept.subset hMem) with
        ⟨i, hGet⟩
      rcases hNumbered.numbered i r hGet with
        ⟨hKey, _, hGenuine⟩
      exact ⟨hKey.trans hMatch.symm, hGenuine⟩
    · intro r hMem
      rcases List.getElem?_of_mem (hKept.subset hMem) with
        ⟨i, hGet⟩
      rw [hReceives.unused, UInt64.lt_iff_toNat_lt,
        hNumbered.toNat_counter hBound hGet]
      exact Nat.succ_pos i
    · exact (hNumbered.rising hBound).sublist hKept
  intro result hResult
  rw [hMap, hAll] at hResult
  rcases List.mem_map.mp hResult with ⟨r, _, hOk⟩
  exact ⟨r.payload, hOk.symm⟩

/-
  In every interleaving: a stored session has handed over as
  many packets as its counter says.  The packets of each
  session carry rising counters, and the peer accepts all of
  them, or all that arrive when some hand-overs have failed.
-/
theorem server_sends_accepted
    (hCorrect : S.AeadCorrect)
    {serverSignKey : KeyPair}
    {config : Config}
    {hasOwner : Bool}
    {labels : List (Label ServerCall ServerEvent)}
    {p : ServerPool}
    (hRun :
      StateMachine.Run (Step S)
        (start (WsServer.new serverSignKey config hasOwner))
          labels p)
    (hdl : Hdl) :
    (∀ state, storedAt hdl p.shared = some state →
        ∃ outbox, p.history hdl = some outbox ∧
          Continues outbox state.session) ∧
      ∀ outbox, p.history hdl = some outbox →
        outbox.packets.length < 2 ^ 64 →
          (outbox.packets.map packetCounter).Pairwise
              (· < ·) ∧
            ∀ peer, Receives outbox peer →
              ∀ arrived : List Bytes,
                arrived.Sublist outbox.packets →
                  ∀ result ∈
                      (Session.decryptAll S arrived peer).1,
                    ∃ payload, result = .ok payload := by
  have hWf := wellFormed_of_run hRun
  refine ⟨hWf.stored hdl, ?_⟩
  intro outbox hOutbox hBound
  have hSound := hWf.sound hdl outbox hOutbox
  refine ⟨hSound.rising hBound, ?_⟩
  intro peer hReceives arrived hArrived
  exact
    hSound.accepted hCorrect hBound hReceives hArrived

/-
  Two threads send on connection 1 in turns; the second has
  looked the connection up by its identity.
-/
def twoSenders : List (Label ServerCall ServerEvent) :=
  let input : IoInput := .smooth (PlainSodium.sampleKx 0)
  [.event (.hello 1 1)] ++
    List.replicate 20 .stepEvent ++
    [ .call
        (.method (.send input.nonce 1 ⟨0x1001, [7]⟩)),
      .call
        (.method
          (.sendToIdentity input.nonce
            (PlainSodium.sampleKeyPair 5).publicKey
            ⟨0x1001, [8]⟩)),
      .stepCall 1,
      .stepCall 0,
      .stepCall 1 ]

set_option maxRecDepth 8000 in
theorem server_sends_accepted_twoSenders :
    let p :=
      twoSenders.foldl (Pool.exec (program plainSodium))
        (start WsServer.sample)
    ∃ outbox, p.history 1 = some outbox ∧
      outbox.packets.map packetCounter = [1, 2] ∧
        (outbox.packets.map packetCounter).Pairwise
          (· < ·) := by
  intro p
  have hCounters :
      (p.history 1).map
          (fun outbox => outbox.packets.map packetCounter) =
        some [1, 2] := by
    decide
  rcases Option.map_eq_some_iff.mp hCounters with
    ⟨outbox, hOutbox, hTwo⟩
  have hBound : outbox.packets.length < 2 ^ 64 := by
    have hLength := congrArg List.length hTwo
    simp only [List.length_map, List.length_cons,
      List.length_nil] at hLength
    omega
  have hRun :=
    StateMachine.run_of_allowed
      (fun (p : ServerPool) l => p.allowed l = true)
      (Pool.exec (program plainSodium))
      (start WsServer.sample) twoSenders (by decide)
  have hAccepted :=
    server_sends_accepted plainSodium_aeadCorrect hRun 1
  exact
    ⟨outbox, hOutbox, hTwo,
      (hAccepted.2 outbox hOutbox hBound).1⟩

end ServerSends

end ObscuraProto
