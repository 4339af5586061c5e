import ObscuraProto.Library.StateMachine
import ObscuraProto.WsServer.Changes

/-
  Which connections can be addressed by their identity.

  A server runs through events of its io thread and calls of
  its public methods, in any order.  The two identity maps
  and the table of authenticated sessions agree along every
  run; an identity can be addressed as long as no connection
  closes while another one with the same identity is live.

  Key definitions include:
    * `IdentityReachability.Addressable`
    * `IdentityReachability.SoleIdentity`
    * `IdentityReachability.Consistent`

  Key theorems include:
    * `IdentityReachability.identity_reachability`
    * `IdentityReachability.closed_consistent_iff`
    * `IdentityReachability.identity_lost`
-/

namespace ObscuraProto

namespace IdentityReachability

open Effectful WsServer

variable {S : Sodium}

------------------------------------------------------------
-- The Property
------------------------------------------------------------

def notConnected : Exception :=
  .logicError "Identity is not connected."

/- Live identities have an entry and can be addressed. -/
structure Addressable
    (S : Sodium)
    (w : WsServer) : Prop where
  entry :
    ∀ hdl pk,
      w.sessionTable.identityOf hdl = some pk →
        ∃ hdl', w.identities.identityToHdl[pk]? = some hdl' ∧
          w.sessionTable.identityOf hdl' = some pk
  sendToIdentity :
    ∀ hdl pk nonce payload,
      w.sessionTable.identityOf hdl = some pk →
        ((sendToIdentity S nonce pk payload).run w).result ≠
          .error notConnected
  asyncRequestToIdentity :
    ∀ hdl pk input payload,
      w.sessionTable.identityOf hdl = some pk →
        ((asyncRequestToIdentity S input pk payload).run
            w).result ≠
          .error notConnected

/- No other live connection has the identity of `hdl`. -/
def SoleIdentity (hdl : Hdl) (w : WsServer) : Prop :=
  ∀ pk, w.sessionTable.identityOf hdl = some pk →
    ∀ other ∈ w.sessionTable.sessions.keys,
      w.sessionTable.identityOf other = some pk →
        other = hdl

/- The condition on a step that closes a connection. -/
def ClosesSole (w : WsServer) : ServerEvent → Prop
| .closed _ hdl => SoleIdentity hdl w
| _ => True

instance (w : WsServer) (event : ServerEvent) :
    Decidable (ClosesSole w event) := by
  unfold ClosesSole SoleIdentity
  cases event <;> infer_instance

------------------------------------------------------------
-- Calls by Identity
------------------------------------------------------------

/- What `send` throws is not the error of the lookup. -/
theorem send_throws_other
    (nonce : Nonce)
    (hdl : Hdl)
    (payload : Payload) :
    Throws (· ≠ notConnected)
      (send S nonce hdl payload) := by
  refine (send_throws S nonce hdl payload).mono ?_
  intro e hSend
  rw [hSend]
  simp [notConnected]

theorem asyncRequest_throws
    (input : RequestInput)
    (hdl : Hdl)
    (payload : Payload)
    (timeoutMs : UInt32) :
    Throws (· ≠ notConnected)
      (asyncRequest S input hdl payload timeoutMs) := by
  unfold asyncRequest
  refine Throws.bind Throws.get (fun w => ?_)
  split
  · apply Throws.throw
    simp [notConnected]
  · refine
      Throws.bind takeRequestId_throws
        (fun requestId => ?_)
    · rw [requestPayload_eq]
      refine
        Throws.bind (Throws.ofExcept ?_) (fun request => ?_)
      · simp
      · refine
          Throws.bind (requestSection_throws _) (fun _ => ?_)
        refine Throws.bind ?_ (fun _ => Throws.pure _)
        refine
          Throws.catchAll (send_throws_other _ hdl request) ?_
        intro e hSend
        exact
          Throws.bind (requestSection_throws _)
            (fun _ => Throws.throw hSend)

/- With an entry, the calls go on to a connection. -/
theorem toIdentity_result
    {α : Type}
    {w : WsServer}
    {pk : PublicKey}
    {hdl : Hdl}
    {act : Hdl → ServerAction α}
    (hEntry : w.identities.identityToHdl[pk]? = some hdl)
    (hThrows : ∀ hdl, Throws (· ≠ notConnected) (act hdl)) :
    ((do
        let w ← Action.get
        let hdl ← Action.ofExcept (w.identities.lookup pk)
        act hdl : ServerAction α).run w).result ≠
      .error notConnected := by
  have hLookup : w.identities.lookup pk = .ok hdl := by
    unfold IdentityMap.lookup
    rw [hEntry]
  rw [Action.run_get_bind, hLookup,
    Action.run_ofExcept_ok_bind]
  intro hError
  exact (hThrows hdl).run hError rfl

theorem addressable_of_entries
    {w : WsServer}
    (hEntries :
      ∀ hdl pk,
        w.sessionTable.identityOf hdl = some pk →
          ∃ hdl',
            w.identities.identityToHdl[pk]? = some hdl' ∧
              w.sessionTable.identityOf hdl' = some pk) :
    Addressable S w where
  entry := hEntries
  sendToIdentity := by
    intro hdl pk nonce payload hLive
    rcases hEntries hdl pk hLive with ⟨hdl', hEntry, _⟩
    exact
      toIdentity_result hEntry
        (fun hdl => send_throws_other nonce hdl payload)
  asyncRequestToIdentity := by
    intro hdl pk input payload hLive
    rcases hEntries hdl pk hLive with ⟨hdl', hEntry, _⟩
    exact
      toIdentity_result hEntry
        (fun hdl => asyncRequest_throws input hdl payload 0)

------------------------------------------------------------
-- The Invariant
------------------------------------------------------------

/-
  The second map holds exactly the identities of the table,
  and the first one reaches each of them.
-/
structure Consistent (w : WsServer) : Prop where
  agree :
    ∀ hdl,
      w.identities.hdlToIdentity[hdl]? =
        w.sessionTable.identityOf hdl
  reaches : w.identities.Reaches

theorem Consistent.addressable
    {w : WsServer}
    (hInv : Consistent w) :
    Addressable S w := by
  apply addressable_of_entries
  intro hdl pk hLive
  rw [← hInv.agree hdl] at hLive
  rcases hInv.reaches.reachable hdl pk hLive with
    ⟨hdl', hEntry⟩
  refine ⟨hdl', hEntry, ?_⟩
  rw [← hInv.agree hdl']
  exact hInv.reaches.registered pk hdl' hEntry

theorem consistent_new
    (serverSignKey : KeyPair)
    (config : Config)
    {hasOwner : Bool} :
    Consistent (WsServer.new serverSignKey config hasOwner) where
  agree := by
    intro hdl
    simp [WsServer.new, SessionTable.identityOf]
  reaches := IdentityMap.reaches_empty

theorem Consistent.of_frame
    {w w' : WsServer}
    (hInv : Consistent w)
    (hIdentities : w'.identities = w.identities)
    (hTable :
      ∀ hdl,
        w'.sessionTable.identityOf hdl =
          w.sessionTable.identityOf hdl) :
    Consistent w' where
  agree := by
    intro hdl
    rw [hIdentities, hTable hdl]
    exact hInv.agree hdl
  reaches := by
    rw [hIdentities]
    exact hInv.reaches

/- A handshake ends on a connection without an identity. -/
theorem Consistent.stored
    {remoteIp : String}
    {w w' : WsServer}
    {hdl : Hdl}
    {session : Session}
    (hInv : Consistent w)
    (hNone :
      ∀ isAuth, (w.sessionTable.table isAuth)[hdl]? = none)
    (hStored : Stored remoteIp hdl session w w') :
    Consistent w' := by
  have hSessions : w.sessionTable.sessions[hdl]? = none :=
    hNone true
  have hNew : w.identities.hdlToIdentity[hdl]? = none := by
    rw [hInv.agree hdl]
    simp [SessionTable.identityOf, hSessions]
  constructor
  · exact hStored.agree hInv.agree hNone
  · rw [hStored.identities]
    unfold registered
    cases session.peerIdentity with
    | none => exact hInv.reaches
    | some clientPk =>
        exact
          IdentityMap.register_reaches hInv.reaches hNew
            clientPk

theorem Consistent.sole_iff
    {w : WsServer}
    (hInv : Consistent w)
    (hdl : Hdl) :
    w.identities.Sole hdl ↔ SoleIdentity hdl w := by
  unfold IdentityMap.Sole SoleIdentity
  simp only [hInv.agree]
  constructor
  · intro hSole pk hPk other _ hOther
    exact hSole pk hPk other hOther
  · intro hSole pk hPk other hOther
    refine hSole pk hPk other ?_ hOther
    rw [Std.ExtTreeMap.mem_keys,
      Std.ExtTreeMap.mem_iff_isSome_getElem?]
    unfold SessionTable.identityOf at hOther
    cases hEntry : w.sessionTable.sessions[other]? with
    | none => simp [hEntry] at hOther
    | some state => rfl

/- A close keeps the maps consistent just in this case. -/
theorem closed_consistent_iff
    {w w' : WsServer}
    {hdl : Hdl}
    (hInv : Consistent w)
    (hClosed : Closed hdl w w') :
    Consistent w' ↔ SoleIdentity hdl w := by
  rw [← hInv.sole_iff hdl,
    ← IdentityMap.unregister_reaches_iff hInv.reaches hdl]
  constructor
  · intro hAfter
    rw [← hClosed.identities]
    exact hAfter.reaches
  · intro hReaches
    refine ⟨hClosed.agree hInv.agree, ?_⟩
    rw [hClosed.identities]
    exact hReaches

theorem Consistent.next
    {w : WsServer}
    {event : ServerEvent}
    (hInv : Consistent w)
    (hSole : ClosesSole w event) :
    Consistent (next S w event) := by
  have hChange := next_change S event w
  generalize WsServer.next S w event = w' at hChange ⊢
  cases hChange with
  | sends hSends =>
      exact hInv.of_frame hSends.identities hSends.identityOf
  | receives hAccepts hSends =>
      have hReceived :=
        hInv.of_frame hAccepts.identities hAccepts.identityOf
      exact
        hReceived.of_frame hSends.identities
          hSends.identityOf
  | establishes _ hNone hAnswers _ hStored _ =>
      exact hInv.stored hNone hStored
  | closes hClosed =>
      exact (closed_consistent_iff hInv hClosed).mpr hSole

------------------------------------------------------------
-- Runs
------------------------------------------------------------

/-
  In every run in which connections close only while they are
  the only live ones with their identity.
-/
theorem identity_reachability
    {serverSignKey : KeyPair}
    {config : Config}
    {hasOwner : Bool}
    {events : List ServerEvent}
    {w : WsServer}
    (hRun :
      StateMachine.Run
        (StateMachine.Guarded ClosesSole (next S))
        (WsServer.new serverSignKey config hasOwner) events w) :
    Addressable S w := by
  have hInv : Consistent w := by
    refine
      hRun.invariant ?_
        (consistent_new serverSignKey config)
    rintro v event v' hBefore ⟨hSole, hNext⟩
    rw [hNext]
    exact hBefore.next hSole
  exact hInv.addressable

------------------------------------------------------------
-- A Reconnect
------------------------------------------------------------

open PlainSodium

/- The old connection is closed after the new handshake. -/
def reconnect : List ServerEvent :=
  [ .opened (.smooth (sampleKx 0)) 1,
    .hello 1 1,
    .opened (.smooth (sampleKx 0)) 2,
    .hello 2 2,
    .closed (.smooth (sampleKx 0)) 1 ]

/- The same with the old connection closed first. -/
def orderlyReconnect : List ServerEvent :=
  [ .hello 1 1,
    .closed (.smooth (sampleKx 0)) 1,
    .hello 2 2 ]

set_option maxRecDepth 8000 in
theorem identity_reachability_orderlyReconnect :
    let w :=
      orderlyReconnect.foldl (next plainSodium) WsServer.sample
    w.sessionTable.identityOf 2 =
        some (sampleKeyPair 5).publicKey ∧
      Addressable plainSodium w :=
  ⟨by decide,
    identity_reachability
      (StateMachine.run_of_allowed ClosesSole
        (next plainSodium) WsServer.sample orderlyReconnect
        (by decide))⟩

/- The identity of a live connection is "not connected". -/
set_option maxRecDepth 8000 in
theorem identity_lost :
    let w := reconnect.foldl (next plainSodium) WsServer.sample
    StateMachine.Run
        (StateMachine.Guarded (fun _ _ => True)
          (next plainSodium))
        WsServer.sample reconnect w ∧
      w.sessionTable.identityOf 2 =
          some (sampleKeyPair 5).publicKey ∧
        ¬ Addressable plainSodium w := by
  intro w
  have hLive :
      w.sessionTable.identityOf 2 =
        some (sampleKeyPair 5).publicKey := by
    decide
  have hGone :
      w.identities.identityToHdl[
        (sampleKeyPair 5).publicKey]? = none := by
    decide
  refine ⟨?_, hLive, ?_⟩
  · exact
      StateMachine.run_of_allowed (fun _ _ => True)
        (next plainSodium) WsServer.sample reconnect (by decide)
  · intro hAddressable
    rcases hAddressable.entry 2 _ hLive with ⟨hdl, hEntry, _⟩
    rw [hGone] at hEntry
    cases hEntry

end IdentityReachability

end ObscuraProto
