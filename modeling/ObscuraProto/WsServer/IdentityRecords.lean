import ObscuraProto.WsServer.Bystanders

/-
  The identity of a connection while its messages arrive.

  Only a handshake records an identity, and only where no
  session of the connection is stored.  As long as nothing
  else removes the session, such a connection has no identity
  yet, so an entry that points to it is that of its identity.

  Key definitions include:
    * `Enrolled`, `WsServer.Unknown`

  Key theorems include:
    * `Linked.enrolled`
    * `WsServer.handshake_enrolls`
    * `WsServer.onMessage_enrolls`
-/

namespace ObscuraProto

open Effectful Threads WsServer

/-
  Without a session the connection has no identity, and the
  entries that point to it are those of its identity.
-/
structure Enrolled (hdl : Hdl) (w : WsServer) : Prop where
  unstored :
    Unstored hdl w → w.identities.hdlToIdentity[hdl]? = none
  entries :
    ∀ pk : PublicKey,
      w.identities.identityToHdl[pk]? = some hdl →
        w.identities.hdlToIdentity[hdl]? = some pk

theorem Linked.enrolled
    {hdl : Hdl}
    {w w' : WsServer}
    (hLinked : Linked hdl w w')
    (hEnrolled : Enrolled hdl w) :
    Enrolled hdl w' where
  unstored := by
    intro hUnstored
    rw [hLinked.identity]
    exact hEnrolled.unstored (hLinked.stored.mp hUnstored)
  entries := by
    intro pk hEntry
    rw [hLinked.identity]
    exact hEnrolled.entries pk (hLinked.entries pk hEntry)

namespace WsServer

variable {S : Sodium}
variable {hdl : Hdl}

/- A step after which the above still holds. -/
def Enrolls
    (hdl : Hdl)
    (w : WsServer)
    (_ : List ServerEffect)
    (w' : WsServer) : Prop :=
  Enrolled hdl w → Enrolled hdl w'

/- Neither stored nor with an identity. -/
structure Unknown (hdl : Hdl) (w : WsServer) : Prop where
  unstored : Unstored hdl w
  unlisted : w.identities.hdlToIdentity[hdl]? = none

theorem Unknown.of_linked
    {w w' : WsServer}
    (hUnknown : Unknown hdl w)
    (hLinked : Linked hdl w w') :
    Unknown hdl w' :=
  ⟨hLinked.stored.mpr hUnknown.unstored,
    hLinked.identity.trans hUnknown.unlisted⟩

/- Short for: from `w` on, whatever other threads do. -/
abbrev Enrolling
    (hdl : Hdl)
    {α : Type}
    (act : ServerAction α)
    (w : WsServer) : Prop :=
  Guarantees (Linked hdl) (Enrolls hdl) act w

theorem SendStep.linked
    (hdl : Hdl)
    {w w' : WsServer}
    {effects : List ServerEffect}
    (hStep : SendStep S w effects w') :
    Linked hdl w w' :=
  hStep.onlySends.linked hdl

theorem Sends.enrolls
    {α : Type}
    {act : ServerAction α}
    (hSends : Sends S act) :
    Ensures (Enrolls hdl) act :=
  hSends.mono
    (fun _ _ _ hStep => (SendStep.linked hdl hStep).enrolled)

/- Sends go before a part that may rely on `Linked`. -/
theorem Sends.enrolls_bind
    {α β : Type}
    {act : ServerAction α}
    {g : α → ServerAction β}
    {w : WsServer}
    (hSends : Sends S act)
    (hNext : ∀ a t, Linked hdl w t → Enrolling hdl (g a) t) :
    Enrolling hdl (act >>= g) w :=
  .bind hSends
    (fun _ _ _ hStep => (SendStep.linked hdl hStep).enrolled)
    (fun _ _ _ hStep => SendStep.linked hdl hStep)
    (fun _ _ _ hFirst hSecond => hFirst.trans hSecond)
    (Linked.refl hdl) hNext

------------------------------------------------------------
-- The Handshake
------------------------------------------------------------

/- The new session is stored in a free place. -/
theorem stored_emplace
    {w : WsServer}
    (hUnstored : Unstored hdl w)
    (isAuth : Bool)
    (state : ConnectionState) :
    ¬ Unstored hdl
      { w with
        sessionTable :=
          w.sessionTable.emplace isAuth hdl state } := by
  intro hNone
  have hEntry := hNone isAuth
  simp only [SessionTable.table_emplace_self] at hEntry
  rw [OrderedMap.insertIfNew_of_absent (hUnstored isAuth),
    Std.ExtTreeMap.getElem?_insert_self] at hEntry
  cases hEntry

theorem register_enrolls
    {w : WsServer}
    (hStored : ¬ Unstored hdl w)
    (hUnlisted : w.identities.hdlToIdentity[hdl]? = none)
    (clientPk : PublicKey) :
    Enrolls hdl w []
      { w with
        identities := w.identities.register hdl clientPk } := by
  intro hEnrolled
  refine ⟨fun hUnstored => absurd hUnstored hStored, ?_⟩
  intro pk hEntry
  rcases OrderedMap.of_getElem?_insert hEntry with
    ⟨hPk, _⟩ | ⟨_, hOld⟩
  · rw [hPk]
    exact Std.ExtTreeMap.getElem?_insert_self
  · have hListed := hEnrolled.entries pk hOld
    rw [hUnlisted] at hListed
    cases hListed

theorem establish_enrolls
    (input : IoInput)
    (session : Session)
    (identity : Option PublicKey)
    {w : WsServer}
    (hUnknown : Unknown hdl w) :
    Enrolling hdl (establish input hdl session identity) w := by
  refine .atomic_bind ?_ ?_
  · exact fun hEnrolled => ⟨hEnrolled.unstored, hEnrolled.entries⟩
  intro connId _ t hLater
  have hStill : Unknown hdl t :=
    ⟨hLater.stored.mpr hUnknown.unstored,
      hLater.identity.trans hUnknown.unlisted⟩
  refine .atomic_bind ?_ ?_
  · intro hEnrolled
    refine ⟨fun hNone => ?_, hEnrolled.entries⟩
    exact absurd hNone (stored_emplace hStill.unstored _ _)
  · intro _ _ u hSince
    cases identity with
    | none => exact .of_ensures (Ensures.pure ()) u
    | some clientPk =>
        refine .step ?_ (fun v _ => .done _ v)
        apply register_enrolls
        · intro hUnstored
          exact
            stored_emplace hStill.unstored _ _
              (hSince.stored.mp hUnstored)
        · exact hSince.identity.trans hStill.unlisted

theorem establishIdentified_enrolls
    (S : Sodium)
    (input : IoInput)
    (session : Session)
    (clientPk : PublicKey)
    {w : WsServer}
    (hUnknown : Unknown hdl w) :
    Enrolling hdl (establishIdentified input hdl session clientPk)
      w := by
  have hAsk :
      Sends S (identityAccepted input hdl clientPk) := by
    have hMoves :
        Moves S plainMay (identityAccepted input hdl clientPk) :=
      identityAccepted_moves S (fun _ => trivial) input
    exact hMoves.sends plainMay_plain
  apply Sends.enrolls_bind hAsk
  intro accepted t hLinked
  split
  · exact
      establish_enrolls input session (some clientPk)
        (hUnknown.of_linked hLinked)
  · exact .of_ensures (closeHdl_sends S _ _ _ _).enrolls t

theorem conclude_enrolls
    (S : Sodium)
    (input : IoInput)
    (hello : ClientHello)
    (session : Session)
    {w : WsServer}
    (hUnknown : Unknown hdl w) :
    Enrolling hdl (conclude input hdl hello session) w := by
  apply
    Sends.enrolls_bind
      ((limiterRecord_moves S
        (fun rl => rl.recordHandshake_counts _ _)).sends
          plainMay_plain)
  intro _ t hLinked
  have hStill := hUnknown.of_linked hLinked
  have hClear :
      Unit → Ensures (Enrolls hdl) (clearHandshakeTime hdl) :=
    fun _ => (clearHandshakeTime_sends S hdl).enrolls
  dsimp only
  split
  · exact
      .bind_ensures
        (establishIdentified_enrolls S input session _
          hStill)
        hClear
  · exact
      .bind_ensures
        (establish_enrolls input session none hStill) hClear

theorem handshake_enrolls
    (input : IoInput)
    (data : Bytes)
    {w : WsServer}
    (hUnknown : Unknown hdl w) :
    Enrolling hdl (handshake S input hdl data) w := by
  apply
    Sends.enrolls_bind
      ((limiterCheck_moves S
        (fun rl => rl.checkHandshakeRate_counts _ _)).sends
          plainMay_plain)
  intro allowed t hLinked
  have hStill := hUnknown.of_linked hLinked
  split
  · exact .of_ensures (closeHdl_sends S _ _ _ _).enrolls t
  · refine .ofExcept_bind ?_
    intro hello _
    apply Sends.enrolls_bind (get_sends S)
    intro w' u hMore
    have hNow := hStill.of_linked hMore
    refine .ofExcept_bind ?_
    intro serverHello _
    refine .atomic_bind (fun hEnrolled => hEnrolled) ?_
    intro _ _ v hLater
    refine .ofExcept_bind ?_
    intro _ _
    exact
      conclude_enrolls S input hello _
        (hNow.of_linked hLater)

------------------------------------------------------------
-- Messages
------------------------------------------------------------

theorem Advances.unstored
    {w w' : WsServer}
    (hAdvances : Advances w w')
    (hdl : Hdl) :
    Unstored hdl w' ↔ Unstored hdl w := by
  refine forall_congr' (fun isAuth => ?_)
  have hRel := hAdvances isAuth hdl
  revert hRel
  generalize (w.sessionTable.table isAuth)[hdl]? = entry
  generalize (w'.sessionTable.table isAuth)[hdl]? = entry'
  intro hRel
  cases hRel with
  | none => exact Iff.rfl
  | some _ => exact ⟨nofun, nofun⟩

variable (S) in
/- The first section keeps what is stored. -/
theorem receive_linked
    (hdl : Hdl)
    (input : IoInput)
    (packet : Bytes)
    (w : WsServer) :
    Linked hdl w
      ((receive S input hdl packet).run w).state := by
  have hWithin := receive_within S input hdl packet w
  refine
    ⟨(receive_advances S input hdl packet w).unstored hdl,
      ?_, ?_⟩
  · rw [hWithin.state]
  · intro pk hEntry
    rw [hWithin.state] at hEntry
    exact hEntry

theorem onMessage_enrolls
    (input : IoInput)
    (frame : Frame)
    {w : WsServer}
    (hEnrolled : Enrolled hdl w) :
    Enrolling hdl (onMessage S input hdl frame) w := by
  unfold onMessage
  split
  · exact .of_ensures (Ensures.pure ()) w
  · have hLinked :=
      receive_linked S hdl input frame.payload w
    rcases receive_spec S input hdl frame.payload w with
      ⟨_, hUnknown⟩
    unfold receive at hLinked hUnknown ⊢
    rw [Action.run_atomically] at hLinked hUnknown
    refine .atomic_bind hLinked.enrolled ?_
    intro received hReceived t hSince
    cases received with
    | ignored => exact .of_ensures (Ensures.pure ()) t
    | decrypted isAuth payload =>
        refine
          .of_ensures (Ensures.catchAll ?_ (fun _ => .pure ())) t
        exact (dispatch_sends S input hdl isAuth payload).enrolls
    | unknown =>
        rcases hUnknown hReceived with ⟨hSame, hNone⟩
        rw [hSame] at hSince
        have hFree : Unknown hdl w :=
          ⟨hNone, hEnrolled.unstored hNone⟩
        refine
          .catchAll
            (handshake_enrolls input frame.payload
              (hFree.of_linked hSince)) ?_
        exact fun _ => (closeHdl_sends S _ _ _ _).enrolls

end WsServer

end ObscuraProto
