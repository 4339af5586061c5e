import ObscuraProto.WsServer.Pool
import ObscuraProto.WsServer.Touches

/-
  What code leaves of a connection that it is not about.

  Calls, timers and the events of other connections keep a
  connection stored or not stored, with the identity it has,
  and put nothing into the tables that have no entry of it.

  Key definitions include:
    * `Linked`, `Unfilled`, `Aside`
    * `ServerEvent.isOn`, `WsServer.PublicCall.streamsOn`

  Key theorems include:
    * `WsServer.call_aside`
    * `WsServer.event_aside`
-/

namespace ObscuraProto

open Effectful WsServer

/-
  The connection is stored if it was before, and has the same
  identity; no entry of an identity points to it anew.
-/
structure Linked (hdl : Hdl) (w w' : WsServer) : Prop where
  stored : Unstored hdl w' ↔ Unstored hdl w
  identity :
    w'.identities.hdlToIdentity[hdl]? =
      w.identities.hdlToIdentity[hdl]?
  entries :
    ∀ pk : PublicKey,
      w'.identities.identityToHdl[pk]? = some hdl →
        w.identities.identityToHdl[pk]? = some hdl

/- Where there was no entry, there is none. -/
structure Unfilled (hdl : Hdl) (w w' : WsServer) : Prop where
  streams :
    w.streams.perConnectionStreams[hdl]? = none →
      w'.streams.perConnectionStreams[hdl]? = none
  openTime :
    w.handshakeOpenTime[hdl]? = none →
      w'.handshakeOpenTime[hdl]? = none

/- Both of them, in whatever step. -/
structure Aside
    (hdl : Hdl)
    (w : WsServer)
    (_ : List ServerEffect)
    (w' : WsServer) : Prop where
  linked : Linked hdl w w'
  unfilled : Unfilled hdl w w'

/- The events that are about a connection. -/
def ServerEvent.isOn (hdl : Hdl) : ServerEvent → Prop
| .opened _ hdl' => hdl' = hdl
| .message _ hdl' _ => hdl' = hdl
| .closed _ hdl' => hdl' = hdl
| _ => False

variable {S : Sodium}
variable {hdl : Hdl}
variable {w w' : WsServer}
variable {effects : List ServerEffect}

theorem Linked.refl (hdl : Hdl) (w : WsServer) :
    Linked hdl w w :=
  ⟨Iff.rfl, rfl, fun _ hEntry => hEntry⟩

theorem Linked.trans
    {v u : WsServer}
    (hFirst : Linked hdl w v)
    (hSecond : Linked hdl v u) :
    Linked hdl w u where
  stored := hSecond.stored.trans hFirst.stored
  identity := hSecond.identity.trans hFirst.identity
  entries := fun pk hEntry =>
    hFirst.entries pk (hSecond.entries pk hEntry)

------------------------------------------------------------
-- Single Steps
------------------------------------------------------------

/- Send counters concern neither side. -/
theorem OnlySends.linked
    (hSends : OnlySends w effects w')
    (hdl : Hdl) :
    Linked hdl w w' := by
  refine ⟨forall_congr' (fun isAuth => ?_), ?_, ?_⟩
  · rcases hSends.connections isAuth hdl with ⟨c, hEntry⟩
    rw [hEntry, Option.map_eq_none_iff]
  · rw [hSends.identities]
  · intro pk hEntry
    rw [hSends.identities] at hEntry
    exact hEntry

theorem SameEntries.unstored
    (hSame : SameEntries hdl w w') :
    Unstored hdl w' ↔ Unstored hdl w :=
  forall_congr' (fun isAuth => by rw [hSame.sessions isAuth])

theorem SameEntries.unfilled
    (hSame : SameEntries hdl w w') :
    Unfilled hdl w w' where
  streams := fun hNone => hSame.streams.trans hNone
  openTime := fun hNone => hSame.openTime.trans hNone

/- Only a handshake and a close of it concern an identity. -/
theorem Move.sameIdentity
    {may : May}
    (hMove : Move S may w effects w')
    (hEstablishes : ¬ may.establishes hdl)
    (hCloses : ¬ may.closes hdl)
    (hStops : ¬ may.stops) :
    w'.identities.hdlToIdentity[hdl]? =
        w.identities.hdlToIdentity[hdl]? ∧
      ∀ pk : PublicKey,
        w'.identities.identityToHdl[pk]? = some hdl →
          w.identities.identityToHdl[pk]? = some hdl := by
  have hSame
      (hEq : w'.identities = w.identities) :
      w'.identities.hdlToIdentity[hdl]? =
          w.identities.hdlToIdentity[hdl]? ∧
        ∀ pk : PublicKey,
          w'.identities.identityToHdl[pk]? = some hdl →
            w.identities.identityToHdl[pk]? = some hdl := by
    rw [hEq]
    exact ⟨rfl, fun _ hEntry => hEntry⟩
  cases hMove with
  | registers registration callback _ =>
      cases registration <;> exact hSame rfl
  | receives _ hWithin =>
      apply hSame
      rw [hWithin.state]
  | closesSessions _ =>
      apply hSame
      rw [(closeSession_frame false _ _).2.2.1]
      exact (closeSession_frame true _ _).2.2.1
  | @identifies target clientPk hMay =>
      have hOther : target ≠ hdl := by
        intro hEq
        rw [hEq] at hMay
        exact hEstablishes hMay
      refine
        ⟨OrderedMap.getElem?_insert_of_ne hOther.symm _ _, ?_⟩
      intro pk hEntry
      rcases OrderedMap.of_getElem?_insert hEntry with
        ⟨_, hHdl⟩ | ⟨_, hOld⟩
      · exact absurd hHdl.symm hOther
      · exact hOld
  | @unregisters target hMay =>
      have hOther : hdl ≠ target := by
        intro hEq
        rw [← hEq] at hMay
        exact hCloses hMay
      simp only [IdentityMap.unregister]
      cases w.identities.hdlToIdentity[target]? with
      | none => exact ⟨rfl, fun _ hEntry => hEntry⟩
      | some old =>
          refine
            ⟨OrderedMap.getElem?_erase_of_ne hOther _, ?_⟩
          intro pk hEntry
          exact (OrderedMap.of_getElem?_erase hEntry).2
  | stopsSessions hMay _ => exact absurd hMay hStops
  | forgetsIdentities hMay => exact absurd hMay hStops
  | _ => exact hSame rfl

/- Without streams and opens, no entry is added. -/
theorem Move.unfilled
    {may : May}
    (hMove : Move S may w effects w')
    (hStreams : ¬ may.usesStreams)
    (hOpens : ¬ may.opens hdl) :
    Unfilled hdl w w' := by
  have hSame
      (hTable : w'.streams = w.streams)
      (hTimes : w'.handshakeOpenTime = w.handshakeOpenTime) :
      Unfilled hdl w w' := by
    constructor
    · rw [hTable]
      exact fun hNone => hNone
    · rw [hTimes]
      exact fun hNone => hNone
  cases hMove with
  | registersStream _ _ hMay => exact absurd hMay hStreams
  | dropsStream _ _ hMay => exact absurd hMay hStreams
  | registers registration callback _ =>
      cases registration <;>
        exact ⟨fun hNone => hNone, fun hNone => hNone⟩
  | receives _ hWithin =>
      apply hSame
      · rw [hWithin.state]
      · rw [hWithin.state]
  | @opens target now hMay =>
      have hOther : hdl ≠ target := by
        intro hEq
        rw [← hEq] at hMay
        exact hOpens hMay
      refine ⟨fun hNone => hNone, fun hNone => ?_⟩
      exact
        (OrderedMap.getElem?_insert_of_ne hOther _ _).trans
          hNone
  | closesLate status reason late =>
      refine ⟨fun hNone => hNone, fun hNone => ?_⟩
      rw [Std.ExtTreeMap.getElem?_filter', hNone]
      rfl
  | clearsTime target =>
      exact
        ⟨fun hNone => hNone, fun hNone =>
          OrderedMap.getElem?_erase_of_absent hNone target⟩
  | closesSessions _ =>
      apply hSame
      · rw [(closeSession_frame false _ _).2.2.2.2.1]
        exact (closeSession_frame true _ _).2.2.2.2.1
      · rw [(closeSession_frame false _ _).2.2.2.1]
        exact (closeSession_frame true _ _).2.2.2.1
  | closesStreams _ =>
      exact
        ⟨fun hNone =>
          OrderedMap.getElem?_erase_of_absent hNone _,
          fun hNone => hNone⟩
  | _ => exact hSame rfl rfl

/- Code on one connection, from outside of it. -/
theorem aside_of_touches
    {may : May}
    {uses : LimiterOp → Prop}
    {target : Hdl}
    (hOther : hdl ≠ target)
    (hTouches : Touches uses target w effects w')
    (hMove : Move S may w effects w')
    (hEstablishes : ¬ may.establishes hdl)
    (hCloses : ¬ may.closes hdl)
    (hStops : ¬ may.stops) :
    Aside hdl w effects w' := by
  have hSame := hTouches.others hdl hOther
  rcases hMove.sameIdentity hEstablishes hCloses hStops with
    ⟨hIdentity, hEntries⟩
  exact
    ⟨⟨hSame.unstored, hIdentity, hEntries⟩, hSame.unfilled⟩

namespace WsServer

------------------------------------------------------------
-- Calls
------------------------------------------------------------

/- The connection on which a method starts a stream. -/
def PublicCall.streamsOn (hdl : Hdl) : PublicCall → Prop
| .startStream _ hdl' => hdl' = hdl
| .startStreamWith _ hdl' _ => hdl' = hdl
| _ => False

variable (S)

theorem takeStreamId_local
    {uses : LimiterOp → Prop} :
    Local uses hdl takeStreamId :=
  Ensures.atomic (fun _ => touches_of_eq rfl rfl rfl rfl rfl)

theorem startStream_local
    {uses : LimiterOp → Prop}
    (nonce : Nonce)
    (hdl : Hdl) :
    Local uses hdl (startStream S nonce hdl) := by
  apply Ensures.bind takeStreamId_local
  intro streamId
  apply Ensures.bind (registerStream_local _)
  intro stream
  apply Ensures.bind get_local
  intro w
  apply Ensures.bind (Ensures.ofExcept _)
  intro start
  exact
    Ensures.bind (send_local S nonce start)
      (fun _ => Ensures.pure _)

theorem startStreamWith_local
    {uses : LimiterOp → Prop}
    (nonce : Nonce)
    (hdl : Hdl)
    (streamOpCode : OpCode) :
    Local uses hdl
      (startStreamWith S nonce hdl streamOpCode) := by
  apply Ensures.bind takeStreamId_local
  intro streamId
  apply Ensures.bind (registerStream_local _)
  intro stream
  apply Ensures.bind get_local
  intro w
  split
  · exact Ensures.throw _
  · apply Ensures.bind (Ensures.ofExcept _)
    intro start
    exact
      Ensures.bind (send_local S nonce start)
        (fun _ => Ensures.pure _)

theorem callMay_plain (method : PublicCall) :
    method.may.Plain := by
  constructor <;> simp [PublicCall.may]

/- A method that starts a stream starts it elsewhere. -/
theorem stream_aside
    {target : Hdl}
    (hOther : hdl ≠ target)
    {method : PublicCall}
    (hLocal : Local (fun _ => False) target (call S method)) :
    Ensures (Aside hdl) (call S method) := by
  have hPlain := callMay_plain method
  refine (hLocal.both (call_moves S method)).mono ?_
  rintro w effects w' ⟨hTouches, hMove⟩
  exact
    aside_of_touches hOther hTouches hMove
      (hPlain.establishes hdl) (hPlain.closes hdl) hPlain.stops

theorem call_aside
    (method : PublicCall)
    (hElsewhere : ¬ method.streamsOn hdl) :
    Ensures (Aside hdl) (call S method) := by
  have hPlain := callMay_plain method
  have hOther
      (hStreams : method.startsStream = false) :
      Ensures (Aside hdl) (call S method) := by
    refine (call_moves S method).mono ?_
    intro w effects w' hMove
    refine
      ⟨(Move.sendStep hMove hPlain).onlySends.linked hdl,
        hMove.unfilled ?_ ?_⟩
    · simp [PublicCall.may, hStreams]
    · simp [PublicCall.may]
  cases method with
  | startStream nonce target =>
      apply stream_aside S (fun hSame => hElsewhere hSame.symm)
      exact
        Ensures.bind (startStream_local S nonce target)
          (fun _ => Ensures.pure ())
  | startStreamWith nonce target streamOpCode =>
      apply stream_aside S (fun hSame => hElsewhere hSame.symm)
      exact
        Ensures.bind
          (startStreamWith_local S nonce target streamOpCode)
          (fun _ => Ensures.pure ())
  | _ => exact hOther rfl

------------------------------------------------------------
-- Events
------------------------------------------------------------

/- An event of another connection, or of the timer. -/
theorem event_aside
    (event : IoEvent)
    (hElsewhere : ¬ event.val.isOn hdl) :
    Ensures (Aside hdl) (handle S event.val) := by
  rcases event with ⟨event, hIo⟩
  cases event with
  | opened input target =>
      have hOther : hdl ≠ target :=
        fun hSame => hElsewhere hSame.symm
      refine
        ((onOpen_touches input target).both
          (onOpen_moves S input target)).mono ?_
      rintro w effects w' ⟨hTouches, hMove⟩
      exact
        aside_of_touches hOther hTouches hMove
          (by simp [ServerEvent.may])
          (by simp [ServerEvent.may])
          (by simp [ServerEvent.may])
  | message input target frame =>
      have hOther : hdl ≠ target :=
        fun hSame => hElsewhere hSame.symm
      refine
        ((onMessage_touches S input target frame).both
          (handle_moves S
            (.message input target frame))).mono ?_
      rintro w effects w' ⟨hTouches, hMove⟩
      exact
        aside_of_touches hOther hTouches hMove
          (by simpa [ServerEvent.may] using hOther)
          (by simp [ServerEvent.may])
          (by simp [ServerEvent.may])
  | closed input target =>
      have hOther : hdl ≠ target :=
        fun hSame => hElsewhere hSame.symm
      refine
        ((onClose_touches input target).both
          (handle_moves S (.closed input target))).mono ?_
      rintro w effects w' ⟨hTouches, hMove⟩
      exact
        aside_of_touches hOther hTouches hMove
          (by simp [ServerEvent.may])
          (by simpa [ServerEvent.may] using hOther)
          (by simp [ServerEvent.may])
  | timeouts input =>
      refine (handle_moves S (.timeouts input)).mono ?_
      intro w effects w' hMove
      have hPlain : (ServerEvent.timeouts input).may.Plain := by
        constructor <;> simp [ServerEvent.may]
      exact
        ⟨(Move.sendStep hMove hPlain).onlySends.linked hdl,
          hMove.unfilled (by simp [ServerEvent.may])
            (by simp [ServerEvent.may])⟩
  | call method => cases hIo

end WsServer

end ObscuraProto
