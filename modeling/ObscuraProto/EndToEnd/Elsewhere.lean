import ObscuraProto.EndToEnd.ServerEnd
import ObscuraProto.WsServer.Bystanders

/-
  What the server does for its other connections.

  Calls and events of other connections leave a connection
  and what is kept for it as they are, and send nothing on
  it.  They share its counters of requests and of streams.

  Key definitions include:
    * `ServerEvent.elsewhere`, `Besides`

  Key theorems include:
    * `Move.silent`
    * `WsServer.elsewhere_besides`
-/

namespace ObscuraProto

open Effectful WsServer

/- The connection that a stream sends on. -/
def ServerSendFn.target : ServerSendFn → Hdl
| .send hdl => hdl
| .sendAnonymous hdl => hdl

/- The streams of one other connection. -/
def WsServer.streamElsewhere
    (hdl : Hdl)
    (ref : StreamRef)
    (w : WsServer) : Prop :=
  ∀ stream, w.streams.objects[ref]? = some stream →
    stream.sendFn.target ≠ hdl

/- The event is about one other connection. -/
def ServerEvent.elsewhere
    (hdl : Hdl)
    (w : WsServer) : ServerEvent → Prop
| .opened _ hdl' => hdl' ≠ hdl
| .message _ hdl' _ => hdl' ≠ hdl
| .closed _ hdl' => hdl' ≠ hdl
| .call (.send _ hdl' _) => hdl' ≠ hdl
| .call (.sendAnonymous _ hdl' _) => hdl' ≠ hdl
| .call (.sendResponse _ hdl' _ _) => hdl' ≠ hdl
| .call (.asyncRequest _ hdl' _ _) => hdl' ≠ hdl
| .call (.startStream _ hdl') => hdl' ≠ hdl
| .call (.startStreamWith _ hdl' _) => hdl' ≠ hdl
| .call (.streamWrite _ _ ref) => w.streamElsewhere hdl ref
| .call (.streamEnd _ ref) => w.streamElsewhere hdl ref
| .call (.streamCancel _ ref) => w.streamElsewhere hdl ref
| _ => False

/- The connection is not touched, and nothing is sent on it. -/
structure Besides
    (hdl : Hdl)
    (w : WsServer)
    (effects : List ServerEffect)
    (w' : WsServer) : Prop where
  same : SameEntries hdl w w'
  steady : Steady w w'
  objects : w.streams.objects <+: w'.streams.objects
  silent : ∀ packet, .transmit hdl packet ∉ effects

variable {S : Sodium}
variable {hdl : Hdl}

theorem composes_besides (hdl : Hdl) :
    Composes (Besides hdl) where
  refl := fun w =>
    ⟨.refl hdl w, ⟨rfl, rfl, rfl, rfl⟩, List.prefix_refl _,
      by simp⟩
  trans := by
    intro w v u xs ys hFirst hSecond
    refine
      ⟨hFirst.same.trans hSecond.same,
        hFirst.steady.trans hSecond.steady,
        hFirst.objects.trans hSecond.objects, ?_⟩
    intro packet hMem
    rcases List.mem_append.mp hMem with hLeft | hRight
    · exact hFirst.silent packet hLeft
    · exact hSecond.silent packet hRight

------------------------------------------------------------
-- Single Steps
------------------------------------------------------------

/- Sends of the connection itself advance its counter. -/
theorem afterSend_ne (state : ConnectionState) :
    state.afterSend ≠ state := by
  intro hSame
  have hCounter :
      state.session.sendCounter + 1 =
        state.session.sendCounter :=
    congrArg (fun s => s.session.sendCounter) hSame
  have hNat := congrArg UInt64.toNat hCounter
  rw [UInt64.toNat_add] at hNat
  have hLess := state.session.sendCounter.toNat_lt
  simp only [UInt64.toNat_one] at hNat
  omega

theorem closeSession_steady
    (isAuth : Bool)
    (hdl : Hdl)
    (w : WsServer) :
    Steady w (closeSession isAuth hdl w) := by
  unfold closeSession
  split <;> exact ⟨rfl, rfl, rfl, rfl⟩

/- Without registrations, handlers stay as they are. -/
theorem Move.steady
    {may : May}
    {w w' : WsServer}
    {effects : List ServerEffect}
    (hMove : Move S may w effects w')
    (hRegisters :
      ∀ registration callback,
        ¬ may.registers registration callback) :
    Steady w w' := by
  cases hMove with
  | registers registration callback hMay =>
      exact (hRegisters registration callback hMay).elim
  | receives _ hWithin =>
      rw [hWithin.state]
      exact ⟨rfl, rfl, rfl, rfl⟩
  | closesSessions _ =>
      exact
        (closeSession_steady true _ w).trans
          (closeSession_steady false _ _)
  | _ => exact ⟨rfl, rfl, rfl, rfl⟩

/- A packet of a connection leaves a trace in its session. -/
theorem Move.silent
    {may : May}
    {w w' : WsServer}
    {effects : List ServerEffect}
    (hMove : Move S may w effects w')
    (hSame : SameEntries hdl w w')
    (hEstablishes : ¬ may.establishes hdl)
    (packet : Bytes) :
    .transmit hdl packet ∉ effects := by
  intro hMem
  cases hMove with
  | @handsOver isAuth hdl' state keys nonce payload hStored _ =>
      have hHere : hdl' = hdl := by
        simp only [List.mem_singleton,
          ServerEffect.transmit.injEq] at hMem
        exact hMem.1.symm
      subst hHere
      have hEntry := hSame.sessions isAuth
      rw [hStored] at hEntry
      simp only [SessionTable.table_store_self,
        Std.ExtTreeMap.getElem?_insert_self,
        Option.some.injEq] at hEntry
      exact afterSend_ne state hEntry
  | @replies hdl' packet' hMay =>
      have hHere : hdl' = hdl := by
        simp only [List.mem_singleton,
          ServerEffect.transmit.injEq] at hMem
        exact hMem.1.symm
      rw [hHere] at hMay
      exact hEstablishes hMay
  | receives _ hWithin =>
      rcases hWithin.closes _ hMem with ⟨_, _, _, hClose⟩
      cases hClose
  | stopsSessions _ hCloses =>
      rcases hCloses _ hMem with ⟨_, _, _, hClose⟩
      cases hClose
  | _ => simp at hMem

/- Code on one connection, from outside of it. -/
theorem besides_of_touches
    {may : May}
    {uses : LimiterOp → Prop}
    {target : Hdl}
    {w w' : WsServer}
    {effects : List ServerEffect}
    (hOther : hdl ≠ target)
    (hTouches : Touches uses target w effects w')
    (hMove : Move S may w effects w')
    (hEstablishes : ¬ may.establishes hdl)
    (hRegisters :
      ∀ registration callback,
        ¬ may.registers registration callback) :
    Besides hdl w effects w' where
  same := hTouches.others hdl hOther
  steady := hMove.steady hRegisters
  objects := hTouches.objects
  silent :=
    hMove.silent (hTouches.others hdl hOther) hEstablishes

namespace WsServer

------------------------------------------------------------
-- Calls
------------------------------------------------------------

variable (S)

theorem asyncRequest_local
    {uses : LimiterOp → Prop}
    (input : RequestInput)
    (hdl : Hdl)
    (payload : Payload)
    (timeoutMs : UInt32) :
    Local uses hdl
      (asyncRequest S input hdl payload timeoutMs) := by
  apply Ensures.bind get_local
  intro w
  split
  · exact Ensures.throw _
  · have hTake : Local uses hdl takeRequestId :=
      Ensures.atomic
        (fun _ => touches_of_eq rfl rfl rfl rfl rfl)
    apply Ensures.bind hTake
    intro requestId
    apply Ensures.bind (Ensures.ofExcept _)
    intro request
    apply Ensures.bind (registerRequest_local hdl _ _ _)
    intro _
    refine Ensures.bind ?_ (fun _ => Ensures.pure _)
    apply Ensures.catchAll (send_local S _ _)
    intro e
    exact
      Ensures.bind (failRequest_local hdl _ _)
        (fun _ => Ensures.throw e)

theorem runSendFn_local
    {uses : LimiterOp → Prop}
    (nonce : Nonce)
    (payload : Payload)
    (sendFn : ServerSendFn) :
    Local uses sendFn.target
      (runSendFn S nonce payload sendFn) := by
  cases sendFn with
  | send hdl => exact send_local S nonce payload
  | sendAnonymous hdl =>
      exact sendAnonymous_local S nonce payload

theorem runSendFn_moves
    {may : May}
    (nonce : Nonce)
    (payload : Payload)
    (sendFn : ServerSendFn) :
    Moves S may (runSendFn S nonce payload sendFn) := by
  cases sendFn with
  | send hdl => exact send_moves S nonce hdl payload
  | sendAnonymous hdl =>
      exact sendAnonymous_moves S nonce hdl payload

/- Code that touches one connection, from another one. -/
theorem besides_of_local
    {α : Type}
    {act : ServerAction α}
    {may : May}
    {uses : WsServer → LimiterOp → Prop}
    {target : Hdl}
    (hOther : target ≠ hdl)
    (hLocal :
      Ensures (fun w => Touches (uses w) target w) act)
    (hMoves : Moves S may act)
    (hEstablishes : ¬ may.establishes hdl)
    (hRegisters :
      ∀ registration callback,
        ¬ may.registers registration callback) :
    Ensures (Besides hdl) act := by
  refine (hLocal.both hMoves).mono ?_
  rintro w effects w' ⟨hTouches, hMove⟩
  exact
    besides_of_touches hOther.symm hTouches hMove hEstablishes
      hRegisters

theorem call_besides
    (method : PublicCall)
    {target : Hdl}
    (hOther : target ≠ hdl)
    (hRegister :
      ∀ registration callback,
        method ≠ .register registration callback)
    (hLocal : Local (fun _ => False) target (call S method)) :
    Ensures (Besides hdl) (call S method) :=
  besides_of_local S hOther hLocal (call_moves S method)
    ((callMay_plain method).establishes hdl) hRegister

theorem streamCall_besides
    {ref : StreamRef}
    {w : WsServer}
    (hElsewhere : w.streamElsewhere hdl ref)
    (nonce : Nonce)
    (build :
      Stream ServerSendFn → Except Exception Payload) :
    Besides hdl w
      ((streamCall S nonce build ref).run w).effects
      ((streamCall S nonce build ref).run w).state := by
  unfold streamCall
  rw [Action.run_get_bind]
  cases hStream : w.streams.objects[ref]? with
  | none => exact (composes_besides hdl).refl w
  | some stream =>
      have hLocal (payload : Payload) :
          Local (fun _ => False) stream.sendFn.target
            (runSendFn S nonce payload stream.sendFn) :=
        runSendFn_local S nonce payload stream.sendFn
      have hMoves (payload : Payload) :
          Moves S {}
            (runSendFn S nonce payload stream.sendFn) :=
        runSendFn_moves S nonce payload stream.sendFn
      have hSend (payload : Payload) :
          Ensures (Besides hdl)
            (runSendFn S nonce payload stream.sendFn) :=
        besides_of_local S (hElsewhere stream hStream)
          (hLocal payload) (hMoves payload)
          (fun hMay => hMay) (fun _ _ hMay => hMay)
      have hCall :
          Ensures (Besides hdl)
            (Action.catchAll
              (do
                let payload ← Action.ofExcept (build stream)
                if w.hasOwner then
                  runSendFn S nonce payload stream.sendFn
                else
                  return ())
              (fun _ => return ())) := by
        refine Ensures.catchAll ?_ (fun _ => Ensures.pure ())
        apply Ensures.bind (Ensures.ofExcept _)
        intro payload
        split
        · exact hSend payload
        · exact Ensures.pure ()
      exact hCall.run (composes_besides hdl) w

------------------------------------------------------------
-- Events
------------------------------------------------------------

/- What is about another connection leaves this one alone. -/
theorem elsewhere_besides
    {event : ServerEvent}
    {w : WsServer}
    (hElsewhere : event.elsewhere hdl w) :
    Besides hdl w ((handle S event).run w).effects
      ((handle S event).run w).state := by
  have hAct
      (hBesides : Ensures (Besides hdl) (handle S event)) :
      Besides hdl w ((handle S event).run w).effects
        ((handle S event).run w).state :=
    hBesides.run (composes_besides hdl) w
  cases event with
  | opened input target =>
      apply hAct
      refine
        besides_of_local S hElsewhere
          (onOpen_touches input target)
          (onOpen_moves S input target) ?_ ?_
      · simp [ServerEvent.may]
      · simp [ServerEvent.may]
  | message input target frame =>
      apply hAct
      refine
        besides_of_local S hElsewhere
          (onMessage_touches S input target frame)
          (handle_moves S (.message input target frame)) ?_ ?_
      · simpa [ServerEvent.may] using Ne.symm hElsewhere
      · simp [ServerEvent.may]
  | closed input target =>
      apply hAct
      refine
        besides_of_local S hElsewhere
          (onClose_touches input target)
          (handle_moves S (.closed input target)) ?_ ?_
      · simp [ServerEvent.may]
      · simp [ServerEvent.may]
  | timeouts input => exact hElsewhere.elim
  | call method =>
      cases method with
      | send nonce target payload =>
          apply hAct
          exact
            call_besides S (.send nonce target payload)
              hElsewhere (fun _ _ hSame => by cases hSame)
              (send_local S nonce payload)
      | sendAnonymous nonce target payload =>
          apply hAct
          exact
            call_besides S (.sendAnonymous nonce target payload)
              hElsewhere (fun _ _ hSame => by cases hSame)
              (sendAnonymous_local S nonce payload)
      | sendResponse nonce target requestId payload =>
          apply hAct
          exact
            call_besides S
              (.sendResponse nonce target requestId payload)
              hElsewhere (fun _ _ hSame => by cases hSame)
              (sendResponse_local S nonce requestId payload)
      | sendToIdentity nonce identityPk payload =>
          exact hElsewhere.elim
      | asyncRequest input target payload timeoutMs =>
          apply hAct
          exact
            call_besides S
              (.asyncRequest input target payload timeoutMs)
              hElsewhere (fun _ _ hSame => by cases hSame)
              (Ensures.bind
                (asyncRequest_local S input target payload
                  timeoutMs)
                (fun _ => Ensures.pure ()))
      | asyncRequestToIdentity input identityPk payload =>
          exact hElsewhere.elim
      | startStream nonce target =>
          apply hAct
          exact
            call_besides S (.startStream nonce target)
              hElsewhere (fun _ _ hSame => by cases hSame)
              (Ensures.bind (startStream_local S nonce target)
                (fun _ => Ensures.pure ()))
      | startStreamWith nonce target streamOpCode =>
          apply hAct
          exact
            call_besides S
              (.startStreamWith nonce target streamOpCode)
              hElsewhere (fun _ _ hSame => by cases hSame)
              (Ensures.bind
                (startStreamWith_local S nonce target
                  streamOpCode)
                (fun _ => Ensures.pure ()))
      | streamWrite nonce data ref =>
          exact
            streamCall_besides S hElsewhere nonce
              (Stream.writePayload data)
      | streamEnd nonce ref =>
          exact
            streamCall_besides S hElsewhere nonce
              Stream.endPayload
      | streamCancel nonce ref =>
          exact
            streamCall_besides S hElsewhere nonce
              Stream.cancelPayload
      | register registration callback =>
          exact hElsewhere.elim

end WsServer

end ObscuraProto
