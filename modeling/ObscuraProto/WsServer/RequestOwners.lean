import ObscuraProto.Library.Owners
import ObscuraProto.WsServer.Bystanders

/-
  The requests of one connection and the calls that make them.

  A request is registered before it is sent.  Once the session
  of the connection is gone the send fails, and the call that
  has registered the request removes it with what is left of
  the tables of the connection.  All other code only removes.

  Key definitions include:
    * `NestedMap.Shrinks`, `RequestTable.Shrinks`
    * `WsServer.requestsOf`, `WsServer.Requesting`

  Key theorems include:
    * `RequestSection.shrinks`
    * `WsServer.quiet_of_move`
    * `WsServer.asyncRequest_careful`
    * `WsServer.callCode_careful`
-/

namespace ObscuraProto

open Effectful Threads Owners

------------------------------------------------------------
-- Sections That Only Remove
------------------------------------------------------------

namespace NestedMap

variable {V : Type}

/- Nothing is added below `hdl`, nor is `hdl` itself. -/
structure Shrinks (hdl : Hdl) (m m' : NestedMap V) : Prop where
  entries :
    ∀ id, lookupAt hdl id m = none → lookupAt hdl id m' = none
  outer : m[hdl]? = none → m'[hdl]? = none

variable {hdl : Hdl}

theorem Shrinks.refl (hdl : Hdl) (m : NestedMap V) :
    Shrinks hdl m m :=
  ⟨fun _ hNone => hNone, fun hNone => hNone⟩

theorem Shrinks.trans
    {m m' m'' : NestedMap V}
    (hFirst : Shrinks hdl m m')
    (hSecond : Shrinks hdl m' m'') :
    Shrinks hdl m m'' :=
  ⟨fun id hNone => hSecond.entries id (hFirst.entries id hNone),
    fun hNone => hSecond.outer (hFirst.outer hNone)⟩

theorem shrinks_eraseAt
    (target : Hdl)
    (id : UInt32)
    (m : NestedMap V) :
    Shrinks hdl m (eraseAt target id m) where
  entries := by
    intro id' hNone
    rw [lookupAt_eraseAt]
    split
    · rfl
    · exact hNone
  outer := by
    intro hNone
    unfold eraseAt
    split
    · exact hNone
    · next inner hInner =>
        have hOther : hdl ≠ target := by
          intro hSame
          rw [hSame, hInner] at hNone
          cases hNone
        exact
          (OrderedMap.getElem?_insert_of_ne hOther _ _).trans
            hNone

theorem shrinks_pruneAt
    (target : Hdl)
    (m : NestedMap V) :
    Shrinks hdl m (pruneAt target m) where
  entries := by
    intro id hNone
    rw [lookupAt_pruneAt]
    exact hNone
  outer := by
    intro hNone
    unfold pruneAt
    split
    · exact hNone
    · split
      · exact OrderedMap.getElem?_erase_of_absent hNone _
      · exact hNone

theorem shrinks_erase
    (target : Hdl)
    (m : NestedMap V) :
    Shrinks hdl m (m.erase target) where
  entries := by
    intro id hNone
    rw [lookupAt_erase]
    split
    · rfl
    · exact hNone
  outer := fun hNone =>
    OrderedMap.getElem?_erase_of_absent hNone target

theorem shrinks_insertAt
    {target : Hdl}
    (hOther : target ≠ hdl)
    (id : UInt32)
    (value : V)
    (m : NestedMap V) :
    Shrinks hdl m (insertAt target id value m) where
  entries := by
    intro id' hNone
    rw [lookupAt_insertAt, if_neg]
    · exact hNone
    · exact fun hBoth => hOther hBoth.1.symm
  outer := fun hNone =>
    (OrderedMap.getElem?_insert_of_ne hOther.symm _ _).trans
      hNone

/- A pruned inner map that is still there has an entry. -/
theorem exists_of_pruneAt
    {m : NestedMap V}
    (hThere : (pruneAt hdl m)[hdl]? ≠ none) :
    ∃ id, lookupAt hdl id (pruneAt hdl m) ≠ none := by
  unfold pruneAt at hThere
  cases hInner : m[hdl]? with
  | none =>
      rw [hInner] at hThere
      exact absurd hInner hThere
  | some inner =>
      rw [hInner] at hThere
      dsimp only at hThere
      split at hThere
      · exact absurd Std.ExtTreeMap.getElem?_erase_self hThere
      · next hSome =>
          have hEntry : ∃ id : UInt32, inner[id]? ≠ none := by
            by_contra hAll
            apply hSome
            rw [Std.ExtTreeMap.isEmpty_iff]
            apply Std.ExtTreeMap.ext_getElem?
            intro id
            rw [Std.ExtTreeMap.getElem?_empty]
            exact
              not_not.mp (fun hFound => hAll ⟨id, hFound⟩)
          rcases hEntry with ⟨id, hFound⟩
          refine ⟨id, ?_⟩
          rw [lookupAt_pruneAt]
          simp only [lookupAt, hInner]
          exact hFound

end NestedMap

namespace RequestTable

/- Both tables shrink. -/
structure Shrinks (hdl : Hdl) (t t' : RequestTable) : Prop where
  pending :
    NestedMap.Shrinks hdl t.pendingRequests t'.pendingRequests
  deadlines :
    NestedMap.Shrinks hdl t.requestDeadlines t'.requestDeadlines

variable {hdl : Hdl}

theorem Shrinks.refl (hdl : Hdl) (t : RequestTable) :
    Shrinks hdl t t :=
  ⟨.refl hdl _, .refl hdl _⟩

theorem Shrinks.trans
    {t t' t'' : RequestTable}
    (hFirst : Shrinks hdl t t')
    (hSecond : Shrinks hdl t' t'') :
    Shrinks hdl t t'' :=
  ⟨hFirst.pending.trans hSecond.pending,
    hFirst.deadlines.trans hSecond.deadlines⟩

theorem expireEntry_shrinks
    (now : TimePoint)
    (target : Hdl)
    (acc : List Completion × RequestTable)
    (entry : UInt32 × TimePoint) :
    Shrinks hdl acc.2 (expireEntry now target acc entry).2 := by
  unfold expireEntry
  split
  · exact
      ⟨NestedMap.shrinks_eraseAt target entry.1 _,
        NestedMap.shrinks_eraseAt target entry.1 _⟩
  · exact .refl hdl _

theorem expireConnection_shrinks
    (now : TimePoint)
    (acc : List Completion × RequestTable)
    (perConn : Hdl × Map UInt32 TimePoint) :
    Shrinks hdl acc.2
      (expireConnection now acc perConn).2 := by
  have hLoop :
      Shrinks hdl acc.2
        (perConn.2.toList.foldl (expireEntry now perConn.1)
          acc).2 := by
    apply
      List.foldlRecOn
        (motive := fun acc' : List Completion × RequestTable =>
          Shrinks hdl acc.2 acc'.2)
    · exact .refl hdl _
    · intro acc' hAcc' entry _
      exact hAcc'.trans (expireEntry_shrinks now _ acc' entry)
  exact
    ⟨hLoop.pending,
      hLoop.deadlines.trans
        (NestedMap.shrinks_pruneAt perConn.1 _)⟩

theorem expire_shrinks (now : TimePoint) (t : RequestTable) :
    Shrinks hdl t (t.expire now).2 := by
  unfold expire
  apply
    List.foldlRecOn
      (motive := fun acc : List Completion × RequestTable =>
        Shrinks hdl t acc.2)
  · exact .refl hdl t
  · intro acc hAcc perConn _
    exact hAcc.trans (expireConnection_shrinks now acc perConn)

/- A registration adds no request but its own. -/
theorem register_absent
    {requestId id : UInt32}
    {promise : PromiseId}
    {deadline : Option TimePoint}
    {t : RequestTable}
    (hOther : id ≠ requestId)
    (hPending : t.pendingAt hdl id = none)
    (hDeadline : t.deadlineAt hdl id = none) :
    (t.register hdl requestId promise deadline).pendingAt hdl
          id = none ∧
      (t.register hdl requestId promise deadline).deadlineAt hdl
          id = none := by
  have hNot : ¬ (hdl = hdl ∧ id = requestId) :=
    fun hBoth => hOther hBoth.2
  constructor
  · exact
      (NestedMap.lookupAt_insertAt _ _ _ _ _ _).trans
        ((if_neg hNot).trans hPending)
  · cases deadline with
    | none => exact hDeadline
    | some deadline =>
        exact
          (NestedMap.lookupAt_insertAt _ _ _ _ _ _).trans
            ((if_neg hNot).trans hDeadline)

end RequestTable

/- Every section but a registration on the connection. -/
theorem RequestSection.shrinks
    {hdl : Hdl}
    {s : RequestSection}
    (hOther :
      ∀ requestId promise deadline,
        s ≠ .registers hdl requestId promise deadline)
    (t : RequestTable) :
    RequestTable.Shrinks hdl t (s.apply t).2 := by
  cases s with
  | registers target requestId promise deadline =>
      have hTarget : target ≠ hdl := by
        intro hSame
        rw [hSame] at hOther
        exact hOther _ _ _ rfl
      refine ⟨NestedMap.shrinks_insertAt hTarget _ _ _, ?_⟩
      cases deadline with
      | none => exact .refl hdl _
      | some deadline =>
          exact NestedMap.shrinks_insertAt hTarget _ _ _
  | fails target requestId e =>
      exact
        ⟨(NestedMap.shrinks_eraseAt target requestId _).trans
            (NestedMap.shrinks_pruneAt target _),
          (NestedMap.shrinks_eraseAt target requestId _).trans
            (NestedMap.shrinks_pruneAt target _)⟩
  | responds target requestId response =>
      simp only [RequestSection.apply, RequestTable.respond]
      split
      · exact .refl hdl t
      · exact
          ⟨NestedMap.shrinks_eraseAt target requestId _,
            .refl hdl _⟩
  | expires now => exact RequestTable.expire_shrinks now t
  | closes target =>
      exact
        ⟨NestedMap.shrinks_erase target _,
          NestedMap.shrinks_erase target _⟩
  | stops =>
      exact
        ⟨⟨fun _ _ => rfl,
            fun _ => Std.ExtTreeMap.getElem?_empty⟩,
          ⟨fun _ _ => rfl,
            fun _ => Std.ExtTreeMap.getElem?_empty⟩⟩

namespace WsServer

------------------------------------------------------------
-- The Requests of a Connection
------------------------------------------------------------

/-
  A request is there while it is pending or has a deadline;
  down means that the connection is not stored.
-/
def requestsOf (hdl : Hdl) : Residue WsServer UInt32 where
  has w requestId :=
    ¬ (w.requests.pendingAt hdl requestId = none ∧
        w.requests.deadlineAt hdl requestId = none)
  lingers w :=
    ¬ (w.requests.pendingRequests[hdl]? = none ∧
        w.requests.requestDeadlines[hdl]? = none)
  down w := Unstored hdl w

/-
  The calls that make a request on the connection: the handle
  is given, or was found for the identity.
-/
def Requesting (hdl : Hdl) : ServerCall → Trace → Prop
| .method (.asyncRequest _ hdl' _ _), _ => hdl' = hdl
| .method (.asyncRequestToIdentity _ pk _), trace =>
    ∃ m ∈ trace, m.before.identities.lookup pk = .ok hdl
| _, _ => False

theorem Requesting.grows
    {hdl : Hdl}
    {k : ServerCall}
    {trace : Trace}
    (hRequesting : Requesting hdl k trace)
    (m : Transition WsServer ServerEffect) :
    Requesting hdl k (trace ++ [m]) := by
  cases k with
  | stop => exact hRequesting
  | method method =>
      cases method with
      | asyncRequestToIdentity input pk payload =>
          rcases hRequesting with ⟨m', hMem, hFound⟩
          exact ⟨m', List.mem_append_left _ hMem, hFound⟩
      | _ => exact hRequesting

variable {S : Sodium}
variable {hdl : Hdl}

theorem quiet_of_shrinks
    {w w' : WsServer}
    {effects : List ServerEffect}
    (hShrinks :
      RequestTable.Shrinks hdl w.requests w'.requests) :
    Owners.Quiet (requestsOf hdl) w effects w' := by
  constructor
  · intro requestId hHas hNone
    exact
      hHas
        ⟨hShrinks.pending.entries requestId hNone.1,
          hShrinks.deadlines.entries requestId hNone.2⟩
  · intro hLingers hNone
    exact
      hLingers
        ⟨hShrinks.pending.outer hNone.1,
          hShrinks.deadlines.outer hNone.2⟩

/- Only a registration on the connection adds a request. -/
theorem quiet_of_move
    {may : May}
    {w w' : WsServer}
    {effects : List ServerEffect}
    (hMove : Move S may w effects w')
    (hNot :
      ∀ requestId promise deadline,
        ¬ may.requests
          (.registers hdl requestId promise deadline)) :
    Owners.Quiet (requestsOf hdl) w effects w' := by
  have hSame
      (hEq : w'.requests = w.requests) :
      Owners.Quiet (requestsOf hdl) w effects w' := by
    apply quiet_of_shrinks
    rw [hEq]
    exact .refl hdl _
  cases hMove with
  | requests hMay =>
      apply quiet_of_shrinks
      apply RequestSection.shrinks
      intro requestId promise deadline hRegisters
      rw [hRegisters] at hMay
      exact hNot _ _ _ hMay
  | registers registration callback _ =>
      cases registration <;> exact hSame rfl
  | receives _ hWithin =>
      apply hSame
      rw [hWithin.state]
  | closesSessions _ =>
      apply hSame
      rw [(closeSession_frame false _ _).2.2.2.2.2]
      exact (closeSession_frame true _ _).2.2.2.2.2
  | _ => exact hSame rfl

/- No event registers a request. -/
theorem event_quiet (event : IoEvent) :
    Ensures (Owners.Quiet (requestsOf hdl))
      (handle S event.val) := by
  refine (handle_moves S event.val).mono ?_
  intro w effects w' hMove
  apply quiet_of_move hMove
  intro requestId promise deadline hMay
  rcases event with ⟨event, hIo⟩
  cases event with
  | message =>
      rcases hMay with ⟨_, _, hEq⟩
      cases hEq
  | opened => exact hMay
  | closed => cases hMay
  | timeouts => cases hMay
  | call method => cases hIo

------------------------------------------------------------
-- Withdrawing a Request
------------------------------------------------------------

/- `async_request` from its call of `send`. -/
def sendRegistered
    (S : Sodium)
    (input : RequestInput)
    (hdl : Hdl)
    (requestId : UInt32)
    (request : Payload) : ServerAction PromiseId := do
  Action.catchAll (send S input.nonce hdl request)
    (fun e => do
      requestSection (fun t => t.fail hdl requestId e)
      Action.throw e)
  return input.promise

/- The failed request is gone, and what is left has entries. -/
theorem fail_clears
    (hdl : Hdl)
    (requestId : UInt32)
    (e : Exception)
    (w : WsServer) :
    let w' :=
      { w with requests := (w.requests.fail hdl requestId e).2 }
    ¬ (requestsOf hdl).has w' requestId ∧
      ((requestsOf hdl).lingers w' →
        ∃ id, (requestsOf hdl).has w' id) := by
  refine ⟨fun hHas => hHas ⟨?_, ?_⟩, fun hLingers => ?_⟩
  · simp [RequestTable.pendingAt, RequestTable.fail,
      NestedMap.lookupAt_pruneAt, NestedMap.lookupAt_eraseAt]
  · simp [RequestTable.deadlineAt, RequestTable.fail,
      NestedMap.lookupAt_pruneAt, NestedMap.lookupAt_eraseAt]
  · rcases not_and_or.mp hLingers with hPending | hDeadline
    · rcases NestedMap.exists_of_pruneAt hPending with
        ⟨id, hFound⟩
      exact ⟨id, fun hNone => hFound hNone.1⟩
    · rcases NestedMap.exists_of_pruneAt hDeadline with
        ⟨id, hFound⟩
      exact ⟨id, fun hNone => hFound hNone.2⟩

variable (S)

/- Without a stored session the send fails. -/
theorem send_unstored
    {w : WsServer}
    (hUnstored : Unstored hdl w)
    (nonce : Nonce)
    (payload : Payload) :
    w.sessionTable.send S nonce hdl payload =
      (.error (.logicError
        "Session not ready for sending data."),
        w.sessionTable) := by
  rcases SessionTable.send_cases S nonce hdl payload
      w.sessionTable with
    hRefused | ⟨isAuth, state, _, hStored, _, _⟩
  · exact hRefused
  · rw [hUnstored isAuth] at hStored
    cases hStored

theorem sendRegistered_withdraws
    (input : RequestInput)
    (requestId : UInt32)
    (request : Payload) :
    Withdraws (requestsOf hdl) requestId
      (sendRegistered S input hdl requestId request) := by
  refine Withdraws.bind ?_ _
  refine .step (fun w hDown => ?_)
  simp only [send_unstored S hDown]
  exact
    .removes (fun v => (fail_clears hdl requestId _ v).1)
      (fun v => (fail_clears hdl requestId _ v).2)

------------------------------------------------------------
-- Calls
------------------------------------------------------------

/- A step of a method that makes no request on `hdl`. -/
def Unrequesting
    (hdl : Hdl)
    (w : WsServer)
    (effects : List ServerEffect)
    (w' : WsServer) : Prop :=
  Owners.Quiet (requestsOf hdl) w effects w' ∧
    (Unstored hdl w' → Unstored hdl w)

theorem moves_unrequesting
    {may : May}
    {α : Type}
    {act : ServerAction α}
    (hAct : Moves S may act)
    (hPlain : may.Plain)
    (hNot :
      ∀ requestId promise deadline,
        ¬ may.requests
          (.registers hdl requestId promise deadline)) :
    Ensures (Unrequesting hdl) act :=
  hAct.mono
    (fun _ _ _ hMove =>
      ⟨quiet_of_move hMove hNot,
        ((Move.sendStep hMove hPlain).onlySends.linked
          hdl).stored.mp⟩)

theorem unrequesting_careful
    {k : ServerCall}
    {α : Type}
    {act : ServerAction α}
    (hAct : Ensures (Unrequesting hdl) act)
    (trace : Trace) :
    Careful (requestsOf hdl) (Requesting hdl k) trace act :=
  .of_ensures
    (hAct.mono (fun _ _ _ hStep => ⟨hStep.1, fun _ => hStep.2⟩))
    trace

theorem sendRegistered_careful
    {k : ServerCall}
    (input : RequestInput)
    (requestId : UInt32)
    (request : Payload)
    (trace : Trace) :
    Careful (requestsOf hdl) (Requesting hdl k) trace
      (sendRegistered S input hdl requestId request) := by
  apply unrequesting_careful
  have hMoves :
      Moves S
        { requests := fun s => ∃ e, s = .fails hdl requestId e }
        (sendRegistered S input hdl requestId request) := by
    refine .bind (.catchAll (send_moves S _ _ _) ?_) ?_
    · intro e
      refine .bind (Ensures.atomic (fun w => ?_)) ?_
      · exact .requests (s := .fails hdl requestId e) ⟨e, rfl⟩
      · exact fun _ => .throw e
    · exact fun _ => .pure _
  refine moves_unrequesting S hMoves ?_ ?_
  · constructor <;> simp
  · rintro _ _ _ ⟨e, hEq⟩
    cases hEq

theorem asyncRequest_careful
    {k : ServerCall}
    {trace : Trace}
    (hRequesting :
      ∀ more, Requesting hdl k (trace ++ more))
    (input : RequestInput)
    (payload : Payload)
    (timeoutMs : UInt32) :
    Careful (requestsOf hdl) (Requesting hdl k) trace
      (asyncRequest S input hdl payload timeoutMs) := by
  refine Careful.get_bind (fun w => ?_)
  split
  · exact .done _ _
  · refine
      Careful.quiet_bind
        (fun w => ⟨fun _ hHas => hHas, fun hLeft => hLeft⟩)
        (fun _ _ hDown => hDown) ?_
    intro w' requestId _
    refine Careful.ofExcept_bind (fun request _ => ?_)
    refine
      Careful.adds_bind ?_ (fun v id hHas => ?_)
        (fun _ hDown => hDown) (fun _ => ⟨(), rfl⟩)
        (fun _ =>
          sendRegistered_withdraws S input requestId request)
        (fun _ trace =>
          sendRegistered_careful S input requestId request
            trace)
    · rw [List.append_assoc]
      exact hRequesting _
    · by_cases hSame : id = requestId
      · exact Or.inr hSame
      · refine Or.inl (fun hNone => hHas ?_)
        exact
          RequestTable.register_absent hSame hNone.1 hNone.2

/- A request on another connection. -/
theorem asyncRequest_elsewhere
    {k : ServerCall}
    {target : Hdl}
    (hOther : target ≠ hdl)
    (input : RequestInput)
    (payload : Payload)
    (timeoutMs : UInt32)
    (trace : Trace) :
    Careful (requestsOf hdl) (Requesting hdl k) trace
      (asyncRequest S input target payload timeoutMs) := by
  apply unrequesting_careful
  have hMoves :
      Moves S
        (PublicCall.asyncRequest input target payload
          timeoutMs).may
        (asyncRequest S input target payload timeoutMs) := by
    refine asyncRequest_moves S rfl ?_ ?_ input payload timeoutMs
    · exact fun _ _ _ => ⟨target, rfl, Or.inl ⟨_, _, _, rfl⟩⟩
    · exact fun _ _ => ⟨target, rfl, Or.inr ⟨_, _, rfl⟩⟩
  apply moves_unrequesting S hMoves (callMay_plain _)
  rintro _ _ _ ⟨found, hFound, ⟨_, _, _, hEq⟩ | ⟨_, _, hEq⟩⟩
  · cases hEq
    exact hOther hFound
  · cases hEq

/- The methods that make no request at all. -/
theorem other_careful
    (method : PublicCall)
    (hNone : ∀ hdl, ¬ method.requestsOn hdl) :
    Careful (requestsOf hdl)
      (Requesting hdl (.method method)) []
      (callCode S (.method method)) := by
  apply unrequesting_careful
  apply moves_unrequesting S (call_moves S method)
    (callMay_plain _)
  rintro _ _ _ ⟨found, hFound, _⟩
  exact hNone found hFound

theorem callCode_careful (k : ServerCall) :
    Careful (requestsOf hdl) (Requesting hdl k) []
      (callCode S k) := by
  cases k with
  | stop =>
      apply Careful.of_ensures
      refine (stop_moves S).mono ?_
      intro w effects w' hMove
      refine ⟨quiet_of_move hMove ?_, ?_⟩
      · intro _ _ _ hMay
        cases hMay
      · rintro ⟨_, hNever⟩
        exact hNever.elim
  | method method =>
      cases method with
      | asyncRequest input target payload timeoutMs =>
          apply Careful.bind_pure
          by_cases hOn : target = hdl
          · subst hOn
            refine
              asyncRequest_careful S (fun more => ?_) input
                payload timeoutMs
            rfl
          · exact
              asyncRequest_elsewhere S hOn input payload
                timeoutMs _
      | asyncRequestToIdentity input pk payload =>
          apply Careful.bind_pure
          refine Careful.get_bind (fun w => ?_)
          refine Careful.ofExcept_bind (fun target hFound => ?_)
          by_cases hOn : target = hdl
          · subst hOn
            refine
              asyncRequest_careful S (fun more => ?_) input
                payload 0
            refine ⟨⟨w, [], w⟩, ?_, hFound⟩
            exact
              List.mem_append_left _ (List.mem_singleton_self _)
          · exact
              asyncRequest_elsewhere S hOn input payload 0 _
      | _ => exact other_careful S _ (fun _ hNever => hNever)

end WsServer

end ObscuraProto
