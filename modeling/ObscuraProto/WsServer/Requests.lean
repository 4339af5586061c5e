import ObscuraProto.RequestLifecycle
import ObscuraProto.WsServer.Pool

/-
  The pending requests of the server, as a table of promises.

  Every section of the pending requests registers one promise
  or completes promises for a known reason, and no other code
  concerns them.

  Key definitions include:
    * `WsServer.pendingTable`, `WsServer.requestView`
    * `WsServer.promiseOf`
    * `WsServer.mayCall`, `WsServer.mayEvent`

  Key theorems include:
    * `RequestTable.expire_settles`
    * `WsServer.section_completes`
    * `WsServer.asyncRequest_follows`
    * `WsServer.requests_obeyed`
-/

namespace ObscuraProto

open Effectful Threads OneShot RequestLifecycle NestedMap

------------------------------------------------------------
-- Sections as Steps of a Table
------------------------------------------------------------

namespace RequestTable

/- The two nested maps, looked up by connection and id. -/
def pendingTable (t : RequestTable) : Pending Hdl where
  pending key := t.pendingAt key.1 key.2
  deadline key := t.deadlineAt key.1 key.2

theorem register_registers
    (hdl : Hdl)
    (requestId : UInt32)
    (promise : PromiseId)
    (deadline : Option TimePoint)
    (t : RequestTable) :
    Registers ⟨(hdl, requestId), promise, deadline⟩
      t.pendingTable
      (t.register hdl requestId promise deadline).pendingTable where
  pending := by
    simp [pendingTable, pendingAt, register,
      lookupAt_insertAt]
  deadline := by
    cases deadline with
    | none => rfl
    | some deadline =>
        simp [pendingTable, deadlineAt, register,
          lookupAt_insertAt]
  otherPending := by
    intro key hOther
    have hNot : ¬ (key.1 = hdl ∧ key.2 = requestId) :=
      fun hSame => hOther (Prod.ext hSame.1 hSame.2)
    simp only [pendingTable, pendingAt, register,
      lookupAt_insertAt, if_neg hNot]
  otherDeadline := by
    intro key hOther
    have hNot : ¬ (key.1 = hdl ∧ key.2 = requestId) :=
      fun hSame => hOther (Prod.ext hSame.1 hSame.2)
    cases deadline with
    | none => rfl
    | some deadline =>
        simp only [pendingTable, deadlineAt, register,
          lookupAt_insertAt, if_neg hNot]

/-
  The section settles promises for a reason: its completions
  and the table after it.
-/
def SettlesTo
    (reason : Reason Hdl)
    (t : RequestTable)
    (completions : List Completion)
    (t' : RequestTable) : Prop :=
  ∃ done : List (Completed Hdl),
    Settles (reason.Explains t.pendingTable) t.pendingTable
        done t'.pendingTable ∧
      completions = done.map completionOf

theorem deadlineAt_eraseAt
    {hdl hdl' : Hdl}
    {requestId id' : UInt32}
    {d : TimePoint}
    {m : NestedMap TimePoint}
    (hSome :
      lookupAt hdl' id' (eraseAt hdl requestId m) = some d) :
    lookupAt hdl' id' m = some d := by
  rw [lookupAt_eraseAt] at hSome
  split at hSome
  · cases hSome
  · exact hSome

/- One entry is completed, if it is pending, and erased. -/
theorem settles_single
    {why : Key Hdl → Except Exception Payload → Prop}
    {hdl : Hdl}
    {requestId : UInt32}
    {result : Except Exception Payload}
    {completions : List Completion}
    {t t' : RequestTable}
    (hWhy : why (hdl, requestId) result)
    (hPending :
      t'.pendingRequests =
          eraseAt hdl requestId t.pendingRequests ∨
        t'.pendingRequests =
          pruneAt hdl
            (eraseAt hdl requestId t.pendingRequests))
    (hDeadlines :
      ∀ hdl' id' d,
        t'.deadlineAt hdl' id' = some d →
          t.deadlineAt hdl' id' = some d)
    (hCompletions :
      completions =
        ((t.pendingAt hdl requestId).map
          (fun promise => ⟨promise, result⟩)).toList) :
    ∃ done : List (Completed Hdl),
      Settles why t.pendingTable done t'.pendingTable ∧
        completions = done.map completionOf := by
  have hGone (key : Key Hdl) :
      t'.pendingTable.pending key =
        if key = (hdl, requestId) then
          none
        else
          t.pendingTable.pending key := by
    have hLookup :
        lookupAt key.1 key.2 t'.pendingRequests =
          if key.1 = hdl ∧ key.2 = requestId then
            none
          else
            lookupAt key.1 key.2 t.pendingRequests := by
      rcases hPending with hErased | hPruned
      · rw [hErased, lookupAt_eraseAt]
      · rw [hPruned, lookupAt_pruneAt, lookupAt_eraseAt]
    simp only [pendingTable, pendingAt, hLookup]
    by_cases hSame : key = (hdl, requestId)
    · subst hSame
      simp
    · have hNot : ¬ (key.1 = hdl ∧ key.2 = requestId) :=
        fun hBoth => hSame (Prod.ext hBoth.1 hBoth.2)
      rw [if_neg hNot, if_neg hSame]
  refine
    ⟨_, Settles.single hWhy hGone
      (fun key d hSome => hDeadlines key.1 key.2 d hSome), ?_⟩
  have hEntry :
      t.pendingTable.pending (hdl, requestId) =
        t.pendingAt hdl requestId :=
    rfl
  rw [hCompletions, hEntry]
  cases t.pendingAt hdl requestId <;> rfl

theorem fail_settles
    (hdl : Hdl)
    (requestId : UInt32)
    (message : String)
    (t : RequestTable) :
    let o := t.fail hdl requestId (.logicError message)
    SettlesTo (.failure hdl requestId message) t o.1 o.2 := by
  refine settles_single ⟨rfl, rfl⟩ (Or.inr rfl) ?_ ?_
  · intro hdl' id' d hSome
    simp only [deadlineAt, fail, lookupAt_pruneAt] at hSome
    exact deadlineAt_eraseAt hSome
  · simp only [fail]
    cases t.pendingAt hdl requestId <;> rfl

theorem respond_settles
    (hdl : Hdl)
    (requestId : UInt32)
    (response : Payload)
    (t : RequestTable) :
    let o := t.respond hdl requestId response
    SettlesTo (.response hdl requestId response) t o.1
      o.2 := by
  dsimp only
  unfold respond
  cases hFound : t.pendingAt hdl requestId with
  | none => exact ⟨[], .refl _, rfl⟩
  | some promise =>
      refine
        settles_single ⟨rfl, rfl⟩ (Or.inl rfl)
          (fun _ _ _ hSome => hSome) ?_
      rw [hFound]
      rfl

------------------------------------------------------------
-- Expiry
------------------------------------------------------------

/- What the loops have done so far, starting from `t`. -/
def ExpiredTo
    (now : TimePoint)
    (t : RequestTable)
    (acc : List Completion × RequestTable) : Prop :=
  SettlesTo (.expiry now) t acc.1 acc.2

theorem expireEntry_settles
    {now : TimePoint}
    {hdl : Hdl}
    {t : RequestTable}
    {acc : List Completion × RequestTable}
    {entry : UInt32 × TimePoint}
    (hEntry : t.deadlineAt hdl entry.1 = some entry.2)
    (hAcc : ExpiredTo now t acc) :
    ExpiredTo now t (expireEntry now hdl acc entry) := by
  unfold expireEntry
  split
  · next hPassed =>
      rcases hAcc with ⟨done, hSettles, hCompletions⟩
      have hWhy :
          (Reason.expiry now).Explains t.pendingTable
            (hdl, entry.1)
            (.error (.timeoutError "Request timed out")) :=
        ⟨rfl, entry.2, hEntry, hPassed⟩
      let expired : RequestTable :=
        { pendingRequests :=
            eraseAt hdl entry.1 acc.2.pendingRequests
          requestDeadlines :=
            eraseAt hdl entry.1 acc.2.requestDeadlines }
      have hSingle :
          SettlesTo (.expiry now) t
            (acc.1 ++
              ((acc.2.pendingAt hdl entry.1).map
                (fun promise =>
                  ⟨promise,
                    .error
                      (.timeoutError
                        "Request timed out")⟩)).toList)
            expired := by
        have hErased :
            expired.pendingRequests =
              eraseAt hdl entry.1 acc.2.pendingRequests :=
          rfl
        rcases settles_single (t := acc.2) hWhy
            (Or.inl hErased)
            (fun _ _ _ hSome => deadlineAt_eraseAt hSome)
            rfl with
          ⟨done', hSettles', hCompletions'⟩
        refine ⟨done ++ done', hSettles.trans hSettles', ?_⟩
        rw [List.map_append, ← hCompletions, hCompletions']
      unfold ExpiredTo
      dsimp only
      cases hPending : acc.2.pendingAt hdl entry.1 with
      | none =>
          rw [hPending] at hSingle
          exact hSingle
      | some promise =>
          rw [hPending] at hSingle
          exact hSingle
  · exact hAcc

theorem expireConnection_settles
    {now : TimePoint}
    {t : RequestTable}
    {acc : List Completion × RequestTable}
    {perConn : Hdl × Map UInt32 TimePoint}
    (hInner :
      t.requestDeadlines[perConn.1]? = some perConn.2)
    (hAcc : ExpiredTo now t acc) :
    ExpiredTo now t (expireConnection now acc perConn) := by
  have hLoop :
      ExpiredTo now t
        (perConn.2.toList.foldl (expireEntry now perConn.1)
          acc) := by
    apply List.foldlRecOn (motive := ExpiredTo now t) _ _ hAcc
    intro acc' hAcc' entry hMem
    apply expireEntry_settles ?_ hAcc'
    rw [Std.ExtTreeMap.mem_toList_iff_getElem?_eq_some] at hMem
    simp only [deadlineAt, lookupAt, hInner, hMem]
  rcases hLoop with ⟨done, hSettles, hCompletions⟩
  refine ⟨done, ?_, hCompletions⟩
  exact
    { hSettles with
      deadlines := by
        intro key d hSome
        apply hSettles.deadlines key d
        simp only [pendingTable, deadlineAt, expireConnection,
          lookupAt_pruneAt] at hSome
        exact hSome }

theorem expire_settles
    (now : TimePoint)
    (t : RequestTable) :
    let o := t.expire now
    SettlesTo (.expiry now) t o.1 o.2 := by
  have hStart : ExpiredTo now t ([], t) :=
    ⟨[], .refl _, rfl⟩
  apply List.foldlRecOn (motive := ExpiredTo now t) _ _ hStart
  intro acc hAcc perConn hMem
  apply expireConnection_settles ?_ hAcc
  rw [Std.ExtTreeMap.mem_toList_iff_getElem?_eq_some] at hMem
  exact hMem

------------------------------------------------------------
-- Closing and Stopping
------------------------------------------------------------

/- The settled promises of one connection. -/
def failedAll
    (message : String)
    (hdl : Hdl)
    (requests : Map UInt32 PromiseId) :
    List (Completed Hdl) :=
  requests.toList.map (fun request =>
    { key := (hdl, request.1)
      promise := request.2
      result := .error (.runtimeError message) })

theorem failAll_eq
    (message : String)
    (hdl : Hdl)
    (requests : Map UInt32 PromiseId) :
    failAll (.runtimeError message) requests =
      (failedAll message hdl requests).map completionOf := by
  simp [failAll, failedAll, completionOf,
    Function.comp_def]

theorem mem_failedAll
    {message : String}
    {hdl : Hdl}
    {requests : Map UInt32 PromiseId}
    {s : Completed Hdl} :
    s ∈ failedAll message hdl requests ↔
      s.key.1 = hdl ∧ requests[s.key.2]? = some s.promise ∧
        s.result = .error (.runtimeError message) := by
  unfold failedAll
  rw [List.mem_map]
  constructor
  · rintro ⟨request, hMem, hSame⟩
    subst hSame
    exact
      ⟨rfl,
        Std.ExtTreeMap.mem_toList_iff_getElem?_eq_some.mp hMem,
        rfl⟩
  · rintro ⟨hHdl, hFound, hResult⟩
    refine
      ⟨(s.key.2, s.promise),
        Std.ExtTreeMap.mem_toList_iff_getElem?_eq_some.mpr
          hFound, ?_⟩
    rcases s with ⟨⟨hdl', id⟩, promise, result⟩
    cases hHdl
    cases hResult
    rfl

theorem failedAll_nodup
    (message : String)
    (hdl : Hdl)
    (requests : Map UInt32 PromiseId) :
    ((failedAll message hdl requests).map
      Settled.key).Nodup := by
  unfold failedAll List.Nodup
  rw [List.map_map, List.pairwise_map]
  refine
    Std.ExtTreeMap.distinct_keys_toList.imp ?_
  intro request request' hDistinct hSame
  have hId : request.1 = request'.1 :=
    congrArg Prod.snd hSame
  rw [hId] at hDistinct
  exact hDistinct Std.ReflCmp.compare_self

theorem close_settles
    (hdl : Hdl)
    (t : RequestTable) :
    let o := t.closeConnection hdl
    SettlesTo (.ending "Client disconnected") t o.1 o.2 := by
  dsimp only
  have hGone (key : Key Hdl) :
      (t.closeConnection hdl).2.pendingTable.pending key =
        if key.1 = hdl then
          none
        else
          t.pendingTable.pending key :=
    lookupAt_erase hdl key.1 key.2 _
  have hDeadlines
      (key : Key Hdl)
      (d : TimePoint)
      (hSome :
        (t.closeConnection hdl).2.pendingTable.deadline key =
          some d) :
      t.pendingTable.deadline key = some d := by
    have hErased :=
      lookupAt_erase hdl key.1 key.2 t.requestDeadlines
    rw [show lookupAt key.1 key.2 (t.requestDeadlines.erase hdl) =
      some d from hSome] at hErased
    split at hErased
    · cases hErased
    · exact hErased.symm
  cases hInner : t.pendingRequests[hdl]? with
  | none =>
      have hNone (id : UInt32) :
          t.pendingTable.pending (hdl, id) = none := by
        simp only [pendingTable, pendingAt, lookupAt, hInner]
      refine ⟨[], ?_, ?_⟩
      · refine
          { shrinks := ?_
            deadlines := hDeadlines
            nodup := List.nodup_nil
            settled := by simp
            removed := ?_ }
        · intro key promise hSome
          rw [hGone] at hSome
          split at hSome
          · cases hSome
          · exact hSome
        · intro key promise hSome hRemoved
          rw [hGone] at hRemoved
          split at hRemoved
          · next hHdl =>
              subst hHdl
              rw [hNone] at hSome
              cases hSome
          · rw [hSome] at hRemoved
            cases hRemoved
      · simp [closeConnection, hInner]
  | some requests =>
      have hFound (id : UInt32) :
          t.pendingTable.pending (hdl, id) = requests[id]? := by
        simp only [pendingTable, pendingAt, lookupAt, hInner]
      refine
        ⟨failedAll "Client disconnected" hdl requests, ?_, ?_⟩
      · refine
          { shrinks := ?_
            deadlines := hDeadlines
            nodup := failedAll_nodup _ hdl requests
            settled := ?_
            removed := ?_ }
        · intro key promise hSome
          rw [hGone] at hSome
          split at hSome
          · cases hSome
          · exact hSome
        · intro s hMem
          rcases mem_failedAll.mp hMem with
            ⟨hHdl, hPending, hResult⟩
          refine ⟨?_, ?_, hResult⟩
          · rw [← hFound, ← hHdl] at hPending
            exact hPending
          · rw [hGone, if_pos hHdl]
        · intro key promise hSome hRemoved
          rw [hGone] at hRemoved
          split at hRemoved
          · next hHdl =>
              subst hHdl
              refine
                ⟨⟨key, promise,
                  .error (.runtimeError "Client disconnected")⟩,
                  mem_failedAll.mpr ⟨rfl, ?_, rfl⟩, rfl⟩
              rw [← hFound]
              exact hSome
          · rw [hSome] at hRemoved
            cases hRemoved
      · simp only [closeConnection, hInner]
        exact failAll_eq _ hdl requests

theorem stop_settles (t : RequestTable) :
    let o := t.stop
    SettlesTo (.ending "Server is stopping") t o.1 o.2 := by
  dsimp only
  have hInner
      {hdl : Hdl}
      {requests : Map UInt32 PromiseId}
      (hMem : (hdl, requests) ∈ t.pendingRequests.toList) :
      t.pendingRequests[hdl]? = some requests :=
    Std.ExtTreeMap.mem_toList_iff_getElem?_eq_some.mp hMem
  have hEmpty (key : Key Hdl) :
      t.stop.2.pendingTable.pending key = none := by
    simp [pendingTable, pendingAt, stop, lookupAt]
  refine
    ⟨t.pendingRequests.toList.flatMap (fun perConn =>
        failedAll "Server is stopping" perConn.1 perConn.2),
      ?_, ?_⟩
  · refine
      { shrinks := ?_
        deadlines := ?_
        nodup := ?_
        settled := ?_
        removed := ?_ }
    · intro key promise hSome
      rw [hEmpty] at hSome
      cases hSome
    · intro key d hSome
      simp [pendingTable, deadlineAt, stop, lookupAt] at hSome
    · rw [List.map_flatMap, List.nodup_flatMap]
      refine ⟨fun _ _ => failedAll_nodup _ _ _, ?_⟩
      refine Std.ExtTreeMap.distinct_keys_toList.imp ?_
      intro perConn perConn' hDistinct key hLeft hRight
      rcases List.mem_map.mp hLeft with ⟨s, hMem, hKey⟩
      rcases List.mem_map.mp hRight with ⟨s', hMem', hKey'⟩
      have hHdl := (mem_failedAll.mp hMem).1
      have hHdl' := (mem_failedAll.mp hMem').1
      rw [hKey] at hHdl
      rw [hKey', hHdl] at hHdl'
      rw [hHdl'] at hDistinct
      exact hDistinct Std.ReflCmp.compare_self
    · intro s hMem
      rcases List.mem_flatMap.mp hMem with
        ⟨perConn, hConn, hFailed⟩
      rcases mem_failedAll.mp hFailed with
        ⟨hHdl, hPending, hResult⟩
      refine ⟨?_, hEmpty s.key, hResult⟩
      simp only [pendingTable, pendingAt, lookupAt]
      rw [hHdl, hInner hConn]
      exact hPending
    · intro key promise hSome _
      simp only [pendingTable, pendingAt, lookupAt] at hSome
      cases hFound : t.pendingRequests[key.1]? with
      | none =>
          rw [hFound] at hSome
          cases hSome
      | some requests =>
          rw [hFound] at hSome
          refine
            ⟨⟨key, promise,
              .error (.runtimeError "Server is stopping")⟩,
              List.mem_flatMap.mpr
                ⟨(key.1, requests), ?_,
                  mem_failedAll.mpr ⟨rfl, hSome, rfl⟩⟩,
              rfl⟩
          exact
            Std.ExtTreeMap.mem_toList_iff_getElem?_eq_some.mpr
              hFound
  · simp only [stop, List.map_flatMap, ← failAll_eq]


/- The reason for which a section completes promises. -/
inductive Settling :
    RequestSection → Reason Hdl → Prop
| fails (hdl : Hdl) (requestId : UInt32) (message : String) :
    Settling (.fails hdl requestId (.logicError message))
      (.failure hdl requestId message)
| responds
    (hdl : Hdl)
    (requestId : UInt32)
    (response : Payload) :
    Settling (.responds hdl requestId response)
      (.response hdl requestId response)
| expires (now : TimePoint) :
    Settling (.expires now) (.expiry now)
| closes (hdl : Hdl) :
    Settling (.closes hdl) (.ending "Client disconnected")
| stops : Settling .stops (.ending "Server is stopping")

theorem section_settles
    {s : RequestSection}
    {reason : Reason Hdl}
    (hSettling : Settling s reason)
    (t : RequestTable) :
    let o := s.apply t
    SettlesTo reason t o.1 o.2 := by
  cases hSettling with
  | fails hdl requestId message =>
      exact fail_settles hdl requestId message t
  | responds hdl requestId response =>
      exact respond_settles hdl requestId response t
  | expires now => exact expire_settles now t
  | closes hdl => exact close_settles hdl t
  | stops => exact stop_settles t

end RequestTable

namespace WsServer

------------------------------------------------------------
-- The Server
------------------------------------------------------------

def requestView : View WsServer ServerEffect Hdl where
  table := fun w => w.requests.pendingTable
  nextRequestId := nextRequestId
  completion
  | .complete completion => some completion
  | _ => none

theorem completions_complete
    (completions : List Completion) :
    requestView.completions
        (completions.map ServerEffect.complete) =
      completions := by
  induction completions with
  | nil => rfl
  | cons completion rest ih =>
      simp only [View.completions, requestView,
        List.map_cons, List.filterMap_cons] at ih ⊢
      rw [ih]

/- Closed connections complete no promise by that alone. -/
theorem completions_closes
    {effects : List ServerEffect}
    (hCloses :
      ∀ effect ∈ effects,
        ∃ hdl status reason,
          effect = .close hdl status reason) :
    requestView.completions effects = [] := by
  apply List.filterMap_eq_nil_iff.mpr
  intro effect hMem
  rcases hCloses effect hMem with ⟨hdl, status, reason, hSame⟩
  rw [hSame]
  rfl

theorem section_completes
    {s : RequestSection}
    {reason : Reason Hdl}
    (hSettling : RequestTable.Settling s reason)
    (w : WsServer) :
    Completes requestView reason w
      ((s.apply w.requests).1.map ServerEffect.complete)
      { w with requests := (s.apply w.requests).2 } where
  table := by
    rcases RequestTable.section_settles hSettling w.requests
      with ⟨done, hSettles, hCompletions⟩
    refine ⟨done, hSettles, ?_⟩
    rw [completions_complete]
    exact hCompletions
  nextRequestId := rfl

/- A move that takes no id edits requests in a section. -/
theorem Move.requestStep
    {S : Sodium}
    {may : May}
    {w w' : WsServer}
    {effects : List ServerEffect}
    (hMove : Move S may w effects w')
    (hTakes : ¬ may.takesRequestId) :
    RequestLifecycle.Keeps requestView w effects w' ∨
      ∃ s, may.requests s ∧
        effects =
          (s.apply w.requests).1.map ServerEffect.complete ∧
        w' = { w with requests := (s.apply w.requests).2 } := by
  cases hMove with
  | requests hMay => exact Or.inr ⟨_, hMay, rfl, rfl⟩
  | takesRequestId hMay => exact absurd hMay hTakes
  | closes hdls status reason =>
      refine Or.inl ⟨rfl, rfl, completions_closes ?_⟩
      simp
  | closesLate status reason late =>
      refine Or.inl ⟨rfl, rfl, completions_closes ?_⟩
      simp
  | stopsSessions _ hCloses =>
      exact Or.inl ⟨rfl, rfl, completions_closes hCloses⟩
  | receives _ hWithin =>
      refine Or.inl ⟨?_, ?_, completions_closes hWithin.closes⟩
      · rw [hWithin.state]
        rfl
      · rw [hWithin.state]
        rfl
  | registers registration callback _ =>
      cases registration <;> exact Or.inl ⟨rfl, rfl, rfl⟩
  | closesSessions _ =>
      have hFrame (isAuth : Bool) (hdl : Hdl) (w : WsServer) :
          RequestLifecycle.Keeps requestView w []
            (closeSession isAuth hdl w) := by
        unfold closeSession
        split <;> exact ⟨rfl, rfl, rfl⟩
      have hFirst := hFrame true ‹Hdl› w
      have hSecond :=
        hFrame false ‹Hdl› (closeSession true ‹Hdl› w)
      exact
        Or.inl
          ⟨hSecond.table.trans hFirst.table,
            hSecond.nextRequestId.trans hFirst.nextRequestId,
            rfl⟩
  | _ => exact Or.inl ⟨rfl, rfl, rfl⟩

/- Code without a request completes for its reasons. -/
theorem Move.serves
    {S : Sodium}
    {may : May}
    {reasons : Reason Hdl → Prop}
    {w w' : WsServer}
    {effects : List ServerEffect}
    (hMove : Move S may w effects w')
    (hTakes : ¬ may.takesRequestId)
    (hReasons :
      ∀ s, may.requests s →
        ∃ reason,
          RequestTable.Settling s reason ∧ reasons reason) :
    Serves requestView reasons w effects w' := by
  rcases Move.requestStep hMove hTakes with
    hKeeps | ⟨s, hMay, hEffects, hState⟩
  · exact .keeps hKeeps
  · rcases hReasons s hMay with ⟨reason, hSettling, hReason⟩
    subst hEffects
    subst hState
    exact .completes hReason (section_completes hSettling w)

theorem plain_keeps
    {S : Sodium}
    {α : Type}
    {act : ServerAction α}
    (hAct : Moves S {} act) :
    Ensures (RequestLifecycle.Keeps requestView) act := by
  refine hAct.mono ?_
  intro w effects w' hMove
  rcases Move.requestStep hMove (fun hNever => hNever) with
    hKeeps | ⟨_, hNever, _⟩
  · exact hKeeps
  · exact hNever.elim

------------------------------------------------------------
-- Calls
------------------------------------------------------------

def promiseOf : ServerCall → Option PromiseId
| .method (.asyncRequest input _ _ _) => some input.promise
| .method (.asyncRequestToIdentity input _ _) =>
    some input.promise
| _ => none

def mayCall : ServerCall → Reason Hdl → Prop
| .stop, reason => reason = .ending "Server is stopping"
| .method _, _ => False

/- After the id is taken: register, send, maybe withdraw. -/
theorem registered_follows
    {S : Sodium}
    {hdl : Hdl}
    {requestId : UInt32}
    {promise : PromiseId}
    (nonce : Nonce)
    (request : Payload) :
    Follows requestView promise (.registered hdl requestId)
      (Action.catchAll (send S nonce hdl request)
        (fun e => do
          requestSection (fun t => t.fail hdl requestId e)
          Action.throw e)) := by
  refine
    Follows.catchAll (plain_keeps (send_moves S nonce hdl request))
      (send_throws S nonce hdl request) ?_
  intro e hException
  subst hException
  have hFails :=
    section_completes (.fails hdl requestId
      "Session not ready for sending data.")
  exact .fails hFails (fun w => .done _ _)

theorem taken_follows
    {S : Sodium}
    {hdl : Hdl}
    {requestId : UInt32}
    {promise : PromiseId}
    (nonce : Nonce)
    (request : Payload)
    (deadline : Option TimePoint) :
    Follows requestView promise (.taken requestId)
      (do
        requestSection (fun t =>
          ([], t.register hdl requestId promise deadline))
        Action.catchAll (send S nonce hdl request)
          (fun e => do
            requestSection (fun t => t.fail hdl requestId e)
            Action.throw e)) := by
  have hRegisters (w : WsServer) :=
    RequestTable.register_registers hdl requestId promise
      deadline w.requests
  exact
    .adds (fun w => ⟨hRegisters w, rfl, rfl⟩)
      (fun _ => registered_follows nonce request)

theorem asyncRequest_follows
    (S : Sodium)
    (input : RequestInput)
    (hdl : Hdl)
    (payload : Payload)
    (timeoutMs : UInt32) :
    Follows requestView input.promise .begun
      (asyncRequest S input hdl payload timeoutMs) := by
  refine Follows.keeps_bind (plain_keeps (get_moves S)) ?_
  intro w
  split
  · exact .done _ _
  · refine
      Follows.takes_bind (fun w => ⟨rfl, rfl, rfl⟩) ?_
    intro w requestId hTaken
    cases hTaken
    refine Follows.ofExcept_bind (fun request => ?_)
    exact
      Follows.bind_pure
        (taken_follows input.nonce request _) input.promise

theorem request_follows
    (S : Sodium)
    (k : ServerCall)
    (promise : PromiseId)
    (hPromise : promiseOf k = some promise) :
    Follows requestView promise .begun (callCode S k) := by
  cases k with
  | stop => cases hPromise
  | method called =>
      cases called with
      | asyncRequest input hdl payload timeoutMs =>
          cases hPromise
          exact
            Follows.bind_pure
              (asyncRequest_follows S input hdl payload
                timeoutMs) ()
      | asyncRequestToIdentity input identityPk payload =>
          cases hPromise
          refine Follows.bind_pure ?_ ()
          refine
            Follows.keeps_bind (plain_keeps (get_moves S)) ?_
          intro w
          refine Follows.ofExcept_bind (fun hdl => ?_)
          exact asyncRequest_follows S input hdl payload 0
      | _ => cases hPromise

theorem call_serves
    (S : Sodium)
    (k : ServerCall)
    (hNone : promiseOf k = none) :
    Ensures (Serves requestView (mayCall k))
      (callCode S k) := by
  refine (callCode_moves S k).mono ?_
  intro w effects w' hMove
  cases k with
  | stop =>
      refine Move.serves hMove (fun hNever => hNever) ?_
      intro s hMay
      subst hMay
      exact ⟨_, .stops, rfl⟩
  | method called =>
      have hNot : called.isRequest = false := by
        cases called with
        | asyncRequest | asyncRequestToIdentity => cases hNone
        | _ => rfl
      refine Move.serves hMove ?_ ?_
      · intro hTakes
        cases hNot.symm.trans hTakes
      · rintro s ⟨hdl, hOn, _⟩
        cases called with
        | asyncRequest | asyncRequestToIdentity => cases hNot
        | _ => exact hOn.elim

------------------------------------------------------------
-- Events
------------------------------------------------------------

/-
  A response is one that was read from a packet opened on
  its connection.
-/
def mayEvent
    (S : Sodium)
    (event : IoEvent)
    (trace : Trace)
    (reason : Reason Hdl) : Prop :=
  match event.val with
  | .message _ hdl frame =>
      ∃ isAuth requestId response,
        reason = .response hdl requestId response ∧
          Reads S hdl frame.payload isAuth
            (.response requestId response) trace
  | .closed _ _ => reason = .ending "Client disconnected"
  | .timeouts input => reason = .expiry (input.clock 1)
  | _ => False

theorem event_serves
    (S : Sodium)
    (event : IoEvent) :
    Traces (fun _ => True)
      (fun trace =>
        Serves requestView (mayEvent S event trace))
      (fun _ => True) [] (handle S event.val) := by
  refine (handle_traces S event.val).mono ?_
  intro trace w effects w' hMove
  rcases event with ⟨event, hIo⟩
  cases event with
  | call called => cases hIo
  | opened input hdl =>
      refine Move.serves hMove (fun hNever => hNever) ?_
      exact fun s hNever => hNever.elim
  | message input hdl frame =>
      refine Move.serves hMove (fun hNever => hNever) ?_
      rintro s ⟨isAuth, requestId, response, hSection, hReads⟩
      subst hSection
      exact
        ⟨_, .responds hdl requestId response, isAuth,
          requestId, response, rfl, hReads⟩
  | closed input hdl =>
      refine Move.serves hMove (fun hNever => hNever) ?_
      intro s hMay
      subst hMay
      exact ⟨_, .closes hdl, rfl⟩
  | timeouts input =>
      refine Move.serves hMove (fun hNever => hNever) ?_
      intro s hMay
      subst hMay
      exact ⟨_, .expires (input.clock 1), rfl⟩

theorem requests_obeyed (S : Sodium) :
    Obeys requestView (poolProgram S) promiseOf mayCall
      (mayEvent S) where
  noted := rfl
  request := request_follows S
  other := call_serves S
  event := event_serves S
  silent := by
    intro k hdl requestId payload hMay
    cases k with
    | method called => exact hMay
    | stop => cases hMay

theorem pool_fresh
    (serverSignKey : KeyPair)
    (config : Config)
    {hasOwner : Bool} :
    Obeys.Fresh requestView
      (pool (WsServer.new serverSignKey config hasOwner)) where
  pending := by
    intro key
    simp [requestView, pool, WsServer.new,
      RequestTable.pendingTable, RequestTable.pendingAt,
      lookupAt]
  deadline := by
    intro key
    simp [requestView, pool, WsServer.new,
      RequestTable.pendingTable, RequestTable.deadlineAt,
      lookupAt]
  nextRequestId := rfl
  history := rfl
  calls := rfl
  events := rfl

end WsServer

end ObscuraProto
