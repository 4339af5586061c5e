import ObscuraProto.Library.Expiry
import ObscuraProto.WsClient.RequestTable
import ObscuraProto.WsServer.RequestTable

/-
  The expiry of requests on both sides.

  The server goes through the deadlines of every connection
  and drops the maps it has emptied, the client through its
  own deadlines once the earliest has passed.  Both passes
  expire exactly what is due, and for one connection they do
  the same.

  Key definitions include:
    * `RequestExpiry.serverView`, `RequestExpiry.clientView`
    * `RequestTable.deadlineRecords`
    * `RequestExpiry.SameRequests`

  Key theorems include:
    * `RequestTable.expire_swept`
    * `ClientRequestTable.expire_swept`
    * `RequestExpiry.request_expiry`
-/

namespace ObscuraProto

open Expiry

namespace RequestExpiry

------------------------------------------------------------
-- Views of the Tables
------------------------------------------------------------

def serverView :
    View (Hdl × UInt32) TimePoint PromiseId RequestTable where
  pending t k := t.pendingAt k.1 k.2
  deadline t k := t.deadlineAt k.1 k.2

def clientView :
    View UInt32 TimePoint PromiseId ClientRequestTable where
  pending t id := t.pendingRequests[id]?
  deadline t id := t.requestDeadlines[id]?

def due (now deadline : TimePoint) : Bool :=
  decide (deadline ≤ now)

def timedOut (promise : PromiseId) : Completion :=
  ⟨promise, .error (.timeoutError "Request timed out")⟩

theorem dueKeys_of_le
    {K : Type}
    {now deadline : TimePoint}
    (hDue : deadline ≤ now)
    (k : K) :
    dueKeys (due now) [(k, deadline)] = [k] := by
  simp [dueKeys, due, hDue]

theorem dueKeys_of_not_le
    {K : Type}
    {now deadline : TimePoint}
    (hLater : ¬ deadline ≤ now)
    (k : K) :
    dueKeys (due now) [(k, deadline)] = [] := by
  simpa [dueKeys, due] using hLater

/- The keys of a map are listed once each. -/
theorem nodup_map_fst_toList
    {K V : Type}
    [Ord K]
    [Std.TransOrd K]
    (m : Map K V) :
    (m.toList.map Prod.fst).Nodup := by
  rw [Std.ExtTreeMap.map_fst_toList_eq_keys]
  exact Std.ExtTreeMap.nodup_keys

end RequestExpiry

open RequestExpiry

------------------------------------------------------------
-- The Server
------------------------------------------------------------

namespace RequestTable

theorem expireEntry_swept
    (now : TimePoint)
    (hdl : Hdl)
    (entry : UInt32 × TimePoint)
    (acc : List Completion × RequestTable) :
    Swept serverView (due now) timedOut
      [((hdl, entry.1), entry.2)] acc
      (expireEntry now hdl acc entry) := by
  by_cases hDue : entry.2 ≤ now
  · have hKeys := dueKeys_of_le hDue (hdl, entry.1)
    rw [expireEntry, if_pos hDue]
    refine
      { completed := ?_
        pending := ?_
        deadline := ?_ }
    · rw [hKeys]
      change
        acc.1 ++ _ =
          acc.1 ++
            ([(hdl, entry.1)].filterMap
              (fun k => acc.2.pendingAt k.1 k.2)).map timedOut
      cases hPending : acc.2.pendingAt hdl entry.1 with
      | none => simp [hPending]
      | some promise => simp [hPending, timedOut]
    · rintro ⟨hdl', id'⟩
      rw [hKeys]
      have hErase :=
        NestedMap.lookupAt_eraseAt hdl hdl' entry.1 id'
          acc.2.pendingRequests
      simpa [serverView, pendingAt] using hErase
    · rintro ⟨hdl', id'⟩
      rw [hKeys]
      have hErase :=
        NestedMap.lookupAt_eraseAt hdl hdl' entry.1 id'
          acc.2.requestDeadlines
      simpa [serverView, deadlineAt] using hErase
  · rw [expireEntry, if_neg hDue]
    exact .refl (dueKeys_of_not_le hDue _) acc

/- The deadline records of one connection. -/
def connectionRecords
    (perConn : Hdl × Map UInt32 TimePoint) :
    List ((Hdl × UInt32) × TimePoint) :=
  perConn.2.toList.flatMap
    (fun entry => [((perConn.1, entry.1), entry.2)])

theorem map_fst_connectionRecords
    (perConn : Hdl × Map UInt32 TimePoint) :
    (connectionRecords perConn).map Prod.fst =
      (perConn.2.toList.map Prod.fst).map
        (fun id => (perConn.1, id)) := by
  rw [connectionRecords, List.map_flatMap, List.map_map,
    List.map_eq_flatMap]
  rfl

theorem expireConnection_swept
    (now : TimePoint)
    (perConn : Hdl × Map UInt32 TimePoint)
    (acc : List Completion × RequestTable) :
    Swept serverView (due now) timedOut
      (connectionRecords perConn) acc
      (expireConnection now acc perConn) := by
  have hDistinct :
      ((connectionRecords perConn).map Prod.fst).Nodup := by
    rw [map_fst_connectionRecords]
    apply (nodup_map_fst_toList perConn.2).map
    intro id id' hSame
    cases hSame
    rfl
  have hLoop :
      Swept serverView (due now) timedOut
        (connectionRecords perConn) acc
        (perConn.2.toList.foldl (expireEntry now perConn.1)
          acc) := by
    apply Swept.foldl _ hDistinct
    intro entry _ acc
    exact expireEntry_swept now perConn.1 entry acc
  refine hLoop.congr ?_ ?_ ?_
  · rfl
  · intro k
    rfl
  · intro k
    exact NestedMap.lookupAt_pruneAt _ _ _ _

def deadlineRecords (t : RequestTable) :
    List ((Hdl × UInt32) × TimePoint) :=
  t.requestDeadlines.toList.flatMap connectionRecords

/- They are all records of the table, each once. -/
theorem lists_deadlineRecords (t : RequestTable) :
    Lists serverView t t.deadlineRecords where
  mem_iff := by
    rintro ⟨hdl, id⟩ d
    simp only [deadlineRecords, connectionRecords,
      List.mem_flatMap, List.mem_singleton, Prod.mk.injEq,
      serverView, deadlineAt, NestedMap.lookupAt]
    constructor
    · rintro ⟨⟨hdl', inner⟩, hInner, ⟨id', d'⟩, hMem, hSame⟩
      rcases hSame with ⟨⟨hHdl, hId⟩, hDeadline⟩
      rw [Std.ExtTreeMap.mem_toList_iff_getElem?_eq_some]
        at hInner hMem
      rw [hHdl, hId, hDeadline, hInner]
      exact hMem
    · intro hFound
      cases hInner : t.requestDeadlines[hdl]? with
      | none =>
          rw [hInner] at hFound
          cases hFound
      | some inner =>
          rw [hInner] at hFound
          refine
            ⟨(hdl, inner), ?_, (id, d), ?_, ⟨rfl, rfl⟩, rfl⟩
          · exact
              Std.ExtTreeMap.mem_toList_iff_getElem?_eq_some.mpr
                hInner
          · exact
              Std.ExtTreeMap.mem_toList_iff_getElem?_eq_some.mpr
                hFound
  distinct := by
    rw [deadlineRecords, List.map_flatMap,
      List.nodup_flatMap]
    refine ⟨?_, ?_⟩
    · intro perConn _
      rw [map_fst_connectionRecords]
      apply (nodup_map_fst_toList perConn.2).map
      intro id id' hSame
      cases hSame
      rfl
    · have hOuter :=
        nodup_map_fst_toList t.requestDeadlines
      rw [List.Nodup, List.pairwise_map] at hOuter
      apply hOuter.imp
      intro perConn other hOther
      refine List.disjoint_left.mpr ?_
      intro k hMem hBoth
      simp only [map_fst_connectionRecords, List.mem_map]
        at hMem hBoth
      rcases hMem with ⟨id, _, hFirst⟩
      rcases hBoth with ⟨id', _, hSecond⟩
      apply hOther
      exact
        (congrArg Prod.fst hFirst).trans
          (congrArg Prod.fst hSecond).symm

theorem expire_swept
    (now : TimePoint)
    (t : RequestTable) :
    Swept serverView (due now) timedOut t.deadlineRecords
      ([], t) (t.expire now) := by
  apply Swept.foldl _ t.lists_deadlineRecords.distinct
  intro perConn _ acc
  exact expireConnection_swept now perConn acc

end RequestTable

------------------------------------------------------------
-- The Client
------------------------------------------------------------

namespace ClientRequestTable

theorem expireEntry_swept
    (now : TimePoint)
    (entry : UInt32 × TimePoint)
    (acc : List Completion × ClientRequestTable) :
    Swept clientView (due now) timedOut [entry] acc
      (expireEntry now acc entry) := by
  by_cases hDue : entry.2 ≤ now
  · have hKeys := dueKeys_of_le hDue entry.1
    rw [expireEntry, if_pos hDue]
    refine
      { completed := ?_
        pending := ?_
        deadline := ?_ }
    · rw [hKeys]
      change
        acc.1 ++ _ =
          acc.1 ++
            ([entry.1].filterMap
              (fun id => acc.2.pendingRequests[id]?)).map
                timedOut
      cases hPending : acc.2.pendingRequests[entry.1]? with
      | none => simp [hPending]
      | some promise => simp [hPending, timedOut]
    · intro id
      rw [hKeys]
      simp only [clientView, List.mem_singleton]
      split
      · next hSame =>
          rw [hSame]
          exact Std.ExtTreeMap.getElem?_erase_self
      · next hOther =>
          exact OrderedMap.getElem?_erase_of_ne hOther _
    · intro id
      rw [hKeys]
      simp only [clientView, List.mem_singleton]
      split
      · next hSame =>
          rw [hSame]
          exact Std.ExtTreeMap.getElem?_erase_self
      · next hOther =>
          exact OrderedMap.getElem?_erase_of_ne hOther _
  · rw [expireEntry, if_neg hDue]
    exact .refl (dueKeys_of_not_le hDue _) acc

/- The search for the earliest of some deadlines. -/
def earlier
    (found : Option TimePoint)
    (entry : UInt32 × TimePoint) : Option TimePoint :=
  match found with
  | none => some entry.2
  | some earliest =>
      if entry.2 < earliest then
        some entry.2
      else
        some earliest

/- What is found is no later than any of them. -/
theorem foldl_earlier_le
    (entries : List (UInt32 × TimePoint))
    (found : Option TimePoint) :
    (∀ d, found = some d →
        ∃ e, entries.foldl earlier found = some e ∧ e ≤ d) ∧
      ∀ entry ∈ entries,
        ∃ e,
          entries.foldl earlier found = some e ∧
            e ≤ entry.2 := by
  induction entries generalizing found with
  | nil =>
      refine ⟨fun d hFound => ⟨d, hFound, Nat.le_refl d⟩, ?_⟩
      intro entry hMem
      cases hMem
  | cons first entries ih =>
      have hFirst :
          ∃ e, earlier found first = some e ∧
            e ≤ first.2 ∧ ∀ d, found = some d → e ≤ d := by
        unfold earlier
        split
        · exact
            ⟨first.2, rfl, Nat.le_refl _,
              fun d hNone => by cases hNone⟩
        · next earliest =>
            split
            · next hLess =>
                refine ⟨first.2, rfl, Nat.le_refl _, ?_⟩
                intro d hSome
                cases hSome
                exact Nat.le_of_lt hLess
            · next hNot =>
                refine
                  ⟨earliest, rfl, Nat.le_of_not_lt hNot, ?_⟩
                intro d hSome
                cases hSome
                exact Nat.le_refl _
      rcases hFirst with ⟨e, hNext, hLe, hBefore⟩
      rcases (ih _).1 e hNext with ⟨least, hLeast, hLower⟩
      rw [List.foldl_cons]
      refine ⟨?_, ?_⟩
      · intro d hFound
        exact
          ⟨least, hLeast, hLower.trans (hBefore d hFound)⟩
      · intro entry hMem
        rcases List.mem_cons.mp hMem with hHead | hRest
        · rw [hHead]
          exact ⟨least, hLeast, hLower.trans hLe⟩
        · exact (ih _).2 entry hRest

/- Nothing is due before the earliest deadline. -/
theorem dueKeys_eq_nil
    {now : TimePoint}
    {t : ClientRequestTable}
    (hNone :
      ∀ e, t.earliest = some e → now < e) :
    dueKeys (due now) t.requestDeadlines.toList = [] := by
  rw [dueKeys, List.map_eq_nil_iff, List.filter_eq_nil_iff]
  intro entry hMem
  rcases (foldl_earlier_le _ none).2 entry hMem with
    ⟨e, hEarliest, hLe⟩
  have hLater := hNone e hEarliest
  simp only [due, decide_eq_true_eq]
  exact Nat.not_le_of_lt (Nat.lt_of_lt_of_le hLater hLe)

theorem expire_swept
    (now : TimePoint)
    (t : ClientRequestTable) :
    Swept clientView (due now) timedOut
      t.requestDeadlines.toList ([], t) (t.expire now) := by
  unfold expire
  split
  · next hNone =>
      apply Swept.refl
      apply dueKeys_eq_nil
      intro e hSome
      rw [hNone] at hSome
      cases hSome
  · next earliest hEarliest =>
      split
      · have hRecords :
            t.requestDeadlines.toList.flatMap (fun e => [e]) =
              t.requestDeadlines.toList :=
          List.flatMap_singleton' _
        have hDistinct :=
          nodup_map_fst_toList t.requestDeadlines
        rw [← hRecords] at hDistinct
        have hLoop :=
          Swept.foldl
            (fun entry _ => expireEntry_swept now entry)
            hDistinct ([], t)
        rw [hRecords] at hLoop
        exact hLoop
      · next hLater =>
          apply Swept.refl
          apply dueKeys_eq_nil
          intro e hSome
          rw [hEarliest] at hSome
          cases hSome
          exact Nat.lt_of_not_le hLater

theorem lists_deadlines (t : ClientRequestTable) :
    Lists clientView t t.requestDeadlines.toList where
  mem_iff := fun _ _ =>
    Std.ExtTreeMap.mem_toList_iff_getElem?_eq_some
  distinct := nodup_map_fst_toList t.requestDeadlines

end ClientRequestTable

------------------------------------------------------------
-- One Connection
------------------------------------------------------------

namespace RequestExpiry

/- The server keeps for `hdl` alone what the client keeps. -/
structure SameRequests
    (hdl : Hdl)
    (s : RequestTable)
    (c : ClientRequestTable) : Prop where
  pending :
    ∀ id, s.pendingAt hdl id = c.pendingRequests[id]?
  deadline :
    ∀ id, s.deadlineAt hdl id = c.requestDeadlines[id]?
  others :
    ∀ other id, other ≠ hdl →
      s.pendingAt other id = none ∧
        s.deadlineAt other id = none

namespace SameRequests

variable {hdl : Hdl}
variable {s : RequestTable} {c : ClientRequestTable}

/- Another connection has no records. -/
theorem connectionRecords_other
    (hSame : SameRequests hdl s c)
    {perConn : Hdl × Map UInt32 TimePoint}
    (hMem : perConn ∈ s.requestDeadlines.toList)
    (hOther : perConn.1 ≠ hdl) :
    RequestTable.connectionRecords perConn = [] := by
  rcases perConn with ⟨other, inner⟩
  have hInner : s.requestDeadlines[other]? = some inner :=
    Std.ExtTreeMap.mem_toList_iff_getElem?_eq_some.mp hMem
  have hEmpty : inner = ∅ := by
    apply Std.ExtTreeMap.ext_getElem?
    intro id
    have hNone := (hSame.others other id hOther).2
    rw [RequestTable.deadlineAt, NestedMap.lookupAt,
      hInner] at hNone
    exact hNone.trans Std.ExtTreeMap.getElem?_empty.symm
  rw [hEmpty]
  rfl

/- The records of the server are those of the client. -/
theorem deadlineRecords_eq (hSame : SameRequests hdl s c) :
    s.deadlineRecords =
      c.requestDeadlines.toList.map
        (fun entry => ((hdl, entry.1), entry.2)) := by
  cases hInner : s.requestDeadlines[hdl]? with
  | none =>
      have hEmpty : c.requestDeadlines = ∅ := by
        apply Std.ExtTreeMap.ext_getElem?
        intro id
        rw [← hSame.deadline, RequestTable.deadlineAt,
          NestedMap.lookupAt, hInner]
        exact Std.ExtTreeMap.getElem?_empty.symm
      rw [hEmpty, RequestTable.deadlineRecords]
      apply List.flatMap_eq_nil_iff.mpr
      rintro ⟨other, inner⟩ hMem
      apply hSame.connectionRecords_other hMem
      rintro rfl
      rw [Std.ExtTreeMap.mem_toList_iff_getElem?_eq_some,
        hInner] at hMem
      cases hMem
  | some inner =>
      have hRecords : inner = c.requestDeadlines := by
        apply Std.ExtTreeMap.ext_getElem?
        intro id
        rw [← hSame.deadline, RequestTable.deadlineAt,
          NestedMap.lookupAt, hInner]
      have hMem : (hdl, inner) ∈ s.requestDeadlines.toList :=
        Std.ExtTreeMap.mem_toList_iff_getElem?_eq_some.mpr
          hInner
      have hKeys := nodup_map_fst_toList s.requestDeadlines
      rw [RequestTable.deadlineRecords]
      rcases List.mem_iff_append.mp hMem with
        ⟨pre, post, hSplit⟩
      rw [hSplit] at hKeys ⊢
      rw [List.map_append, List.map_cons,
        List.nodup_middle, List.nodup_cons] at hKeys
      have hOther
          {perConn : Hdl × Map UInt32 TimePoint}
          (hRest : perConn ∈ pre ++ post) :
          RequestTable.connectionRecords perConn = [] := by
        apply hSame.connectionRecords_other
        · rw [hSplit]
          rw [List.mem_append] at hRest
          rcases hRest with hPre | hPost
          · exact List.mem_append_left _ hPre
          · exact
              List.mem_append_right _
                (List.mem_cons_of_mem _ hPost)
        · intro hHdl
          apply hKeys.1
          rw [← List.map_append]
          exact List.mem_map.mpr ⟨perConn, hRest, hHdl⟩
      have hPre :
          pre.flatMap RequestTable.connectionRecords = [] :=
        List.flatMap_eq_nil_iff.mpr fun _ hRest =>
          hOther (List.mem_append_left _ hRest)
      have hPost :
          post.flatMap RequestTable.connectionRecords = [] :=
        List.flatMap_eq_nil_iff.mpr fun _ hRest =>
          hOther (List.mem_append_right _ hRest)
      rw [List.flatMap_append, List.flatMap_cons, hPre, hPost,
        List.append_nil, List.nil_append, hRecords,
        RequestTable.connectionRecords, List.map_eq_flatMap]

/- Both sides complete the same promises, in one order. -/
theorem completions
    (hSame : SameRequests hdl s c)
    (now : TimePoint) :
    (s.expire now).1 = (c.expire now).1 := by
  have hServer := (s.expire_swept now).completed
  have hClient := (c.expire_swept now).completed
  have hKeys :
      dueKeys (due now) s.deadlineRecords =
        (dueKeys (due now) c.requestDeadlines.toList).map
          (fun id => (hdl, id)) := by
    rw [hSame.deadlineRecords_eq, dueKeys, dueKeys,
      List.filter_map, List.map_map, List.map_map]
    rfl
  have hPending :
      serverView.pending s ∘ (fun id => (hdl, id)) =
        clientView.pending c := by
    funext id
    exact hSame.pending id
  rw [hServer, hClient, hKeys, List.filterMap_map, hPending]

/- And their tables agree afterwards. -/
theorem expire
    (hSame : SameRequests hdl s c)
    (now : TimePoint) :
    SameRequests hdl (s.expire now).2 (c.expire now).2 := by
  have hServer :=
    (s.expire_swept now).exact s.lists_deadlineRecords
  have hClient :=
    (c.expire_swept now).exact c.lists_deadlines
  have hDeadline (id : UInt32) :
      serverView.deadline s (hdl, id) =
        clientView.deadline c id :=
    hSame.deadline id
  refine
    { pending := ?_
      deadline := ?_
      others := ?_ }
  · intro id
    have hBefore := hServer.pending (hdl, id)
    have hAfter := hClient.pending id
    rw [← hDeadline] at hAfter
    refine hBefore.trans (Eq.trans ?_ hAfter.symm)
    have hPending :
        serverView.pending s (hdl, id) =
          clientView.pending c id :=
      hSame.pending id
    rw [hPending]
  · intro id
    have hBefore := hServer.deadline (hdl, id)
    have hAfter := hClient.deadline id
    rw [← hDeadline] at hAfter
    exact hBefore.trans hAfter.symm
  · intro other id hOther
    rcases hSame.others other id hOther with
      ⟨hPending, hRecord⟩
    have hNone : serverView.pending s (other, id) = none :=
      hPending
    have hUntimed :
        serverView.deadline s (other, id) = none :=
      hRecord
    have hPendingAfter := hServer.pending (other, id)
    have hRecordAfter := hServer.deadline (other, id)
    rw [hNone, ite_self] at hPendingAfter
    rw [hUntimed] at hRecordAfter
    exact ⟨hPendingAfter, hRecordAfter⟩

end SameRequests

/-
  A pass on either side completes with a `TimeoutError`
  exactly the requests whose deadline is past, once each,
  and removes exactly those and their records.  For a single
  connection both complete the same promises and leave the
  same requests and deadlines.
-/
theorem request_expiry (now : TimePoint) :
    (∀ s : RequestTable,
        Exact serverView (due now) timedOut s
          (s.expire now).1 (s.expire now).2) ∧
      (∀ c : ClientRequestTable,
        Exact clientView (due now) timedOut c
          (c.expire now).1 (c.expire now).2) ∧
        ∀ hdl s c,
          SameRequests hdl s c →
            (s.expire now).1 = (c.expire now).1 ∧
              SameRequests hdl (s.expire now).2
                (c.expire now).2 := by
  refine ⟨?_, ?_, ?_⟩
  · intro s
    exact (s.expire_swept now).exact s.lists_deadlineRecords
  · intro c
    exact (c.expire_swept now).exact c.lists_deadlines
  · intro hdl s c hSame
    exact ⟨hSame.completions now, hSame.expire now⟩

/- A request and its deadline, on both sides. -/
theorem request_expiry_one_request :
    let s := RequestTable.register 1 7 3 (some 10) {}
    let c := ClientRequestTable.register 7 3 (some 10) {}
    (s.expire 10).1 = (c.expire 10).1 ∧
      (s.expire 10).2.pendingAt 1 7 = none ∧
        (s.expire 9).2.pendingAt 1 7 = some 3 := by
  intro s c
  have hSame : SameRequests 1 s c := by
    refine
      { pending := ?_
        deadline := ?_
        others := ?_ }
    · intro id
      by_cases hId : id = 7
      · rw [hId]
        rfl
      · change _ = ((∅ : Map UInt32 PromiseId).insert 7 3)[id]?
        rw [OrderedMap.getElem?_insert_of_ne hId]
        exact
          (NestedMap.lookupAt_insertAt 1 1 7 id 3 ∅).trans
            (if_neg fun hBoth => hId hBoth.2)
    · intro id
      by_cases hId : id = 7
      · rw [hId]
        rfl
      · change
          _ = ((∅ : Map UInt32 TimePoint).insert 7 10)[id]?
        rw [OrderedMap.getElem?_insert_of_ne hId]
        exact
          (NestedMap.lookupAt_insertAt 1 1 7 id 10 ∅).trans
            (if_neg fun hBoth => hId hBoth.2)
    · intro other id hOther
      exact
        ⟨(NestedMap.lookupAt_insertAt 1 other 7 id 3 ∅).trans
          (if_neg fun hBoth => hOther hBoth.1),
        (NestedMap.lookupAt_insertAt 1 other 7 id 10 ∅).trans
          (if_neg fun hBoth => hOther hBoth.1)⟩
  refine ⟨?_, ?_, ?_⟩
  · exact ((request_expiry 10).2.2 1 s c hSame).1
  · exact ((request_expiry 10).1 s).pending (1, 7)
  · exact ((request_expiry 9).1 s).pending (1, 7)

end RequestExpiry

end ObscuraProto
