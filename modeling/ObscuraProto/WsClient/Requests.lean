import ObscuraProto.RequestLifecycle
import ObscuraProto.WsClient.Pool

/-
  The pending requests of the client, as a table of promises.

  The client has one connection, so its requests are known by
  their ids alone.  As for the server, every section of the
  pending requests registers one promise or completes
  promises for a known reason, and no other code concerns
  them.

  Key definitions include:
    * `WsClient.requestView`, `WsClient.promiseOf`
    * `WsClient.mayCall`, `WsClient.mayEvent`

  Key theorems include:
    * `ClientRequestTable.section_settles`
    * `WsClient.asyncRequest_follows`
    * `WsClient.requests_obeyed`
-/

namespace ObscuraProto

open Effectful Threads OneShot RequestLifecycle

------------------------------------------------------------
-- Sections as Steps of a Table
------------------------------------------------------------

namespace ClientRequestTable

def pendingTable (t : ClientRequestTable) : Pending Unit where
  pending key := t.pendingRequests[key.2]?
  deadline key := t.requestDeadlines[key.2]?

theorem register_registers
    (requestId : UInt32)
    (promise : PromiseId)
    (deadline : Option TimePoint)
    (t : ClientRequestTable) :
    Registers ⟨((), requestId), promise, deadline⟩
      t.pendingTable
      (t.register requestId promise deadline).pendingTable where
  pending := Std.ExtTreeMap.getElem?_insert_self
  deadline := by
    cases deadline with
    | none => rfl
    | some deadline => exact Std.ExtTreeMap.getElem?_insert_self
  otherPending := by
    intro key hOther
    have hNot : key.2 ≠ requestId :=
      fun hSame => hOther (Prod.ext rfl hSame)
    exact OrderedMap.getElem?_insert_of_ne hNot _ _
  otherDeadline := by
    intro key hOther
    have hNot : key.2 ≠ requestId :=
      fun hSame => hOther (Prod.ext rfl hSame)
    cases deadline with
    | none => rfl
    | some deadline =>
        exact OrderedMap.getElem?_insert_of_ne hNot _ _

/-
  The section settles promises for a reason: its completions
  and the table after it.
-/
def SettlesTo
    (reason : Reason Unit)
    (t : ClientRequestTable)
    (completions : List Completion)
    (t' : ClientRequestTable) : Prop :=
  ∃ done : List (Completed Unit),
    Settles (reason.Explains t.pendingTable) t.pendingTable
        done t'.pendingTable ∧
      completions = done.map completionOf

/- One entry is completed, if it is pending, and erased. -/
theorem settles_single
    {why : Key Unit → Except Exception Payload → Prop}
    {requestId : UInt32}
    {result : Except Exception Payload}
    {t t' : ClientRequestTable}
    (hWhy : why ((), requestId) result)
    (hPending :
      t'.pendingRequests = t.pendingRequests.erase requestId)
    (hDeadlines :
      ∀ (id : UInt32) (d : TimePoint),
        t'.requestDeadlines[id]? = some d →
          t.requestDeadlines[id]? = some d) :
    ∃ done : List (Completed Unit),
      Settles why t.pendingTable done t'.pendingTable ∧
        done.map completionOf =
          (match t.pendingRequests[requestId]? with
            | none => []
            | some promise => [⟨promise, result⟩]) := by
  have hGone (key : Key Unit) :
      t'.pendingTable.pending key =
        if key = ((), requestId) then
          none
        else
          t.pendingTable.pending key := by
    simp only [pendingTable, hPending]
    by_cases hSame : key = ((), requestId)
    · subst hSame
      rw [if_pos rfl]
      exact Std.ExtTreeMap.getElem?_erase_self
    · have hNot : key.2 ≠ requestId :=
        fun hId => hSame (Prod.ext rfl hId)
      rw [if_neg hSame]
      exact OrderedMap.getElem?_erase_of_ne hNot _
  refine
    ⟨_, Settles.single hWhy hGone
      (fun key d hSome => hDeadlines key.2 d hSome), ?_⟩
  have hEntry :
      t.pendingTable.pending ((), requestId) =
        t.pendingRequests[requestId]? :=
    rfl
  rw [hEntry]
  cases t.pendingRequests[requestId]? <;> rfl

theorem fail_settles
    (requestId : UInt32)
    (message : String)
    (t : ClientRequestTable) :
    let o := t.fail requestId (.logicError message)
    SettlesTo (.failure () requestId message) t o.1 o.2 := by
  have hPending :
      (t.fail requestId (.logicError message)).2.pendingRequests =
        t.pendingRequests.erase requestId :=
    rfl
  have hWhy :
      (Reason.failure () requestId message).Explains
        t.pendingTable ((), requestId)
        (.error (.logicError message)) :=
    ⟨rfl, rfl⟩
  rcases settles_single hWhy hPending
      (fun _ _ hSome => (OrderedMap.of_getElem?_erase hSome).2)
    with ⟨done, hSettles, hDone⟩
  exact ⟨done, hSettles, hDone.symm⟩

theorem respond_settles
    (requestId : UInt32)
    (response : Payload)
    (t : ClientRequestTable) :
    let o := t.respond requestId response
    SettlesTo (.response () requestId response) t o.1
      o.2 := by
  dsimp only
  unfold respond
  cases hFound : t.pendingRequests[requestId]? with
  | none => exact ⟨[], .refl _, rfl⟩
  | some promise =>
      have hWhy :
          (Reason.response () requestId response).Explains
            t.pendingTable ((), requestId) (.ok response) :=
        ⟨rfl, rfl⟩
      let after : ClientRequestTable :=
        { t with
          pendingRequests :=
            t.pendingRequests.erase requestId }
      have hPending :
          after.pendingRequests =
            t.pendingRequests.erase requestId :=
        rfl
      rcases settles_single hWhy hPending
          (fun _ _ hSome => hSome) with
        ⟨done, hSettles, hDone⟩
      rw [hFound] at hDone
      exact ⟨done, hSettles, hDone.symm⟩

/- One step of the loop over the deadlines. -/
theorem expireEntry_settles
    {now : TimePoint}
    {t : ClientRequestTable}
    {acc : List Completion × ClientRequestTable}
    {entry : UInt32 × TimePoint}
    (hEntry : t.requestDeadlines[entry.1]? = some entry.2)
    (hAcc : SettlesTo (.expiry now) t acc.1 acc.2) :
    let acc' := expireEntry now acc entry
    SettlesTo (.expiry now) t acc'.1 acc'.2 := by
  dsimp only
  unfold expireEntry
  split
  · next hPassed =>
      rcases hAcc with ⟨done, hSettles, hCompletions⟩
      have hWhy :
          (Reason.expiry now).Explains t.pendingTable
            ((), entry.1)
            (.error (.timeoutError "Request timed out")) :=
        ⟨rfl, entry.2, hEntry, hPassed⟩
      let expired : ClientRequestTable :=
        { pendingRequests :=
            acc.2.pendingRequests.erase entry.1
          requestDeadlines :=
            acc.2.requestDeadlines.erase entry.1 }
      have hErased :
          expired.pendingRequests =
            acc.2.pendingRequests.erase entry.1 :=
        rfl
      rcases settles_single (t := acc.2) hWhy hErased
          (fun _ _ hSome =>
            (OrderedMap.of_getElem?_erase hSome).2) with
        ⟨done', hSettles', hDone⟩
      refine ⟨done ++ done', hSettles.trans hSettles', ?_⟩
      rw [List.map_append, hDone]
      exact congrArg (· ++ _) hCompletions
  · exact hAcc

theorem expire_settles
    (now : TimePoint)
    (t : ClientRequestTable) :
    let o := t.expire now
    SettlesTo (.expiry now) t o.1 o.2 := by
  have hStart : SettlesTo (.expiry now) t [] t :=
    ⟨[], .refl _, rfl⟩
  dsimp only
  unfold expire
  split
  · exact hStart
  · split
    · refine
        List.foldlRecOn
          (motive :=
            fun acc : List Completion × ClientRequestTable =>
              SettlesTo (.expiry now) t acc.1 acc.2)
          _ _ hStart ?_
      intro acc hAcc entry hMem
      apply expireEntry_settles ?_ hAcc
      rw [Std.ExtTreeMap.mem_toList_iff_getElem?_eq_some]
        at hMem
      exact hMem
    · exact hStart

theorem disconnect_settles (t : ClientRequestTable) :
    let o := t.disconnect
    SettlesTo (.ending "Client disconnected") t o.1 o.2 := by
  dsimp only
  have hEmpty (key : Key Unit) :
      t.disconnect.2.pendingTable.pending key = none :=
    Std.ExtTreeMap.getElem?_empty
  have hMem
      {request : UInt32 × PromiseId} :
      request ∈ t.pendingRequests.toList ↔
        t.pendingRequests[request.1]? = some request.2 :=
    Std.ExtTreeMap.mem_toList_iff_getElem?_eq_some
  refine
    ⟨t.pendingRequests.toList.map (fun request =>
      { key := ((), request.1)
        promise := request.2
        result :=
          .error (.runtimeError "Client disconnected") }),
      ?_, ?_⟩
  · refine
      { shrinks := ?_
        deadlines := ?_
        nodup := ?_
        settled := ?_
        removed := ?_ }
    · intro key promise hSome
      rw [hEmpty] at hSome
      cases hSome
    · intro key d hSome
      cases Std.ExtTreeMap.getElem?_empty.symm.trans hSome
    · unfold List.Nodup
      rw [List.map_map, List.pairwise_map]
      refine Std.ExtTreeMap.distinct_keys_toList.imp ?_
      intro request request' hDistinct hSame
      have hId : request.1 = request'.1 :=
        congrArg Prod.snd hSame
      rw [hId] at hDistinct
      exact hDistinct Std.ReflCmp.compare_self
    · intro s hSettled
      rcases List.mem_map.mp hSettled with
        ⟨request, hRequest, hSame⟩
      subst hSame
      exact ⟨hMem.mp hRequest, hEmpty _, rfl⟩
    · intro key promise hSome _
      have hRequest :
          (key.2, promise) ∈ t.pendingRequests.toList :=
        hMem.mpr hSome
      exact
        ⟨_, List.mem_map.mpr ⟨_, hRequest, rfl⟩, rfl⟩
  · simp [disconnect, completionOf, Function.comp_def]

/- The reason for which a section completes promises. -/
inductive Settling :
    ClientRequestSection → Reason Unit → Prop
| fails (requestId : UInt32) (message : String) :
    Settling (.fails requestId (.logicError message))
      (.failure () requestId message)
| responds (requestId : UInt32) (response : Payload) :
    Settling (.responds requestId response)
      (.response () requestId response)
| expires (now : TimePoint) :
    Settling (.expires now) (.expiry now)
| disconnects :
    Settling .disconnects (.ending "Client disconnected")

theorem section_settles
    {s : ClientRequestSection}
    {reason : Reason Unit}
    (hSettling : Settling s reason)
    (t : ClientRequestTable) :
    let o := s.apply t
    SettlesTo reason t o.1 o.2 := by
  cases hSettling with
  | fails requestId message =>
      exact fail_settles requestId message t
  | responds requestId response =>
      exact respond_settles requestId response t
  | expires now => exact expire_settles now t
  | disconnects => exact disconnect_settles t

end ClientRequestTable

namespace WsClient

------------------------------------------------------------
-- The Client
------------------------------------------------------------

def requestView : View WsClient ClientEffect Unit where
  table := fun w => w.requests.pendingTable
  nextRequestId := nextRequestId
  completion
  | .complete completion => some completion
  | _ => none

theorem completions_complete
    (completions : List Completion) :
    requestView.completions
        (completions.map ClientEffect.complete) =
      completions := by
  induction completions with
  | nil => rfl
  | cons completion rest ih =>
      simp only [View.completions, requestView,
        List.map_cons, List.filterMap_cons] at ih ⊢
      rw [ih]

theorem section_completes
    {s : ClientRequestSection}
    {reason : Reason Unit}
    (hSettling : ClientRequestTable.Settling s reason)
    (w : WsClient) :
    Completes requestView reason w
      ((s.apply w.requests).1.map ClientEffect.complete)
      { w with requests := (s.apply w.requests).2 } where
  table := by
    rcases
        ClientRequestTable.section_settles hSettling w.requests
      with ⟨done, hSettles, hCompletions⟩
    refine ⟨done, hSettles, ?_⟩
    rw [completions_complete]
    exact hCompletions
  nextRequestId := rfl

/- A move that takes no id edits requests in a section. -/
theorem ClientMove.requestStep
    {S : Sodium}
    {may : ClientMay}
    {w w' : WsClient}
    {effects : List ClientEffect}
    (hMove : ClientMove S may w effects w')
    (hTakes : ¬ may.takesRequestId) :
    Keeps requestView w effects w' ∨
      ∃ s, may.requests s ∧
        effects =
          (s.apply w.requests).1.map ClientEffect.complete ∧
        w' = { w with requests := (s.apply w.requests).2 } := by
  cases hMove with
  | requests hMay => exact Or.inr ⟨_, hMay, rfl, rfl⟩
  | takesRequestId hMay => exact absurd hMay hTakes
  | registers registration callback _ =>
      cases registration <;> exact Or.inl ⟨rfl, rfl, rfl⟩
  | _ => exact Or.inl ⟨rfl, rfl, rfl⟩

/- Code without a request completes for its reasons. -/
theorem ClientMove.serves
    {S : Sodium}
    {may : ClientMay}
    {reasons : Reason Unit → Prop}
    {w w' : WsClient}
    {effects : List ClientEffect}
    (hMove : ClientMove S may w effects w')
    (hTakes : ¬ may.takesRequestId)
    (hReasons :
      ∀ s, may.requests s →
        ∃ reason,
          ClientRequestTable.Settling s reason ∧
            reasons reason) :
    Serves requestView reasons w effects w' := by
  rcases ClientMove.requestStep hMove hTakes with
    hKeeps | ⟨s, hMay, hEffects, hState⟩
  · exact .keeps hKeeps
  · rcases hReasons s hMay with ⟨reason, hSettling, hReason⟩
    subst hEffects
    subst hState
    exact .completes hReason (section_completes hSettling w)

------------------------------------------------------------
-- Calls
------------------------------------------------------------

def promiseOf : ClientCall → Option PromiseId
| .method (.asyncRequest _ promise _ _ _) => some promise
| _ => none

def mayCall : ClientCall → Reason Unit → Prop
| .method called, reason =>
    called.isDisconnect = true ∧
      reason = .ending "Client disconnected"
| .watchdogPass now, reason => reason = .expiry now

/- A send concerns no request. -/
theorem plain_keeps
    {S : Sodium}
    {α : Type}
    {act : ClientAction α}
    (hAct : Moves S { encrypts := True } act) :
    Ensures (Keeps requestView) act := by
  refine hAct.mono ?_
  intro w effects w' hMove
  rcases ClientMove.requestStep hMove (fun hNever => hNever)
    with hKeeps | ⟨_, hNever, _⟩
  · exact hKeeps
  · exact hNever.elim

/- What `send` throws is always a `LogicError`. -/
theorem send_throws
    (S : Sodium)
    (nonce : Nonce)
    (payload : Payload) :
    Throws (fun e => ∃ message, e = .logicError message)
      (send S nonce payload) := by
  refine Throws.bind Throws.get (fun w => ?_)
  refine Throws.bind (Throws.ofExcept ?_) (fun _ => ?_)
  · intro e hError
    unfold checkSend at hError
    split at hError
    · cases hError
      exact ⟨_, rfl⟩
    · split at hError
      · cases hError
        exact ⟨_, rfl⟩
      · cases hError
  · exact
      Throws.catchAll (Throws.any _)
        (fun _ _ => Throws.pure ())

/- After the id is taken: register, send, maybe withdraw. -/
theorem taken_follows
    {S : Sodium}
    {requestId : UInt32}
    {promise : PromiseId}
    (nonce : Nonce)
    (request : Payload)
    (deadline : Option TimePoint) :
    Follows requestView promise (.taken requestId)
      (do
        requestSection (fun t =>
          ([], t.register requestId promise deadline))
        ensureWatchdog deadline
        Action.catchAll (send S nonce request)
          (fun e => do
            requestSection (fun t => t.fail requestId e)
            Action.throw e)
        return promise) := by
  have hRegisters (w : WsClient) :=
    ClientRequestTable.register_registers requestId promise
      deadline w.requests
  refine
    Follows.adds_bind (fun w => ⟨hRegisters w, rfl, rfl⟩) ?_
  intro _
  refine
    Follows.keeps_bind
      (plain_keeps (ensureWatchdog_moves S deadline)) ?_
  intro _
  refine Follows.bind_pure ?_ promise
  refine
    Follows.catchAll
      (plain_keeps (send_moves S trivial nonce request))
      (send_throws S nonce request) ?_
  rintro e ⟨message, hException⟩
  subst hException
  have hFails :=
    section_completes (.fails requestId message)
  exact .fails hFails (fun w => .done _ _)

theorem asyncRequest_follows
    (S : Sodium)
    (nonce : Nonce)
    (promise : PromiseId)
    (clock : TimePoint)
    (payload : Payload)
    (timeoutMs : UInt32) :
    Follows requestView promise .begun
      (asyncRequest S nonce promise clock payload
        timeoutMs) := by
  refine Follows.keeps_bind (plain_keeps (get_moves S)) ?_
  intro w
  split
  · exact .done _ _
  · refine
      Follows.takes_bind (fun w => ⟨rfl, rfl, rfl⟩) ?_
    intro w' requestId hTaken
    cases hTaken
    refine Follows.ofExcept_bind (fun request => ?_)
    exact taken_follows nonce request _

theorem request_follows
    (S : Sodium)
    (k : ClientCall)
    (promise : PromiseId)
    (hPromise : promiseOf k = some promise) :
    Follows requestView promise .begun (callCode S k) := by
  cases k with
  | watchdogPass now => cases hPromise
  | method called =>
      cases called with
      | asyncRequest nonce own clock payload timeoutMs =>
          cases hPromise
          exact
            Follows.bind_pure
              (asyncRequest_follows S nonce promise clock
                payload timeoutMs) ()
      | _ => cases hPromise

theorem call_serves
    (S : Sodium)
    (k : ClientCall)
    (hNone : promiseOf k = none) :
    Ensures (Serves requestView (mayCall k))
      (callCode S k) := by
  refine (callCode_moves S k).mono ?_
  intro w effects w' hMove
  cases k with
  | watchdogPass now =>
      refine ClientMove.serves hMove (fun hNever => hNever) ?_
      intro s hMay
      subst hMay
      exact ⟨_, .expires now, rfl⟩
  | method called =>
      have hNot : called.isRequest = false := by
        cases called with
        | asyncRequest => cases hNone
        | _ => rfl
      refine ClientMove.serves hMove ?_ ?_
      · intro hTakes
        cases hNot.symm.trans hTakes
      · rintro s (⟨hRequest, _⟩ | ⟨hDisconnect, hSection⟩)
        · cases hNot.symm.trans hRequest
        · subst hSection
          exact ⟨_, .disconnects, hDisconnect, rfl⟩

------------------------------------------------------------
-- Events
------------------------------------------------------------

/-
  A response is one that was read from a packet; any handler
  that fails disconnects.
-/
def mayEvent
    (S : Sodium)
    (event : ClientIoEvent)
    (trace : Trace)
    (reason : Reason Unit) : Prop :=
  reason = .ending "Client disconnected" ∨
    ∃ input frame requestId response,
      event.val = .message input frame ∧
        reason = .response () requestId response ∧
        Reads S frame.payload (.response requestId response)
          trace

theorem event_serves
    (S : Sodium)
    (event : ClientIoEvent) :
    Traces (fun _ => True)
      (fun trace =>
        Serves requestView (mayEvent S event trace))
      (fun _ => True) [] (handle S event.val) := by
  refine (handle_traces S event.val).mono ?_
  intro trace w effects w' hMove
  rcases event with ⟨event, hIo⟩
  cases event with
  | call called => cases hIo
  | watchdogPass now => cases hIo
  | opened input hdl =>
      refine ClientMove.serves hMove (fun hNever => hNever) ?_
      intro s hMay
      subst hMay
      exact ⟨_, .disconnects, Or.inl rfl⟩
  | message input frame =>
      refine ClientMove.serves hMove (fun hNever => hNever) ?_
      rintro s (hSection |
        ⟨requestId, response, hSection, hReads⟩)
      · subst hSection
        exact ⟨_, .disconnects, Or.inl rfl⟩
      · subst hSection
        exact
          ⟨_, .responds requestId response,
            Or.inr
              ⟨input, frame, requestId, response, rfl, rfl,
                hReads⟩⟩
  | closed input | failed input =>
      refine ClientMove.serves hMove (fun hNever => hNever) ?_
      exact fun s hNever => hNever.elim

theorem requests_obeyed (S : Sodium) :
    Obeys requestView (poolProgram S) promiseOf mayCall
      (mayEvent S) where
  noted := rfl
  request := request_follows S
  other := call_serves S
  event := event_serves S
  silent := by
    intro k conn requestId payload hMay
    cases k with
    | method called => cases hMay.2
    | watchdogPass now => cases hMay

theorem pool_fresh
    (serverSignKey : KeyPair)
    (config : Config)
    {hasOwner : Bool} :
    Obeys.Fresh requestView
      (pool (WsClient.new serverSignKey config hasOwner)) where
  pending := fun _ => Std.ExtTreeMap.getElem?_empty
  deadline := fun _ => Std.ExtTreeMap.getElem?_empty
  nextRequestId := rfl
  history := rfl
  calls := rfl
  events := rfl

end WsClient

end ObscuraProto
