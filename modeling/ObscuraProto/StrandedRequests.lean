import ObscuraProto.Library.Owners
import ObscuraProto.WsClient.Requests

/-
  Requests of the client after its connection has ended.

  `async_request` checks that the client is connected, puts
  its promise into the table and checks once more when it
  sends.  A request that is in the table when the flag is
  cleared has no one to complete it, unless its call has yet
  to make the second check.

  Key definitions include:
    * `StrandedRequests.requests`
    * `StrandedRequests.Rechecked`
    * `StrandedRequests.Settled`

  Key theorems include:
    * `StrandedRequests.asyncRequest_careful`
    * `StrandedRequests.ending_exact`
    * `StrandedRequests.requests_settled`
    * `StrandedRequests.request_stranded`
-/

namespace ObscuraProto

namespace StrandedRequests

open Effectful Threads Owners WsClient

------------------------------------------------------------
-- Pending Requests and Their Calls
------------------------------------------------------------

/- The pending requests; down means not connected. -/
def requests : Residue WsClient UInt32 where
  has w requestId :=
    w.requests.pendingRequests[requestId]?.isSome = true
  lingers w :=
    ∃ requestId : UInt32,
      w.requests.pendingRequests[requestId]?.isSome = true
  down w := w.isConnected = false

/- The calls that make a request. -/
def Requests (k : ClientCall) (_ : Trace) : Prop :=
  (promiseOf k).isSome = true

/- `async_request` from its call of `send`. -/
def sendRegistered
    (S : Sodium)
    (nonce : Nonce)
    (promise : PromiseId)
    (requestId : UInt32)
    (request : Payload) : ClientAction PromiseId := do
  Action.catchAll (send S nonce request)
    (fun e => do
      requestSection (fun t => t.fail requestId e)
      Action.throw e)
  return promise

/- What follows the registration of a request. -/
def afterRegister
    (S : Sodium)
    (nonce : Nonce)
    (promise : PromiseId)
    (requestId : UInt32)
    (request : Payload)
    (deadline : Option TimePoint) : ClientAction PromiseId := do
  ensureWatchdog deadline
  sendRegistered S nonce promise requestId request

/-
  The call has registered the request and has yet to check
  the connection in `send`.
-/
inductive Unchecked
    (S : Sodium)
    (requestId : UInt32) : ClientAction Unit → Prop
| registered
    (nonce : Nonce)
    (promise : PromiseId)
    (request : Payload)
    (deadline : Option TimePoint) :
    Unchecked S requestId
      (afterRegister S nonce promise requestId request
          deadline >>= fun _ => pure ())
| sending
    (nonce : Nonce)
    (promise : PromiseId)
    (request : Payload) :
    Unchecked S requestId
      (sendRegistered S nonce promise requestId request >>=
        fun _ => pure ())

/- An `async_request` in progress has the check ahead. -/
def ToBeChecked
    (S : Sodium)
    (p : ClientPool)
    (requestId : UInt32) : Prop :=
  ∃ thread ∈ p.calls,
    Requests thread.call thread.trace ∧
      Unchecked S requestId thread.code

/- The step has made the request pending. -/
def Enters
    (requestId : UInt32)
    (m : Transition WsClient ClientEffect) : Prop :=
  m.before.requests.pendingRequests[requestId]? = none ∧
    m.after.requests.pendingRequests[requestId]?.isSome = true

/-
  The step has taken it out of the table: the request was
  answered, has timed out, was withdrawn or failed.
-/
def TakesOut
    (requestId : UInt32)
    (m : Transition WsClient ClientEffect) : Prop :=
  m.before.requests.pendingRequests[requestId]?.isSome =
      true ∧
    m.after.requests.pendingRequests[requestId]? = none

/-
  Every request that was made pending has been taken out
  since, or its call has yet to check the connection.
-/
def Rechecked (S : Sodium) (p : ClientPool) : Prop :=
  ∀ (requestId : UInt32) earlier m later,
    p.history = earlier ++ m :: later →
      Enters requestId m →
        (∃ n ∈ later, TakesOut requestId n) ∨
          ToBeChecked S p requestId

/- No `async_request` is in progress. -/
def Idle (p : ClientPool) : Prop :=
  ∀ thread ∈ p.calls, Requests thread.call thread.trace →
    thread.isDone = true

/-
  Nothing is pending, and every promise that has ever been
  pending was completed, if ids and promises were distinct.
-/
structure Settled (p : ClientPool) : Prop where
  pending :
    ∀ requestId : UInt32,
      p.shared.requests.pendingRequests[requestId]? = none
  completed :
    RequestLifecycle.Obeys.Distinct promiseOf p →
      ∀ m ∈ p.history, ∀ (requestId : UInt32) promise,
        m.after.requests.pendingRequests[requestId]? =
            some promise →
          ∃ result,
            ⟨promise, result⟩ ∈
              RequestLifecycle.completed requestView p.history

------------------------------------------------------------
-- Code That Makes No Request
------------------------------------------------------------

/- Promises are only taken out of the table. -/
theorem quiet_of_serves
    {reasons : RequestLifecycle.Reason Unit → Prop}
    {w w' : WsClient}
    {effects : List ClientEffect}
    (hServes :
      RequestLifecycle.Serves requestView reasons w effects
        w') :
    Quiet requests w effects w' := by
  have hShrinks
      (requestId : UInt32)
      (hHas : requests.has w' requestId) :
      requests.has w requestId := by
    have hTable
        (promise : PromiseId)
        (hSome :
          (requestView.table w').pending ((), requestId) =
            some promise) :
        (requestView.table w).pending ((), requestId) =
          some promise := by
      cases hServes with
      | keeps hKeeps =>
          rw [← hKeeps.table]
          exact hSome
      | completes _ hCompletes =>
          rcases hCompletes.table with ⟨_, hSettles, _⟩
          exact hSettles.shrinks _ _ hSome
    rcases Option.isSome_iff_exists.mp hHas with
      ⟨promise, hSome⟩
    exact Option.isSome_iff_exists.mpr
      ⟨promise, hTable promise hSome⟩
  exact
    ⟨hShrinks, fun ⟨requestId, hHas⟩ =>
      ⟨requestId, hShrinks requestId hHas⟩⟩

theorem other_careful
    (S : Sodium)
    (k : ClientCall)
    (hNone : promiseOf k = none) :
    Careful requests (Requests k) [] (callCode S k) := by
  apply Careful.of_ensures
  refine (call_serves S k hNone).mono ?_
  intro w effects w' hServes
  refine ⟨quiet_of_serves hServes, ?_⟩
  rintro ⟨_, hRequest⟩
  simp [Requests, hNone] at hRequest

theorem event_quiet
    (S : Sodium)
    (event : ClientIoEvent) :
    Ensures (Quiet requests) (handle S event.val) :=
  (event_serves S event).ensures
    (fun _ _ _ _ hServes => quiet_of_serves hServes)

------------------------------------------------------------
-- Code That Makes a Request
------------------------------------------------------------

/- Steps of a request that concern neither side. -/
theorem plain_quiet
    {S : Sodium}
    {α : Type}
    {act : ClientAction α}
    (hAct : Moves S { encrypts := True } act) :
    Ensures
      (fun w xs w' =>
        Quiet requests w xs w' ∧
          (requests.down w' → requests.down w)) act := by
  refine ((plain_keeps hAct).both hAct).mono ?_
  rintro w effects w' ⟨hKeeps, hMove⟩
  have hServes :
      RequestLifecycle.Serves requestView (fun _ => True) w
        effects w' :=
    .keeps hKeeps
  refine ⟨quiet_of_serves hServes, ?_⟩
  intro hDown
  cases hMove with
  | opens hdl hNever => exact hNever.elim
  | ends hNever => exact hNever.elim
  | releases hNever => exact hNever.elim
  | registers registration callback hNever => exact hNever.elim
  | _ => exact hDown

theorem fail_quiet
    (requestId : UInt32)
    (e : Exception)
    (w : WsClient) :
    ¬ requests.has
        { w with
          requests := (w.requests.fail requestId e).2 }
        requestId ∧
      Quiet requests w ([] : List ClientEffect)
        { w with
          requests := (w.requests.fail requestId e).2 } := by
  have hGone (id : UInt32) :
      (w.requests.fail requestId e).2.pendingRequests[id]? =
        if id = requestId then
          none
        else
          w.requests.pendingRequests[id]? := by
    have hErase :
        (w.requests.fail requestId e).2.pendingRequests =
          w.requests.pendingRequests.erase requestId :=
      rfl
    rw [hErase]
    split
    · next hSame =>
        rw [hSame]
        exact Std.ExtTreeMap.getElem?_erase_self
    · next hOther =>
        exact OrderedMap.getElem?_erase_of_ne hOther _
  have hShrinks
      (id : UInt32)
      (hHas :
        requests.has
          { w with
            requests := (w.requests.fail requestId e).2 } id) :
      requests.has w id := by
    simp only [requests, hGone] at hHas ⊢
    split at hHas
    · cases hHas
    · exact hHas
  refine ⟨?_, hShrinks, ?_⟩
  · intro hHas
    simp only [requests, hGone, if_pos] at hHas
    cases hHas
  · exact fun ⟨id, hHas⟩ => ⟨id, hShrinks id hHas⟩

variable (S : Sodium)

theorem refused_withdraws
    {e : Exception}
    {x : Except Exception Unit}
    (hRefused : x = .error e)
    (requestId : UInt32)
    (f : Unit → ClientAction Unit) :
    Withdraws requests requestId
      (Action.catchAll (Action.ofExcept x >>= f)
        (fun e => do
          requestSection (fun t => t.fail requestId e)
          Action.throw e)) := by
  subst hRefused
  exact
    .removes (fun w => (fail_quiet requestId e w).1)
      (fun _ hLeft => hLeft)

/- Without a connection, the send fails. -/
theorem send_withdraws
    (nonce : Nonce)
    (promise : PromiseId)
    (requestId : UInt32)
    (request : Payload) :
    Withdraws requests requestId
      (sendRegistered S nonce promise requestId request) := by
  refine Withdraws.bind ?_ _
  refine .step (fun w hDown => ?_)
  have hRefused :
      checkSend request w =
        .error (.logicError
          "Session not ready for sending data.") := by
    have hConnected : w.isConnected = false := hDown
    simp [checkSend, isReady, hConnected]
  exact refused_withdraws hRefused requestId _

theorem afterRegister_withdraws
    (nonce : Nonce)
    (promise : PromiseId)
    (requestId : UInt32)
    (request : Payload)
    (deadline : Option TimePoint) :
    Withdraws requests requestId
      (afterRegister S nonce promise requestId request
        deadline) := by
  have hNever : Throws (fun _ => False)
      (ensureWatchdog deadline) := by
    unfold ensureWatchdog
    split
    · exact .atomic (fun _ _ hError => by cases hError)
    · exact .pure ()
  exact
    Withdraws.after hNever (fun _ hFalse => hFalse)
      (fun _ => send_withdraws S nonce promise requestId request)

theorem unchecked_withdraws
    {requestId : UInt32}
    {code : ClientAction Unit}
    (hUnchecked : Unchecked S requestId code) :
    Withdraws requests requestId code := by
  cases hUnchecked with
  | registered nonce promise request deadline =>
      exact
        (afterRegister_withdraws S nonce promise requestId
          request deadline).bind _
  | sending nonce promise request =>
      exact
        (send_withdraws S nonce promise requestId
          request).bind _

theorem afterRegister_careful
    {k : ClientCall}
    (nonce : Nonce)
    (promise : PromiseId)
    (requestId : UInt32)
    (request : Payload)
    (deadline : Option TimePoint)
    (trace : Trace) :
    Careful requests (Requests k) trace
      (afterRegister S nonce promise requestId request
        deadline) := by
  apply Careful.of_ensures
  have hWatchdog :=
    plain_quiet
      (ensureWatchdog_moves S
        deadline : Moves S { encrypts := True } _)
  have hSend := plain_quiet (send_moves S trivial nonce request)
  have hBoth :
      Ensures
        (fun w xs w' =>
          Quiet requests w xs w' ∧
            (requests.down w' → requests.down w))
        (afterRegister S nonce promise requestId request
          deadline) := by
    refine .bind hWatchdog (fun _ => .bind ?_ (fun _ => .pure _))
    refine .catchAll hSend (fun e => .bind ?_ (fun _ => .throw _))
    refine Ensures.atomic (fun w => ?_)
    exact ⟨(fail_quiet requestId e w).2, fun hDown => hDown⟩
  exact
    hBoth.mono (fun _ _ _ hStep => ⟨hStep.1, fun _ => hStep.2⟩)

theorem asyncRequest_careful
    {k : ClientCall}
    (hRequest : (promiseOf k).isSome = true)
    (nonce : Nonce)
    (promise : PromiseId)
    (clock : TimePoint)
    (payload : Payload)
    (timeoutMs : UInt32) :
    Careful requests (Requests k) []
      (asyncRequest S nonce promise clock payload
        timeoutMs) := by
  refine Careful.get_bind (fun w => ?_)
  split
  · exact .done _ _
  · refine
      Careful.quiet_bind
        (fun w => ⟨fun _ hHas => hHas, fun hLeft => hLeft⟩)
        (fun _ _ hDown => hDown) ?_
    intro w' requestId _
    refine Careful.ofExcept_bind (fun request _ => ?_)
    refine
      Careful.adds_bind hRequest (fun w id hHas => ?_)
        (fun _ hDown => hDown) (fun w => ⟨(), rfl⟩)
        (fun _ =>
          afterRegister_withdraws S nonce promise requestId
            request _)
        (fun _ trace =>
          afterRegister_careful S nonce promise requestId
            request _ trace)
    by_cases hSame : id = requestId
    · exact Or.inr hSame
    · refine Or.inl ?_
      simp only [requests, ClientRequestTable.register] at hHas ⊢
      rw [OrderedMap.getElem?_insert_of_ne hSame] at hHas
      exact hHas

theorem callCode_careful (k : ClientCall) :
    Careful requests (Requests k) [] (callCode S k) := by
  cases hPromise : promiseOf k with
  | none => exact other_careful S k hPromise
  | some promise =>
      cases k with
      | watchdogPass now => cases hPromise
      | method called =>
          cases called with
          | asyncRequest nonce own clock payload timeoutMs =>
              exact
                (asyncRequest_careful S rfl nonce own clock
                  payload timeoutMs).bind_pure ()
          | _ => cases hPromise

------------------------------------------------------------
-- Runs
------------------------------------------------------------

/- The step clears the flag of the connection. -/
def Ends (p q : ClientPool) : Prop :=
  p.shared.isConnected = true ∧ q.shared.isConnected = false

/- A step that meets the condition where a connection ends. -/
def Heeds
    (p : ClientPool)
    (l : Label ClientCall ClientIoEvent)
    (q : ClientPool) : Prop :=
  PoolStep S p l q ∧ (Ends p q → Rechecked S p)

/- A step that ends a connection leaves the table alone. -/
def Spares
    (w : WsClient)
    (_ : List ClientEffect)
    (w' : WsClient) : Prop :=
  w.isConnected = true →
    w'.isConnected = false → w'.requests = w.requests

theorem spares_of_move
    {may : ClientMay}
    {w w' : WsClient}
    {effects : List ClientEffect}
    (hMove : ClientMove S may w effects w') :
    Spares w effects w' := by
  intro hBefore hAfter
  cases hMove with
  | registers registration callback _ =>
      cases registration <;> rfl
  | requests _ =>
      have hSame : w.isConnected = false := hAfter
      rw [hBefore] at hSame
      cases hSame
  | _ => rfl

theorem within_run
    {serverSignKey : KeyPair}
    {config : Config}
    {hasOwner : Bool}
    {labels : List (Label ClientCall ClientIoEvent)}
    {p : ClientPool}
    (hRun :
      StateMachine.Run (PoolStep S)
        (pool (.new serverSignKey config hasOwner)) labels p) :
    p.Within Spares := by
  refine
    hRun.invariant (P := fun p => p.Within Spares) ?_ ⟨?_, ?_⟩
  · intro p l q hWithin hStep
    refine hWithin.step (fun k => ?_) (fun event => ?_) hStep
    · exact
        (callCode_moves S k).mono
          (fun _ _ _ hMove => spares_of_move S hMove)
    · exact
        (handle_moves S event.val).mono
          (fun _ _ _ hMove => spares_of_move S hMove)
  · intro thread hThread
    cases hThread
  · intro thread hThread
    cases hThread

structure Inv (p : ClientPool) : Prop where
  calls :
    ∀ thread ∈ p.calls,
      Careful requests (Requests thread.call) thread.trace
        thread.code
  event :
    ∀ thread, p.events = some thread →
      Ensures (Quiet requests) thread.code
  owned :
    p.shared.isConnected = false → Owned requests Requests p

/- What is pending was entered and not taken out since. -/
theorem entered_of_pending
    {serverSignKey : KeyPair}
    {config : Config}
    {hasOwner : Bool}
    {labels : List (Label ClientCall ClientIoEvent)}
    {p : ClientPool}
    (hRun :
      StateMachine.Run (PoolStep S)
        (pool (.new serverSignKey config hasOwner)) labels p)
    {requestId : UInt32}
    (hPending :
      p.shared.requests.pendingRequests[requestId]?.isSome =
        true) :
    ∃ earlier m later,
      p.history = earlier ++ m :: later ∧
        Enters requestId m ∧
          ∀ n ∈ later, ¬ TakesOut requestId n := by
  induction hRun with
  | nil => simp [pool, WsClient.new] at hPending
  | @snoc p q labels l hBefore hStep ih =>
      rcases (within_run S hBefore).shared hStep with
        ⟨hShared, hHistory⟩ | ⟨effects, _, hNote⟩
      · rw [hShared] at hPending
        rw [hHistory]
        exact ih hPending
      · have hHistory :
            q.history =
              p.history ++ [⟨p.shared, effects, q.shared⟩] :=
          hNote
        cases hOld :
            p.shared.requests.pendingRequests[requestId]? with
        | none =>
            exact
              ⟨p.history, _, [], hHistory, ⟨hOld, hPending⟩,
                by simp⟩
        | some promise =>
            rcases ih (by rw [hOld]; rfl) with
              ⟨earlier, m, later, hSplit, hEnters, hKept⟩
            refine
              ⟨earlier, m,
                later ++ [⟨p.shared, effects, q.shared⟩], ?_,
                hEnters, ?_⟩
            · rw [hHistory, hSplit, List.append_assoc]
              rfl
            · intro n hMem hOut
              rcases List.mem_append.mp hMem with hIn | hNew
              · exact hKept n hIn hOut
              · cases List.mem_singleton.mp hNew
                have hGone := hOut.2
                dsimp only at hGone
                rw [hGone] at hPending
                cases hPending

/- What was entered has been taken out or is pending. -/
theorem pending_of_entered
    {serverSignKey : KeyPair}
    {config : Config}
    {hasOwner : Bool}
    {labels : List (Label ClientCall ClientIoEvent)}
    {p : ClientPool}
    (hRun :
      StateMachine.Run (PoolStep S)
        (pool (.new serverSignKey config hasOwner)) labels p)
    {requestId : UInt32}
    {earlier later : Trace}
    {m : Transition WsClient ClientEffect}
    (hSplit : p.history = earlier ++ m :: later)
    (hEnters : Enters requestId m) :
    (∃ n ∈ later, TakesOut requestId n) ∨
      p.shared.requests.pendingRequests[requestId]?.isSome =
        true := by
  induction hRun generalizing later with
  | nil => simp [pool] at hSplit
  | @snoc p q labels l hBefore hStep ih =>
      rcases (within_run S hBefore).shared hStep with
        ⟨hShared, hHistory⟩ | ⟨effects, _, hNote⟩
      · rw [hShared]
        exact ih (hHistory ▸ hSplit)
      · have hHistory :
            p.history ++ [⟨p.shared, effects, q.shared⟩] =
              earlier ++ m :: later :=
          hNote.symm.trans hSplit
        rcases List.eq_nil_or_concat later with
          hLast | ⟨before, n, hMore⟩
        · -- The request has just been entered.
          subst hLast
          have hSame :=
            (List.append_inj' hHistory rfl).2
          cases hSame
          exact Or.inr hEnters.2
        · subst hMore
          rw [List.concat_eq_append, ← List.cons_append,
            ← List.append_assoc] at hHistory
          rcases List.append_inj' hHistory rfl with
            ⟨hPast, hSame⟩
          cases hSame
          rcases ih hPast with ⟨n, hMem, hOut⟩ | hPending
          · exact
              Or.inl
                ⟨n, by simp [hMem], hOut⟩
          · cases hNow :
                q.shared.requests.pendingRequests[
                  requestId]? with
            | some promise => exact Or.inr rfl
            | none =>
                exact
                  Or.inl
                    ⟨⟨p.shared, effects, q.shared⟩, by simp,
                      hPending, hNow⟩

/- The condition, as it is seen in the state. -/
theorem rechecked_iff
    {serverSignKey : KeyPair}
    {config : Config}
    {hasOwner : Bool}
    {labels : List (Label ClientCall ClientIoEvent)}
    {p : ClientPool}
    (hRun :
      StateMachine.Run (PoolStep S)
        (pool (.new serverSignKey config hasOwner)) labels p) :
    Rechecked S p ↔
      ∀ requestId : UInt32,
        p.shared.requests.pendingRequests[requestId]?.isSome =
            true →
          ToBeChecked S p requestId := by
  constructor
  · intro hRechecked requestId hPending
    rcases entered_of_pending S hRun hPending with
      ⟨earlier, m, later, hSplit, hEnters, hKept⟩
    rcases hRechecked requestId earlier m later hSplit hEnters
      with ⟨n, hMem, hOut⟩ | hChecked
    · exact absurd hOut (hKept n hMem)
    · exact hChecked
  · intro hPending requestId earlier m later hSplit hEnters
    rcases pending_of_entered S hRun hSplit hEnters with
      hTaken | hNow
    · exact Or.inl hTaken
    · exact Or.inr (hPending requestId hNow)

theorem owned_of_rechecked
    {serverSignKey : KeyPair}
    {config : Config}
    {hasOwner : Bool}
    {labels : List (Label ClientCall ClientIoEvent)}
    {p : ClientPool}
    (hRun :
      StateMachine.Run (PoolStep S)
        (pool (.new serverSignKey config hasOwner)) labels p)
    (hRechecked : Rechecked S p) :
    Owned requests Requests p where
  entries := by
    intro requestId hHas
    rcases (rechecked_iff S hRun).mp hRechecked requestId hHas
      with ⟨thread, hThread, hRequest, hUnchecked⟩
    exact
      ⟨thread, hThread, hRequest,
        unchecked_withdraws S hUnchecked⟩
  rest := by
    rintro ⟨requestId, hHas⟩
    rcases (rechecked_iff S hRun).mp hRechecked requestId hHas
      with ⟨thread, hThread, hRequest, hUnchecked⟩
    exact
      ⟨thread, hThread, requestId, hRequest,
        unchecked_withdraws S hUnchecked⟩

theorem Inv.step
    {serverSignKey : KeyPair}
    {config : Config}
    {hasOwner : Bool}
    {labels : List (Label ClientCall ClientIoEvent)}
    {p q : ClientPool}
    {l : Label ClientCall ClientIoEvent}
    (hRun :
      StateMachine.Run (PoolStep S)
        (pool (.new serverSignKey config hasOwner)) labels p)
    (hInv : Inv p)
    (hStep : Heeds S p l q) :
    Inv q where
  calls :=
    careful_step (callCode_careful S) hInv.calls hStep.1
  event :=
    quiet_step (fun event => event_quiet S event) hInv.event
      hStep.1
  owned := by
    intro hDown
    have hBefore : Owned requests Requests p := by
      cases hConnected : p.shared.isConnected with
      | false => exact hInv.owned hConnected
      | true =>
          exact
            owned_of_rechecked S hRun
              (hStep.2 ⟨hConnected, hDown⟩)
    exact
      Owned.step (fun _ _ _ hOwn => hOwn) hInv.calls
        hInv.event hBefore hDown hStep.1

theorem inv_start
    (serverSignKey : KeyPair)
    (config : Config)
    {hasOwner : Bool} :
    Inv (pool (.new serverSignKey config hasOwner)) where
  calls := by
    intro thread hThread
    cases hThread
  event := by
    intro thread hThread
    cases hThread
  owned := by
    intro _
    have hNone (requestId : UInt32) :
        ¬ requests.has (WsClient.new serverSignKey config hasOwner)
          requestId := by
      simp [requests, WsClient.new]
    exact
      Owned.of_clear hNone
        (fun ⟨requestId, hHas⟩ => hNone requestId hHas)

theorem inv_run
    {serverSignKey : KeyPair}
    {config : Config}
    {hasOwner : Bool}
    {labels : List (Label ClientCall ClientIoEvent)}
    {p : ClientPool}
    (hRun :
      StateMachine.Run (Heeds S)
        (pool (.new serverSignKey config hasOwner)) labels p) :
    Inv p :=
  hRun.invariant_labels (P := fun _ p => Inv p)
    (fun _ _ _ _ hEarlier hBefore hStep =>
      hBefore.step S
        (hEarlier.mono (fun _ _ _ hHeeds => hHeeds.1)) hStep)
    (inv_start serverSignKey config)

------------------------------------------------------------
-- Completions
------------------------------------------------------------

/- Every promise that was pending still is or is completed. -/
def Followed (p : ClientPool) : Prop :=
  ∀ m ∈ p.history, ∀ (requestId : UInt32) promise,
    m.after.requests.pendingRequests[requestId]? =
        some promise →
      p.shared.requests.pendingRequests[requestId]? =
          some promise ∨
        ∃ result,
          ⟨promise, result⟩ ∈
            RequestLifecycle.completed requestView p.history

theorem followed
    {serverSignKey : KeyPair}
    {config : Config}
    {hasOwner : Bool}
    {labels : List (Label ClientCall ClientIoEvent)}
    {p : ClientPool}
    (hRun :
      StateMachine.Run (PoolStep S)
        (pool (.new serverSignKey config hasOwner)) labels p)
    (hDistinct : RequestLifecycle.Obeys.Distinct promiseOf p) :
    Followed p := by
  induction hRun with
  | nil =>
      intro m hMem
      cases hMem
  | @snoc p q labels l hBefore hStep ih =>
      have hPast :=
        ih
          (RequestLifecycle.Obeys.distinct_back hStep hDistinct)
      have hLawful :=
        (requests_obeyed S).lawful
          (pool_fresh serverSignKey config) hBefore hStep
          hDistinct
      rcases (within_run S hBefore).shared hStep with
        ⟨hShared, hHistory⟩ | ⟨effects, _, hNote⟩
      · intro m hMem requestId promise hPending
        rw [hHistory] at hMem ⊢
        rw [hShared]
        exact hPast m hMem requestId promise hPending
      · have hHistory :
            q.history =
              p.history ++ [⟨p.shared, effects, q.shared⟩] :=
          hNote
        have hCompleted :
            RequestLifecycle.completed requestView q.history =
              RequestLifecycle.completed requestView
                  p.history ++
                RequestLifecycle.completedSince requestView p
                  q := by
          simp [RequestLifecycle.completed,
            RequestLifecycle.completedSince,
            RequestLifecycle.View.completions, hHistory]
        intro m hMem requestId promise hPending
        rw [hCompleted]
        rw [hHistory] at hMem
        rcases List.mem_append.mp hMem with hOld | hNew
        · rcases hPast m hOld requestId promise hPending with
            hNow | ⟨result, hDone⟩
          · by_cases hStill :
                q.shared.requests.pendingRequests[requestId]? =
                  some promise
            · exact Or.inl hStill
            · rcases hLawful.leaves ((), requestId) promise
                  hNow hStill with
                ⟨result, hDone⟩
              exact
                Or.inr
                  ⟨result, List.mem_append_right _ hDone⟩
          · exact
              Or.inr ⟨result, List.mem_append_left _ hDone⟩
        · rw [List.mem_singleton.mp hNew] at hPending
          exact Or.inl hPending

------------------------------------------------------------
-- Where the Connection Has Ended
------------------------------------------------------------

/-
  While no request is being made, a connection that ends
  leaves nothing pending exactly under the condition.
-/
theorem ending_exact
    {serverSignKey : KeyPair}
    {config : Config}
    {hasOwner : Bool}
    {labels : List (Label ClientCall ClientIoEvent)}
    {l : Label ClientCall ClientIoEvent}
    {p q : ClientPool}
    (hRun :
      StateMachine.Run (PoolStep S)
        (pool (.new serverSignKey config hasOwner)) labels p)
    (hStep : PoolStep S p l q)
    (hEnds : Ends p q)
    (hIdle : Idle p) :
    (∀ requestId : UInt32,
        q.shared.requests.pendingRequests[requestId]? =
          none) ↔
      Rechecked S p := by
  have hKept : q.shared.requests = p.shared.requests := by
    rcases (within_run S hRun).shared hStep with
      ⟨hShared, _⟩ | ⟨effects, hSpares, _⟩
    · rw [hShared]
    · exact hSpares hEnds.1 hEnds.2
  rw [hKept]
  constructor
  · intro hNone
    apply (rechecked_iff S hRun).mpr
    intro requestId hSome
    rw [hNone requestId] at hSome
    cases hSome
  · intro hRechecked requestId
    have hClear :=
      ((owned_of_rechecked S hRun hRechecked).clear hIdle).1
        requestId
    simpa [requests] using hClear

/-
  In every run whose steps meet the condition where a
  connection ends, nothing is left of the requests wherever
  the client is not connected and no request is being made.
-/
theorem requests_settled
    (serverSignKey : KeyPair)
    (config : Config)
    {hasOwner : Bool}
    (labels : List (Label ClientCall ClientIoEvent))
    (p : ClientPool)
    (hRun :
      StateMachine.Run (Heeds S)
        (pool (.new serverSignKey config hasOwner)) labels p)
    (hEnded : p.shared.isConnected = false)
    (hIdle : Idle p) :
    Settled p := by
  have hClear :=
    (((inv_run S hRun).owned hEnded).clear hIdle).1
  have hNone (requestId : UInt32) :
      p.shared.requests.pendingRequests[requestId]? =
        none := by
    cases hSome :
        p.shared.requests.pendingRequests[requestId]? with
    | none => rfl
    | some promise =>
        apply absurd _ (hClear requestId)
        simp only [requests, hSome]
        rfl
  refine ⟨hNone, ?_⟩
  intro hDistinct m hMem requestId promise hPending
  have hPlain :=
    hRun.mono (fun _ _ _ hStep => hStep.1)
  rcases followed S hPlain hDistinct m hMem requestId promise
      hPending with hNow | hDone
  · rw [hNone] at hNow
    cases hNow
  · exact hDone

------------------------------------------------------------
-- A Request That Is Never Completed
------------------------------------------------------------

open PlainSodium

def noNonce : Nonce := .zero

/- The client connects, and the handshake is completed. -/
def ready : List (Label ClientCall ClientIoEvent) :=
  [.call (.method (.connect "" (.ok ())))] ++
    List.replicate 4 (.stepCall 0) ++ connected

/- A request whose future is the promise 7, with no timeout. -/
def requested : List (Label ClientCall ClientIoEvent) :=
  [ .call
      (.method
        (.asyncRequest noNonce 7 0
          { opCode := 9, parameters := [] } 0)) ] ++
    List.replicate 10 (.stepCall 1)

def remoteClose : List (Label ClientCall ClientIoEvent) :=
  .event ⟨.closed (smooth (sampleKx 1)), rfl⟩ ::
    List.replicate 4 .stepEvent

def localClose : List (Label ClientCall ClientIoEvent) :=
  .call (.method (.disconnect false)) ::
    List.replicate 8 (.stepCall 2)

/- The client after some steps. -/
def after
    (labels : List (Label ClientCall ClientIoEvent)) :
    ClientPool :=
  labels.foldl (Pool.exec (poolProgram plainSodium))
    (pool WsClient.sample)

theorem idle_of_all
    {p : ClientPool}
    (hAll : p.calls.all Thread.isDone = true) :
    Idle p :=
  fun thread hThread _ => List.all_eq_true.mp hAll thread hThread

/- A step that ends no connection with pending requests. -/
def Clears
    (p : ClientPool)
    (l : Label ClientCall ClientIoEvent) : Prop :=
  p.allowed l = true ∧
    (Ends p (p.exec (poolProgram plainSodium) l) →
      p.shared.requests.pendingRequests.isEmpty = true)

instance decidableClears
    (p : ClientPool)
    (l : Label ClientCall ClientIoEvent) :
    Decidable (Clears p l) :=
  inferInstanceAs
    (Decidable
      (p.allowed l = true ∧
        ((p.shared.isConnected = true ∧
            (p.exec (poolProgram plainSodium)
              l).shared.isConnected = false) →
          p.shared.requests.pendingRequests.isEmpty = true)))

theorem heeds_of_clears
    {labels : List (Label ClientCall ClientIoEvent)}
    {p : ClientPool}
    (hRun :
      StateMachine.Run
        (StateMachine.Guarded Clears
          (Pool.exec (poolProgram plainSodium)))
        (pool WsClient.sample) labels p) :
    StateMachine.Run (Heeds plainSodium)
      (pool WsClient.sample) labels p := by
  induction hRun with
  | nil => exact .nil _
  | @snoc p q labels l _ hStep ih =>
      rcases hStep with ⟨⟨hAllowed, hEmpty⟩, hNext⟩
      have hPlain :=
        ih.mono (fun _ _ _ (hHeeds : Heeds _ _ _ _) => hHeeds.1)
      refine ih.snoc ⟨⟨hAllowed, hNext⟩, ?_⟩
      intro hEnds
      apply (rechecked_iff plainSodium hPlain).mpr
      intro requestId hSome
      rw [hNext] at hEnds
      rw [Std.ExtTreeMap.isEmpty_iff.mp (hEmpty hEnds)]
        at hSome
      cases hSome

/- `disconnect` completes the request that is pending. -/
set_option maxRecDepth 8000 in
theorem requests_settled_disconnect :
    let p := after (ready ++ requested ++ localClose)
    p.shared.isConnected = false ∧ Settled p := by
  have hRun :=
    StateMachine.run_of_allowed Clears
      (Pool.exec (poolProgram plainSodium))
      (pool WsClient.sample) (ready ++ requested ++ localClose)
      (by decide)
  have hEnded :
      (after (ready ++ requested ++
        localClose)).shared.isConnected = false := by
    decide
  exact
    ⟨hEnded,
      requests_settled plainSodium _ _ _ _
        (heeds_of_clears hRun) hEnded
        (idle_of_all (by decide))⟩

/-
  The server closes the connection after `async_request` has
  returned: the request stays pending.
-/
set_option maxRecDepth 8000 in
theorem request_stranded :
    let p := after (ready ++ requested ++ remoteClose)
    StateMachine.Run (PoolStep plainSodium)
        (pool WsClient.sample)
        (ready ++ requested ++ remoteClose) p ∧
      p.shared.isConnected = false ∧ p.isIdle = true ∧
        Idle p ∧
          p.shared.requests.pendingRequests[(0 : UInt32)]? =
              some 7 ∧
            RequestLifecycle.completed requestView
                p.history = [] := by
  refine
    ⟨StateMachine.run_of_allowed
        (fun (p : ClientPool) l => p.allowed l = true)
        (Pool.exec (poolProgram plainSodium))
        (pool WsClient.sample)
        (ready ++ requested ++ remoteClose) (by decide),
      by decide, by decide, idle_of_all (by decide),
      by decide, ?_⟩
  decide

end StrandedRequests

end ObscuraProto
