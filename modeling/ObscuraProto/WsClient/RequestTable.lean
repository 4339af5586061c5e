import ObscuraProto.WsCommon

/-
  The pending requests of the client and their deadlines.

  `pending_requests_mutex_` guards both maps; every function
  here is one critical section of it and returns, next to the
  new maps, the promises it has completed, in order.

  Key definitions include:
    * `ClientRequestTable`
    * `ClientRequestTable.register`
    * `ClientRequestTable.fail`
    * `ClientRequestTable.respond`
    * `ClientRequestTable.expire`
    * `ClientRequestTable.disconnect`
-/

namespace ObscuraProto

structure ClientRequestTable where
  pendingRequests : Map UInt32 PromiseId := ∅
  requestDeadlines : Map UInt32 TimePoint := ∅

namespace ClientRequestTable

------------------------------------------------------------
-- Requests
------------------------------------------------------------

/- `async_request` before it sends. -/
def register
    (requestId : UInt32)
    (promise : PromiseId)
    (deadline : Option TimePoint)
    (t : ClientRequestTable) : ClientRequestTable where
  pendingRequests :=
    t.pendingRequests.insert requestId promise
  requestDeadlines :=
    match deadline with
    | none => t.requestDeadlines
    | some deadline =>
        t.requestDeadlines.insert requestId deadline

/- `async_request` after `send` has thrown `e`. -/
def fail
    (requestId : UInt32)
    (e : Exception)
    (t : ClientRequestTable) :
    List Completion × ClientRequestTable :=
  (match t.pendingRequests[requestId]? with
    | none => []
    | some promise => [⟨promise, .error e⟩],
   { pendingRequests := t.pendingRequests.erase requestId
     requestDeadlines :=
      t.requestDeadlines.erase requestId })

/- A RESPONSE; the record of its deadline stays behind. -/
def respond
    (requestId : UInt32)
    (response : Payload)
    (t : ClientRequestTable) :
    List Completion × ClientRequestTable :=
  match t.pendingRequests[requestId]? with
  | none => ([], t)
  | some promise =>
      ([⟨promise, .ok response⟩],
        { t with
          pendingRequests :=
            t.pendingRequests.erase requestId })

------------------------------------------------------------
-- The Watchdog
------------------------------------------------------------

/- The earliest deadline, if there is one. -/
def earliest
    (t : ClientRequestTable) : Option TimePoint :=
  t.requestDeadlines.toList.foldl
    (fun found entry =>
      match found with
      | none => some entry.2
      | some earliest =>
          if entry.2 < earliest then
            some entry.2
          else
            some earliest)
    none

/- One step of the loop over the deadlines. -/
def expireEntry
    (now : TimePoint)
    (acc : List Completion × ClientRequestTable)
    (entry : UInt32 × TimePoint) :
    List Completion × ClientRequestTable :=
  if entry.2 ≤ now then
    let t := acc.2
    (acc.1 ++
      (match t.pendingRequests[entry.1]? with
        | none => []
        | some promise =>
            [⟨promise,
              .error (.timeoutError "Request timed out")⟩]),
      { pendingRequests := t.pendingRequests.erase entry.1
        requestDeadlines :=
          t.requestDeadlines.erase entry.1 })
  else
    acc

/-
  One iteration of `watchdog_loop`: requests expire only if
  the earliest deadline has passed.
-/
def expire
    (now : TimePoint)
    (t : ClientRequestTable) :
    List Completion × ClientRequestTable :=
  match t.earliest with
  | none => ([], t)
  | some earliest =>
      if earliest ≤ now then
        t.requestDeadlines.toList.foldl (expireEntry now)
          ([], t)
      else
        ([], t)

------------------------------------------------------------
-- Disconnection
------------------------------------------------------------

/- The section of `disconnect`. -/
def disconnect
    (t : ClientRequestTable) :
    List Completion × ClientRequestTable :=
  (t.pendingRequests.toList.map
      (fun request =>
        ⟨request.2,
          .error (.runtimeError "Client disconnected")⟩),
    { pendingRequests := ∅, requestDeadlines := ∅ })

end ClientRequestTable

end ObscuraProto
