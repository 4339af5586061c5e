import ObscuraProto.WsCommon

/-
  The pending requests of the server and their deadlines.

  `pending_requests_mutex_` guards both maps; every function
  here is one critical section of it and returns, next to the
  new maps, the promises it has completed, in order.

  Key definitions include:
    * `RequestTable`
    * `RequestTable.register`, `RequestTable.fail`
    * `RequestTable.respond`
    * `RequestTable.expire`
    * `RequestTable.closeConnection`, `RequestTable.stop`
-/

namespace ObscuraProto

structure RequestTable where
  pendingRequests : NestedMap PromiseId := ∅
  requestDeadlines : NestedMap TimePoint := ∅

namespace RequestTable

open NestedMap

def pendingAt
    (hdl : Hdl)
    (id : UInt32)
    (t : RequestTable) : Option PromiseId :=
  lookupAt hdl id t.pendingRequests

def deadlineAt
    (hdl : Hdl)
    (id : UInt32)
    (t : RequestTable) : Option TimePoint :=
  lookupAt hdl id t.requestDeadlines

------------------------------------------------------------
-- Requests
------------------------------------------------------------

/- `async_request` before it sends. -/
def register
    (hdl : Hdl)
    (requestId : UInt32)
    (promise : PromiseId)
    (deadline : Option TimePoint)
    (t : RequestTable) : RequestTable where
  pendingRequests :=
    insertAt hdl requestId promise t.pendingRequests
  requestDeadlines :=
    match deadline with
    | none => t.requestDeadlines
    | some deadline =>
        insertAt hdl requestId deadline t.requestDeadlines

/- `async_request` after `send` has thrown `e`. -/
def fail
    (hdl : Hdl)
    (requestId : UInt32)
    (e : Exception)
    (t : RequestTable) : List Completion × RequestTable :=
  (match t.pendingAt hdl requestId with
    | none => []
    | some promise => [⟨promise, .error e⟩],
   { pendingRequests :=
      pruneAt hdl (eraseAt hdl requestId t.pendingRequests)
     requestDeadlines :=
      pruneAt hdl
        (eraseAt hdl requestId t.requestDeadlines) })

/- A RESPONSE; the record of its deadline stays behind. -/
def respond
    (hdl : Hdl)
    (requestId : UInt32)
    (response : Payload)
    (t : RequestTable) : List Completion × RequestTable :=
  match t.pendingAt hdl requestId with
  | none => ([], t)
  | some promise =>
      ([⟨promise, .ok response⟩],
        { t with
          pendingRequests :=
            eraseAt hdl requestId t.pendingRequests })

------------------------------------------------------------
-- Expiry
------------------------------------------------------------

/- One step of the loop over the deadlines of `hdl`. -/
def expireEntry
    (now : TimePoint)
    (hdl : Hdl)
    (acc : List Completion × RequestTable)
    (entry : UInt32 × TimePoint) :
    List Completion × RequestTable :=
  if entry.2 ≤ now then
    let t := acc.2
    (acc.1 ++
      (match t.pendingAt hdl entry.1 with
        | none => []
        | some promise =>
            [⟨promise,
              .error (.timeoutError "Request timed out")⟩]),
      { pendingRequests :=
          eraseAt hdl entry.1 t.pendingRequests
        requestDeadlines :=
          eraseAt hdl entry.1 t.requestDeadlines })
  else
    acc

def expireConnection
    (now : TimePoint)
    (acc : List Completion × RequestTable)
    (perConn : Hdl × Map UInt32 TimePoint) :
    List Completion × RequestTable :=
  let after :=
    perConn.2.toList.foldl (expireEntry now perConn.1) acc
  (after.1,
    { after.2 with
      requestDeadlines :=
        pruneAt perConn.1 after.2.requestDeadlines })

/- The request part of `check_timeouts`. -/
def expire
    (now : TimePoint)
    (t : RequestTable) : List Completion × RequestTable :=
  t.requestDeadlines.toList.foldl (expireConnection now)
    ([], t)

------------------------------------------------------------
-- Disconnection and Shutdown
------------------------------------------------------------

/- All promises of one inner map, failed in order. -/
def failAll
    (e : Exception)
    (requests : Map UInt32 PromiseId) : List Completion :=
  requests.toList.map
    (fun request => ⟨request.2, .error e⟩)

/- `on_close`. -/
def closeConnection
    (hdl : Hdl)
    (t : RequestTable) : List Completion × RequestTable :=
  (match t.pendingRequests[hdl]? with
    | none => []
    | some requests =>
        failAll (.runtimeError "Client disconnected") requests,
   { pendingRequests := t.pendingRequests.erase hdl
     requestDeadlines := t.requestDeadlines.erase hdl })

/- `stop`. -/
def stop
    (t : RequestTable) : List Completion × RequestTable :=
  (t.pendingRequests.toList.flatMap
      (fun perConn =>
        failAll (.runtimeError "Server is stopping")
          perConn.2),
    { pendingRequests := ∅, requestDeadlines := ∅ })

end RequestTable

end ObscuraProto
