import ObscuraProto.WsClient.Requests
import ObscuraProto.WsServer.Requests

/-
  The life of a request promise, for the server and for the
  client.

  Calls of `async_request`, sends that fail, responses,
  passes over the deadlines, closes and shutdowns interleave
  in any way.  Every step completes only promises that wait,
  for a reason that fits them.

  Key theorems include:
    * `PromiseLifecycle.promise_lifecycle`
-/

namespace ObscuraProto

namespace PromiseLifecycle

open Threads RequestLifecycle

variable (S : Sodium)
variable (serverSignKey : KeyPair)
variable (config : Config)
variable (hasOwner : Bool)

/-
  In every run with fewer than 2^32 requests, whose promises
  are distinct, every step of either wrapper is lawful.
-/
theorem promise_lifecycle :
    (∀ labels l p q,
        StateMachine.Run (WsServer.PoolStep S)
          (WsServer.pool (.new serverSignKey config hasOwner))
          labels p →
        WsServer.PoolStep S p l q →
        Obeys.Distinct WsServer.promiseOf q →
          Lawful WsServer.requestView WsServer.mayCall
            (WsServer.mayEvent S) p q) ∧
      ∀ labels l p q,
        StateMachine.Run (WsClient.PoolStep S)
          (WsClient.pool (.new serverSignKey config hasOwner))
          labels p →
        WsClient.PoolStep S p l q →
        Obeys.Distinct WsClient.promiseOf q →
          Lawful WsClient.requestView WsClient.mayCall
            (WsClient.mayEvent S) p q := by
  constructor
  · intro labels l p q hRun hStep hDistinct
    exact
      (WsServer.requests_obeyed S).lawful
        (WsServer.pool_fresh serverSignKey config) hRun hStep
        hDistinct
  · intro labels l p q hRun hStep hDistinct
    exact
      (WsClient.requests_obeyed S).lawful
        (WsClient.pool_fresh serverSignKey config) hRun hStep
        hDistinct

------------------------------------------------------------
-- A Sample Run
------------------------------------------------------------

open PlainSodium WsServer

/- A client connects, then the server makes a request. -/
def respondedRun :
    List (Label ServerCall IoEvent) :=
  [.event (IoEvent.hello 1 1)] ++
    List.replicate 20 .stepEvent ++
    [ .call
        (.method
          (.asyncRequest
            { promise := 5
              clock := 0
              nonce := .zero }
            1 { opCode := 0x1001, parameters := [] } 0)) ] ++
    List.replicate 4 (.stepCall 0) ++
    [ .event
        (IoEvent.sealed 1 1 1 OpCode.response
          [0, 4, 0, 0, 0, 0, 0, 2, 0, 7]) ] ++
    List.replicate 2 .stepEvent

/- The response of the request gives its promise a value. -/
set_option maxRecDepth 8000 in
theorem promise_lifecycle_responded :
    let p :=
      respondedRun.foldl
        (Pool.exec (poolProgram plainSodium)) (pool sample)
    let q := p.exec (poolProgram plainSodium) .stepEvent
    let response : Payload := { opCode := 7, parameters := [] }
    ⟨5, .ok response⟩ ∈ completedSince requestView p q ∧
      ∃ conn requestId deadline thread,
        RegisteredBefore requestView
            ⟨(conn, requestId), 5, deadline⟩ p ∧
          p.events = some thread ∧
          mayEvent plainSodium thread.call thread.trace
            (.response conn requestId response) := by
  intro p q response
  have hCompleted :
      ⟨5, .ok response⟩ ∈ completedSince requestView p q :=
    List.mem_singleton_self _
  have hRun :=
    StateMachine.run_of_allowed
      (fun (p : ServerPool) l => p.allowed l = true)
      (Pool.exec (poolProgram plainSodium)) (pool sample)
      respondedRun (by decide)
  have hDistinct : Obeys.Distinct promiseOf q := by
    have hPromises : promises promiseOf q = [5] := by
      decide
    rw [Obeys.Distinct, hPromises]
    simp
  have hLawful :=
    (promise_lifecycle plainSodium (sampleKeyPair 6)
      Config.withDefaults true).1 respondedRun .stepEvent p q
      hRun ⟨by decide, rfl⟩ hDistinct
  exact ⟨hCompleted, hLawful.value 5 response hCompleted⟩

end PromiseLifecycle

end ObscuraProto
