import ObscuraProto.EndToEnd.ClientActs
import ObscuraProto.EndToEnd.ServerActs

/-
  A client and one connection of a server over a transport
  that keeps packets in order.

  An action is a whole call of a public method, a packet that
  is taken from a queue and handled, or whatever the server
  does for its other connections.  The packets an end hands
  over get to the end of the queue of the other one.

  Key definitions include:
    * `Link`, `Link.Action`, `Link.exec`
    * `Link.MayTake`, `Link.seen`
    * `Link.Turn`, `Link.Step`, `Link.trace`
    * `Link.Established`
-/

namespace ObscuraProto

open Effectful EndToEnd MalformedPayloads

/- The packets in `queue role` are on their way to `role`. -/
structure Link where
  client : WsClient
  server : WsServer
  queue : Role → List Bytes

namespace Link

inductive Action where
| callClient (method : WsClient.PublicCall)
| callServer (method : WsServer.PublicCall)
| hearClient (input : ClientInput)
| hearServer (input : IoInput)
| elsewhere (event : ServerEvent)

variable (S : Sodium)
variable (hdl : Hdl)

/- The packets of an end, behind those on their way. -/
def carry
    (role : Role)
    (packets : List Bytes)
    (queue : Role → List Bytes) : Role → List Bytes :=
  Function.update queue role.other
    (queue role.other ++ packets)

/- The client is left in what `o` has made of it. -/
def afterClient
    {α : Type}
    (o : Outcome Exception ClientEffect WsClient α)
    (queue : Role → List Bytes)
    (l : Link) : Link where
  client := o.state
  server := l.server
  queue :=
    carry .client (o.effects.filterMap ClientEffect.packet?)
      queue

def afterServer
    {α : Type}
    (o : Outcome Exception ServerEffect WsServer α)
    (queue : Role → List Bytes)
    (l : Link) : Link where
  client := l.client
  server := o.state
  queue :=
    carry .server
      (o.effects.filterMap (ServerEffect.packet? hdl)) queue

def exec (l : Link) : Action → Link
| .callClient method =>
    l.afterClient ((WsClient.call S method).run l.client)
      l.queue
| .callServer method =>
    l.afterServer hdl ((WsServer.call S method).run l.server)
      l.queue
| .hearClient input =>
    match l.queue .client with
    | [] => l
    | packet :: rest =>
        l.afterClient
          ((WsClient.onMessage S input
            { payload := packet }).run l.client)
          (Function.update l.queue .client rest)
| .hearServer input =>
    match l.queue .server with
    | [] => l
    | packet :: rest =>
        l.afterServer hdl
          ((WsServer.onMessage S input hdl
            { payload := packet }).run l.server)
          (Function.update l.queue .server rest)
| .elsewhere event =>
    l.afterServer hdl
      ((WsServer.handle S event).run l.server) l.queue

/-
  No cancel, no close, and no timer of this connection.  The
  calls send what fits and what the other end is ready for,
  the handlers return and the message rate is kept.
-/
def MayTake
    (terms : Terms)
    (isAuth : Bool)
    (l : Link) : Action → Prop
| .callClient method => l.client.MayCall terms method
| .callServer method =>
    l.server.MayCall terms hdl isAuth method
| .hearClient input =>
    l.queue .client ≠ [] ∧ WsClient.MayHear terms input
| .hearServer input =>
    l.queue .server ≠ [] ∧
      ∀ state, Found hdl isAuth state l.server →
        WsServer.MayHear terms input state l.server
| .elsewhere event => event.elsewhere hdl l.server

/- What the users of the two ends observe. -/
def seen (role : Role) (l : Link) :
    Action → List Observation
| .callClient method =>
    match role with
    | .client =>
        l.client.callSeen method ++
          ((WsClient.call S method).run
            l.client).effects.filterMap
              ClientEffect.completion?
    | .server => []
| .callServer method =>
    match role with
    | .client => []
    | .server =>
        l.server.callSeen hdl method ++
          ((WsServer.call S method).run
            l.server).effects.filterMap
              ServerEffect.completion?
| .hearClient input =>
    match role, l.queue .client with
    | .client, packet :: _ =>
        WsClient.hearSeen S input packet l.client
    | _, _ => []
| .hearServer input =>
    match role, l.queue .server with
    | .server, packet :: _ =>
        WsServer.hearSeen S input hdl packet l.server
    | _, _ => []
| .elsewhere _ => []

/- The end of a role. -/
def ending (l : Link) : Role → Ending
| .client => l.client.ending
| .server => l.server.ending hdl

------------------------------------------------------------
-- Runs
------------------------------------------------------------

/- An action, with the state it is taken in. -/
structure Turn where
  before : Link
  action : Action

def Turn.after (turn : Turn) : Link :=
  turn.before.exec S hdl turn.action

structure Step
    (terms : Terms)
    (isAuth : Bool)
    (l : Link)
    (turn : Turn)
    (l' : Link) : Prop where
  before : turn.before = l
  may : l.MayTake hdl terms isAuth turn.action
  after : l' = l.exec S hdl turn.action

def trace (role : Role) (turns : List Turn) :
    List Observation :=
  turns.flatMap
    (fun turn => turn.before.seen S hdl role turn.action)

/- The turns of actions that are taken one after another. -/
def turnsOf (l : Link) : List Action → List Turn
| [] => []
| action :: actions =>
    ⟨l, action⟩ :: turnsOf (l.exec S hdl action) actions

theorem run_turnsOf
    {terms : Terms}
    {isAuth : Bool}
    {l : Link}
    {actions : List Action}
    (hAllowed :
      StateMachine.Allowed
        (fun l action => l.MayTake hdl terms isAuth action)
        (fun l action => l.exec S hdl action) l actions) :
    StateMachine.Run (Step S hdl terms isAuth) l
      (l.turnsOf S hdl actions)
      (actions.foldl (fun l action => l.exec S hdl action)
        l) := by
  induction actions generalizing l with
  | nil => exact StateMachine.Run.nil l
  | cons action actions ih =>
      exact
        StateMachine.Run.cons ⟨rfl, hAllowed.1, rfl⟩
          (ih hAllowed.2)

/- What is counted in each turn, over all of them. -/
def total (count : Turn → Nat) : List Turn → Nat
| [] => 0
| turn :: turns => count turn + total count turns

theorem total_snoc
    (count : Turn → Nat)
    (turns : List Turn)
    (turn : Turn) :
    total count (turns ++ [turn]) =
      total count turns + count turn := by
  induction turns with
  | nil => exact Nat.add_comm _ _
  | cons first turns ih =>
      change _ + total count (turns ++ [turn]) = _
      rw [ih]
      exact (Nat.add_assoc _ _ _).symm

/- How far the counter of request numbers has gone on. -/
def requestIds (role : Role) : List Turn → Nat :=
  total (fun turn =>
    (((turn.after S hdl).ending hdl role).nextRequestId -
      (turn.before.ending hdl role).nextRequestId).toNat)

def streamIds (role : Role) : List Turn → Nat :=
  total (fun turn =>
    (((turn.after S hdl).ending hdl role).nextStreamId -
      (turn.before.ending hdl role).nextStreamId).toNat)

/- The terms that both ends start with. -/
def terms (isAuth : Bool) (l : Link) : Terms where
  config := l.client.config
  requestHandlers
  | .client => l.client.dispatchers.requestHandlers
  | .server => (l.server.dispatchersOf isAuth).requestHandlers
  startHandler
  | .client => fun opCode =>
      WsClient.startHandler opCode l.client
  | .server => fun opCode =>
      WsServer.startHandler isAuth opCode l.server

/-
  A handshake has been completed, and nothing else has been
  done on the connection.  Both ends have the same config.
-/
structure Established
    (isAuth : Bool)
    (keys : Role → SessionKeys)
    (l : Link) : Prop where
  config : l.server.config = l.client.config
  distinct : l.client.config.opcodes.Distinct
  isConnected : l.client.isConnected = true
  clientReady : l.client.session.Ready (keys .client)
  clientCounters :
    l.client.session.sendCounter = 0 ∧
      l.client.session.recvCounter = 0
  server :
    ∃ state,
      Found hdl isAuth state l.server ∧
        state.session.Ready (keys .server) ∧
          state.session.sendCounter = 0 ∧
            state.session.recvCounter = 0
  crossed : ∀ role, (keys role).tx = (keys role.other).rx
  pending : ∀ role id, (l.ending hdl role).pending id = none
  streams : ∀ role key, (l.ending hdl role).streams key = none
  queue : ∀ role, l.queue role = []

namespace Established

variable {hdl : Hdl}
variable {isAuth : Bool}
variable {keys : Role → SessionKeys}
variable {l : Link}

theorem clientUp
    (hEstablished : l.Established hdl isAuth keys) :
    l.client.Up (l.terms isAuth) where
  isConnected := hEstablished.isConnected
  config := rfl
  handlers := rfl
  starts := fun _ => rfl

theorem serverUp
    {state : ConnectionState}
    (hEstablished : l.Established hdl isAuth keys)
    (hFound : Found hdl isAuth state l.server) :
    l.server.Up (l.terms isAuth) hdl isAuth state where
  found := hFound
  config := hEstablished.config
  handlers := rfl
  starts := fun _ => rfl
  sends := by
    intro streamId ref hFind
    have hNone :
        l.server.streams.find hdl streamId = none :=
      hEstablished.streams .server streamId
    rw [hNone] at hFind
    cases hFind

end Established

end Link

end ObscuraProto
