import ObscuraProto.WsClient.Locking
import ObscuraProto.WsServer.LockOrder

/-
  Callbacks run without locks.

  On one thread, code of the user makes calls into a wrapper
  and is called back by it, to any depth; the io thread
  enters the handlers of events in the same way.  Whatever
  the other threads do in between, no callback finds a mutex
  of the wrapper held by its thread, mutexes are acquired in
  the documented order, and no thread waits for a mutex that
  it holds itself.

  Key definitions include:
    * `WsServer.Thread`, `WsClient.Thread`

  Key theorems include:
    * `callbacks_without_locks`
    * `no_deadlock`
-/

namespace ObscuraProto

open Effectful Locks

namespace WsServer

/-
  A thread with calls into the server in progress, and what
  it has done; `user` while code of the user runs.
-/
def Thread
    (S : Sodium)
    (frames : List (LockedAction Unit))
    (user : Bool)
    (log : List (Locks.Event Mutex ServerEffect)) : Prop :=
  Nested lockPolicy
    (fun act => ∃ entry, act = Locking.enter S entry)
    frames user log

instance : IsStrictOrder Mutex lockPolicy.before where
  irrefl := fun m => Nat.lt_irrefl m.rank
  trans := fun _ _ _ hFirst hSecond =>
    Nat.lt_trans hFirst hSecond

variable
  {S : Sodium}
  {frames : List (LockedAction Unit)}
  {user : Bool}
  {log : List (Locks.Event Mutex ServerEffect)}

theorem Thread.obeyed (hThread : Thread S frames user log) :
    lockPolicy.Obeyed [] log := by
  apply Nested.obeyed ?_ hThread
  rintro act ⟨entry, hAct⟩
  rw [hAct]
  exact Locking.enter_balanced S entry

end WsServer

namespace WsClient

instance : IsStrictOrder Mutex lockPolicy.before where
  irrefl := fun m => Nat.lt_irrefl m.rank
  trans := fun _ _ _ hFirst hSecond =>
    Nat.lt_trans hFirst hSecond

/- The same for a client. -/
def Thread
    (S : Sodium)
    (frames : List (LockedAction Unit))
    (user : Bool)
    (log : List (Locks.Event Mutex ClientEffect)) : Prop :=
  Nested lockPolicy
    (fun act => ∃ entry, act = Locking.enter S entry)
    frames user log

theorem Thread.obeyed
    {S : Sodium}
    {frames : List (LockedAction Unit)}
    {user : Bool}
    {log : List (Locks.Event Mutex ClientEffect)}
    (hThread : Thread S frames user log) :
    lockPolicy.Obeyed [] log := by
  apply Nested.obeyed ?_ hThread
  rintro act ⟨entry, hAct⟩
  rw [hAct]
  exact Locking.enter_balanced S entry

end WsClient

------------------------------------------------------------
-- Both Wrappers
------------------------------------------------------------

theorem callbacks_without_locks (S : Sodium) :
    (∀ frames user log,
      WsServer.Thread S frames user log →
        WsServer.lockPolicy.Rules log) ∧
    ∀ frames user log,
      WsClient.Thread S frames user log →
        WsClient.lockPolicy.Rules log :=
  ⟨fun _ _ _ hThread =>
      hThread.obeyed.rules (fun m => Nat.lt_irrefl m.rank),
    fun _ _ _ hThread =>
      hThread.obeyed.rules (fun m => Nat.lt_irrefl m.rank)⟩

/-
  Threads that each want one more mutex of a wrapper do not
  wait for one another in a circle.
-/
theorem no_deadlock (S : Sodium) (T : Type) :
    (∀ (frames : T → List (WsServer.LockedAction Unit))
        (user : T → Bool)
        (log :
          T →
            List (Locks.Event WsServer.Mutex ServerEffect))
        (wanted : T → WsServer.Mutex),
      (∀ t,
        WsServer.Thread S (frames t) (user t)
          (log t ++ [.acquire (wanted t)])) →
      ∀ t,
        ¬ Relation.TransGen
          (fun t t' => wanted t ∈ heldAfter [] (log t')) t t) ∧
    ∀ (frames : T → List (WsClient.LockedAction Unit))
        (user : T → Bool)
        (log :
          T →
            List (Locks.Event WsClient.Mutex ClientEffect))
        (wanted : T → WsClient.Mutex),
      (∀ t,
        WsClient.Thread S (frames t) (user t)
          (log t ++ [.acquire (wanted t)])) →
      ∀ t,
        ¬ Relation.TransGen
          (fun t t' => wanted t ∈ heldAfter [] (log t')) t t := by
  constructor
  · intro frames user log wanted hThreads t
    apply no_circular_wait (p := WsServer.lockPolicy)
    intro t m hHeld
    have hObeyed := (hThreads t).obeyed
    exact hObeyed.allows (List.prefix_refl _) m hHeld
  · intro frames user log wanted hThreads t
    apply no_circular_wait (p := WsClient.lockPolicy)
    intro t m hHeld
    have hObeyed := (hThreads t).obeyed
    exact hObeyed.allows (List.prefix_refl _) m hHeld

------------------------------------------------------------
-- A Callback That Sends
------------------------------------------------------------

namespace WsServer

/- A server whose close callback is set. -/
def watched : WsServer :=
  { sample with onCloseCallback := some 7 }

def closing : Entry :=
  .event (.closed (.smooth (PlainSodium.sampleKx 1)) 1)

def sending : Entry :=
  .event (.call (.send .zero 1
    { opCode := 9, parameters := [] }))

/- The callback sends; the send takes the first mutex. -/
theorem closing_sends :
    ∃ frames,
      Thread plainSodium frames false
        [.effect (.invoke (.onClose 7 1)),
          .acquire .sessions] := by
  have hClosing :
      Thread plainSodium [Locking.enter plainSodium closing]
        false [] :=
    .call .start ⟨closing, rfl⟩
  have hRead := Nested.step watched false hClosing (by simp)
  have hCalled :=
    Nested.step watched true hRead
      (fun _ => ⟨[], _, rfl, _, rfl⟩)
  have hSending := hCalled.call ⟨sending, rfl⟩
  exact ⟨_, Nested.step watched false hSending (by simp)⟩

theorem callbacks_without_locks_closing :
    lockPolicy.Rules
      [.effect (.invoke (.onClose 7 1)), .acquire .sessions] :=
  closing_sends.elim
    (fun _ => (callbacks_without_locks plainSodium).1 _ _ _)

/- A server with a session for the connection 1. -/
def occupied : WsServer :=
  { sample with
    sessionTable :=
      sample.sessionTable.emplace true 1
        { session :=
            Session.new .server (PlainSodium.sampleKeyPair 6) []
          rateLimiterId := 0
          remoteIp := "127.0.0.1"
          lastActivityMs := 0 } }

/- The session is removed, which the limiter is told. -/
theorem closing_waits :
    ∃ frames,
      Thread plainSodium frames false
        [.acquire .sessions, .acquire .rateLimiter] := by
  have hClosing :
      Thread plainSodium [Locking.enter plainSodium closing]
        false [] :=
    .call .start ⟨closing, rfl⟩
  have hRead := Nested.step occupied false hClosing (by simp)
  have hHolding := Nested.step occupied false hRead (by simp)
  have hFound := Nested.step occupied false hHolding (by simp)
  have hLimiter := Nested.step occupied false hFound (by simp)
  exact ⟨_, Nested.step occupied false hLimiter (by simp)⟩

theorem closing_begins :
    ∃ frames,
      Thread plainSodium frames false [.acquire .sessions] := by
  have hClosing :
      Thread plainSodium [Locking.enter plainSodium closing]
        false [] :=
    .call .start ⟨closing, rfl⟩
  have hRead := Nested.step occupied false hClosing (by simp)
  exact ⟨_, Nested.step occupied false hRead (by simp)⟩

/- One of two threads holds what the other one wants. -/
def closingLog : Bool → List (Event Mutex ServerEffect)
| true => [.acquire .sessions]
| false => []

def closingWants : Bool → Mutex
| true => .rateLimiter
| false => .sessions

theorem no_deadlock_closing :
    closingWants false ∈ heldAfter [] (closingLog true) ∧
      ¬ Relation.TransGen
        (fun t t' =>
          closingWants t ∈ heldAfter [] (closingLog t'))
        false false := by
  rcases closing_waits with ⟨holder, hHolder⟩
  rcases closing_begins with ⟨waiter, hWaiter⟩
  refine ⟨List.mem_singleton.mpr rfl, ?_⟩
  apply
    (no_deadlock plainSodium Bool).1
      (fun t => if t then holder else waiter)
      (fun _ => false) closingLog closingWants
  intro t
  cases t with
  | true => exact hHolder
  | false => exact hWaiter

end WsServer

end ObscuraProto
