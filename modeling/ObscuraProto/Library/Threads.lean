import ObscuraProto.Library.Effectful
import ObscuraProto.Library.StateMachine

/-
  Actions of several threads on one shared state.

  Any number of calls run at once; one more thread handles
  events, one after the other.  A step of the pool is the
  next atomic step of one of them.  Every thread keeps a
  trace of its own, and a history is kept of all steps.  An
  invariant of state and history needs only that every step
  keeps it, and a step may rely on what the steps of other
  threads leave alone.

  Main declarations:
    * `Threads.Thread`, `Threads.Pool`
    * `Threads.Pool.exec`, `Threads.Pool.Step`
    * `Threads.Guarantees`, `Threads.Guarantees.bind`
    * `Threads.Among`, `Threads.Among.within`
    * `Threads.Traces`, `Threads.Traces.atomic_bind`
    * `Threads.Traces.settled`
    * `Threads.Rules`, `Threads.Rules.invariant`
    * `Threads.Pool.calls_prefix`, `Threads.Pool.run_events`
    * `Threads.Pool.forall_calls_step`
    * `Threads.Pool.traces_step`
    * `Threads.Pool.nextEffects`, `Threads.Pool.next_step`
    * `Threads.Pool.Within`, `Threads.Pool.Within.shared`
    * `Threads.Pool.forall_event_step`
    * `Threads.Pool.guarantees_step`
    * `Threads.Pool.Logged`
    * `Threads.Executes`, `Threads.Pool.executes_of_run`
    * `Threads.Explained`
-/

namespace Threads

open Effectful

variable {ε χ σ γ κ η α β : Type}

------------------------------------------------------------
-- Pools of Threads
------------------------------------------------------------

/- An atomic step that was taken. -/
structure Transition (σ χ : Type) where
  before : σ
  effects : List χ
  after : σ

/- What was called, its steps so far and what is left. -/
structure Thread (ε χ σ κ : Type) where
  call : κ
  trace : List (Transition σ χ) := []
  code : Action ε χ σ Unit

/- Threads that have ended stay with what they have done. -/
structure Pool (ε χ σ γ κ η : Type) where
  shared : σ
  history : γ
  calls : List (Thread ε χ σ κ) := []
  events : Option (Thread ε χ σ η) := none

/- `κ` names the calls and `η` the events. -/
inductive Label (κ η : Type) where
| call (k : κ)
| event (h : η)
| stepCall (i : Nat)
| stepEvent

/- The code of calls and events, and the history of a step. -/
structure Program (ε χ σ γ κ η : Type) where
  callCode : κ → Action ε χ σ Unit
  eventCode : η → Action ε χ σ Unit
  note : σ → List χ → σ → γ → γ

def Thread.isDone (thread : Thread ε χ σ κ) : Bool :=
  match thread.code with
  | .done _ => true
  | .step _ _ _ => false

namespace Pool

variable (program : Program ε χ σ γ κ η)

/- One step of a thread; one that has ended does nothing. -/
def advance
    {ι : Type}
    (thread : Thread ε χ σ ι)
    (p : Pool ε χ σ γ κ η) :
    Thread ε χ σ ι × Pool ε χ σ γ κ η :=
  match thread.code with
  | .done _ => (thread, p)
  | .step effects next rest =>
      ({ thread with
          trace :=
            thread.trace ++
              [⟨p.shared, effects p.shared, next p.shared⟩]
          code := rest p.shared },
        { p with
          shared := next p.shared
          history :=
            program.note p.shared (effects p.shared)
              (next p.shared) p.history })

/- The next event begins when the last one has ended. -/
def isIdle (p : Pool ε χ σ γ κ η) : Bool :=
  match p.events with
  | none => true
  | some thread => thread.isDone

def allowed (p : Pool ε χ σ γ κ η) : Label κ η → Bool
| .event _ => p.isIdle
| _ => true

def stepCall
    (i : Nat)
    (p : Pool ε χ σ γ κ η) : Pool ε χ σ γ κ η :=
  match p.calls[i]? with
  | none => p
  | some thread =>
      let (thread, p) := p.advance program thread
      { p with calls := p.calls.set i thread }

def stepEvent
    (p : Pool ε χ σ γ κ η) : Pool ε χ σ γ κ η :=
  match p.events with
  | none => p
  | some thread =>
      let (thread, p) := p.advance program thread
      { p with events := some thread }

def exec
    (p : Pool ε χ σ γ κ η) : Label κ η → Pool ε χ σ γ κ η
| .call k =>
    { p with
      calls :=
        p.calls ++ [{ call := k, code := program.callCode k }] }
| .event h =>
    { p with
      events :=
        some { call := h, code := program.eventCode h } }
| .stepCall i => p.stepCall program i
| .stepEvent => p.stepEvent program

/- All interleavings of the atomic steps. -/
abbrev Step :
    Pool ε χ σ γ κ η → Label κ η →
      Pool ε χ σ γ κ η → Prop :=
  StateMachine.Guarded (fun p l => p.allowed l = true)
    (exec program)

/- A step of a call, when it is still running. -/
theorem stepCall_running
    {i : Nat}
    {p : Pool ε χ σ γ κ η}
    {thread : Thread ε χ σ κ}
    {effects : σ → List χ}
    {next : σ → σ}
    {rest : σ → Action ε χ σ Unit}
    (hThread : p.calls[i]? = some thread)
    (hCode : thread.code = .step effects next rest) :
    p.stepCall program i =
      { p with
        shared := next p.shared
        history :=
          program.note p.shared (effects p.shared)
            (next p.shared) p.history
        calls :=
          p.calls.set i
            { thread with
              trace :=
                thread.trace ++
                  [⟨p.shared, effects p.shared,
                    next p.shared⟩]
              code := rest p.shared } } := by
  simp only [stepCall, hThread, advance, hCode]

/- A call that has ended, or no call, does nothing. -/
theorem stepCall_ended
    {i : Nat}
    {p : Pool ε χ σ γ κ η}
    (hEnded :
      ∀ thread, p.calls[i]? = some thread →
        ∃ result, thread.code = .done result) :
    p.stepCall program i = p := by
  unfold stepCall
  cases hThread : p.calls[i]? with
  | none => rfl
  | some thread =>
      rcases hEnded thread hThread with ⟨result, hCode⟩
      have hSet : p.calls.set i thread = p.calls := by
        rcases List.getElem?_eq_some_iff.mp hThread with
          ⟨hIndex, hGet⟩
        rw [← hGet]
        exact List.set_getElem_self hIndex
      simp only [advance, hCode, hSet]

/- A step of the event leaves the calls alone. -/
theorem stepEvent_calls (p : Pool ε χ σ γ κ η) :
    (p.stepEvent program).calls = p.calls := by
  unfold stepEvent advance
  cases p.events with
  | none => rfl
  | some thread =>
      simp only
      cases thread.code <;> rfl

/- Steps of a thread do not change what was called. -/
theorem map_call_set
    {calls : List (Thread ε χ σ κ)}
    {i : Nat}
    {thread thread' : Thread ε χ σ κ}
    (hThread : calls[i]? = some thread)
    (hCall : thread'.call = thread.call) :
    (calls.set i thread').map Thread.call =
      calls.map Thread.call := by
  rw [List.map_set, hCall]
  apply List.ext_getElem?
  intro j
  rw [List.getElem?_set]
  split
  · next hIndex =>
      subst hIndex
      rcases List.getElem?_eq_some_iff.mp hThread with
        ⟨hi, hGet⟩
      simp [hi, hGet]
  · rfl

/- Calls stay on record. -/
theorem calls_prefix
    {p q : Pool ε χ σ γ κ η}
    {l : Label κ η}
    (hStep : Step program p l q) :
    p.calls.map Thread.call <+: q.calls.map Thread.call := by
  rcases hStep with ⟨_, hNext⟩
  subst hNext
  cases l with
  | call k =>
      simp only [exec, List.map_append]
      exact List.prefix_append _ _
  | event h => exact List.prefix_refl _
  | stepEvent =>
      simp only [exec, stepEvent_calls]
      exact List.prefix_refl _
  | stepCall i =>
      simp only [exec, stepCall]
      cases hThread : p.calls[i]? with
      | none => exact List.prefix_refl _
      | some thread =>
          simp only [advance]
          cases thread.code with
          | done result =>
              refine ⟨[], ?_⟩
              simp only [List.append_nil]
              refine (map_call_set hThread ?_).symm
              rfl
          | step effects next rest =>
              refine ⟨[], ?_⟩
              simp only [List.append_nil]
              refine (map_call_set hThread ?_).symm
              rfl

/- A step of a call leaves the event alone. -/
theorem stepCall_events
    (i : Nat)
    (p : Pool ε χ σ γ κ η) :
    (p.stepCall program i).events = p.events := by
  unfold stepCall advance
  cases p.calls[i]? with
  | none => rfl
  | some thread =>
      simp only
      cases thread.code <;> rfl

/- The steps of the event that are left can be taken alone. -/
theorem run_alone
    {act : Action ε χ σ Unit}
    {thread : Thread ε χ σ η}
    {p : Pool ε χ σ γ κ η}
    (hThread : p.events = some thread)
    (hCode : thread.code = act) :
    ∃ ls q,
      StateMachine.Run (Step program) p ls q ∧
        q.shared = (act.run p.shared).state ∧
          q.isIdle = true := by
  induction act generalizing p thread with
  | done result =>
      refine ⟨[], p, .nil p, rfl, ?_⟩
      simp only [isIdle, hThread, Thread.isDone, hCode]
  | step effects next rest ih =>
      let thread' : Thread ε χ σ η :=
        { thread with
          trace :=
            thread.trace ++
              [⟨p.shared, effects p.shared, next p.shared⟩]
          code := rest p.shared }
      have hStep :
          Step program p .stepEvent (p.stepEvent program) :=
        ⟨rfl, rfl⟩
      have hNext :
          (p.stepEvent program).events = some thread' := by
        simp only [stepEvent, hThread, advance, hCode]
        rfl
      have hShared :
          (p.stepEvent program).shared = next p.shared := by
        simp only [stepEvent, hThread, advance, hCode]
      rcases ih p.shared hNext rfl with
        ⟨ls, q, hRun, hState, hIdle⟩
      refine ⟨.stepEvent :: ls, q, .cons hStep hRun, ?_, hIdle⟩
      rw [hState, hShared]
      rfl

/- Events one after the other, with no calls in between. -/
theorem run_events
    (hs : List η)
    {p : Pool ε χ σ γ κ η}
    (hIdle : p.isIdle = true) :
    ∃ ls q,
      StateMachine.Run (Step program) p ls q ∧
        q.shared =
            hs.foldl
              (fun s h => ((program.eventCode h).run s).state)
              p.shared ∧
          q.isIdle = true := by
  induction hs generalizing p with
  | nil => exact ⟨[], p, .nil p, rfl, hIdle⟩
  | cons h hs ih =>
      have hBegin :
          Step program p (.event h)
            { p with
              events :=
                some
                  { call := h, code := program.eventCode h } } :=
        ⟨hIdle, rfl⟩
      rcases run_alone program
          (p :=
            { p with
              events :=
                some
                  { call := h, code := program.eventCode h } })
          rfl rfl with
        ⟨ls, q, hRun, hState, hQuiet⟩
      rcases ih hQuiet with
        ⟨ls', q', hRun', hState', hQuiet'⟩
      refine
        ⟨.event h :: (ls ++ ls'), q',
          .cons hBegin (hRun.append hRun'), ?_, hQuiet'⟩
      rw [hState', hState]
      rfl

end Pool

------------------------------------------------------------
-- Guarantees Under Interference
------------------------------------------------------------

/-
  From the state `s` on, every step of the action is within
  `G`, whatever other threads do between its steps within
  `rely`.
-/
inductive Guarantees
    (rely : σ → σ → Prop)
    (G : σ → List χ → σ → Prop) :
    Action ε χ σ α → σ → Prop
| done (result : Except ε α) (s : σ) :
    Guarantees rely G (.done result) s
| step
    {effects : σ → List χ}
    {next : σ → σ}
    {rest : σ → Action ε χ σ α}
    {s : σ} :
    G s (effects s) (next s) →
      (∀ t, rely (next s) t → Guarantees rely G (rest s) t) →
        Guarantees rely G (.step effects next rest) s

namespace Guarantees

variable {rely : σ → σ → Prop}
variable {G C : σ → List χ → σ → Prop}

theorem of_ensures
    {act : Action ε χ σ α}
    (hAct : Ensures G act)
    (s : σ) :
    Guarantees rely G act s := by
  induction hAct generalizing s with
  | done result => exact .done result s
  | step hStep _ ih =>
      exact .step (hStep s) (fun t _ => ih s t)

/- The result of a first step is known to what follows. -/
theorem atomic_bind
    {f : σ → Outcome ε χ σ α}
    {g : α → Action ε χ σ β}
    {s : σ}
    (hStep : G s (f s).effects (f s).state)
    (hNext :
      ∀ a, (f s).result = .ok a →
        ∀ t, rely (f s).state t →
          Guarantees rely G (g a) t) :
    Guarantees rely G (Action.atomic f >>= g) s := by
  refine .step hStep (fun t hRely => ?_)
  simp only
  cases hResult : (f s).result with
  | error e => exact .done (.error e) t
  | ok a => exact hNext a hResult t hRely

theorem ofExcept_bind
    {x : Except ε α}
    {g : α → Action ε χ σ β}
    {s : σ}
    (hNext : ∀ a, x = .ok a → Guarantees rely G (g a) s) :
    Guarantees rely G (Action.ofExcept x >>= g) s := by
  cases x with
  | error e => exact .done (.error e) s
  | ok a => exact hNext a rfl

/-
  A first part whose steps are those of other threads keeps
  what the second part relies on.
-/
theorem bind
    {act : Action ε χ σ α}
    {g : α → Action ε χ σ β}
    {s : σ}
    (hAct : Ensures C act)
    (hWithin : ∀ s xs t, C s xs t → G s xs t)
    (hRely : ∀ s xs t, C s xs t → rely s t)
    (hTrans : ∀ s t u, rely s t → rely t u → rely s u)
    (hRefl : ∀ s, rely s s)
    (hNext :
      ∀ a t, rely s t → Guarantees rely G (g a) t) :
    Guarantees rely G (act >>= g) s := by
  induction hAct generalizing s with
  | done result =>
      cases result with
      | error e => exact .done (.error e) s
      | ok a => exact hNext a s (hRefl s)
  | step hStep _ ih =>
      refine .step (hWithin _ _ _ (hStep s)) ?_
      intro t hOthers
      apply ih s
      intro a u hLater
      have hFirst := hRely _ _ _ (hStep s)
      exact
        hNext a u
          (hTrans _ _ _ (hTrans _ _ _ hFirst hOthers) hLater)

/- What follows relies on nothing. -/
theorem bind_ensures
    {act : Action ε χ σ α}
    {g : α → Action ε χ σ β}
    {s : σ}
    (hAct : Guarantees rely G act s)
    (hNext : ∀ a, Ensures G (g a)) :
    Guarantees rely G (act >>= g) s := by
  induction hAct with
  | done result s =>
      cases result with
      | error e => exact .done (.error e) s
      | ok a => exact of_ensures (hNext a) s
  | step hStep _ ih => exact .step hStep ih

theorem catchAll
    {act : Action ε χ σ α}
    {handler : ε → Action ε χ σ α}
    {s : σ}
    (hAct : Guarantees rely G act s)
    (hHandler : ∀ e, Ensures G (handler e)) :
    Guarantees rely G (act.catchAll handler) s := by
  induction hAct with
  | done result s =>
      cases result with
      | error e => exact of_ensures (hHandler e) s
      | ok a => exact .done (.ok a) s
  | step hStep _ ih => exact .step hStep ih

end Guarantees

/-
  From the state `s` on, the action ends in a state of `P`,
  whatever other threads do between its steps within `rely`.
-/
inductive Ends
    (rely : σ → σ → Prop)
    (P : σ → Prop) :
    Action ε χ σ α → σ → Prop
| done (result : Except ε α) {s : σ} :
    P s → Ends rely P (.done result) s
| step
    {effects : σ → List χ}
    {next : σ → σ}
    {rest : σ → Action ε χ σ α}
    {s : σ} :
    (∀ t, rely (next s) t → Ends rely P (rest s) t) →
      Ends rely P (.step effects next rest) s

/- It does when `P` holds and no step takes it back. -/
theorem Ends.of_ensures
    {rely : σ → σ → Prop}
    {P : σ → Prop}
    {C : σ → List χ → σ → Prop}
    (hStable : ∀ s t, rely s t → P s → P t)
    (hKeeps : ∀ s xs t, C s xs t → P s → P t)
    {act : Action ε χ σ α}
    (hAct : Ensures C act)
    {s : σ}
    (hNow : P s) :
    Ends rely P act s := by
  induction hAct generalizing s with
  | done result => exact .done result hNow
  | step hStep _ ih =>
      refine .step (fun t hRely => ih s ?_)
      exact hStable _ t hRely (hKeeps _ _ _ (hStep s) hNow)

/- A guarded first step, with what follows or the handler. -/
theorem Ends.catch_atomic_bind
    {rely : σ → σ → Prop}
    {P : σ → Prop}
    {f : σ → Outcome ε χ σ β}
    {g : β → Action ε χ σ α}
    {handler : ε → Action ε χ σ α}
    {s : σ}
    (hNext :
      ∀ b, (f s).result = .ok b →
        ∀ t, rely (f s).state t →
          Ends rely P ((g b).catchAll handler) t)
    (hError :
      ∀ e, (f s).result = .error e →
        ∀ t, rely (f s).state t →
          Ends rely P (handler e) t) :
    Ends rely P
      ((Action.atomic f >>= g).catchAll handler) s := by
  refine .step (fun t hRely => ?_)
  simp only
  cases hResult : (f s).result with
  | error e => exact hError e hResult t hRely
  | ok b => exact hNext b hResult t hRely

/- An execution with steps of others after each of its own. -/
inductive Among
    (rely : σ → σ → Prop) :
    Action ε χ σ α → σ → σ → Prop
| done (result : Except ε α) (s : σ) :
    Among rely (.done result) s s
| step
    {effects : σ → List χ}
    {next : σ → σ}
    {rest : σ → Action ε χ σ α}
    {s t u : σ} :
    rely (next s) t →
      Among rely (rest s) t u →
        Among rely (.step effects next rest) s u

namespace Among

variable {rely : σ → σ → Prop}

/- The others may do nothing. -/
theorem of_run
    (hRefl : ∀ s, rely s s)
    (act : Action ε χ σ α)
    (s : σ) :
    Among rely act s (act.run s).state := by
  induction act generalizing s with
  | done result => exact .done result s
  | step effects next rest ih =>
      exact .step (hRefl (next s)) (ih s (next s))

/- What all steps keep is kept by the whole execution. -/
theorem within
    {G : σ → List χ → σ → Prop}
    {R : σ → σ → Prop}
    {act : Action ε χ σ α}
    {s u : σ}
    (hAmong : Among rely act s u)
    (hAct : Guarantees rely G act s)
    (hRefl : ∀ s, R s s)
    (hTrans : ∀ {s t u}, R s t → R t u → R s u)
    (hOwn : ∀ s xs t, G s xs t → R s t)
    (hOthers : ∀ s t, rely s t → R s t) :
    R s u := by
  induction hAmong with
  | done result s => exact hRefl s
  | step hRely _ ih =>
      cases hAct with
      | step hStep hRest =>
          have hFirst := hTrans (hOwn _ _ _ hStep)
            (hOthers _ _ hRely)
          exact hTrans hFirst (ih (hRest _ hRely))

end Among

------------------------------------------------------------
-- The Past of One Thread
------------------------------------------------------------

/-
  With `trace` behind it: every step of the action is within
  `R`, which may refer to the steps before it, and when the
  action returns normally, all its steps satisfy `Q`.  Only
  states in `A` are considered.
-/
inductive Traces
    (A : σ → Prop)
    (R : List (Transition σ χ) → σ → List χ → σ → Prop)
    (Q : List (Transition σ χ) → Prop) :
    List (Transition σ χ) → Action ε χ σ α → Prop
| returned
    {trace : List (Transition σ χ)}
    (a : α) :
    Q trace → Traces A R Q trace (.done (.ok a))
| threw (trace : List (Transition σ χ)) (e : ε) :
    Traces A R Q trace (.done (.error e))
| step
    {trace : List (Transition σ χ)}
    {effects : σ → List χ}
    {next : σ → σ}
    {rest : σ → Action ε χ σ α} :
    (∀ s, A s → R trace s (effects s) (next s)) →
      (∀ s, A s →
        Traces A R Q
          (trace ++ [⟨s, effects s, next s⟩]) (rest s)) →
        Traces A R Q trace (.step effects next rest)

namespace Traces

variable {A : σ → Prop}
variable {R : List (Transition σ χ) → σ → List χ → σ → Prop}
variable {Q : List (Transition σ χ) → Prop}
variable {trace : List (Transition σ χ)}

theorem atomic_bind
    {f : σ → Outcome ε χ σ α}
    {g : α → Action ε χ σ β}
    (hStep :
      ∀ s, A s → R trace s (f s).effects (f s).state)
    (hNext :
      ∀ s a, A s → (f s).result = .ok a →
        Traces A R Q
          (trace ++ [⟨s, (f s).effects, (f s).state⟩])
          (g a)) :
    Traces A R Q trace (Action.atomic f >>= g) := by
  refine .step hStep (fun s hA => ?_)
  simp only
  cases hResult : (f s).result with
  | error e => exact .threw _ e
  | ok a => exact hNext s a hA hResult

theorem ofExcept_bind
    {x : Except ε α}
    {g : α → Action ε χ σ β}
    (hNext : ∀ a, x = .ok a → Traces A R Q trace (g a)) :
    Traces A R Q trace (Action.ofExcept x >>= g) := by
  cases x with
  | error e => exact .threw trace e
  | ok a => exact hNext a rfl

/- Steps that need no past, when nothing is asked in the end. -/
theorem of_ensures
    {C : σ → List χ → σ → Prop}
    {act : Action ε χ σ α}
    (hAct : Ensures C act)
    (hWithin : ∀ trace s xs t, C s xs t → R trace s xs t)
    (hEnd : ∀ trace, Q trace)
    (trace : List (Transition σ χ)) :
    Traces A R Q trace act := by
  induction hAct generalizing trace with
  | done result =>
      cases result with
      | error e => exact .threw trace e
      | ok a => exact .returned a (hEnd trace)
  | step hStep _ ih =>
      exact
        .step
          (fun s _ => hWithin trace _ _ _ (hStep s))
          (fun s _ => ih s _)

/- Without an assumption on the states the past may go. -/
theorem ensures
    {C : σ → List χ → σ → Prop}
    {act : Action ε χ σ α}
    (hAct : Traces (fun _ => True) R Q trace act)
    (hWithin : ∀ trace s xs t, R trace s xs t → C s xs t) :
    Ensures C act := by
  induction hAct with
  | returned a _ => exact .done (.ok a)
  | threw trace e => exact .done (.error e)
  | step hStep _ ih =>
      exact
        .step
          (fun s => hWithin _ _ _ _ (hStep s trivial))
          (fun s => ih s trivial)

theorem mono
    {R' :
      List (Transition σ χ) → σ → List χ → σ → Prop}
    {act : Action ε χ σ α}
    (hAct : Traces A R Q trace act)
    (hWithin :
      ∀ trace s xs t, R trace s xs t → R' trace s xs t) :
    Traces A R' Q trace act := by
  induction hAct with
  | returned a hEnd => exact .returned a hEnd
  | threw trace e => exact .threw trace e
  | step hStep _ ih =>
      exact
        .step
          (fun s hA => hWithin _ _ _ _ (hStep s hA))
          (fun s hA => ih s hA)

/- What follows knows what the first part has ensured. -/
theorem bind
    {Q' : List (Transition σ χ) → Prop}
    {act : Action ε χ σ α}
    {g : α → Action ε χ σ β}
    (hAct : Traces A R Q' trace act)
    (hNext :
      ∀ a more, Q' (trace ++ more) →
        Traces A R Q (trace ++ more) (g a)) :
    Traces A R Q trace (act >>= g) := by
  induction hAct with
  | returned a hEnd =>
      have hThen := hNext a [] (by simpa using hEnd)
      rw [List.append_nil] at hThen
      exact hThen
  | threw trace e => exact .threw trace e
  | step hStep _ ih =>
      refine .step hStep (fun s hA => ih s hA ?_)
      intro a more hEnd
      rw [List.append_assoc] at hEnd ⊢
      exact hNext a _ hEnd

theorem catchAll
    {act : Action ε χ σ α}
    {handler : ε → Action ε χ σ α}
    (hAct : Traces A R Q trace act)
    (hHandler :
      ∀ e more,
        Traces A R Q (trace ++ more) (handler e)) :
    Traces A R Q trace (act.catchAll handler) := by
  induction hAct with
  | returned a hEnd => exact .returned a hEnd
  | threw trace e =>
      have hThen := hHandler e []
      rw [List.append_nil] at hThen
      exact hThen
  | step hStep _ ih =>
      refine .step hStep (fun s hA => ih s hA ?_)
      intro e more
      rw [List.append_assoc]
      exact hHandler e _

/- What is true in the end, whatever such steps are added. -/
theorem settled
    {C : σ → List χ → σ → Prop}
    {act : Action ε χ σ α}
    (hAct : Ensures C act)
    (hWithin : ∀ trace s xs t, C s xs t → R trace s xs t)
    (hEnd :
      ∀ more : List (Transition σ χ),
        (∀ m ∈ more, C m.before m.effects m.after) →
          Q (trace ++ more)) :
    Traces A R Q trace act := by
  induction hAct generalizing trace with
  | done result =>
      cases result with
      | error e => exact .threw trace e
      | ok a =>
          have hNow := hEnd [] (by simp)
          rw [List.append_nil] at hNow
          exact .returned a hNow
  | step hStep _ ih =>
      refine
        .step (fun s _ => hWithin trace _ _ _ (hStep s))
          (fun s _ => ih s ?_)
      intro more hMore
      rw [List.append_assoc]
      apply hEnd
      intro m hMem
      rcases List.mem_cons.mp hMem with hFirst | hLater
      · rw [hFirst]
        exact hStep s
      · exact hMore m hLater

/- A guarded first step, with what follows or the handler. -/
theorem catch_atomic_bind
    {f : σ → Outcome ε χ σ β}
    {g : β → Action ε χ σ α}
    {handler : ε → Action ε χ σ α}
    (hStep :
      ∀ s, A s → R trace s (f s).effects (f s).state)
    (hNext :
      ∀ s b, A s → (f s).result = .ok b →
        Traces A R Q
          (trace ++ [⟨s, (f s).effects, (f s).state⟩])
          ((g b).catchAll handler))
    (hError :
      ∀ s e, A s → (f s).result = .error e →
        Traces A R Q
          (trace ++ [⟨s, (f s).effects, (f s).state⟩])
          (handler e)) :
    Traces A R Q trace
      ((Action.atomic f >>= g).catchAll handler) := by
  refine .step hStep (fun s hA => ?_)
  simp only
  cases hResult : (f s).result with
  | error e => exact hError s e hA hResult
  | ok b => exact hNext s b hA hResult

theorem catch_ofExcept_bind
    {x : Except ε β}
    {g : β → Action ε χ σ α}
    {handler : ε → Action ε χ σ α}
    (hNext :
      ∀ b, x = .ok b →
        Traces A R Q trace ((g b).catchAll handler))
    (hError :
      ∀ e, x = .error e → Traces A R Q trace (handler e)) :
    Traces A R Q trace
      ((Action.ofExcept x >>= g).catchAll handler) := by
  cases x with
  | error e => exact hError e rfl
  | ok b => exact hNext b rfl

/- Steps that need no past go before others. -/
theorem ensures_bind
    {C : σ → List χ → σ → Prop}
    {act : Action ε χ σ α}
    {g : α → Action ε χ σ β}
    (hAct : Ensures C act)
    (hWithin : ∀ trace s xs t, C s xs t → R trace s xs t)
    (hNext :
      ∀ a more, Traces A R Q (trace ++ more) (g a)) :
    Traces A R Q trace (act >>= g) :=
  bind (of_ensures hAct hWithin (fun _ => trivial) trace)
    (fun a more _ => hNext a more)

end Traces

------------------------------------------------------------
-- Invariants
------------------------------------------------------------

/-
  The obligations of a rely-guarantee proof: calls take steps
  within `C` and rely on `Rc`, events take steps within `G`
  and rely on `Re`, and all steps keep `I`.
-/
structure Rules
    (program : Program ε χ σ γ κ η)
    (Rc Re : σ → σ → Prop)
    (C G : σ → List χ → σ → Prop)
    (I : σ → γ → Prop) : Prop where
  callRefl : ∀ s h, I s h → Rc s s
  eventRefl : ∀ s h, I s h → Re s s
  callTrans : ∀ s t u, Rc s t → Rc t u → Rc s u
  eventTrans : ∀ s t u, Re s t → Re t u → Re s u
  callCode :
    ∀ k s h t, I s h → Rc s t →
      Guarantees Rc C (program.callCode k) t
  eventCode :
    ∀ e s h t, I s h → Re s t →
      Guarantees Re G (program.eventCode e) t
  callKeeps :
    ∀ s xs t h, I s h → C s xs t →
      I t (program.note s xs t h)
  eventKeeps :
    ∀ s xs t h, I s h → G s xs t →
      I t (program.note s xs t h)
  callCall : ∀ s xs t h, I s h → C s xs t → Rc s t
  callEvent : ∀ s xs t h, I s h → C s xs t → Re s t
  eventCall : ∀ s xs t h, I s h → G s xs t → Rc s t

/- What the rule below keeps along a run. -/
structure Pool.Safe
    (Rc Re : σ → σ → Prop)
    (C G : σ → List χ → σ → Prop)
    (I : σ → γ → Prop)
    (p : Pool ε χ σ γ κ η) : Prop where
  inv : I p.shared p.history
  calls :
    ∀ thread ∈ p.calls, ∀ t, Rc p.shared t →
      Guarantees Rc C thread.code t
  events :
    ∀ thread, p.events = some thread →
      ∀ t, Re p.shared t → Guarantees Re G thread.code t

/- Nothing runs in the beginning. -/
theorem Pool.safe_start
    {Rc Re : σ → σ → Prop}
    {C G : σ → List χ → σ → Prop}
    {I : σ → γ → Prop}
    {p : Pool ε χ σ γ κ η}
    (hInv : I p.shared p.history)
    (hCalls : p.calls = [])
    (hEvents : p.events = none) :
    p.Safe Rc Re C G I where
  inv := hInv
  calls := by
    intro thread hThread
    rw [hCalls] at hThread
    cases hThread
  events := by
    intro thread hThread
    rw [hEvents] at hThread
    cases hThread

namespace Rules

variable {program : Program ε χ σ γ κ η}
variable {Rc Re : σ → σ → Prop}
variable {C G : σ → List χ → σ → Prop}
variable {I : σ → γ → Prop}

theorem stepCall
    (hRules : Rules program Rc Re C G I)
    {p : Pool ε χ σ γ κ η}
    (hSafe : p.Safe Rc Re C G I)
    (i : Nat) :
    (p.stepCall program i).Safe Rc Re C G I := by
  cases hCall : p.calls[i]? with
  | none =>
      rw [Pool.stepCall_ended]
      · exact hSafe
      · intro thread hThread
        rw [hCall] at hThread
        cases hThread
  | some thread =>
      cases hCode : thread.code with
      | done result =>
          rw [Pool.stepCall_ended]
          · exact hSafe
          · intro thread' hThread
            rw [hCall] at hThread
            cases hThread
            exact ⟨result, hCode⟩
      | step effects next rest =>
          rw [Pool.stepCall_running program hCall hCode]
          have hNow :=
            hSafe.calls thread (List.mem_of_getElem? hCall)
              p.shared
              (hRules.callRefl _ _ hSafe.inv)
          rw [hCode] at hNow
          cases hNow with
          | step hStep hRest =>
              refine
                ⟨hRules.callKeeps _ _ _ _ hSafe.inv hStep,
                  ?_, ?_⟩
              · intro thread' hThread' t hOthers
                rcases List.mem_or_eq_of_mem_set hThread' with
                  hOld | hNew
                · have hRely :=
                    hRules.callCall _ _ _ _ hSafe.inv hStep
                  exact
                    hSafe.calls thread' hOld t
                      (hRules.callTrans _ _ _ hRely hOthers)
                · rw [hNew]
                  exact hRest t hOthers
              · intro thread' hThread' t hOthers
                have hRely :=
                  hRules.callEvent _ _ _ _ hSafe.inv hStep
                exact
                  hSafe.events thread' hThread' t
                    (hRules.eventTrans _ _ _ hRely hOthers)

theorem stepEvent
    (hRules : Rules program Rc Re C G I)
    {p : Pool ε χ σ γ κ η}
    (hSafe : p.Safe Rc Re C G I) :
    (p.stepEvent program).Safe Rc Re C G I := by
  unfold Pool.stepEvent
  cases hEvents : p.events with
  | none => exact hSafe
  | some thread =>
      have hNow :=
        hSafe.events thread hEvents p.shared
          (hRules.eventRefl _ _ hSafe.inv)
      cases hCode : thread.code with
      | done result =>
          simp only [Pool.advance, hCode]
          refine ⟨hSafe.inv, hSafe.calls, ?_⟩
          intro thread' hThread'
          cases hThread'
          exact hSafe.events thread hEvents
      | step effects next rest =>
          rw [hCode] at hNow
          simp only [Pool.advance, hCode]
          cases hNow with
          | step hStep hRest =>
              refine
                ⟨hRules.eventKeeps _ _ _ _ hSafe.inv hStep,
                  ?_, ?_⟩
              · intro thread' hThread' t hOthers
                have hRely :=
                  hRules.eventCall _ _ _ _ hSafe.inv hStep
                exact
                  hSafe.calls thread' hThread' t
                    (hRules.callTrans _ _ _ hRely hOthers)
              · intro thread' hThread'
                cases hThread'
                exact hRest

theorem step
    (hRules : Rules program Rc Re C G I)
    {p q : Pool ε χ σ γ κ η}
    {l : Label κ η}
    (hSafe : p.Safe Rc Re C G I)
    (hStep : Pool.Step program p l q) :
    q.Safe Rc Re C G I := by
  rcases hStep with ⟨_, hNext⟩
  rw [hNext]
  cases l with
  | call k =>
      refine ⟨hSafe.inv, ?_, hSafe.events⟩
      intro thread hThread t hOthers
      rcases List.mem_append.mp hThread with hOld | hNew
      · exact hSafe.calls thread hOld t hOthers
      · rw [List.mem_singleton.mp hNew]
        exact
          hRules.callCode k p.shared p.history t hSafe.inv
            hOthers
  | event h =>
      refine ⟨hSafe.inv, hSafe.calls, ?_⟩
      intro thread hThread t hOthers
      cases hThread
      exact
        hRules.eventCode h p.shared p.history t hSafe.inv
          hOthers
  | stepCall i => exact hRules.stepCall hSafe i
  | stepEvent => exact hRules.stepEvent hSafe

theorem safe
    (hRules : Rules program Rc Re C G I)
    {p q : Pool ε χ σ γ κ η}
    {ls : List (Label κ η)}
    (hRun : StateMachine.Run (Pool.Step program) p ls q)
    (hStart : p.Safe Rc Re C G I) :
    q.Safe Rc Re C G I :=
  hRun.invariant
    (fun _ _ _ hBefore hStep => hRules.step hBefore hStep)
    hStart

/- The invariant holds in every state of a run. -/
theorem invariant
    (hRules : Rules program Rc Re C G I)
    {p q : Pool ε χ σ γ κ η}
    {ls : List (Label κ η)}
    (hRun : StateMachine.Run (Pool.Step program) p ls q)
    (hStart : p.Safe Rc Re C G I) :
    I q.shared q.history :=
  (hRules.safe hRun hStart).inv

end Rules

/-
  What every step of all code keeps holds in every state of a
  run, however the threads take turns.
-/
theorem Pool.invariant_of_ensures
    {program : Program ε χ σ γ κ η}
    {C : σ → List χ → σ → Prop}
    {I : σ → Prop}
    (hCalls : ∀ k, Ensures C (program.callCode k))
    (hEvents : ∀ e, Ensures C (program.eventCode e))
    (hKeeps : ∀ s xs t, I s → C s xs t → I t)
    {p q : Pool ε χ σ γ κ η}
    {ls : List (Label κ η)}
    (hRun : StateMachine.Run (Pool.Step program) p ls q)
    (hStart : I p.shared)
    (hNoCalls : p.calls = [])
    (hNoEvents : p.events = none) :
    I q.shared := by
  have hRules :
      Rules program (fun _ _ => True) (fun _ _ => True) C C
        (fun s _ => I s) :=
    { callRefl := fun _ _ _ => trivial
      eventRefl := fun _ _ _ => trivial
      callTrans := fun _ _ _ _ _ => trivial
      eventTrans := fun _ _ _ _ _ => trivial
      callCode := fun k _ _ t _ _ => .of_ensures (hCalls k) t
      eventCode := fun e _ _ t _ _ =>
        .of_ensures (hEvents e) t
      callKeeps := fun s xs t _ hInv hStep =>
        hKeeps s xs t hInv hStep
      eventKeeps := fun s xs t _ hInv hStep =>
        hKeeps s xs t hInv hStep
      callCall := fun _ _ _ _ _ _ => trivial
      callEvent := fun _ _ _ _ _ _ => trivial
      eventCall := fun _ _ _ _ _ _ => trivial }
  exact
    hRules.invariant hRun
      (Pool.safe_start hStart hNoCalls hNoEvents)

------------------------------------------------------------
-- What Every Call Has Done
------------------------------------------------------------

namespace Pool

variable {program : Program ε χ σ γ κ η}

/- A property of calls, on their own, is kept by each step. -/
theorem forall_calls_step
    {P : Thread ε χ σ κ → Prop}
    {p q : Pool ε χ σ γ κ η}
    {l : Label κ η}
    (hNew :
      ∀ k, l = .call k →
        P { call := k, code := program.callCode k })
    (hAdvance :
      ∀ thread effects next rest,
        thread.code = .step effects next rest → P thread →
          P
            { thread with
              trace :=
                thread.trace ++
                  [⟨p.shared, effects p.shared,
                    next p.shared⟩]
              code := rest p.shared })
    (hCalls : ∀ thread ∈ p.calls, P thread)
    (hStep : Step program p l q) :
    ∀ thread ∈ q.calls, P thread := by
  rcases hStep with ⟨_, hNext⟩
  rw [hNext]
  cases l with
  | call k =>
      intro thread hThread
      rcases List.mem_append.mp hThread with hOld | hFresh
      · exact hCalls thread hOld
      · rw [List.mem_singleton.mp hFresh]
        exact hNew k rfl
  | event h => exact hCalls
  | stepEvent =>
      intro thread hThread
      simp only [exec, stepEvent_calls] at hThread
      exact hCalls thread hThread
  | stepCall i =>
      simp only [exec]
      cases hCall : p.calls[i]? with
      | none =>
          rw [stepCall_ended]
          · exact hCalls
          · intro thread hThread
            rw [hCall] at hThread
            cases hThread
      | some thread =>
          have hThread :=
            hCalls thread (List.mem_of_getElem? hCall)
          cases hCode : thread.code with
          | done result =>
              rw [stepCall_ended]
              · exact hCalls
              · intro thread' hThread'
                rw [hCall] at hThread'
                cases hThread'
                exact ⟨result, hCode⟩
          | step effects next rest =>
              rw [stepCall_running program hCall hCode]
              intro thread' hThread'
              rcases List.mem_or_eq_of_mem_set hThread' with
                hOld | hEq
              · exact hCalls thread' hOld
              · rw [hEq]
                exact
                  hAdvance thread effects next rest hCode
                    hThread

/- Every call has kept to what its code says. -/
theorem traces_step
    {A : σ → Prop}
    {R : κ → List (Transition σ χ) → σ → List χ → σ → Prop}
    {Q : κ → List (Transition σ χ) → Prop}
    {p q : Pool ε χ σ γ κ η}
    {l : Label κ η}
    (hCode :
      ∀ k, Traces A (R k) (Q k) [] (program.callCode k))
    (hState : A p.shared)
    (hCalls :
      ∀ thread ∈ p.calls,
        Traces A (R thread.call) (Q thread.call) thread.trace
          thread.code)
    (hStep : Step program p l q) :
    ∀ thread ∈ q.calls,
      Traces A (R thread.call) (Q thread.call) thread.trace
        thread.code := by
  refine
    forall_calls_step (fun k _ => hCode k) ?_ hCalls hStep
  intro thread effects next rest hRunning hThread
  rw [hRunning] at hThread
  cases hThread with
  | step _ hNext => exact hNext p.shared hState

/- A property of the event, on its own, is kept as well. -/
theorem forall_event_step
    {P : Thread ε χ σ η → Prop}
    {p q : Pool ε χ σ γ κ η}
    {l : Label κ η}
    (hNew :
      ∀ h, l = .event h →
        P { call := h, code := program.eventCode h })
    (hAdvance :
      ∀ thread effects next rest,
        thread.code = .step effects next rest → P thread →
          P
            { thread with
              trace :=
                thread.trace ++
                  [⟨p.shared, effects p.shared,
                    next p.shared⟩]
              code := rest p.shared })
    (hEvents : ∀ thread, p.events = some thread → P thread)
    (hStep : Step program p l q) :
    ∀ thread, q.events = some thread → P thread := by
  rcases hStep with ⟨_, hNext⟩
  rw [hNext]
  cases l with
  | call k => exact hEvents
  | event h =>
      intro thread hThread
      cases hThread
      exact hNew h rfl
  | stepCall i =>
      rw [show (exec program p (.stepCall i)).events =
        p.events from stepCall_events program i p]
      exact hEvents
  | stepEvent =>
      simp only [exec, stepEvent]
      cases hThread : p.events with
      | none =>
          intro thread hNone
          rw [hThread] at hNone
          cases hNone
      | some thread =>
          have hNow := hEvents thread hThread
          intro thread' hThread'
          cases hCode : thread.code with
          | done result =>
              simp only [advance, hCode] at hThread'
              cases hThread'
              exact hNow
          | step effects next rest =>
              simp only [advance, hCode] at hThread'
              cases hThread'
              exact hAdvance thread effects next rest hCode hNow

/- The event is the one that was running, or the new one. -/
theorem event_of_step
    {p q : Pool ε χ σ γ κ η}
    {l : Label κ η}
    (hStep : Step program p l q) :
    ∀ thread, q.events = some thread →
      l = .event thread.call ∨
        ∃ thread', p.events = some thread' ∧
          thread'.call = thread.call := by
  refine
    forall_event_step
      (P := fun thread =>
        l = .event thread.call ∨
          ∃ thread', p.events = some thread' ∧
            thread'.call = thread.call)
      ?_ ?_ ?_ hStep
  · exact fun h hLabel => Or.inl hLabel
  · exact fun _ _ _ _ _ hCall => hCall
  · exact fun thread hThread => Or.inr ⟨thread, hThread, rfl⟩

/-
  What holds of the code of selected events, together with
  any state that the calls may lead to, is kept when the
  steps of the calls are within what they rely on.
-/
theorem interfered_step_of
    {T : Action ε χ σ Unit → σ → Prop}
    {E : η → Prop}
    {rely : σ → σ → Prop}
    {C : σ → List χ → σ → Prop}
    {p q : Pool ε χ σ γ κ η}
    {l : Label κ η}
    (hRefl : ∀ s, rely s s)
    (hTrans : ∀ s t u, rely s t → rely t u → rely s u)
    (hRely : ∀ s xs t, C s xs t → rely s t)
    (hRest :
      ∀ effects next rest s,
        T (.step effects next rest) s →
          ∀ t, rely (next s) t → T (rest s) t)
    (hNew :
      ∀ h, l = .event h → E h →
        ∀ t, rely p.shared t → T (program.eventCode h) t)
    (hCalls : ∀ thread ∈ p.calls, Ensures C thread.code)
    (hEvents :
      ∀ thread, p.events = some thread →
        E thread.call →
          ∀ t, rely p.shared t → T thread.code t)
    (hStep : Step program p l q) :
    ∀ thread, q.events = some thread →
      E thread.call →
        ∀ t, rely q.shared t → T thread.code t := by
  rcases hStep with ⟨_, hNext⟩
  rw [hNext]
  cases l with
  | call k => exact hEvents
  | event h =>
      intro thread hThread hSelected t hOthers
      cases hThread
      exact hNew h rfl hSelected t hOthers
  | stepCall i =>
      intro thread hThread hSelected t hOthers
      simp only [exec, stepCall_events] at hThread
      simp only [exec] at hOthers
      refine hEvents thread hThread hSelected t ?_
      cases hCall : p.calls[i]? with
      | none =>
          rw [stepCall_ended] at hOthers
          · exact hOthers
          · intro caller hCaller
            rw [hCall] at hCaller
            cases hCaller
      | some caller =>
          cases hCode : caller.code with
          | done result =>
              rw [stepCall_ended] at hOthers
              · exact hOthers
              · intro caller' hCaller
                rw [hCall] at hCaller
                cases hCaller
                exact ⟨result, hCode⟩
          | step effects next rest =>
              rw [stepCall_running program hCall hCode]
                at hOthers
              have hCaller :=
                hCalls caller (List.mem_of_getElem? hCall)
              rw [hCode] at hCaller
              cases hCaller with
              | step hNow _ =>
                  exact
                    hTrans _ _ _
                      (hRely _ _ _ (hNow p.shared)) hOthers
  | stepEvent =>
      simp only [exec, stepEvent]
      cases hThread : p.events with
      | none =>
          intro thread hNone
          rw [hThread] at hNone
          cases hNone
      | some thread =>
          have hNow := hEvents thread hThread
          intro thread' hThread' hSelected t hOthers
          cases hCode : thread.code with
          | done result =>
              simp only [advance, hCode] at hThread' hOthers
              cases hThread'
              exact hNow hSelected t hOthers
          | step effects next rest =>
              simp only [advance, hCode] at hThread' hOthers
              cases hThread'
              have hHere :=
                hNow hSelected p.shared (hRefl _)
              rw [hCode] at hHere
              exact hRest effects next rest _ hHere t hOthers

/- The code of a new event may begin in any state. -/
theorem interfered_step
    {T : Action ε χ σ Unit → σ → Prop}
    {E : η → Prop}
    {rely : σ → σ → Prop}
    {C : σ → List χ → σ → Prop}
    {p q : Pool ε χ σ γ κ η}
    {l : Label κ η}
    (hRefl : ∀ s, rely s s)
    (hTrans : ∀ s t u, rely s t → rely t u → rely s u)
    (hRely : ∀ s xs t, C s xs t → rely s t)
    (hRest :
      ∀ effects next rest s,
        T (.step effects next rest) s →
          ∀ t, rely (next s) t → T (rest s) t)
    (hNew :
      ∀ h, l = .event h → E h →
        ∀ t, T (program.eventCode h) t)
    (hCalls : ∀ thread ∈ p.calls, Ensures C thread.code)
    (hEvents :
      ∀ thread, p.events = some thread →
        E thread.call →
          ∀ t, rely p.shared t → T thread.code t)
    (hStep : Step program p l q) :
    ∀ thread, q.events = some thread →
      E thread.call →
        ∀ t, rely q.shared t → T thread.code t := by
  exact
    interfered_step_of hRefl hTrans hRely hRest
      (fun h hLabel hSelected t _ => hNew h hLabel hSelected t)
      hCalls hEvents hStep

/- Selected events keep their guarantee. -/
theorem guarantees_step_of
    {E : η → Prop}
    {rely : σ → σ → Prop}
    {C G : σ → List χ → σ → Prop}
    {p q : Pool ε χ σ γ κ η}
    {l : Label κ η}
    (hRefl : ∀ s, rely s s)
    (hTrans : ∀ s t u, rely s t → rely t u → rely s u)
    (hRely : ∀ s xs t, C s xs t → rely s t)
    (hNew :
      ∀ h, l = .event h → E h →
        ∀ t, rely p.shared t →
          Guarantees rely G (program.eventCode h) t)
    (hCalls : ∀ thread ∈ p.calls, Ensures C thread.code)
    (hEvents :
      ∀ thread, p.events = some thread →
        E thread.call →
          ∀ t, rely p.shared t →
            Guarantees rely G thread.code t)
    (hStep : Step program p l q) :
    ∀ thread, q.events = some thread →
      E thread.call →
        ∀ t, rely q.shared t →
          Guarantees rely G thread.code t := by
  refine
    interfered_step_of hRefl hTrans hRely ?_ hNew hCalls
      hEvents hStep
  intro effects next rest s hHere t hOthers
  cases hHere with
  | step _ hRest => exact hRest t hOthers

theorem guarantees_step
    {E : η → Prop}
    {rely : σ → σ → Prop}
    {C G : σ → List χ → σ → Prop}
    {p q : Pool ε χ σ γ κ η}
    {l : Label κ η}
    (hRefl : ∀ s, rely s s)
    (hTrans : ∀ s t u, rely s t → rely t u → rely s u)
    (hRely : ∀ s xs t, C s xs t → rely s t)
    (hNew :
      ∀ h, l = .event h → E h →
        ∀ t, Guarantees rely G (program.eventCode h) t)
    (hCalls : ∀ thread ∈ p.calls, Ensures C thread.code)
    (hEvents :
      ∀ thread, p.events = some thread →
        E thread.call →
          ∀ t, rely p.shared t →
            Guarantees rely G thread.code t)
    (hStep : Step program p l q) :
    ∀ thread, q.events = some thread →
      E thread.call →
        ∀ t, rely q.shared t →
          Guarantees rely G thread.code t := by
  exact
    guarantees_step_of hRefl hTrans hRely
      (fun h hLabel hSelected t _ => hNew h hLabel hSelected t)
      hCalls hEvents hStep

------------------------------------------------------------
-- Steps of a Run
------------------------------------------------------------

/- The effects of the next step of the code, if it runs. -/
def effectsOf (act : Action ε χ σ α) (s : σ) : List χ :=
  match act with
  | .done _ => []
  | .step effects _ _ => effects s

/- What the step with this label will do to the outside. -/
def nextEffects (p : Pool ε χ σ γ κ η) : Label κ η → List χ
| .stepCall i =>
    match p.calls[i]? with
    | none => []
    | some thread => effectsOf thread.code p.shared
| .stepEvent =>
    match p.events with
    | none => []
    | some thread => effectsOf thread.code p.shared
| _ => []

/- What one step of a run does, with its effects. -/
theorem next_step
    {P : σ → List χ → σ → Prop}
    {p q : Pool ε χ σ γ κ η}
    {l : Label κ η}
    (hCalls :
      ∀ thread ∈ p.calls, ∀ effects next rest,
        thread.code = .step effects next rest →
          P p.shared (effects p.shared) (next p.shared))
    (hEvent :
      ∀ thread, p.events = some thread →
        ∀ effects next rest,
          thread.code = .step effects next rest →
            P p.shared (effects p.shared) (next p.shared))
    (hStep : Step program p l q) :
    (q.shared = p.shared ∧ q.history = p.history) ∨
      (P p.shared (p.nextEffects l) q.shared ∧
        q.history =
          program.note p.shared (p.nextEffects l) q.shared
            p.history) := by
  rcases hStep with ⟨_, hNext⟩
  subst hNext
  cases l with
  | call k => exact Or.inl ⟨rfl, rfl⟩
  | event h => exact Or.inl ⟨rfl, rfl⟩
  | stepEvent =>
      simp only [exec, stepEvent, nextEffects]
      cases hThread : p.events with
      | none => exact Or.inl ⟨rfl, rfl⟩
      | some thread =>
          cases hRunning : thread.code with
          | done result =>
              simp only [advance, hRunning]
              exact Or.inl ⟨trivial, trivial⟩
          | step effects next rest =>
              simp only [advance, hRunning, effectsOf]
              exact
                Or.inr
                  ⟨hEvent thread hThread _ _ _ hRunning,
                    trivial⟩
  | stepCall i =>
      simp only [exec, nextEffects]
      cases hThread : p.calls[i]? with
      | none =>
          rw [stepCall_ended]
          · exact Or.inl ⟨rfl, rfl⟩
          · intro thread hSome
            rw [hThread] at hSome
            cases hSome
      | some thread =>
          cases hRunning : thread.code with
          | done result =>
              rw [stepCall_ended]
              · exact Or.inl ⟨rfl, rfl⟩
              · intro thread' hSome
                rw [hThread] at hSome
                cases hSome
                exact ⟨result, hRunning⟩
          | step effects next rest =>
              rw [stepCall_running program hThread hRunning]
              simp only [effectsOf, hRunning]
              exact
                Or.inr
                  ⟨hCalls thread
                      (List.mem_of_getElem? hThread) _ _ _
                      hRunning,
                    trivial⟩

theorem shared_step
    {P : σ → List χ → σ → Prop}
    {p q : Pool ε χ σ γ κ η}
    {l : Label κ η}
    (hCalls :
      ∀ thread ∈ p.calls, ∀ effects next rest,
        thread.code = .step effects next rest →
          P p.shared (effects p.shared) (next p.shared))
    (hEvent :
      ∀ thread, p.events = some thread →
        ∀ effects next rest,
          thread.code = .step effects next rest →
            P p.shared (effects p.shared) (next p.shared))
    (hStep : Step program p l q) :
    (q.shared = p.shared ∧ q.history = p.history) ∨
      ∃ effects,
        P p.shared effects q.shared ∧
          q.history =
            program.note p.shared effects q.shared
              p.history := by
  rcases next_step hCalls hEvent hStep with hSame | hMoved
  · exact Or.inl hSame
  · exact Or.inr ⟨p.nextEffects l, hMoved⟩

/- All code that is running takes steps within `G`. -/
structure Within
    (G : σ → List χ → σ → Prop)
    (p : Pool ε χ σ γ κ η) : Prop where
  calls : ∀ thread ∈ p.calls, Ensures G thread.code
  events :
    ∀ thread, p.events = some thread → Ensures G thread.code

variable {G : σ → List χ → σ → Prop}

theorem Within.step
    (hCalls : ∀ k, Ensures G (program.callCode k))
    (hEvents : ∀ h, Ensures G (program.eventCode h))
    {p q : Pool ε χ σ γ κ η}
    {l : Label κ η}
    (hWithin : p.Within G)
    (hStep : Step program p l q) :
    q.Within G where
  calls := by
    refine
      forall_calls_step (fun k _ => hCalls k) ?_
        hWithin.calls hStep
    intro thread effects next rest hRunning hThread
    rw [hRunning] at hThread
    cases hThread with
    | step _ hRest => exact hRest p.shared
  events := by
    refine
      forall_event_step (fun h _ => hEvents h) ?_
        hWithin.events hStep
    intro thread effects next rest hRunning hThread
    rw [hRunning] at hThread
    cases hThread with
    | step _ hRest => exact hRest p.shared

theorem Within.shared
    {p q : Pool ε χ σ γ κ η}
    {l : Label κ η}
    (hWithin : p.Within G)
    (hStep : Step program p l q) :
    (q.shared = p.shared ∧ q.history = p.history) ∨
      ∃ effects,
        G p.shared effects q.shared ∧
          q.history =
            program.note p.shared effects q.shared
              p.history := by
  refine shared_step ?_ ?_ hStep
  · intro thread hThread effects next rest hRunning
    have hCode := hWithin.calls thread hThread
    rw [hRunning] at hCode
    cases hCode with
    | step hNow _ => exact hNow p.shared
  · intro thread hThread effects next rest hRunning
    have hCode := hWithin.events thread hThread
    rw [hRunning] at hCode
    cases hCode with
    | step hNow _ => exact hNow p.shared

------------------------------------------------------------
-- Histories of All Steps
------------------------------------------------------------

/- The history has every step that a thread remembers. -/
structure Logged
    (p : Pool ε χ σ (List (Transition σ χ)) κ η) : Prop where
  calls :
    ∀ thread ∈ p.calls, ∀ m ∈ thread.trace, m ∈ p.history
  events :
    ∀ thread, p.events = some thread →
      ∀ m ∈ thread.trace, m ∈ p.history

theorem Logged.step
    {program :
      Program ε χ σ (List (Transition σ χ)) κ η}
    (hNoted :
      program.note =
        fun s xs t history => history ++ [⟨s, xs, t⟩])
    {p q : Pool ε χ σ (List (Transition σ χ)) κ η}
    {l : Label κ η}
    (hLogged : p.Logged)
    (hStep : Step program p l q) :
    q.Logged := by
  rcases hStep with ⟨_, hNext⟩
  rw [hNext]
  have hLater
      {trace : List (Transition σ χ)}
      {last m : Transition σ χ}
      (hTrace : ∀ m ∈ trace, m ∈ p.history)
      (hMem : m ∈ trace ++ [last]) :
      m ∈ p.history ++ [last] := by
    rcases List.mem_append.mp hMem with hOld | hLast
    · exact List.mem_append_left _ (hTrace m hOld)
    · exact List.mem_append_right _ hLast
  cases l with
  | call k =>
      refine ⟨?_, hLogged.events⟩
      intro thread hThread m hMem
      rcases List.mem_append.mp hThread with hOld | hNew
      · exact hLogged.calls thread hOld m hMem
      · rw [List.mem_singleton.mp hNew] at hMem
        cases hMem
  | event h =>
      refine ⟨hLogged.calls, ?_⟩
      intro thread hThread m hMem
      cases hThread
      cases hMem
  | stepEvent =>
      simp only [exec, stepEvent]
      cases hThread : p.events with
      | none => exact hLogged
      | some thread =>
          have hTrace := hLogged.events thread hThread
          cases hRunning : thread.code with
          | done result =>
              simp only [advance, hRunning]
              refine ⟨hLogged.calls, ?_⟩
              intro thread' hThread'
              cases hThread'
              exact hTrace
          | step effects next rest =>
              simp only [advance, hRunning, hNoted]
              refine ⟨?_, ?_⟩
              · intro thread' hThread' m hMem
                have hOld := hLogged.calls thread' hThread' m
                  hMem
                exact List.mem_append_left _ hOld
              · intro thread' hThread' m hMem
                cases hThread'
                exact hLater hTrace hMem
  | stepCall i =>
      simp only [exec]
      cases hThread : p.calls[i]? with
      | none =>
          rw [stepCall_ended]
          · exact hLogged
          · intro thread hSome
            rw [hThread] at hSome
            cases hSome
      | some thread =>
          have hTrace :=
            hLogged.calls thread (List.mem_of_getElem? hThread)
          cases hRunning : thread.code with
          | done result =>
              rw [stepCall_ended]
              · exact hLogged
              · intro thread' hSome
                rw [hThread] at hSome
                cases hSome
                exact ⟨result, hRunning⟩
          | step effects next rest =>
              rw [stepCall_running program hThread hRunning,
                hNoted]
              refine ⟨?_, ?_⟩
              · intro thread' hThread' m hMem
                rcases List.mem_or_eq_of_mem_set hThread' with
                  hOld | hEq
                · have hBefore :=
                    hLogged.calls thread' hOld m hMem
                  exact List.mem_append_left _ hBefore
                · rw [hEq] at hMem
                  exact hLater hTrace hMem
              · intro thread' hThread' m hMem
                have hBefore :=
                  hLogged.events thread' hThread' m hMem
                exact List.mem_append_left _ hBefore

end Pool

------------------------------------------------------------
-- Executions Among Others
------------------------------------------------------------

/-
  The action has taken these steps, with steps of others in
  between, and has ended with the result.
-/
inductive Executes :
    Action ε χ σ α → List (Transition σ χ) →
      Except ε α → Prop
| done (result : Except ε α) :
    Executes (.done result) [] result
| step
    {effects : σ → List χ}
    {next : σ → σ}
    {rest : σ → Action ε χ σ α}
    {steps : List (Transition σ χ)}
    {result : Except ε α}
    (s : σ) :
    Executes (rest s) steps result →
      Executes (.step effects next rest)
        (⟨s, effects s, next s⟩ :: steps) result

namespace Executes

theorem atomic
    {f : σ → Outcome ε χ σ α}
    {steps : List (Transition σ χ)}
    {result : Except ε α}
    (hExecutes : Executes (Action.atomic f) steps result) :
    ∃ s, steps = [⟨s, (f s).effects, (f s).state⟩] ∧
      result = (f s).result := by
  cases hExecutes with
  | step s hRest =>
      cases hRest with
      | done result => exact ⟨s, rfl, rfl⟩

/- The first part has ended, with an exception or not. -/
theorem bind
    {act : Action ε χ σ α}
    {g : α → Action ε χ σ β}
    {steps : List (Transition σ χ)}
    {result : Except ε β}
    (hExecutes : Executes (act >>= g) steps result) :
    (∃ e, Executes act steps (.error e) ∧ result = .error e) ∨
      ∃ a front rest,
        Executes act front (.ok a) ∧
          Executes (g a) rest result ∧
            steps = front ++ rest := by
  induction act generalizing steps with
  | done ended =>
      cases ended with
      | error e =>
          cases hExecutes with
          | done result => exact Or.inl ⟨e, .done _, rfl⟩
      | ok a =>
          exact Or.inr ⟨a, [], steps, .done _, hExecutes, rfl⟩
  | step effects next rest ih =>
      cases hExecutes with
      | step s hRest =>
          rcases ih s hRest with
            ⟨e, hFirst, hResult⟩ |
              ⟨a, front, later, hFirst, hLater, hSteps⟩
          · exact Or.inl ⟨e, .step s hFirst, hResult⟩
          · exact
              Or.inr
                ⟨a, _ :: front, later, .step s hFirst, hLater,
                  congrArg _ hSteps⟩

/- The guarded part has returned, or the handler has ended. -/
theorem catchAll
    {act : Action ε χ σ α}
    {handler : ε → Action ε χ σ α}
    {steps : List (Transition σ χ)}
    {result : Except ε α}
    (hExecutes :
      Executes (act.catchAll handler) steps result) :
    (∃ a, Executes act steps (.ok a) ∧ result = .ok a) ∨
      ∃ e front rest,
        Executes act front (.error e) ∧
          Executes (handler e) rest result ∧
            steps = front ++ rest := by
  induction act generalizing steps with
  | done ended =>
      cases ended with
      | error e =>
          exact Or.inr ⟨e, [], steps, .done _, hExecutes, rfl⟩
      | ok a =>
          cases hExecutes with
          | done result => exact Or.inl ⟨a, .done _, rfl⟩
  | step effects next rest ih =>
      cases hExecutes with
      | step s hRest =>
          rcases ih s hRest with
            ⟨a, hFirst, hResult⟩ |
              ⟨e, front, later, hFirst, hLater, hSteps⟩
          · exact Or.inl ⟨a, .step s hFirst, hResult⟩
          · exact
              Or.inr
                ⟨e, _ :: front, later, .step s hFirst, hLater,
                  congrArg _ hSteps⟩

end Executes

namespace Pool

variable {program : Program ε χ σ γ κ η}

/- What is left completes what the thread has done. -/
def Halfway
    (program : Program ε χ σ γ κ η)
    (thread : Thread ε χ σ κ) : Prop :=
  ∀ steps result,
    Executes thread.code steps result →
      Executes (program.callCode thread.call)
        (thread.trace ++ steps) result

/- A call that has ended has executed its code. -/
theorem executes_of_run
    {p q : Pool ε χ σ γ κ η}
    {ls : List (Label κ η)}
    (hRun : StateMachine.Run (Step program) p ls q)
    (hStart : p.calls = [])
    {thread : Thread ε χ σ κ}
    {result : Except ε Unit}
    (hThread : thread ∈ q.calls)
    (hEnded : thread.code = .done result) :
    Executes (program.callCode thread.call) thread.trace
      result := by
  let P (p : Pool ε χ σ γ κ η) : Prop :=
    ∀ thread ∈ p.calls, Halfway program thread
  have hFirst : P p := by
    intro thread hMem
    rw [hStart] at hMem
    cases hMem
  have hLast : P q := by
    refine hRun.invariant ?_ hFirst
    intro p l q hCalls hStep
    refine forall_calls_step ?_ ?_ hCalls hStep
    · exact fun k _ steps result hExecutes => hExecutes
    · intro thread effects next rest hCode hHalf steps result
        hRest
      have hNow :
          Executes (.step effects next rest)
            (⟨p.shared, effects p.shared, next p.shared⟩ ::
              steps)
            result :=
        .step p.shared hRest
      rw [← hCode] at hNow
      rw [List.append_assoc]
      exact hHalf _ result hNow
  have hHalf := hLast thread hThread [] result
  rw [hEnded, List.append_nil] at hHalf
  exact hHalf (.done result)

end Pool

------------------------------------------------------------
-- Traces Looked Back At
------------------------------------------------------------

/- Every step was within `R`, given the steps before it. -/
def Explained
    (R : List (Transition σ χ) → σ → List χ → σ → Prop)
    (trace : List (Transition σ χ)) : Prop :=
  ∀ before m after, trace = before ++ m :: after →
    R before m.before m.effects m.after

theorem Explained.nil
    {R : List (Transition σ χ) → σ → List χ → σ → Prop} :
    Explained R [] := by
  intro before m after hEmpty
  simp at hEmpty

theorem Explained.snoc
    {R : List (Transition σ χ) → σ → List χ → σ → Prop}
    {trace : List (Transition σ χ)}
    {m : Transition σ χ}
    (hExplained : Explained R trace)
    (hLast : R trace m.before m.effects m.after) :
    Explained R (trace ++ [m]) := by
  intro before m' after hSplit
  rcases List.eq_nil_or_concat after with hEnd | ⟨rest, x, hRest⟩
  · subst hEnd
    rcases List.append_inj' hSplit rfl with ⟨hBefore, hSame⟩
    cases hSame
    rw [← hBefore]
    exact hLast
  · subst hRest
    apply hExplained before m' rest
    have hParts :
        trace ++ [m] = (before ++ m' :: rest) ++ [x] := by
      simpa using hSplit
    exact (List.append_inj' hParts rfl).1

end Threads
