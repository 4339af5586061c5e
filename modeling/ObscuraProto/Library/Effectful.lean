import Mathlib.Data.List.Basic

/-
  Imperative code with exceptions and visible effects.

  An action is a sequence of atomic steps on a shared state.
  A step has effects on the outside and a next state, and the
  code that follows depends on the state the step has seen; a
  thrown exception undoes nothing.  `run` is the execution
  without interference.  `Ensures R` says that every single
  step is within `R`, so it holds under any interleaving and,
  if `R` composes, of the whole run.

  Main declarations:
    * `Effectful.Action`, `Effectful.Action.run`
    * `Effectful.Action.atomic`
    * `Effectful.Action.atomically`
    * `Effectful.Action.catchAll`
    * `Effectful.Action.run_bind_ok`
    * `Effectful.Action.bind_assoc`
    * `Effectful.Composes`, `Effectful.Ensures`
    * `Effectful.Ensures.bind`, `Effectful.Ensures.catchAll`
    * `Effectful.Ensures.run`
    * `Effectful.Runs`, `Effectful.Runs.bind`
    * `Effectful.Throws`
-/

namespace Effectful

variable {ε χ σ α β : Type}

------------------------------------------------------------
-- Actions
------------------------------------------------------------

/- How an execution ends; effects stand oldest first. -/
structure Outcome (ε χ σ α : Type) where
  result : Except ε α
  effects : List χ
  state : σ

inductive Action (ε χ σ α : Type) where
| done (result : Except ε α)
| step
    (effects : σ → List χ)
    (next : σ → σ)
    (rest : σ → Action ε χ σ α)

namespace Action

/- Execution from a state, with nothing in between. -/
def run : Action ε χ σ α → σ → Outcome ε χ σ α
| .done result, s =>
    { result := result, effects := [], state := s }
| .step effects next rest, s =>
    let o := (rest s).run (next s)
    { result := o.result
      effects := effects s ++ o.effects
      state := o.state }

def andThen :
    Action ε χ σ α →
      (α → Action ε χ σ β) → Action ε χ σ β
| .done (.error e), _ => .done (.error e)
| .done (.ok a), f => f a
| .step effects next rest, f =>
    .step effects next (fun s => (rest s).andThen f)

instance : Monad (Action ε χ σ) where
  pure a := .done (.ok a)
  bind := andThen

/- `try` with a handler for every exception. -/
def catchAll :
    Action ε χ σ α →
      (ε → Action ε χ σ α) → Action ε χ σ α
| .done (.error e), handler => handler e
| .done (.ok a), _ => .done (.ok a)
| .step effects next rest, handler =>
    .step effects next (fun s => (rest s).catchAll handler)

def throw (e : ε) : Action ε χ σ α :=
  .done (.error e)

def ofExcept (x : Except ε α) : Action ε χ σ α :=
  .done x

/- One step. -/
def atomic (f : σ → Outcome ε χ σ α) : Action ε χ σ α :=
  .step (fun s => (f s).effects) (fun s => (f s).state)
    (fun s => .done (f s).result)

/- A critical section: all of it in one step. -/
def atomically (act : Action ε χ σ α) : Action ε χ σ α :=
  atomic act.run

def get : Action ε χ σ σ :=
  atomic (fun s =>
    { result := .ok s, effects := [], state := s })

def modify (f : σ → σ) : Action ε χ σ Unit :=
  atomic (fun s =>
    { result := .ok (), effects := [], state := f s })

def emit (x : χ) : Action ε χ σ Unit :=
  atomic (fun s =>
    { result := .ok (), effects := [x], state := s })

------------------------------------------------------------
-- Running a Sequence
------------------------------------------------------------

@[simp] theorem run_pure (a : α) (s : σ) :
    (pure a : Action ε χ σ α).run s =
      { result := .ok a, effects := [], state := s } :=
  rfl

@[simp] theorem run_throw (e : ε) (s : σ) :
    (throw e : Action ε χ σ α).run s =
      { result := .error e, effects := [], state := s } :=
  rfl

@[simp] theorem run_ofExcept (x : Except ε α) (s : σ) :
    (ofExcept x : Action ε χ σ α).run s =
      { result := x, effects := [], state := s } :=
  rfl

@[simp] theorem run_atomic
    (f : σ → Outcome ε χ σ α)
    (s : σ) :
    (atomic f).run s = f s := by
  simp [atomic, run]

@[simp] theorem run_atomically
    (act : Action ε χ σ α)
    (s : σ) :
    (atomically act).run s = act.run s :=
  run_atomic act.run s

theorem run_bind
    (act : Action ε χ σ α)
    (f : α → Action ε χ σ β)
    (s : σ) :
    (act >>= f).run s =
      match (act.run s).result with
      | .error e =>
          { result := .error e
            effects := (act.run s).effects
            state := (act.run s).state }
      | .ok a =>
          { result := ((f a).run (act.run s).state).result
            effects :=
              (act.run s).effects ++
                ((f a).run (act.run s).state).effects
            state := ((f a).run (act.run s).state).state } := by
  induction act generalizing s with
  | done result => cases result <;> rfl
  | step effects next rest ih =>
      have hRest := ih s (next s)
      simp only [Bind.bind] at hRest ⊢
      simp only [andThen, run, hRest]
      cases ((rest s).run (next s)).result with
      | error e => rfl
      | ok a => simp only [List.append_assoc]

theorem run_bind_ok
    {act : Action ε χ σ α}
    {s t : σ}
    {a : α}
    {xs : List χ}
    (hAct :
      act.run s =
        { result := .ok a, effects := xs, state := t })
    (f : α → Action ε χ σ β) :
    (act >>= f).run s =
      { result := ((f a).run t).result
        effects := xs ++ ((f a).run t).effects
        state := ((f a).run t).state } := by
  rw [run_bind, hAct]

theorem run_bind_error
    {act : Action ε χ σ α}
    {s t : σ}
    {e : ε}
    {xs : List χ}
    (hAct :
      act.run s =
        { result := .error e, effects := xs, state := t })
    (f : α → Action ε χ σ β) :
    (act >>= f).run s =
      { result := .error e, effects := xs, state := t } := by
  rw [run_bind, hAct]

/- Code with equal executions may be exchanged. -/
theorem run_bind_congr
    {act : Action ε χ σ α}
    {f g : α → Action ε χ σ β}
    (hRun : ∀ a s, (f a).run s = (g a).run s)
    (s : σ) :
    (act >>= f).run s = (act >>= g).run s := by
  rw [run_bind, run_bind]
  cases (act.run s).result with
  | error e => rfl
  | ok a => simp only [hRun]

/- Reading the state is the state itself. -/
@[simp] theorem run_get_bind
    (f : σ → Action ε χ σ β)
    (s : σ) :
    (get >>= f).run s = (f s).run s :=
  rfl

@[simp] theorem run_modify_bind
    (g : σ → σ)
    (f : Unit → Action ε χ σ β)
    (s : σ) :
    (modify g >>= f).run s = (f ()).run (g s) :=
  rfl

theorem run_emit_bind
    (x : χ)
    (f : Unit → Action ε χ σ β)
    (s : σ) :
    (emit x >>= f).run s =
      { result := ((f ()).run s).result
        effects := x :: ((f ()).run s).effects
        state := ((f ()).run s).state } :=
  rfl

@[simp] theorem run_ofExcept_ok_bind
    (a : α)
    (f : α → Action ε χ σ β)
    (s : σ) :
    (ofExcept (.ok a) >>= f).run s = (f a).run s :=
  rfl

@[simp] theorem run_ofExcept_error_bind
    (e : ε)
    (f : α → Action ε χ σ β)
    (s : σ) :
    (ofExcept (.error e) >>= f).run s =
      { result := .error e, effects := [], state := s } :=
  rfl

/- A return after an action has no effects of its own. -/
theorem effects_run_bind_pure
    (act : Action ε χ σ α)
    (f : α → β)
    (s : σ) :
    ((act >>= fun a => pure (f a)).run s).effects =
      (act.run s).effects := by
  rw [run_bind]
  cases (act.run s).result with
  | error e => rfl
  | ok a => simp

/- A sequence may be regrouped. -/
theorem bind_assoc
    {γ : Type}
    (act : Action ε χ σ α)
    (f : α → Action ε χ σ β)
    (g : β → Action ε χ σ γ) :
    act >>= f >>= g = act >>= fun a => f a >>= g := by
  induction act with
  | done result => cases result <;> rfl
  | step effects next rest ih =>
      exact congrArg (Action.step effects next) (funext ih)

------------------------------------------------------------
-- Running Handlers
------------------------------------------------------------

theorem run_catchAll
    (act : Action ε χ σ α)
    (handler : ε → Action ε χ σ α)
    (s : σ) :
    (act.catchAll handler).run s =
      match (act.run s).result with
      | .ok a =>
          { result := .ok a
            effects := (act.run s).effects
            state := (act.run s).state }
      | .error e =>
          let o := (handler e).run (act.run s).state
          { result := o.result
            effects := (act.run s).effects ++ o.effects
            state := o.state } := by
  induction act generalizing s with
  | done result => cases result <;> rfl
  | step effects next rest ih =>
      simp only [catchAll, run, ih s (next s)]
      cases ((rest s).run (next s)).result with
      | ok a => rfl
      | error e => simp only [List.append_assoc]

/- A handler that keeps the state does not show in it. -/
theorem state_run_catchAll
    {act : Action ε χ σ α}
    {handler : ε → Action ε χ σ α}
    (hKeeps : ∀ e s, ((handler e).run s).state = s)
    (s : σ) :
    ((act.catchAll handler).run s).state =
      (act.run s).state := by
  rw [run_catchAll]
  cases (act.run s).result with
  | ok a => rfl
  | error e => exact hKeeps e (act.run s).state

/- The result after a handler that returns `a`. -/
def recover (a : α) : Except ε α → Except ε α
| .ok b => .ok b
| .error _ => .ok a

/- A handler that only returns keeps effects and state. -/
theorem run_catchAll_pure
    (act : Action ε χ σ α)
    (a : α)
    (s : σ) :
    (act.catchAll (fun _ => pure a)).run s =
      { result := recover a (act.run s).result
        effects := (act.run s).effects
        state := (act.run s).state } := by
  rw [run_catchAll]
  cases (act.run s).result with
  | ok b => rfl
  | error e => simp [recover]

end Action

------------------------------------------------------------
-- Relations That Steps Ensure
------------------------------------------------------------

/- Doing nothing is allowed, and so is one after the other. -/
structure Composes
    (R : σ → List χ → σ → Prop) : Prop where
  refl : ∀ s, R s [] s
  trans :
    ∀ {s t u xs ys}, R s xs t → R t ys u → R s (xs ++ ys) u

/- Every step, from whatever state, is within `R`. -/
inductive Ensures
    (R : σ → List χ → σ → Prop) :
    Action ε χ σ α → Prop
| done (result : Except ε α) : Ensures R (.done result)
| step
    {effects : σ → List χ}
    {next : σ → σ}
    {rest : σ → Action ε χ σ α} :
    (∀ s, R s (effects s) (next s)) →
      (∀ s, Ensures R (rest s)) →
        Ensures R (.step effects next rest)

namespace Ensures

variable {R R' : σ → List χ → σ → Prop}

theorem pure (a : α) :
    Ensures R (Pure.pure a : Action ε χ σ α) :=
  .done (.ok a)

theorem throw (e : ε) :
    Ensures R (Action.throw e : Action ε χ σ α) :=
  .done (.error e)

theorem ofExcept (x : Except ε α) :
    Ensures R (Action.ofExcept x : Action ε χ σ α) :=
  .done x

theorem atomic
    {f : σ → Outcome ε χ σ α}
    (hStep : ∀ s, R s (f s).effects (f s).state) :
    Ensures R (Action.atomic f) :=
  .step hStep (fun _ => .done _)

theorem get (hRefl : ∀ s, R s [] s) :
    Ensures R (Action.get : Action ε χ σ σ) :=
  atomic hRefl

theorem modify
    {f : σ → σ}
    (hStep : ∀ s, R s [] (f s)) :
    Ensures R (Action.modify f : Action ε χ σ Unit) :=
  atomic hStep

theorem emit
    {x : χ}
    (hStep : ∀ s, R s [x] s) :
    Ensures R (Action.emit x : Action ε χ σ Unit) :=
  atomic hStep

theorem bind
    {act : Action ε χ σ α}
    {f : α → Action ε χ σ β}
    (hAct : Ensures R act)
    (hNext : ∀ a, Ensures R (f a)) :
    Ensures R (act >>= f) := by
  induction hAct with
  | done result =>
      cases result with
      | error e => exact .done (.error e)
      | ok a => exact hNext a
  | step hStep _ ih => exact .step hStep ih

/- What follows may use how the result came about. -/
theorem ofExcept_bind
    {x : Except ε α}
    {f : α → Action ε χ σ β}
    (hNext : ∀ a, x = .ok a → Ensures R (f a)) :
    Ensures R (Action.ofExcept x >>= f) := by
  cases x with
  | error e => exact .done (.error e)
  | ok a => exact hNext a rfl

theorem catchAll
    {act : Action ε χ σ α}
    {handler : ε → Action ε χ σ α}
    (hAct : Ensures R act)
    (hHandler : ∀ e, Ensures R (handler e)) :
    Ensures R (act.catchAll handler) := by
  induction hAct with
  | done result =>
      cases result with
      | error e => exact hHandler e
      | ok a => exact .done (.ok a)
  | step hStep _ ih => exact .step hStep ih

theorem mono
    {act : Action ε χ σ α}
    (hAct : Ensures R act)
    (hWeaker : ∀ s xs t, R s xs t → R' s xs t) :
    Ensures R' act := by
  induction hAct with
  | done result => exact .done result
  | step hStep _ ih =>
      exact .step (fun s => hWeaker _ _ _ (hStep s)) ih

/- What two relations say of an action, one says. -/
theorem both
    {act : Action ε χ σ α}
    (hFirst : Ensures R act)
    (hSecond : Ensures R' act) :
    Ensures (fun s xs t => R s xs t ∧ R' s xs t) act := by
  induction hFirst with
  | done result => exact .done result
  | step hStep _ ih =>
      cases hSecond with
      | step hStep' hRest' =>
          exact
            .step (fun s => ⟨hStep s, hStep' s⟩)
              (fun s => ih s (hRest' s))

/- The whole execution is within a relation that composes. -/
theorem run
    (hR : Composes R)
    {act : Action ε χ σ α}
    (hAct : Ensures R act)
    (s : σ) :
    R s (act.run s).effects (act.run s).state := by
  induction hAct generalizing s with
  | done result => exact hR.refl s
  | step hStep _ ih => exact hR.trans (hStep s) (ih s _)

end Ensures

------------------------------------------------------------
-- Relations That Whole Runs Ensure
------------------------------------------------------------

/- Every execution without interference is within `R`. -/
def Runs
    (R : σ → List χ → σ → Prop)
    (act : Action ε χ σ α) : Prop :=
  ∀ s, R s (act.run s).effects (act.run s).state

namespace Runs

variable {R : σ → List χ → σ → Prop}

theorem bind
    (hR : Composes R)
    {act : Action ε χ σ α}
    {f : α → Action ε χ σ β}
    (hAct : Runs R act)
    (hNext : ∀ a, Runs R (f a)) :
    Runs R (act >>= f) := by
  intro s
  rw [Action.run_bind]
  cases (act.run s).result with
  | error e => exact hAct s
  | ok a => exact hR.trans (hAct s) (hNext a _)

theorem catchAll
    (hR : Composes R)
    {act : Action ε χ σ α}
    {handler : ε → Action ε χ σ α}
    (hAct : Runs R act)
    (hHandler : ∀ e, Runs R (handler e)) :
    Runs R (act.catchAll handler) := by
  intro s
  rw [Action.run_catchAll]
  cases (act.run s).result with
  | ok a => exact hAct s
  | error e => exact hR.trans (hAct s) (hHandler e _)

end Runs

------------------------------------------------------------
-- Exceptions That Actions Throw
------------------------------------------------------------

/-
  Every exception the action can end with satisfies `P`,
  whatever states its steps meet.
-/
inductive Throws (P : ε → Prop) : Action ε χ σ α → Prop
| returned (a : α) : Throws P (.done (.ok a))
| threw {e : ε} : P e → Throws P (.done (.error e))
| step
    {effects : σ → List χ}
    {next : σ → σ}
    {rest : σ → Action ε χ σ α} :
    (∀ s, Throws P (rest s)) →
      Throws P (.step effects next rest)

namespace Throws

variable {P Q : ε → Prop}

theorem pure (a : α) :
    Throws P (Pure.pure a : Action ε χ σ α) :=
  .returned a

theorem throw
    {e : ε}
    (hException : P e) :
    Throws P (Action.throw e : Action ε χ σ α) :=
  .threw hException

theorem ofExcept
    {x : Except ε α}
    (hException : ∀ e, x = .error e → P e) :
    Throws P (Action.ofExcept x : Action ε χ σ α) := by
  cases x with
  | error e => exact .threw (hException e rfl)
  | ok a => exact .returned a

theorem atomic
    {f : σ → Outcome ε χ σ α}
    (hException : ∀ s e, (f s).result = .error e → P e) :
    Throws P (Action.atomic f) :=
  .step (fun s => ofExcept (hException s))

theorem get : Throws P (Action.get : Action ε χ σ σ) :=
  .step (fun s => .returned s)

theorem bind
    {act : Action ε χ σ α}
    {f : α → Action ε χ σ β}
    (hAct : Throws P act)
    (hNext : ∀ a, Throws P (f a)) :
    Throws P (act >>= f) := by
  induction hAct with
  | returned a => exact hNext a
  | threw hException => exact .threw hException
  | step _ ih => exact .step ih

/- Nothing is known about the exceptions. -/
theorem any (act : Action ε χ σ α) :
    Throws (fun _ => True) act := by
  induction act with
  | done result =>
      cases result with
      | error e => exact .threw trivial
      | ok a => exact .returned a
  | step effects next rest ih => exact .step ih

/- The handler sees the exceptions of the guarded part. -/
theorem catchAll
    {act : Action ε χ σ α}
    {handler : ε → Action ε χ σ α}
    (hAct : Throws Q act)
    (hHandler : ∀ e, Q e → Throws P (handler e)) :
    Throws P (act.catchAll handler) := by
  induction hAct with
  | returned a => exact .returned a
  | threw hException => exact hHandler _ hException
  | step _ ih => exact .step ih

theorem mono
    {act : Action ε χ σ α}
    (hAct : Throws P act)
    (hWeaker : ∀ e, P e → Q e) :
    Throws Q act := by
  induction hAct with
  | returned a => exact .returned a
  | threw hException => exact .threw (hWeaker _ hException)
  | step _ ih => exact .step ih

/- What throws nothing needs no handler. -/
theorem catchAll_eq
    {act : Action ε χ σ α}
    (hAct : Throws (fun _ => False) act)
    (handler : ε → Action ε χ σ α) :
    act.catchAll handler = act := by
  induction hAct with
  | returned a => rfl
  | threw hNever => exact hNever.elim
  | step _ ih =>
      simp only [Action.catchAll, ih]

/- The exception of an execution is one of them. -/
theorem run
    {act : Action ε χ σ α}
    (hAct : Throws P act)
    {s : σ}
    {e : ε}
    (hError : (act.run s).result = .error e) :
    P e := by
  induction hAct generalizing s with
  | returned a => cases hError
  | threw hException =>
      cases hError
      exact hException
  | step _ ih => exact ih s hError

end Throws

end Effectful
