import ObscuraProto.Library.Threads

/-
  Goals that the code of an event reaches one by one.

  While the event runs, other threads take steps in between.
  A goal is reached by one step of the event, in terms of the
  shared state, and kept from there on, in terms of the whole
  pool.  When the event has ended, all its goals are kept.

  Main declarations:
    * `Milestones.Goal`, `Milestones.Reaches`
    * `Milestones.Reaches.after`
    * `Milestones.Reaches.atomic_bind`
    * `Milestones.Underway`, `Milestones.Underway.step`
    * `Milestones.Underway.finished`
-/

namespace Milestones

open Effectful Threads

variable {ε χ σ γ κ η α β : Type}

/- What a step establishes, and what is kept afterwards. -/
structure Goal (ε χ σ γ κ η : Type) where
  reached : σ → Prop
  kept : Pool ε χ σ γ κ η → Prop

/-
  The code comes to steps that reach the goals, in this
  order.  Only states in `A` are considered.
-/
inductive Reaches (A : σ → Prop) :
    List (Goal ε χ σ γ κ η) → Action ε χ σ α → Prop
| nothing (act : Action ε χ σ α) : Reaches A [] act
| later
    {goals : List (Goal ε χ σ γ κ η)}
    {effects : σ → List χ}
    {next : σ → σ}
    {rest : σ → Action ε χ σ α} :
    (∀ s, Reaches A goals (rest s)) →
      Reaches A goals (.step effects next rest)
| now
    {goal : Goal ε χ σ γ κ η}
    {goals : List (Goal ε χ σ γ κ η)}
    {effects : σ → List χ}
    {next : σ → σ}
    {rest : σ → Action ε χ σ α} :
    (∀ s, A s → goal.reached (next s)) →
      (∀ s, Reaches A goals (rest s)) →
        Reaches A (goal :: goals) (.step effects next rest)

------------------------------------------------------------
-- Rules for Code
------------------------------------------------------------

namespace Reaches

variable {A : σ → Prop}
variable {goal : Goal ε χ σ γ κ η}
variable {goals : List (Goal ε χ σ γ κ η)}

/- Code that does not throw goes before the goals. -/
theorem after
    {act : Action ε χ σ α}
    {f : α → Action ε χ σ β}
    (hAct : Throws (fun _ => False) act)
    (hNext : ∀ a, Reaches A goals (f a)) :
    Reaches A goals (act >>= f) := by
  induction hAct with
  | returned a => exact hNext a
  | threw hNever => exact hNever.elim
  | step _ ih => exact .later ih

/- A step that reaches the next goal. -/
theorem atomic_bind
    {f : σ → Outcome ε χ σ α}
    {g : α → Action ε χ σ β}
    (hReturns : ∀ s, ∃ a, (f s).result = .ok a)
    (hReached : ∀ s, A s → goal.reached (f s).state)
    (hNext : ∀ a, Reaches A goals (g a)) :
    Reaches A (goal :: goals) (Action.atomic f >>= g) := by
  refine .now hReached (fun s => ?_)
  rcases hReturns s with ⟨a, hResult⟩
  simp only [hResult]
  exact hNext a

theorem atomic
    {f : σ → Outcome ε χ σ α}
    (hReached : ∀ s, A s → goal.reached (f s).state) :
    Reaches A [goal] (Action.atomic f) :=
  .now hReached (fun _ => .nothing _)

theorem modify_bind
    {f : σ → σ}
    {g : Unit → Action ε χ σ β}
    (hReached : ∀ s, A s → goal.reached (f s))
    (hNext : ∀ a, Reaches A goals (g a)) :
    Reaches A (goal :: goals) (Action.modify f >>= g) :=
  atomic_bind (fun _ => ⟨(), rfl⟩) hReached hNext

end Reaches

------------------------------------------------------------
-- Pools
------------------------------------------------------------

/-
  The first goals are kept, and the event, one of `E`, is
  still running if there are goals left.
-/
def Underway
    (A : σ → Prop)
    (E : η → Prop)
    (goals : List (Goal ε χ σ γ κ η))
    (p : Pool ε χ σ γ κ η) : Prop :=
  ∃ met left,
    goals = met ++ left ∧
      (∀ goal ∈ met, goal.kept p) ∧
      (left = [] ∨
        ∃ thread, p.events = some thread ∧
          E thread.call ∧ Reaches A left thread.code)

variable {A : σ → Prop}
variable {E : η → Prop}
variable {goals : List (Goal ε χ σ γ κ η)}
variable {program : Program ε χ σ γ κ η}
variable {p q : Pool ε χ σ γ κ η}

theorem Underway.begin
    {h : η}
    (hEvent : E h)
    (hCode : Reaches A goals (program.eventCode h))
    (hStep : Pool.Step program p (.event h) q) :
    Underway A E goals q := by
  rcases hStep with ⟨_, hNext⟩
  subst hNext
  exact
    ⟨[], goals, rfl, by simp, Or.inr ⟨_, rfl, hEvent, hCode⟩⟩

/- Code that has ended has no goals left. -/
theorem left_of_done
    {left : List (Goal ε χ σ γ κ η)}
    {thread : Thread ε χ σ η}
    (hReaches : Reaches A left thread.code)
    (hDone : thread.isDone = true) :
    left = [] := by
  unfold Thread.isDone at hDone
  cases hCode : thread.code with
  | done result =>
      rw [hCode] at hReaches
      cases hReaches
      rfl
  | step effects next rest =>
      rw [hCode] at hDone
      cases hDone

/- The step of the event itself. -/
theorem Underway.advance
    {met left : List (Goal ε χ σ γ κ η)}
    {thread : Thread ε χ σ η}
    (hNow : A p.shared)
    (hReached :
      ∀ goal ∈ goals, goal.reached q.shared → goal.kept q)
    (hGoals : goals = met ++ left)
    (hMet : ∀ goal ∈ met, goal.kept q)
    (hThread : p.events = some thread)
    (hEvent : E thread.call)
    (hReaches : Reaches A left thread.code)
    (hStep : Pool.Step program p .stepEvent q) :
    Underway A E goals q := by
  rcases hStep with ⟨_, hNext⟩
  cases hCode : thread.code with
  | done result =>
      refine ⟨met, left, hGoals, hMet, Or.inl ?_⟩
      apply left_of_done hReaches
      unfold Thread.isDone
      rw [hCode]
  | step effects next rest =>
      simp only [Pool.exec, Pool.stepEvent, hThread,
        Pool.advance, hCode] at hNext
      rw [hCode] at hReaches
      cases hReaches with
      | nothing => exact ⟨met, [], hGoals, hMet, Or.inl rfl⟩
      | later hRest =>
          refine ⟨met, left, hGoals, hMet, Or.inr ?_⟩
          rw [hNext]
          exact ⟨_, rfl, hEvent, hRest p.shared⟩
      | @now goal left _ _ _ hStep hRest =>
          refine
            ⟨met ++ [goal], left, by simp [hGoals], ?_,
              Or.inr ?_⟩
          · intro goal' hMem
            rcases List.mem_append.mp hMem with hOld | hNew
            · exact hMet goal' hOld
            · rw [List.mem_singleton.mp hNew]
              apply hReached goal (by simp [hGoals])
              rw [hNext]
              exact hStep p.shared hNow
          · rw [hNext]
            exact ⟨_, rfl, hEvent, hRest p.shared⟩

/-
  Every step of the pool, if it keeps what has been reached
  and a goal that is just reached begins to be kept.
-/
theorem Underway.step
    {l : Label κ η}
    (hNow : A p.shared)
    (hReached :
      ∀ goal ∈ goals, goal.reached q.shared → goal.kept q)
    (hKeeps :
      ∀ met, met <+: goals →
        (∀ goal ∈ met, goal.kept p) →
          ∀ goal ∈ met, goal.kept q)
    (hUnderway : Underway A E goals p)
    (hStep : Pool.Step program p l q) :
    Underway A E goals q := by
  rcases hUnderway with ⟨met, left, hGoals, hMet, hLeft⟩
  have hStill := hKeeps met ⟨left, hGoals.symm⟩ hMet
  rcases hLeft with hNone | ⟨thread, hThread, hEvent, hReaches⟩
  · exact ⟨met, left, hGoals, hStill, Or.inl hNone⟩
  · cases l with
    | stepEvent =>
        exact
          Underway.advance hNow hReached hGoals hStill hThread
            hEvent hReaches hStep
    | call k =>
        rcases hStep with ⟨_, hNext⟩
        refine ⟨met, left, hGoals, hStill, Or.inr ?_⟩
        rw [hNext]
        exact ⟨thread, hThread, hEvent, hReaches⟩
    | stepCall i =>
        rcases hStep with ⟨_, hNext⟩
        refine ⟨met, left, hGoals, hStill, Or.inr ?_⟩
        rw [hNext]
        refine ⟨thread, ?_, hEvent, hReaches⟩
        exact (Pool.stepCall_events _ i p).trans hThread
    | event h =>
        -- the next event begins when this one has ended
        rcases hStep with ⟨hAllowed, _⟩
        refine ⟨met, left, hGoals, hStill, Or.inl ?_⟩
        apply left_of_done hReaches
        simpa [Pool.allowed, Pool.isIdle, hThread] using
          hAllowed

/- When the event has ended, all goals are kept. -/
theorem Underway.finished
    (hUnderway : Underway A E goals p)
    (hEnded :
      ∀ thread, p.events = some thread → E thread.call →
        thread.isDone = true) :
    ∀ goal ∈ goals, goal.kept p := by
  rcases hUnderway with ⟨met, left, hGoals, hMet, hLeft⟩
  have hNone : left = [] := by
    rcases hLeft with
      hNone | ⟨thread, hThread, hEvent, hReaches⟩
    · exact hNone
    · exact
        left_of_done hReaches (hEnded thread hThread hEvent)
  rw [hGoals, hNone, List.append_nil]
  exact hMet

end Milestones
