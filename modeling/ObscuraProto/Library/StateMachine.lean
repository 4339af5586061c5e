import Mathlib.Data.List.Basic

/-
  Finite runs of labelled transition relations.

  A step relation takes a state and a label to a next state.
  `Run` collects the labels of a finite run; the rules below
  carry an invariant along it, restrict it to the steps that
  meet a condition, and build it when the steps are given by
  a function under a guard.

  Main declarations:
    * `StateMachine.Run`
    * `StateMachine.Run.invariant`
    * `StateMachine.Run.invariant_labels`
    * `StateMachine.Run.invariant_of`
    * `StateMachine.Run.mono`
    * `StateMachine.Run.step_at`
    * `StateMachine.Guarded`
    * `StateMachine.run_of_allowed`
    * `StateMachine.run_of_foldlM`
-/

namespace StateMachine

variable {σ ι : Type}

/- A finite run with its labels, oldest label first. -/
inductive Run
    (step : σ → ι → σ → Prop) : σ → List ι → σ → Prop
| nil (s : σ) : Run step s [] s
| snoc
    {s t u : σ}
    {ls : List ι}
    {l : ι} :
    Run step s ls t → step t l u →
      Run step s (ls ++ [l]) u

namespace Run

variable {step step' : σ → ι → σ → Prop}

/- A property that every step keeps holds after a run. -/
theorem invariant
    {P : σ → Prop}
    (hStep : ∀ s l t, P s → step s l t → P t)
    {s t : σ}
    {ls : List ι}
    (hRun : Run step s ls t)
    (hStart : P s) :
    P t := by
  induction hRun with
  | nil => exact hStart
  | snoc _ hLast ih => exact hStep _ _ _ ih hLast

/- A property of the state and of the labels so far. -/
theorem invariant_labels
    {P : List ι → σ → Prop}
    {s t : σ}
    {ls : List ι}
    (hStep :
      ∀ ls u l v,
        Run step s ls u → P ls u → step u l v →
          P (ls ++ [l]) v)
    (hRun : Run step s ls t)
    (hStart : P [] s) :
    P ls t := by
  induction hRun with
  | nil => exact hStart
  | snoc hBefore hLast ih =>
      exact hStep _ _ _ _ hBefore ih hLast

/-
  The same with a condition `Q` that is read off the final
  state and was true all along.
-/
theorem invariant_of
    {P Q : σ → Prop}
    (hBack : ∀ s l t, step s l t → Q t → Q s)
    (hStep :
      ∀ s l t, Q s → Q t → P s → step s l t → P t)
    {s t : σ}
    {ls : List ι}
    (hRun : Run step s ls t)
    (hStart : P s)
    (hEnd : Q t) :
    P t := by
  induction hRun with
  | nil => exact hStart
  | snoc _ hLast ih =>
      have hBefore := hBack _ _ _ hLast hEnd
      exact
        hStep _ _ _ hBefore hEnd
          (ih hBefore) hLast

/- A run of a smaller step relation is a run. -/
theorem mono
    (hImp : ∀ s l t, step s l t → step' s l t)
    {s t : σ}
    {ls : List ι}
    (hRun : Run step s ls t) :
    Run step' s ls t := by
  induction hRun with
  | nil => exact Run.nil _
  | snoc _ hLast ih =>
      exact Run.snoc ih (hImp _ _ _ hLast)

theorem append
    {s t u : σ}
    {ls ls' : List ι}
    (hFirst : Run step s ls t)
    (hSecond : Run step t ls' u) :
    Run step s (ls ++ ls') u := by
  induction hSecond with
  | nil => simpa using hFirst
  | snoc _ hLast ih =>
      rw [← List.append_assoc]
      exact Run.snoc ih hLast

/- A run passes through each of its steps. -/
theorem step_at
    {s t : σ}
    {ls ls' : List ι}
    {l : ι}
    (hRun : Run step s (ls ++ l :: ls') t) :
    ∃ u v, Run step s ls u ∧ step u l v := by
  generalize hAll : ls ++ l :: ls' = all at hRun
  induction hRun generalizing ls' with
  | nil => simp at hAll
  | @snoc t u before last hBefore hLast ih =>
      rcases List.eq_nil_or_concat' ls' with
        rfl | ⟨rest, m, rfl⟩
      · obtain ⟨rfl, hSame⟩ :=
          List.append_inj' hAll (by simp)
        cases hSame
        exact ⟨t, u, hBefore, hLast⟩
      · rw [← List.cons_append, ← List.append_assoc] at hAll
        exact ih (List.append_inj' hAll (by simp)).1

theorem cons
    {s t u : σ}
    {l : ι}
    {ls : List ι}
    (hFirst : step s l t)
    (hRest : Run step t ls u) :
    Run step s (l :: ls) u :=
  append (Run.snoc (Run.nil s) hFirst) hRest

end Run

------------------------------------------------------------
-- Guarded Functions
------------------------------------------------------------

variable (ok : σ → ι → Prop) (exec : σ → ι → σ)

/- The step relation of a function under a guard. -/
def Guarded (s : σ) (l : ι) (t : σ) : Prop :=
  ok s l ∧ t = exec s l

/- Every guard along the execution of the labels holds. -/
def Allowed : σ → List ι → Prop
| _, [] => True
| s, l :: ls => ok s l ∧ Allowed (exec s l) ls

instance decidableAllowed
    [∀ s l, Decidable (ok s l)] :
    ∀ s ls, Decidable (Allowed ok exec s ls)
| _, [] => isTrue trivial
| s, l :: ls =>
    have := decidableAllowed (exec s l) ls
    inferInstanceAs
      (Decidable (ok s l ∧ Allowed ok exec (exec s l) ls))

/- Executing allowed labels is a run. -/
theorem run_of_allowed
    (s : σ)
    (ls : List ι)
    (hAllowed : Allowed ok exec s ls) :
    Run (Guarded ok exec) s ls (ls.foldl exec s) := by
  induction ls generalizing s with
  | nil => exact Run.nil s
  | cons l ls ih =>
      exact
        Run.cons ⟨hAllowed.1, rfl⟩ (ih _ hAllowed.2)

/- So is executing labels by a function that can refuse. -/
theorem run_of_foldlM
    {step : σ → ι → σ → Prop}
    {exec : σ → ι → Option σ}
    (hStep : ∀ s l t, exec s l = some t → step s l t)
    {s t : σ}
    {ls : List ι}
    (hExec : ls.foldlM exec s = some t) :
    Run step s ls t := by
  induction ls generalizing s with
  | nil =>
      cases hExec
      exact Run.nil _
  | cons l ls ih =>
      rw [List.foldlM_cons] at hExec
      rcases Option.bind_eq_some_iff.mp hExec with
        ⟨u, hFirst, hRest⟩
      exact Run.cons (hStep _ _ _ hFirst) (ih hRest)

end StateMachine
