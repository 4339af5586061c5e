import ObscuraProto.Library.Threads

/-
  Entries that a running call is still going to remove.

  Calls add entries to a shared table.  While the state is
  down, a call that has added one finds that out and removes
  it again, before it ends; no other code adds entries.  So
  if every entry has such an owner at one point, then at
  every later point that is down, and none is left when the
  owners have ended.

  Main declarations:
    * `Owners.Residue`, `Owners.Quiet`
    * `Owners.Withdraws`, `Owners.Careful`
    * `Owners.Owned`, `Owners.Owned.step`
    * `Owners.Owned.clear`
    * `Owners.careful_step`, `Owners.quiet_step`
-/

namespace Owners

open Effectful Threads

variable {ε χ σ γ κ η K α β : Type}

------------------------------------------------------------
-- Entries and Their Owners
------------------------------------------------------------

/-
  The keys of a table, whether anything at all is left in it,
  and the states that make a call remove its entry.
-/
structure Residue (σ K : Type) where
  has : σ → K → Prop
  lingers : σ → Prop
  down : σ → Prop

variable (r : Residue σ K)

/- Nothing is added. -/
def Quiet (s : σ) (_ : List χ) (t : σ) : Prop :=
  (∀ k, r.has t k → r.has s k) ∧ (r.lingers t → r.lingers s)

/-
  In states that are down, the code comes to a step that
  removes the entry, with all that is left of the table if
  it has no other entries.
-/
inductive Withdraws (k : K) : Action ε χ σ α → Prop
| removes
    {effects : σ → List χ}
    {next : σ → σ}
    {rest : σ → Action ε χ σ α} :
    (∀ s, ¬ r.has (next s) k) →
      (∀ s, r.lingers (next s) → ∃ k', r.has (next s) k') →
        Withdraws k (.step effects next rest)
| step
    {effects : σ → List χ}
    {next : σ → σ}
    {rest : σ → Action ε χ σ α} :
    (∀ s, r.down s → Withdraws k (rest s)) →
      Withdraws k (.step effects next rest)

/-
  Code that withdraws whatever it adds.  `own` tells from its
  past whether it may add entries; such code does not change
  whether the state is down.
-/
inductive Careful
    (own : List (Transition σ χ) → Prop) :
    List (Transition σ χ) → Action ε χ σ α → Prop
| done
    (trace : List (Transition σ χ))
    (result : Except ε α) :
    Careful own trace (.done result)
| quiet
    {trace : List (Transition σ χ)}
    {effects : σ → List χ}
    {next : σ → σ}
    {rest : σ → Action ε χ σ α} :
    (∀ s, Quiet r s (effects s) (next s)) →
      (own trace → ∀ s, r.down (next s) → r.down s) →
        (∀ s,
          Careful own (trace ++ [⟨s, effects s, next s⟩])
            (rest s)) →
          Careful own trace (.step effects next rest)
| adds
    {trace : List (Transition σ χ)}
    {effects : σ → List χ}
    {next : σ → σ}
    {rest : σ → Action ε χ σ α}
    {k : K} :
    own trace →
      (∀ s k', r.has (next s) k' → r.has s k' ∨ k' = k) →
        (∀ s, r.down (next s) → r.down s) →
          (∀ s, r.down s → Withdraws r k (rest s)) →
            (∀ s,
              Careful own (trace ++ [⟨s, effects s, next s⟩])
                (rest s)) →
              Careful own trace (.step effects next rest)

------------------------------------------------------------
-- Rules for Code
------------------------------------------------------------

section Code

variable {r}

theorem Withdraws.bind
    {k : K}
    {act : Action ε χ σ α}
    (hAct : Withdraws r k act)
    (f : α → Action ε χ σ β) :
    Withdraws r k (act >>= f) := by
  induction hAct with
  | removes hGone hTidy => exact .removes hGone hTidy
  | step _ ih => exact .step ih

/- Code that ends normally, whatever it meets. -/
theorem Withdraws.after
    {k : K}
    {P : ε → Prop}
    {act : Action ε χ σ α}
    {f : α → Action ε χ σ β}
    (hAct : Throws P act)
    (hNever : ∀ e, ¬ P e)
    (hNext : ∀ a, Withdraws r k (f a)) :
    Withdraws r k (act >>= f) := by
  induction hAct with
  | returned a => exact hNext a
  | threw hException => exact (hNever _ hException).elim
  | step _ ih => exact .step (fun s _ => ih s)

variable {own : List (Transition σ χ) → Prop}
variable {trace : List (Transition σ χ)}

theorem Careful.of_ensures
    {act : Action ε χ σ α}
    (hAct :
      Ensures
        (fun s xs t =>
          Quiet r s xs t ∧
            ((∃ trace, own trace) → r.down t → r.down s))
        act)
    (trace : List (Transition σ χ)) :
    Careful r own trace act := by
  induction hAct generalizing trace with
  | done result => exact .done trace result
  | step hStep _ ih =>
      exact
        .quiet (fun s => (hStep s).1)
          (fun hOwn s => (hStep s).2 ⟨trace, hOwn⟩)
          (fun s => ih s _)

theorem Careful.bind_pure
    {act : Action ε χ σ α}
    (hAct : Careful r own trace act)
    (b : β) :
    Careful r own trace (act >>= fun _ => pure b) := by
  induction hAct with
  | done trace result =>
      cases result with
      | error e => exact .done trace (.error e)
      | ok a => exact .done trace (.ok b)
  | quiet hQuiet hDown _ ih => exact .quiet hQuiet hDown ih
  | adds hOwn hAdds hDown hWithdraws _ ih =>
      exact
        .adds hOwn hAdds hDown
          (fun s hNow => (hWithdraws s hNow).bind _) ih

theorem Careful.ofExcept_bind
    {x : Except ε α}
    {g : α → Action ε χ σ β}
    (hNext : ∀ a, x = .ok a → Careful r own trace (g a)) :
    Careful r own trace (Action.ofExcept x >>= g) := by
  cases x with
  | error e => exact .done trace (.error e)
  | ok a => exact hNext a rfl

theorem Careful.get_bind
    {g : σ → Action ε χ σ β}
    (hNext :
      ∀ s, Careful r own (trace ++ [⟨s, [], s⟩]) (g s)) :
    Careful r own trace (Action.get >>= g) :=
  .quiet (fun _ => ⟨fun _ hHas => hHas, fun hLeft => hLeft⟩)
    (fun _ _ hDown => hDown) hNext

theorem Careful.quiet_bind
    {f : σ → Outcome ε χ σ α}
    {g : α → Action ε χ σ β}
    (hQuiet : ∀ s, Quiet r s (f s).effects (f s).state)
    (hDown : own trace → ∀ s, r.down (f s).state → r.down s)
    (hNext :
      ∀ s a, (f s).result = .ok a →
        Careful r own
          (trace ++ [⟨s, (f s).effects, (f s).state⟩])
          (g a)) :
    Careful r own trace (Action.atomic f >>= g) := by
  refine .quiet hQuiet hDown (fun s => ?_)
  simp only
  cases hResult : (f s).result with
  | error e => exact .done _ (.error e)
  | ok a => exact hNext s a hResult

/- A step that adds one entry, and what withdraws it. -/
theorem Careful.adds_bind
    {k : K}
    {f : σ → Outcome ε χ σ α}
    {g : α → Action ε χ σ β}
    (hOwn : own trace)
    (hAdds :
      ∀ s k', r.has (f s).state k' → r.has s k' ∨ k' = k)
    (hDown : ∀ s, r.down (f s).state → r.down s)
    (hReturns : ∀ s, ∃ a, (f s).result = .ok a)
    (hWithdraws : ∀ a, Withdraws r k (g a))
    (hNext : ∀ a trace, Careful r own trace (g a)) :
    Careful r own trace (Action.atomic f >>= g) := by
  refine .adds hOwn hAdds hDown ?_ ?_
  · intro s _
    rcases hReturns s with ⟨a, hResult⟩
    simp only [hResult]
    exact hWithdraws a
  · intro s
    rcases hReturns s with ⟨a, hResult⟩
    simp only [hResult]
    exact hNext a _

end Code

------------------------------------------------------------
-- Pools
------------------------------------------------------------

section Pools

variable (own : κ → List (Transition σ χ) → Prop)

/- A call that has added an entry and will remove it. -/
def Owns
    (k : K)
    (thread : Thread ε χ σ κ) : Prop :=
  own thread.call thread.trace ∧ Withdraws r k thread.code

/- Every entry has an owner, and so has what is left. -/
structure Owned (p : Pool ε χ σ γ κ η) : Prop where
  entries :
    ∀ k, r.has p.shared k →
      ∃ thread ∈ p.calls, Owns r own k thread
  rest :
    r.lingers p.shared →
      ∃ thread ∈ p.calls, ∃ k, Owns r own k thread

variable {r} {own}
variable {program : Program ε χ σ γ κ η}
variable {p q : Pool ε χ σ γ κ η}

/- When the owners have ended, nothing is left. -/
theorem Owned.clear
    (hOwned : Owned r own p)
    (hEnded :
      ∀ thread ∈ p.calls, own thread.call thread.trace →
        thread.isDone = true) :
    (∀ k, ¬ r.has p.shared k) ∧ ¬ r.lingers p.shared := by
  have hNone
      {thread : Thread ε χ σ κ}
      {k : K}
      (hThread : thread ∈ p.calls)
      (hOwns : Owns r own k thread) :
      False := by
    have hDone := hEnded thread hThread hOwns.1
    unfold Thread.isDone at hDone
    rcases hOwns with ⟨_, hWithdraws⟩
    cases hCode : thread.code with
    | done result =>
        rw [hCode] at hWithdraws
        cases hWithdraws
    | step effects next rest =>
        rw [hCode] at hDone
        cases hDone
  constructor
  · intro k hHas
    rcases hOwned.entries k hHas with ⟨_, hThread, hOwns⟩
    exact hNone hThread hOwns
  · intro hLingers
    rcases hOwned.rest hLingers with ⟨_, hThread, _, hOwns⟩
    exact hNone hThread hOwns

/- Nothing is there to be owned. -/
theorem Owned.of_clear
    (hClear : ∀ k, ¬ r.has p.shared k)
    (hTidy : ¬ r.lingers p.shared) :
    Owned r own p where
  entries := fun k hHas => (hClear k hHas).elim
  rest := fun hLingers => (hTidy hLingers).elim

/- Steps that add nothing and keep the owners. -/
theorem Owned.mono
    (hOwned : Owned r own p)
    (hQuiet :
      (∀ k, r.has q.shared k → r.has p.shared k) ∧
        (r.lingers q.shared → r.lingers p.shared))
    (hCalls : ∀ thread ∈ p.calls, thread ∈ q.calls) :
    Owned r own q where
  entries := by
    intro k hHas
    rcases hOwned.entries k (hQuiet.1 k hHas) with
      ⟨thread, hThread, hOwns⟩
    exact ⟨thread, hCalls thread hThread, hOwns⟩
  rest := by
    intro hLingers
    rcases hOwned.rest (hQuiet.2 hLingers) with
      ⟨thread, hThread, hOwns⟩
    exact ⟨thread, hCalls thread hThread, hOwns⟩

/-
  The step of a call: its own entry is removed or stays with
  it, those of the others stay with them.
-/
theorem Owned.advance
    (hGrows :
      ∀ k trace m, own k trace → own k (trace ++ [m]))
    {i : Nat}
    {thread : Thread ε χ σ κ}
    {effects : σ → List χ}
    {next : σ → σ}
    {rest : σ → Action ε χ σ Unit}
    (hThread : p.calls[i]? = some thread)
    (hCode : thread.code = .step effects next rest)
    (hCareful :
      Careful r (own thread.call) thread.trace thread.code)
    (hDown : r.down (next p.shared))
    (hOwned : Owned r own p) :
    Owned r own (p.stepCall program i) := by
  rw [Pool.stepCall_running program hThread hCode]
  let after : Thread ε χ σ κ :=
    { thread with
      trace :=
        thread.trace ++
          [⟨p.shared, effects p.shared, next p.shared⟩]
      code := rest p.shared }
  have hAfter : after ∈ p.calls.set i after := by
    rcases List.getElem?_eq_some_iff.mp hThread with ⟨hi, _⟩
    exact List.mem_set hi after
  -- An owner that was there is there, or has done its part.
  have hStays
      {k : K}
      {owner : Thread ε χ σ κ}
      (hSame :
        own thread.call thread.trace →
          r.down p.shared)
      (hOwner : owner ∈ p.calls)
      (hOwns : Owns r own k owner) :
      (∃ owner' ∈ p.calls.set i after, Owns r own k owner') ∨
        (¬ r.has (next p.shared) k ∧
          (r.lingers (next p.shared) →
            ∃ k', r.has (next p.shared) k')) := by
    rcases List.mem_iff_getElem?.mp hOwner with ⟨j, hIndex⟩
    by_cases hSameIndex : i = j
    · subst hSameIndex
      rw [hThread] at hIndex
      cases hIndex
      rcases hOwns with ⟨hOwn, hWithdraws⟩
      rw [hCode] at hWithdraws
      cases hWithdraws with
      | removes hGone hTidy =>
          exact Or.inr ⟨hGone _, hTidy _⟩
      | step hRest =>
          exact
            Or.inl
              ⟨after, hAfter, hGrows _ _ _ hOwn,
                hRest _ (hSame hOwn)⟩
    · refine Or.inl ⟨owner, ?_, hOwns⟩
      apply List.mem_iff_getElem?.mpr
      exact ⟨j, by rw [List.getElem?_set_ne hSameIndex, hIndex]⟩
  rw [hCode] at hCareful
  cases hCareful with
  | quiet hQuiet hKeepsDown _ =>
      have hSame (hOwn : own thread.call thread.trace) :=
        hKeepsDown hOwn p.shared hDown
      have hEntries
          (k : K)
          (hHas : r.has (next p.shared) k) :
          ∃ owner' ∈ p.calls.set i after,
            Owns r own k owner' := by
        rcases hOwned.entries k ((hQuiet _).1 k hHas) with
          ⟨owner, hOwner, hOwns⟩
        rcases hStays hSame hOwner hOwns with
          hOwner' | ⟨hGone, _⟩
        · exact hOwner'
        · exact (hGone hHas).elim
      refine ⟨hEntries, ?_⟩
      intro hLingers
      rcases hOwned.rest ((hQuiet _).2 hLingers) with
        ⟨owner, hOwner, k, hOwns⟩
      rcases hStays hSame hOwner hOwns with
        ⟨owner', hOwner', hOwns'⟩ | ⟨_, hTidy⟩
      · exact ⟨owner', hOwner', k, hOwns'⟩
      · rcases hTidy hLingers with ⟨k', hHas⟩
        rcases hEntries k' hHas with
          ⟨owner', hOwner', hOwns'⟩
        exact ⟨owner', hOwner', k', hOwns'⟩
  | @adds _ _ _ _ k₀ hOwn hAdds hKeepsDown hWithdraws _ =>
      have hSame := hKeepsDown p.shared hDown
      have hNew : Owns r own k₀ after :=
        ⟨hGrows _ _ _ hOwn, hWithdraws _ hSame⟩
      refine ⟨?_, fun _ => ⟨after, hAfter, k₀, hNew⟩⟩
      intro k hHas
      rcases hAdds _ k hHas with hOld | hEq
      · rcases hOwned.entries k hOld with
          ⟨owner, hOwner, hOwns⟩
        rcases hStays (fun _ => hSame) hOwner hOwns with
          hOwner' | ⟨hGone, _⟩
        · exact hOwner'
        · exact (hGone hHas).elim
      · rw [hEq]
        exact ⟨after, hAfter, hNew⟩

/- Every step into a state that is down keeps owners. -/
theorem Owned.step
    (hGrows :
      ∀ k trace m, own k trace → own k (trace ++ [m]))
    {l : Label κ η}
    (hCareful :
      ∀ thread ∈ p.calls,
        Careful r (own thread.call) thread.trace thread.code)
    (hEvent :
      ∀ thread, p.events = some thread →
        Ensures (Quiet r) thread.code)
    (hOwned : Owned r own p)
    (hDown : r.down q.shared)
    (hStep : Pool.Step program p l q) :
    Owned r own q := by
  rcases hStep with ⟨_, hNext⟩
  subst hNext
  have hNothing :
      (∀ k, r.has p.shared k → r.has p.shared k) ∧
        (r.lingers p.shared → r.lingers p.shared) :=
    ⟨fun _ hHas => hHas, fun hLeft => hLeft⟩
  cases l with
  | call k =>
      refine hOwned.mono hNothing (fun thread hThread => ?_)
      exact List.mem_append_left _ hThread
  | event h =>
      exact hOwned.mono hNothing (fun _ hThread => hThread)
  | stepEvent =>
      apply hOwned.mono
      · simp only [Pool.exec, Pool.stepEvent]
        cases hThread : p.events with
        | none => exact hNothing
        | some thread =>
            have hQuiet := hEvent thread hThread
            cases hCode : thread.code with
            | done result =>
                simp only [Pool.advance, hCode]
                exact hNothing
            | step effects next rest =>
                rw [hCode] at hQuiet
                simp only [Pool.advance, hCode]
                cases hQuiet with
                | step hQuiet _ => exact hQuiet p.shared
      · intro thread hThread
        simp only [Pool.exec, Pool.stepEvent_calls]
        exact hThread
  | stepCall i =>
      simp only [Pool.exec] at hDown ⊢
      cases hThread : p.calls[i]? with
      | none =>
          rw [Pool.stepCall_ended]
          · exact hOwned
          · intro thread hSome
            rw [hThread] at hSome
            cases hSome
      | some thread =>
          cases hCode : thread.code with
          | done result =>
              rw [Pool.stepCall_ended]
              · exact hOwned
              · intro thread' hSome
                rw [hThread] at hSome
                cases hSome
                exact ⟨result, hCode⟩
          | step effects next rest =>
              rw [Pool.stepCall_running program hThread hCode]
                at hDown
              exact
                hOwned.advance hGrows hThread hCode
                  (hCareful thread
                    (List.mem_of_getElem? hThread)) hDown

/- Calls stay careful. -/
theorem careful_step
    (hCode : ∀ k, Careful r (own k) [] (program.callCode k))
    {l : Label κ η}
    (hCareful :
      ∀ thread ∈ p.calls,
        Careful r (own thread.call) thread.trace thread.code)
    (hStep : Pool.Step program p l q) :
    ∀ thread ∈ q.calls,
      Careful r (own thread.call) thread.trace thread.code := by
  refine
    Pool.forall_calls_step (fun k _ => hCode k) ?_ hCareful
      hStep
  intro thread effects next rest hRunning hThread
  rw [hRunning] at hThread
  cases hThread with
  | quiet _ _ hRest => exact hRest p.shared
  | adds _ _ _ _ hRest => exact hRest p.shared

/- The event stays quiet. -/
theorem quiet_step
    (hCode : ∀ h, Ensures (Quiet r) (program.eventCode h))
    {l : Label κ η}
    (hEvent :
      ∀ thread, p.events = some thread →
        Ensures (Quiet r) thread.code)
    (hStep : Pool.Step program p l q) :
    ∀ thread, q.events = some thread →
      Ensures (Quiet r) thread.code := by
  refine
    Pool.forall_event_step (fun h _ => hCode h) ?_ hEvent
      hStep
  intro thread effects next rest hRunning hThread
  rw [hRunning] at hThread
  cases hThread with
  | step _ hRest => exact hRest p.shared

end Pools

end Owners
