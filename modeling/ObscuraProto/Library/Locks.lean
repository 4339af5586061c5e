import Mathlib.Logic.Relation
import ObscuraProto.Library.Effectful

/-
  Code that takes and gives back mutexes.

  The effects of locked code are the acquisitions and
  releases of mutexes beside the effects of the plain code.
  A policy says which mutexes may be held while another one
  is acquired, and that callbacks find none of them held.
  `Keeps` follows the held mutexes through code whatever the
  states its steps meet, so it holds under interference; it
  carries over to calls made from within callbacks, nested to
  any depth.  `Erases` connects locked code to plain code.

  Main declarations:
    * `Locks.Event`, `Locks.unlocked`, `Locks.holding`
    * `Locks.Policy`, `Locks.Policy.Obeyed`
    * `Locks.Policy.Rules`, `Locks.Policy.Obeyed.rules`
    * `Locks.Keeps`, `Locks.Balanced`
    * `Locks.Balanced.bind`, `Locks.Balanced.holding`
    * `Locks.Nested`, `Locks.Nested.obeyed`
    * `Locks.Erases`, `Locks.Erases.holding`
    * `Locks.no_circular_wait`
-/

namespace Locks

open Effectful

variable {M ε χ σ α β : Type}

------------------------------------------------------------
-- Locked Code
------------------------------------------------------------

inductive Event (M χ : Type) where
| acquire (m : M)
| release (m : M)
| effect (x : χ)

/- Code that touches no mutex. -/
def unlocked :
    Action ε χ σ α → Action ε (Event M χ) σ α
| .done result => .done result
| .step effects next rest =>
    .step (fun s => (effects s).map Event.effect) next
      (fun s => unlocked (rest s))

/- A scope that holds `m`, left by return or exception. -/
def holding
    (m : M)
    (act : Action ε (Event M χ) σ α) :
    Action ε (Event M χ) σ α := do
  Action.emit (.acquire m)
  let a ←
    Action.catchAll act
      (fun e => do
        Action.emit (.release m)
        Action.throw e)
  Action.emit (.release m)
  return a

section Held

variable [DecidableEq M]

def Event.apply (held : List M) : Event M χ → List M
| .acquire m => m :: held
| .release m => held.erase m
| .effect _ => held

/- What is held after the events, oldest first. -/
def heldAfter
    (held : List M)
    (log : List (Event M χ)) : List M :=
  log.foldl Event.apply held

theorem heldAfter_append
    (held : List M)
    (log log' : List (Event M χ)) :
    heldAfter held (log ++ log') =
      heldAfter (heldAfter held log) log' :=
  List.foldl_append

theorem heldAfter_effects
    (held : List M)
    (effects : List χ) :
    heldAfter held (effects.map Event.effect) = held := by
  induction effects with
  | nil => rfl
  | cons x effects ih => exact ih

end Held

------------------------------------------------------------
-- Policies
------------------------------------------------------------

/-
  `before m m'` says that `m` may be held while `m'` is
  acquired; the effects of `callback` run code of the user.
-/
structure Policy (M χ : Type) where
  before : M → M → Prop
  callback : χ → Prop

namespace Policy

def Allows
    (p : Policy M χ)
    (held : List M) : Event M χ → Prop
| .acquire m => ∀ m' ∈ held, p.before m' m
| .release m => m ∈ held
| .effect x => p.callback x → held = []

variable [DecidableEq M]

/- Every event is allowed where it stands in the log. -/
def Obeyed
    (p : Policy M χ) :
    List M → List (Event M χ) → Prop
| _, [] => True
| held, event :: log =>
    p.Allows held event ∧ p.Obeyed (event.apply held) log

variable {p : Policy M χ}

theorem obeyed_append
    (held : List M)
    (log log' : List (Event M χ)) :
    p.Obeyed held (log ++ log') ↔
      p.Obeyed held log ∧
        p.Obeyed (heldAfter held log) log' := by
  induction log generalizing held with
  | nil => simp [Obeyed, heldAfter]
  | cons event log ih =>
      simp only [List.cons_append, Obeyed, ih, and_assoc]
      rfl

theorem Obeyed.allows
    {held : List M}
    {log before : List (Event M χ)}
    {event : Event M χ}
    (hObeyed : p.Obeyed held log)
    (hPrefix : before ++ [event] <+: log) :
    p.Allows (heldAfter held before) event := by
  rcases hPrefix with ⟨after, hLog⟩
  rw [← hLog, List.append_assoc, obeyed_append] at hObeyed
  exact hObeyed.2.1

/-
  What an obeyed policy says at every point of a log; with a
  strict order, no thread waits for what it holds itself.
-/
structure Rules
    (p : Policy M χ)
    (log : List (Event M χ)) : Prop where
  callbacks :
    ∀ before x,
      before ++ [.effect x] <+: log →
        p.callback x → heldAfter [] before = []
  ordered :
    ∀ before m,
      before ++ [.acquire m] <+: log →
        ∀ m' ∈ heldAfter [] before, p.before m' m
  distinct :
    ∀ before m,
      before ++ [.acquire m] <+: log →
        m ∉ heldAfter [] before

theorem Obeyed.rules
    {log : List (Event M χ)}
    (hObeyed : p.Obeyed [] log)
    (hIrrefl : ∀ m, ¬ p.before m m) :
    p.Rules log where
  callbacks := fun _ _ hPrefix => hObeyed.allows hPrefix
  ordered := fun _ _ hPrefix => hObeyed.allows hPrefix
  distinct := fun _ m hPrefix hHeld =>
    hIrrefl m (hObeyed.allows hPrefix m hHeld)

theorem obeyed_effects
    {held : List M}
    {effects : List χ}
    (hQuiet : ∀ x ∈ effects, p.callback x → held = []) :
    p.Obeyed held (effects.map Event.effect) := by
  induction effects with
  | nil => trivial
  | cons x effects ih =>
      refine ⟨hQuiet x List.mem_cons_self, ih ?_⟩
      intro y hMem
      exact hQuiet y (List.mem_cons_of_mem x hMem)

end Policy

------------------------------------------------------------
-- Following the Held Mutexes
------------------------------------------------------------

section Keeping

variable [DecidableEq M]

/-
  From the mutexes `held`, every step obeys the policy; a
  return leaves `good` held and an exception `bad`.
-/
inductive Keeps
    (p : Policy M χ)
    (good bad : List M) :
    List M → Action ε (Event M χ) σ α → Prop
| returned (a : α) : Keeps p good bad good (.done (.ok a))
| threw (e : ε) : Keeps p good bad bad (.done (.error e))
| step
    {held : List M}
    {effects : σ → List (Event M χ)}
    {next : σ → σ}
    {rest : σ → Action ε (Event M χ) σ α} :
    (∀ s, p.Obeyed held (effects s)) →
      (∀ s,
        Keeps p good bad (heldAfter held (effects s))
          (rest s)) →
        Keeps p good bad held (.step effects next rest)

variable {p : Policy M χ} {good bad held mid : List M}

theorem Keeps.held_of_done
    {result : Except ε α}
    (hKeeps :
      Keeps p good good held
        (.done result : Action ε (Event M χ) σ α)) :
    held = good := by
  cases hKeeps with
  | returned a => rfl
  | threw e => rfl

theorem Keeps.bind
    {act : Action ε (Event M χ) σ α}
    {f : α → Action ε (Event M χ) σ β}
    (hAct : Keeps p mid bad held act)
    (hNext : ∀ a, Keeps p good bad mid (f a)) :
    Keeps p good bad held (act >>= f) := by
  induction hAct with
  | returned a => exact hNext a
  | threw e => exact .threw e
  | step hObeyed _ ih => exact .step hObeyed ih

theorem Keeps.catchAll
    {act : Action ε (Event M χ) σ α}
    {handler : ε → Action ε (Event M χ) σ α}
    (hAct : Keeps p good mid held act)
    (hHandler : ∀ e, Keeps p good bad mid (handler e)) :
    Keeps p good bad held (act.catchAll handler) := by
  induction hAct with
  | returned a => exact .returned a
  | threw e => exact hHandler e
  | step hObeyed _ ih => exact .step hObeyed ih

theorem Keeps.acquire
    {m : M}
    (hBefore : ∀ m' ∈ held, p.before m' m) :
    Keeps p (m :: held) bad held
      (Action.emit (.acquire m) :
        Action ε (Event M χ) σ Unit) :=
  .step (fun _ => ⟨hBefore, trivial⟩) (fun _ => .returned ())

theorem Keeps.release (m : M) :
    Keeps p held bad (m :: held)
      (Action.emit (.release m) :
        Action ε (Event M χ) σ Unit) := by
  refine .step (fun _ => ⟨List.mem_cons_self, trivial⟩) ?_
  intro s
  have hGone :
      heldAfter (m :: held)
          ([.release m] : List (Event M χ)) =
        held :=
    List.erase_cons_head m held
  rw [hGone]
  exact .returned ()

/- Code that holds at its end what it held before. -/
abbrev Balanced
    (p : Policy M χ)
    (held : List M)
    (act : Action ε (Event M χ) σ α) : Prop :=
  Keeps p held held held act

namespace Balanced

theorem pure (a : α) :
    Balanced p held
      (Pure.pure a : Action ε (Event M χ) σ α) :=
  .returned a

theorem ofExcept (x : Except ε α) :
    Balanced p held
      (Action.ofExcept x : Action ε (Event M χ) σ α) := by
  cases x with
  | error e => exact .threw e
  | ok a => exact .returned a

theorem throw (e : ε) :
    Balanced p held
      (Action.throw e : Action ε (Event M χ) σ α) :=
  .threw e

theorem bind
    {act : Action ε (Event M χ) σ α}
    {f : α → Action ε (Event M χ) σ β}
    (hAct : Balanced p held act)
    (hNext : ∀ a, Balanced p held (f a)) :
    Balanced p held (act >>= f) :=
  Keeps.bind hAct hNext

theorem catchAll
    {act : Action ε (Event M χ) σ α}
    {handler : ε → Action ε (Event M χ) σ α}
    (hAct : Balanced p held act)
    (hHandler : ∀ e, Balanced p held (handler e)) :
    Balanced p held (act.catchAll handler) :=
  Keeps.catchAll hAct hHandler

theorem get :
    Balanced p held
      (Action.get : Action ε (Event M χ) σ σ) :=
  .step (fun _ => trivial) (fun s => .returned s)

theorem modify (f : σ → σ) :
    Balanced p held
      (Action.modify f : Action ε (Event M χ) σ Unit) :=
  .step (fun _ => trivial) (fun _ => .returned ())

theorem holding
    {m : M}
    {act : Action ε (Event M χ) σ α}
    (hBefore : ∀ m' ∈ held, p.before m' m)
    (hAct : Balanced p (m :: held) act) :
    Balanced p held (holding m act) := by
  apply Keeps.bind (Keeps.acquire hBefore)
  intro _
  refine Keeps.bind (?_ : Keeps p (m :: held) held _ _) ?_
  · apply Keeps.catchAll hAct
    intro e
    exact Keeps.bind (.release m) (fun _ => .threw e)
  · intro a
    exact Keeps.bind (.release m) (fun _ => .returned a)

/- Plain code calls back only where nothing is held. -/
theorem unlocked
    {act : Action ε χ σ α}
    (hQuiet :
      Ensures
        (fun _ xs _ => ∀ x ∈ xs, p.callback x → held = [])
        act) :
    Balanced p held (unlocked act) := by
  induction hQuiet with
  | done result =>
      cases result with
      | error e => exact .threw e
      | ok a => exact .returned a
  | step hStep _ ih =>
      refine
        .step (fun s => Policy.obeyed_effects (hStep s)) ?_
      intro s
      rw [heldAfter_effects]
      exact ih s

/- Outside of all scopes, plain code may do anything. -/
theorem unlocked_nil (act : Action ε χ σ α) :
    Balanced p [] (Locks.unlocked act) := by
  apply Balanced.unlocked
  induction act with
  | done result => exact .done result
  | step effects next rest ih =>
      exact .step (fun _ _ _ _ => rfl) ih

end Balanced

------------------------------------------------------------
-- Calls From Within Callbacks
------------------------------------------------------------

/- The last event has handed control to code of the user. -/
def Policy.EndsInCallback
    (p : Policy M χ)
    (log : List (Event M χ)) : Prop :=
  ∃ before x, log = before ++ [.effect x] ∧ p.callback x

/-
  The calls in progress on one thread, innermost first.  Code
  of the user runs outside of all calls and in callbacks; it
  may call any entry.  The states that steps meet are
  arbitrary, as other threads run too.
-/
inductive Nested
    (p : Policy M χ)
    (entry : Action ε (Event M χ) σ Unit → Prop) :
    List (Action ε (Event M χ) σ Unit) →
      Bool → List (Event M χ) → Prop
| start : Nested p entry [] true []
| call
    {act : Action ε (Event M χ) σ Unit}
    {frames : List (Action ε (Event M χ) σ Unit)}
    {log : List (Event M χ)} :
    Nested p entry frames true log →
      entry act → Nested p entry (act :: frames) false log
| step
    {effects : σ → List (Event M χ)}
    {next : σ → σ}
    {rest : σ → Action ε (Event M χ) σ Unit}
    {frames : List (Action ε (Event M χ) σ Unit)}
    {user : Bool}
    {log : List (Event M χ)}
    (s : σ)
    (user' : Bool) :
    Nested p entry (.step effects next rest :: frames) user
        log →
      (user' = true → p.EndsInCallback (effects s)) →
        Nested p entry (rest s :: frames) user'
          (log ++ effects s)
| leave
    {result : Except ε Unit}
    {frames : List (Action ε (Event M χ) σ Unit)}
    {user : Bool}
    {log : List (Event M χ)} :
    Nested p entry (.done result :: frames) user log →
      Nested p entry frames true log

/- Only the innermost call may hold mutexes. -/
inductive Held
    (p : Policy M χ) :
    List (Action ε (Event M χ) σ Unit) → List M → Prop
| none : Held p [] []
| top
    {act : Action ε (Event M χ) σ Unit}
    {frames : List (Action ε (Event M χ) σ Unit)}
    {held : List M} :
    Keeps p [] [] held act →
      Held p frames [] → Held p (act :: frames) held

theorem heldAfter_of_endsInCallback
    {log : List (Event M χ)}
    (hObeyed : p.Obeyed held log)
    (hEnds : p.EndsInCallback log) :
    heldAfter held log = [] := by
  rcases hEnds with ⟨before, x, hLog, hCallback⟩
  rw [hLog] at hObeyed
  have hNone : heldAfter held before = [] :=
    hObeyed.allows (List.prefix_refl _) hCallback
  rw [hLog, heldAfter_append]
  exact hNone

theorem Nested.invariant
    {entry : Action ε (Event M χ) σ Unit → Prop}
    (hEntry : ∀ act, entry act → Balanced p [] act)
    {frames : List (Action ε (Event M χ) σ Unit)}
    {user : Bool}
    {log : List (Event M χ)}
    (hNested : Nested p entry frames user log) :
    p.Obeyed [] log ∧ Held p frames (heldAfter [] log) ∧
      (user = true → heldAfter [] log = []) := by
  induction hNested with
  | start => exact ⟨trivial, .none, fun _ => rfl⟩
  | call _ hCalled ih =>
      rcases ih with ⟨hObeyed, hHeld, hUser⟩
      have hNone := hUser rfl
      rw [hNone] at hHeld ⊢
      exact
        ⟨hObeyed, .top (hEntry _ hCalled) hHeld,
          fun _ => rfl⟩
  | step s user' _ hEnds ih =>
      rcases ih with ⟨hObeyed, hHeld, _⟩
      rw [Policy.obeyed_append, heldAfter_append]
      generalize heldAfter ([] : List M) _ = held at *
      cases hHeld with
      | top hKeeps hBelow =>
          cases hKeeps with
          | step hSteps hRest =>
              refine
                ⟨⟨hObeyed, hSteps s⟩, .top (hRest s) hBelow,
                  ?_⟩
              intro hUser
              exact
                heldAfter_of_endsInCallback (hSteps s)
                  (hEnds hUser)
  | leave _ ih =>
      rcases ih with ⟨hObeyed, hHeld, _⟩
      generalize heldAfter ([] : List M) _ = held at *
      cases hHeld with
      | top hKeeps hBelow =>
          have hNone := hKeeps.held_of_done
          rw [hNone]
          exact ⟨hObeyed, hBelow, fun _ => rfl⟩

/- The policy is obeyed in all calls, however nested. -/
theorem Nested.obeyed
    {entry : Action ε (Event M χ) σ Unit → Prop}
    (hEntry : ∀ act, entry act → Balanced p [] act)
    {frames : List (Action ε (Event M χ) σ Unit)}
    {user : Bool}
    {log : List (Event M χ)}
    (hNested : Nested p entry frames user log) :
    p.Obeyed [] log :=
  (hNested.invariant hEntry).1

end Keeping

------------------------------------------------------------
-- Forgetting the Mutexes
------------------------------------------------------------

section Erasing

def Event.effect? : Event M χ → Option χ
| .effect x => some x
| _ => none

/- The effects without the mutexes. -/
def visible (log : List (Event M χ)) : List χ :=
  log.filterMap Event.effect?

/- Without interference, the same is done but for mutexes. -/
def Erases
    (act : Action ε (Event M χ) σ α)
    (plain : Action ε χ σ α) : Prop :=
  ∀ s,
    plain.run s =
      { result := (act.run s).result
        effects := visible (act.run s).effects
        state := (act.run s).state }

theorem visible_acquire (m : M) (log : List (Event M χ)) :
    visible (.acquire m :: log) = visible log :=
  rfl

theorem visible_release (m : M) (log : List (Event M χ)) :
    visible (.release m :: log) = visible log :=
  rfl

theorem visible_nil :
    visible ([] : List (Event M χ)) = [] :=
  rfl

theorem visible_append (log log' : List (Event M χ)) :
    visible (log ++ log') = visible log ++ visible log' :=
  List.filterMap_append

theorem visible_effects (effects : List χ) :
    visible (effects.map (Event.effect (M := M))) =
      effects := by
  unfold visible
  rw [List.filterMap_map]
  exact List.filterMap_some

namespace Erases

variable
  {act : Action ε (Event M χ) σ α}
  {plain plain' : Action ε χ σ α}

/- The plain code may be exchanged for equal code. -/
theorem congr
    (hErases : Erases act plain)
    (hSame : ∀ s, plain'.run s = plain.run s) :
    Erases act plain' :=
  fun s => (hSame s).trans (hErases s)

theorem done (result : Except ε α) :
    Erases (.done result : Action ε (Event M χ) σ α)
      (.done result) :=
  fun _ => rfl

theorem pure (a : α) :
    Erases (Pure.pure a : Action ε (Event M χ) σ α)
      (Pure.pure a) :=
  .done (.ok a)

theorem get :
    Erases (Action.get : Action ε (Event M χ) σ σ)
      Action.get :=
  fun _ => rfl

theorem modify (f : σ → σ) :
    Erases (Action.modify f : Action ε (Event M χ) σ Unit)
      (Action.modify f) :=
  fun _ => rfl

theorem unlocked (plain : Action ε χ σ α) :
    Erases (Locks.unlocked (M := M) plain) plain := by
  induction plain with
  | done result => exact .done result
  | step effects next rest ih =>
      intro s
      have hRest := ih s (next s)
      simp only [Locks.unlocked, Action.run, hRest,
        visible_append, visible_effects]

theorem bind
    {f : α → Action ε (Event M χ) σ β}
    {g : α → Action ε χ σ β}
    (hAct : Erases act plain)
    (hNext : ∀ a, Erases (f a) (g a)) :
    Erases (act >>= f) (plain >>= g) := by
  intro s
  rw [Action.run_bind, Action.run_bind, hAct s]
  cases (act.run s).result with
  | error e => rfl
  | ok a => simp only [hNext a _, visible_append]

theorem catchAll
    {handler : ε → Action ε (Event M χ) σ α}
    {handler' : ε → Action ε χ σ α}
    (hAct : Erases act plain)
    (hHandler : ∀ e, Erases (handler e) (handler' e)) :
    Erases (act.catchAll handler)
      (plain.catchAll handler') := by
  intro s
  rw [Action.run_catchAll, Action.run_catchAll, hAct s]
  cases (act.run s).result with
  | ok a => rfl
  | error e => simp only [hHandler e _, visible_append]

theorem holding
    (m : M)
    (hAct : Erases act plain) :
    Erases (Locks.holding m act) plain := by
  intro s
  rw [hAct s]
  unfold Locks.holding
  rw [Action.run_emit_bind, Action.run_bind,
    Action.run_catchAll]
  cases (act.run s).result with
  | ok a =>
      simp [visible_acquire, visible_append, visible_release,
        visible_nil, Action.run_emit_bind]
  | error e =>
      simp [visible_acquire, visible_append, visible_release,
        visible_nil, Action.run_emit_bind]

/- One step of the plain code is one scope. -/
theorem atomically
    (hErases : Erases act plain) :
    Erases act (Action.atomically plain) :=
  hErases.congr (Action.run_atomically plain)

end Erases

end Erasing

------------------------------------------------------------
-- Several Threads
------------------------------------------------------------

/-
  Threads that wait for one another in a circle: each wants a
  mutex that the next one holds.  A policy whose order is
  strict excludes it.
-/
theorem no_circular_wait
    {T : Type}
    {p : Policy M χ}
    [IsStrictOrder M p.before]
    {held : T → List M}
    {wanted : T → M}
    (hAllowed :
      ∀ t m, m ∈ held t → p.before m (wanted t))
    (t : T) :
    ¬ Relation.TransGen (fun t t' => wanted t ∈ held t')
      t t := by
  have hOrder (t t' : T)
      (hWaits :
        Relation.TransGen (fun t t' => wanted t ∈ held t')
          t t') :
      p.before (wanted t) (wanted t') := by
    induction hWaits with
    | single hHeld => exact hAllowed _ _ hHeld
    | tail _ hHeld ih =>
        exact IsTrans.trans _ _ _ ih (hAllowed _ _ hHeld)
  exact fun hCircle => irrefl _ (hOrder t t hCircle)

end Locks
