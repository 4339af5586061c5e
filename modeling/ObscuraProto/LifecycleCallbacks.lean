import ObscuraProto.ConnectionLimits
import ObscuraProto.Library.Brackets
import ObscuraProto.WsServer.Opening
import ObscuraProto.WsServer.Traces

/-
  The open and the close callback of the application.

  A connection that `on_open` refuses is not announced, but
  its close is reported like any other.  The callbacks are
  paired in a run just if no refused connection is closed in
  it.

  Key definitions include:
    * `LifecycleCallbacks.Observed`
    * `LifecycleCallbacks.Disciplined`
    * `LifecycleCallbacks.ClosesAnnounced`
    * `LifecycleCallbacks.CallbacksPaired`

  Key theorems include:
    * `LifecycleCallbacks.callbacks_paired_iff`
    * `LifecycleCallbacks.callbacks_unpaired`
-/

namespace ObscuraProto

namespace LifecycleCallbacks

open Effectful WsServer StateMachine Brackets
open ConnectionLimits (Step exec)

variable (S : Sodium)

------------------------------------------------------------
-- What the Application Sees
------------------------------------------------------------

/- An invocation of one of the two callbacks. -/
def lifecycleOf : ServerEffect → Option (Bracket Hdl)
| .invoke (.onOpen _ hdl) => some (.opening hdl)
| .invoke (.onClose _ hdl) => some (.closing hdl)
| _ => none

def lifecycle
    (effects : List ServerEffect) : List (Bracket Hdl) :=
  effects.filterMap lifecycleOf

/- What leaves the wrapper in a step. -/
def effectsOf (w : WsServer) : Step → List ServerEffect
| .event event => ((handle S event).run w).effects
| .stop => (stop.run w).effects

/-
  The server, the connections the transport has opened and
  not closed yet, those of them that are announced to the
  application and those that were refused, and the callbacks
  so far.
-/
structure Observed where
  server : WsServer
  live : List Hdl := []
  announced : List Hdl := []
  refused : List Hdl := []
  log : List (Bracket Hdl) := []

def next (x : Observed) (step : Step) : Observed :=
  let log' := lifecycle (effectsOf S x.server step)
  let x' : Observed :=
    { x with
      server := exec S x.server step
      log := x.log ++ log' }
  match step with
  | .event (.opened input hdl) =>
      { x' with
        live := hdl :: x.live
        announced :=
          if .opening hdl ∈ log' then
            hdl :: x.announced
          else
            x.announced
        refused :=
          if refuses input x.server then
            hdl :: x.refused
          else
            x.refused }
  | .event (.closed _ hdl) =>
      { x' with
        live := x.live.filter (· ≠ hdl)
        announced := x.announced.erase hdl
        refused := x.refused.filter (· ≠ hdl) }
  | _ => x'

/- Both lifecycle callbacks are set. -/
def BothSet (w : WsServer) : Prop :=
  w.onOpenCallback.isSome = true ∧
    w.onCloseCallback.isSome = true

/-
  The transport opens connections that are new, and closes
  each of them once; both callbacks are set by then.
-/
def Disciplined (x : Observed) : Step → Prop
| .event (.opened _ hdl) => hdl ∉ x.live ∧ BothSet x.server
| .event (.closed _ hdl) => hdl ∈ x.live ∧ BothSet x.server
| _ => True

instance (w : WsServer) : Decidable (BothSet w) :=
  inferInstanceAs (Decidable (_ ∧ _))

instance (x : Observed) (step : Step) :
    Decidable (Disciplined x step) := by
  unfold Disciplined
  split <;> infer_instance

/- No connection is closed that `on_open` has refused. -/
def ClosesAnnounced (x : Observed) : Step → Prop
| .event (.closed _ hdl) => hdl ∉ x.refused
| _ => True

instance (x : Observed) (step : Step) :
    Decidable (ClosesAnnounced x step) := by
  unfold ClosesAnnounced
  split <;> infer_instance

/-
  A close is reported only of a connection whose open was; a
  counter of both is the number of the announced connections
  and has never been negative.
-/
structure CallbacksPaired (x : Observed) : Prop where
  paired : Paired x.log
  counter : balance x.log = x.announced.length
  nonneg : ∀ before, before <+: x.log → 0 ≤ balance before

------------------------------------------------------------
-- The Callbacks of a Step
------------------------------------------------------------

variable {S}

theorem lifecycle_append
    (first second : List ServerEffect) :
    lifecycle (first ++ second) =
      lifecycle first ++ lifecycle second :=
  List.filterMap_append

/- Code that may not invoke the two does not. -/
def Unreported
    (_ : WsServer)
    (effects : List ServerEffect)
    (_ : WsServer) : Prop :=
  lifecycle effects = []

theorem composes_unreported : Composes Unreported where
  refl := fun _ => rfl
  trans := by
    intro w v u _ _ hFirst hSecond
    unfold Unreported at hFirst hSecond ⊢
    rw [lifecycle_append, hFirst, hSecond]
    rfl

theorem unreported_of_move
    {may : May}
    {w w' : WsServer}
    {effects : List ServerEffect}
    (hMay :
      ∀ callback, may.invokes callback →
        lifecycleOf (.invoke callback) = none)
    (hMove : Move S may w effects w') :
    Unreported w effects w' := by
  have hOnly := invokesOnly_of_move hMove
  apply List.filterMap_eq_nil_iff.mpr
  intro effect hMem
  cases effect with
  | invoke callback =>
      exact hMay callback (hOnly callback hMem)
  | transmit | close | complete => rfl

theorem message_unreported
    (input : IoInput)
    (hdl : Hdl)
    (frame : Frame)
    (w : WsServer) :
    lifecycle
        (effectsOf S w (.event (.message input hdl frame))) =
      [] := by
  refine
    ((handle_traces S (.message input hdl frame)).ensures ?_
      ).run composes_unreported w
  intro trace v effects v' hMove
  refine unreported_of_move ?_ hMove
  intro callback hMay
  cases callback with
  | onOpen | onClose => exact hMay.elim
  | _ => rfl

/- Code that invokes no callback. -/
theorem silent_unreported
    {may : May}
    {α : Type}
    {act : ServerAction α}
    (hMoves : Moves S may act)
    (hSilent : ∀ callback, ¬ may.invokes callback)
    (w : WsServer) :
    lifecycle (act.run w).effects = [] :=
  (hMoves.mono
    (fun _ _ _ hMove =>
      unreported_of_move
        (fun callback hMay => absurd hMay (hSilent callback))
        hMove)).run composes_unreported w

theorem open_lifecycle
    (input : IoInput)
    (hdl : Hdl)
    {w : WsServer}
    (hSet : BothSet w) :
    lifecycle
        (effectsOf S w (.event (.opened input hdl))) =
      if refuses input w then
        []
      else
        [.opening hdl] := by
  rcases Option.isSome_iff_exists.mp hSet.1 with
    ⟨handler, hHandler⟩
  simp only [effectsOf, handle]
  rcases onOpen_effects input hdl w with
    ⟨hRefused, reason, hEffects⟩ | ⟨hAdmitted, hEffects⟩
  · rw [hRefused, if_pos rfl, hEffects]
    rfl
  · rw [hAdmitted, hEffects, hHandler]
    rfl

/- The callback is the first thing `on_close` does. -/
theorem close_lifecycle
    (input : IoInput)
    (hdl : Hdl)
    {w : WsServer}
    (hSet : BothSet w) :
    lifecycle
        (effectsOf S w (.event (.closed input hdl))) =
      [.closing hdl] := by
  rcases Option.isSome_iff_exists.mp hSet.2 with
    ⟨handler, hHandler⟩
  have hInvoked :=
    invokeHandler_run_eq w.onCloseCallback
      (.onClose · hdl) input.callbackAnswer w
  have hReported :
      lifecycle
          (invocation w.onCloseCallback (.onClose · hdl)) =
        [.closing hdl] := by
    rw [hHandler]
    rfl
  simp only [effectsOf, handle]
  unfold onClose
  rw [Action.run_get_bind]
  cases hAnswer :
      answered w.onCloseCallback input.callbackAnswer with
  | error e =>
      rw [hAnswer] at hInvoked
      rw [Action.run_bind_error hInvoked]
      exact hReported
  | ok u =>
      rw [hAnswer] at hInvoked
      rw [Action.run_bind_ok hInvoked, lifecycle_append,
        hReported, Action.run_modify_bind,
        Action.run_modify_bind, Action.run_modify_bind]
      -- What is left fulfils promises and drops a time.
      have hRest :
          Moves S
            { requests := (· = .closes hdl) }
            (requestSection (fun t => t.closeConnection hdl) >>=
              fun _ => clearHandshakeTime hdl) :=
        Ensures.bind
          (requestSection_moves S (s := .closes hdl) rfl)
          (fun _ => clearHandshakeTime_moves S hdl)
      rw [silent_unreported hRest (fun _ => not_false)]
      rfl

/- No other step calls either of them. -/
theorem call_unreported
    (method : PublicCall)
    (w : WsServer) :
    lifecycle (effectsOf S w (.event (.call method))) = [] :=
  silent_unreported (call_moves S method)
    (fun _ hMay => hMay.elim) w

theorem timeouts_unreported
    (input : IoInput)
    (w : WsServer) :
    lifecycle (effectsOf S w (.event (.timeouts input))) =
      [] :=
  silent_unreported (checkTimeouts_moves S input)
    (fun _ hMay => hMay.elim) w

theorem stop_unreported (w : WsServer) :
    lifecycle (effectsOf S w .stop) = [] :=
  silent_unreported (stop_moves S)
    (fun _ hMay => hMay.elim) w

------------------------------------------------------------
-- Bookkeeping
------------------------------------------------------------

/-
  The announced connections are those the log leaves open,
  and among the live ones those that were not refused.
-/
structure Booked (x : Observed) : Prop where
  announced : x.announced = openKeys x.log
  once : x.announced.Nodup
  live : ∀ hdl ∈ x.announced, hdl ∈ x.live
  refused : ∀ hdl ∈ x.refused, hdl ∈ x.live
  either :
    ∀ hdl ∈ x.live, hdl ∈ x.announced ↔ hdl ∉ x.refused

theorem booked_start (w : WsServer) :
    Booked { server := w } where
  announced := rfl
  once := List.nodup_nil
  live := by simp
  refused := by simp
  either := by simp

/- A step without callbacks and without the transport. -/
theorem Booked.silent
    {x : Observed}
    (hBooked : Booked x)
    (w : WsServer) :
    Booked { x with server := w, log := x.log ++ [] } := by
  rw [List.append_nil]
  exact
    { announced := hBooked.announced
      once := hBooked.once
      live := hBooked.live
      refused := hBooked.refused
      either := hBooked.either }

theorem Booked.opened
    {x : Observed}
    {hdl : Hdl}
    (hBooked : Booked x)
    (hNew : hdl ∉ x.live)
    (w : WsServer) :
    Booked
      { x with
        server := w
        live := hdl :: x.live
        announced := hdl :: x.announced
        log := x.log ++ [.opening hdl] } where
  announced := by
    rw [openKeys_snoc, ← hBooked.announced]
    rfl
  once :=
    List.nodup_cons.mpr
      ⟨fun hMem => hNew (hBooked.live hdl hMem), hBooked.once⟩
  live := by
    intro other hMem
    rcases List.mem_cons.mp hMem with hSame | hMem
    · rw [hSame]
      exact List.mem_cons_self
    · exact List.mem_cons_of_mem _ (hBooked.live other hMem)
  refused := fun other hMem =>
    List.mem_cons_of_mem _ (hBooked.refused other hMem)
  either := by
    intro other hMem
    by_cases hSame : other = hdl
    · subst hSame
      have hNot : other ∉ x.refused :=
        fun hRefused => hNew (hBooked.refused other hRefused)
      simp [hNot]
    · have hOld : other ∈ x.live := by
        simpa [hSame] using hMem
      simp [hSame, hBooked.either other hOld]

theorem Booked.turnedAway
    {x : Observed}
    {hdl : Hdl}
    (hBooked : Booked x)
    (hNew : hdl ∉ x.live)
    (w : WsServer) :
    Booked
      { x with
        server := w
        live := hdl :: x.live
        refused := hdl :: x.refused
        log := x.log ++ [] } where
  announced := by
    rw [List.append_nil]
    exact hBooked.announced
  once := hBooked.once
  live := fun other hMem =>
    List.mem_cons_of_mem _ (hBooked.live other hMem)
  refused := by
    intro other hMem
    rcases List.mem_cons.mp hMem with hSame | hMem
    · rw [hSame]
      exact List.mem_cons_self
    · exact
        List.mem_cons_of_mem _ (hBooked.refused other hMem)
  either := by
    intro other hMem
    by_cases hSame : other = hdl
    · subst hSame
      have hNot : other ∉ x.announced :=
        fun hAnnounced => hNew (hBooked.live other hAnnounced)
      simp [hNot]
    · have hOld : other ∈ x.live := by
        simpa [hSame] using hMem
      simp [hSame, hBooked.either other hOld]

theorem Booked.closed
    {x : Observed}
    (hBooked : Booked x)
    (hdl : Hdl)
    (w : WsServer) :
    Booked
      { x with
        server := w
        live := x.live.filter (· ≠ hdl)
        announced := x.announced.erase hdl
        refused := x.refused.filter (· ≠ hdl)
        log := x.log ++ [.closing hdl] } where
  announced := by
    rw [openKeys_snoc, ← hBooked.announced]
    rfl
  once := hBooked.once.erase hdl
  live := by
    intro other hMem
    rcases (hBooked.once.mem_erase_iff).mp hMem with
      ⟨hOther, hMem⟩
    simp [hOther, hBooked.live other hMem]
  refused := by
    intro other hMem
    simp only [ne_eq, decide_not, List.mem_filter] at hMem ⊢
    exact ⟨hBooked.refused other hMem.1, hMem.2⟩
  either := by
    intro other hMem
    have hBoth : other ∈ x.live ∧ other ≠ hdl := by
      simpa using hMem
    simp [hBooked.once.mem_erase_iff, hBoth.2,
      hBooked.either other hBoth.1]

/- Bookkeeping along a step that the transport may make. -/
theorem Booked.next
    {x : Observed}
    {step : Step}
    (hBooked : Booked x)
    (hStep : Disciplined x step) :
    Booked (next S x step) := by
  cases step with
  | stop =>
      simp only [LifecycleCallbacks.next, stop_unreported]
      exact hBooked.silent _
  | event event =>
      cases event with
      | opened input hdl =>
          rcases hStep with ⟨hNew, hSet⟩
          simp only [LifecycleCallbacks.next,
            open_lifecycle (S := S) input hdl hSet]
          cases refuses input x.server with
          | true => exact hBooked.turnedAway hNew _
          | false =>
              simp only [Bool.false_eq_true, if_false,
                List.mem_singleton, if_true]
              exact hBooked.opened hNew _
      | closed input hdl =>
          simp only [LifecycleCallbacks.next,
            close_lifecycle (S := S) input hdl hStep.2]
          exact hBooked.closed hdl _
      | message input hdl frame =>
          simp only [LifecycleCallbacks.next,
            message_unreported]
          exact hBooked.silent _
      | timeouts input =>
          simp only [LifecycleCallbacks.next,
            timeouts_unreported]
          exact hBooked.silent _
      | call method =>
          simp only [LifecycleCallbacks.next, call_unreported]
          exact hBooked.silent _

------------------------------------------------------------
-- Runs
------------------------------------------------------------

/- Only the close of a refused connection is unpaired. -/
theorem paired_next_iff
    {x : Observed}
    {step : Step}
    (hBooked : Booked x)
    (hStep : Disciplined x step) :
    Paired (next S x step).log ↔
      Paired x.log ∧ ClosesAnnounced x step := by
  have hSilent
      (hNone : lifecycle (effectsOf S x.server step) = [])
      (hOpen : ∀ input hdl, step ≠ .event (.closed input hdl)) :
      Paired
          (x.log ++ lifecycle (effectsOf S x.server step)) ↔
        Paired x.log ∧ ClosesAnnounced x step := by
    have hAny : ClosesAnnounced x step := by
      unfold ClosesAnnounced
      split
      · next input hdl =>
          exact absurd rfl (hOpen input hdl)
      · trivial
    rw [hNone, List.append_nil, and_iff_left hAny]
  cases step with
  | stop => exact hSilent (stop_unreported _) (by simp)
  | event event =>
      cases event with
      | opened input hdl =>
          have hLog :=
            open_lifecycle (S := S) input hdl hStep.2
          simp only [next, hLog]
          cases refuses input x.server with
          | true =>
              simp only [if_true, List.append_nil]
              exact (and_iff_left trivial).symm
          | false =>
              simp only [Bool.false_eq_true, if_false]
              rw [paired_snoc_opening]
              exact (and_iff_left trivial).symm
      | closed input hdl =>
          have hEither := hBooked.either hdl hStep.1
          simp only [next,
            close_lifecycle (S := S) input hdl hStep.2]
          rw [paired_snoc_closing, ← hBooked.announced,
            hEither]
          rfl
      | message input hdl frame =>
          exact
            hSilent (message_unreported input hdl frame _)
              (by simp)
      | timeouts input =>
          exact hSilent (timeouts_unreported input _) (by simp)
      | call method =>
          exact hSilent (call_unreported method _) (by simp)

theorem paired_foldl_iff
    {x : Observed}
    {steps : List Step}
    (hBooked : Booked x)
    (hSteps : Allowed Disciplined (next S) x steps) :
    Booked (steps.foldl (next S) x) ∧
      (Paired (steps.foldl (next S) x).log ↔
        Paired x.log ∧
          Allowed ClosesAnnounced (next S) x steps) := by
  induction steps generalizing x with
  | nil => exact ⟨hBooked, (and_iff_left trivial).symm⟩
  | cons step steps ih =>
      rcases ih (hBooked.next hSteps.1) hSteps.2 with
        ⟨hAfter, hIff⟩
      refine ⟨hAfter, ?_⟩
      rw [List.foldl_cons, hIff,
        paired_next_iff hBooked hSteps.1, and_assoc]
      rfl

/-
  In every run in which the transport closes what it opens
  once, with both callbacks set.
-/
theorem callbacks_paired_iff
    {serverSignKey : KeyPair}
    {config : Config}
    {hasOwner : Bool}
    {steps : List Step}
    (hSteps :
      Allowed Disciplined (next S)
        { server := .new serverSignKey config hasOwner } steps) :
    CallbacksPaired
        (steps.foldl (next S)
          { server := .new serverSignKey config hasOwner }) ↔
      Allowed ClosesAnnounced (next S)
        { server := .new serverSignKey config hasOwner } steps := by
  rcases paired_foldl_iff (booked_start _) hSteps with
    ⟨hBooked, hIff⟩
  have hStart :
      Paired
        ({ server := .new serverSignKey config hasOwner } :
          Observed).log :=
    paired_nil
  rw [← and_iff_right (a := Paired _) (b := Allowed _ _ _ _)
    hStart, ← hIff]
  constructor
  · exact CallbacksPaired.paired
  · intro hPaired
    exact
      { paired := hPaired
        counter := by
          rw [hPaired.balance_eq, hBooked.announced]
        nonneg := fun before hPrefix =>
          hPaired.balance_nonneg hPrefix }

------------------------------------------------------------
-- A Refused Connection
------------------------------------------------------------

open PlainSodium

/- A server that lets one connection a minute pass. -/
def onePerMinute : Config :=
  { Config.withDefaults with
    rateLimit := { connectionsPerMinute := 1 } }

def setCallbacks : List Step :=
  [.event (.call (.register .onOpenCallback (some 1))),
    .event (.call (.register .onCloseCallback (some 2)))]

def opens (hdl : Hdl) : Step :=
  .event (.opened (.smooth (sampleKx 0)) hdl)

def closes (hdl : Hdl) : Step :=
  .event (.closed (.smooth (sampleKx 0)) hdl)

def observe (steps : List Step) : Observed :=
  steps.foldl (next plainSodium)
    { server := .new (sampleKeyPair 6) onePerMinute true }

/- One connection is announced and closed. -/
def accepted : List Step :=
  setCallbacks ++ [opens 1, closes 1]

/- A second one from the same address is refused. -/
def turnedAway : List Step :=
  setCallbacks ++ [opens 1, closes 1, opens 2, closes 2]

theorem callbacks_paired_accepted :
    (observe accepted).log = [.opening 1, .closing 1] ∧
      CallbacksPaired (observe accepted) :=
  ⟨by decide,
    (@callbacks_paired_iff plainSodium (sampleKeyPair 6)
      onePerMinute true accepted (by decide)).mpr (by decide)⟩

/- The close of the refused connection is reported alone. -/
theorem callbacks_unpaired :
    Allowed Disciplined (next plainSodium)
        { server := .new (sampleKeyPair 6) onePerMinute true }
        turnedAway ∧
      (observe turnedAway).log =
          [.opening 1, .closing 1, .closing 2] ∧
        balance (observe turnedAway).log = -1 ∧
          ¬ CallbacksPaired (observe turnedAway) := by
  refine ⟨by decide, by decide, by decide, ?_⟩
  intro hPaired
  have hNonneg := hPaired.nonneg _ (List.prefix_refl _)
  revert hNonneg
  decide

end LifecycleCallbacks

end ObscuraProto
