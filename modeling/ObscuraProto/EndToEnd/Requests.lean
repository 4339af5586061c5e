import ObscuraProto.EndToEnd.Connecting
import ObscuraProto.EndToEnd.Runs

/-
  Requests and responses, from one end to the other.

  The requests of an end get to their handlers at the other
  end once and in order, with the parameters that were passed,
  and the answer of the handler becomes the value of the
  future of that request, whatever else both ends do.

  Key definitions include:
    * `Observation.asked?`, `Observation.served?`
    * `EndToEnd.Answered`

  Key theorems include:
    * `EndToEnd.answered_of_exchanged`
    * `EndToEnd.answered_of_run`
    * `EndToEnd.requests_answered`
-/

namespace ObscuraProto

open Effectful EndToEnd Dialogue

/- A request handler that was called, and what it returned. -/
structure Service where
  handler : Option HandlerId
  parameters : Bytes
  answer : Except Exception Payload

namespace Observation

def asked? : Observation → Option (PromiseId × Payload)
| .asked promise payload => some (promise, payload)
| _ => none

def served? : Observation → Option Service
| .served handler parameters answer =>
    some ⟨handler, parameters, answer⟩
| _ => none

def completed? : Observation → Option Completion
| .completed completion => some completion
| _ => none

end Observation

namespace EndToEnd

/-
  Of the requests that were asked, the oldest were served, and
  the futures of the oldest of these have their answers.
-/
structure Answered
    (handlers : HandlerTable)
    (asked : List (PromiseId × Payload))
    (served : List Service)
    (completed : List Completion) : Prop where
  served_le : served.length ≤ asked.length
  completed_le : completed.length ≤ served.length
  served_at :
    ∀ (i : Nat) (service : Service), served[i]? = some service →
      ∃ (promise : PromiseId) (payload : Payload),
        asked[i]? = some (promise, payload) ∧
          service.handler = handlers[payload.opCode]?.join ∧
            service.parameters = payload.parameters
  completed_at :
    ∀ (i : Nat) (completion : Completion),
      completed[i]? = some completion →
      ∃ promise payload service,
        asked[i]? = some (promise, payload) ∧
          served[i]? = some service ∧
            completion = ⟨promise, service.answer⟩

------------------------------------------------------------
-- Observations of Deeds
------------------------------------------------------------

variable {terms : Terms}
variable {role : Role}

/- Two ways to read lists agree if they do on each element. -/
theorem filterMap_flatMap_of
    {α β γ : Type}
    {f : α → List β}
    {p : β → Option γ}
    {g : α → Option γ}
    (hSame : ∀ a, (f a).filterMap p = (g a).toList)
    (xs : List α) :
    (xs.flatMap f).filterMap p = xs.filterMap g := by
  induction xs with
  | nil => rfl
  | cons x xs ih =>
      rw [List.flatMap_cons, List.filterMap_append, hSame, ih]
      cases hFirst : g x with
      | none => rw [List.filterMap_cons_none hFirst]; rfl
      | some y => rw [List.filterMap_cons_some hFirst]; rfl

/- What an end observes is read off the deed it did. -/
theorem seenBy_filterMap
    {β : Type}
    {p : Observation → Option β}
    {g : Deed → Option β}
    (hOwn :
      ∀ deed, actor deed = some role →
        (terms.seen role deed).filterMap p = (g deed).toList)
    (hOther :
      ∀ deed, Silent role deed → g deed = none)
    (deed : Deed) :
    (terms.seenBy role deed).filterMap p =
      (g deed).toList := by
  unfold Terms.seenBy
  split
  · next hActor => exact hOwn deed hActor
  · next hActor =>
    rw [hOther deed (silent_of_actor hActor)]
    rfl

/- What is observed of a request that is served. -/
def serviceOf
    (handlers : HandlerTable)
    (v : UInt32 × Payload × Payload) : Service where
  handler := handlers[v.2.1.opCode]?.join
  parameters := v.2.1.parameters
  answer := .ok v.2.2

/- A promise that was found is completed with the answer. -/
def completionOf
    (t : UInt32 × Payload × Option PromiseId) :
    Option Completion :=
  t.2.2.map (fun promise => ⟨promise, .ok t.2.1⟩)

variable {deeds : List Deed}

theorem asked_of_deeds :
    (deeds.flatMap (terms.seenBy role)).filterMap
        Observation.asked? =
      (deeds.filterMap (Act.asked role)).map
        (fun a => (a.2.1, a.2.2)) := by
  rw [List.map_filterMap]
  refine filterMap_flatMap_of (seenBy_filterMap ?_ ?_) deeds
  · intro deed hActor
    cases deed with
    | idle => cases hActor
    | settle role' id answer promise =>
        cases hActor
        cases promise <;> rfl
    | _ =>
        cases hActor
        simp [Terms.seen, Act.asked, Observation.asked?]
  · intro deed hSilent
    rw [hSilent.asked]
    rfl

theorem served_of_deeds :
    (deeds.flatMap (terms.seenBy role)).filterMap
        Observation.served? =
      (deeds.filterMap (Act.served role)).map
        (serviceOf (terms.requestHandlers role)) := by
  rw [List.map_filterMap]
  refine filterMap_flatMap_of (seenBy_filterMap ?_ ?_) deeds
  · intro deed hActor
    cases deed with
    | idle => cases hActor
    | settle role' id answer promise =>
        cases hActor
        cases promise <;> rfl
    | _ =>
        cases hActor
        simp [Terms.seen, Act.served, Observation.served?,
          serviceOf]
  · intro deed hSilent
    rw [hSilent.served]
    rfl

theorem completed_of_deeds :
    (deeds.flatMap (terms.seenBy role)).filterMap
        Observation.completed? =
      (deeds.filterMap (Act.settled role)).filterMap
        completionOf := by
  rw [List.filterMap_filterMap]
  refine filterMap_flatMap_of (seenBy_filterMap ?_ ?_) deeds
  · intro deed hActor
    cases deed with
    | idle => cases hActor
    | settle role' id answer promise =>
        cases hActor
        cases promise <;>
          simp [Terms.seen, Act.settled, Observation.completed?,
            completionOf]
    | _ =>
        cases hActor
        simp [Terms.seen, Act.settled, Observation.completed?]
  · intro deed hSilent
    rw [hSilent.settled]
    rfl

------------------------------------------------------------
-- Requests
------------------------------------------------------------

/- Where nothing is left out, the places stay the same. -/
theorem getElem?_filterMap_of_all
    {α β : Type}
    {f : α → Option β}
    {xs : List α}
    (hAll : ∀ x ∈ xs, (f x).isSome)
    (i : Nat) :
    (xs.filterMap f)[i]? = xs[i]?.bind f := by
  induction xs generalizing i with
  | nil => rfl
  | cons x xs ih =>
      rcases Option.isSome_iff_exists.mp
        (hAll x List.mem_cons_self) with ⟨y, hSome⟩
      rw [List.filterMap_cons_some hSome]
      cases i with
      | zero => exact hSome.symm
      | succ i =>
          exact
            ih
              (fun x hMem =>
                hAll x (List.mem_cons_of_mem _ hMem))
              i

section Exchange

variable {asks : List (UInt32 × PromiseId × Payload)}
variable {serves : List (UInt32 × Payload × Payload)}
variable {settles : List (UInt32 × Payload × Option PromiseId)}
variable {requests replies : List (UInt32 × Payload)}
variable {pending : UInt32 → Option PromiseId}

/- Every reply finds the promise of its request. -/
theorem all_completed
    (hExchanged :
      Exchanged asks serves settles requests replies)
    (hOwed : Owed asks settles pending)
    (t : UInt32 × Payload × Option PromiseId)
    (hMem : t ∈ settles) :
    (completionOf t).isSome := by
  rcases List.mem_iff_getElem?.mp hMem with ⟨i, hSettled⟩
  have hPlace := (List.getElem?_eq_some_iff.mp hSettled).1
  have hServes := hExchanged.serves_le
  have hSettles := hExchanged.settles_le
  have hAsked := List.getElem?_eq_getElem
    (show i < asks.length by omega)
  have hPromise := hOwed.promise_at hSettled hAsked
  simp [completionOf, hPromise]

/- What the two ends observe of the requests of one of them. -/
theorem answered_of_exchanged
    (handlers : HandlerTable)
    (hExchanged :
      Exchanged asks serves settles requests replies)
    (hOwed : Owed asks settles pending) :
    Answered handlers (asks.map (fun a => (a.2.1, a.2.2)))
      (serves.map (serviceOf handlers))
      (settles.filterMap completionOf) where
  served_le := by
    rw [List.length_map, List.length_map]
    exact hExchanged.serves_le
  completed_le := by
    rw [List.length_map]
    exact
      (List.length_filterMap_le _ _).trans hExchanged.settles_le
  served_at := by
    intro i service hServed
    rw [List.getElem?_map, Option.map_eq_some_iff] at hServed
    rcases hServed with ⟨v, hPlace, hService⟩
    rcases hExchanged.served_at hPlace with ⟨promise, hAsked⟩
    refine ⟨promise, v.2.1, ?_, ?_, ?_⟩
    · rw [List.getElem?_map, hAsked]
      rfl
    · rw [← hService]
      rfl
    · rw [← hService]
      rfl
  completed_at := by
    intro i completion hCompleted
    rw [getElem?_filterMap_of_all
      (all_completed hExchanged hOwed)] at hCompleted
    rcases Option.bind_eq_some_iff.mp hCompleted with
      ⟨t, hSettled, hCompletion⟩
    have hReplied :
        (settles.map (fun t => (t.1, t.2.1)) ++ replies)[i]? =
          some (t.1, t.2.1) := by
      have hPlace := (List.getElem?_eq_some_iff.mp hSettled).1
      rw [List.getElem?_append_left (by simpa using hPlace),
        List.getElem?_map, hSettled]
      rfl
    rcases hExchanged.replied_at hReplied with
      ⟨promise, body, hServed, hAsked⟩
    have hPromise := hOwed.promise_at hSettled hAsked
    refine ⟨promise, body, serviceOf handlers
      (t.1, body, t.2.1), ?_, ?_, ?_⟩
    · rw [List.getElem?_map, hAsked]
      rfl
    · rw [List.getElem?_map, hServed]
      rfl
    · rw [completionOf, hPromise] at hCompletion
      exact (Option.some.inj hCompletion).symm

end Exchange

------------------------------------------------------------
-- Runs
------------------------------------------------------------

variable {S : Sodium}
variable {hdl : Hdl}
variable {isAuth : Bool}
variable {keys : Role → SessionKeys}
variable {n : Nat}
variable {f : FifoLink}
variable {d : Talk}
variable {l : Link}

/- With no packet on its way, no word is on its way. -/
theorem Mirrors.inbox_nil
    (hMirrors : Mirrors S keys terms hdl isAuth n f d l)
    (hQueue : l.queue role = []) :
    d.inbox role = [] := by
  have hPackets := hMirrors.packets role
  have hWords := hMirrors.words role
  rw [hQueue] at hPackets
  rw [List.map_eq_nil_iff.mp hPackets.symm] at hWords
  exact List.forall₂_nil_right_iff.mp hWords

/- What is observed over any run of an established link. -/
theorem answered_of_run
    {l₀ : Link}
    {turns : List Link.Turn}
    (hCorrect : S.AeadCorrect)
    (hEstablished : l₀.Established hdl isAuth keys)
    (hRun :
      StateMachine.Run
        (Link.Step S hdl (l₀.terms isAuth) isAuth) l₀ turns l)
    (hTurns : turns.length < 2 ^ 64)
    (role : Role)
    (hIds : Link.requestIds S hdl role turns ≤ 2 ^ 32) :
    let asked :=
      (Link.trace S hdl role turns).filterMap
        Observation.asked?
    let completed :=
      (Link.trace S hdl role turns).filterMap
        Observation.completed?
    Answered
        ((l₀.terms isAuth).requestHandlers role.other)
        asked
        ((Link.trace S hdl role.other turns).filterMap
          Observation.served?)
        completed ∧
      ((∀ r, l.queue r = []) →
        completed.length = asked.length) := by
  rcases run_mirrored hCorrect hEstablished hRun hTurns with
    ⟨deeds, d, f, hDeeds, hMirrors, hReflects⟩
  have hExchanged :=
    (heard_of_run hDeeds quiet_initial).exchanged role
  have hOwed :=
    owedTo_of_run hDeeds quiet_initial
      (hReflects.freshIds hIds)
  dsimp only
  rw [hReflects.seen role, hReflects.seen role.other,
    asked_of_deeds, completed_of_deeds, served_of_deeds]
  refine ⟨answered_of_exchanged _ hExchanged hOwed, ?_⟩
  intro hQuiet
  have hHere := hMirrors.inbox_nil (hQuiet role)
  have hThere := hMirrors.inbox_nil (hQuiet role.other)
  have hAll := all_completed hExchanged hOwed
  rw [List.length_map, List.filterMap_length_eq_length.mpr hAll]
  rw [hHere, show d.inbox (other role) = [] from hThere]
    at hExchanged
  exact hExchanged.all_settled

/-
  A client and a server of one configuration with distinct
  codes, neither of which has done anything on the connection,
  complete a handshake in which nothing is refused.  Then any
  actions follow that `MayTake` allows, in any order: nothing
  is cancelled, closed or timed out, what is sent fits, rates
  are kept, requests have handlers and other payloads do not.
  In either direction requests are served in order, each once
  and with its own parameters, and each future gets the answer
  of its own request.  Once no packet is left, all are
  answered.
-/
theorem requests_answered
    {l₀ : Link}
    {g : Link.Greeting}
    {turns : List Link.Turn}
    (hCorrect : S.AeadCorrect)
    (hWaiting : l₀.Waiting hdl)
    (hWelcome : l₀.Welcome S g)
    (hRun :
      StateMachine.Run
        (Link.Step S hdl (l₀.terms l₀.isAuth) l₀.isAuth)
        (l₀.connect S hdl g) turns l)
    (hTurns : turns.length < 2 ^ 64)
    (role : Role)
    (hIds : Link.requestIds S hdl role turns ≤ 2 ^ 32) :
    let asked :=
      (Link.trace S hdl role turns).filterMap
        Observation.asked?
    let completed :=
      (Link.trace S hdl role turns).filterMap
        Observation.completed?
    Answered
        ((l₀.terms l₀.isAuth).requestHandlers role.other)
        asked
        ((Link.trace S hdl role.other turns).filterMap
          Observation.served?)
        completed ∧
      ((∀ r, l.queue r = []) →
        completed.length = asked.length) := by
  rcases Link.connect_established hWaiting hWelcome with
    ⟨⟨keys, hEstablished⟩, hIntroduced⟩
  rw [← hIntroduced.terms] at hRun ⊢
  exact
    answered_of_run hCorrect hEstablished hRun hTurns role hIds

------------------------------------------------------------
-- A Sample Run
------------------------------------------------------------

open PlainSodium

/- Both ends ask each other before either hears anything. -/
def crossingRequests : List Link.Action :=
  [.callClient (.asyncRequest .zero 0 0 ⟨9, [1, 2]⟩ 0),
    .callServer
      (.asyncRequest ⟨1, 0, .zero⟩ 1 ⟨9, [3]⟩ 0),
    .hearServer (.smooth (sampleKx 8)),
    .hearClient (WsClient.smooth (sampleKx 7)),
    .hearClient (WsClient.smooth (sampleKx 7)),
    .hearServer (.smooth (sampleKx 8))]

/- A small payload is not refused by the sample. -/
theorem sample_fits
    {n : Nat}
    (hSmall : n ≤ 100) :
    ¬ (Link.sample.terms true).config.ExceedsLimit n := by
  rintro ⟨_, _, hLarge⟩
  have hLimit :
      (Link.sample.terms
        true).config.messageLimits.maxDecryptedPayload.toNat =
          65535 := by
    decide
  omega

theorem repliable_smooth :
    Repliable (Link.sample.terms true).config
      (.ok { opCode := 0, parameters := [] }) :=
  ⟨_, rfl, by decide, sample_fits (by decide)⟩

theorem crossingRequests_allowed :
    StateMachine.Allowed
      (fun l action =>
        Link.MayTake 1 (Link.sample.terms true) true l action)
      (fun l action => l.exec plainSodium 1 action)
      Link.connected crossingRequests := by
  refine ⟨⟨by decide, ⟨4, by decide⟩, sample_fits (by decide)⟩,
    ⟨rfl, by decide, ⟨3, by decide⟩, sample_fits (by decide)⟩,
    ⟨?_, fun state hFound => ⟨?_, repliable_smooth⟩⟩,
    ⟨?_, repliable_smooth, rfl⟩,
    ⟨?_, repliable_smooth, rfl⟩,
    ⟨?_, fun state hFound => ⟨?_, repliable_smooth⟩⟩,
    trivial⟩
  · decide +kernel
  · exact fun hEnabled => absurd hEnabled (by decide +kernel)
  · decide +kernel
  · decide +kernel
  · decide +kernel
  · exact fun hEnabled => absurd hEnabled (by decide +kernel)

/- What an end of the sample observes. -/
def crossing (role : Role) : List Observation :=
  Link.trace plainSodium 1 role
    (Link.connected.turnsOf plainSodium 1 crossingRequests)

/- The future of an end has its answer in the end. -/
def CrossingAnswered (role : Role) : Prop :=
  Answered
      ((Link.sample.terms true).requestHandlers role.other)
      ((crossing role).filterMap Observation.asked?)
      ((crossing role.other).filterMap Observation.served?)
      ((crossing role).filterMap Observation.completed?) ∧
    ((crossing role).filterMap
      Observation.completed?).length = 1

theorem requests_answered_crossing :
    CrossingAnswered .client ∧ CrossingAnswered .server := by
  have hRun :=
    Link.run_turnsOf plainSodium 1 crossingRequests_allowed
  have hQuiet :
      ∀ r,
        (crossingRequests.foldl
          (fun l action => l.exec plainSodium 1 action)
            Link.connected).queue r = [] := by
    intro r
    cases r <;> decide +kernel
  have hRole (role : Role) : CrossingAnswered role := by
    have hIds :
        Link.requestIds plainSodium 1 role
            (Link.connected.turnsOf plainSodium 1
              crossingRequests) = 1 := by
      cases role <;> decide +kernel
    have hAsked :
        ((crossing role).filterMap
          Observation.asked?).length = 1 := by
      cases role <;> decide +kernel
    have hAnswered :=
      requests_answered plainSodium_aeadCorrect
        Link.sample_waiting Link.sample_welcome hRun
        (lt_of_eq_of_lt (b := 6) rfl (by simp)) role
        (le_of_eq_of_le hIds (by simp))
    exact
      ⟨hAnswered.1, (hAnswered.2 hQuiet).trans hAsked⟩
  exact ⟨hRole .client, hRole .server⟩

end EndToEnd

end ObscuraProto
