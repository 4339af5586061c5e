import Mathlib.Data.List.Nodup
import Mathlib.Logic.Function.Basic
import ObscuraProto.Library.StateMachine

/-
  Two peers that talk over two queues.

  A peer asks, and the other one replies when the request
  gets to the head of its queue.  A peer opens streams, and
  both put items on the streams that are open on their side.
  Replies come back in the order of the requests; the items
  arrive on their streams in the order they were put there.

  Main declarations:
    * `Dialogue.Sides`, `Dialogue.Speech`
    * `Dialogue.State`, `Dialogue.Act`, `Dialogue.Step`
    * `Dialogue.Heard`, `Dialogue.heard_of_run`
    * `Dialogue.Exchanged`, `Dialogue.Owed`
    * `Dialogue.owedTo_of_run`
    * `Dialogue.Streaming`, `Dialogue.streaming_of_run`
    * `Dialogue.Streaming.items`
-/

namespace Dialogue

/- Two sides, each of them the other of the other. -/
class Sides (R : Type) where
  other : R → R
  other_other : ∀ r, other (other r) = r
  other_ne : ∀ r, other r ≠ r
  eq_other : ∀ {r r'}, r' ≠ r → r' = other r

export Sides (other other_other other_ne eq_other)

attribute [simp] Sides.other_other Sides.other_ne

@[simp] theorem ne_other
    {R : Type}
    [Sides R]
    (r : R) :
    r ≠ other r :=
  (other_ne r).symm

/-
  `ι` names requests, `κ` streams, `ω` is what is said about
  a stream at its start, `δ` is an item and `M` a message.
-/
inductive Speech (ι M κ ω δ : Type)
| request (id : ι) (body : M)
| reply (id : ι) (answer : M)
| opening (key : κ) (kind : ω)
| item (key : κ) (content : δ)
| plain (body : M)

namespace Speech

variable {ι M κ ω δ : Type}

def asRequest : Speech ι M κ ω δ → Option (ι × M)
| .request id body => some (id, body)
| _ => none

def asReply : Speech ι M κ ω δ → Option (ι × M)
| .reply id answer => some (id, answer)
| _ => none

def asOpening : Speech ι M κ ω δ → Option (κ × ω)
| .opening key kind => some (key, kind)
| _ => none

def asItem : Speech ι M κ ω δ → Option (κ × δ)
| .item key content => some (key, content)
| _ => none

end Speech

/-
  The promises `π` of open requests and the objects `ν` of
  known streams, on both sides, and what is on its way to it.
-/
structure State (R ι π M κ ω δ ν : Type) where
  pending : R → ι → Option π
  streams : R → κ → Option ν
  inbox : R → List (Speech ι M κ ω δ)

/- The promise and the object are those that were found. -/
inductive Act (R ι π M κ ω δ ν : Type)
| idle
| ask (r : R) (id : ι) (promise : π) (body : M)
| tell (r : R) (body : M)
| start (r : R) (key : κ) (kind : ω) (ref : ν)
| use (r : R) (key : κ) (content : δ) (ref : ν)
| serve (r : R) (id : ι) (body answer : M)
| settle (r : R) (id : ι) (answer : M) (promise : Option π)
| accept (r : R) (key : κ) (kind : ω) (ref : ν)
| deliver (r : R) (key : κ) (content : δ) (ref : Option ν)
| hear (r : R) (body : M)

section Steps

variable {R ι π M κ ω δ ν : Type}
variable [Sides R] [DecidableEq R]
variable [DecidableEq ι] [DecidableEq κ]

namespace State

variable (s : State R ι π M κ ω δ ν)

/- To the end of the queue of the other side. -/
def say (r : R) (m : Speech ι M κ ω δ) :
    R → List (Speech ι M κ ω δ) :=
  Function.update s.inbox (other r) (s.inbox (other r) ++ [m])

def setPending (r : R) (id : ι) (promise : Option π) :
    R → ι → Option π :=
  Function.update s.pending r
    (Function.update (s.pending r) id promise)

def setStream (r : R) (key : κ) (ref : ν) :
    R → κ → Option ν :=
  Function.update s.streams r
    (Function.update (s.streams r) key (some ref))

/- The queue without its head. -/
def took (r : R) (rest : List (Speech ι M κ ω δ)) :
    State R ι π M κ ω δ ν :=
  { s with inbox := Function.update s.inbox r rest }

end State

inductive Step :
    State R ι π M κ ω δ ν →
      Act R ι π M κ ω δ ν → State R ι π M κ ω δ ν → Prop
| idle (s) : Step s .idle s
| ask (s) (r : R) (id : ι) (promise : π) (body : M) :
    Step s (.ask r id promise body)
      { s with
        pending := s.setPending r id (some promise)
        inbox := s.say r (.request id body) }
| tell (s) (r : R) (body : M) :
    Step s (.tell r body)
      { s with inbox := s.say r (.plain body) }
| start (s) (r : R) (key : κ) (kind : ω) (ref : ν) :
    Step s (.start r key kind ref)
      { s with
        streams := s.setStream r key ref
        inbox := s.say r (.opening key kind) }
| use (s) {r : R} {key : κ} (content : δ) {ref : ν} :
    s.streams r key = some ref →
      Step s (.use r key content ref)
        { s with inbox := s.say r (.item key content) }
| serve (s) {r : R} {id : ι} {body : M} {rest} (answer : M) :
    s.inbox r = .request id body :: rest →
      Step s (.serve r id body answer)
        { s with
          inbox := (s.took r rest).say r (.reply id answer) }
| settle (s) {r : R} {id : ι} {answer : M} {rest} :
    s.inbox r = .reply id answer :: rest →
      Step s (.settle r id answer (s.pending r id))
        { s.took r rest with
          pending := s.setPending r id none }
| accept (s) {r : R} {key : κ} {kind : ω} {rest} (ref : ν) :
    s.inbox r = .opening key kind :: rest →
      Step s (.accept r key kind ref)
        { s.took r rest with
          streams := s.setStream r key ref }
| deliver (s) {r : R} {key : κ} {content : δ} {rest} :
    s.inbox r = .item key content :: rest →
      Step s (.deliver r key content (s.streams r key))
        (s.took r rest)
| hear (s) {r : R} {body : M} {rest} :
    s.inbox r = .plain body :: rest →
      Step s (.hear r body) (s.took r rest)

end Steps

------------------------------------------------------------
-- The Queues
------------------------------------------------------------

namespace Act

variable {R ι π M κ ω δ ν : Type} [DecidableEq R]

/- What a side puts into the queue of the other one. -/
def said (r : R) :
    Act R ι π M κ ω δ ν → Option (Speech ι M κ ω δ)
| .ask r' id _ body =>
    if r' = r then some (.request id body) else none
| .tell r' body => if r' = r then some (.plain body) else none
| .start r' key kind _ =>
    if r' = r then some (.opening key kind) else none
| .use r' key content _ =>
    if r' = r then some (.item key content) else none
| .serve r' id _ answer =>
    if r' = r then some (.reply id answer) else none
| _ => none

/- What it takes out of its own. -/
def heard (r : R) :
    Act R ι π M κ ω δ ν → Option (Speech ι M κ ω δ)
| .serve r' id body _ =>
    if r' = r then some (.request id body) else none
| .settle r' id answer _ =>
    if r' = r then some (.reply id answer) else none
| .accept r' key kind _ =>
    if r' = r then some (.opening key kind) else none
| .deliver r' key content _ =>
    if r' = r then some (.item key content) else none
| .hear r' body => if r' = r then some (.plain body) else none
| _ => none

end Act

section Runs

variable {R ι π M κ ω δ ν : Type}
variable [Sides R] [DecidableEq R]
variable [DecidableEq ι] [DecidableEq κ]
variable {acts : List (Act R ι π M κ ω δ ν)}
variable {act : Act R ι π M κ ω δ ν}
variable {s t : State R ι π M κ ω δ ν}

/- What is said has been heard, or is on its way. -/
def Heard
    (acts : List (Act R ι π M κ ω δ ν))
    (s : State R ι π M κ ω δ ν) : Prop :=
  ∀ r,
    acts.filterMap (Act.said r) =
      acts.filterMap (Act.heard (other r)) ++
        s.inbox (other r)

attribute [local simp] List.filterMap_cons
  Act.said Act.heard State.say State.took State.setPending
  State.setStream

/- A queue gets longer at its end and shorter at its head. -/
theorem Step.inbox
    (hStep : Step s act t)
    (r : R) :
    s.inbox r ++ (act.said (other r)).toList =
      (act.heard r).toList ++ t.inbox r := by
  cases hStep with
  | idle => simp
  | ask r' id promise body =>
      by_cases hSide : r' = r
      · simp [hSide]
      · simp [eq_other hSide]
  | tell r' body =>
      by_cases hSide : r' = r
      · simp [hSide]
      · simp [eq_other hSide]
  | start r' key kind ref =>
      by_cases hSide : r' = r
      · simp [hSide]
      · simp [eq_other hSide]
  | @use r' key content ref hRef =>
      by_cases hSide : r' = r
      · simp [hSide]
      · simp [eq_other hSide]
  | @serve r' id body rest answer hHead =>
      by_cases hSide : r' = r
      · rw [hSide] at hHead ⊢
        simp [hHead]
      · simp [eq_other hSide]
  | @settle r' id answer rest hHead =>
      by_cases hSide : r' = r
      · rw [hSide] at hHead ⊢
        simp [hHead]
      · simp [eq_other hSide]
  | @accept r' key kind rest ref hHead =>
      by_cases hSide : r' = r
      · rw [hSide] at hHead ⊢
        simp [hHead]
      · simp [eq_other hSide]
  | @deliver r' key content rest hHead =>
      by_cases hSide : r' = r
      · rw [hSide] at hHead ⊢
        simp [hHead]
      · simp [eq_other hSide]
  | @hear r' body rest hHead =>
      by_cases hSide : r' = r
      · rw [hSide] at hHead ⊢
        simp [hHead]
      · simp [eq_other hSide]

omit [Sides R] [DecidableEq R] [DecidableEq ι]
  [DecidableEq κ] in
theorem filterMap_snoc
    {β : Type}
    (f : Act R ι π M κ ω δ ν → Option β) :
    (acts ++ [act]).filterMap f =
      acts.filterMap f ++ (f act).toList := by
  rw [List.filterMap_append, List.filterMap_cons]
  cases f act <;> rfl

theorem Heard.step
    (hHeard : Heard acts s)
    (hStep : Step s act t) :
    Heard (acts ++ [act]) t := by
  intro r
  have hInbox := hStep.inbox (other r)
  rw [other_other] at hInbox
  rw [filterMap_snoc, filterMap_snoc, hHeard r,
    List.append_assoc, hInbox, List.append_assoc]

/- Nobody has said anything yet. -/
structure Initial (s : State R ι π M κ ω δ ν) : Prop where
  pending : ∀ r id, s.pending r id = none
  streams : ∀ r key, s.streams r key = none
  inbox : ∀ r, s.inbox r = []

theorem heard_of_run
    (hRun : StateMachine.Run Step s acts t)
    (hInitial : Initial s) :
    Heard acts t := by
  refine
    hRun.invariant_labels (P := Heard)
      (fun _ _ _ _ _ hHeard hStep => hHeard.step hStep) ?_
  intro r
  rw [hInitial.inbox]
  rfl

end Runs

------------------------------------------------------------
-- Requests and Replies
------------------------------------------------------------

namespace Act

variable {R ι π M κ ω δ ν : Type} [DecidableEq R]

def asked (r : R) :
    Act R ι π M κ ω δ ν → Option (ι × π × M)
| .ask r' id promise body =>
    if r' = r then some (id, promise, body) else none
| _ => none

/- A request, with the answer it got. -/
def served (r : R) :
    Act R ι π M κ ω δ ν → Option (ι × M × M)
| .serve r' id body answer =>
    if r' = r then some (id, body, answer) else none
| _ => none

def settled (r : R) :
    Act R ι π M κ ω δ ν → Option (ι × M × Option π)
| .settle r' id answer promise =>
    if r' = r then some (id, answer, promise) else none
| _ => none

variable (r : R) (act : Act R ι π M κ ω δ ν)

theorem said_request :
    (act.said r).bind Speech.asRequest =
      (act.asked r).map (fun a => (a.1, a.2.2)) := by
  cases act <;> simp only [said, asked] <;>
    first | rfl | (split <;> rfl)

theorem heard_request :
    (act.heard r).bind Speech.asRequest =
      (act.served r).map (fun v => (v.1, v.2.1)) := by
  cases act <;> simp only [heard, served] <;>
    first | rfl | (split <;> rfl)

theorem said_reply :
    (act.said r).bind Speech.asReply =
      (act.served r).map (fun v => (v.1, v.2.2)) := by
  cases act <;> simp only [said, served] <;>
    first | rfl | (split <;> rfl)

theorem heard_reply :
    (act.heard r).bind Speech.asReply =
      (act.settled r).map (fun t => (t.1, t.2.1)) := by
  cases act <;> simp only [heard, settled] <;>
    first | rfl | (split <;> rfl)

end Act

/- Two ways of reading a list agree if they do on each act. -/
theorem map_filterMap_of
    {α β γ η : Type}
    {f : α → Option β}
    {p : β → Option γ}
    {g : α → Option η}
    {q : η → γ}
    (hSame : ∀ a, (f a).bind p = (g a).map q)
    (xs : List α) :
    (xs.filterMap g).map q = (xs.filterMap f).filterMap p := by
  rw [List.map_filterMap, List.filterMap_filterMap]
  simp only [hSame]

section Requests

variable {ι π M : Type}
variable {asks : List (ι × π × M)}
variable {serves : List (ι × M × M)}
variable {settles : List (ι × M × Option π)}
variable {requests replies : List (ι × M)}

/-
  One side has asked `asks`; of these the other has served
  `serves`, whose replies `settles` have come back.  The rest
  of both is on its way.
-/
structure Exchanged
    (asks : List (ι × π × M))
    (serves : List (ι × M × M))
    (settles : List (ι × M × Option π))
    (requests replies : List (ι × M)) : Prop where
  requests :
    asks.map (fun a => (a.1, a.2.2)) =
      serves.map (fun v => (v.1, v.2.1)) ++ requests
  replies :
    serves.map (fun v => (v.1, v.2.2)) =
      settles.map (fun t => (t.1, t.2.1)) ++ replies

namespace Exchanged

theorem serves_le
    (hExchanged :
      Exchanged asks serves settles requests replies) :
    serves.length ≤ asks.length := by
  have hLength := congrArg List.length hExchanged.requests
  simp only [List.length_map, List.length_append] at hLength
  omega

theorem settles_le
    (hExchanged :
      Exchanged asks serves settles requests replies) :
    settles.length ≤ serves.length := by
  have hLength := congrArg List.length hExchanged.replies
  simp only [List.length_map, List.length_append] at hLength
  omega

/- What is served is what was asked, in order. -/
theorem served_at
    (hExchanged :
      Exchanged asks serves settles requests replies)
    {i : Nat}
    {v : ι × M × M}
    (hServed : serves[i]? = some v) :
    ∃ promise, asks[i]? = some (v.1, promise, v.2.1) := by
  have hLess := (List.getElem?_eq_some_iff.mp hServed).1
  have hAsked :
      (asks.map (fun a => (a.1, a.2.2)))[i]? =
        some (v.1, v.2.1) := by
    rw [hExchanged.requests,
      List.getElem?_append_left (by simpa using hLess),
      List.getElem?_map, hServed]
    rfl
  rw [List.getElem?_map, Option.map_eq_some_iff] at hAsked
  rcases hAsked with ⟨⟨id, promise, body⟩, hAsked, hSame⟩
  cases hSame
  exact ⟨promise, hAsked⟩

/- So is what comes back what was served. -/
theorem replied_at
    (hExchanged :
      Exchanged asks serves settles requests replies)
    {i : Nat}
    {id : ι}
    {answer : M}
    (hReplied :
      (settles.map (fun t => (t.1, t.2.1)) ++ replies)[i]? =
        some (id, answer)) :
    ∃ promise body,
      serves[i]? = some (id, body, answer) ∧
        asks[i]? = some (id, promise, body) := by
  rw [← hExchanged.replies, List.getElem?_map,
    Option.map_eq_some_iff] at hReplied
  rcases hReplied with ⟨⟨id', body, answer'⟩, hServed, hSame⟩
  cases hSame
  rcases hExchanged.served_at hServed with
    ⟨promise, hAsked⟩
  exact ⟨promise, body, hServed, hAsked⟩

/- With nothing on its way, every request is replied to. -/
theorem all_settled
    (hExchanged : Exchanged asks serves settles [] []) :
    settles.length = asks.length := by
  have hRequests := congrArg List.length hExchanged.requests
  have hReplies := congrArg List.length hExchanged.replies
  simp only [List.length_map, List.length_append,
    List.length_nil, Nat.add_zero] at hRequests hReplies
  rw [hRequests, hReplies]

end Exchanged

/-
  The oldest requests have found their promises, and those of
  the others are pending.
-/
structure Owed
    (asks : List (ι × π × M))
    (settles : List (ι × M × Option π))
    (pending : ι → Option π) : Prop where
  promises :
    settles.map (fun t => t.2.2) =
      (asks.take settles.length).map (fun a => some a.2.1)
  pending :
    ∀ id promise,
      pending id = some promise ↔
        ∃ body,
          (id, promise, body) ∈ asks.drop settles.length

namespace Owed

variable [DecidableEq ι]
variable {pending : ι → Option π}

/- A request with a new name. -/
theorem ask
    {id : ι}
    (promise : π)
    (body : M)
    (hOwed : Owed asks settles pending)
    (hLength : settles.length ≤ asks.length)
    (hNew : ∀ a ∈ asks, a.1 ≠ id) :
    Owed (asks ++ [(id, promise, body)]) settles
      (Function.update pending id (some promise)) where
  promises := by
    rw [List.take_append_of_le_length hLength]
    exact hOwed.promises
  pending := by
    intro id' promise'
    rw [List.drop_append_of_le_length hLength]
    simp only [List.mem_append, List.mem_singleton,
      Prod.mk.injEq]
    by_cases hSame : id' = id
    · rw [hSame, Function.update_self]
      constructor
      · intro hPromise
        refine ⟨body, Or.inr ⟨rfl, ?_, rfl⟩⟩
        exact (Option.some.inj hPromise).symm
      · rintro ⟨body', hOld | ⟨_, hPromise, _⟩⟩
        · exact (hNew _ (List.mem_of_mem_drop hOld) rfl).elim
        · rw [hPromise]
    · rw [Function.update_of_ne hSame, hOwed.pending]
      simp [hSame]

/- The reply to the oldest of them finds its promise. -/
theorem settle
    {id : ι}
    {promise : π}
    {body : M}
    (hOwed : Owed asks settles pending)
    (hNames : (asks.map Prod.fst).Nodup)
    (hNext :
      asks[settles.length]? = some (id, promise, body))
    (answer : M) :
    Owed asks (settles ++ [(id, answer, pending id)])
      (Function.update pending id none) := by
  rcases List.getElem?_eq_some_iff.mp hNext with
    ⟨hLess, hGet⟩
  have hDrop :
      asks.drop settles.length =
        (id, promise, body) ::
          asks.drop (settles.length + 1) := by
    rw [List.drop_eq_getElem_cons hLess, hGet]
  have hPending : pending id = some promise := by
    rw [hOwed.pending, hDrop]
    exact ⟨body, List.mem_cons_self⟩
  have hRest :
      ((asks.drop settles.length).map Prod.fst).Nodup := by
    rw [List.map_drop]
    exact hNames.sublist (List.drop_sublist _ _)
  rw [hDrop, List.map_cons, List.nodup_cons] at hRest
  constructor
  · rw [List.length_append, List.length_singleton,
      List.take_add_one, hNext, List.map_append,
      List.map_append, hOwed.promises, hPending]
    rfl
  · intro id' promise'
    rw [List.length_append, List.length_singleton]
    by_cases hSame : id' = id
    · rw [hSame, Function.update_self]
      refine iff_of_false (by simp) ?_
      rintro ⟨body', hMem⟩
      exact hRest.1 (List.mem_map.mpr ⟨_, hMem, rfl⟩)
    · rw [Function.update_of_ne hSame, hOwed.pending, hDrop]
      simp [hSame]

omit [DecidableEq ι] in
theorem promise_at
    (hOwed : Owed asks settles pending)
    {i : Nat}
    {t : ι × M × Option π}
    (hSettled : settles[i]? = some t)
    {a : ι × π × M}
    (hAsked : asks[i]? = some a) :
    t.2.2 = some a.2.1 := by
  have hLess := (List.getElem?_eq_some_iff.mp hSettled).1
  have hPromise :=
    congrArg (fun l => l[i]?) hOwed.promises
  simpa only [List.getElem?_map, hSettled, hAsked,
    List.getElem?_take_of_lt hLess, Option.map_some,
    Option.some.injEq] using hPromise

end Owed

end Requests

section Runs

variable {R ι π M κ ω δ ν : Type} [DecidableEq R]
variable {acts : List (Act R ι π M κ ω δ ν)}
variable {act : Act R ι π M κ ω δ ν}
variable {s t : State R ι π M κ ω δ ν}
variable {r : R}

/- No two requests of a side have the same name. -/
def FreshIds
    (r : R)
    (acts : List (Act R ι π M κ ω δ ν)) : Prop :=
  ((acts.filterMap (Act.asked r)).map Prod.fst).Nodup

theorem FreshIds.before
    (hFresh : FreshIds r (acts ++ [act])) :
    FreshIds r acts := by
  unfold FreshIds at hFresh ⊢
  rw [List.filterMap_append, List.map_append] at hFresh
  exact hFresh.sublist (List.sublist_append_left _ _)

/- The name of the last request has not been used before. -/
theorem FreshIds.new
    {id : ι}
    {promise : π}
    {body : M}
    (hFresh :
      FreshIds r (acts ++ [.ask r id promise body])) :
    ∀ a ∈ acts.filterMap (Act.asked r), a.1 ≠ id := by
  unfold FreshIds at hFresh
  rw [List.filterMap_append, List.map_append,
    List.nodup_append] at hFresh
  intro a hMem
  refine hFresh.2.2 _ (List.mem_map_of_mem hMem) _ ?_
  simp [Act.asked]

variable [Sides R] [DecidableEq ι] [DecidableEq κ]

omit [DecidableEq ι] [DecidableEq κ] in
theorem Heard.exchanged
    (hHeard : Heard acts s)
    (r : R) :
    Exchanged (acts.filterMap (Act.asked r))
      (acts.filterMap (Act.served (other r)))
      (acts.filterMap (Act.settled r))
      ((s.inbox (other r)).filterMap Speech.asRequest)
      ((s.inbox r).filterMap Speech.asReply) where
  requests := by
    rw [map_filterMap_of (Act.said_request r),
      map_filterMap_of (Act.heard_request (other r)),
      hHeard r, List.filterMap_append]
  replies := by
    have hBack := hHeard (other r)
    rw [other_other] at hBack
    rw [map_filterMap_of (Act.said_reply (other r)),
      map_filterMap_of (Act.heard_reply r), hBack,
      List.filterMap_append]

/- The requests of one side, all along a run. -/
def OwedTo
    (r : R)
    (acts : List (Act R ι π M κ ω δ ν))
    (s : State R ι π M κ ω δ ν) : Prop :=
  Owed (acts.filterMap (Act.asked r))
    (acts.filterMap (Act.settled r)) (s.pending r)

attribute [local simp] Act.asked Act.settled
  State.took State.setPending List.filterMap_cons

theorem OwedTo.step
    (hOwed : OwedTo r acts s)
    (hHeard : Heard acts s)
    (hStep : Step s act t)
    (hFresh : FreshIds r (acts ++ [act])) :
    OwedTo r (acts ++ [act]) t := by
  have hExchanged := hHeard.exchanged r
  unfold OwedTo at hOwed ⊢
  simp only [List.filterMap_append]
  cases hStep with
  | ask r' id promise body =>
      by_cases hSide : r' = r
      · subst hSide
        have hLength :=
          Nat.le_trans hExchanged.settles_le
            hExchanged.serves_le
        simpa using
          hOwed.ask promise body hLength hFresh.new
      · simpa [hSide, Ne.symm hSide] using hOwed
  | @settle r' id answer rest hHead =>
      by_cases hSide : r' = r
      · subst hSide
        rw [hHead] at hExchanged
        have hReplied :
            ((acts.filterMap (Act.settled r')).map
                  (fun t => (t.1, t.2.1)) ++
                ((id, answer) :: rest.filterMap
                  Speech.asReply))[(acts.filterMap
                    (Act.settled r')).length]? =
              some (id, answer) := by
          simp
        rcases hExchanged.replied_at hReplied with
          ⟨promise, body, _, hAsked⟩
        simpa using
          hOwed.settle hFresh.before hAsked answer
      · simpa [hSide, Ne.symm hSide] using hOwed
  | _ => simpa using hOwed

theorem owedTo_of_run
    (hRun : StateMachine.Run Step s acts t)
    (hInitial : Initial s)
    (hFresh : FreshIds r acts) :
    OwedTo r acts t := by
  refine
    hRun.invariant_labels
      (P := fun acts t => FreshIds r acts → OwedTo r acts t)
      ?_ ?_ hFresh
  · intro acts u act v hBefore hOwed hStep hFresh
    exact
      (hOwed hFresh.before).step
        (heard_of_run hBefore hInitial) hStep hFresh
  · intro _
    exact ⟨rfl, by simp [hInitial.pending]⟩

end Runs

------------------------------------------------------------
-- Streams
------------------------------------------------------------

namespace Act

variable {R ι π M κ ω δ ν : Type} [DecidableEq R]

def opened (r : R) :
    Act R ι π M κ ω δ ν → Option (κ × ω × ν)
| .start r' key kind ref =>
    if r' = r then some (key, kind, ref) else none
| _ => none

def accepted (r : R) :
    Act R ι π M κ ω δ ν → Option (κ × ω × ν)
| .accept r' key kind ref =>
    if r' = r then some (key, kind, ref) else none
| _ => none

/- The stream that becomes known on a side. -/
def registers (r : R) :
    Act R ι π M κ ω δ ν → Option (κ × ν)
| .start r' key _ ref =>
    if r' = r then some (key, ref) else none
| .accept r' key _ ref =>
    if r' = r then some (key, ref) else none
| _ => none

def used (r : R) :
    Act R ι π M κ ω δ ν → Option (κ × δ × ν)
| .use r' key content ref =>
    if r' = r then some (key, content, ref) else none
| _ => none

def delivered (r : R) :
    Act R ι π M κ ω δ ν → Option (κ × δ × Option ν)
| .deliver r' key content ref =>
    if r' = r then some (key, content, ref) else none
| _ => none

variable (r : R) (act : Act R ι π M κ ω δ ν)

theorem registers_of_opened
    {o : κ × ω × ν}
    (hOpened : act.opened r = some o) :
    act.registers r = some (o.1, o.2.2) := by
  cases act with
  | start r' key kind ref =>
      simp only [opened] at hOpened
      split at hOpened
      · next hSide =>
        cases hOpened
        simp [registers, hSide]
      · cases hOpened
  | _ => cases hOpened

theorem registers_of_accepted
    {o : κ × ω × ν}
    (hAccepted : act.accepted r = some o) :
    act.registers r = some (o.1, o.2.2) := by
  cases act with
  | accept r' key kind ref =>
      simp only [accepted] at hAccepted
      split at hAccepted
      · next hSide =>
        cases hAccepted
        simp [registers, hSide]
      · cases hAccepted
  | _ => cases hAccepted

theorem said_opening :
    (act.said r).bind Speech.asOpening =
      (act.opened r).map (fun o => (o.1, o.2.1)) := by
  cases act <;> simp only [said, opened] <;>
    first | rfl | (split <;> rfl)

theorem heard_opening :
    (act.heard r).bind Speech.asOpening =
      (act.accepted r).map (fun o => (o.1, o.2.1)) := by
  cases act <;> simp only [heard, accepted] <;>
    first | rfl | (split <;> rfl)

theorem said_item :
    (act.said r).bind Speech.asItem =
      (act.used r).map (fun u => (u.1, u.2.1)) := by
  cases act <;> simp only [said, used] <;>
    first | rfl | (split <;> rfl)

theorem heard_item :
    (act.heard r).bind Speech.asItem =
      (act.delivered r).map (fun d => (d.1, d.2.1)) := by
  cases act <;> simp only [heard, delivered] <;>
    first | rfl | (split <;> rfl)

end Act

namespace Speech

variable {ι M κ ω δ : Type}

/- The streams that are opened by what is on its way. -/
def opens (inbox : List (Speech ι M κ ω δ)) : List κ :=
  (inbox.filterMap asOpening).map Prod.fst

theorem opens_append
    (inbox more : List (Speech ι M κ ω δ)) :
    opens (inbox ++ more) = opens inbox ++ opens more := by
  unfold opens
  rw [List.filterMap_append, List.map_append]

theorem mem_opens
    {inbox : List (Speech ι M κ ω δ)}
    {key : κ} :
    key ∈ opens inbox ↔ ∃ kind, .opening key kind ∈ inbox := by
  unfold opens
  simp only [List.mem_map, List.mem_filterMap]
  constructor
  · rintro ⟨o, ⟨m, hMem, hOpening⟩, hKey⟩
    cases m <;> cases hOpening
    cases hKey
    exact ⟨_, hMem⟩
  · rintro ⟨kind, hMem⟩
    exact ⟨(key, kind), ⟨_, hMem, rfl⟩, rfl⟩

/- Items come after the openings of their streams. -/
def Covered (known : κ → Prop) :
    List (Speech ι M κ ω δ) → Prop
| [] => True
| .opening key _ :: rest =>
    Covered (fun key' => key' = key ∨ known key') rest
| .item key _ :: rest => known key ∧ Covered known rest
| _ :: rest => Covered known rest

theorem Covered.mono
    {known known' : κ → Prop}
    {inbox : List (Speech ι M κ ω δ)}
    (hCovered : Covered known inbox)
    (hImp : ∀ key, known key → known' key) :
    Covered known' inbox := by
  induction inbox generalizing known known' with
  | nil => trivial
  | cons m rest ih =>
      cases m with
      | opening key kind =>
          refine ih hCovered ?_
          intro key' hKnown
          exact hKnown.imp id (hImp key')
      | item key content =>
          exact ⟨hImp key hCovered.1, ih hCovered.2 hImp⟩
      | _ => exact ih hCovered hImp

/- One more message may use what is opened before it. -/
theorem Covered.snoc
    {known : κ → Prop}
    {inbox : List (Speech ι M κ ω δ)}
    {m : Speech ι M κ ω δ}
    (hCovered : Covered known inbox)
    (hLast :
      ∀ key content, m = .item key content →
        known key ∨ key ∈ opens inbox) :
    Covered known (inbox ++ [m]) := by
  induction inbox generalizing known with
  | nil =>
      cases m with
      | item key content =>
          have hKnown :=
            (hLast key content rfl).resolve_right
              (by simp [opens])
          exact ⟨hKnown, trivial⟩
      | _ => trivial
  | cons m' rest ih =>
      cases m' with
      | opening key kind =>
          refine ih hCovered ?_
          intro key' content hItem
          have hBefore := hLast key' content hItem
          simp only [opens, List.filterMap_cons, asOpening,
            List.map_cons, List.mem_cons] at hBefore
          rcases hBefore with hKnown | hKey | hOpened
          · exact Or.inl (Or.inr hKnown)
          · exact Or.inl (Or.inl hKey)
          · exact Or.inr hOpened
      | item key content =>
          exact ⟨hCovered.1, ih hCovered.2 hLast⟩
      | _ => exact ih hCovered hLast

end Speech

section Runs

variable {R ι π M κ ω δ ν : Type} [DecidableEq R]
variable {acts : List (Act R ι π M κ ω δ ν)}
variable {act : Act R ι π M κ ω δ ν}
variable {s t : State R ι π M κ ω δ ν}
variable {r : R}

/- The names of the streams that a side has opened. -/
def openedKeys
    (r : R)
    (acts : List (Act R ι π M κ ω δ ν)) : List κ :=
  (acts.filterMap (Act.opened r)).map Prod.fst

/- The object that stands for a stream on a side. -/
def Registered
    (r : R)
    (acts : List (Act R ι π M κ ω δ ν))
    (key : κ)
    (ref : ν) : Prop :=
  (key, ref) ∈ acts.filterMap (Act.registers r)

theorem registered_snoc
    {key : κ}
    {ref : ν} :
    Registered r (acts ++ [act]) key ref ↔
      Registered r acts key ref ∨
        act.registers r = some (key, ref) := by
  unfold Registered
  rw [filterMap_snoc, List.mem_append, Option.mem_toList]

theorem Registered.mono
    {key : κ}
    {ref : ν}
    (hRegistered : Registered r acts key ref)
    (act : Act R ι π M κ ω δ ν) :
    Registered r (acts ++ [act]) key ref :=
  registered_snoc.mpr (Or.inl hRegistered)

/- It comes from an opening of either side. -/
theorem Registered.cases
    {key : κ}
    {ref : ν}
    (hRegistered : Registered r acts key ref) :
    key ∈ openedKeys r acts ∨
      key ∈ (acts.filterMap (Act.accepted r)).map
        Prod.fst := by
  unfold Registered at hRegistered
  unfold openedKeys
  rcases List.mem_filterMap.mp hRegistered with
    ⟨act, hMem, hRegisters⟩
  have hMapped
      {o : κ × ω × ν}
      {f : Act R ι π M κ ω δ ν → Option (κ × ω × ν)}
      (hSome : f act = some o) :
      o.1 ∈ (acts.filterMap f).map Prod.fst :=
    List.mem_map_of_mem
      (List.mem_filterMap.mpr ⟨act, hMem, hSome⟩)
  cases act with
  | start r' key' kind ref' =>
      simp only [Act.registers] at hRegisters
      split at hRegisters
      · next hSide =>
        cases hRegisters
        have hOpened :
            (Act.start r' key kind ref :
                Act R ι π M κ ω δ ν).opened r =
              some (key, kind, ref) := by
          simp [Act.opened, hSide]
        exact Or.inl (hMapped hOpened)
      · cases hRegisters
  | accept r' key' kind ref' =>
      simp only [Act.registers] at hRegisters
      split at hRegisters
      · next hSide =>
        cases hRegisters
        have hAccepted :
            (Act.accept r' key kind ref :
                Act R ι π M κ ω δ ν).accepted r =
              some (key, kind, ref) := by
          simp [Act.accepted, hSide]
        exact Or.inr (hMapped hAccepted)
      · cases hRegisters
  | _ => cases hRegisters

/- Whoever opens a stream has an object for it. -/
/- A stream that is opened or accepted is registered. -/
theorem registered_of_mem
    {o : κ × ω × ν}
    (hMem :
      o ∈ acts.filterMap (Act.opened r) ∨
        o ∈ acts.filterMap (Act.accepted r)) :
    Registered r acts o.1 o.2.2 := by
  have hRegisters
      {f : Act R ι π M κ ω δ ν → Option (κ × ω × ν)}
      (hSame :
        ∀ act, f act = some o →
          act.registers r = some (o.1, o.2.2))
      (hFound : o ∈ acts.filterMap f) :
      Registered r acts o.1 o.2.2 := by
    rcases List.mem_filterMap.mp hFound with
      ⟨act, hAct, hSome⟩
    exact List.mem_filterMap.mpr ⟨act, hAct, hSame act hSome⟩
  rcases hMem with hOpened | hAccepted
  · exact
      hRegisters (fun act => act.registers_of_opened r) hOpened
  · exact
      hRegisters (fun act => act.registers_of_accepted r)
        hAccepted

theorem registered_of_opened
    {key : κ}
    (hOpened : key ∈ openedKeys r acts) :
    ∃ ref, Registered r acts key ref := by
  rcases List.mem_map.mp hOpened with ⟨o, hMem, hKey⟩
  exact ⟨o.2.2, hKey ▸ registered_of_mem (Or.inl hMem)⟩

variable [Sides R]

/- No two streams have the same name, whoever opens them. -/
structure FreshKeys
    (acts : List (Act R ι π M κ ω δ ν)) : Prop where
  nodup : ∀ r, (openedKeys r acts).Nodup
  apart :
    ∀ r, ∀ key ∈ openedKeys r acts,
      key ∉ openedKeys (other r) acts

omit [Sides R] in
theorem openedKeys_snoc :
    openedKeys r (acts ++ [act]) =
      openedKeys r acts ++
        ((act.opened r).map Prod.fst).toList := by
  unfold openedKeys
  rw [List.filterMap_append, List.map_append]
  congr 1
  rw [List.filterMap_cons]
  cases act.opened r <;> rfl

theorem FreshKeys.before
    (hFresh : FreshKeys (acts ++ [act])) :
    FreshKeys acts := by
  have hSub : ∀ r, (openedKeys r acts).Sublist
      (openedKeys r (acts ++ [act])) := by
    intro r
    rw [openedKeys_snoc]
    exact List.sublist_append_left _ _
  refine ⟨fun r => (hFresh.nodup r).sublist (hSub r), ?_⟩
  intro r key hKey hOther
  exact
    hFresh.apart r key ((hSub r).subset hKey)
      ((hSub (other r)).subset hOther)

theorem Heard.openings
    (hHeard : Heard acts s)
    (r : R) :
    (acts.filterMap (Act.opened r)).map
        (fun o => (o.1, o.2.1)) =
      (acts.filterMap (Act.accepted (other r))).map
          (fun o => (o.1, o.2.1)) ++
        (s.inbox (other r)).filterMap Speech.asOpening := by
  rw [map_filterMap_of (Act.said_opening r),
    map_filterMap_of (Act.heard_opening (other r)), hHeard r,
    List.filterMap_append]

/- What is accepted is what was opened, in order. -/
theorem Heard.accepted_at
    {i : Nat}
    {o : κ × ω × ν}
    (hHeard : Heard acts s)
    (r : R)
    (hAccepted :
      (acts.filterMap (Act.accepted (other r)))[i]? = some o) :
    ∃ ref,
      (acts.filterMap (Act.opened r))[i]? =
        some (o.1, o.2.1, ref) := by
  have hOpened :
      ((acts.filterMap (Act.opened r)).map
        (fun o => (o.1, o.2.1)))[i]? = some (o.1, o.2.1) := by
    have hLess := (List.getElem?_eq_some_iff.mp hAccepted).1
    rw [hHeard.openings r,
      List.getElem?_append_left (by simpa using hLess),
      List.getElem?_map, hAccepted]
    rfl
  rw [List.getElem?_map, Option.map_eq_some_iff] at hOpened
  rcases hOpened with ⟨⟨key, kind, ref⟩, hOpened, hSame⟩
  cases hSame
  exact ⟨ref, hOpened⟩

theorem Heard.items
    (hHeard : Heard acts s)
    (r : R) :
    (acts.filterMap (Act.used r)).map
        (fun u => (u.1, u.2.1)) =
      (acts.filterMap (Act.delivered (other r))).map
          (fun d => (d.1, d.2.1)) ++
        (s.inbox (other r)).filterMap Speech.asItem := by
  rw [map_filterMap_of (Act.said_item r),
    map_filterMap_of (Act.heard_item (other r)), hHeard r,
    List.filterMap_append]

/- The names a side has opened: accepted, or on their way. -/
theorem Heard.openedKeys
    (hHeard : Heard acts s)
    (r : R) :
    openedKeys r acts =
      (acts.filterMap (Act.accepted (other r))).map Prod.fst ++
        Speech.opens (s.inbox (other r)) := by
  have hKeys :=
    congrArg (List.map Prod.fst) (hHeard.openings r)
  unfold Dialogue.openedKeys Speech.opens
  simpa only [List.map_append, List.map_map,
    Function.comp_def] using hKeys

end Runs

section Streaming

variable {R ι π M κ ω δ ν : Type}
variable [Sides R] [DecidableEq R] [DecidableEq κ]
variable {acts : List (Act R ι π M κ ω δ ν)}
variable {act : Act R ι π M κ ω δ ν}
variable {s t : State R ι π M κ ω δ ν}
variable {r : R}

/- A side has an object for the stream. -/
def Known
    (s : State R ι π M κ ω δ ν)
    (r : R)
    (key : κ) : Prop :=
  ∃ ref, s.streams r key = some ref

/-
  A stream that one side knows is known to the other, or its
  opening is on the way there, ahead of all of its items.
-/
structure Streaming
    (acts : List (Act R ι π M κ ω δ ν))
    (s : State R ι π M κ ω δ ν) : Prop where
  known :
    ∀ r key ref,
      s.streams r key = some ref ↔ Registered r acts key ref
  shared :
    ∀ r key,
      Known s r key →
        Known s (other r) key ∨
          key ∈ Speech.opens (s.inbox (other r))
  covered : ∀ r, Speech.Covered (Known s r) (s.inbox r)
  used :
    ∀ r, ∀ u ∈ acts.filterMap (Act.used r),
      Registered r acts u.1 u.2.2
  delivered :
    ∀ r, ∀ d ∈ acts.filterMap (Act.delivered r),
      ∃ ref, d.2.2 = some ref ∧ Registered r acts d.1 ref

variable [DecidableEq ι]

theorem Step.streams
    (hStep : Step s act t)
    (r : R) :
    t.streams r =
      match act.registers r with
      | none => s.streams r
      | some (key, ref) =>
          Function.update (s.streams r) key (some ref) := by
  cases hStep with
  | start r' key kind ref =>
      by_cases hSide : r' = r
      · simp [hSide, Act.registers, State.setStream]
      · simp [hSide, Ne.symm hSide, Act.registers,
          State.setStream]
  | @accept r' key kind rest ref hHead =>
      by_cases hSide : r' = r
      · simp [hSide, Act.registers, State.setStream]
      · simp [hSide, Ne.symm hSide, Act.registers,
          State.setStream]
  | _ => rfl

/- A stream that becomes known was not known before. -/
theorem Step.registers_new
    {key : κ}
    {ref : ν}
    (hStep : Step s act t)
    (hHeard : Heard acts s)
    (hFresh : FreshKeys (acts ++ [act]))
    (hRegisters : act.registers r = some (key, ref))
    (ref' : ν) :
    ¬ Registered r acts key ref' := by
  intro hRegistered
  have hAccepted
      (hMem :
        key ∈ (acts.filterMap (Act.accepted r)).map
          Prod.fst) :
      key ∈ openedKeys (other r) acts := by
    rw [hHeard.openedKeys (other r), other_other]
    exact List.mem_append_left _ hMem
  cases hStep with
  | start r' key' kind ref' =>
      simp only [Act.registers] at hRegisters
      split at hRegisters
      · next hSide =>
        cases hRegisters
        cases hSide
        have hNodup := hFresh.nodup r
        have hApart := hFresh.apart r key
        simp only [openedKeys_snoc, Act.opened, if_true,
          Option.map_some, Option.toList_some,
          List.nodup_append, List.mem_append,
          List.mem_singleton] at hNodup hApart
        rcases hRegistered.cases with hOpened | hMem
        · exact hNodup.2.2 key hOpened key rfl rfl
        · exact
            hApart (Or.inr trivial) (Or.inl (hAccepted hMem))
      · cases hRegisters
  | @accept r' key' kind rest ref' hHead =>
      simp only [Act.registers] at hRegisters
      split at hRegisters
      · next hSide =>
        cases hRegisters
        cases hSide
        have hBefore := hFresh.before
        have hNodup := hBefore.nodup (other r)
        have hSplit := hHeard.openedKeys (other r)
        rw [other_other, hHead] at hSplit
        rw [hSplit] at hNodup
        have hHeadKey :
            key ∈ Speech.opens
              (.opening key kind :: rest :
                List (Speech ι M κ ω δ)) := by
          simp [Speech.opens, Speech.asOpening]
        rcases hRegistered.cases with hOpened | hMem
        · refine hBefore.apart r key hOpened ?_
          rw [hSplit]
          exact List.mem_append_right _ hHeadKey
        · exact
            (List.nodup_append.mp hNodup).2.2 key hMem key
              hHeadKey rfl
      · cases hRegisters
  | _ => cases hRegisters

/- Objects are never exchanged. -/
theorem Streaming.streams_mono
    {key : κ}
    {ref : ν}
    (hStreaming : Streaming acts s)
    (hStep : Step s act t)
    (hHeard : Heard acts s)
    (hFresh : FreshKeys (acts ++ [act]))
    (hFound : s.streams r key = some ref) :
    t.streams r key = some ref := by
  rw [hStep.streams r]
  cases hRegisters : act.registers r with
  | none => exact hFound
  | some registered =>
      have hNew :=
        hStep.registers_new hHeard hFresh hRegisters ref
      have hOther : key ≠ registered.1 := by
        intro hSame
        rw [← hSame] at hNew
        exact hNew ((hStreaming.known r key ref).mp hFound)
      simp only [Function.update_of_ne hOther, hFound]

theorem Streaming.known_step
    (hStreaming : Streaming acts s)
    (hStep : Step s act t)
    (hHeard : Heard acts s)
    (hFresh : FreshKeys (acts ++ [act]))
    (r : R)
    (key : κ)
    (ref : ν) :
    t.streams r key = some ref ↔
      Registered r (acts ++ [act]) key ref := by
  rw [registered_snoc, ← hStreaming.known, hStep.streams r]
  cases hRegisters : act.registers r with
  | none => simp
  | some registered =>
      rcases registered with ⟨key', ref'⟩
      simp only [Option.some.injEq, Prod.mk.injEq]
      by_cases hSame : key = key'
      · subst hSame
        have hNew :=
          hStep.registers_new hHeard hFresh hRegisters ref
        rw [← hStreaming.known] at hNew
        simp [hNew]
      · simp [Function.update_of_ne hSame, Ne.symm hSame]

theorem Streaming.knows
    {key : κ}
    (hStreaming : Streaming acts s)
    (hStep : Step s act t)
    (hHeard : Heard acts s)
    (hFresh : FreshKeys (acts ++ [act]))
    (hKnown : Known s r key) :
    Known t r key := by
  rcases hKnown with ⟨ref, hFound⟩
  exact
    ⟨ref, hStreaming.streams_mono hStep hHeard hFresh hFound⟩

/- Only on a stream that it knows does a side put items. -/
theorem Step.known_of_item
    {key : κ}
    {content : δ}
    (hStep : Step s act t)
    (hSaid : act.said r = some (.item key content)) :
    Known s r key := by
  cases hStep with
  | @use r' key' content' ref hRef =>
      simp only [Act.said] at hSaid
      split at hSaid
      · next hSide =>
        cases hSaid
        rw [hSide] at hRef
        exact ⟨ref, hRef⟩
      · cases hSaid
  | _ =>
      simp only [Act.said] at hSaid
      first
      | cases hSaid
      | (split at hSaid <;> cases hSaid)

theorem Step.known_of_opening
    {key : κ}
    {kind : ω}
    (hStep : Step s act t)
    (hHeard : act.heard r = some (.opening key kind)) :
    Known t r key := by
  cases hStep with
  | @accept r' key' kind' rest ref hHead =>
      simp only [Act.heard] at hHeard
      split at hHeard
      · next hSide =>
        cases hHeard
        refine ⟨ref, ?_⟩
        simp [State.setStream, hSide]
      · cases hHeard
  | _ =>
      simp only [Act.heard] at hHeard
      first
      | cases hHeard
      | (split at hHeard <;> cases hHeard)

omit [DecidableEq κ] [DecidableEq ι] in
/- No act puts into the queue that it takes from. -/
theorem Act.heard_of_said
    {m : Speech ι M κ ω δ}
    (hSaid : act.said (other r) = some m) :
    act.heard r = none := by
  cases act with
  | serve r' id body answer =>
      simp only [said] at hSaid
      split at hSaid
      · next hSide => simp [heard, hSide]
      · cases hSaid
  | settle => cases hSaid
  | accept => cases hSaid
  | deliver => cases hSaid
  | hear => cases hSaid
  | _ => rfl

theorem Streaming.shared_step
    (hStreaming : Streaming acts s)
    (hStep : Step s act t)
    (hHeard : Heard acts s)
    (hFresh : FreshKeys (acts ++ [act]))
    {key : κ}
    (hKnown : Known t r key) :
    Known t (other r) key ∨
      key ∈ Speech.opens (t.inbox (other r)) := by
  have hInbox := hStep.inbox (other r)
  rw [other_other] at hInbox
  have hOld
      (hBefore : Known s r key) :
      Known t (other r) key ∨
        key ∈ Speech.opens (t.inbox (other r)) := by
    rcases hStreaming.shared r key hBefore with
      hOther | hOpens
    · exact
        Or.inl (hStreaming.knows hStep hHeard hFresh hOther)
    · have hMem :
          key ∈ Speech.opens
            ((act.heard (other r)).toList ++
              t.inbox (other r)) := by
        rw [← hInbox, Speech.opens_append]
        exact List.mem_append_left _ hOpens
      rw [Speech.opens_append, List.mem_append] at hMem
      rcases hMem with hTaken | hLeft
      · rcases Speech.mem_opens.mp hTaken with
          ⟨kind, hOpening⟩
        exact
          Or.inl
            (hStep.known_of_opening
              (Option.mem_toList.mp hOpening))
      · exact Or.inr hLeft
  rcases hKnown with ⟨ref, hFound⟩
  rw [hStreaming.known_step hStep hHeard hFresh,
    registered_snoc, ← hStreaming.known] at hFound
  rcases hFound with hBefore | hRegisters
  · exact hOld ⟨ref, hBefore⟩
  · cases act with
    | start r' key' kind ref' =>
        simp only [Act.registers] at hRegisters
        split at hRegisters
        · next hSide =>
          cases hRegisters
          have hMem :
              key ∈ Speech.opens
                (s.inbox (other r) ++
                  ((Act.start r' key kind ref :
                    Act R ι π M κ ω δ ν).said r).toList) := by
            rw [Speech.opens_append]
            simp [Act.said, hSide, Speech.opens,
              Speech.asOpening]
          rw [hInbox] at hMem
          exact Or.inr (by simpa [Act.heard] using hMem)
        · cases hRegisters
    | accept r' key' kind ref' =>
        simp only [Act.registers] at hRegisters
        split at hRegisters
        · next hSide =>
          cases hRegisters
          have hHead := hStep.inbox r
          simp only [Act.said, Act.heard, hSide, if_true,
            Option.toList_none, Option.toList_some,
            List.append_nil, List.singleton_append] at hHead
          have hOpened :
              key ∈ openedKeys (other r) acts := by
            rw [hHeard.openedKeys (other r), other_other,
              hHead]
            exact
              List.mem_append_right _
                (Speech.mem_opens.mpr
                  ⟨kind, List.mem_cons_self⟩)
          rcases registered_of_opened hOpened with
            ⟨ref', hRegistered⟩
          have hKnown : Known s (other r) key :=
            ⟨ref', (hStreaming.known _ _ _).mpr hRegistered⟩
          exact
            Or.inl
              (hStreaming.knows hStep hHeard hFresh hKnown)
        · cases hRegisters
    | _ => cases hRegisters

theorem Streaming.covered_step
    (hStreaming : Streaming acts s)
    (hStep : Step s act t)
    (hHeard : Heard acts s)
    (hFresh : FreshKeys (acts ++ [act]))
    (r : R) :
    Speech.Covered (Known t r) (t.inbox r) := by
  have hInbox := hStep.inbox r
  have hCovered := hStreaming.covered r
  have hKnows :
      ∀ key, Known s r key → Known t r key :=
    fun _ hKnown =>
      hStreaming.knows hStep hHeard hFresh hKnown
  cases hSaid : act.said (other r) with
  | some m =>
      rw [Act.heard_of_said hSaid, hSaid] at hInbox
      simp only [Option.toList_some, Option.toList_none,
        List.nil_append] at hInbox
      rw [← hInbox]
      refine Speech.Covered.mono (hCovered.snoc ?_) hKnows
      intro key content hItem
      rw [hItem] at hSaid
      have hShared :=
        hStreaming.shared _ key (hStep.known_of_item hSaid)
      rwa [other_other] at hShared
  | none =>
      rw [hSaid, Option.toList_none, List.append_nil]
        at hInbox
      rw [hInbox] at hCovered
      cases hTaken : act.heard r with
      | none =>
          rw [hTaken] at hCovered
          exact hCovered.mono hKnows
      | some m =>
          rw [hTaken] at hCovered
          cases m with
          | opening key kind =>
              refine Speech.Covered.mono hCovered ?_
              rintro key' (hKey | hKnown)
              · rw [hKey]
                exact hStep.known_of_opening hTaken
              · exact hKnows key' hKnown
          | item key content =>
              exact hCovered.2.mono hKnows
          | _ => exact Speech.Covered.mono hCovered hKnows

/- An item that is delivered finds the object of its stream. -/
theorem Streaming.delivered_step
    (hStreaming : Streaming acts s)
    (hStep : Step s act t)
    {d : κ × δ × Option ν}
    (hDelivered : act.delivered r = some d) :
    ∃ ref, d.2.2 = some ref ∧ Registered r acts d.1 ref := by
  cases hStep with
  | @deliver r' key content rest hHead =>
      simp only [Act.delivered] at hDelivered
      split at hDelivered
      · next hSide =>
        cases hDelivered
        have hCovered := hStreaming.covered r'
        rw [hHead] at hCovered
        rcases hCovered.1 with ⟨ref, hFound⟩
        refine ⟨ref, hFound, ?_⟩
        rw [← hSide]
        exact (hStreaming.known r' key ref).mp hFound
      · cases hDelivered
  | _ => cases hDelivered

theorem Streaming.used_step
    (hStreaming : Streaming acts s)
    (hStep : Step s act t)
    {u : κ × δ × ν}
    (hUsed : act.used r = some u) :
    Registered r acts u.1 u.2.2 := by
  cases hStep with
  | @use r' key content ref hRef =>
      simp only [Act.used] at hUsed
      split at hUsed
      · next hSide =>
        cases hUsed
        rw [← hSide]
        exact (hStreaming.known r' key ref).mp hRef
      · cases hUsed
  | _ => cases hUsed

theorem Streaming.step
    (hStreaming : Streaming acts s)
    (hStep : Step s act t)
    (hHeard : Heard acts s)
    (hFresh : FreshKeys (acts ++ [act])) :
    Streaming (acts ++ [act]) t where
  known := hStreaming.known_step hStep hHeard hFresh
  shared := fun _ _ hKnown =>
    hStreaming.shared_step hStep hHeard hFresh hKnown
  covered := hStreaming.covered_step hStep hHeard hFresh
  used := by
    intro r u hMem
    rw [filterMap_snoc, List.mem_append, Option.mem_toList]
      at hMem
    rcases hMem with hOld | hNew
    · exact (hStreaming.used r u hOld).mono act
    · exact (hStreaming.used_step hStep hNew).mono act
  delivered := by
    intro r d hMem
    rw [filterMap_snoc, List.mem_append, Option.mem_toList]
      at hMem
    rcases hMem with hOld | hNew
    · rcases hStreaming.delivered r d hOld with
        ⟨ref, hRef, hRegistered⟩
      exact ⟨ref, hRef, hRegistered.mono act⟩
    · rcases hStreaming.delivered_step hStep hNew with
        ⟨ref, hRef, hRegistered⟩
      exact ⟨ref, hRef, hRegistered.mono act⟩

theorem streaming_of_run
    (hRun : StateMachine.Run Step s acts t)
    (hInitial : Initial s)
    (hFresh : FreshKeys acts) :
    Streaming acts t := by
  refine
    hRun.invariant_labels
      (P := fun acts t => FreshKeys acts → Streaming acts t)
      ?_ ?_ hFresh
  · intro acts u act v hBefore hStreaming hStep hFresh
    exact
      (hStreaming hFresh.before).step hStep
        (heard_of_run hBefore hInitial) hFresh
  · intro _
    have hUnknown : ∀ r key, ¬ Known s r key := by
      rintro r key ⟨ref, hFound⟩
      rw [hInitial.streams] at hFound
      cases hFound
    refine
      { known := ?_
        shared := fun r key hKnown =>
          (hUnknown r key hKnown).elim
        covered := ?_
        used := by simp
        delivered := by simp }
    · intro r key ref
      simp [hInitial.streams, Registered]
    · intro r
      rw [hInitial.inbox]
      trivial

end Streaming

------------------------------------------------------------
-- One Stream
------------------------------------------------------------

section OneStream

variable {R ι π M κ ω δ ν : Type}
variable [Sides R] [DecidableEq R]
variable [DecidableEq κ] [DecidableEq ν]
variable {acts : List (Act R ι π M κ ω δ ν)}
variable {s : State R ι π M κ ω δ ν}
variable {r : R}

/- No object stands for two streams. -/
def RefsApart
    (r : R)
    (acts : List (Act R ι π M κ ω δ ν)) : Prop :=
  ∀ key key' ref,
    Registered r acts key ref →
      Registered r acts key' ref → key' = key

/- What a side has put on the stream of an object. -/
def usedOn
    (r : R)
    (ref : ν)
    (acts : List (Act R ι π M κ ω δ ν)) : List δ :=
  (acts.filterMap (Act.used r)).filterMap
    (fun u => if u.2.2 = ref then some u.2.1 else none)

/- What an object of a side has been given. -/
def deliveredTo
    (r : R)
    (ref : ν)
    (acts : List (Act R ι π M κ ω δ ν)) : List δ :=
  (acts.filterMap (Act.delivered r)).filterMap
    (fun d => if d.2.2 = some ref then some d.2.1 else none)

/- What is on its way on a stream. -/
def itemsOn
    (key : κ)
    (inbox : List (Speech ι M κ ω δ)) : List δ :=
  (inbox.filterMap Speech.asItem).filterMap
    (fun i => if i.1 = key then some i.2 else none)

/- An object is one stream's, so either names the items. -/
theorem filterMap_of_key
    {β : Type}
    {keyOf : β → κ}
    {contentOf : β → δ}
    {p : β → Prop}
    [DecidablePred p]
    {key : κ}
    {xs : List β}
    (hSame : ∀ x ∈ xs, p x ↔ keyOf x = key) :
    xs.filterMap
        (fun x => if p x then some (contentOf x) else none) =
      (xs.map (fun x => (keyOf x, contentOf x))).filterMap
        (fun i => if i.1 = key then some i.2 else none) := by
  rw [List.filterMap_map]
  apply List.filterMap_congr
  intro x hMem
  simp only [hSame x hMem, Function.comp_apply]

omit [DecidableEq κ] [DecidableEq ν] in
theorem Streaming.ref_unique
    {key : κ}
    {ref ref' : ν}
    (hStreaming : Streaming acts s)
    (hRegistered : Registered r acts key ref)
    (hOther : Registered r acts key ref') :
    ref' = ref := by
  rw [← hStreaming.known] at hRegistered hOther
  rw [hRegistered] at hOther
  exact (Option.some.inj hOther).symm

/-
  The object of a stream on one side is given, in order, what
  was put on the stream through the object of the other side,
  and nothing else; the rest is on its way.
-/
theorem Streaming.items
    {key : κ}
    {ref ref' : ν}
    (hStreaming : Streaming acts s)
    (hHeard : Heard acts s)
    (hHere : RefsApart r acts)
    (hThere : RefsApart (other r) acts)
    (hRegistered : Registered r acts key ref)
    (hOther : Registered (other r) acts key ref') :
    usedOn r ref acts =
      deliveredTo (other r) ref' acts ++
        itemsOn key (s.inbox (other r)) := by
  have hUsed :
      ∀ u ∈ acts.filterMap (Act.used r),
        u.2.2 = ref ↔ u.1 = key := by
    intro u hMem
    have hOf := hStreaming.used r u hMem
    constructor
    · intro hRef
      rw [hRef] at hOf
      exact hHere key u.1 ref hRegistered hOf
    · intro hKey
      rw [hKey] at hOf
      exact hStreaming.ref_unique hRegistered hOf
  have hDelivered :
      ∀ d ∈ acts.filterMap (Act.delivered (other r)),
        d.2.2 = some ref' ↔ d.1 = key := by
    intro d hMem
    rcases hStreaming.delivered (other r) d hMem with
      ⟨found, hFound, hOf⟩
    rw [hFound, Option.some.injEq]
    constructor
    · intro hRef
      rw [hRef] at hOf
      exact hThere key d.1 ref' hOther hOf
    · intro hKey
      rw [hKey] at hOf
      exact hStreaming.ref_unique hOther hOf
  unfold usedOn deliveredTo itemsOn
  rw [filterMap_of_key hUsed, filterMap_of_key hDelivered,
    hHeard.items r, List.filterMap_append]

end OneStream

end Dialogue
