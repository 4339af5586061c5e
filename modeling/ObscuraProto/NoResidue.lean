import ObscuraProto.Library.Milestones
import ObscuraProto.WsServer.IdentityRecords
import ObscuraProto.WsServer.RequestOwners
import ObscuraProto.WsServer.Requests

/-
  What is left of a connection after its close.

  `on_close` clears the tables of a connection in separate
  critical sections, and calls on the connection go on in
  between.  Nothing is added again once its section is over,
  but a request; that is withdrawn by the call that made it.

  Key definitions include:
    * `NoResidue.Orderly`, `NoResidue.Ended`
    * `NoResidue.goals`, `NoResidue.Inv`
    * `NoResidue.Released`

  Key theorems include:
    * `NoResidue.onClose_reaches`
    * `NoResidue.inv_of_run`
    * `NoResidue.no_residue`
-/

namespace ObscuraProto

namespace NoResidue

open Effectful Threads Owners Milestones WsServer

------------------------------------------------------------
-- What the Transport and the Callers Do
------------------------------------------------------------

/- The close of the connection. -/
def Closes (hdl : Hdl) (event : IoEvent) : Prop :=
  ∃ input, event.val = .closed input hdl

/- The close has begun. -/
def Ended
    (hdl : Hdl)
    (labels : List (Label ServerCall IoEvent)) : Prop :=
  ∃ event, .event event ∈ labels ∧ Closes hdl event

/-
  No stream is started on the connection, the server is not
  stopped, and the close callback returns normally.
-/
def Permits
    (hdl : Hdl) : Label ServerCall IoEvent → Prop
| .call .stop => False
| .call (.method method) => ¬ method.streamsOn hdl
| .event event =>
    ∀ input, event.val = .closed input hdl →
      input.callbackAnswer = .ok ()
| _ => True

/- After the close no event is about the connection. -/
structure Orderly
    (hdl : Hdl)
    (labels : List (Label ServerCall IoEvent)) : Prop where
  permitted : ∀ l ∈ labels, Permits hdl l
  last :
    labels.Pairwise (fun l l' =>
      ∀ event event', l = .event event → Closes hdl event →
        l' = .event event' → ¬ event'.val.isOn hdl)

variable {hdl : Hdl}
variable {labels : List (Label ServerCall IoEvent)}

theorem Orderly.before
    {l : Label ServerCall IoEvent}
    (hOrderly : Orderly hdl (labels ++ [l])) :
    Orderly hdl labels :=
  ⟨fun l' hMem =>
      hOrderly.permitted l' (List.mem_append_left _ hMem),
    (List.pairwise_append.mp hOrderly.last).1⟩

/- The next event of an ended connection is about another. -/
theorem Orderly.elsewhere
    {event : IoEvent}
    (hOrderly : Orderly hdl (labels ++ [.event event]))
    (hEnded : Ended hdl labels) :
    ¬ event.val.isOn hdl := by
  rcases hEnded with ⟨close, hMem, hCloses⟩
  exact
    (List.pairwise_append.mp hOrderly.last).2.2 _ hMem _
      (List.mem_singleton_self _) close event rfl hCloses rfl

theorem ended_snoc_iff
    {l : Label ServerCall IoEvent} :
    Ended hdl (labels ++ [l]) ↔
      Ended hdl labels ∨
        ∃ event, l = .event event ∧ Closes hdl event := by
  constructor
  · rintro ⟨event, hMem, hCloses⟩
    rcases List.mem_append.mp hMem with hOld | hNew
    · exact Or.inl ⟨event, hOld, hCloses⟩
    · exact
        Or.inr
          ⟨event, (List.mem_singleton.mp hNew).symm, hCloses⟩
  · rintro (⟨event, hMem, hCloses⟩ | ⟨event, hLabel, hCloses⟩)
    · exact ⟨event, List.mem_append_left _ hMem, hCloses⟩
    · exact ⟨event, by simp [hLabel], hCloses⟩

------------------------------------------------------------
-- What the Close Reaches
------------------------------------------------------------

/- No identity leads to the connection or from it. -/
structure Unlinked (hdl : Hdl) (w : WsServer) : Prop where
  identity : w.identities.hdlToIdentity[hdl]? = none
  entries :
    ∀ pk : PublicKey,
      w.identities.identityToHdl[pk]? ≠ some hdl

/- What points to the connection is its own identity. -/
def Own (hdl : Hdl) (w : WsServer) : Prop :=
  ∀ pk : PublicKey,
    w.identities.identityToHdl[pk]? = some hdl →
      w.identities.hdlToIdentity[hdl]? = some pk

abbrev ServerGoal :=
  Goal Exception ServerEffect WsServer
    (RequestLifecycle.History WsServer ServerEffect) ServerCall
    IoEvent

/- A goal that is kept as it was reached. -/
def lasting (P : WsServer → Prop) : ServerGoal where
  reached := P
  kept p := P p.shared

/- Requests that are made later have owners. -/
def requestless (hdl : Hdl) : ServerGoal where
  reached w :=
    (∀ requestId, ¬ (requestsOf hdl).has w requestId) ∧
      ¬ (requestsOf hdl).lingers w
  kept p := Owned (requestsOf hdl) (Requesting hdl) p

/- The sections of `on_close`, in their order. -/
def goals (hdl : Hdl) : List ServerGoal :=
  [ lasting (Unstored hdl),
    lasting (fun w =>
      w.streams.perConnectionStreams[hdl]? = none),
    lasting (Unlinked hdl),
    requestless hdl,
    lasting (fun w => w.handshakeOpenTime[hdl]? = none) ]

theorem closeSessions_unstored (hdl : Hdl) (w : WsServer) :
    Unstored hdl
      (closeSession false hdl (closeSession true hdl w)) := by
  intro isAuth
  rw [closeSession_table, closeSession_table]
  cases isAuth with
  | true => exact Std.ExtTreeMap.getElem?_erase_self
  | false => exact Std.ExtTreeMap.getElem?_erase_self

theorem unregister_unlinked
    {w : WsServer}
    (hOwn : Own hdl w) :
    Unlinked hdl
      { w with identities := w.identities.unregister hdl } := by
  unfold Own at hOwn
  cases hIdentity : w.identities.hdlToIdentity[hdl]? with
  | none =>
      rw [hIdentity] at hOwn
      have hSame :
          w.identities.unregister hdl = w.identities := by
        simp only [IdentityMap.unregister, hIdentity]
      rw [hSame]
      exact ⟨hIdentity, fun pk hEntry => by cases hOwn pk hEntry⟩
  | some own =>
      rw [hIdentity] at hOwn
      simp only [IdentityMap.unregister, hIdentity]
      refine ⟨Std.ExtTreeMap.getElem?_erase_self, ?_⟩
      intro pk hEntry
      rcases OrderedMap.of_getElem?_erase hEntry with
        ⟨hOther, hOld⟩
      exact hOther (Option.some.inj (hOwn pk hOld)).symm

theorem closeConnection_clears (hdl : Hdl) (w : WsServer) :
    (requestless hdl).reached
      { w with
        requests := (w.requests.closeConnection hdl).2 } := by
  have hPending :
      (w.requests.pendingRequests.erase hdl)[hdl]? = none :=
    Std.ExtTreeMap.getElem?_erase_self
  have hDeadline :
      (w.requests.requestDeadlines.erase hdl)[hdl]? = none :=
    Std.ExtTreeMap.getElem?_erase_self
  refine ⟨fun requestId hHas => hHas ⟨?_, ?_⟩, ?_⟩
  · simp only [RequestTable.pendingAt, NestedMap.lookupAt,
      RequestTable.closeConnection, hPending]
  · simp only [RequestTable.deadlineAt, NestedMap.lookupAt,
      RequestTable.closeConnection, hDeadline]
  · exact fun hLingers => hLingers ⟨hPending, hDeadline⟩

theorem onClose_reaches
    {input : IoInput}
    (hAnswer : input.callbackAnswer = .ok ())
    (hdl : Hdl) :
    Reaches (Own hdl) (goals hdl) (onClose input hdl) := by
  refine .after .get (fun w => ?_)
  refine .after ?_ (fun _ => ?_)
  · unfold invokeHandler
    split
    · exact .pure ()
    · refine .bind (.atomic (fun _ _ hError => nomatch hError)) ?_
      intro _
      rw [hAnswer]
      exact .pure ()
  refine
    .modify_bind (fun w _ => closeSessions_unstored hdl w)
      (fun _ => ?_)
  refine
    .modify_bind
      (fun w _ => Std.ExtTreeMap.getElem?_erase_self)
      (fun _ => ?_)
  refine
    .modify_bind (fun w hOwn => unregister_unlinked hOwn)
      (fun _ => ?_)
  refine
    .atomic_bind (fun _ => ⟨(), rfl⟩)
      (fun w _ => closeConnection_clears hdl w) (fun _ => ?_)
  exact .atomic (fun w _ => Std.ExtTreeMap.getElem?_erase_self)

------------------------------------------------------------
-- Steps That Add Nothing
------------------------------------------------------------

/- What is gone of the connection stays gone. -/
structure Forgets (hdl : Hdl) (w w' : WsServer) : Prop where
  unstored : Unstored hdl w → Unstored hdl w'
  unlinked : Unlinked hdl w → Unlinked hdl w'
  own : Own hdl w → Own hdl w'
  unfilled : Unfilled hdl w w'

variable {w w' : WsServer}
variable {effects : List ServerEffect}

theorem Forgets.refl (hdl : Hdl) (w : WsServer) :
    Forgets hdl w w :=
  ⟨fun hNow => hNow, fun hNow => hNow, fun hNow => hNow,
    fun hNow => hNow, fun hNow => hNow⟩

theorem forgets_of_aside
    (hAside : Aside hdl w effects w') :
    Forgets hdl w w' where
  unstored := hAside.linked.stored.mpr
  unlinked := by
    rintro ⟨hIdentity, hEntries⟩
    exact
      ⟨hAside.linked.identity.trans hIdentity,
        fun pk hEntry =>
          hEntries pk (hAside.linked.entries pk hEntry)⟩
  own := by
    intro hOwn pk hEntry
    rw [hAside.linked.identity]
    exact hOwn pk (hAside.linked.entries pk hEntry)
  unfilled := hAside.unfilled

/- The identity goes, and with it what points here. -/
theorem forgets_unregister (hdl : Hdl) (w : WsServer) :
    Forgets hdl w
      { w with identities := w.identities.unregister hdl } where
  unstored := fun hNow => hNow
  unlinked := fun hNow =>
    unregister_unlinked
      (fun pk hEntry => absurd hEntry (hNow.entries pk))
  own := by
    intro hOwn pk hEntry
    exact
      absurd hEntry ((unregister_unlinked hOwn).entries pk)
  unfilled := ⟨fun hNone => hNone, fun hNone => hNone⟩

/- Every section of the close itself. -/
theorem onClose_forgets (input : IoInput) (hdl : Hdl) :
    Ensures (fun w _ w' => Forgets hdl w w')
      (onClose input hdl) := by
  refine .bind (.get (Forgets.refl hdl)) (fun w => ?_)
  refine .bind ?_ (fun _ => ?_)
  · unfold invokeHandler
    split
    · exact .pure ()
    · exact
        .bind (.emit (fun w => Forgets.refl hdl w))
          (fun _ => .ofExcept _)
  refine .bind (.modify (fun w => ?_)) (fun _ => ?_)
  · rcases closeSession_frame false hdl
        (closeSession true hdl w) with
      ⟨_, _, hIdentities, hTimes, hStreams, _⟩
    rcases closeSession_frame true hdl w with
      ⟨_, _, hIdentities', hTimes', hStreams', _⟩
    rw [hIdentities'] at hIdentities
    rw [hTimes'] at hTimes
    rw [hStreams'] at hStreams
    refine
      { unstored := fun _ => closeSessions_unstored hdl w
        unlinked := ?_
        own := ?_
        unfilled := ?_ }
    · rintro ⟨hIdentity, hEntries⟩
      rw [← hIdentities] at hIdentity hEntries
      exact ⟨hIdentity, hEntries⟩
    · intro hOwn
      unfold Own at hOwn ⊢
      rw [hIdentities]
      exact hOwn
    · constructor
      · rw [hStreams]
        exact fun hNone => hNone
      · rw [hTimes]
        exact fun hNone => hNone
  refine .bind (.modify (fun w => ?_)) (fun _ => ?_)
  · exact
      ⟨fun hNow => hNow, fun hNow => ⟨hNow.1, hNow.2⟩,
        fun hNow => hNow,
        ⟨fun _ => Std.ExtTreeMap.getElem?_erase_self,
          fun hNone => hNone⟩⟩
  refine .bind (.modify (forgets_unregister hdl)) (fun _ => ?_)
  refine .bind (.atomic (fun w => ?_)) (fun _ => ?_)
  · exact
      ⟨fun hNow => hNow, fun hNow => ⟨hNow.1, hNow.2⟩,
        fun hNow => hNow,
        ⟨fun hNone => hNone, fun hNone => hNone⟩⟩
  refine .modify (fun w => ?_)
  exact
    ⟨fun hNow => hNow, fun hNow => ⟨hNow.1, hNow.2⟩,
      fun hNow => hNow,
      ⟨fun hNone => hNone,
        fun _ => Std.ExtTreeMap.getElem?_erase_self⟩⟩

------------------------------------------------------------
-- Runs
------------------------------------------------------------

variable (S : Sodium)

/- Before the close begins. -/
structure Attended
    (hdl : Hdl)
    (p : ServerPool) : Prop where
  enrolled : Enrolled hdl p.shared
  elsewhere :
    ∀ thread, p.events = some thread →
      ¬ thread.call.val.isOn hdl →
        Ensures (Aside hdl) thread.code
  guarded :
    ∀ thread, p.events = some thread →
      thread.call.val.isOn hdl →
        ∀ t, Linked hdl p.shared t → Enrolling hdl thread.code t

/- From there on. -/
structure Closing
    (hdl : Hdl)
    (p : ServerPool) : Prop where
  own : Own hdl p.shared
  events :
    ∀ thread, p.events = some thread →
      Ensures (fun w _ w' => Forgets hdl w w') thread.code
  underway : Underway (Own hdl) (Closes hdl) (goals hdl) p

structure Inv
    (hdl : Hdl)
    (labels : List (Label ServerCall IoEvent))
    (p : ServerPool) : Prop where
  calls : ∀ thread ∈ p.calls, Ensures (Aside hdl) thread.code
  careful :
    ∀ thread ∈ p.calls,
      Careful (requestsOf hdl) (Requesting hdl thread.call)
        thread.trace thread.code
  quiet :
    ∀ thread, p.events = some thread →
      Ensures (Owners.Quiet (requestsOf hdl)) thread.code
  attended : ¬ Ended hdl labels → Attended hdl p
  closing : Ended hdl labels → Closing hdl p

variable {S}
variable {p q : ServerPool}
variable {l : Label ServerCall IoEvent}

/- A goal that is just reached begins to be kept. -/
theorem reached_kept :
    ∀ goal ∈ goals hdl, goal.reached q.shared → goal.kept q := by
  intro goal hMem hReached
  simp only [goals, List.mem_cons, List.not_mem_nil,
    or_false] at hMem
  rcases hMem with rfl | rfl | rfl | rfl | rfl
  · exact hReached
  · exact hReached
  · exact hReached
  · exact .of_clear hReached.1 hReached.2
  · exact hReached

/-
  The first goals are kept.  Requests have owners as long as
  the session is gone, and that is the first of the goals.
-/
theorem keeps_goals
    (hForgets : Forgets hdl p.shared q.shared)
    (hCareful :
      ∀ thread ∈ p.calls,
        Careful (requestsOf hdl) (Requesting hdl thread.call)
          thread.trace thread.code)
    (hQuiet :
      ∀ thread, p.events = some thread →
        Ensures (Owners.Quiet (requestsOf hdl)) thread.code)
    (hStep : PoolStep S p l q) :
    ∀ met, met <+: goals hdl →
      (∀ goal ∈ met, goal.kept p) →
        ∀ goal ∈ met, goal.kept q := by
  intro met hPrefix hMet goal hMem
  have hFirst : lasting (Unstored hdl) ∈ met := by
    cases met with
    | nil => cases hMem
    | cons first rest =>
        rw [(List.cons_prefix_cons.mp hPrefix).1]
        exact List.mem_cons_self
  have hUnstored : Unstored hdl q.shared :=
    hForgets.unstored (hMet _ hFirst)
  have hKept := hMet goal hMem
  have hGoal := hPrefix.subset hMem
  simp only [goals, List.mem_cons, List.not_mem_nil,
    or_false] at hGoal
  rcases hGoal with rfl | rfl | rfl | rfl | rfl
  · exact hUnstored
  · exact hForgets.unfilled.streams hKept
  · exact hForgets.unlinked hKept
  · exact
      Owned.step (fun _ _ m hOwn => hOwn.grows m) hCareful
        hQuiet hKept hUnstored hStep
  · exact hForgets.unfilled.openTime hKept

theorem Attended.step
    (hAttended : Attended hdl p)
    (hCalls :
      ∀ thread ∈ p.calls, Ensures (Aside hdl) thread.code)
    (hOpen :
      ∀ event, l = .event event → ¬ Closes hdl event)
    (hStep : PoolStep S p l q) :
    Attended hdl q where
  enrolled := by
    have hNext :=
      Pool.next_step (P := Enrolls hdl)
        (fun thread hThread effects next rest hCode => by
          have hCall := hCalls thread hThread
          rw [hCode] at hCall
          cases hCall with
          | step hAside _ =>
              exact (hAside p.shared).linked.enrolled)
        (fun thread hThread effects next rest hCode => by
          by_cases hOn : thread.call.val.isOn hdl
          · have hKeeps :=
              hAttended.guarded thread hThread hOn p.shared
                (.refl hdl _)
            rw [hCode] at hKeeps
            cases hKeeps with
            | step hNow _ => exact hNow
          · have hAside :=
              hAttended.elsewhere thread hThread hOn
            rw [hCode] at hAside
            cases hAside with
            | step hNow _ =>
                exact (hNow p.shared).linked.enrolled)
        hStep
    rcases hNext with ⟨hShared, _⟩ | ⟨hEnrolls, _⟩
    · rw [hShared]
      exact hAttended.enrolled
    · exact hEnrolls hAttended.enrolled
  elsewhere := by
    refine
      Pool.forall_event_step ?_ ?_ hAttended.elsewhere hStep
    · exact fun event _ hOther => event_aside S event hOther
    · intro thread effects next rest hCode hThread hOther
      have hAside := hThread hOther
      rw [hCode] at hAside
      cases hAside with
      | step _ hRest => exact hRest p.shared
  guarded := by
    refine
      Pool.guarantees_step_of (C := Aside hdl)
        (E := fun event => event.val.isOn hdl)
        (Linked.refl hdl)
        (fun _ _ _ hFirst hSecond => hFirst.trans hSecond)
        (fun _ _ _ hAside => hAside.linked) ?_ hCalls
        hAttended.guarded hStep
    rintro ⟨event, hIo⟩ hLabel hOn t hLinked
    have hEnrolled := hLinked.enrolled hAttended.enrolled
    cases event with
    | opened input target =>
        exact .of_ensures (onOpen_sends S input target).enrolls t
    | message input target frame =>
        cases hOn
        exact onMessage_enrolls input frame hEnrolled
    | closed input target =>
        cases hOn
        exact absurd ⟨input, rfl⟩ (hOpen _ hLabel)
    | timeouts => exact hOn.elim
    | call => cases hIo

theorem Attended.closes
    {event : IoEvent}
    (hAttended : Attended hdl p)
    (hCloses : Closes hdl event)
    (hPermits : Permits hdl (.event event))
    (hStep : PoolStep S p (.event event) q) :
    Closing hdl q := by
  rcases event with ⟨event, hIo⟩
  rcases hCloses with ⟨input, hEvent⟩
  dsimp only at hEvent
  subst hEvent
  have hShared : q.shared = p.shared := by
    rcases hStep with ⟨_, hNext⟩
    rw [hNext]
    rfl
  refine
    { own := ?_
      events := ?_
      underway :=
        Underway.begin ⟨input, rfl⟩
          (onClose_reaches (hPermits input rfl) hdl) hStep }
  · rw [hShared]
    exact hAttended.enrolled.entries
  · rcases hStep with ⟨_, hNext⟩
    rw [hNext]
    intro thread hThread
    cases hThread
    exact onClose_forgets input hdl

theorem Closing.step
    (hClosing : Closing hdl p)
    (hCalls :
      ∀ thread ∈ p.calls, Ensures (Aside hdl) thread.code)
    (hCareful :
      ∀ thread ∈ p.calls,
        Careful (requestsOf hdl) (Requesting hdl thread.call)
          thread.trace thread.code)
    (hQuiet :
      ∀ thread, p.events = some thread →
        Ensures (Owners.Quiet (requestsOf hdl)) thread.code)
    (hElsewhere :
      ∀ event, l = .event event → ¬ event.val.isOn hdl)
    (hStep : PoolStep S p l q) :
    Closing hdl q := by
  have hForgets : Forgets hdl p.shared q.shared := by
    have hNext :=
      Pool.next_step
        (P := fun w _ w' => Forgets hdl w w')
        (fun thread hThread effects next rest hCode => by
          have hCall := hCalls thread hThread
          rw [hCode] at hCall
          cases hCall with
          | step hAside _ =>
              exact forgets_of_aside (hAside p.shared))
        (fun thread hThread effects next rest hCode => by
          have hEvent := hClosing.events thread hThread
          rw [hCode] at hEvent
          cases hEvent with
          | step hNow _ => exact hNow p.shared)
        hStep
    rcases hNext with ⟨hShared, _⟩ | ⟨hNow, _⟩
    · rw [hShared]
      exact .refl hdl _
    · exact hNow
  have hKeeps :=
    keeps_goals hForgets hCareful hQuiet hStep
  refine
    { own := hForgets.own hClosing.own
      events := ?_
      underway :=
        hClosing.underway.step hClosing.own reached_kept hKeeps
          hStep }
  · refine
      Pool.forall_event_step ?_ ?_ hClosing.events hStep
    · intro event hLabel
      exact
        (event_aside S event (hElsewhere event hLabel)).mono
          (fun _ _ _ hAside => forgets_of_aside hAside)
    · intro thread effects next rest hCode hThread
      rw [hCode] at hThread
      cases hThread with
      | step _ hRest => exact hRest p.shared

theorem Inv.step
    (hOrderly : Orderly hdl (labels ++ [l]))
    (hInv : Inv hdl labels p)
    (hStep : PoolStep S p l q) :
    Inv hdl (labels ++ [l]) q where
  calls := by
    refine Pool.forall_calls_step ?_ ?_ hInv.calls hStep
    · intro k hLabel
      have hPermits :=
        hOrderly.permitted l (by simp)
      subst hLabel
      cases k with
      | stop => exact hPermits.elim
      | method method => exact call_aside S method hPermits
    · intro thread effects next rest hCode hThread
      rw [hCode] at hThread
      cases hThread with
      | step _ hRest => exact hRest p.shared
  careful :=
    careful_step (fun k => callCode_careful S k) hInv.careful
      hStep
  quiet :=
    quiet_step (fun event => event_quiet event) hInv.quiet hStep
  attended := by
    intro hOpen
    rw [ended_snoc_iff] at hOpen
    push Not at hOpen
    exact
      (hInv.attended hOpen.1).step hInv.calls hOpen.2 hStep
  closing := by
    intro hEnded
    by_cases hBefore : Ended hdl labels
    · refine
        (hInv.closing hBefore).step hInv.calls hInv.careful
          hInv.quiet ?_ hStep
      intro event hLabel
      subst hLabel
      exact hOrderly.elsewhere hBefore
    · rcases ended_snoc_iff.mp hEnded with
        hNow | ⟨event, hLabel, hCloses⟩
      · exact absurd hNow hBefore
      · have hPermits := hOrderly.permitted l (by simp)
        subst hLabel
        exact
          (hInv.attended hBefore).closes hCloses hPermits hStep

theorem inv_start
    (hdl : Hdl)
    (serverSignKey : KeyPair)
    (config : Config)
    {hasOwner : Bool} :
    Inv hdl [] (pool (.new serverSignKey config hasOwner)) where
  calls := by simp [pool]
  careful := by simp [pool]
  quiet := by simp [pool]
  attended := fun _ =>
    { enrolled :=
        ⟨fun _ => by simp [pool, WsServer.new],
          fun pk hEntry => by simp [pool, WsServer.new] at hEntry⟩
      elsewhere := by simp [pool]
      guarded := by simp [pool] }
  closing := by
    rintro ⟨event, hMem, _⟩
    cases hMem

theorem inv_of_run
    {serverSignKey : KeyPair}
    {config : Config}
    {hasOwner : Bool}
    (hRun :
      StateMachine.Run (PoolStep S)
        (pool (.new serverSignKey config hasOwner)) labels p)
    (hOrderly : Orderly hdl labels) :
    Inv hdl labels p :=
  hRun.invariant_labels
    (P := fun labels p => Orderly hdl labels → Inv hdl labels p)
    (fun _ _ _ _ _ hBefore hStep hOrderly =>
      (hBefore hOrderly.before).step hOrderly hStep)
    (fun _ => inv_start hdl serverSignKey config) hOrderly

------------------------------------------------------------
-- Nothing Is Left
------------------------------------------------------------

/- The handle is in no table, and its promises are completed. -/
structure Released (hdl : Hdl) (p : ServerPool) : Prop where
  sessions : p.shared.sessionTable.sessions[hdl]? = none
  anonSessions : p.shared.sessionTable.anonSessions[hdl]? = none
  streams : p.shared.streams.perConnectionStreams[hdl]? = none
  identity : p.shared.identities.hdlToIdentity[hdl]? = none
  entries :
    ∀ pk : PublicKey,
      p.shared.identities.identityToHdl[pk]? ≠ some hdl
  pending : p.shared.requests.pendingRequests[hdl]? = none
  deadlines : p.shared.requests.requestDeadlines[hdl]? = none
  openTime : p.shared.handshakeOpenTime[hdl]? = none
  completed :
    RequestLifecycle.Obeys.Distinct promiseOf p →
      ∀ m ∈ p.history, ∀ requestId promise,
        m.after.requests.pendingAt hdl requestId =
            some promise →
          ∃ result,
            ⟨promise, result⟩ ∈
              RequestLifecycle.completed requestView p.history

/-
  In every run in which the connection is closed once and no
  event of it follows, nothing of it is left when the close
  and the calls that make requests on it have returned.
-/
theorem no_residue
    {serverSignKey : KeyPair}
    {config : Config}
    {hasOwner : Bool}
    (hRun :
      StateMachine.Run (PoolStep S)
        (pool (.new serverSignKey config hasOwner)) labels p)
    (hOrderly : Orderly hdl labels)
    (hEnded : Ended hdl labels)
    (hReturned :
      ∀ thread, p.events = some thread →
        Closes hdl thread.call → thread.isDone = true)
    (hIdle :
      ∀ thread ∈ p.calls,
        Requesting hdl thread.call thread.trace →
          thread.isDone = true) :
    Released hdl p := by
  have hClosing := (inv_of_run hRun hOrderly).closing hEnded
  have hKept := hClosing.underway.finished hReturned
  have hUnstored : Unstored hdl p.shared :=
    hKept (lasting (Unstored hdl)) (by simp [goals])
  have hUnlinked : Unlinked hdl p.shared :=
    hKept (lasting (Unlinked hdl)) (by simp [goals])
  have hOwned : Owned (requestsOf hdl) (Requesting hdl) p :=
    hKept (requestless hdl) (by simp [goals])
  rcases hOwned.clear hIdle with ⟨hNone, hTidy⟩
  have hGone := not_not.mp hTidy
  refine
    { sessions := hUnstored true
      anonSessions := hUnstored false
      streams := ?_
      identity := hUnlinked.identity
      entries := hUnlinked.entries
      pending := hGone.1
      deadlines := hGone.2
      openTime := ?_
      completed := ?_ }
  · exact
      hKept
        (lasting (fun w =>
          w.streams.perConnectionStreams[hdl]? = none))
        (by simp [goals])
  · exact
      hKept
        (lasting (fun w => w.handshakeOpenTime[hdl]? = none))
        (by simp [goals])
  · intro hDistinct m hMem requestId promise hPending
    rcases (requests_obeyed S).followed
        (pool_fresh serverSignKey config) hRun hDistinct m hMem
        (hdl, requestId) promise hPending with hNow | hDone
    · have hAbsent := (not_not.mp (hNone requestId)).1
      cases hAbsent.symm.trans hNow
    · exact hDone

------------------------------------------------------------
-- Sample Runs
------------------------------------------------------------

instance decidableCloses (hdl : Hdl) :
    (event : IoEvent) → Decidable (Closes hdl event)
| ⟨.closed input hdl', _⟩ =>
    decidable_of_iff (hdl' = hdl)
      ⟨fun hSame => ⟨input, by rw [hSame]⟩,
        fun ⟨_, hEvent⟩ => by cases hEvent; rfl⟩
| ⟨.opened _ _, _⟩ => isFalse (fun ⟨_, hEvent⟩ => nomatch hEvent)
| ⟨.message _ _ _, _⟩ =>
    isFalse (fun ⟨_, hEvent⟩ => nomatch hEvent)
| ⟨.timeouts _, _⟩ => isFalse (fun ⟨_, hEvent⟩ => nomatch hEvent)
| ⟨.call _, hIo⟩ => nomatch hIo

instance decidableIsOn (hdl : Hdl) :
    (event : ServerEvent) → Decidable (event.isOn hdl)
| .opened _ hdl' => inferInstanceAs (Decidable (hdl' = hdl))
| .message _ hdl' _ => inferInstanceAs (Decidable (hdl' = hdl))
| .closed _ hdl' => inferInstanceAs (Decidable (hdl' = hdl))
| .timeouts _ => isFalse id
| .call _ => isFalse id

instance decidablePermits (hdl : Hdl) :
    (l : Label ServerCall IoEvent) → Decidable (Permits hdl l)
| .call .stop => isFalse id
| .call (.method (.startStream _ hdl')) =>
    inferInstanceAs (Decidable (¬ hdl' = hdl))
| .call (.method (.startStreamWith _ hdl' _)) =>
    inferInstanceAs (Decidable (¬ hdl' = hdl))
| .call (.method (.send _ _ _)) => isTrue id
| .call (.method (.sendAnonymous _ _ _)) => isTrue id
| .call (.method (.sendResponse _ _ _ _)) => isTrue id
| .call (.method (.sendToIdentity _ _ _)) => isTrue id
| .call (.method (.asyncRequest _ _ _ _)) => isTrue id
| .call (.method (.asyncRequestToIdentity _ _ _)) => isTrue id
| .call (.method (.streamWrite _ _ _)) => isTrue id
| .call (.method (.streamEnd _ _)) => isTrue id
| .call (.method (.streamCancel _ _)) => isTrue id
| .call (.method (.register _ _)) => isTrue id
| .event ⟨.closed input hdl', _⟩ =>
    decidable_of_iff
      (hdl' = hdl → input.callbackAnswer = .ok ())
      ⟨fun hAnswer input' hEvent => by
          cases hEvent
          exact hAnswer rfl,
        fun hAnswer hSame =>
          hAnswer input (by rw [hSame])⟩
| .event ⟨.opened _ _, _⟩ =>
    isTrue (fun _ hEvent => nomatch hEvent)
| .event ⟨.message _ _ _, _⟩ =>
    isTrue (fun _ hEvent => nomatch hEvent)
| .event ⟨.timeouts _, _⟩ =>
    isTrue (fun _ hEvent => nomatch hEvent)
| .event ⟨.call _, hIo⟩ => nomatch hIo
| .stepCall _ => isTrue trivial
| .stepEvent => isTrue trivial

instance decidableLast (hdl : Hdl) :
    (l l' : Label ServerCall IoEvent) →
      Decidable
        (∀ event event', l = .event event → Closes hdl event →
          l' = .event event' → ¬ event'.val.isOn hdl)
| .event event, .event event' =>
    decidable_of_iff
      (Closes hdl event → ¬ event'.val.isOn hdl)
      ⟨fun hLast _ _ hSame hCloses hSame' => by
          cases hSame
          cases hSame'
          exact hLast hCloses,
        fun hLast hCloses =>
          hLast event event' rfl hCloses rfl⟩
| .call _, _ => isTrue (fun _ _ hSame => nomatch hSame)
| .stepCall _, _ => isTrue (fun _ _ hSame => nomatch hSame)
| .stepEvent, _ => isTrue (fun _ _ hSame => nomatch hSame)
| .event _, .call _ => isTrue (fun _ _ _ _ hSame => nomatch hSame)
| .event _, .stepCall _ =>
    isTrue (fun _ _ _ _ hSame => nomatch hSame)
| .event _, .stepEvent =>
    isTrue (fun _ _ _ _ hSame => nomatch hSame)

open PlainSodium

/- A request is registered after the tables are cleared. -/
def sampleRun : List (Label ServerCall IoEvent) :=
  [.event (IoEvent.hello 1 7)] ++ List.replicate 13 .stepEvent ++
    [ .call
        (.method
          (.asyncRequest ⟨7, 0, .zero⟩ 1
            { opCode := 9, parameters := [] } 0)) ] ++
    List.replicate 2 (.stepCall 0) ++
    [.event ⟨.closed (.smooth (sampleKx 7)) 1, rfl⟩] ++
    List.replicate 6 .stepEvent ++
    List.replicate 3 (.stepCall 0)

def samplePool : ServerPool :=
  sampleRun.foldl (Pool.exec (poolProgram plainSodium))
    (pool .sample)

set_option maxRecDepth 8000 in
theorem sample_run :
    StateMachine.Run (PoolStep plainSodium) (pool .sample)
      sampleRun samplePool :=
  StateMachine.run_of_allowed
    (fun (p : ServerPool) l => p.allowed l = true)
    (Pool.exec (poolProgram plainSodium)) (pool .sample)
    sampleRun (by decide)

theorem sample_orderly : Orderly 1 sampleRun where
  permitted := by decide
  last := by decide

set_option maxRecDepth 8000 in
/- The late request is completed by its own call. -/
theorem no_residue_late_request :
    (∃ m ∈ samplePool.history,
        m.after.requests.pendingAt 1 0 = some 7) ∧
      Released 1 samplePool := by
  have hIdle : samplePool.calls.all Thread.isDone = true := by
    decide
  have hReturned : samplePool.isIdle = true := by
    decide
  refine
    ⟨by decide, no_residue sample_run sample_orderly ?_ ?_ ?_⟩
  · exact
      ⟨⟨.closed (.smooth (sampleKx 7)) 1, rfl⟩,
        by simp [sampleRun], _, rfl⟩
  · intro thread hThread _
    simpa [Pool.isIdle, hThread] using hReturned
  · intro thread hThread _
    exact List.all_eq_true.mp hIdle thread hThread

end NoResidue

end ObscuraProto
