import ObscuraProto.EndToEnd.Refinement

/-
  Whole runs of the link.

  From an established connection on, whatever both ends do in
  whatever order, the link mirrors a run of the dialogue.  The
  numbers of its requests and streams come from counters, so
  they are new until the counters have come round.

  Key definitions include:
    * `Terms.seenBy`
    * `EndToEnd.Reflects`, `EndToEnd.Within`

  Key theorems include:
    * `EndToEnd.run_mirrored`
    * `EndToEnd.Reflects.freshIds`
    * `EndToEnd.Reflects.freshKeys`
    * `EndToEnd.Reflects.refsApart`
-/

namespace ObscuraProto

open Effectful EndToEnd Dialogue Draws

/- What a user observes of the steps of both ends. -/
def Terms.seenBy
    (terms : Terms)
    (role : Role)
    (deed : Deed) : List Observation :=
  if actor deed = some role then
    terms.seen role deed
  else
    []

namespace EndToEnd

variable {terms : Terms}
variable {role : Role}
variable {deed : Deed}

theorem seenBy_own
    (hOwn : Own role deed) :
    terms.seenBy role deed = terms.seen role deed := by
  unfold Terms.seenBy
  rcases hOwn with hNone | hSome
  · cases deed <;> first | rfl | simp [actor] at hNone
  · rw [if_pos hSome]

theorem actor_other
    (hOwn : Own role deed) :
    actor deed ≠ some role.other := by
  rcases hOwn with hNone | hSome
  · rw [hNone]
    simp
  · rw [hSome]
    intro hSame
    exact FifoLink.other_ne role (Option.some.inj hSame).symm

theorem seenBy_other
    (hOwn : Own role deed) :
    terms.seenBy role.other deed = [] :=
  if_neg (actor_other hOwn)

/- The deed is none of the end. -/
structure Silent (role : Role) (deed : Deed) : Prop where
  asked : deed.asked role = none
  served : deed.served role = none
  settled : deed.settled role = none
  opened : deed.opened role = none
  accepted : deed.accepted role = none
  registers : deed.registers role = none
  used : deed.used role = none
  delivered : deed.delivered role = none

theorem silent_of_actor
    (hActor : actor deed ≠ some role) :
    Silent role deed := by
  cases deed with
  | idle => constructor <;> rfl
  | _ =>
      have hOther : ¬ _ = role :=
        fun hSame => hActor (congrArg some hSame)
      constructor <;> first | rfl | exact if_neg hOther

------------------------------------------------------------
-- Numbers
------------------------------------------------------------

/- The number at a place of a counter. -/
def numberAt (start : UInt32) (i : Nat) : UInt32 :=
  start + UInt32.ofNat i

theorem numberAt_advance
    {start next next' : UInt32}
    {n : Nat}
    (hNext : next = numberAt start n) :
    next' = numberAt start (n + (next' - next).toNat) := by
  unfold numberAt at hNext ⊢
  rw [UInt32.ofNat_add, UInt32.ofNat_toNat, ← UInt32.add_assoc,
    ← hNext, UInt32.add_comm next, UInt32.sub_add_cancel]

theorem advance_one (next : UInt32) :
    (next + 1 - next).toNat = 1 := by
  rw [UInt32.add_comm, UInt32.add_sub_cancel]
  rfl

theorem numberAt_injective
    {start : UInt32}
    {n : Nat}
    (hBound : n ≤ 2 ^ 32) :
    ∀ i < n, ∀ j < n,
      numberAt start i = numberAt start j → i = j := by
  intro i hI j hJ hSame
  have hPlace := (UInt32.add_right_inj start).mp hSame
  have hNat := congrArg UInt32.toNat hPlace
  rw [UInt32.toNat_ofNat', UInt32.toNat_ofNat'] at hNat
  omega

theorem streamNumber_injective
    {start : UInt32}
    {n : Nat}
    (role : Role)
    (hBound : n ≤ 2 ^ 31) :
    ∀ i < n, ∀ j < n,
      role.streamNumber (numberAt start i) =
          role.streamNumber (numberAt start j) →
        i = j := by
  intro i hI j hJ hSame
  have hDouble :
      numberAt start i * 2 = numberAt start j * 2 := by
    cases role with
    | client => exact hSame
    | server => exact (UInt32.add_left_inj 1).mp hSame
  have hNat := congrArg UInt32.toNat hDouble
  simp only [numberAt, UInt32.toNat_mul, UInt32.toNat_add,
    UInt32.toNat_ofNat', UInt32.reduceToNat] at hNat
  omega

/- The numbers of clients are even, those of servers odd. -/
theorem streamNumber_apart (n m : UInt32) (role : Role) :
    role.streamNumber n ≠ role.other.streamNumber m := by
  intro hSame
  have hNat := congrArg UInt32.toNat hSame
  cases role <;>
    simp only [Role.streamNumber, Role.other,
      UInt32.toNat_mul, UInt32.toNat_add,
      UInt32.reduceToNat] at hNat <;>
    omega

------------------------------------------------------------
-- Draws
------------------------------------------------------------

variable {hdl : Hdl}
variable {l l' : Link}
variable {seen : List Observation}
variable {start : UInt32}
variable {n : Nat}

/- How far a counter of an end goes on in one turn. -/
def advance (next next' : UInt32) : Nat :=
  (next' - next).toNat

theorem Done.asked_drawn
    {ids : List UInt32}
    (hDone : Done terms hdl role l l' seen deed)
    (hNext :
      (l.ending hdl role).nextRequestId = numberAt start n)
    (hDrawn : Drawn (numberAt start) n ids) :
    Drawn (numberAt start)
      (n +
        advance (l.ending hdl role).nextRequestId
          (l'.ending hdl role).nextRequestId)
      (ids ++ ((deed.asked role).map Prod.fst).toList) := by
  have hFits := hDone.fits
  cases deed with
  | ask role' id promise body =>
      cases role_of_own hDone.own rfl
      rcases hFits with ⟨hId, hAfter⟩
      rw [hAfter, advance, advance_one, hId, hNext]
      simpa [Act.asked] using hDrawn.draw (Nat.lt_succ_self n)
  | _ =>
      simpa [Act.asked]
        using hDrawn.later (Nat.le_add_right n _)

theorem Done.opened_drawn
    {ids : List UInt32}
    (hDone : Done terms hdl role l l' seen deed)
    (hNext :
      (l.ending hdl role).nextStreamId = numberAt start n)
    (hDrawn :
      Drawn (fun i => role.streamNumber (numberAt start i)) n
        ids) :
    Drawn (fun i => role.streamNumber (numberAt start i))
      (n +
        advance (l.ending hdl role).nextStreamId
          (l'.ending hdl role).nextStreamId)
      (ids ++ ((deed.opened role).map Prod.fst).toList) := by
  have hFits := hDone.fits
  cases deed with
  | start role' key kind ref =>
      cases role_of_own hDone.own rfl
      rcases hFits with ⟨hKey, hAfter, _, _⟩
      rw [hAfter, advance, advance_one, hKey, hNext]
      simpa [Act.opened] using hDrawn.draw (Nat.lt_succ_self n)
  | _ =>
      simpa [Act.opened]
        using hDrawn.later (Nat.le_add_right n _)

theorem Done.registers_drawn
    {refs : List StreamRef}
    (hDone : Done terms hdl role l l' seen deed)
    (hDrawn : Drawn id (l.ending hdl role).objects refs) :
    Drawn id (l'.ending hdl role).objects
      (refs ++ ((deed.registers role).map Prod.snd).toList) := by
  have hFits := hDone.fits
  cases deed with
  | start role' key kind ref =>
      cases role_of_own hDone.own rfl
      rcases hFits with ⟨_, _, hRef, hMore⟩
      rw [hRef]
      simpa [Act.registers] using hDrawn.draw hMore
  | accept role' key kind ref =>
      cases role_of_own hDone.own rfl
      rcases hFits with ⟨hRef, hMore⟩
      rw [hRef]
      simpa [Act.registers] using hDrawn.draw hMore
  | _ =>
      simpa [Act.registers] using hDrawn.later hDone.objects

------------------------------------------------------------
-- Turns and Deeds
------------------------------------------------------------

variable {S : Sodium}
variable {l₀ : Link}
variable {turns : List Link.Turn}
variable {turn : Link.Turn}
variable {deeds : List Deed}

/- The deeds are what is observed of the turns. -/
structure Reflects
    (S : Sodium)
    (terms : Terms)
    (hdl : Hdl)
    (l₀ : Link)
    (turns : List Link.Turn)
    (deeds : List Deed)
    (l : Link) : Prop where
  seen :
    ∀ role,
      Link.trace S hdl role turns =
        deeds.flatMap (terms.seenBy role)
  requestId :
    ∀ role,
      (l.ending hdl role).nextRequestId =
        numberAt (l₀.ending hdl role).nextRequestId
          (Link.requestIds S hdl role turns)
  requests :
    ∀ role,
      Drawn (numberAt (l₀.ending hdl role).nextRequestId)
        (Link.requestIds S hdl role turns)
        ((deeds.filterMap (Act.asked role)).map Prod.fst)
  streamId :
    ∀ role,
      (l.ending hdl role).nextStreamId =
        numberAt (l₀.ending hdl role).nextStreamId
          (Link.streamIds S hdl role turns)
  streams :
    ∀ role,
      Drawn
        (fun i =>
          role.streamNumber
            (numberAt (l₀.ending hdl role).nextStreamId i))
        (Link.streamIds S hdl role turns)
        (openedKeys role deeds)
  objects :
    ∀ role,
      Drawn id (l.ending hdl role).objects
        ((deeds.filterMap (Act.registers role)).map Prod.snd)

theorem requestIds_snoc
    (hBefore : turn.before = l)
    (hAfter : turn.after S hdl = l') :
    Link.requestIds S hdl role (turns ++ [turn]) =
      Link.requestIds S hdl role turns +
        advance (l.ending hdl role).nextRequestId
          (l'.ending hdl role).nextRequestId := by
  rw [Link.requestIds, Link.total_snoc, hBefore, hAfter]
  rfl

theorem streamIds_snoc
    (hBefore : turn.before = l)
    (hAfter : turn.after S hdl = l') :
    Link.streamIds S hdl role (turns ++ [turn]) =
      Link.streamIds S hdl role turns +
        advance (l.ending hdl role).nextStreamId
          (l'.ending hdl role).nextStreamId := by
  rw [Link.streamIds, Link.total_snoc, hBefore, hAfter]
  rfl

theorem advance_self (next : UInt32) :
    advance next next = 0 := by
  simp [advance]

theorem filterMap_snoc_none
    {α β : Type}
    {f : α → Option β}
    {a : α}
    (hNone : f a = none)
    (xs : List α) :
    (xs ++ [a]).filterMap f = xs.filterMap f := by
  rw [List.filterMap_append, List.filterMap_cons_none hNone,
    List.filterMap_nil, List.append_nil]

theorem Reflects.snoc
    (hReflects : Reflects S terms hdl l₀ turns deeds l)
    (hBefore : turn.before = l)
    (hAfter : turn.after S hdl = l')
    (hDone :
      Done terms hdl role l l'
        (l.seen S hdl role turn.action) deed)
    (hSilent : l.seen S hdl role.other turn.action = []) :
    Reflects S terms hdl l₀ (turns ++ [turn])
      (deeds ++ [deed]) l' := by
  have hOther := silent_of_actor (actor_other hDone.own)
  constructor
  · intro role'
    have hTrace :
        Link.trace S hdl role' (turns ++ [turn]) =
          Link.trace S hdl role' turns ++
            l.seen S hdl role' turn.action := by
      simp [Link.trace, hBefore]
    rw [hTrace, hReflects.seen role', List.flatMap_append,
      List.flatMap_singleton]
    by_cases hHere : role' = role
    · rw [hHere, hDone.seen, seenBy_own hDone.own]
    · rw [FifoLink.eq_other hHere, hSilent,
        seenBy_other hDone.own]
  · intro role'
    rw [requestIds_snoc hBefore hAfter]
    exact numberAt_advance (hReflects.requestId role')
  · intro role'
    rw [requestIds_snoc hBefore hAfter]
    by_cases hHere : role' = role
    · subst hHere
      rw [filterMap_snoc, List.map_append, ← Option.toList_map]
      exact
        hDone.asked_drawn (hReflects.requestId role')
          (hReflects.requests role')
    · rw [FifoLink.eq_other hHere, hDone.other, advance_self,
        filterMap_snoc_none hOther.asked]
      exact hReflects.requests role.other
  · intro role'
    rw [streamIds_snoc hBefore hAfter]
    exact numberAt_advance (hReflects.streamId role')
  · intro role'
    rw [streamIds_snoc hBefore hAfter, openedKeys_snoc]
    by_cases hHere : role' = role
    · subst hHere
      exact
        hDone.opened_drawn (hReflects.streamId role')
          (hReflects.streams role')
    · rw [FifoLink.eq_other hHere, hDone.other, advance_self,
        hOther.opened]
      simpa using hReflects.streams role.other
  · intro role'
    by_cases hHere : role' = role
    · subst hHere
      rw [filterMap_snoc, List.map_append, ← Option.toList_map]
      exact hDone.registers_drawn (hReflects.objects role')
    · rw [FifoLink.eq_other hHere, hDone.other,
        filterMap_snoc_none hOther.registers]
      exact hReflects.objects role.other

------------------------------------------------------------
-- New Names
------------------------------------------------------------

theorem Reflects.freshIds
    {l : Link}
    (hReflects : Reflects S terms hdl l₀ turns deeds l)
    (hBound : Link.requestIds S hdl role turns ≤ 2 ^ 32) :
    FreshIds role deeds :=
  (hReflects.requests role).nodup (numberAt_injective hBound)

theorem Reflects.freshKeys
    {l : Link}
    (hReflects : Reflects S terms hdl l₀ turns deeds l)
    (hBound :
      ∀ role, Link.streamIds S hdl role turns ≤ 2 ^ 31) :
    FreshKeys deeds where
  nodup := fun role =>
    (hReflects.streams role).nodup
      (streamNumber_injective role (hBound role))
  apart := fun role _ hKey =>
    (hReflects.streams role).apart
      (hReflects.streams role.other)
      (fun _ _ => streamNumber_apart _ _ role) hKey

theorem Reflects.refs_nodup
    {l : Link}
    (hReflects : Reflects S terms hdl l₀ turns deeds l)
    (role : Role) :
    ((deeds.filterMap (Act.registers role)).map
      Prod.snd).Nodup :=
  (hReflects.objects role).nodup (fun _ _ _ _ hSame => hSame)

theorem Reflects.refsApart
    {l : Link}
    (hReflects : Reflects S terms hdl l₀ turns deeds l)
    (role : Role) :
    RefsApart role deeds := by
  intro key key' ref hRegistered hOther
  have hSame :=
    List.inj_on_of_nodup_map (hReflects.refs_nodup role) hOther
      hRegistered rfl
  exact congrArg Prod.fst hSame

------------------------------------------------------------
-- Runs
------------------------------------------------------------

/- Nothing has been said yet. -/
def quiet : Talk where
  pending := fun _ _ => none
  streams := fun _ _ => none
  inbox := fun _ => []

theorem quiet_initial : Dialogue.Initial quiet :=
  ⟨fun _ _ => rfl, fun _ _ => rfl, fun _ => rfl⟩

variable {isAuth : Bool}
variable {keys : Role → SessionKeys}

theorem established_mirrors
    (hEstablished : l₀.Established hdl isAuth keys) :
    ∃ f,
      Mirrors S keys (l₀.terms isAuth) hdl isAuth 0 f quiet
        l₀ := by
  rcases hEstablished.server with
    ⟨state, hFound, hReady, hSend, hRecv⟩
  have hConnected :
      FifoLink.Connected S keys []
        (FifoLink.start l₀.client.session state.session) := by
    constructor
    · intro role
      have hCrossed := hEstablished.crossed role
      cases role with
      | client =>
          refine
            ⟨hEstablished.clientReady, hReady, hCrossed, ?_,
              by simp [FifoLink.start]⟩
          simp [FifoLink.start, Role.other, hRecv,
            hEstablished.clientCounters.1]
      | server =>
          refine
            ⟨hReady, hEstablished.clientReady, hCrossed, ?_,
              by simp [FifoLink.start]⟩
          simp [FifoLink.start, Role.other, hSend,
            hEstablished.clientCounters.2]
    · intro role
      cases role with
      | client =>
          simp [FifoLink.start, hEstablished.clientCounters.1]
      | server => simp [FifoLink.start, hSend]
  refine
    ⟨FifoLink.start l₀.client.session state.session, ?_⟩
  exact
    { carrying := ⟨[], hConnected, by simp⟩
      ends :=
        ⟨hEstablished.clientUp, rfl, state,
          hEstablished.serverUp hFound, rfl⟩
      packets := hEstablished.queue
      words := fun _ => .nil
      pending := fun role =>
        (funext (hEstablished.pending role)).symm
      streams := fun role =>
        (funext (hEstablished.streams role)).symm }

theorem reflects_nil :
    Reflects S terms hdl l₀ [] [] l₀ where
  seen := fun _ => rfl
  requestId := fun role => by
    simp [Link.requestIds, Link.total, numberAt]
  requests := fun _ => Drawn.nil _ _
  streamId := fun role => by
    simp [Link.streamIds, Link.total, numberAt]
  streams := fun _ => Drawn.nil _ _
  objects := fun _ => Drawn.nil _ _

/- Every run of the link mirrors a run of the dialogue. -/
theorem run_mirrored
    {l : Link}
    (hCorrect : S.AeadCorrect)
    (hEstablished : l₀.Established hdl isAuth keys)
    (hRun :
      StateMachine.Run
        (Link.Step S hdl (l₀.terms isAuth) isAuth) l₀ turns l)
    (hTurns : turns.length < 2 ^ 64) :
    ∃ deeds d f,
      StateMachine.Run Dialogue.Step quiet deeds d ∧
        Mirrors S keys (l₀.terms isAuth) hdl isAuth
            turns.length f d l ∧
          Reflects S (l₀.terms isAuth) hdl l₀ turns deeds
            l := by
  let P (turns : List Link.Turn) (l : Link) : Prop :=
    turns.length < 2 ^ 64 →
      ∃ deeds d f,
        StateMachine.Run Dialogue.Step quiet deeds d ∧
          Mirrors S keys (l₀.terms isAuth) hdl isAuth
              turns.length f d l ∧
            Reflects S (l₀.terms isAuth) hdl l₀ turns deeds l
  have hStart : P [] l₀ := by
    intro _
    rcases established_mirrors hEstablished with ⟨f, hMirrors⟩
    exact ⟨[], quiet, f, .nil quiet, hMirrors, reflects_nil⟩
  refine hRun.invariant_labels (P := P) ?_ hStart hTurns
  intro turns l turn l' _ hBefore hStep hLength
  rw [List.length_append, List.length_singleton] at hLength
  rcases hBefore (Nat.lt_of_succ_lt hLength) with
    ⟨deeds, d, f, hDeeds, hMirrors, hReflects⟩
  rcases turn_mirrored hCorrect hEstablished.distinct hMirrors
      hLength hStep with
    ⟨role, deed, d', f', hDeed, hMirrors', hDone, hSilent⟩
  have hAfter : turn.after S hdl = l' := by
    rw [hStep.after]
    unfold Link.Turn.after
    rw [hStep.before]
  rw [List.length_append, List.length_singleton]
  exact
    ⟨deeds ++ [deed], d', f', hDeeds.snoc hDeed, hMirrors',
      hReflects.snoc hStep.before hAfter hDone hSilent⟩

end EndToEnd

end ObscuraProto
