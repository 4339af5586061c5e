import Mathlib.Data.List.Nodup

/-
  Promises that are completed at most once.

  A table holds pending promises and deadlines by key.  Every
  key and every promise is registered once; a step may settle
  some keys, and may leave deadlines of settled keys behind.
  The records of what was registered and what was completed
  then fit the table, whatever the order of the steps.

  Main declarations:
    * `OneShot.Table`, `OneShot.Request`, `OneShot.Settled`
    * `OneShot.Registers`, `OneShot.Settles`
    * `OneShot.Settles.trans`
    * `OneShot.Consistent`
    * `OneShot.Consistent.register`
    * `OneShot.Consistent.settle`
    * `OneShot.Consistent.promises_nodup`
    * `OneShot.Consistent.deadline_of_pending`
-/

namespace OneShot

variable {K P T R : Type}

------------------------------------------------------------
-- Tables and Their Steps
------------------------------------------------------------

structure Table (K P T : Type) where
  pending : K → Option P
  deadline : K → Option T

/- A promise as it was registered. -/
structure Request (K P T : Type) where
  key : K
  promise : P
  deadline : Option T

/- A promise as it was completed. -/
structure Settled (K P R : Type) where
  key : K
  promise : P
  result : R

/- One promise is added; a deadline is added or kept. -/
structure Registers
    (r : Request K P T)
    (t t' : Table K P T) : Prop where
  pending : t'.pending r.key = some r.promise
  deadline :
    t'.deadline r.key =
      match r.deadline with
      | some d => some d
      | none => t.deadline r.key
  otherPending :
    ∀ k, k ≠ r.key → t'.pending k = t.pending k
  otherDeadline :
    ∀ k, k ≠ r.key → t'.deadline k = t.deadline k

/-
  The settled keys are exactly those that are removed, and
  `why` tells each result; nothing is added.
-/
structure Settles
    (why : K → R → Prop)
    (t : Table K P T)
    (done : List (Settled K P R))
    (t' : Table K P T) : Prop where
  shrinks :
    ∀ k p, t'.pending k = some p → t.pending k = some p
  deadlines :
    ∀ k d, t'.deadline k = some d → t.deadline k = some d
  nodup : (done.map Settled.key).Nodup
  settled :
    ∀ s ∈ done,
      t.pending s.key = some s.promise ∧
        t'.pending s.key = none ∧ why s.key s.result
  removed :
    ∀ k p, t.pending k = some p → t'.pending k = none →
      ∃ s ∈ done, s.key = k

namespace Settles

variable {why : K → R → Prop}

theorem refl (t : Table K P T) : Settles why t [] t where
  shrinks := fun _ _ hPending => hPending
  deadlines := fun _ _ hDeadline => hDeadline
  nodup := List.nodup_nil
  settled := by simp
  removed := by
    intro k p hSome hNone
    rw [hSome] at hNone
    cases hNone

/- One after the other. -/
theorem trans
    {t u v : Table K P T}
    {done done' : List (Settled K P R)}
    (hFirst : Settles why t done u)
    (hSecond : Settles why u done' v) :
    Settles why t (done ++ done') v where
  shrinks := fun k p hPending =>
    hFirst.shrinks k p (hSecond.shrinks k p hPending)
  deadlines := fun k d hDeadline =>
    hFirst.deadlines k d (hSecond.deadlines k d hDeadline)
  nodup := by
    rw [List.map_append, List.nodup_append']
    refine ⟨hFirst.nodup, hSecond.nodup, ?_⟩
    intro k hLeft hRight
    rcases List.mem_map.mp hLeft with ⟨s, hMem, hKey⟩
    rcases List.mem_map.mp hRight with ⟨s', hMem', hKey'⟩
    have hGone := (hFirst.settled s hMem).2.1
    have hStill := (hSecond.settled s' hMem').1
    rw [hKey', ← hKey, hGone] at hStill
    cases hStill
  settled := by
    intro s hMem
    rcases List.mem_append.mp hMem with hLeft | hRight
    · rcases hFirst.settled s hLeft with
        ⟨hPending, hGone, hWhy⟩
      refine ⟨hPending, ?_, hWhy⟩
      cases hLater : v.pending s.key with
      | none => rfl
      | some p =>
          have hBack := hSecond.shrinks _ _ hLater
          rw [hGone] at hBack
          cases hBack
    · rcases hSecond.settled s hRight with
        ⟨hPending, hGone, hWhy⟩
      exact
        ⟨hFirst.shrinks _ _ hPending, hGone, hWhy⟩
  removed := by
    intro k p hSome hNone
    cases hMiddle : u.pending k with
    | none =>
        rcases hFirst.removed k p hSome hMiddle with
          ⟨s, hMem, hKey⟩
        exact ⟨s, List.mem_append_left _ hMem, hKey⟩
    | some p' =>
        rcases hSecond.removed k p' hMiddle hNone with
          ⟨s, hMem, hKey⟩
        exact ⟨s, List.mem_append_right _ hMem, hKey⟩

/- One key is removed, with its promise if it is pending. -/
theorem single
    [DecidableEq K]
    {t t' : Table K P T}
    {key : K}
    {result : R}
    (hWhy : why key result)
    (hPending :
      ∀ k,
        t'.pending k =
          if k = key then
            none
          else
            t.pending k)
    (hDeadlines :
      ∀ k d, t'.deadline k = some d →
        t.deadline k = some d) :
    Settles why t
      (match t.pending key with
      | none => []
      | some p =>
          [{ key := key, promise := p, result := result }])
      t' where
  shrinks := by
    intro k p hSome
    rw [hPending] at hSome
    split at hSome
    · cases hSome
    · exact hSome
  deadlines := hDeadlines
  nodup := by
    cases t.pending key <;> simp
  settled := by
    intro s hMem
    cases hFound : t.pending key with
    | none =>
        rw [hFound] at hMem
        cases hMem
    | some p =>
        rw [hFound] at hMem
        cases List.mem_singleton.mp hMem
        refine ⟨hFound, ?_, hWhy⟩
        rw [hPending, if_pos rfl]
  removed := by
    intro k p hSome hNone
    by_cases hSame : k = key
    · subst hSame
      rw [hSome]
      exact ⟨_, List.mem_singleton_self _, rfl⟩
    · rw [hPending, if_neg hSame, hSome] at hNone
      cases hNone

end Settles

------------------------------------------------------------
-- Records of a Run
------------------------------------------------------------

/- The table fits what was registered and completed. -/
structure Consistent
    (t : Table K P T)
    (requests : List (Request K P T))
    (done : List (Settled K P R)) : Prop where
  keys : (requests.map Request.key).Nodup
  promises : (requests.map Request.promise).Nodup
  pending :
    ∀ k p, t.pending k = some p →
      (∃ r ∈ requests, r.key = k ∧ r.promise = p) ∧
        k ∉ done.map Settled.key
  deadline :
    ∀ k d, t.deadline k = some d →
      ∃ r ∈ requests, r.key = k ∧ r.deadline = some d
  known :
    ∀ s ∈ done,
      ∃ r ∈ requests, r.key = s.key ∧ r.promise = s.promise
  once : (done.map Settled.key).Nodup

namespace Consistent

variable {t t' : Table K P T}
variable {requests : List (Request K P T)}
variable {done done' : List (Settled K P R)}

theorem empty
    (hPending : ∀ k, t.pending k = none)
    (hDeadline : ∀ k, t.deadline k = none) :
    Consistent t [] ([] : List (Settled K P R)) where
  keys := List.nodup_nil
  promises := List.nodup_nil
  pending := by
    intro k p hSome
    rw [hPending] at hSome
    cases hSome
  deadline := by
    intro k d hSome
    rw [hDeadline] at hSome
    cases hSome
  known := by simp
  once := List.nodup_nil

/- A fresh key and a fresh promise. -/
theorem register
    {r : Request K P T}
    (hConsistent : Consistent t requests done)
    (hRegisters : Registers r t t')
    (hKey : r.key ∉ requests.map Request.key)
    (hPromise : r.promise ∉ requests.map Request.promise) :
    Consistent t' (requests ++ [r]) done where
  keys := by
    rw [List.map_append, List.nodup_append']
    refine ⟨hConsistent.keys, List.nodup_singleton _, ?_⟩
    intro k hOld hNew
    rw [List.mem_singleton.mp hNew] at hOld
    exact hKey hOld
  promises := by
    rw [List.map_append, List.nodup_append']
    refine ⟨hConsistent.promises, List.nodup_singleton _, ?_⟩
    intro p hOld hNew
    rw [List.mem_singleton.mp hNew] at hOld
    exact hPromise hOld
  pending := by
    intro k p hSome
    by_cases hSame : k = r.key
    · subst hSame
      rw [hRegisters.pending] at hSome
      cases hSome
      refine ⟨⟨r, by simp, rfl, rfl⟩, ?_⟩
      intro hDone
      rcases List.mem_map.mp hDone with ⟨s, hMem, hSettled⟩
      rcases hConsistent.known s hMem with
        ⟨r', hRequest, hSameKey, _⟩
      apply hKey
      rw [← hSettled, ← hSameKey]
      exact List.mem_map_of_mem hRequest
    · rw [hRegisters.otherPending k hSame] at hSome
      rcases hConsistent.pending k p hSome with
        ⟨⟨r', hMem, hBoth⟩, hOpen⟩
      exact
        ⟨⟨r', List.mem_append_left _ hMem, hBoth⟩, hOpen⟩
  deadline := by
    intro k d hSome
    by_cases hSame : k = r.key
    · subst hSame
      rw [hRegisters.deadline] at hSome
      cases hDeadline : r.deadline with
      | some d' =>
          rw [hDeadline] at hSome
          cases hSome
          exact ⟨r, by simp, rfl, hDeadline⟩
      | none =>
          rw [hDeadline] at hSome
          rcases hConsistent.deadline _ d hSome with
            ⟨r', hMem, hSameKey, _⟩
          apply absurd _ hKey
          rw [← hSameKey]
          exact List.mem_map_of_mem hMem
    · rw [hRegisters.otherDeadline k hSame] at hSome
      rcases hConsistent.deadline k d hSome with
        ⟨r', hMem, hBoth⟩
      exact ⟨r', List.mem_append_left _ hMem, hBoth⟩
  known := by
    intro s hMem
    rcases hConsistent.known s hMem with ⟨r', hOld, hBoth⟩
    exact ⟨r', List.mem_append_left _ hOld, hBoth⟩
  once := hConsistent.once

theorem settle
    {why : K → R → Prop}
    (hConsistent : Consistent t requests done)
    (hSettles : Settles why t done' t') :
    Consistent t' requests (done ++ done') where
  keys := hConsistent.keys
  promises := hConsistent.promises
  pending := by
    intro k p hSome
    rcases hConsistent.pending k p
        (hSettles.shrinks k p hSome) with
      ⟨hRequest, hOpen⟩
    refine ⟨hRequest, ?_⟩
    rw [List.map_append]
    intro hDone
    rcases List.mem_append.mp hDone with hOld | hNew
    · exact hOpen hOld
    · rcases List.mem_map.mp hNew with ⟨s, hMem, hKey⟩
      have hGone := (hSettles.settled s hMem).2.1
      rw [hKey, hSome] at hGone
      cases hGone
  deadline := fun k d hSome =>
    hConsistent.deadline k d (hSettles.deadlines k d hSome)
  known := by
    intro s hMem
    rcases List.mem_append.mp hMem with hOld | hNew
    · exact hConsistent.known s hOld
    · exact
        (hConsistent.pending _ _
          (hSettles.settled s hNew).1).1
  once := by
    rw [List.map_append, List.nodup_append']
    refine ⟨hConsistent.once, hSettles.nodup, ?_⟩
    intro k hOld hNew
    rcases List.mem_map.mp hNew with ⟨s, hMem, hKey⟩
    have hPending := (hSettles.settled s hMem).1
    rw [hKey] at hPending
    exact (hConsistent.pending k _ hPending).2 hOld

/- Equal promises are the same request. -/
theorem request_unique
    {r r' : Request K P T}
    (hConsistent : Consistent t requests done)
    (hMem : r ∈ requests)
    (hMem' : r' ∈ requests)
    (hPromise : r.promise = r'.promise) :
    r = r' :=
  List.inj_on_of_nodup_map hConsistent.promises hMem hMem'
    hPromise

/- No promise is completed twice. -/
theorem promises_nodup
    (hConsistent : Consistent t requests done) :
    (done.map Settled.promise).Nodup := by
  apply List.Nodup.map_on
  · intro s hMem s' hMem' hPromise
    rcases hConsistent.known s hMem with
      ⟨r, hRequest, hKey, hOwn⟩
    rcases hConsistent.known s' hMem' with
      ⟨r', hRequest', hKey', hOwn'⟩
    have hSame : r = r' := by
      apply hConsistent.request_unique hRequest hRequest'
      rw [hOwn, hOwn', hPromise]
    apply List.inj_on_of_nodup_map hConsistent.once hMem hMem'
    rw [← hKey, ← hKey', hSame]
  · exact hConsistent.once.of_map

/- A recorded deadline is the one of the pending promise. -/
theorem deadline_of_pending
    {k : K}
    {p : P}
    {d : T}
    (hConsistent : Consistent t requests done)
    (hPending : t.pending k = some p)
    (hDeadline : t.deadline k = some d) :
    ∃ r ∈ requests,
      r.key = k ∧ r.promise = p ∧ r.deadline = some d := by
  rcases (hConsistent.pending k p hPending).1 with
    ⟨r, hMem, hKey, hPromise⟩
  rcases hConsistent.deadline k d hDeadline with
    ⟨r', hMem', hKey', hDeadline'⟩
  have hSame : r' = r := by
    apply
      List.inj_on_of_nodup_map hConsistent.keys hMem' hMem
    rw [hKey', hKey]
  rw [hSame] at hDeadline'
  exact ⟨r, hMem, hKey, hPromise, hDeadline'⟩

end Consistent

end OneShot
