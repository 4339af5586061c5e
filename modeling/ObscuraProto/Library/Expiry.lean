import Mathlib.Data.List.Basic
import Mathlib.Data.List.Nodup

/-
  Passes that expire what is due.

  Requests wait under keys, and some keys have a deadline.  A
  pass goes through deadline records; for one that is due it
  completes the request that waits under its key, if there is
  one, and removes both.  Passes over records with different
  keys compose, so a pass, or a loop of passes, over all
  records of a state expires exactly what is due.

  Main declarations:
    * `Expiry.View`, `Expiry.dueKeys`, `Expiry.Lists`
    * `Expiry.Swept`
    * `Expiry.Swept.append`, `Expiry.Swept.foldl`
    * `Expiry.Exact`, `Expiry.Swept.exact`
-/

namespace Expiry

variable {K D V C σ ι : Type}

/- What is found in a state under a key. -/
structure View (K D V σ : Type) where
  pending : σ → K → Option V
  deadline : σ → K → Option D

/- The keys of the records that are due, in their order. -/
def dueKeys
    (due : D → Bool)
    (entries : List (K × D)) : List K :=
  (entries.filter (fun e => due e.2)).map Prod.fst

theorem dueKeys_append
    (due : D → Bool)
    (entries others : List (K × D)) :
    dueKeys due (entries ++ others) =
      dueKeys due entries ++ dueKeys due others := by
  rw [dueKeys, List.filter_append, List.map_append]
  rfl

theorem dueKeys_sublist
    (due : D → Bool)
    (entries : List (K × D)) :
    (dueKeys due entries).Sublist
      (entries.map Prod.fst) :=
  List.filter_sublist.map Prod.fst

/- The records are those of the state, each once. -/
structure Lists
    (view : View K D V σ)
    (s : σ)
    (entries : List (K × D)) : Prop where
  mem_iff :
    ∀ k d, (k, d) ∈ entries ↔ view.deadline s k = some d
  distinct : (entries.map Prod.fst).Nodup

theorem Lists.mem_dueKeys_iff
    {view : View K D V σ}
    {s : σ}
    {entries : List (K × D)}
    (hLists : Lists view s entries)
    (due : D → Bool)
    (k : K) :
    k ∈ dueKeys due entries ↔
      (view.deadline s k).any due = true := by
  simp only [dueKeys, List.mem_map, List.mem_filter,
    Option.any_eq_true]
  constructor
  · rintro ⟨⟨k', d⟩, ⟨hMem, hDue⟩, hKey⟩
    cases hKey
    exact ⟨d, (hLists.mem_iff k' d).mp hMem, hDue⟩
  · rintro ⟨d, hDeadline, hDue⟩
    exact
      ⟨(k, d), ⟨(hLists.mem_iff k d).mpr hDeadline, hDue⟩,
        rfl⟩

variable [DecidableEq K]

------------------------------------------------------------
-- Passes
------------------------------------------------------------

/-
  From `before` to `after` the records have been gone
  through; `report` is how a request is completed.
-/
structure Swept
    (view : View K D V σ)
    (due : D → Bool)
    (report : V → C)
    (entries : List (K × D))
    (before after : List C × σ) : Prop where
  completed :
    after.1 =
      before.1 ++
        ((dueKeys due entries).filterMap
          (view.pending before.2)).map report
  pending :
    ∀ k,
      view.pending after.2 k =
        if k ∈ dueKeys due entries then
          none
        else
          view.pending before.2 k
  deadline :
    ∀ k,
      view.deadline after.2 k =
        if k ∈ dueKeys due entries then
          none
        else
          view.deadline before.2 k

namespace Swept

variable {view : View K D V σ}
variable {due : D → Bool}
variable {report : V → C}

/- Nothing is due. -/
theorem refl
    {entries : List (K × D)}
    (hNone : dueKeys due entries = [])
    (acc : List C × σ) :
    Swept view due report entries acc acc where
  completed := by
    rw [hNone]
    exact (List.append_nil _).symm
  pending := by
    intro k
    rw [hNone, if_neg List.not_mem_nil]
  deadline := by
    intro k
    rw [hNone, if_neg List.not_mem_nil]

/- A state in which the same is found. -/
theorem congr
    {entries : List (K × D)}
    {before after after' : List C × σ}
    (hSwept : Swept view due report entries before after)
    (hCompleted : after'.1 = after.1)
    (hPending :
      ∀ k,
        view.pending after'.2 k = view.pending after.2 k)
    (hDeadline :
      ∀ k,
        view.deadline after'.2 k = view.deadline after.2 k) :
    Swept view due report entries before after' where
  completed := hCompleted.trans hSwept.completed
  pending := fun k => (hPending k).trans (hSwept.pending k)
  deadline := fun k =>
    (hDeadline k).trans (hSwept.deadline k)

theorem append
    {entries others : List (K × D)}
    {first second third : List C × σ}
    (hSwept : Swept view due report entries first second)
    (hOthers : Swept view due report others second third)
    (hDistinct :
      ((entries ++ others).map Prod.fst).Nodup) :
    Swept view due report (entries ++ others) first third
    where
  completed := by
    have hSame :
        (dueKeys due others).filterMap
            (view.pending second.2) =
          (dueKeys due others).filterMap
            (view.pending first.2) := by
      apply List.filterMap_congr
      intro k hMem
      rw [List.map_append, List.nodup_append] at hDistinct
      have hOther : k ∉ dueKeys due entries := by
        intro hBoth
        exact
          hDistinct.2.2 k
            ((dueKeys_sublist due entries).subset hBoth) k
            ((dueKeys_sublist due others).subset hMem) rfl
      rw [hSwept.pending, if_neg hOther]
    rw [hOthers.completed, hSwept.completed, hSame,
      dueKeys_append, List.filterMap_append, List.map_append,
      List.append_assoc]
  pending := by
    intro k
    rw [hOthers.pending, hSwept.pending, dueKeys_append]
    simp only [List.mem_append]
    split
    · next hMem => rw [if_pos (.inr hMem)]
    · next hNot => simp only [hNot, or_false]
  deadline := by
    intro k
    rw [hOthers.deadline, hSwept.deadline, dueKeys_append]
    simp only [List.mem_append]
    split
    · next hMem => rw [if_pos (.inr hMem)]
    · next hNot => simp only [hNot, or_false]

/- A loop whose rounds go through some records each. -/
theorem foldl
    {f : List C × σ → ι → List C × σ}
    {entriesOf : ι → List (K × D)}
    {items : List ι}
    (hRound :
      ∀ item ∈ items, ∀ acc,
        Swept view due report (entriesOf item) acc
          (f acc item))
    (hDistinct :
      ((items.flatMap entriesOf).map Prod.fst).Nodup)
    (acc : List C × σ) :
    Swept view due report (items.flatMap entriesOf) acc
      (items.foldl f acc) := by
  induction items generalizing acc with
  | nil => exact refl rfl acc
  | cons item items ih =>
      rw [List.flatMap_cons] at hDistinct ⊢
      rw [List.foldl_cons]
      have hRest :
          ((items.flatMap entriesOf).map Prod.fst).Nodup := by
        rw [List.map_append] at hDistinct
        exact hDistinct.of_append_right
      have hLater :
          ∀ other ∈ items, ∀ acc,
            Swept view due report (entriesOf other) acc
              (f acc other) := by
        intro other hMem
        exact hRound other (List.mem_cons_of_mem _ hMem)
      exact
        (hRound item List.mem_cons_self acc).append
          (ih hLater hRest (f acc item)) hDistinct

end Swept

------------------------------------------------------------
-- Exact Expiry
------------------------------------------------------------

/-
  What is due is gone with the requests that waited for it,
  each of which is completed once; all else is as it was.
-/
structure Exact
    (view : View K D V σ)
    (due : D → Bool)
    (report : V → C)
    (before : σ)
    (done : List C)
    (after : σ) : Prop where
  pending :
    ∀ k,
      view.pending after k =
        if (view.deadline before k).any due then
          none
        else
          view.pending before k
  deadline :
    ∀ k,
      view.deadline after k =
        (view.deadline before k).filter (fun d => !due d)
  completed :
    ∃ keys : List K,
      keys.Nodup ∧
        (∀ k,
          k ∈ keys ↔
            (view.deadline before k).any due = true ∧
              (view.pending before k).isSome = true) ∧
          done =
            (keys.filterMap (view.pending before)).map report

/- A pass over all records is exact. -/
theorem Swept.exact
    {view : View K D V σ}
    {due : D → Bool}
    {report : V → C}
    {s : σ}
    {entries : List (K × D)}
    {after : List C × σ}
    (hSwept : Swept view due report entries ([], s) after)
    (hLists : Lists view s entries) :
    Exact view due report s after.1 after.2 where
  pending := by
    intro k
    rw [hSwept.pending]
    simp only [hLists.mem_dueKeys_iff]
  deadline := by
    intro k
    rw [hSwept.deadline]
    simp only [hLists.mem_dueKeys_iff]
    cases hDeadline : view.deadline s k with
    | none => simp
    | some d =>
        cases hDue : due d <;> simp [Option.filter, hDue]
  completed := by
    refine
      ⟨(dueKeys due entries).filter
        (fun k => (view.pending s k).isSome), ?_, ?_, ?_⟩
    · apply List.Nodup.filter
      exact
        hLists.distinct.sublist (dueKeys_sublist due entries)
    · intro k
      rw [List.mem_filter, hLists.mem_dueKeys_iff]
    · rw [hSwept.completed, List.nil_append]
      congr 1
      induction dueKeys due entries with
      | nil => rfl
      | cons k keys ih =>
          cases hPending : view.pending s k with
          | none => simp [hPending, ih]
          | some v => simp [hPending, ih]

end Expiry
