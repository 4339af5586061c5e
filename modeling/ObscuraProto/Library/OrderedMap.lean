import Mathlib.Data.List.Basic

/-
  Ordered maps, read key by key.

  The lookups of the library are stated with `compare`; the
  rules below state them with equality of keys, for keys
  whose order is lawful.

  Main declarations:
    * `OrderedMap.getElem?_insert_of_ne`
    * `OrderedMap.getElem?_erase_of_ne`
    * `OrderedMap.insertIfNew_of_absent`
    * `OrderedMap.erase_of_absent`
    * `OrderedMap.count`, `OrderedMap.count_congr`
-/

namespace OrderedMap

variable {K V W : Type}
variable [Ord K] [Std.LawfulEqOrd K]

theorem compare_ne
    {k a : K}
    (hOther : a ≠ k) :
    compare k a ≠ .eq := by
  intro hSame
  exact hOther (Std.LawfulEqOrd.eq_of_compare hSame).symm

variable [Std.TransOrd K]

theorem getElem?_insert_of_ne
    {k a : K}
    (hOther : a ≠ k)
    (m : Std.ExtTreeMap K V)
    (v : V) :
    (m.insert k v)[a]? = m[a]? := by
  rw [Std.ExtTreeMap.getElem?_insert,
    if_neg (compare_ne hOther)]

theorem getElem?_insertIfNew_of_ne
    {k a : K}
    (hOther : a ≠ k)
    (m : Std.ExtTreeMap K V)
    (v : V) :
    (m.insertIfNew k v)[a]? = m[a]? := by
  rw [Std.ExtTreeMap.getElem?_insertIfNew,
    if_neg (fun hBoth => compare_ne hOther hBoth.1)]

theorem getElem?_erase_of_ne
    {k a : K}
    (hOther : a ≠ k)
    (m : Std.ExtTreeMap K V) :
    (m.erase k)[a]? = m[a]? := by
  rw [Std.ExtTreeMap.getElem?_erase,
    if_neg (compare_ne hOther)]

theorem getElem?_erase_of_absent
    {a : K}
    {m : Std.ExtTreeMap K V}
    (hAbsent : m[a]? = none)
    (k : K) :
    (m.erase k)[a]? = none := by
  by_cases hSame : a = k
  · subst hSame
    exact Std.ExtTreeMap.getElem?_erase_self
  · exact (getElem?_erase_of_ne hSame m).trans hAbsent

/- What is left after an erasure was there before. -/
theorem of_getElem?_erase
    {k a : K}
    {v : V}
    {m : Std.ExtTreeMap K V}
    (hFound : (m.erase k)[a]? = some v) :
    a ≠ k ∧ m[a]? = some v := by
  by_cases hSame : a = k
  · subst hSame
    rw [Std.ExtTreeMap.getElem?_erase_self] at hFound
    cases hFound
  · rw [getElem?_erase_of_ne hSame] at hFound
    exact ⟨hSame, hFound⟩

/- What is found after an insertion is new or was there. -/
theorem of_getElem?_insert
    {k a : K}
    {v w : V}
    {m : Std.ExtTreeMap K V}
    (hFound : (m.insert k v)[a]? = some w) :
    (a = k ∧ w = v) ∨ (a ≠ k ∧ m[a]? = some w) := by
  by_cases hSame : a = k
  · subst hSame
    rw [Std.ExtTreeMap.getElem?_insert_self] at hFound
    cases hFound
    exact Or.inl ⟨rfl, rfl⟩
  · rw [getElem?_insert_of_ne hSame] at hFound
    exact Or.inr ⟨hSame, hFound⟩

theorem insertIfNew_of_absent
    {k : K}
    {m : Std.ExtTreeMap K V}
    (hAbsent : m[k]? = none)
    (v : V) :
    m.insertIfNew k v = m.insert k v := by
  apply Std.ExtTreeMap.ext_getElem?
  intro a
  have hNotMem : k ∉ m := by
    rw [Std.ExtTreeMap.mem_iff_isSome_getElem?, hAbsent]
    simp
  rw [Std.ExtTreeMap.getElem?_insertIfNew,
    Std.ExtTreeMap.getElem?_insert]
  simp only [hNotMem, not_false_eq_true, and_true]

theorem getElem?_insertIfNew_of_present
    {k a : K}
    {w : V}
    {m : Std.ExtTreeMap K V}
    (hPresent : m[a]? = some w)
    (v : V) :
    (m.insertIfNew k v)[a]? = some w := by
  rw [Std.ExtTreeMap.getElem?_insertIfNew, if_neg, hPresent]
  rintro ⟨hSame, hAbsent⟩
  apply hAbsent
  rw [Std.LawfulEqOrd.eq_of_compare hSame,
    Std.ExtTreeMap.mem_iff_isSome_getElem?, hPresent]
  rfl

/- An entry that was there is not replaced. -/
theorem of_getElem?_insertIfNew
    {k a : K}
    {v w : V}
    {m : Std.ExtTreeMap K V}
    (hFound : (m.insertIfNew k v)[a]? = some w) :
    (a = k ∧ w = v) ∨ m[a]? = some w := by
  cases hBefore : m[k]? with
  | none =>
      rw [insertIfNew_of_absent hBefore] at hFound
      rcases of_getElem?_insert hFound with hNew | ⟨_, hOld⟩
      · exact Or.inl hNew
      · exact Or.inr hOld
  | some _ =>
      have hMem : k ∈ m := by
        rw [Std.ExtTreeMap.mem_iff_isSome_getElem?, hBefore]
        rfl
      rw [Std.ExtTreeMap.getElem?_insertIfNew] at hFound
      simp only [hMem, not_true_eq_false, and_false,
        if_false] at hFound
      exact Or.inr hFound

theorem erase_of_absent
    {k : K}
    {m : Std.ExtTreeMap K V}
    (hAbsent : m[k]? = none) :
    m.erase k = m := by
  apply Std.ExtTreeMap.ext_getElem?
  intro a
  by_cases hSame : a = k
  · subst hSame
    rw [Std.ExtTreeMap.getElem?_erase_self, hAbsent]
  · exact getElem?_erase_of_ne hSame m

------------------------------------------------------------
-- Counting
------------------------------------------------------------

/- How many entries have a value with `p`. -/
def count
    (p : V → Bool)
    (m : Std.ExtTreeMap K V) : Nat :=
  (m.filter (fun _ v => p v)).size

omit [Std.LawfulEqOrd K] in
/- The same number, by listing the entries. -/
theorem count_eq_countP
    (p : V → Bool)
    (m : Std.ExtTreeMap K V) :
    count p m = m.toList.countP (fun entry => p entry.2) := by
  unfold count
  rw [← Std.ExtTreeMap.length_toList,
    Std.ExtTreeMap.toList_filter, List.countP_eq_length_filter]

theorem count_insert_of_absent
    {k : K}
    {m : Std.ExtTreeMap K V}
    (hAbsent : m[k]? = none)
    (p : V → Bool)
    (v : V) :
    count p (m.insert k v) =
      count p m + if p v then 1 else 0 := by
  have hNew : k ∉ m.filter (fun _ v => p v) := by
    rw [Std.ExtTreeMap.mem_iff_isSome_getElem?,
      Std.ExtTreeMap.getElem?_filter', hAbsent]
    simp
  unfold count
  by_cases hHolds : p v = true
  · have hFilter :
        (m.insert k v).filter (fun _ v => p v) =
          (m.filter (fun _ v => p v)).insert k v := by
      apply Std.ExtTreeMap.ext_getElem?
      intro a
      by_cases hSame : a = k
      · subst hSame
        simp [hHolds]
      · simp [getElem?_insert_of_ne hSame]
    rw [hFilter, Std.ExtTreeMap.size_insert,
      if_pos hHolds]
    exact if_neg hNew
  · have hFilter :
        (m.insert k v).filter (fun _ v => p v) =
          m.filter (fun _ v => p v) := by
      apply Std.ExtTreeMap.ext_getElem?
      intro a
      by_cases hSame : a = k
      · subst hSame
        simp [hHolds, hAbsent]
      · simp [getElem?_insert_of_ne hSame]
    rw [hFilter, if_neg hHolds, Nat.add_zero]

theorem count_erase_of_present
    {k : K}
    {v : V}
    {m : Std.ExtTreeMap K V}
    (hPresent : m[k]? = some v)
    (p : V → Bool) :
    count p (m.erase k) + (if p v then 1 else 0) =
      count p m := by
  have hAbsent : (m.erase k)[k]? = none :=
    Std.ExtTreeMap.getElem?_erase_self
  have hBack : (m.erase k).insert k v = m := by
    apply Std.ExtTreeMap.ext_getElem?
    intro a
    by_cases hSame : a = k
    · subst hSame
      rw [Std.ExtTreeMap.getElem?_insert_self, hPresent]
    · rw [getElem?_insert_of_ne hSame,
        getElem?_erase_of_ne hSame]
  rw [← count_insert_of_absent hAbsent p v, hBack]

theorem count_erase_le
    (p : V → Bool)
    (k : K)
    (m : Std.ExtTreeMap K V) :
    count p (m.erase k) ≤ count p m := by
  cases hEntry : m[k]? with
  | none =>
      exact Nat.le_of_eq (by rw [erase_of_absent hEntry])
  | some v =>
      have hCount := count_erase_of_present hEntry p
      omega

theorem count_empty (p : V → Bool) :
    count p (∅ : Std.ExtTreeMap K V) = 0 := by
  have hEmpty :
      (∅ : Std.ExtTreeMap K V).filter (fun _ v => p v) = ∅ := by
    apply Std.ExtTreeMap.ext_getElem?
    intro k
    simp
  unfold count
  rw [hEmpty]
  exact Std.ExtTreeMap.size_empty

omit [Std.LawfulEqOrd K] in
theorem count_true (m : Std.ExtTreeMap K V) :
    count (fun _ => true) m = m.size := by
  unfold count
  rw [Std.ExtTreeMap.size_filter_eq_size_iff]
  intro k hMem
  rfl

omit [Std.LawfulEqOrd K] in
theorem count_le_size
    (p : V → Bool)
    (m : Std.ExtTreeMap K V) :
    count p m ≤ m.size :=
  Std.ExtTreeMap.size_filter_le_size

/- Maps that agree on a projection of their values. -/
theorem count_congr
    {m m' : Std.ExtTreeMap K V}
    (f : V → W)
    (hSame : ∀ k : K, (m'[k]?).map f = (m[k]?).map f)
    (p : W → Bool) :
    count (fun v => p (f v)) m' =
      count (fun v => p (f v)) m := by
  have hMap (n : Std.ExtTreeMap K V) :
      count (fun v => p (f v)) n =
        count p (n.map (fun _ v => f v)) := by
    have hFilter :
        (n.filter (fun _ v => p (f v))).map
            (fun _ v => f v) =
          (n.map (fun _ v => f v)).filter
            (fun _ v => p v) := by
      apply Std.ExtTreeMap.ext_getElem?
      intro a
      rw [Std.ExtTreeMap.getElem?_map,
        Std.ExtTreeMap.getElem?_filter',
        Std.ExtTreeMap.getElem?_filter',
        Std.ExtTreeMap.getElem?_map]
      cases n[a]? with
      | none => rfl
      | some v =>
          by_cases hHolds : p (f v) = true
          · simp [Option.filter, hHolds]
          · simp [Option.filter, hHolds]
    unfold count
    rw [← hFilter, Std.ExtTreeMap.size_map]
  have hProjected :
      m'.map (fun _ v => f v) = m.map (fun _ v => f v) := by
    apply Std.ExtTreeMap.ext_getElem?
    intro a
    rw [Std.ExtTreeMap.getElem?_map,
      Std.ExtTreeMap.getElem?_map]
    exact hSame a
  rw [hMap m', hMap m, hProjected]

end OrderedMap
