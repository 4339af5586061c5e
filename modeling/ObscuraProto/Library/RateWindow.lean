import Mathlib.Algebra.Order.Ring.Int
import Mathlib.Data.List.Induction
import Mathlib.Data.List.TakeWhile

/-
  Rate limits by a sliding window.

  A request is checked first and recorded afterwards; it is
  admitted if fewer than `limit` admitted requests have been
  recorded in the `width` before the check.  No window of that
  width then sees more than `limit` admitted requests, where
  a request counts if the window meets the time from its
  check to its record.

  The limiter itself keeps a list of stamps, from which it
  removes stamps that have become too old to be counted.

  Main declarations:
    * `RateWindow.Entry`, `RateWindow.Gated`
    * `RateWindow.Gated.countP_le`
    * `RateWindow.Tracks`
    * `RateWindow.Tracks.record`, `RateWindow.Tracks.clean`
    * `RateWindow.Tracks.length_recent`
-/

namespace RateWindow

------------------------------------------------------------
-- Admitted Requests
------------------------------------------------------------

/- When an admitted request was checked and recorded. -/
structure Entry where
  checked : Int
  recorded : Int

/- Oldest request first. -/
inductive Gated
    (limit : Nat)
    (width : Int) : List Entry → Prop
| nil : Gated limit width []
| snoc
    {log : List Entry}
    {e : Entry} :
    Gated limit width log →
      log.countP
          (fun d => decide (e.checked - width ≤ d.recorded)) <
          limit →
        Gated limit width (log ++ [e])

/- The request meets the closed window that begins at `a`. -/
def Entry.meets (a width : Int) (e : Entry) : Bool :=
  decide (a ≤ e.recorded) && decide (e.checked ≤ a + width)

/- All of a window was recent when its last request came. -/
theorem Gated.countP_le
    {limit : Nat}
    {width : Int}
    {log : List Entry}
    (hGated : Gated limit width log)
    (a : Int) :
    log.countP (Entry.meets a width) ≤ limit := by
  induction hGated with
  | nil => exact Nat.zero_le limit
  | @snoc log e _ hFew ih =>
      rw [List.countP_append]
      cases hMeets : e.meets a width with
      | false =>
          rw [List.countP_singleton, hMeets]
          exact ih
      | true =>
          have hInside :
              a ≤ e.recorded ∧ e.checked ≤ a + width := by
            simpa [Entry.meets] using hMeets
          have hRecent :
              log.countP (Entry.meets a width) ≤
                log.countP
                  (fun d =>
                    decide
                      (e.checked - width ≤ d.recorded)) := by
            apply List.countP_mono_left
            intro d _ hOther
            have hBoth :
                a ≤ d.recorded ∧ d.checked ≤ a + width := by
              simpa [Entry.meets] using hOther
            apply decide_eq_true
            omega
          rw [List.countP_singleton, hMeets, if_pos rfl]
          omega

------------------------------------------------------------
-- Stamps
------------------------------------------------------------

/-
  Stamps in order that agree with the recorded times on all
  that may still be counted from `now` on.
-/
structure Tracks
    (width now : Int)
    (recorded stamps : List Int) : Prop where
  sorted : stamps.Pairwise (· ≤ ·)
  past : ∀ t ∈ stamps, t ≤ now
  counts :
    ∀ cutoff, now - width ≤ cutoff →
      stamps.countP (cutoff ≤ ·) = recorded.countP (cutoff ≤ ·)

theorem tracks_nil (width now : Int) :
    Tracks width now [] [] where
  sorted := List.Pairwise.nil
  past := by simp
  counts := fun _ _ => rfl

namespace Tracks

variable {width now : Int}
variable {recorded stamps : List Int}

theorem mono
    (hTracks : Tracks width now recorded stamps)
    {later : Int}
    (hLater : now ≤ later) :
    Tracks width later recorded stamps where
  sorted := hTracks.sorted
  past := fun t hMem => (hTracks.past t hMem).trans hLater
  counts := by
    intro cutoff hCutoff
    apply hTracks.counts
    omega

theorem record
    (hTracks : Tracks width now recorded stamps) :
    Tracks width now (recorded ++ [now])
      (stamps ++ [now]) where
  sorted := by
    rw [List.pairwise_append]
    refine
      ⟨hTracks.sorted, List.pairwise_singleton _ _, ?_⟩
    intro t hMem t' hLast
    rw [List.mem_singleton.mp hLast]
    exact hTracks.past t hMem
  past := by
    intro t hMem
    rcases List.mem_append.mp hMem with hOld | hLast
    · exact hTracks.past t hOld
    · exact le_of_eq (List.mem_singleton.mp hLast)
  counts := by
    intro cutoff hCutoff
    rw [List.countP_append, List.countP_append,
      hTracks.counts cutoff hCutoff]

/- What is dropped was too old to be counted. -/
theorem countP_dropWhile
    {l : List Int}
    {horizon cutoff : Int}
    (hCutoff : horizon ≤ cutoff) :
    (l.dropWhile (· < horizon)).countP (cutoff ≤ ·) =
      l.countP (cutoff ≤ ·) := by
  induction l with
  | nil => rfl
  | cons t l ih =>
      by_cases hOld : t < horizon
      · have hNot : ¬ cutoff ≤ t := by
          omega
        rw [List.dropWhile_cons_of_pos (by simpa using hOld),
          ih, List.countP_cons_of_neg (by simpa using hNot)]
      · rw [List.dropWhile_cons_of_neg (by simpa using hOld)]

theorem clean
    (hTracks : Tracks width now recorded stamps) :
    Tracks width now recorded
      (stamps.dropWhile (· < now - width)) where
  sorted :=
    hTracks.sorted.sublist (List.dropWhile_sublist _)
  past := fun t hMem =>
    hTracks.past t
      ((List.dropWhile_sublist _).subset hMem)
  counts := by
    intro cutoff hCutoff
    rw [countP_dropWhile hCutoff]
    exact hTracks.counts cutoff hCutoff

/- In a sorted list the recent stamps stand at the end. -/
theorem length_takeWhile_reverse
    {l : List Int}
    (hSorted : l.Pairwise (· ≤ ·))
    (cutoff : Int) :
    (l.reverse.takeWhile (cutoff ≤ ·)).length =
      l.countP (cutoff ≤ ·) := by
  induction l using List.reverseRecOn with
  | nil => rfl
  | append_singleton l t ih =>
      rw [List.pairwise_append] at hSorted
      rcases hSorted with ⟨hBefore, _, hLast⟩
      rw [List.reverse_append, List.countP_append]
      by_cases hRecent : cutoff ≤ t
      · simp only [List.reverse_cons, List.reverse_nil,
          List.nil_append, List.singleton_append]
        rw [List.takeWhile_cons_of_pos (by simpa using hRecent),
          List.length_cons, ih hBefore,
          List.countP_singleton, if_pos (by simpa using hRecent)]
      · have hNone : l.countP (cutoff ≤ ·) = 0 := by
          rw [List.countP_eq_zero]
          intro t' hMem
          have hOlder :=
            hLast t' hMem t (List.mem_singleton_self t)
          simp only [decide_eq_true_eq]
          omega
        simp only [List.reverse_cons, List.reverse_nil,
          List.nil_append, List.singleton_append]
        rw [List.takeWhile_cons_of_neg (by simpa using hRecent),
          hNone, List.countP_singleton,
          if_neg (by simpa using hRecent)]
        rfl

/- The scan of the limiter counts the recent records. -/
theorem length_recent
    (hTracks : Tracks width now recorded stamps) :
    (stamps.reverse.takeWhile (now - width ≤ ·)).length =
      recorded.countP (now - width ≤ ·) := by
  rw [length_takeWhile_reverse hTracks.sorted]
  exact hTracks.counts _ (le_refl _)

end Tracks

end RateWindow
