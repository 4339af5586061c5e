import ObscuraProto.Library.Registry
import ObscuraProto.Messages

/-
  The life of a stream, for either wrapper.

  A wrapper keeps its streams in a registry.  Messages of the
  peer use, add and drop registered streams; the application
  ends and cancels the streams it holds.

  Key definitions include:
    * `StreamUse`, `StreamCall`
    * `Message.streamAct`
    * `Streams.Terminated`, `Streams.Orderly`

  Key theorems include:
    * `Streams.terminated_of_run`
    * `Streams.terminated_iff_orderly`
-/

namespace ObscuraProto

/- What a message of the peer does on a stream object. -/
inductive StreamUse where
| data
| finish
| cancel
deriving DecidableEq

/- What the application does with a stream it holds. -/
inductive StreamCall where
| finish
| cancel
deriving DecidableEq

abbrev StreamAct (K : Type) := Registry.Act K StreamUse StreamCall

abbrev StreamFact := Registry.Fact StreamUse StreamCall

/- What a message does to the streams of its receiver. -/
def Message.streamAct
    {K : Type}
    (key : UInt32 → K) : Message → StreamAct K
| .streamStart streamId _ => .add (key streamId)
| .streamData streamId _ => .use (key streamId) .data
| .streamEnd streamId => .use (key streamId) .finish
| .streamCancel streamId => .take (key streamId) .cancel
| _ => .skip

namespace Streams

open Registry

variable {σ ι K : Type}

------------------------------------------------------------
-- Termination
------------------------------------------------------------

/- The stream is cancelled by the peer or by this side. -/
def cancels (ref : Nat) (fact : StreamFact) : Bool :=
  decide
    (fact = .used ref .cancel ∨ fact = .marked ref .cancel)

/- No event may follow the other on one stream. -/
def Follows (earlier later : StreamFact) : Prop :=
  ∀ ref,
    (earlier = .used ref .finish →
        later ≠ .used ref .data) ∧
      (cancels ref earlier = true →
        ∀ use, later ≠ .used ref use)

/- The stream is cancelled, or ended by both sides. -/
def Over (ref : Nat) (log : List StreamFact) : Prop :=
  (∃ fact ∈ log, cancels ref fact = true) ∨
    (.used ref .finish ∈ log ∧ .marked ref .finish ∈ log)

/-
  After its end a stream gets no data, after its cancellation
  nothing, and a stream that is over has left the tables.
-/
structure Terminated
    (t : Table K)
    (log : List StreamFact) : Prop where
  ordered : log.Pairwise Follows
  removed : ∀ ref, Over ref log → ¬ t.Registered ref

------------------------------------------------------------
-- The Condition
------------------------------------------------------------

/-
  On a registered stream: no data after its end, no local
  cancellation, and not an end by either side after an end
  by the other.  A cancellation by the peer is a `take`.
-/
def Obeys
    (t : Table K)
    (log : List StreamFact) : StreamAct K → Prop
| .use k .data =>
    ∀ ref, t.find k = some ref → .used ref .finish ∉ log
| .use k .finish =>
    ∀ ref, t.find k = some ref → .marked ref .finish ∉ log
| .mark ref .finish =>
    t.Registered ref → .used ref .finish ∉ log
| .mark ref .cancel => ¬ t.Registered ref
| _ => True

/- Data and ends keep a stream, cancellations drop it. -/
def Regular : StreamAct K → Prop
| .use _ use => use ≠ .cancel
| .take _ use => use = .cancel
| _ => True

theorem regular_streamAct
    (key : UInt32 → K)
    (message : Message) :
    Regular (message.streamAct key) := by
  cases message <;> simp [Message.streamAct, Regular]

------------------------------------------------------------
-- The Invariant
------------------------------------------------------------

structure Inv
    (t : Table K)
    (log : List StreamFact) : Prop where
  sound : t.Sound
  known : ∀ fact ∈ log, fact.ref < t.size
  terminated : Terminated t log

theorem over_known
    {t : Table K}
    {log : List StreamFact}
    (hKnown : ∀ fact ∈ log, fact.ref < t.size)
    {ref : Nat}
    (hOver : Over ref log) :
    ref < t.size := by
  rcases hOver with ⟨fact, hMem, hCancels⟩ | ⟨hMem, _⟩
  · have hSmall := hKnown fact hMem
    simp only [cancels, decide_eq_true_eq] at hCancels
    rcases hCancels with hFact | hFact <;>
      · rw [hFact] at hSmall
        exact hSmall
  · exact hKnown _ hMem

/- How one more fact can make a stream over. -/
theorem over_snoc
    {ref : Nat}
    {log : List StreamFact}
    {fact : StreamFact}
    (hOver : Over ref (log ++ [fact])) :
    Over ref log ∨ cancels ref fact = true ∨
      (fact = .used ref .finish ∧ .marked ref .finish ∈ log) ∨
        (fact = .marked ref .finish ∧
          .used ref .finish ∈ log) := by
  simp only [Over, List.mem_append, List.mem_singleton]
    at hOver ⊢
  rcases hOver with ⟨other, hMem | hNew, hCancels⟩ |
    ⟨hEnd | hEnd, hMark | hMark⟩
  · exact Or.inl (Or.inl ⟨other, hMem, hCancels⟩)
  · rw [hNew] at hCancels
    exact Or.inr (Or.inl hCancels)
  · exact Or.inl (Or.inr ⟨hEnd, hMark⟩)
  · exact Or.inr (Or.inr (Or.inr ⟨hMark.symm, hEnd⟩))
  · exact Or.inr (Or.inr (Or.inl ⟨hEnd.symm, hMark⟩))
  · rw [← hEnd] at hMark
    cases hMark

/- A fact that may follow all the others. -/
theorem pairwise_snoc
    {log : List StreamFact}
    {fact : StreamFact}
    (hLog : log.Pairwise Follows)
    (hLast : ∀ earlier ∈ log, Follows earlier fact) :
    (log ++ [fact]).Pairwise Follows := by
  rw [List.pairwise_append]
  refine ⟨hLog, List.pairwise_singleton _ _, ?_⟩
  intro earlier hMem later hLater
  rw [List.mem_singleton.mp hLater]
  exact hLast earlier hMem

/- Marks of the application may follow everything. -/
theorem follows_marked
    (earlier : StreamFact)
    (ref : Nat)
    (call : StreamCall) :
    Follows earlier (.marked ref call) := by
  intro ref'
  exact ⟨fun _ => by simp, fun _ _ => by simp⟩

/- Nothing has cancelled a registered stream. -/
theorem Inv.not_cancelled
    {t : Table K}
    {log : List StreamFact}
    (hInv : Inv t log)
    {ref : Nat}
    (hRegistered : t.Registered ref)
    {fact : StreamFact}
    (hMem : fact ∈ log) :
    cancels ref fact = false := by
  by_contra hNot
  have hCancels : cancels ref fact = true := by simpa using hNot
  exact
    hInv.terminated.removed ref
      (Or.inl ⟨fact, hMem, hCancels⟩) hRegistered

/- A use of a registered stream may follow what it obeys. -/
theorem Inv.follows_used
    {t : Table K}
    {log : List StreamFact}
    (hInv : Inv t log)
    {ref : Nat}
    (hRegistered : t.Registered ref)
    {use : StreamUse}
    (hData : use = .data → .used ref .finish ∉ log)
    {earlier : StreamFact}
    (hMem : earlier ∈ log) :
    Follows earlier (.used ref use) := by
  intro ref'
  constructor
  · intro hEnd hUse
    cases hUse
    rw [hEnd] at hMem
    exact hData rfl hMem
  · intro hCancels use' hUse
    cases hUse
    rw [hInv.not_cancelled hRegistered hMem] at hCancels
    cases hCancels

variable [DecidableEq K]

------------------------------------------------------------
-- Single Actions
------------------------------------------------------------

/- An action without facts may only remove entries. -/
theorem Inv.silent
    {t : Table K}
    {log : List StreamFact}
    (hInv : Inv t log)
    {a : StreamAct K}
    (hSilent : t.facts a = []) :
    Terminated (t.exec a) (log ++ t.facts a) := by
  rw [hSilent, List.append_nil]
  refine ⟨hInv.terminated.ordered, ?_⟩
  intro ref hOver
  exact
    Table.not_registered_exec (over_known hInv.known hOver)
      (hInv.terminated.removed ref hOver) a

/- One more fact, after which nothing else is over. -/
theorem Inv.one
    {t : Table K}
    {log : List StreamFact}
    (hInv : Inv t log)
    {a : StreamAct K}
    {f : StreamFact}
    (hFacts : t.facts a = [f])
    (hLast : ∀ earlier ∈ log, Follows earlier f)
    (hRemoved :
      ∀ ref, ¬ Over ref log → Over ref (log ++ [f]) →
        ¬ (t.exec a).Registered ref) :
    Terminated (t.exec a) (log ++ t.facts a) := by
  rw [hFacts]
  refine
    ⟨pairwise_snoc hInv.terminated.ordered hLast, ?_⟩
  intro ref hOver
  by_cases hBefore : Over ref log
  · exact
      Table.not_registered_exec
        (over_known hInv.known hBefore)
        (hInv.terminated.removed ref hBefore) a
  · exact hRemoved ref hBefore hOver

/- A registered stream is not over, so nothing follows. -/
theorem not_over_used
    {ref ref' : Nat}
    {log : List StreamFact}
    {use : StreamUse}
    (hUse : use ≠ .cancel)
    (hEnd : use = .finish → .marked ref .finish ∉ log)
    (hBefore : ¬ Over ref' log) :
    ¬ Over ref' (log ++ [.used ref use]) := by
  intro hOver
  rcases over_snoc hOver with
    hOld | hCancels | ⟨hFact, hMark⟩ | ⟨hFact, _⟩
  · exact hBefore hOld
  · simp [cancels, hUse] at hCancels
  · cases hFact
    exact hEnd rfl hMark
  · cases hFact

/- An action keeps the law just if it obeys. -/
theorem terminated_iff_obeys
    {t : Table K}
    {log : List StreamFact}
    {a : StreamAct K}
    (hInv : Inv t log)
    (hRegular : Regular a) :
    Terminated (t.exec a) (log ++ t.facts a) ↔
      Obeys t log a := by
  cases a with
  | add k => exact iff_of_true (hInv.silent rfl) trivial
  | drop gone => exact iff_of_true (hInv.silent rfl) trivial
  | skip => exact iff_of_true (hInv.silent rfl) trivial
  | take k use =>
      have hUse : use = .cancel := hRegular
      subst hUse
      refine iff_of_true ?_ trivial
      cases hFound : t.find k with
      | none =>
          apply hInv.silent
          simp [Table.facts, hFound]
      | some ref =>
          apply
            hInv.one (f := .used ref .cancel)
              (by simp [Table.facts, hFound])
          · intro earlier hMem
            exact
              hInv.follows_used ⟨k, hFound⟩ (by simp) hMem
          · intro ref' hBefore hOver
            rcases over_snoc hOver with
              hOld | hCancels | ⟨hFact, _⟩ | ⟨hFact, _⟩
            · exact absurd hOld hBefore
            · have hSame : ref = ref' := by
                simpa [cancels] using hCancels
              subst hSame
              exact
                Table.not_registered_take hInv.sound hFound _
            · cases hFact
            · cases hFact
  | use k use =>
      cases hFound : t.find k with
      | none =>
          refine iff_of_true (hInv.silent ?_) ?_
          · simp [Table.facts, hFound]
          · cases use <;> simp [Obeys, hFound]
      | some ref =>
          have hFacts :
              t.facts (.use k use : StreamAct K) =
                [.used ref use] := by
            simp [Table.facts, hFound]
          cases use with
          | cancel => exact absurd rfl hRegular
          | data =>
              simp only [Obeys, hFound, Option.some.injEq,
                forall_eq']
              constructor
              · intro hAfter hEnd
                rw [hFacts] at hAfter
                have hPair :=
                  (List.pairwise_append.mp
                    hAfter.ordered).2.2 _ hEnd _
                    (List.mem_singleton_self _)
                exact (hPair ref).1 rfl rfl
              · intro hEnd
                apply hInv.one hFacts
                · intro earlier hMem
                  exact
                    hInv.follows_used ⟨k, hFound⟩
                      (fun _ => hEnd) hMem
                · intro ref' hBefore hOver
                  exact
                    absurd hOver
                      (not_over_used (by simp) (by simp)
                        hBefore)
          | finish =>
              simp only [Obeys, hFound, Option.some.injEq,
                forall_eq']
              constructor
              · intro hAfter hMark
                rw [hFacts] at hAfter
                refine hAfter.removed ref ?_ ⟨k, hFound⟩
                exact Or.inr (by simp [hMark])
              · intro hMark
                apply hInv.one hFacts
                · intro earlier hMem
                  exact
                    hInv.follows_used ⟨k, hFound⟩ (by simp)
                      hMem
                · intro ref' hBefore hOver
                  exact
                    absurd hOver
                      (not_over_used (by simp)
                        (fun _ => hMark) hBefore)
  | mark ref call =>
      by_cases hOld : ref < t.size
      · have hFacts :
            t.facts (.mark ref call : StreamAct K) =
              [.marked ref call] := by
          simp [Table.facts, hOld]
        cases call with
        | finish =>
            simp only [Obeys]
            constructor
            · intro hAfter hRegistered hEnd
              rw [hFacts] at hAfter
              refine hAfter.removed ref ?_ hRegistered
              exact Or.inr (by simp [hEnd])
            · intro hEnd
              apply hInv.one hFacts
              · exact fun earlier _ => follows_marked _ _ _
              · intro ref' hBefore hOver hRegistered
                rcases over_snoc hOver with
                  hOld | hCancels | ⟨hFact, _⟩ |
                    ⟨hFact, hUsed⟩
                · exact hBefore hOld
                · simp [cancels] at hCancels
                · cases hFact
                · cases hFact
                  exact hEnd hRegistered hUsed
        | cancel =>
            simp only [Obeys]
            constructor
            · intro hAfter hRegistered
              rw [hFacts] at hAfter
              refine hAfter.removed ref ?_ hRegistered
              exact Or.inl ⟨.marked ref .cancel, by simp [cancels]⟩
            · intro hGone
              apply hInv.one hFacts
              · exact fun earlier _ => follows_marked _ _ _
              · intro ref' hBefore hOver hRegistered
                rcases over_snoc hOver with
                  hOld | hCancels | ⟨hFact, _⟩ | ⟨hFact, _⟩
                · exact hBefore hOld
                · have hSame : ref = ref' := by
                    simpa [cancels] using hCancels
                  subst hSame
                  exact hGone hRegistered
                · cases hFact
                · cases hFact
      · have hGone : ¬ t.Registered ref := by
          rintro ⟨k, hFound⟩
          exact hOld (hInv.sound.added k ref hFound)
        refine iff_of_true (hInv.silent ?_) ?_
        · simp [Table.facts, hOld]
        · cases call with
          | finish =>
              exact fun hRegistered =>
                absurd hRegistered hGone
          | cancel => exact hGone

theorem Inv.exec
    {t : Table K}
    {log : List StreamFact}
    {a : StreamAct K}
    (hInv : Inv t log)
    (hRegular : Regular a)
    (hObeys : Obeys t log a) :
    Inv (t.exec a) (log ++ t.facts a) where
  sound := hInv.sound.exec a
  known := by
    intro fact hMem
    have hGrows := Table.size_le_exec t a
    rcases List.mem_append.mp hMem with hOld | hNew
    · exact Nat.lt_of_lt_of_le (hInv.known fact hOld) hGrows
    · exact
        Nat.lt_of_lt_of_le
          (Table.ref_lt_of_facts hInv.sound hNew) hGrows
  terminated := (terminated_iff_obeys hInv hRegular).mpr hObeys

------------------------------------------------------------
-- Runs of a Wrapper
------------------------------------------------------------

variable (m : Machine σ ι K StreamUse StreamCall)

def Orderly
    (x : Logged σ StreamUse StreamCall)
    (l : ι) : Prop :=
  Obeys (m.table x.state) x.log (m.act x.state l)

variable {m}

/- In every run whose inputs obey, streams terminate. -/
theorem terminated_of_run
    (hRefines : m.Refines)
    (hRegular : ∀ s l, Regular (m.act s l))
    {s : σ}
    (hStart : m.table s = Table.empty)
    {ls : List ι}
    {x : Logged σ StreamUse StreamCall}
    (hRun :
      StateMachine.Run
        (StateMachine.Guarded (Orderly m) m.logged)
        { state := s } ls x) :
    Terminated (m.table x.state) x.log := by
  have hBefore :
      Inv (m.table s) ([] : List StreamFact) := by
    rw [hStart]
    refine ⟨Table.sound_empty, by simp, ⟨.nil, ?_⟩⟩
    rintro ref (⟨fact, hMem, _⟩ | ⟨hMem, _⟩) <;> cases hMem
  have hAfter : Inv (m.table x.state) x.log := by
    refine
      hRun.invariant
        (P := fun x => Inv (m.table x.state) x.log) ?_ hBefore
    rintro y l z hInv ⟨hObeys, hNext⟩
    rw [hNext]
    simp only [Machine.logged, hRefines.step]
    exact hInv.exec (hRegular y.state l) hObeys
  exact hAfter.terminated

end Streams

end ObscuraProto
