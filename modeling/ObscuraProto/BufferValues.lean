import ObscuraProto.BufferOwnership
import ObscuraProto.Library.StateMachine

/-
  Key buffers are values.

  A program sees what each buffer holds; whether the memory of
  an operation was given or refused, the contents are those of
  an assignment, a move or a resize of byte strings.  Nothing
  is leaked or freed twice, and what is freed was zeroed.

  Key definitions include:
    * `BufferOp`, `BufferOp.after`, `BufferOp.afterRefusal`
    * `BufferCall.Step`

  Key theorems include:
    * `SecureBuffer.clear_returns`
    * `SecureBuffer.resize_ends`
    * `BufferOp.ends`
    * `key_memory_owned`
-/

namespace ObscuraProto

open Effectful StateMachine

------------------------------------------------------------
-- Single Operations
------------------------------------------------------------

/- Nothing that was in a block is left when it is freed. -/
def Zeroed (effects : List MemoryEffect) : Prop :=
  ∀ contents,
    MemoryEffect.freed contents ∈ effects →
      ∀ byte ∈ contents, byte = 0

theorem zeroed_nil : Zeroed [] := by
  simp [Zeroed]

theorem zeroed_replicate (size : Nat) :
    Zeroed [.freed (List.replicate size 0)] := by
  intro contents hFreed byte hByte
  simp only [List.mem_singleton,
    MemoryEffect.freed.injEq] at hFreed
  subst hFreed
  exact List.eq_of_mem_replicate hByte

theorem Zeroed.append
    {xs ys : List MemoryEffect}
    (hFirst : Zeroed xs)
    (hSecond : Zeroed ys) :
    Zeroed (xs ++ ys) := by
  intro contents hFreed
  rcases List.mem_append.mp hFreed with hIn | hIn
  · exact hFirst contents hIn
  · exact hSecond contents hIn

namespace SecureBuffer

open Memory

variable
  {m : Memory}
  {id : ObjectId}
  {malloc : Malloc}

/- An action that returns and leaves these values. -/
def Returns
    (act : MemoryAction Unit)
    (m : Memory)
    (after : BufferValues) : Prop :=
  ∃ effects m',
    act.run m =
        { result := .ok (), effects := effects, state := m' } ∧
      Zeroed effects ∧ m'.Sound ∧ m'.values = after

/- An action that an allocation ended. -/
def Refused
    (act : MemoryAction Unit)
    (m : Memory)
    (after : BufferValues) : Prop :=
  ∃ effects m',
    act.run m =
        { result := .error .badAlloc
          effects := effects
          state := m' } ∧
      Zeroed effects ∧ m'.Sound ∧ m'.values = after

theorem Returns.bind
    {act act' : MemoryAction Unit}
    {between after : BufferValues}
    (hFirst : Returns act m between)
    (hThen :
      ∀ m', m'.Sound → m'.values = between →
        Returns act' m' after) :
    Returns (act >>= fun _ => act') m after := by
  obtain ⟨xs, m', hRun, hZeroed, hSound, hValues⟩ := hFirst
  obtain ⟨ys, m'', hRun', hZeroed', hSound', hValues'⟩ :=
    hThen m' hSound hValues
  refine
    ⟨xs ++ ys, m'', ?_, hZeroed.append hZeroed', hSound',
      hValues'⟩
  rw [Action.run_bind_ok hRun, hRun']

theorem clear_returns
    (hSound : m.Sound)
    {bytes : Bytes}
    (hValue : m.values id = some bytes) :
    Returns (clear id) m
      (Function.update m.values id (some [])) := by
  obtain ⟨buffer, hObject, hHolds⟩ :=
    hSound.holds_of_value hValue
  rw [clear]
  cases hHolds with
  | nothing =>
      refine ⟨[], m, ?_, zeroed_nil, hSound, ?_⟩
      · rw [Action.run_bind_ok (run_object hObject)]
        rfl
      · rw [← hValue, Function.update_eq_self]
  | @block a _ hBlock hPos =>
      refine
        ⟨[.freed (List.replicate bytes.length 0)],
          (m.setBlock a none).setObject id (some {}), ?_,
          zeroed_replicate _,
          hSound.drop hObject rfl (by simp),
          hSound.values_drop hObject rfl (by simp)⟩
      rw [Action.run_bind_ok (run_object hObject)]
      simp only
      rw [Action.run_bind_ok
        (@run_release _ a bytes _ rfl hBlock rfl)]
      simp [Action.modify]

/- The values after fresh memory was asked for. -/
theorem allocateWith_ends
    (hMalloc : malloc.Correct)
    (hSound : m.Sound)
    (hIdle : m.Idle id)
    {bytes : Bytes}
    (hPos : 0 < bytes.length) :
    Returns (allocateWith malloc id bytes) m
        (Function.update m.values id (some bytes)) ∨
      Refused (allocateWith malloc id bytes) m m.values := by
  cases hGiven : malloc m bytes.length with
  | none =>
      exact
        .inr
          ⟨[], m, run_allocateWith_refused id hGiven,
            zeroed_nil, hSound, rfl⟩
  | some given =>
      obtain ⟨a, contents⟩ := given
      obtain ⟨hFree, hSize⟩ :=
        hMalloc m bytes.length a contents hGiven
      exact
        .inl
          ⟨[], _, run_allocateWith id hGiven hSize,
            zeroed_nil, hSound.own hIdle hFree hPos,
            hSound.values_own hFree⟩

/- What is read from a source is what it holds. -/
theorem run_source
    (hSound : m.Sound)
    {other : ObjectId}
    {bytes : Bytes}
    (hValue : m.values other = some bytes)
    (onEmpty : MemoryAction Unit) :
    (do
      let source ← object other
      if source.size > 0 then
        let bytes ← read source.data source.size
        allocateWith malloc id bytes
      else
        onEmpty : MemoryAction Unit).run m =
      (if bytes = [] then
        onEmpty
      else
        allocateWith malloc id bytes).run m := by
  obtain ⟨buffer, hObject, hHolds⟩ :=
    hSound.holds_of_value hValue
  rw [Action.run_bind_ok (run_object hObject)]
  cases hHolds with
  | nothing => rfl
  | @block a _ hBlock hPos =>
      have hFull : bytes ≠ [] :=
        List.ne_nil_of_length_pos hPos
      simp only [gt_iff_lt, hPos, if_true, hFull, if_false]
      rw [Action.run_bind_ok
        (run_read hBlock (Nat.le_refl _))]
      simp

theorem copy_ends
    (hMalloc : malloc.Correct)
    (hSound : m.Sound)
    {other : ObjectId}
    {bytes : Bytes}
    (hDead : m.values id = none)
    (hValue : m.values other = some bytes) :
    Returns (copy malloc id other) m
        (Function.update m.values id (some bytes)) ∨
      bytes ≠ [] ∧
        Refused (copy malloc id other) m m.values := by
  have hIdle := Sound.idle_of_dead hDead
  have hRun :=
    @run_source m id malloc hSound _ _ hValue
      (Action.modify (setObject id (some {})))
  by_cases hEmpty : bytes = []
  · rw [if_pos hEmpty] at hRun
    exact
      .inl
        ⟨[], m.setObject id (some {}), hRun, zeroed_nil,
          hSound.reset hIdle (by simp), by
            rw [hEmpty]
            exact Sound.values_reset m id (by simp)⟩
  · rw [if_neg hEmpty] at hRun
    rcases
        allocateWith_ends hMalloc hSound hIdle
          (List.length_pos_iff.mpr hEmpty) with
      ⟨xs, m', hOk, hRest⟩ | ⟨xs, m', hError, hRest⟩
    · exact .inl ⟨xs, m', hRun.trans hOk, hRest⟩
    · exact .inr ⟨hEmpty, xs, m', hRun.trans hError, hRest⟩

/- An emptied buffer is filled. -/
theorem refill_ends
    (hMalloc : malloc.Correct)
    (hSound : m.Sound)
    {before bytes : Bytes}
    (hValue : m.values id = some before)
    {act : MemoryAction Unit}
    (hAct :
      ∀ m', m'.Sound →
        m'.values = Function.update m.values id (some []) →
          act.run m' =
            (if bytes = [] then
              return ()
            else
              allocateWith malloc id bytes).run m') :
    Returns (clear id >>= fun _ => act) m
        (Function.update m.values id (some bytes)) ∨
      bytes ≠ [] ∧
        Refused (clear id >>= fun _ => act) m
          (Function.update m.values id (some [])) := by
  obtain ⟨xs, m', hRun, hZeroed, hSound', hValues⟩ :=
    clear_returns hSound hValue
  have hIdle : m'.Idle id :=
    hSound'.idle_of_empty (by simp [hValues])
  have hThen := hAct m' hSound' hValues
  by_cases hEmpty : bytes = []
  · rw [if_pos hEmpty] at hThen
    refine
      .inl
        ⟨xs ++ [], m', ?_, hZeroed.append zeroed_nil,
          hSound', by rw [hValues, hEmpty]⟩
    rw [Action.run_bind_ok hRun, hThen, Action.run_pure]
  · rw [if_neg hEmpty] at hThen
    rcases
        allocateWith_ends hMalloc hSound' hIdle
          (List.length_pos_iff.mpr hEmpty) with
      ⟨ys, m'', hOk, hZeroed', hSound'', hValues'⟩ |
        ⟨ys, m'', hError, hZeroed', hSound'', hValues'⟩
    · refine
        .inl
          ⟨xs ++ ys, m'', ?_, hZeroed.append hZeroed',
            hSound'', ?_⟩
      · rw [Action.run_bind_ok hRun, hThen, hOk]
      · rw [hValues', hValues, Function.update_idem]
    · refine
        .inr
          ⟨hEmpty, xs ++ ys, m'', ?_,
            hZeroed.append hZeroed', hSound'',
            hValues'.trans hValues⟩
      rw [Action.run_bind_ok hRun, hThen, hError]

theorem copyAssign_ends
    (hMalloc : malloc.Correct)
    (hSound : m.Sound)
    {other : ObjectId}
    (hApart : id ≠ other)
    {before bytes : Bytes}
    (hTarget : m.values id = some before)
    (hValue : m.values other = some bytes) :
    Returns (copyAssign malloc id other) m
        (Function.update m.values id (some bytes)) ∨
      bytes ≠ [] ∧
        Refused (copyAssign malloc id other) m
          (Function.update m.values id (some [])) := by
  rw [copyAssign, if_neg hApart]
  refine refill_ends hMalloc hSound hTarget ?_
  intro m' hSound' hValues
  exact
    run_source hSound'
      (by simp [hValues, hApart.symm, hValue]) (pure ())

theorem assign_ends
    (hMalloc : malloc.Correct)
    (hSound : m.Sound)
    {before : Bytes}
    (bytes : Bytes)
    (hTarget : m.values id = some before) :
    Returns (assign malloc id bytes) m
        (Function.update m.values id (some bytes)) ∨
      bytes ≠ [] ∧
        Refused (assign malloc id bytes) m
          (Function.update m.values id (some [])) := by
  rw [assign]
  refine refill_ends hMalloc hSound hTarget ?_
  intro m' _ _
  cases bytes <;> simp

/- The constructor zeroes what it allocates. -/
theorem new_ends
    (hMalloc : malloc.Correct)
    (hSound : m.Sound)
    (size : Nat)
    (hDead : m.values id = none) :
    Returns (new malloc id size) m
        (Function.update m.values id
          (some (List.replicate size 0))) ∨
      0 < size ∧ Refused (new malloc id size) m m.values := by
  have hIdle := Sound.idle_of_dead hDead
  rcases Nat.eq_zero_or_pos size with hNone | hPos
  · subst hNone
    exact
      .inl
        ⟨[], m.setObject id (some {}), rfl, zeroed_nil,
          hSound.reset hIdle (by simp),
          Sound.values_reset m id (by simp)⟩
  · rw [new, make, if_pos hPos]
    cases hGiven : malloc m size with
    | none =>
        refine .inr ⟨hPos, [], m, ?_, zeroed_nil, hSound, rfl⟩
        rw [Action.run_bind_error (run_allocate_refused hGiven)]
    | some given =>
        obtain ⟨a, contents⟩ := given
        obtain ⟨hFree, hSize⟩ :=
          hMalloc m size a contents hGiven
        have hOwn :=
          @Sound.own m id a (List.replicate size 0)
            hSound hIdle hFree (by simpa using hPos)
        have hValues :=
          @Sound.values_own m id a (List.replicate size 0)
            hSound hFree
        rw [List.length_replicate] at hOwn hValues
        refine .inl ⟨[], _, ?_, zeroed_nil, hOwn, hValues⟩
        rw [Action.run_bind_ok (run_allocate hGiven hSize)]
        simp [Action.modify]

theorem takeFields_returns
    (hSound : m.Sound)
    (hIdle : m.Idle id)
    {other : ObjectId}
    (hApart : id ≠ other)
    {bytes : Bytes}
    (hValue : m.values other = some bytes) :
    Returns (takeFields id other) m
      (Function.update
        (Function.update m.values id (some bytes))
        other (some [])) := by
  obtain ⟨buffer, hObject, _⟩ :=
    hSound.holds_of_value hValue
  refine
    ⟨[], _, ?_, zeroed_nil,
      hSound.hand hIdle hApart hObject, ?_⟩
  · rw [takeFields, Action.run_bind_ok (run_object hObject)]
    rfl
  · rw [Sound.values_hand hApart hObject, hValue]

theorem moveAssign_returns
    (hSound : m.Sound)
    {other : ObjectId}
    (hApart : id ≠ other)
    {before bytes : Bytes}
    (hTarget : m.values id = some before)
    (hValue : m.values other = some bytes) :
    Returns (moveAssign id other) m
      (Function.update
        (Function.update m.values id (some bytes))
        other (some [])) := by
  rw [moveAssign, if_neg hApart]
  refine (clear_returns hSound hTarget).bind ?_
  intro m' hSound' hValues
  have hTaken :=
    @takeFields_returns m' id hSound'
      (hSound'.idle_of_empty (by simp [hValues])) other hApart
      bytes (by simp [hValues, hApart.symm, hValue])
  rwa [hValues, Function.update_idem] at hTaken

theorem destroy_returns
    (hSound : m.Sound)
    {bytes : Bytes}
    (hValue : m.values id = some bytes) :
    Returns (destroy id) m
      (Function.update m.values id none) := by
  rw [destroy]
  refine (clear_returns hSound hValue).bind ?_
  intro m' hSound' hValues
  refine
    ⟨[], m'.setObject id none, rfl, zeroed_nil,
      hSound'.reset
        (hSound'.idle_of_empty (by simp [hValues])) (by simp),
      ?_⟩
  rw [Sound.values_reset m' id (by simp), hValues,
    Function.update_idem]
  rfl

theorem setAt_returns
    (hSound : m.Sound)
    {bytes : Bytes}
    (hValue : m.values id = some bytes)
    {i : Nat}
    (hInside : i < bytes.length)
    (byte : UInt8) :
    Returns (setAt id i byte) m
      (Function.update m.values id
        (some (bytes.set i byte))) := by
  obtain ⟨buffer, hObject, hHolds⟩ :=
    hSound.holds_of_value hValue
  cases hHolds with
  | nothing => simp at hInside
  | @block a _ hBlock hPos =>
      refine
        ⟨[], m.setBlock a (some (bytes.set i byte)), ?_,
          zeroed_nil,
          hSound.rewrite hObject rfl (by simp),
          hSound.values_rewrite hObject rfl⟩
      rw [setAt, Action.run_bind_ok (run_object hObject)]
      simp only
      rw [Action.run_bind_ok (run_block hBlock),
        if_pos hInside]
      rfl

/- What a buffer of another size keeps. -/
def resized (bytes : Bytes) (newSize : Nat) : Bytes :=
  bytes.take newSize ++
    List.replicate (newSize - bytes.length) 0

theorem length_resized (bytes : Bytes) (newSize : Nat) :
    (resized bytes newSize).length = newSize := by
  simp only [resized, List.length_append, List.length_take,
    List.length_replicate]
  omega

theorem resized_self (bytes : Bytes) :
    resized bytes bytes.length = bytes := by
  simp [resized]

theorem resized_eq (bytes : Bytes) (newSize : Nat) :
    bytes.take (min newSize bytes.length) ++
        (List.replicate newSize (0 : UInt8)).drop
          (bytes.take (min newSize bytes.length)).length =
      resized bytes newSize := by
  rw [resized, List.drop_replicate, List.length_take,
    ← List.take_eq_take_min]
  congr 2
  omega

/- The contents are copied to the new block. -/
theorem run_copyInto
    {a : Address}
    {bytes : Bytes}
    {newSize : Nat}
    {buffer : SecureBuffer}
    (hNew : m.blocks a = some (List.replicate newSize 0))
    (hHolds : m.Holds buffer bytes) :
    (copyInto { data := some a, size := newSize } buffer
      (min newSize buffer.size)).run m =
      { result := .ok ()
        effects := []
        state :=
          m.setBlock a (some (resized bytes newSize)) } := by
  rw [hHolds.size_eq]
  by_cases hNone : min newSize bytes.length = 0
  · have hZero :
        resized bytes newSize = List.replicate newSize 0 := by
      simp [← resized_eq, hNone]
    have hSame :
        m.setBlock a (some (resized bytes newSize)) = m := by
      rw [hZero, ← hNew, setBlock_blocks]
    rw [hSame, hNone]
    cases hHolds <;> rfl
  · cases hHolds with
    | nothing => simp at hNone
    | @block a' _ hOld _ =>
        simp only [copyInto, if_pos (Nat.pos_of_ne_zero hNone)]
        rw [Action.run_bind_ok
            (run_read hOld (Nat.min_le_right _ _)),
          run_write hNew
            (by
              rw [List.length_take, List.length_replicate]
              exact
                (Nat.min_le_left _ _).trans
                  (Nat.min_le_left _ _)),
          resized_eq]
        rfl

/- With nothing to keep, the old block is freed. -/
theorem release_empties
    (hSound : m.Sound)
    {buffer : SecureBuffer}
    {bytes : Bytes}
    (hObject : m.objects id = some buffer)
    (hHolds : m.Holds buffer bytes) :
    Returns (release buffer) (m.setObject id (some {}))
      (Function.update m.values id (some [])) := by
  cases hHolds with
  | nothing =>
      have hIdle : m.Idle id := by
        intro b hSame
        cases hSame.symm.trans hObject
        rfl
      exact
        ⟨[], _, run_release_empty rfl, zeroed_nil,
          hSound.reset hIdle (by simp),
          Sound.values_reset m id (by simp)⟩
  | @block a _ hOld _ =>
      refine
        ⟨[.freed (List.replicate bytes.length 0)],
          (m.setBlock a none).setObject id (some {}), ?_,
          zeroed_replicate _,
          hSound.drop hObject rfl (by simp),
          hSound.values_drop hObject rfl (by simp)⟩
      rw [@run_release _ a bytes _ rfl
        (by simp [hOld]) rfl, setBlock_setObject]

/- The old block is freed when the new one has its owner. -/
theorem release_returns
    (hSound : m.Sound)
    {buffer : SecureBuffer}
    {bytes contents : Bytes}
    {a : Address}
    (hObject : m.objects id = some buffer)
    (hHolds : m.Holds buffer bytes)
    (hFree : m.blocks a = none)
    (hPos : 0 < contents.length) :
    Returns (release buffer)
      ((m.setBlock a (some contents)).setObject id
        (some { data := some a, size := contents.length }))
      (Function.update m.values id (some contents)) := by
  cases hHolds with
  | nothing =>
      have hIdle : m.Idle id := by
        intro b hSame
        cases hSame.symm.trans hObject
        rfl
      exact
        ⟨[], _, run_release_empty rfl, zeroed_nil,
          hSound.own hIdle hFree hPos,
          hSound.values_own hFree⟩
  | @block a' _ hOld _ =>
      have hApart : a' ≠ a := by
        rintro rfl
        simp [hOld] at hFree
      have hDropped :
          ((m.setBlock a' none).setObject id
            (some {})).Sound :=
        hSound.drop hObject rfl (by simp)
      have hEmptied :
          ((m.setBlock a' none).setObject id
            (some {})).values =
            Function.update m.values id (some []) :=
        hSound.values_drop hObject rfl (by simp)
      have hFree' :
          ((m.setBlock a' none).setObject id
            (some {})).blocks a = none := by
        simp [hApart.symm, hFree]
      -- freeing first and giving the block then is the same
      have hOrder :
          ((m.setBlock a (some contents)).setObject id
            (some { data := some a
                    size := contents.length })).setBlock
                a' none =
            (((m.setBlock a' none).setObject id
              (some {})).setBlock a (some contents)).setObject
                id
                (some { data := some a
                        size := contents.length }) := by
        simp [setBlock, setObject, Function.update_comm hApart]
      refine
        ⟨[.freed (List.replicate bytes.length 0)], _,
          @run_release _ a' bytes _ rfl
            (by simp [hApart, hOld]) rfl,
          zeroed_replicate _, ?_, ?_⟩
      · rw [hOrder]
        exact
          hDropped.own
            (hDropped.idle_of_empty (by simp [hEmptied]))
            hFree' hPos
      · rw [hOrder, hDropped.values_own hFree', hEmptied,
          Function.update_idem]

/- The part of `resize` that changes the size. -/
theorem run_resize
    {buffer : SecureBuffer}
    {newSize : Nat}
    (hObject : m.objects id = some buffer)
    (hOther : newSize ≠ buffer.size) :
    (resize malloc id newSize).run m =
      (do
        let tmp ← make malloc newSize
        copyInto tmp buffer (min newSize buffer.size)
        Action.modify (setObject id (some tmp))
        release buffer : MemoryAction Unit).run m := by
  rw [resize, Action.run_bind_ok (run_object hObject),
    if_neg hOther]
  rfl

theorem resize_ends
    (hMalloc : malloc.Correct)
    (hSound : m.Sound)
    {bytes : Bytes}
    (newSize : Nat)
    (hValue : m.values id = some bytes) :
    Returns (resize malloc id newSize) m
        (Function.update m.values id
          (some (resized bytes newSize))) ∨
      (newSize ≠ bytes.length ∧ 0 < newSize) ∧
        Refused (resize malloc id newSize) m m.values := by
  obtain ⟨buffer, hObject, hHolds⟩ :=
    hSound.holds_of_value hValue
  by_cases hSame : newSize = bytes.length
  · refine .inl ⟨[], m, ?_, zeroed_nil, hSound, ?_⟩
    · rw [resize, Action.run_bind_ok (run_object hObject),
        if_pos (hSame.trans hHolds.size_eq.symm)]
      rfl
    · rw [hSame, resized_self, ← hValue,
        Function.update_eq_self]
  have hOther : newSize ≠ buffer.size := fun hEq =>
    hSame (hEq.trans hHolds.size_eq)
  have hStart :=
    @run_resize m id malloc _ _ hObject hOther
  rcases Nat.eq_zero_or_pos newSize with rfl | hPos
  · obtain ⟨xs, m', hRun, hRest⟩ :=
      release_empties hSound hObject hHolds
    refine .inl ⟨xs, m', ?_, ?_⟩
    · rw [hStart]
      exact hRun
    · simpa [resized] using hRest
  rw [make, if_pos hPos] at hStart
  cases hGiven : malloc m newSize with
  | none =>
      refine
        .inr
          ⟨⟨hSame, hPos⟩, [], m, ?_, zeroed_nil, hSound, rfl⟩
      rw [hStart,
        Action.run_bind_error (run_allocate_refused hGiven)]
  | some given =>
      obtain ⟨a, contents⟩ := given
      obtain ⟨hFree, hLength⟩ :=
        hMalloc m newSize a contents hGiven
      have hHolds' :
          (m.setBlock a
            (some (List.replicate newSize 0))).Holds
              buffer bytes :=
        hHolds.setBlock (hSound.data_ne hFree hObject)
      have hCopy :=
        @run_copyInto _ a bytes newSize buffer
          (by simp) hHolds'
      have hReleased :=
        @release_returns m id hSound buffer bytes
          (resized bytes newSize) a hObject hHolds hFree
          (by simpa [length_resized] using hPos)
      rw [length_resized] at hReleased
      obtain ⟨xs, m', hRun, hRest⟩ := hReleased
      refine .inl ⟨xs, m', ?_, hRest⟩
      rw [hStart,
        Action.run_bind_ok (run_allocate hGiven hLength),
        Action.run_bind_ok hCopy, Action.run_modify_bind,
        setBlock_setBlock, hRun]
      rfl

end SecureBuffer

------------------------------------------------------------
-- Buffers as Values
------------------------------------------------------------

inductive BufferOp where
| construct (id : ObjectId) (size : Nat)
| copyConstruct (id other : ObjectId)
| moveConstruct (id other : ObjectId)
| copyAssign (id other : ObjectId)
| moveAssign (id other : ObjectId)
| resize (id : ObjectId) (newSize : Nat)
| assign (id : ObjectId) (bytes : Bytes)
| setAt (id : ObjectId) (i : Nat) (byte : UInt8)
| clear (id : ObjectId)
| destroy (id : ObjectId)

namespace BufferOp

open Memory SecureBuffer

def exec (malloc : Malloc) : BufferOp → MemoryAction Unit
| construct id size => SecureBuffer.new malloc id size
| copyConstruct id other => copy malloc id other
| moveConstruct id other => takeFields id other
| copyAssign id other =>
    SecureBuffer.copyAssign malloc id other
| moveAssign id other => SecureBuffer.moveAssign id other
| resize id newSize => SecureBuffer.resize malloc id newSize
| assign id bytes => SecureBuffer.assign malloc id bytes
| setAt id i byte => SecureBuffer.setAt id i byte
| clear id => SecureBuffer.clear id
| destroy id => SecureBuffer.destroy id

/- An object is constructed once and used while it lives. -/
def Allowed (values : BufferValues) : BufferOp → Prop
| construct id _ => values id = none
| copyConstruct id other
| moveConstruct id other =>
    values id = none ∧ (values other).isSome
| copyAssign id other
| moveAssign id other =>
    (values id).isSome ∧ (values other).isSome
| resize id _
| assign id _
| clear id
| destroy id => (values id).isSome
| setAt id i _ => i < ((values id).getD []).length

/- What the operation means when it returns. -/
def after (values : BufferValues) : BufferOp → BufferValues
| construct id size =>
    Function.update values id (some (List.replicate size 0))
| copyConstruct id other
| copyAssign id other =>
    Function.update values id (values other)
| moveConstruct id other =>
    Function.update
      (Function.update values id (values other))
      other (some [])
| moveAssign id other =>
    if id = other then
      values
    else
      Function.update
        (Function.update values id (values other))
        other (some [])
| resize id newSize =>
    Function.update values id
      ((values id).map (resized · newSize))
| assign id bytes => Function.update values id (some bytes)
| setAt id i byte =>
    Function.update values id
      ((values id).map (·.set i byte))
| clear id => Function.update values id (some [])
| destroy id => Function.update values id none

/- Assignments forget what they had before they allocate. -/
def afterRefusal
    (values : BufferValues) : BufferOp → BufferValues
| copyAssign id _
| assign id _ => Function.update values id (some [])
| _ => values

/- How many bytes it asks for. -/
def request (values : BufferValues) : BufferOp → Nat
| construct _ size => size
| copyConstruct _ other => ((values other).getD []).length
| copyAssign id other =>
    if id = other then
      0
    else
      ((values other).getD []).length
| resize id newSize =>
    if newSize = ((values id).getD []).length then
      0
    else
      newSize
| assign _ bytes => bytes.length
| _ => 0

theorem ends
    {m : Memory}
    {malloc : Malloc}
    (hMalloc : malloc.Correct)
    (hSound : m.Sound)
    (op : BufferOp)
    (hAllowed : op.Allowed m.values) :
    Returns (op.exec malloc) m (op.after m.values) ∨
      0 < op.request m.values ∧
        Refused (op.exec malloc) m
          (op.afterRefusal m.values) := by
  cases op with
  | construct id size =>
      exact new_ends hMalloc hSound size hAllowed
  | copyConstruct id other =>
      obtain ⟨hDead, hAlive⟩ := hAllowed
      obtain ⟨bytes, hValue⟩ :=
        Option.isSome_iff_exists.mp hAlive
      simp only [exec, after, afterRefusal, request, hValue,
        Option.getD_some, List.length_pos_iff]
      exact copy_ends hMalloc hSound hDead hValue
  | moveConstruct id other =>
      obtain ⟨hDead, hAlive⟩ := hAllowed
      obtain ⟨bytes, hValue⟩ :=
        Option.isSome_iff_exists.mp hAlive
      have hApart : id ≠ other := by
        rintro rfl
        simp [hDead] at hAlive
      simp only [exec, after, hValue]
      exact
        .inl
          (takeFields_returns hSound (Sound.idle_of_dead hDead)
            hApart hValue)
  | copyAssign id other =>
      obtain ⟨hTarget, hAlive⟩ := hAllowed
      obtain ⟨before, hBefore⟩ :=
        Option.isSome_iff_exists.mp hTarget
      obtain ⟨bytes, hValue⟩ :=
        Option.isSome_iff_exists.mp hAlive
      by_cases hSame : id = other
      · refine
          .inl ⟨[], m, ?_, zeroed_nil, hSound, ?_⟩
        · simp [exec, SecureBuffer.copyAssign, hSame]
        · simp [after, hSame]
      · simp only [exec, after, afterRefusal, request, hValue,
          if_neg hSame, Option.getD_some, List.length_pos_iff]
        exact
          copyAssign_ends hMalloc hSound hSame hBefore hValue
  | moveAssign id other =>
      obtain ⟨hTarget, hAlive⟩ := hAllowed
      obtain ⟨before, hBefore⟩ :=
        Option.isSome_iff_exists.mp hTarget
      obtain ⟨bytes, hValue⟩ :=
        Option.isSome_iff_exists.mp hAlive
      by_cases hSame : id = other
      · refine
          .inl ⟨[], m, ?_, zeroed_nil, hSound, ?_⟩
        · simp [exec, SecureBuffer.moveAssign, hSame]
        · simp [after, hSame]
      · simp only [exec, after, hValue, if_neg hSame]
        exact
          .inl (moveAssign_returns hSound hSame hBefore hValue)
  | resize id newSize =>
      obtain ⟨bytes, hValue⟩ :=
        Option.isSome_iff_exists.mp hAllowed
      have hEnds := resize_ends hMalloc hSound newSize hValue
      simp only [exec, after, afterRefusal, request, hValue,
        Option.map_some, Option.getD_some]
      refine hEnds.imp_right ?_
      rintro ⟨⟨hOther, hPos⟩, hRefused⟩
      exact ⟨by simpa [hOther] using hPos, hRefused⟩
  | assign id bytes =>
      obtain ⟨before, hBefore⟩ :=
        Option.isSome_iff_exists.mp hAllowed
      simp only [exec, after, afterRefusal, request,
        List.length_pos_iff]
      exact assign_ends hMalloc hSound bytes hBefore
  | setAt id i byte =>
      have hInside : i < ((m.values id).getD []).length :=
        hAllowed
      cases hValue : m.values id with
      | none => simp [hValue] at hInside
      | some bytes =>
          simp only [exec, after, hValue, Option.map_some]
          exact
            .inl
              (setAt_returns hSound hValue
                (by simpa [hValue] using hInside) byte)
  | clear id =>
      obtain ⟨bytes, hValue⟩ :=
        Option.isSome_iff_exists.mp hAllowed
      exact .inl (clear_returns hSound hValue)
  | destroy id =>
      obtain ⟨bytes, hValue⟩ :=
        Option.isSome_iff_exists.mp hAllowed
      exact .inl (destroy_returns hSound hValue)

end BufferOp

------------------------------------------------------------
-- Programs
------------------------------------------------------------

/- One call, and how it ended. -/
structure BufferCall where
  op : BufferOp
  outcome : Except MemoryError Unit
  effects : List MemoryEffect

namespace BufferCall

/- The heap may give or refuse whatever it likes. -/
def Step (m : Memory) (call : BufferCall) (m' : Memory) :
    Prop :=
  ∃ malloc : Malloc,
    malloc.Correct ∧
      call.op.Allowed m.values ∧
        (call.op.exec malloc).run m =
          { result := call.outcome
            effects := call.effects
            state := m' }

def after (values : BufferValues) (call : BufferCall) :
    BufferValues :=
  match call.outcome with
  | .ok _ => call.op.after values
  | .error _ => call.op.afterRefusal values

/- How a call may end when the buffers held these values. -/
def Expected (values : BufferValues) (call : BufferCall) :
    Prop :=
  (call.outcome = .ok () ∨
      call.outcome = .error .badAlloc ∧
        0 < call.op.request values) ∧
    Zeroed call.effects

theorem Step.spec
    {m m' : Memory}
    {call : BufferCall}
    (hStep : Step m call m')
    (hSound : m.Sound) :
    m'.Sound ∧ m'.values = call.after m.values ∧
      call.Expected m.values := by
  obtain ⟨malloc, hMalloc, hAllowed, hRun⟩ := hStep
  rcases BufferOp.ends hMalloc hSound call.op hAllowed with
    ⟨xs, t, hOk, hZeroed, hSound', hValues⟩ |
      ⟨hPos, xs, t, hError, hZeroed, hSound', hValues⟩
  · obtain ⟨hOutcome, rfl, rfl⟩ :=
      Outcome.mk.inj (hRun.symm.trans hOk)
    exact
      ⟨hSound', by simp [hValues, after, hOutcome],
        .inl hOutcome, hZeroed⟩
  · obtain ⟨hOutcome, rfl, rfl⟩ :=
      Outcome.mk.inj (hRun.symm.trans hError)
    exact
      ⟨hSound', by simp [hValues, after, hOutcome],
        .inr ⟨hOutcome, hPos⟩, hZeroed⟩

end BufferCall

/- What the buffers hold after these calls. -/
def valuesAfter (calls : List BufferCall) : BufferValues :=
  calls.foldl BufferCall.after (fun _ => none)

theorem sound_of_run
    {calls : List BufferCall}
    {m : Memory}
    (hRun : Run BufferCall.Step {} calls m) :
    m.Sound ∧ m.values = valuesAfter calls := by
  refine
    hRun.invariant_labels
      (P := fun calls m =>
        m.Sound ∧ m.values = valuesAfter calls)
      ?_ ⟨Memory.sound_empty, rfl⟩
  intro earlier m' call m'' _ hBefore hStep
  obtain ⟨hSound, hValues⟩ := hBefore
  obtain ⟨hSound', hValues', _⟩ := hStep.spec hSound
  refine ⟨hSound', ?_⟩
  rw [hValues', hValues, valuesAfter, valuesAfter,
    List.foldl_append]
  rfl

/-
  Whatever a program does with its buffers, they hold what the
  operations mean, each block that is allocated belongs to one
  buffer, an operation fails only for memory it asked for, and
  no key is in a block that is freed.
-/
theorem key_memory_owned
    {calls : List BufferCall}
    {m : Memory}
    (hRun : Run BufferCall.Step {} calls m) :
    m.values = valuesAfter calls ∧
      (∀ id buffer,
        m.objects id = some buffer →
          buffer.size = (m.bytesOf buffer).length) ∧
      (∀ a,
        m.blocks a ≠ none ↔
          ∃! id,
            ∃ buffer,
              m.objects id = some buffer ∧
                buffer.data = some a) ∧
      ∀ before call after,
        calls = before ++ call :: after →
          call.Expected (valuesAfter before) := by
  obtain ⟨hSound, hValues⟩ := sound_of_run hRun
  refine ⟨hValues, ?_, hSound.owner_unique, ?_⟩
  · intro id buffer hObject
    obtain ⟨bytes, hHolds⟩ := hSound.held id buffer hObject
    rw [hHolds.bytesOf_eq, hHolds.size_eq]
  · rintro before call after rfl
    obtain ⟨m₁, m₂, hBefore, hStep⟩ := hRun.step_at
    obtain ⟨hSound₁, hValues₁⟩ := sound_of_run hBefore
    rw [← hValues₁]
    exact (hStep.spec hSound₁).2.2

/- A heap with one address. -/
def oneAddress : Malloc
| m, size =>
    match m.blocks 7 with
    | none => some (7, List.replicate size 170)
    | some _ => none

theorem oneAddress_correct : oneAddress.Correct := by
  intro m size a contents hGiven
  cases hFree : m.blocks 7 with
  | none =>
      simp only [oneAddress, hFree, Option.some.injEq,
        Prod.mk.injEq] at hGiven
      obtain ⟨rfl, rfl⟩ := hGiven
      exact ⟨hFree, List.length_replicate⟩
  | some _ => simp [oneAddress, hFree] at hGiven

/- The key is moved, and there is no memory for a copy. -/
def movedKey : List BufferCall :=
  [{ op := .construct 0 2, outcome := .ok (), effects := [] },
    { op := .setAt 0 1 5, outcome := .ok (), effects := [] },
    { op := .moveConstruct 1 0
      outcome := .ok ()
      effects := [] },
    { op := .copyConstruct 2 1
      outcome := .error .badAlloc
      effects := [] },
    { op := .destroy 1
      outcome := .ok ()
      effects := [.freed [0, 0]] }]

def movedKeyMemory : Memory :=
  movedKey.foldl
    (fun m call => ((call.op.exec oneAddress).run m).state) {}

theorem movedKey_run :
    Run BufferCall.Step {} movedKey movedKeyMemory := by
  have hAllowed :
      Allowed
        (fun m call =>
          call.op.Allowed m.values ∧
            ((call.op.exec oneAddress).run m).result =
                call.outcome ∧
              ((call.op.exec oneAddress).run m).effects =
                call.effects)
        (fun m call =>
          ((call.op.exec oneAddress).run m).state)
        {} movedKey :=
    ⟨⟨rfl, rfl, rfl⟩, ⟨Nat.le_refl 2, rfl, rfl⟩,
      ⟨⟨rfl, rfl⟩, rfl, rfl⟩, ⟨⟨rfl, rfl⟩, rfl, rfl⟩,
      ⟨rfl, rfl, rfl⟩, trivial⟩
  refine (run_of_allowed _ _ _ _ hAllowed).mono ?_
  rintro m call m' ⟨⟨hOp, hOutcome, hEffects⟩, rfl⟩
  refine ⟨oneAddress, oneAddress_correct, hOp, ?_⟩
  rw [← hOutcome, ← hEffects]

theorem key_memory_owned_moved :
    movedKeyMemory.values = valuesAfter movedKey ∧
      (∀ id buffer,
        movedKeyMemory.objects id = some buffer →
          buffer.size =
            (movedKeyMemory.bytesOf buffer).length) ∧
      (∀ a,
        movedKeyMemory.blocks a ≠ none ↔
          ∃! id,
            ∃ buffer,
              movedKeyMemory.objects id = some buffer ∧
                buffer.data = some a) ∧
      ∀ before call after,
        movedKey = before ++ call :: after →
          call.Expected (valuesAfter before) :=
  key_memory_owned movedKey_run

end ObscuraProto
