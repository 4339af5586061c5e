import ObscuraProto.Common
import ObscuraProto.Library.Effectful

/-
  Buffers for keys, and the memory they own.

  Each buffer holds one block of the heap of libsodium, or
  none.  Blocks are allocated with whatever contents the heap
  has for them, and a block must be freed once.  The operations
  take the allocator as an argument, which may refuse.

  Key definitions include:
    * `SecureBuffer`, `Memory`
    * `SecureBuffer.allocate`, `SecureBuffer.clear`
    * `SecureBuffer.resize`, `SecureBuffer.copyAssign`

  Key theorems include:
    * `SecureBuffer.run_allocateWith`
    * `SecureBuffer.run_release`
-/

namespace ObscuraProto

open Effectful

------------------------------------------------------------
-- Memory
------------------------------------------------------------

abbrev Address : Type := Nat

abbrev ObjectId : Type := Nat

/- The fields `data_` and `size_`. -/
structure SecureBuffer where
  data : Option Address := none
  size : Nat := 0
deriving DecidableEq

/- The blocks of the heap, and the buffers that are alive. -/
structure Memory where
  blocks : Address → Option Bytes := fun _ => none
  objects : ObjectId → Option SecureBuffer := fun _ => none

/- A fault is an access that C++ leaves undefined. -/
inductive MemoryError where
| badAlloc
| fault
deriving DecidableEq

inductive MemoryEffect where
| freed (contents : Bytes)

abbrev MemoryAction (α : Type) : Type :=
  Action MemoryError MemoryEffect Memory α

/- `sodium_malloc`: an address, and what is found there. -/
abbrev Malloc : Type :=
  Memory → Nat → Option (Address × Bytes)

/- A block that is given was free, and has the right size. -/
def Malloc.Correct (malloc : Malloc) : Prop :=
  ∀ m size a contents,
    malloc m size = some (a, contents) →
      m.blocks a = none ∧ contents.length = size

namespace Memory

def setBlock
    (a : Address)
    (contents : Option Bytes)
    (m : Memory) : Memory :=
  { m with blocks := Function.update m.blocks a contents }

def setObject
    (id : ObjectId)
    (buffer : Option SecureBuffer)
    (m : Memory) : Memory :=
  { m with objects := Function.update m.objects id buffer }

/- The contents of a block that is allocated. -/
def block : Option Address → MemoryAction Bytes
| none => Action.throw .fault
| some a => do
    let m ← Action.get
    match m.blocks a with
    | none => Action.throw .fault
    | some contents => return contents

def object (id : ObjectId) : MemoryAction SecureBuffer := do
  let m ← Action.get
  match m.objects id with
  | none => Action.throw .fault
  | some buffer => return buffer

/- `memcpy` to the start of a block. -/
def write (a : Address) (bytes : Bytes) : MemoryAction Unit := do
  let contents ← block (some a)
  if bytes.length ≤ contents.length then
    Action.modify
      (setBlock a
        (some (bytes ++ contents.drop bytes.length)))
  else
    Action.throw .fault

/- `memcpy` from the start of a block. -/
def read
    (data : Option Address)
    (size : Nat) : MemoryAction Bytes := do
  let contents ← block data
  if size ≤ contents.length then
    return contents.take size
  else
    Action.throw .fault

def sodiumMemzero
    (a : Address)
    (size : Nat) : MemoryAction Unit :=
  write a (List.replicate size 0)

def sodiumFree (a : Address) : MemoryAction Unit := do
  let contents ← block (some a)
  Action.emit (.freed contents)
  Action.modify (setBlock a none)

end Memory

------------------------------------------------------------
-- The Methods
------------------------------------------------------------

namespace SecureBuffer

open Memory

def allocate
    (malloc : Malloc)
    (size : Nat) : MemoryAction SecureBuffer := do
  let m ← Action.get
  match malloc m size with
  | none => Action.throw .badAlloc
  | some (a, contents) =>
      Action.modify (setBlock a (some contents))
      sodiumMemzero a size
      return { data := some a, size := size }

/- `clear`, on the fields of a buffer. -/
def release (buffer : SecureBuffer) : MemoryAction Unit :=
  match buffer.data with
  | none => return ()
  | some a => do
      sodiumMemzero a buffer.size
      sodiumFree a

def clear (id : ObjectId) : MemoryAction Unit := do
  let buffer ← object id
  release buffer
  if buffer.data.isSome then
    Action.modify (setObject id (some {}))

def make
    (malloc : Malloc)
    (size : Nat) : MemoryAction SecureBuffer :=
  if size > 0 then
    allocate malloc size
  else
    return {}

/- The constructor for a size. -/
def new
    (malloc : Malloc)
    (id : ObjectId)
    (size : Nat) : MemoryAction Unit := do
  let buffer ← make malloc size
  Action.modify (setObject id (some buffer))

/- Fresh memory with the given contents. -/
def allocateWith
    (malloc : Malloc)
    (id : ObjectId)
    (bytes : Bytes) : MemoryAction Unit := do
  let buffer ← allocate malloc bytes.length
  match buffer.data with
  | none => Action.throw .fault
  | some a => write a bytes
  Action.modify (setObject id (some buffer))

/- The copy constructor. -/
def copy
    (malloc : Malloc)
    (id other : ObjectId) : MemoryAction Unit := do
  let source ← object other
  if source.size > 0 then
    let bytes ← read source.data source.size
    allocateWith malloc id bytes
  else
    Action.modify (setObject id (some {}))

def copyAssign
    (malloc : Malloc)
    (id other : ObjectId) : MemoryAction Unit :=
  if id = other then
    return ()
  else do
    clear id
    let source ← object other
    if source.size > 0 then
      let bytes ← read source.data source.size
      allocateWith malloc id bytes

/- The fields are taken, and the other buffer is empty. -/
def takeFields (id other : ObjectId) : MemoryAction Unit := do
  let source ← object other
  Action.modify (setObject id (some source))
  Action.modify (setObject other (some {}))

def moveAssign (id other : ObjectId) : MemoryAction Unit :=
  if id = other then
    return ()
  else do
    clear id
    takeFields id other

/- The `memcpy` of `resize`, if there is something to copy. -/
def copyInto
    (tmp buffer : SecureBuffer)
    (copySize : Nat) : MemoryAction Unit :=
  match tmp.data, buffer.data with
  | some a, some a' =>
      if copySize > 0 then do
        let bytes ← read (some a') copySize
        write a bytes
      else
        return ()
  | _, _ => return ()

/- The old block is freed with the temporary buffer. -/
def resize
    (malloc : Malloc)
    (id : ObjectId)
    (newSize : Nat) : MemoryAction Unit := do
  let buffer ← object id
  if newSize = buffer.size then
    return ()
  else
    let tmp ← make malloc newSize
    copyInto tmp buffer (min newSize buffer.size)
    Action.modify (setObject id (some tmp))
    release buffer

/- The source is not part of a buffer. -/
def assign
    (malloc : Malloc)
    (id : ObjectId)
    (bytes : Bytes) : MemoryAction Unit := do
  clear id
  if bytes.length > 0 then
    allocateWith malloc id bytes

def destroy (id : ObjectId) : MemoryAction Unit := do
  clear id
  Action.modify (setObject id none)

/- An assignment to `buffer[i]`. -/
def setAt
    (id : ObjectId)
    (i : Nat)
    (byte : UInt8) : MemoryAction Unit := do
  let buffer ← object id
  match buffer.data with
  | none => Action.throw .fault
  | some a => do
      let contents ← block (some a)
      if i < contents.length then
        Action.modify
          (setBlock a (some (contents.set i byte)))
      else
        Action.throw .fault

end SecureBuffer

------------------------------------------------------------
-- Executions
------------------------------------------------------------

namespace Memory

variable {m : Memory} {a : Address} {contents : Bytes}

theorem run_block
    (hBlock : m.blocks a = some contents) :
    (block (some a)).run m =
      { result := .ok contents, effects := [], state := m } := by
  simp [block, hBlock]

theorem run_object
    {id : ObjectId}
    {buffer : SecureBuffer}
    (hObject : m.objects id = some buffer) :
    (object id).run m =
      { result := .ok buffer, effects := [], state := m } := by
  simp [object, hObject]

theorem run_write
    {bytes : Bytes}
    (hBlock : m.blocks a = some contents)
    (hFits : bytes.length ≤ contents.length) :
    (write a bytes).run m =
      { result := .ok ()
        effects := []
        state :=
          m.setBlock a
            (some (bytes ++ contents.drop bytes.length)) } := by
  rw [write, Action.run_bind_ok (run_block hBlock)]
  simp [hFits, Action.modify]

/- The whole block is written. -/
theorem run_write_all
    {bytes : Bytes}
    (hBlock : m.blocks a = some contents)
    (hFits : bytes.length = contents.length) :
    (write a bytes).run m =
      { result := .ok ()
        effects := []
        state := m.setBlock a (some bytes) } := by
  rw [run_write hBlock hFits.le, hFits]
  simp

theorem run_read
    {size : Nat}
    (hBlock : m.blocks a = some contents)
    (hFits : size ≤ contents.length) :
    (read (some a) size).run m =
      { result := .ok (contents.take size)
        effects := []
        state := m } := by
  rw [read, Action.run_bind_ok (run_block hBlock)]
  simp [hFits]

theorem run_sodiumFree
    (hBlock : m.blocks a = some contents) :
    (sodiumFree a).run m =
      { result := .ok ()
        effects := [.freed contents]
        state := m.setBlock a none } := by
  rw [sodiumFree, Action.run_bind_ok (run_block hBlock)]
  rfl

end Memory

namespace Memory

variable (m : Memory) (a : Address) (id : ObjectId)

@[simp] theorem blocks_setBlock (contents : Option Bytes) :
    (m.setBlock a contents).blocks =
      Function.update m.blocks a contents :=
  rfl

@[simp] theorem objects_setBlock
    (contents : Option Bytes) :
    (m.setBlock a contents).objects = m.objects :=
  rfl

@[simp] theorem blocks_setObject
    (buffer : Option SecureBuffer) :
    (m.setObject id buffer).blocks = m.blocks :=
  rfl

@[simp] theorem objects_setObject
    (buffer : Option SecureBuffer) :
    (m.setObject id buffer).objects =
      Function.update m.objects id buffer :=
  rfl

@[simp] theorem setBlock_setBlock
    (contents contents' : Option Bytes) :
    (m.setBlock a contents).setBlock a contents' =
      m.setBlock a contents' := by
  simp [setBlock]

@[simp] theorem setBlock_blocks :
    m.setBlock a (m.blocks a) = m := by
  simp [setBlock]

theorem setBlock_setObject
    (contents : Option Bytes)
    (buffer : Option SecureBuffer) :
    (m.setObject id buffer).setBlock a contents =
      (m.setBlock a contents).setObject id buffer :=
  rfl

end Memory

namespace SecureBuffer

open Memory

variable {m : Memory} {a : Address} {contents : Bytes}

theorem run_allocate
    {malloc : Malloc}
    {size : Nat}
    (hGiven : malloc m size = some (a, contents))
    (hSize : contents.length = size) :
    (allocate malloc size).run m =
      { result := .ok { data := some a, size := size }
        effects := []
        state :=
          m.setBlock a (some (List.replicate size 0)) } := by
  have hZero :
      (sodiumMemzero a size).run
          (m.setBlock a (some contents)) =
        { result := .ok ()
          effects := []
          state :=
            m.setBlock a
              (some (List.replicate size 0)) } := by
    rw [sodiumMemzero,
      @run_write_all _ a contents _
        (by simp) (by simp [hSize]),
      setBlock_setBlock]
  simp only [allocate, Action.run_get_bind, hGiven]
  rw [Action.run_modify_bind, Action.run_bind_ok hZero]
  rfl

theorem run_allocate_refused
    {malloc : Malloc}
    {size : Nat}
    (hRefused : malloc m size = none) :
    (allocate malloc size).run m =
      { result := .error .badAlloc
        effects := []
        state := m } := by
  simp [allocate, hRefused]

theorem run_allocateWith
    {malloc : Malloc}
    {bytes : Bytes}
    (id : ObjectId)
    (hGiven : malloc m bytes.length = some (a, contents))
    (hSize : contents.length = bytes.length) :
    (allocateWith malloc id bytes).run m =
      { result := .ok ()
        effects := []
        state :=
          (m.setBlock a (some bytes)).setObject id
            (some { data := some a
                    size := bytes.length }) } := by
  rw [allocateWith,
    Action.run_bind_ok (run_allocate hGiven hSize)]
  simp only
  rw [Action.run_bind_ok
    (@run_write_all _ a (List.replicate bytes.length 0) _
      (by simp) (by simp))]
  simp [Action.modify]

theorem run_allocateWith_refused
    {malloc : Malloc}
    {bytes : Bytes}
    (id : ObjectId)
    (hRefused : malloc m bytes.length = none) :
    (allocateWith malloc id bytes).run m =
      { result := .error .badAlloc
        effects := []
        state := m } := by
  rw [allocateWith,
    Action.run_bind_error (run_allocate_refused hRefused)]

/- What the block held is overwritten before it is freed. -/
theorem run_release
    {buffer : SecureBuffer}
    (hData : buffer.data = some a)
    (hBlock : m.blocks a = some contents)
    (hSize : contents.length = buffer.size) :
    (release buffer).run m =
      { result := .ok ()
        effects := [.freed (List.replicate buffer.size 0)]
        state := m.setBlock a none } := by
  have hZero :
      (sodiumMemzero a buffer.size).run m =
        { result := .ok ()
          effects := []
          state :=
            m.setBlock a
              (some (List.replicate buffer.size 0)) } := by
    rw [sodiumMemzero,
      run_write_all hBlock (by simp [hSize])]
  simp only [release, hData]
  rw [Action.run_bind_ok hZero,
    @run_sodiumFree _ a (List.replicate buffer.size 0)
      (by simp)]
  simp

theorem run_release_empty
    {buffer : SecureBuffer}
    (hData : buffer.data = none) :
    (release buffer).run m =
      { result := .ok (), effects := [], state := m } := by
  simp [release, hData]

end SecureBuffer

end ObscuraProto
