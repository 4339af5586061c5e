import ObscuraProto.Library.OrderedMap
import ObscuraProto.Messages
import ObscuraProto.Session

/-
  What both WebSocket wrappers share: connection handles,
  frames, promises, handlers and the steady clock.

  Key definitions include:
    * `Hdl`, `Frame`
    * `PromiseId`, `Completion`
    * `TimePoint`, `nowMs`, `nowUs`
    * `StreamRef`, `Dispatchers`
    * `NestedMap`

  Key theorems include:
    * `NestedMap.lookupAt_insertAt`
    * `NestedMap.lookupAt_eraseAt`
-/

namespace ObscuraProto

/- `WsConnectionHdl`, ordered by ownership. -/
abbrev Hdl := Nat

/- A WebSocket message; `binary` is `BINDATA_OPCODE`. -/
structure Frame where
  binary : Bool := true
  payload : Bytes
deriving DecidableEq

/-
  The shared state of a `std::promise`: every request call
  makes one of its own.
-/
abbrev PromiseId := Nat

/- `set_value` or `set_exception` on a promise. -/
structure Completion where
  promise : PromiseId
  result : Except Exception Payload

/- A `shared_ptr<Stream>`: an index into the stream objects. -/
abbrev StreamRef := Nat

/- An empty `std::function` is registered as `none`. -/
abbrev HandlerTable := Map OpCode (Option HandlerId)

/- The handlers of one kind of session. -/
structure Dispatchers where
  opCodeHandlers : HandlerTable := ∅
  requestHandlers : HandlerTable := ∅
  defaultPayloadHandler : Option HandlerId := none
  streamHandlers : HandlerTable := ∅

/- A reading of the steady clock, in nanoseconds. -/
abbrev TimePoint := Nat

def nowMs (t : TimePoint) : Int :=
  (t / 1000000 : Nat)

def nowUs (t : TimePoint) : Int :=
  (t / 1000 : Nat)

/- `std::chrono::milliseconds` added to a reading. -/
def afterMs (t : TimePoint) (ms : UInt32) : TimePoint :=
  t + ms.toNat * 1000000

------------------------------------------------------------
-- Nested Maps
------------------------------------------------------------

/- A map per connection, keyed by request or stream. -/
abbrev NestedMap (V : Type) := Map Hdl (Map UInt32 V)

namespace NestedMap

variable {V : Type}

/- `outer[hdl][id] = value`. -/
def insertAt
    (hdl : Hdl)
    (id : UInt32)
    (value : V)
    (outer : NestedMap V) : NestedMap V :=
  outer.insert hdl ((outer[hdl]?.getD ∅).insert id value)

/- Erase `id` in the inner map of `hdl`, if there is one. -/
def eraseAt
    (hdl : Hdl)
    (id : UInt32)
    (outer : NestedMap V) : NestedMap V :=
  match outer[hdl]? with
  | none => outer
  | some inner => outer.insert hdl (inner.erase id)

/- Erase the inner map of `hdl` if nothing is left in it. -/
def pruneAt
    (hdl : Hdl)
    (outer : NestedMap V) : NestedMap V :=
  match outer[hdl]? with
  | none => outer
  | some inner =>
      if inner.isEmpty then
        outer.erase hdl
      else
        outer

/- Find `hdl`, then `id` in its inner map. -/
def lookupAt
    (hdl : Hdl)
    (id : UInt32)
    (outer : NestedMap V) : Option V :=
  match outer[hdl]? with
  | none => none
  | some inner => inner[id]?

/- What is found after an insertion or a removal. -/
theorem lookupAt_insertAt
    (hdl hdl' : Hdl)
    (id id' : UInt32)
    (value : V)
    (outer : NestedMap V) :
    lookupAt hdl' id' (insertAt hdl id value outer) =
      if hdl' = hdl ∧ id' = id then
        some value
      else
        lookupAt hdl' id' outer := by
  unfold lookupAt insertAt
  by_cases hHdl : hdl' = hdl
  · subst hHdl
    rw [Std.ExtTreeMap.getElem?_insert_self]
    by_cases hId : id' = id
    · subst hId
      simp
    · simp only [hId, and_false, if_false]
      rw [OrderedMap.getElem?_insert_of_ne hId]
      cases outer[hdl']? with
      | none => simp
      | some inner => rfl
  · rw [OrderedMap.getElem?_insert_of_ne hHdl]
    simp [hHdl]

theorem lookupAt_eraseAt
    (hdl hdl' : Hdl)
    (id id' : UInt32)
    (outer : NestedMap V) :
    lookupAt hdl' id' (eraseAt hdl id outer) =
      if hdl' = hdl ∧ id' = id then
        none
      else
        lookupAt hdl' id' outer := by
  unfold lookupAt eraseAt
  cases hInner : outer[hdl]? with
  | none =>
      by_cases hHdl : hdl' = hdl
      · subst hHdl
        simp [hInner]
      · simp [hHdl]
  | some inner =>
      by_cases hHdl : hdl' = hdl
      · subst hHdl
        simp only [Std.ExtTreeMap.getElem?_insert_self,
          true_and, hInner]
        by_cases hId : id' = id
        · subst hId
          simp
        · rw [OrderedMap.getElem?_erase_of_ne hId,
            if_neg hId]
      · simp only [hHdl, false_and, if_false]
        rw [OrderedMap.getElem?_insert_of_ne hHdl]

theorem lookupAt_erase
    (hdl hdl' : Hdl)
    (id' : UInt32)
    (outer : NestedMap V) :
    lookupAt hdl' id' (outer.erase hdl) =
      if hdl' = hdl then
        none
      else
        lookupAt hdl' id' outer := by
  unfold lookupAt
  by_cases hHdl : hdl' = hdl
  · subst hHdl
    simp
  · rw [OrderedMap.getElem?_erase_of_ne hHdl, if_neg hHdl]

/- Only inner maps without entries are dropped. -/
theorem lookupAt_pruneAt
    (hdl hdl' : Hdl)
    (id' : UInt32)
    (outer : NestedMap V) :
    lookupAt hdl' id' (pruneAt hdl outer) =
      lookupAt hdl' id' outer := by
  unfold lookupAt pruneAt
  cases hInner : outer[hdl]? with
  | none => rfl
  | some inner =>
      by_cases hEmpty : inner.isEmpty = true
      · simp only [if_pos hEmpty]
        by_cases hHdl : hdl' = hdl
        · subst hHdl
          have hNone : inner[id']? = none := by
            rw [Std.ExtTreeMap.isEmpty_iff.mp hEmpty]
            exact Std.ExtTreeMap.getElem?_empty
          simp only [Std.ExtTreeMap.getElem?_erase_self,
            hInner, hNone]
        · simp only [OrderedMap.getElem?_erase_of_ne hHdl]
      · simp only [if_neg hEmpty]

end NestedMap

end ObscuraProto
