import ObscuraProto.Library.BigEndian
import ObscuraProto.Library.OrderedMap
import Mathlib.Data.List.Sublists

/-
  Shared vocabulary of the library: byte vectors, fixed-width
  integers in network byte order, ordered maps, the exception
  hierarchy, key containers, and protocol versions.

  Key definitions include:
    * `Bytes`, `Map`, `slice`
    * `htons`, `ntohs`, `htonl`, `ntohl`
    * `htonllLocal`, `ntohllLocal`
    * `Exception`
    * `PublicKey`, `PrivateKey`, `KeyPair`, `Signature`
    * `VersionNegotiator.negotiate`
-/

namespace ObscuraProto

------------------------------------------------------------
-- Bytes and Maps
------------------------------------------------------------

/- `byte_vector` and `EncryptedPacket`. -/
abbrev Bytes := List UInt8

/- `std::map`; iteration follows the key order. -/
abbrev Map (K V : Type) [Ord K] :=
  Std.ExtTreeMap K V

/- The `n` bytes that start at `offset`, or fewer. -/
def slice (data : Bytes) (offset n : Nat) : Bytes :=
  (data.drop offset).take n

/- `std::copy` of `n` bytes that must all be there. -/
def copy? (data : Bytes) (offset n : Nat) : Option Bytes :=
  if offset + n ≤ data.length then
    some (slice data offset n)
  else
    none

theorem copy?_eq_some
    {data : Bytes}
    {offset n : Nat}
    (hInside : offset + n ≤ data.length) :
    copy? data offset n = some (slice data offset n) :=
  if_pos hInside

/- A slice and what follows it. -/
theorem slice_append_drop
    (data : Bytes)
    (offset n : Nat) :
    slice data offset n ++ data.drop (offset + n) =
      data.drop offset := by
  rw [slice, ← List.drop_drop, List.take_append_drop]

theorem length_slice
    {data : Bytes}
    {offset n : Nat}
    (hInside : offset + n ≤ data.length) :
    (slice data offset n).length = n := by
  rw [slice, List.length_take, List.length_drop]
  omega

/-
  `hton` followed by a byte copy writes the big-endian form,
  on either host byte order.
-/
def htons (n : UInt16) : Bytes :=
  BigEndian.encode 2 n.toNat

def ntohs (bytes : Bytes) : UInt16 :=
  UInt16.ofNat (BigEndian.decode bytes)

def htonl (n : UInt32) : Bytes :=
  BigEndian.encode 4 n.toNat

def ntohl (bytes : Bytes) : UInt32 :=
  UInt32.ofNat (BigEndian.decode bytes)

def htonllLocal (n : UInt64) : Bytes :=
  BigEndian.encode 8 n.toNat

def ntohllLocal (bytes : Bytes) : UInt64 :=
  UInt64.ofNat (BigEndian.decode bytes)

@[simp] theorem length_htons (n : UInt16) :
    (htons n).length = 2 :=
  BigEndian.length_encode _ _

@[simp] theorem length_htonl (n : UInt32) :
    (htonl n).length = 4 :=
  BigEndian.length_encode _ _

@[simp] theorem length_htonllLocal (n : UInt64) :
    (htonllLocal n).length = 8 :=
  BigEndian.length_encode _ _

@[simp] theorem ntohs_htons (n : UInt16) :
    ntohs (htons n) = n := by
  have hFits : n.toNat < 256 ^ 2 := n.toNat_lt
  rw [ntohs, htons, BigEndian.decode_encode hFits,
    UInt16.ofNat_toNat]

/- Two bytes are the form of the number they denote. -/
theorem htons_ntohs
    {bytes : Bytes}
    (hLength : bytes.length = 2) :
    htons (ntohs bytes) = bytes := by
  have hBelow := BigEndian.decode_lt bytes
  rw [hLength] at hBelow
  have hEncode := BigEndian.encode_decode bytes
  rw [hLength] at hEncode
  rw [htons, ntohs, UInt16.toNat_ofNat_of_lt' hBelow, hEncode]

@[simp] theorem ntohl_htonl (n : UInt32) :
    ntohl (htonl n) = n := by
  have hFits : n.toNat < 256 ^ 4 := n.toNat_lt
  rw [ntohl, htonl, BigEndian.decode_encode hFits,
    UInt32.ofNat_toNat]

theorem htonllLocal_ntohllLocal
    {bytes : Bytes}
    (hLength : bytes.length = 8) :
    htonllLocal (ntohllLocal bytes) = bytes := by
  have hBelow := BigEndian.decode_lt bytes
  rw [hLength] at hBelow
  have hEncode := BigEndian.encode_decode bytes
  rw [hLength] at hEncode
  rw [htonllLocal, ntohllLocal,
    UInt64.toNat_ofNat_of_lt' hBelow, hEncode]

@[simp] theorem ntohllLocal_htonllLocal (n : UInt64) :
    ntohllLocal (htonllLocal n) = n := by
  have hFits : n.toNat < 256 ^ 8 := n.toNat_lt
  rw [ntohllLocal, htonllLocal,
    BigEndian.decode_encode hFits, UInt64.ofNat_toNat]

------------------------------------------------------------
-- Exceptions
------------------------------------------------------------

/-
  The exceptions the library throws or lets through.
  `InvalidArgument` derives from `LogicError` and
  `TimeoutError` from `RuntimeError`; `transport` stands for
  a `websocketpp::exception`, and `user` for a
  `std::exception` thrown by a user callback.
-/
inductive Exception where
| runtimeError (msg : String)
| logicError (msg : String)
| invalidArgument (msg : String)
| timeoutError (msg : String)
| transport (msg : String)
| user (msg : String)
deriving DecidableEq, Repr

/- A condition on the value of a call can be evaluated. -/
instance decidableForallOk
    {ε α : Type}
    (x : Except ε α)
    (p : α → Prop)
    [DecidablePred p] :
    Decidable (∀ a, x = .ok a → p a) :=
  match x with
  | .error _ => isTrue (by simp)
  | .ok a => decidable_of_iff (p a) (by simp)

instance decidableForallSome
    {α : Type}
    (x : Option α)
    (p : α → Prop)
    [DecidablePred p] :
    Decidable (∀ a, x = some a → p a) :=
  match x with
  | none => isTrue (by simp)
  | some a => decidable_of_iff (p a) (by simp)

------------------------------------------------------------
-- Keys
------------------------------------------------------------

structure PublicKey where
  data : Bytes
deriving DecidableEq, Repr

structure PrivateKey where
  data : Bytes
deriving DecidableEq, Repr

structure KeyPair where
  publicKey : PublicKey
  privateKey : PrivateKey
deriving DecidableEq, Repr

structure Signature where
  data : Bytes
deriving DecidableEq, Repr

namespace PublicKey

/- `operator<` compares the byte vectors. -/
instance : Ord PublicKey where
  compare a b := compare a.data b.data

instance : Std.TransOrd PublicKey where
  eq_swap := by
    intro a b
    exact Std.OrientedOrd.eq_swap
      (a := a.data) (b := b.data)
  isLE_trans := by
    intro a b c hab hbc
    exact Std.TransOrd.isLE_trans
      (a := a.data) (b := b.data) (c := c.data) hab hbc

instance : Std.LawfulEqOrd PublicKey where
  compare_self := by
    intro a
    exact Std.ReflOrd.compare_self (a := a.data)
  eq_of_compare := by
    intro a b h
    cases a
    cases b
    exact congrArg PublicKey.mk
      (Std.LawfulEqOrd.eq_of_compare h)

end PublicKey

------------------------------------------------------------
-- Protocol Versions
------------------------------------------------------------

/- Version 1.0 is 0x0100, version 1.1 is 0x0101. -/
abbrev Version := UInt16

namespace Versions

def v1_0 : Version := 0x0100

def v1_1 : Version := 0x0101

end Versions

/- `SUPPORTED_VERSIONS`, in descending order of preference. -/
def supportedVersions : List Version :=
  [Versions.v1_1, Versions.v1_0]

namespace VersionNegotiator

/- The first client version that the server also lists. -/
def negotiate :
    List Version → List Version → Option Version
| [], _ => none
| clientVersion :: rest, serverVersions =>
    if serverVersions.any (clientVersion == ·) then
      some clientVersion
    else
      negotiate rest serverVersions

/- A negotiated version stands in both lists. -/
theorem negotiate_mem
    {clientVersions serverVersions : List Version}
    {v : Version}
    (hNegotiate :
      negotiate clientVersions serverVersions = some v) :
    v ∈ clientVersions ∧ v ∈ serverVersions := by
  induction clientVersions with
  | nil => simp [negotiate] at hNegotiate
  | cons clientVersion rest ih =>
      rw [negotiate] at hNegotiate
      split at hNegotiate
      · next hShared =>
          cases hNegotiate
          simpa using hShared
      · have hRest := ih hNegotiate
        exact ⟨List.mem_cons_of_mem _ hRest.1, hRest.2⟩

theorem negotiate_eq_find?
    (clientVersions serverVersions : List Version) :
    negotiate clientVersions serverVersions =
      clientVersions.find? (· ∈ serverVersions) := by
  induction clientVersions with
  | nil => rfl
  | cons clientVersion rest ih =>
      rw [negotiate, ih, List.find?_cons]
      by_cases hShared : clientVersion ∈ serverVersions
      · have hAny :
            serverVersions.any (clientVersion == ·) =
              true := by
          simpa using hShared
        simp [hShared, hAny]
      · have hAny :
            serverVersions.any (clientVersion == ·) =
              false := by
          simp only [List.any_eq_false, beq_iff_eq]
          rintro version hMem rfl
          exact hShared hMem
        simp [hShared, hAny]

end VersionNegotiator

end ObscuraProto
