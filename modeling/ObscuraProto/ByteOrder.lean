import ObscuraProto.Common

/-
  The byte order conversions of a little-endian host.

  `htons` and its relatives in `Common` stand for a
  conversion together with the byte copy that follows it.
  Here the two are apart: an integer is stored with its low
  byte first, the conversions of the system swap its bytes,
  and those for 64 bits are composed by hand from the ones
  for 32 bits.

  Key definitions include:
    * `Host.store`, `Host.load`
    * `Host.swap16`, `Host.swap32`
    * `Host.htonllLocal`, `Host.ntohllLocal`

  Key theorems include:
    * `Host.store_htons`, `Host.store_htonl`
    * `Host.store_htonllLocal`
    * `Host.ntohllLocal_load`
-/

namespace ObscuraProto

namespace Host

/- The object representation of an integer of `w` bytes. -/
def store (w n : Nat) : Bytes :=
  (BigEndian.encode w n).reverse

/- The integer that such bytes are copied into. -/
def load (bytes : Bytes) : Nat :=
  BigEndian.decode bytes.reverse

/- `htons` and `ntohs` swap the bytes. -/
def swap16 (n : UInt16) : UInt16 :=
  UInt16.ofNat (load (BigEndian.encode 2 n.toNat))

/- `htonl` and `ntohl`. -/
def swap32 (n : UInt32) : UInt32 :=
  UInt32.ofNat (load (BigEndian.encode 4 n.toNat))

/- `htonll_local`; `ntohll_local` has the same body. -/
def htonllLocal (val : UInt64) : UInt64 :=
  ((swap32 val.toUInt32).toUInt64 <<< 32) +
    (swap32 (val >>> 32).toUInt32).toUInt64

def ntohllLocal (val : UInt64) : UInt64 :=
  ((swap32 val.toUInt32).toUInt64 <<< 32) +
    (swap32 (val >>> 32).toUInt32).toUInt64

------------------------------------------------------------
-- Storing and Loading
------------------------------------------------------------

/- What is loaded is stored as it was. -/
theorem store_load
    {w : Nat}
    {bytes : Bytes}
    (hLength : bytes.length = w) :
    store w (load bytes) = bytes := by
  have hEncode := BigEndian.encode_decode bytes.reverse
  rw [List.length_reverse, hLength] at hEncode
  rw [store, load, hEncode, List.reverse_reverse]

theorem load_store (w n : Nat) :
    load (store w n) = n % 256 ^ w := by
  rw [load, store, List.reverse_reverse,
    BigEndian.decode_encode_mod]

theorem load_lt (bytes : Bytes) :
    load bytes < 256 ^ bytes.length := by
  have hBelow := BigEndian.decode_lt bytes.reverse
  rw [List.length_reverse] at hBelow
  exact hBelow

/- The low bytes come first. -/
theorem store_add (v w n : Nat) :
    store (v + w) n = store w n ++ store v (n / 256 ^ w) := by
  rw [store, BigEndian.encode_add, List.reverse_append]
  rfl

/- Only the low bytes of the value are stored. -/
theorem store_mod (w n : Nat) :
    store w (n % 256 ^ w) = store w n := by
  have hEncode :=
    BigEndian.encode_decode (BigEndian.encode w n)
  rw [BigEndian.length_encode,
    BigEndian.decode_encode_mod] at hEncode
  rw [store, store, hEncode]

------------------------------------------------------------
-- The Conversions
------------------------------------------------------------

/- A copy of the swapped value is the big-endian form. -/
theorem store_htons (n : UInt16) :
    store 2 (swap16 n).toNat = htons n := by
  have hBelow := load_lt (BigEndian.encode 2 n.toNat)
  rw [BigEndian.length_encode] at hBelow
  rw [swap16, UInt16.toNat_ofNat_of_lt' hBelow]
  exact store_load (BigEndian.length_encode 2 n.toNat)

theorem store_htonl (n : UInt32) :
    store 4 (swap32 n).toNat = htonl n := by
  have hBelow := load_lt (BigEndian.encode 4 n.toNat)
  rw [BigEndian.length_encode] at hBelow
  rw [swap32, UInt32.toNat_ofNat_of_lt' hBelow]
  exact store_load (BigEndian.length_encode 4 n.toNat)

/- The two halves change places and are swapped each. -/
theorem toNat_htonllLocal (val : UInt64) :
    (htonllLocal val).toNat =
      (swap32 val.toUInt32).toNat * 256 ^ 4 +
        (swap32 (val >>> 32).toUInt32).toNat := by
  have hHigh := (swap32 val.toUInt32).toNat_lt
  have hLow := (swap32 (val >>> 32).toUInt32).toNat_lt
  have hShift :
      (swap32 val.toUInt32).toNat <<< 32 =
        (swap32 val.toUInt32).toNat * 2 ^ 32 :=
    Nat.shiftLeft_eq _ _
  simp only [htonllLocal, UInt64.toNat_add,
    UInt64.toNat_shiftLeft, UInt32.toNat_toUInt64]
  rw [show (32 : UInt64).toNat % 64 = 32 from rfl, hShift]
  omega

theorem store_htonllLocal (val : UInt64) :
    store 8 (htonllLocal val).toNat =
      ObscuraProto.htonllLocal val := by
  have hHigh :
      (val >>> 32).toUInt32.toNat = val.toNat / 256 ^ 4 := by
    have hBelow := val.toNat_lt
    rw [UInt64.toNat_toUInt32, UInt64.toNat_shiftRight]
    rw [show (32 : UInt64).toNat % 64 = 32 from rfl,
      Nat.shiftRight_eq_div_pow]
    omega
  have hSwapped :
      (swap32 (val >>> 32).toUInt32).toNat < 256 ^ 4 := by
    have hBelow := (swap32 (val >>> 32).toUInt32).toNat_lt
    omega
  have hLowHalf :
      store 4 (htonllLocal val).toNat =
        htonl (val >>> 32).toUInt32 := by
    rw [← store_mod, toNat_htonllLocal, Nat.mul_comm,
      Nat.mul_add_mod, Nat.mod_eq_of_lt hSwapped]
    exact store_htonl _
  have hHighHalf :
      store 4 ((htonllLocal val).toNat / 256 ^ 4) =
        htonl val.toUInt32 := by
    rw [toNat_htonllLocal, Nat.mul_comm,
      Nat.mul_add_div (by decide), Nat.div_eq_of_lt hSwapped]
    exact store_htonl _
  rw [store_add 4 4, hLowHalf, hHighHalf]
  rw [ObscuraProto.htonllLocal, BigEndian.encode_add 4 4,
    htonl, htonl, hHigh]
  congr 1
  have hEncode :=
    BigEndian.encode_decode (BigEndian.encode 4 val.toNat)
  rw [BigEndian.length_encode,
    BigEndian.decode_encode_mod] at hEncode
  rw [UInt64.toNat_toUInt32]
  exact hEncode

/- And eight copied bytes are read as a big-endian number. -/
theorem ntohllLocal_load
    {bytes : Bytes}
    (hLength : bytes.length = 8) :
    ntohllLocal (UInt64.ofNat (load bytes)) =
      ObscuraProto.ntohllLocal bytes := by
  have hBelow := load_lt bytes
  rw [hLength] at hBelow
  have hSame :
      ntohllLocal (UInt64.ofNat (load bytes)) =
        htonllLocal (UInt64.ofNat (load bytes)) :=
    rfl
  have hStore :=
    store_htonllLocal (UInt64.ofNat (load bytes))
  rw [← hSame, ObscuraProto.htonllLocal,
    UInt64.toNat_ofNat_of_lt' hBelow] at hStore
  have hBytes :
      BigEndian.encode 8 (load bytes) = bytes.reverse := by
    have hBack := store_load hLength
    rw [store] at hBack
    rw [← List.reverse_reverse
      (BigEndian.encode 8 (load bytes)), hBack]
  have hResult :
      (ntohllLocal (UInt64.ofNat (load bytes))).toNat <
        256 ^ 8 := by
    have hSmall :=
      (ntohllLocal (UInt64.ofNat (load bytes))).toNat_lt
    omega
  have hRead := congrArg load hStore
  rw [load_store, hBytes,
    Nat.mod_eq_of_lt hResult] at hRead
  rw [ObscuraProto.ntohllLocal, ← UInt64.ofNat_toNat
    (x := ntohllLocal (UInt64.ofNat (load bytes))), hRead,
    load, List.reverse_reverse]

end Host

end ObscuraProto
