import ObscuraProto.ByteOrder
import ObscuraProto.PlainSodium

/-
  The encryption envelope.

  Both sides compute offsets, lengths and byte order on their
  own.  Here they work on buffers, with every copy checked to
  stay inside and every difference checked not to be
  negative; they compute what `encrypt` and `decrypt` do, and
  a packet is accepted exactly when it is the header and the
  sealed form of the payload that is returned.

  Key definitions include:
    * `write?`, `sub?`
    * `Crypto.encryptInPlace`, `Crypto.decryptInPlace`

  Key theorems include:
    * `Payload.deserialize_eq_ok_iff`
    * `Crypto.encryptInPlace_eq`
    * `Crypto.decryptInPlace_eq`
    * `Crypto.decrypt_eq_ok_iff_sealed`
    * `Envelope.envelope`
-/

namespace ObscuraProto

------------------------------------------------------------
-- Buffers
------------------------------------------------------------

/- `std::copy` into a buffer that must have the room. -/
def write?
    (buffer : Bytes)
    (offset : Nat)
    (bytes : Bytes) : Option Bytes :=
  if offset + bytes.length ≤ buffer.length then
    some
      (buffer.take offset ++
        (bytes ++ buffer.drop (offset + bytes.length)))
  else
    none

/- A difference of lengths that must not be negative. -/
def sub? (m n : Nat) : Option Nat :=
  if n ≤ m then
    some (m - n)
  else
    none

/- Bytes of the same length are replaced. -/
theorem write?_replace
    (old : Bytes)
    {buffer front rest bytes : Bytes}
    {offset : Nat}
    (hBuffer : buffer = front ++ (old ++ rest))
    (hOffset : front.length = offset)
    (hLength : old.length = bytes.length) :
    write? buffer offset bytes =
      some (front ++ (bytes ++ rest)) := by
  have hRoom : offset + bytes.length ≤ buffer.length := by
    rw [hBuffer]
    simp only [List.length_append]
    omega
  rw [write?, if_pos hRoom, hBuffer, ← List.drop_drop,
    List.take_left' hOffset, List.drop_left' hOffset,
    List.drop_left' hLength]

theorem sub?_of_le
    {m n : Nat}
    (hLe : n ≤ m) :
    sub? m n = some (m - n) :=
  if_pos hLe

------------------------------------------------------------
-- Payloads
------------------------------------------------------------

/- A payload is read from its serialization only. -/
theorem Payload.deserialize_eq_ok_iff
    (data : Bytes)
    (p : Payload) :
    Payload.deserialize data = .ok p ↔
      data = p.serialize := by
  constructor
  · intro hRead
    unfold Payload.deserialize at hRead
    split at hRead
    · cases hRead
    next hLong =>
    have hHead : (data.take 2).length = 2 := by
      rw [List.length_take]
      omega
    cases hRead
    rw [Payload.serialize, htons_ntohs hHead,
      List.take_append_drop]
  · intro hData
    rw [hData, Payload.deserialize_serialize]

namespace Crypto

variable (S : Sodium)

------------------------------------------------------------
-- Sealing
------------------------------------------------------------

/-
  `encrypt` on the buffer it allocates: the ciphertext is
  written behind the header, which is filled in last.
-/
def encryptInPlace
    (nonce : Nonce)
    (payload : Payload)
    (counter : UInt64)
    (key : Bytes) : Option (Except Exception Bytes) :=
  if key.length ≠ 32 then
    some (.error (.invalidArgument
      "Invalid key size for encryption."))
  else do
    let plaintext := payload.serialize
    let beCounter :=
      Host.store 8 (Host.htonllLocal counter).toNat
    let packet :=
      List.replicate (12 + 8 + plaintext.length + 16) 0
    let packet ←
      write? packet (12 + 8)
        (S.aeadEncrypt plaintext beCounter nonce.data key)
    let packet ← write? packet 0 nonce.data
    let packet ← write? packet 12 beCounter
    some (.ok packet)

theorem encryptInPlace_eq
    (nonce : Nonce)
    (payload : Payload)
    (counter : UInt64)
    (key : Bytes) :
    encryptInPlace S nonce payload counter key =
      some (encrypt S nonce payload counter key) := by
  unfold encryptInPlace encrypt
  split
  · rfl
  rw [Host.store_htonllLocal]
  let sealed :=
    S.aeadEncrypt payload.serialize (htonllLocal counter)
      nonce.data key
  let room := payload.serialize.length + 16
  have hCiphertext :
      write?
          (List.replicate
            (12 + 8 + payload.serialize.length + 16) 0)
          (12 + 8) sealed =
        some (List.replicate 20 0 ++ (sealed ++ [])) := by
    apply write?_replace (List.replicate room 0)
    · rw [List.append_nil, List.replicate_append_replicate]
      congr 1
    · rw [List.length_replicate]
    · rw [List.length_replicate, S.length_aeadEncrypt]
  have hNonce :
      write? (List.replicate 20 0 ++ (sealed ++ [])) 0
          nonce.data =
        some
          ([] ++
            (nonce.data ++
              (List.replicate 8 0 ++ (sealed ++ [])))) := by
    apply write?_replace (List.replicate 12 0)
    · rfl
    · rfl
    · rw [List.length_replicate, nonce.size]
  have hCounter :
      write?
          ([] ++
            (nonce.data ++
              (List.replicate 8 0 ++ (sealed ++ [])))) 12
          (htonllLocal counter) =
        some
          (nonce.data ++
            (htonllLocal counter ++ (sealed ++ []))) := by
    apply write?_replace (List.replicate 8 0)
    · rfl
    · exact nonce.size
    · rw [List.length_replicate, length_htonllLocal]
  simp only [Option.bind_eq_bind]
  rw [hCiphertext]
  simp only [Option.bind_some]
  rw [hNonce]
  simp only [Option.bind_some]
  rw [hCounter, packet, List.append_nil, List.append_assoc]
  rfl

------------------------------------------------------------
-- Opening
------------------------------------------------------------

/-
  `decrypt` in the same way.  The primitive writes what it
  opens to a buffer of the expected length, which is then
  cut to the length it reports.
-/
def decryptInPlace
    (packet key : Bytes) :
    Option (Except Exception DecryptedResult) :=
  if key.length ≠ 32 then
    some (.error (.invalidArgument
      "Invalid key size for decryption."))
  else if packet.length < 20 + 16 then
    some (.error (.runtimeError
      "Packet too small to be valid."))
  else do
    let nonce ← copy? packet 0 12
    let beCounter ← copy? packet 12 8
    let receivedCounter :=
      Host.ntohllLocal (UInt64.ofNat (Host.load beCounter))
    let ciphertextWithTagLen ← sub? packet.length 20
    let ciphertextWithTag ←
      copy? packet 20 ciphertextWithTagLen
    let room ← sub? ciphertextWithTagLen 16
    match S.aeadDecrypt ciphertextWithTag beCounter nonce
        key with
    | none =>
        some (.error (.runtimeError
          "Failed to decrypt message. Authentication tag may be invalid."))
    | some decrypted =>
        let buffer :=
          decrypted ++
            (List.replicate room 0).drop decrypted.length
        match Payload.deserialize
            (buffer.take decrypted.length) with
        | .error e => some (.error e)
        | .ok payload =>
            some (.ok
              { payload := payload
                counter := receivedCounter })

theorem decryptInPlace_eq (packet key : Bytes) :
    decryptInPlace S packet key =
      some (decrypt S packet key) := by
  unfold decryptInPlace decrypt
  split
  · rfl
  split
  · rfl
  next hLong =>
  have hCounter : (slice packet 12 8).length = 8 :=
    length_slice (by omega)
  have hRest :
      slice packet 20 (packet.length - 20) =
        packet.drop 20 := by
    apply List.take_of_length_le
    rw [List.length_drop]
  rw [copy?_eq_some (by omega), copy?_eq_some (by omega),
    sub?_of_le (by omega)]
  simp only [Option.bind_eq_bind, Option.bind_some]
  rw [copy?_eq_some (by omega), sub?_of_le (by omega)]
  simp only [Option.bind_some, hRest,
    Host.ntohllLocal_load hCounter, List.take_left]
  cases S.aeadDecrypt (packet.drop 20) (slice packet 12 8)
      (slice packet 0 12) key with
  | none => rfl
  | some decrypted =>
      cases hPayload : Payload.deserialize decrypted with
      | error e => simp only [hPayload]
      | ok payload => simp only [hPayload]

/- What is accepted is a header and a sealed payload. -/
theorem decrypt_eq_ok_iff_sealed
    (packet key : Bytes)
    (p : Payload)
    (c : UInt64) :
    decrypt S packet key =
        .ok { payload := p, counter := c } ↔
      key.length = 32 ∧
        36 ≤ packet.length ∧
          slice packet 12 8 = htonllLocal c ∧
            S.aeadDecrypt (packet.drop 20) (htonllLocal c)
                (slice packet 0 12) key =
              some p.serialize := by
  rw [decrypt_eq_ok_iff]
  constructor
  · rintro ⟨hKey, hLong, plaintext, hOpens, hPlain, hCounter⟩
    have hBytes : slice packet 12 8 = htonllLocal c := by
      have hLength : (slice packet 12 8).length = 8 :=
        length_slice (by omega)
      have hValue : c = ntohllLocal (slice packet 12 8) :=
        hCounter
      rw [hValue, htonllLocal_ntohllLocal hLength]
    have hPayload : plaintext = p.serialize :=
      (Payload.deserialize_eq_ok_iff plaintext p).mp hPlain
    refine ⟨hKey, hLong, hBytes, ?_⟩
    rw [← hBytes, ← hPayload]
    exact hOpens
  · rintro ⟨hKey, hLong, hBytes, hOpens⟩
    refine ⟨hKey, hLong, p.serialize, ?_, ?_, ?_⟩
    · rw [hBytes]
      exact hOpens
    · exact Payload.deserialize_serialize p
    · rw [hBytes, ntohllLocal_htonllLocal]

end Crypto

------------------------------------------------------------
-- The Envelope
------------------------------------------------------------

namespace Envelope

/-
  A sealed packet has the stated layout and opens to what
  was sealed.  Opening never leaves the packet, and accepts
  exactly a long enough packet whose body opens, under its
  nonce and with its counter as associated data, to the
  serialization of the payload.
-/
theorem envelope
    (S : Sodium)
    (hCorrect : S.AeadCorrect) :
    (∀ nonce payload counter key,
        Crypto.encryptInPlace S nonce payload counter key =
            some
              (Crypto.encrypt S nonce payload counter key) ∧
          (key.length = 32 →
            ∃ body : Bytes,
              body.length = payload.serialize.length + 16 ∧
                Crypto.encrypt S nonce payload counter key =
                    .ok
                      (nonce.data ++ htonllLocal counter ++
                        body) ∧
                  Crypto.decrypt S
                      (nonce.data ++ htonllLocal counter ++
                        body) key =
                    .ok
                      { payload := payload
                        counter := counter })) ∧
      ∀ packet key,
        Crypto.decryptInPlace S packet key =
            some (Crypto.decrypt S packet key) ∧
          ∀ p c,
            Crypto.decrypt S packet key =
                .ok { payload := p, counter := c } ↔
              key.length = 32 ∧
                36 ≤ packet.length ∧
                  slice packet 12 8 = htonllLocal c ∧
                    S.aeadDecrypt (packet.drop 20)
                        (htonllLocal c) (slice packet 0 12)
                        key =
                      some p.serialize := by
  refine ⟨fun nonce payload counter key => ⟨?_, ?_⟩,
    fun packet key => ⟨?_, ?_⟩⟩
  · exact
      Crypto.encryptInPlace_eq S nonce payload counter key
  · intro hKey
    refine
      ⟨S.aeadEncrypt payload.serialize (htonllLocal counter)
        nonce.data key, ?_, ?_, ?_⟩
    · exact S.length_aeadEncrypt _ _ _ _
    · exact
        Crypto.encrypt_of_size S nonce payload counter hKey
    · exact
        Crypto.decrypt_packet S hCorrect nonce payload counter
          hKey
  · exact Crypto.decryptInPlace_eq S packet key
  · exact Crypto.decrypt_eq_ok_iff_sealed S packet key

/- An empty payload and one of two parameters. -/
theorem envelope_two_payloads :
    (∃ packet,
        Crypto.encrypt plainSodium
              ⟨List.replicate 12 5, rfl⟩ ⟨7, []⟩ 9
              (List.replicate 32 3) =
            .ok packet ∧
          packet.length = 38 ∧
            Crypto.decrypt plainSodium packet
                (List.replicate 32 3) =
              .ok { payload := ⟨7, []⟩, counter := 9 }) ∧
      ∃ packet,
        Crypto.encrypt plainSodium
              ⟨List.replicate 12 6, rfl⟩
              ⟨0x1001, [0, 2, 104, 105, 0, 1, 255]⟩ 0x0102
              (List.replicate 32 4) =
            .ok packet ∧
          packet.length = 45 ∧
            Crypto.decrypt plainSodium packet
                (List.replicate 32 4) =
              .ok
                { payload :=
                    ⟨0x1001, [0, 2, 104, 105, 0, 1, 255]⟩
                  counter := 0x0102 } := by
  constructor
  · rcases
        ((envelope plainSodium plainSodium_aeadCorrect).1
          ⟨List.replicate 12 5, rfl⟩ ⟨7, []⟩ 9
          (List.replicate 32 3)).2 rfl with
      ⟨body, hLength, hEncrypt, hDecrypt⟩
    refine ⟨_, hEncrypt, ?_, hDecrypt⟩
    rw [List.length_append, List.length_append, hLength,
      length_htonllLocal]
    rfl
  · rcases
        ((envelope plainSodium plainSodium_aeadCorrect).1
          ⟨List.replicate 12 6, rfl⟩
          ⟨0x1001, [0, 2, 104, 105, 0, 1, 255]⟩ 0x0102
          (List.replicate 32 4)).2 rfl with
      ⟨body, hLength, hEncrypt, hDecrypt⟩
    refine ⟨_, hEncrypt, ?_, hDecrypt⟩
    rw [List.length_append, List.length_append, hLength,
      length_htonllLocal]
    rfl

end Envelope

end ObscuraProto
