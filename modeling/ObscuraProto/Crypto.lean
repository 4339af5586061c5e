import ObscuraProto.HandshakeMessages

/-
  The cryptographic wrapper around libsodium.

  libsodium itself is the parameter `Sodium`; random values
  (key pairs, nonces) are arguments, so a run fixes them.
  The size checks, the packet layout and the errors are the
  library's own.

  Key definitions include:
    * `Sodium`, `Sodium.AeadCorrect`
    * `Crypto.sign`, `Crypto.verify`
    * `Crypto.clientComputeSessionKeys`
    * `Crypto.serverComputeSessionKeys`
    * `Crypto.encrypt`, `Crypto.decrypt`

  Key theorems include:
    * `Crypto.encrypt_of_size`
    * `Crypto.decrypt_eq_ok_iff`
    * `Crypto.decrypt_packet`
-/

namespace ObscuraProto

------------------------------------------------------------
-- Primitives
------------------------------------------------------------

/- Both directional keys have `crypto_kx_SESSIONKEYBYTES`. -/
structure SessionKeys where
  rx : Bytes
  tx : Bytes
  rx_size : rx.length = 32
  tx_size : tx.length = 32
deriving DecidableEq

/- The result of `randombytes_buf` on a nonce buffer. -/
structure Nonce where
  data : Bytes
  size : data.length = 12
deriving DecidableEq

/- A buffer of zeros is a nonce as well. -/
def Nonce.zero : Nonce :=
  ⟨List.replicate 12 0, rfl⟩

/- The result of `crypto_kx_keypair`. -/
structure KxKeyPair where
  keyPair : KeyPair
  public_size : keyPair.publicKey.data.length = 32
  private_size : keyPair.privateKey.data.length = 32
deriving DecidableEq

/-
  The libsodium functions the library calls.  `none` stands
  for a non-zero return code.
-/
structure Sodium where
  /- `crypto_sign_detached`: message, private key. -/
  signDetached : Bytes → Bytes → Bytes
  length_signDetached :
    ∀ message privateKey,
      (signDetached message privateKey).length = 64
  /- `crypto_sign_verify_detached`: signature, message, key. -/
  signVerifyDetached : Bytes → Bytes → Bytes → Bool
  /- Client public, client private, server public key. -/
  kxClientSessionKeys :
    Bytes → Bytes → Bytes → Option SessionKeys
  /- Server public, server private, client public key. -/
  kxServerSessionKeys :
    Bytes → Bytes → Bytes → Option SessionKeys
  /- Plaintext, associated data, nonce, key. -/
  aeadEncrypt : Bytes → Bytes → Bytes → Bytes → Bytes
  length_aeadEncrypt :
    ∀ plaintext ad nonce key,
      (aeadEncrypt plaintext ad nonce key).length =
        plaintext.length + 16
  /- Ciphertext with tag, associated data, nonce, key. -/
  aeadDecrypt :
    Bytes → Bytes → Bytes → Bytes → Option Bytes

namespace Sodium

/- Opening inverts sealing for equal key, nonce and data. -/
def AeadCorrect (S : Sodium) : Prop :=
  ∀ plaintext ad nonce key : Bytes,
    nonce.length = 12 → key.length = 32 →
      S.aeadDecrypt (S.aeadEncrypt plaintext ad nonce key)
        ad nonce key = some plaintext

/- The AEAD accepts the body of `packet` under `key`. -/
def Opens (S : Sodium) (key packet : Bytes) : Prop :=
  36 ≤ packet.length ∧
    (S.aeadDecrypt (packet.drop 20) (slice packet 12 8)
      (slice packet 0 12) key).isSome = true

instance (S : Sodium) (key packet : Bytes) :
    Decidable (S.Opens key packet) := by
  unfold Opens
  infer_instance

end Sodium

------------------------------------------------------------
-- Signatures and Key Exchange
------------------------------------------------------------

namespace Crypto

variable (S : Sodium)

def generateKxKeypair (kx : KxKeyPair) : KeyPair :=
  kx.keyPair

def sign
    (message : Bytes)
    (privateKey : PrivateKey) :
    Except Exception Signature :=
  if privateKey.data.length ≠ 64 then
    .error (.invalidArgument
      "Invalid private key size for signing.")
  else
    .ok ⟨S.signDetached message privateKey.data⟩

def verify
    (signature : Signature)
    (message : Bytes)
    (publicKey : PublicKey) : Bool :=
  if signature.data.length ≠ 64 ∨
      publicKey.data.length ≠ 32 then
    false
  else
    S.signVerifyDetached signature.data message
      publicKey.data

def clientComputeSessionKeys
    (clientKxKp : KeyPair)
    (serverEphPk : PublicKey) :
    Except Exception SessionKeys :=
  if clientKxKp.publicKey.data.length ≠ 32 ∨
      clientKxKp.privateKey.data.length ≠ 32 ∨
      serverEphPk.data.length ≠ 32 then
    .error (.invalidArgument
      "Invalid key sizes for client session key computation.")
  else
    match S.kxClientSessionKeys clientKxKp.publicKey.data
        clientKxKp.privateKey.data serverEphPk.data with
    | none =>
        .error (.runtimeError
          "Failed to compute client session keys.")
    | some keys => .ok keys

def serverComputeSessionKeys
    (serverKxKp : KeyPair)
    (clientEphPk : PublicKey) :
    Except Exception SessionKeys :=
  if serverKxKp.publicKey.data.length ≠ 32 ∨
      serverKxKp.privateKey.data.length ≠ 32 ∨
      clientEphPk.data.length ≠ 32 then
    .error (.invalidArgument
      "Invalid key sizes for server session key computation.")
  else
    match S.kxServerSessionKeys serverKxKp.publicKey.data
        serverKxKp.privateKey.data clientEphPk.data with
    | none =>
        .error (.runtimeError
          "Failed to compute server session keys.")
    | some keys => .ok keys

------------------------------------------------------------
-- Authenticated Encryption
------------------------------------------------------------

/- Layout: nonce (12), big-endian counter (8), ciphertext. -/
def packet
    (nonce : Nonce)
    (payload : Payload)
    (counter : UInt64)
    (key : Bytes) : Bytes :=
  nonce.data ++ htonllLocal counter ++
    S.aeadEncrypt payload.serialize (htonllLocal counter)
      nonce.data key

def encrypt
    (nonce : Nonce)
    (payload : Payload)
    (counter : UInt64)
    (key : Bytes) : Except Exception Bytes :=
  if key.length ≠ 32 then
    .error (.invalidArgument
      "Invalid key size for encryption.")
  else
    .ok (packet S nonce payload counter key)

structure DecryptedResult where
  payload : Payload
  counter : UInt64
deriving DecidableEq

def decrypt
    (packet key : Bytes) :
    Except Exception DecryptedResult :=
  if key.length ≠ 32 then
    .error (.invalidArgument
      "Invalid key size for decryption.")
  else if packet.length < 20 + 16 then
    .error (.runtimeError "Packet too small to be valid.")
  else
    let nonce := slice packet 0 12
    let beCounter := slice packet 12 8
    match S.aeadDecrypt (packet.drop 20) beCounter nonce
        key with
    | none =>
        .error (.runtimeError
          "Failed to decrypt message. Authentication tag may be invalid.")
    | some decryptedPayloadData =>
        match Payload.deserialize decryptedPayloadData with
        | .error e => .error e
        | .ok payload =>
            .ok
              { payload := payload
                counter := ntohllLocal beCounter }

theorem encrypt_of_size
    (nonce : Nonce)
    (payload : Payload)
    (counter : UInt64)
    {key : Bytes}
    (hKey : key.length = 32) :
    encrypt S nonce payload counter key =
      .ok (packet S nonce payload counter key) := by
  simp [encrypt, hKey]

@[simp] theorem slice_packet_nonce
    (nonce : Nonce)
    (payload : Payload)
    (counter : UInt64)
    (key : Bytes) :
    slice (packet S nonce payload counter key) 0 12 =
      nonce.data := by
  have hNonce := nonce.size
  simp [slice, packet, ← hNonce]

@[simp] theorem slice_packet_counter
    (nonce : Nonce)
    (payload : Payload)
    (counter : UInt64)
    (key : Bytes) :
    slice (packet S nonce payload counter key) 12 8 =
      htonllLocal counter := by
  have hDrop :
      (packet S nonce payload counter key).drop 12 =
        htonllLocal counter ++
          S.aeadEncrypt payload.serialize
            (htonllLocal counter) nonce.data key := by
    simp [packet, ← nonce.size]
  simp [slice, hDrop]

@[simp] theorem drop_packet
    (nonce : Nonce)
    (payload : Payload)
    (counter : UInt64)
    (key : Bytes) :
    (packet S nonce payload counter key).drop 20 =
      S.aeadEncrypt payload.serialize (htonllLocal counter)
        nonce.data key := by
  have hHeader :
      (nonce.data ++ htonllLocal counter).length = 20 := by
    simp [nonce.size]
  rw [packet, ← hHeader, List.drop_left]

theorem length_packet
    (nonce : Nonce)
    (payload : Payload)
    (counter : UInt64)
    (key : Bytes) :
    (packet S nonce payload counter key).length =
      38 + payload.parameters.length := by
  simp [packet, nonce.size, S.length_aeadEncrypt]
  omega

/- What a successful decryption establishes. -/
theorem decrypt_eq_ok_iff
    (packet key : Bytes)
    (result : DecryptedResult) :
    decrypt S packet key = .ok result ↔
      key.length = 32 ∧
        36 ≤ packet.length ∧
        ∃ plaintext,
          S.aeadDecrypt (packet.drop 20) (slice packet 12 8)
              (slice packet 0 12) key = some plaintext ∧
            Payload.deserialize plaintext =
              .ok result.payload ∧
            result.counter =
              ntohllLocal (slice packet 12 8) := by
  unfold decrypt
  by_cases hKey : key.length = 32
  · by_cases hSize : packet.length < 20 + 16
    · simp only [hKey, hSize, ne_eq, not_true, if_false,
        if_true]
      constructor
      · intro hError
        cases hError
      · rintro ⟨_, hLong, _⟩
        omega
    · have hLong : 36 ≤ packet.length := by omega
      simp only [hKey, hSize, hLong, ne_eq, not_true,
        if_false, true_and]
      cases S.aeadDecrypt (packet.drop 20)
          (slice packet 12 8) (slice packet 0 12) key with
      | none => simp
      | some plaintext =>
          cases hPlain : Payload.deserialize plaintext with
          | error e => simp [hPlain]
          | ok payload =>
              cases result
              simp [hPlain, eq_comm]
  · simp [hKey]

/- A decrypted packet was accepted by the AEAD. -/
theorem opens_of_decrypt
    {packet key : Bytes}
    {result : DecryptedResult}
    (hDecrypt : decrypt S packet key = .ok result) :
    S.Opens key packet := by
  rcases (decrypt_eq_ok_iff S packet key result).mp
      hDecrypt with
    ⟨_, hLong, plaintext, hPlain, _, _⟩
  exact ⟨hLong, by simp [hPlain]⟩

/- A sealed packet opens to its payload and counter. -/
theorem decrypt_packet
    (hCorrect : S.AeadCorrect)
    (nonce : Nonce)
    (payload : Payload)
    (counter : UInt64)
    {key : Bytes}
    (hKey : key.length = 32) :
    decrypt S (packet S nonce payload counter key) key =
      .ok { payload := payload, counter := counter } := by
  apply (decrypt_eq_ok_iff S _ _ _).mpr
  refine ⟨hKey, ?_, payload.serialize, ?_, ?_, ?_⟩
  · rw [length_packet]
    omega
  · rw [slice_packet_nonce, slice_packet_counter,
      drop_packet]
    exact hCorrect _ _ _ _ nonce.size hKey
  · exact Payload.deserialize_serialize payload
  · rw [slice_packet_counter, ntohllLocal_htonllLocal]

end Crypto

end ObscuraProto
