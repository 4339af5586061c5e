import ObscuraProto.Crypto

/-
  A transparent instance of the primitives.

  It has the sizes and the algebraic laws of libsodium but no
  secrecy, and it computes by list operations alone, so that
  concrete runs of the model can be evaluated.

  Key definitions include:
    * `PlainSodium.fit`
    * `PlainSodium.sampleKeyPair`, `PlainSodium.sampleKx`
    * `PlainSodium.sampleHello`
    * `plainSodium`

  Key theorems include:
    * `plainSodium_aeadCorrect`
-/

namespace ObscuraProto

namespace PlainSodium

/- The first `n` bytes, padded with zeros. -/
def fit (n : Nat) (bytes : Bytes) : Bytes :=
  (bytes ++ List.replicate n 0).take n

@[simp] theorem length_fit (n : Nat) (bytes : Bytes) :
    (fit n bytes).length = n := by
  simp [fit]

/- The signer's public half, then the message. -/
def signature (publicKey message : Bytes) : Bytes :=
  fit 32 publicKey ++ fit 32 message

/- A directional key names both ephemeral keys. -/
def sessionKey
    (direction : UInt8)
    (clientPk serverPk : Bytes) : Bytes :=
  fit 32
    (direction :: fit 15 clientPk ++ fit 15 serverPk)

/- The tag binds the associated data and the key. -/
def tag (ad key : Bytes) : Bytes :=
  fit 8 ad ++ fit 8 key

@[simp] theorem length_tag (ad key : Bytes) :
    (tag ad key).length = 16 := by
  simp [tag]

/- An Ed25519 key pair with the public half stored twice. -/
def sampleKeyPair (label : UInt8) : KeyPair where
  publicKey := ⟨List.replicate 32 label⟩
  privateKey :=
    ⟨List.replicate 32 0 ++ List.replicate 32 label⟩

def sampleKx (label : UInt8) : KxKeyPair where
  keyPair :=
    { publicKey := ⟨List.replicate 32 label⟩
      privateKey := ⟨List.replicate 32 0⟩ }
  public_size := rfl
  private_size := rfl

/- The first message of a client with the key `label`. -/
def sampleHello (label ephemeral : UInt8) : ClientHello where
  supportedVersions := supportedVersions
  ephemeralPk := ⟨List.replicate 32 ephemeral⟩
  hasClientIdentity := true
  identityPk := ⟨List.replicate 32 label⟩
  identitySig :=
    ⟨signature (List.replicate 32 label)
      (List.replicate 32 ephemeral)⟩

end PlainSodium

open PlainSodium in
def plainSodium : Sodium where
  signDetached message privateKey :=
    signature (privateKey.drop 32) message
  length_signDetached := by
    intro message privateKey
    simp [signature]
  signVerifyDetached sig message publicKey :=
    sig == signature publicKey message
  kxClientSessionKeys clientPk _ serverPk :=
    some
      { rx := sessionKey 2 clientPk serverPk
        tx := sessionKey 1 clientPk serverPk
        rx_size := by simp [sessionKey]
        tx_size := by simp [sessionKey] }
  kxServerSessionKeys serverPk _ clientPk :=
    some
      { rx := sessionKey 1 clientPk serverPk
        tx := sessionKey 2 clientPk serverPk
        rx_size := by simp [sessionKey]
        tx_size := by simp [sessionKey] }
  aeadEncrypt plaintext ad _ key := plaintext ++ tag ad key
  length_aeadEncrypt := by
    intro plaintext ad nonce key
    simp
  aeadDecrypt ciphertext ad _ key :=
    let n := ciphertext.length - 16
    if ciphertext.drop n = tag ad key then
      some (ciphertext.take n)
    else
      none

theorem plainSodium_aeadCorrect :
    plainSodium.AeadCorrect := by
  intro plaintext ad nonce key _ _
  simp [plainSodium]

end ObscuraProto
