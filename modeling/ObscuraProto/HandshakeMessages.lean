import ObscuraProto.Packet

/-
  The two handshake messages and their byte formats.

  `ClientHello` carries the version list, the client's
  ephemeral key and, when flagged, the client identity with
  its signature; `ServerHello` carries the selected version,
  the server's ephemeral key and the server's signature.

  Key definitions include:
    * `ClientHello.serialize`, `ClientHello.deserialize`
    * `ServerHello.serialize`, `ServerHello.deserialize`

  Key theorems include:
    * `ClientHello.deserialize_serialize`
    * `ServerHello.deserialize_serialize`
-/

namespace ObscuraProto

------------------------------------------------------------
-- Client Hello
------------------------------------------------------------

structure ClientHello where
  supportedVersions : List Version
  ephemeralPk : PublicKey
  hasClientIdentity : Bool := false
  identityPk : PublicKey := ⟨[]⟩
  identitySig : Signature := ⟨[]⟩
deriving DecidableEq, Repr

namespace ClientHello

/-
  The version count is cast to 16 bits, the versions are
  written in full.
-/
def serialize (hello : ClientHello) : Bytes :=
  htons (UInt16.ofNat hello.supportedVersions.length) ++
    hello.supportedVersions.flatMap htons ++
    hello.ephemeralPk.data ++
    [if hello.hasClientIdentity then 1 else 0] ++
    if hello.hasClientIdentity then
      hello.identityPk.data ++ hello.identitySig.data
    else
      []

/- The version loop of `deserialize`. -/
def readVersions (data : Bytes) : Nat → Nat → List Version
| 0, _ => []
| n + 1, offset =>
    ntohs (slice data offset 2) ::
      readVersions data n (offset + 2)

def deserialize (data : Bytes) :
    Except Exception ClientHello :=
  if data.length < 2 then
    .error (.runtimeError
      "Invalid ClientHello data: too short for version count.")
  else
    let numVersions := (ntohs (slice data 0 2)).toNat
    let offset := 2
    if data.length < offset + numVersions * 2 then
      .error (.runtimeError
        "Invalid ClientHello data: too short for versions.")
    else
      let versions := readVersions data numVersions offset
      let offset := offset + numVersions * 2
      if data.length < offset + 32 then
        .error (.runtimeError
          "Invalid ClientHello data: too short for public key.")
      else
        let ephemeralPk := PublicKey.mk (slice data offset 32)
        let offset := offset + 32
        if data.length ≤ offset then
          .error (.runtimeError
            "Invalid ClientHello data: too short for identity flag.")
        else
          let hasClientIdentity := data.getD offset 0 != 0
          let offset := offset + 1
          if hasClientIdentity then
            if data.length < offset + 32 then
              .error (.runtimeError
                "Invalid ClientHello data: too short for identity public key.")
            else
              let identityPk :=
                PublicKey.mk (slice data offset 32)
              let offset := offset + 32
              if data.length < offset + 64 then
                .error (.runtimeError
                  "Invalid ClientHello data: too short for identity signature.")
              else
                .ok
                  { supportedVersions := versions
                    ephemeralPk := ephemeralPk
                    hasClientIdentity := true
                    identityPk := identityPk
                    identitySig :=
                      ⟨slice data offset 64⟩ }
          else
            .ok
              { supportedVersions := versions
                ephemeralPk := ephemeralPk }

/- The encoded versions are read back one by one. -/
theorem readVersions_append
    (versions : List Version)
    (pre rest : Bytes) :
    readVersions (pre ++ versions.flatMap htons ++ rest)
        versions.length pre.length = versions := by
  induction versions generalizing pre with
  | nil => rfl
  | cons version versions ih =>
      have hHead :
          slice
              (pre ++ (version :: versions).flatMap htons ++
                rest) pre.length 2 = htons version := by
        simp [slice, List.append_assoc]
      have hTail := ih (pre ++ htons version)
      simp only [List.length_append, length_htons] at hTail
      simp only [List.length_cons, readVersions, hHead,
        ntohs_htons]
      congr 1
      simpa only [List.flatMap_cons, List.append_assoc]
        using hTail

/- What a hello carries after its versions. -/
def body (hello : ClientHello) : Bytes :=
  hello.ephemeralPk.data ++
    [if hello.hasClientIdentity then 1 else 0] ++
    if hello.hasClientIdentity then
      hello.identityPk.data ++ hello.identitySig.data
    else
      []

theorem serialize_eq (hello : ClientHello) :
    hello.serialize =
      htons (UInt16.ofNat hello.supportedVersions.length) ++
        hello.supportedVersions.flatMap htons ++
        hello.body := by
  simp [serialize, body, List.append_assoc]

/-
  The fields of a hello that a session can send: sized keys,
  and empty identity fields when the flag is not set.
-/
structure WellSized (hello : ClientHello) : Prop where
  count : hello.supportedVersions.length ≤ 65535
  ephemeral : hello.ephemeralPk.data.length = 32
  identity :
    hello.hasClientIdentity = true →
      hello.identityPk.data.length = 32 ∧
        hello.identitySig.data.length = 64
  anonymous :
    hello.hasClientIdentity = false →
      hello.identityPk = ⟨[]⟩ ∧ hello.identitySig = ⟨[]⟩

theorem drop_versions (hello : ClientHello) :
    hello.serialize.drop
        (2 + hello.supportedVersions.length * 2) =
      hello.body := by
  have hFront :
      (htons (UInt16.ofNat hello.supportedVersions.length) ++
          hello.supportedVersions.flatMap htons).length =
        2 + hello.supportedVersions.length * 2 := by
    simp
  rw [serialize_eq, ← hFront, List.drop_left]

theorem length_body
    {hello : ClientHello}
    (hSized : hello.WellSized) :
    hello.body.length =
      33 + if hello.hasClientIdentity then 96 else 0 := by
  unfold body
  split
  · next hFlag =>
      have hIdentity := hSized.identity hFlag
      simp [hSized.ephemeral, hIdentity.1, hIdentity.2]
  · simp [hSized.ephemeral]

/- A hello is read back from its bytes. -/
theorem deserialize_serialize
    {hello : ClientHello}
    (hSized : hello.WellSized) :
    deserialize hello.serialize = .ok hello := by
  have hCount :
      (ntohs (slice hello.serialize 0 2)).toNat =
        hello.supportedVersions.length := by
    have hHead :
        slice hello.serialize 0 2 =
          htons
            (UInt16.ofNat hello.supportedVersions.length) := by
      simp [slice, serialize]
    have hFits := hSized.count
    rw [hHead, ntohs_htons]
    apply UInt16.toNat_ofNat_of_lt
    change _ < 65536
    omega
  have hVersions :
      readVersions hello.serialize
          hello.supportedVersions.length 2 =
        hello.supportedVersions := by
    rw [serialize_eq]
    simpa only [length_htons] using
      readVersions_append hello.supportedVersions
        (htons
          (UInt16.ofNat hello.supportedVersions.length))
        hello.body
  have hBody := drop_versions hello
  have hBodyLength := length_body hSized
  have hLength :
      hello.serialize.length =
        2 + hello.supportedVersions.length * 2 +
          hello.body.length := by
    rw [serialize_eq, List.length_append]
    simp
  have hSlice :
      ∀ offset n,
        slice hello.serialize
            (2 + hello.supportedVersions.length * 2 +
              offset) n =
          slice hello.body offset n := by
    intro offset n
    rw [slice, ← List.drop_drop, hBody, slice]
  have hKey :
      slice hello.serialize
          (2 + hello.supportedVersions.length * 2) 32 =
        hello.ephemeralPk.data := by
    have hFirst := hSlice 0 32
    rw [Nat.add_zero] at hFirst
    rw [hFirst]
    simp [slice, body, ← hSized.ephemeral]
  have hFlag :
      hello.serialize.getD
          (2 + hello.supportedVersions.length * 2 + 32) 0 =
        if hello.hasClientIdentity then 1 else 0 := by
    have hByte :
        hello.serialize[
            2 + hello.supportedVersions.length * 2 + 32]? =
          hello.body[32]? := by
      rw [← hBody, List.getElem?_drop]
    rw [List.getD_eq_getElem?_getD, hByte]
    simp [body, ← hSized.ephemeral]
  have hShort : ¬ hello.serialize.length < 2 := by
    omega
  have hRoom :
      ¬ hello.serialize.length <
        2 + hello.supportedVersions.length * 2 := by
    omega
  have hKeyRoom :
      ¬ hello.serialize.length <
        2 + hello.supportedVersions.length * 2 + 32 := by
    omega
  have hFlagRoom :
      ¬ hello.serialize.length ≤
        2 + hello.supportedVersions.length * 2 + 32 := by
    omega
  unfold deserialize
  simp only [hCount, hVersions, hShort, hRoom, hKeyRoom,
    hFlagRoom, hKey, hFlag, if_false]
  cases hIdentity : hello.hasClientIdentity with
  | false =>
      have hEmpty := hSized.anonymous hIdentity
      rcases hello with ⟨versions, pk, flag, idPk, idSig⟩
      simp_all
  | true =>
      have hSizes := hSized.identity hIdentity
      rw [hIdentity, if_pos rfl] at hBodyLength
      have hRest :
          hello.body.drop 33 =
            hello.identityPk.data ++
              hello.identitySig.data := by
        simp only [body, hIdentity, if_true]
        exact List.drop_left' (by simp [hSized.ephemeral])
      have hPk :
          slice hello.serialize
              (2 + hello.supportedVersions.length * 2 + 32 +
                1) 32 =
            hello.identityPk.data := by
        rw [Nat.add_assoc _ 32 1, hSlice, slice, hRest]
        exact List.take_left' hSizes.1
      have hSig :
          slice hello.serialize
              (2 + hello.supportedVersions.length * 2 + 32 +
                1 + 32) 64 =
            hello.identitySig.data := by
        rw [Nat.add_assoc _ 32 1, Nat.add_assoc _ 33 32,
          hSlice, slice, ← List.drop_drop, hRest,
          List.drop_left' hSizes.1]
        exact List.take_of_length_le hSizes.2.le
      have hPkRoom :
          ¬ hello.serialize.length <
            2 + hello.supportedVersions.length * 2 + 32 + 1 +
              32 := by
        omega
      have hSigRoom :
          ¬ hello.serialize.length <
            2 + hello.supportedVersions.length * 2 + 32 + 1 +
              32 + 64 := by
        omega
      rcases hello with ⟨versions, pk, flag, idPk, idSig⟩
      simp_all

end ClientHello

------------------------------------------------------------
-- Server Hello
------------------------------------------------------------

structure ServerHello where
  selectedVersion : Version
  ephemeralPk : PublicKey
  signature : Signature
deriving DecidableEq, Repr

namespace ServerHello

def serialize (hello : ServerHello) : Bytes :=
  htons hello.selectedVersion ++
    hello.ephemeralPk.data ++
    hello.signature.data

def deserialize (data : Bytes) :
    Except Exception ServerHello :=
  if data.length < 2 then
    .error (.runtimeError
      "Invalid ServerHello data: too short for version.")
  else
    let selectedVersion := ntohs (slice data 0 2)
    let offset := 2
    if data.length < offset + 32 then
      .error (.runtimeError
        "Invalid ServerHello data: too short for public key.")
    else
      let ephemeralPk := PublicKey.mk (slice data offset 32)
      let offset := offset + 32
      if data.length < offset + 64 then
        .error (.runtimeError
          "Invalid ServerHello data: too short for signature.")
      else
        .ok
          { selectedVersion := selectedVersion
            ephemeralPk := ephemeralPk
            signature := ⟨slice data offset 64⟩ }

/- A well-sized hello is read back from its bytes. -/
theorem deserialize_serialize
    {hello : ServerHello}
    (hPk : hello.ephemeralPk.data.length = 32)
    (hSig : hello.signature.data.length = 64) :
    deserialize hello.serialize = .ok hello := by
  have hVersion :
      slice hello.serialize 0 2 =
        htons hello.selectedVersion := by
    simp [slice, serialize]
  have hKey :
      slice hello.serialize 2 32 =
        hello.ephemeralPk.data := by
    simp [slice, serialize, ← hPk]
  have hSignature :
      slice hello.serialize 34 64 =
        hello.signature.data := by
    have hDrop :
        hello.serialize.drop 34 = hello.signature.data := by
      simp [serialize, List.drop_append, hPk]
    rw [slice, hDrop, ← hSig, List.take_length]
  have hLength : hello.serialize.length = 98 := by
    simp [serialize, hPk, hSig]
  simp [deserialize, hLength, hVersion, hKey, hSignature]

end ServerHello

end ObscuraProto
