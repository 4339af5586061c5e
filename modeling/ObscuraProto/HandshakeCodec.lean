import ObscuraProto.HandshakeMessages

/-
  The languages of the two handshake messages.

  A message is accepted exactly when the bytes begin with a
  complete one, whatever follows it, and its fields are those
  of the result.  The version count of a ClientHello has 16
  bits, so a longer list is not read back.

  Key definitions include:
    * `ClientHello.Wire`, `ServerHello.Wire`
    * `ClientHello.SameFields`
    * `ClientHello.deserializeChecked`
    * `ServerHello.deserializeChecked`

  Key theorems include:
    * `ClientHello.deserialize_versions`
    * `ClientHello.deserialize_eq_ok_iff`
    * `ClientHello.round_trip_iff`
    * `ServerHello.deserialize_eq_ok_iff`
    * `HandshakeCodec.handshake_codecs`
-/

namespace ObscuraProto

------------------------------------------------------------
-- The Versions
------------------------------------------------------------

namespace ClientHello

/- Bytes of even length are a list of versions. -/
theorem exists_versions
    (n : Nat)
    (bytes : Bytes)
    (hLength : bytes.length = n * 2) :
    ∃ versions : List Version,
      versions.length = n ∧ bytes = versions.flatMap htons := by
  induction n generalizing bytes with
  | zero =>
      refine ⟨[], rfl, ?_⟩
      rw [List.flatMap_nil]
      exact List.length_eq_zero_iff.mp (by omega)
  | succ n ih =>
      have hFirst : (bytes.take 2).length = 2 := by
        rw [List.length_take]
        omega
      rcases ih (bytes.drop 2) (by rw [List.length_drop]; omega)
        with ⟨versions, hVersions, hRest⟩
      refine
        ⟨ntohs (bytes.take 2) :: versions, ?_, ?_⟩
      · rw [List.length_cons, hVersions]
      · rw [List.flatMap_cons, htons_ntohs hFirst, ← hRest,
          List.take_append_drop]

/- `deserialize` from the ephemeral key on. -/
def readBody
    (versions : List Version)
    (rest : Bytes) : Except Exception ClientHello :=
  if rest.length < 32 then
    .error (.runtimeError
      "Invalid ClientHello data: too short for public key.")
  else if rest.length ≤ 32 then
    .error (.runtimeError
      "Invalid ClientHello data: too short for identity flag.")
  else if rest.getD 32 0 != 0 then
    if rest.length < 65 then
      .error (.runtimeError
        "Invalid ClientHello data: too short for identity public key.")
    else if rest.length < 129 then
      .error (.runtimeError
        "Invalid ClientHello data: too short for identity signature.")
    else
      .ok
        { supportedVersions := versions
          ephemeralPk := ⟨slice rest 0 32⟩
          hasClientIdentity := true
          identityPk := ⟨slice rest 33 32⟩
          identitySig := ⟨slice rest 65 64⟩ }
  else
    .ok
      { supportedVersions := versions
        ephemeralPk := ⟨slice rest 0 32⟩ }

/- The count and the versions in front of the other fields. -/
def versionBytes (versions : List Version) : Bytes :=
  htons (UInt16.ofNat versions.length) ++
    versions.flatMap htons

@[simp] theorem length_versionBytes
    (versions : List Version) :
    (versionBytes versions).length =
      2 + versions.length * 2 := by
  simp [versionBytes]

/- The versions are read and the other fields follow. -/
theorem deserialize_versions
    {versions : List Version}
    (hCount : versions.length ≤ 65535)
    (rest : Bytes) :
    deserialize (versionBytes versions ++ rest) =
      readBody versions rest := by
  have hNumber :
      (ntohs (slice (versionBytes versions ++ rest) 0
        2)).toNat = versions.length := by
    have hHead :
        slice (versionBytes versions ++ rest) 0 2 =
          htons (UInt16.ofNat versions.length) := by
      simp [slice, versionBytes, List.append_assoc]
    rw [hHead, ntohs_htons, UInt16.toNat_ofNat']
    omega
  have hVersions :
      readVersions (versionBytes versions ++ rest)
          versions.length 2 = versions := by
    have hRead :=
      readVersions_append versions
        (htons (UInt16.ofNat versions.length)) rest
    rw [length_htons] at hRead
    exact hRead
  have hLength :
      (versionBytes versions ++ rest).length =
        2 + versions.length * 2 + rest.length := by
    rw [List.length_append, length_versionBytes]
  have hDrop
      (offset : Nat) :
      (versionBytes versions ++ rest).drop
          (2 + versions.length * 2 + offset) =
        rest.drop offset := by
    rw [← List.drop_drop, ← length_versionBytes,
      List.drop_left]
  have hSlice (offset n : Nat) :
      slice (versionBytes versions ++ rest)
          (2 + versions.length * 2 + offset) n =
        slice rest offset n := by
    rw [slice, hDrop, slice]
  have hKey :
      slice (versionBytes versions ++ rest)
          (2 + versions.length * 2) 32 =
        slice rest 0 32 :=
    hSlice 0 32
  have hFlag :
      (versionBytes versions ++ rest).getD
          (2 + versions.length * 2 + 32) 0 =
        rest.getD 32 0 := by
    have hHead := congrArg List.head? (hDrop 32)
    rw [List.head?_drop, List.head?_drop] at hHead
    rw [List.getD_eq_getElem?_getD, hHead,
      ← List.getD_eq_getElem?_getD]
  have hShort :
      ¬ 2 + versions.length * 2 + rest.length < 2 := by
    omega
  have hRoom :
      ¬ 2 + versions.length * 2 + rest.length <
        2 + versions.length * 2 := by
    omega
  have hAfterFlag :
      2 + versions.length * 2 + 32 + 1 =
        2 + versions.length * 2 + 33 :=
    rfl
  have hAfterKey :
      2 + versions.length * 2 + 33 + 32 =
        2 + versions.length * 2 + 65 :=
    rfl
  have hAfterSig :
      2 + versions.length * 2 + 65 + 64 =
        2 + versions.length * 2 + 129 :=
    rfl
  unfold deserialize
  simp only [hNumber, hVersions, hLength, hShort, hRoom,
    hKey, hFlag, if_false, hAfterFlag, hAfterKey, hAfterSig,
    Nat.add_lt_add_iff_left, Nat.add_le_add_iff_left, hSlice]
  rfl

------------------------------------------------------------
-- What a Client Hello Accepts
------------------------------------------------------------

/-
  A complete message in front of `rest`: any flag byte but 0
  announces an identity.
-/
structure Wire
    (hello : ClientHello)
    (flag : UInt8)
    (rest data : Bytes) : Prop where
  count : hello.supportedVersions.length ≤ 65535
  ephemeral : hello.ephemeralPk.data.length = 32
  flagged : hello.hasClientIdentity = (flag != 0)
  identity :
    flag ≠ 0 →
      hello.identityPk.data.length = 32 ∧
        hello.identitySig.data.length = 64
  anonymous :
    flag = 0 →
      hello.identityPk = ⟨[]⟩ ∧ hello.identitySig = ⟨[]⟩
  bytes :
    data =
      versionBytes hello.supportedVersions ++
        (hello.ephemeralPk.data ++
          flag :: (hello.identityPk.data ++
            (hello.identitySig.data ++ rest)))

/- The fields of a complete message are read. -/
theorem Wire.deserialize
    {hello : ClientHello}
    {flag : UInt8}
    {rest data : Bytes}
    (hWire : hello.Wire flag rest data) :
    deserialize data = .ok hello := by
  rcases hello with ⟨versions, ⟨pk⟩, flagged, ⟨idPk⟩, ⟨sig⟩⟩
  have hPk : pk.length = 32 := hWire.ephemeral
  have hFlagged : flagged = (flag != 0) := hWire.flagged
  have hFlag :
      (pk ++ flag :: (idPk ++ (sig ++ rest))).getD 32 0 =
        flag := by
    rw [← hPk]
    simp
  have hKey :
      slice (pk ++ flag :: (idPk ++ (sig ++ rest))) 0 32 =
        pk := by
    rw [← hPk]
    simp [slice]
  have hTail :
      (pk ++ flag :: (idPk ++ (sig ++ rest))).drop 33 =
        idPk ++ (sig ++ rest) := by
    rw [← List.singleton_append, ← List.append_assoc]
    exact List.drop_left' (by simp [hPk])
  have hLength :
      (pk ++ flag :: (idPk ++ (sig ++ rest))).length =
        33 + (idPk.length + (sig.length + rest.length)) := by
    simp only [List.length_append, List.length_cons]
    omega
  have hData :
      data =
        versionBytes versions ++
          (pk ++ flag :: (idPk ++ (sig ++ rest))) :=
    hWire.bytes
  rw [hData, deserialize_versions hWire.count]
  unfold readBody
  rw [if_neg (by omega), if_neg (by omega), hFlag, hKey]
  by_cases hZero : flag = 0
  · have hEmpty := hWire.anonymous hZero
    rw [hZero] at hFlagged ⊢
    rw [hFlagged]
    simp only [PublicKey.mk.injEq, Signature.mk.injEq]
      at hEmpty
    rw [hEmpty.1, hEmpty.2]
    rfl
  · have hSizes : idPk.length = 32 ∧ sig.length = 64 :=
      hWire.identity hZero
    have hSet : (flag != 0) = true := by
      simpa using hZero
    have hIdPk :
        slice (pk ++ flag :: (idPk ++ (sig ++ rest))) 33 32 =
          idPk := by
      rw [slice, hTail]
      exact List.take_left' hSizes.1
    have hSig :
        slice (pk ++ flag :: (idPk ++ (sig ++ rest))) 65 64 =
          sig := by
      have hAfter : 65 = 33 + 32 := rfl
      rw [slice, hAfter, ← List.drop_drop, hTail,
        List.drop_left' hSizes.1]
      exact List.take_left' hSizes.2
    rw [if_pos hSet, if_neg (by omega), if_neg (by omega),
      hIdPk, hSig, hFlagged, hSet]

/- What `readBody` accepts stands in front of the rest. -/
theorem wire_of_readBody
    {versions : List Version}
    {body : Bytes}
    {hello : ClientHello}
    (hCount : versions.length ≤ 65535)
    (hRead : readBody versions body = .ok hello) :
    ∃ flag rest,
      hello.Wire flag rest (versionBytes versions ++ body) := by
  unfold readBody at hRead
  split at hRead
  · cases hRead
  split at hRead
  · cases hRead
  next hKeyRoom hFlagRoom =>
  have hFront :
      body =
        slice body 0 32 ++
          body.getD 32 0 :: body.drop 33 := by
    have hByte :
        body.drop 32 = body.getD 32 0 :: body.drop 33 := by
      have hIn : 32 < body.length := by
        omega
      rw [List.drop_eq_getElem_cons hIn,
        List.getD_eq_getElem?_getD,
        List.getElem?_eq_getElem hIn]
      rfl
    rw [← hByte]
    exact (slice_append_drop body 0 32).symm
  have hKey : (slice body 0 32).length = 32 :=
    length_slice (by omega)
  split at hRead
  · next hSet =>
      split at hRead
      · cases hRead
      split at hRead
      · cases hRead
      next hPkRoom hSigRoom =>
      cases hRead
      refine ⟨body.getD 32 0, body.drop 129, ?_⟩
      refine
        { count := hCount
          ephemeral := hKey
          flagged := hSet.symm
          identity := fun _ =>
            ⟨length_slice (by omega),
              length_slice (by omega)⟩
          anonymous := ?_
          bytes := ?_ }
      · intro hZero
        rw [hZero] at hSet
        cases hSet
      · rw [slice_append_drop body 65 64,
          slice_append_drop body 33 32, ← hFront]
  · next hClear =>
      cases hRead
      have hZero : body.getD 32 0 = 0 := by
        simpa using hClear
      refine ⟨0, body.drop 33, ?_⟩
      refine
        { count := hCount
          ephemeral := hKey
          flagged := rfl
          identity := fun hSet => absurd rfl hSet
          anonymous := fun _ => ⟨rfl, rfl⟩
          bytes := ?_ }
      rw [hZero] at hFront
      simp only [List.nil_append]
      rw [← hFront]

/- Accepted bytes begin with the message that is returned. -/
theorem deserialize_eq_ok_iff
    (data : Bytes)
    (hello : ClientHello) :
    deserialize data = .ok hello ↔
      ∃ flag rest, hello.Wire flag rest data := by
  constructor
  · intro hRead
    have hHead : 2 ≤ data.length := by
      apply Nat.le_of_not_lt
      intro hShort
      rw [ClientHello.deserialize, if_pos hShort] at hRead
      cases hRead
    have hRoom :
        2 + (ntohs (slice data 0 2)).toNat * 2 ≤
          data.length := by
      apply Nat.le_of_not_lt
      intro hShort
      rw [ClientHello.deserialize,
        if_neg (Nat.not_lt_of_le hHead)] at hRead
      simp only [hShort, if_true] at hRead
      cases hRead
    rcases exists_versions (ntohs (slice data 0 2)).toNat
        (slice data 2 ((ntohs (slice data 0 2)).toNat * 2))
        (length_slice hRoom) with
      ⟨versions, hVersions, hBytes⟩
    have hCount : versions.length ≤ 65535 := by
      have hBelow := (ntohs (slice data 0 2)).toNat_lt
      omega
    have hNumber :
        htons (UInt16.ofNat versions.length) =
          slice data 0 2 := by
      rw [hVersions, UInt16.ofNat_toNat,
        htons_ntohs (length_slice (by omega))]
    have hData :
        data =
          versionBytes versions ++
            data.drop (2 + versions.length * 2) := by
      rw [versionBytes, hNumber, ← hBytes, hVersions,
        List.append_assoc, slice_append_drop data 2]
      exact (slice_append_drop data 0 2).symm
    rw [hData, deserialize_versions hCount] at hRead
    have hWire := wire_of_readBody hCount hRead
    rw [← hData] at hWire
    exact hWire
  · rintro ⟨flag, rest, hWire⟩
    exact hWire.deserialize

------------------------------------------------------------
-- The Client Hello Round Trip
------------------------------------------------------------

/- The keys have their sizes, the version list is free. -/
structure Sized (hello : ClientHello) : Prop where
  ephemeral : hello.ephemeralPk.data.length = 32
  identity :
    hello.hasClientIdentity = true →
      hello.identityPk.data.length = 32 ∧
        hello.identitySig.data.length = 64

/- Equal fields; those of an identity only if it is there. -/
structure SameFields (read hello : ClientHello) : Prop where
  versions :
    read.supportedVersions = hello.supportedVersions
  ephemeral : read.ephemeralPk = hello.ephemeralPk
  flag : read.hasClientIdentity = hello.hasClientIdentity
  identity :
    hello.hasClientIdentity = true →
      read.identityPk = hello.identityPk ∧
        read.identitySig = hello.identitySig

/- What is written is a complete message of these fields. -/
theorem exists_wire_serialize
    {hello : ClientHello}
    (hSized : hello.Sized)
    (hCount : hello.supportedVersions.length ≤ 65535) :
    ∃ read : ClientHello,
      read.SameFields hello ∧
        ∃ flag, read.Wire flag [] hello.serialize := by
  rcases hello with ⟨versions, pk, flagged, idPk, sig⟩
  cases flagged with
  | false =>
      refine
        ⟨{ supportedVersions := versions, ephemeralPk := pk },
          ⟨rfl, rfl, rfl, fun hSet => absurd hSet (by simp)⟩,
          0, ?_⟩
      refine
        { count := hCount
          ephemeral := hSized.ephemeral
          flagged := rfl
          identity := fun hSet => absurd rfl hSet
          anonymous := fun _ => ⟨rfl, rfl⟩
          bytes := ?_ }
      simp [serialize, versionBytes]
  | true =>
      refine
        ⟨{ supportedVersions := versions
           ephemeralPk := pk
           hasClientIdentity := true
           identityPk := idPk
           identitySig := sig },
          ⟨rfl, rfl, rfl, fun _ => ⟨rfl, rfl⟩⟩, 1, ?_⟩
      refine
        { count := hCount
          ephemeral := hSized.ephemeral
          flagged := rfl
          identity := fun _ => hSized.identity rfl
          anonymous := fun hZero => absurd hZero (by decide)
          bytes := ?_ }
      simp [serialize, versionBytes]

/-
  The bytes of a hello are read back exactly when its list
  of versions fits the 16-bit count.
-/
theorem round_trip_iff
    {hello : ClientHello}
    (hSized : hello.Sized) :
    (∃ read,
        deserialize hello.serialize = .ok read ∧
          read.SameFields hello) ↔
      hello.supportedVersions.length ≤ 65535 := by
  constructor
  · rintro ⟨read, hRead, hSame⟩
    rcases (deserialize_eq_ok_iff _ _).mp hRead with
      ⟨flag, rest, hWire⟩
    rw [← hSame.versions]
    exact hWire.count
  · intro hCount
    rcases exists_wire_serialize hSized hCount with
      ⟨read, hSame, flag, hWire⟩
    exact ⟨read, hWire.deserialize, hSame⟩

------------------------------------------------------------
-- Reads Inside the Client Hello
------------------------------------------------------------

/- The version loop; a copy outside yields `none`. -/
def readVersionsChecked (data : Bytes) :
    Nat → Nat → Option (List Version)
| 0, _ => some []
| n + 1, offset => do
    let beVersion ← copy? data offset 2
    let versions ← readVersionsChecked data n (offset + 2)
    some (ntohs beVersion :: versions)

/- `deserialize` in the same way. -/
def deserializeChecked (data : Bytes) :
    Option (Except Exception ClientHello) :=
  if data.length < 2 then
    some (.error (.runtimeError
      "Invalid ClientHello data: too short for version count."))
  else do
    let beCount ← copy? data 0 2
    let numVersions := (ntohs beCount).toNat
    let offset := 2
    if data.length < offset + numVersions * 2 then
      some (.error (.runtimeError
        "Invalid ClientHello data: too short for versions."))
    else do
      let versions ←
        readVersionsChecked data numVersions offset
      let offset := offset + numVersions * 2
      if data.length < offset + 32 then
        some (.error (.runtimeError
          "Invalid ClientHello data: too short for public key."))
      else do
        let ephemeralPk ← copy? data offset 32
        let offset := offset + 32
        if data.length ≤ offset then
          some (.error (.runtimeError
            "Invalid ClientHello data: too short for identity flag."))
        else do
          let flag ← data[offset]?
          let offset := offset + 1
          if flag != 0 then
            if data.length < offset + 32 then
              some (.error (.runtimeError
                "Invalid ClientHello data: too short for identity public key."))
            else do
              let identityPk ← copy? data offset 32
              let offset := offset + 32
              if data.length < offset + 64 then
                some (.error (.runtimeError
                  "Invalid ClientHello data: too short for identity signature."))
              else do
                let identitySig ← copy? data offset 64
                some (.ok
                  { supportedVersions := versions
                    ephemeralPk := ⟨ephemeralPk⟩
                    hasClientIdentity := true
                    identityPk := ⟨identityPk⟩
                    identitySig := ⟨identitySig⟩ })
          else
            some (.ok
              { supportedVersions := versions
                ephemeralPk := ⟨ephemeralPk⟩ })

theorem readVersions_inside
    (data : Bytes)
    (n offset : Nat)
    (hInside : offset + n * 2 ≤ data.length) :
    readVersionsChecked data n offset =
      some (readVersions data n offset) := by
  induction n generalizing offset with
  | zero => rfl
  | succ n ih =>
      have hFirst : offset + 2 ≤ data.length := by
        omega
      have hRest : offset + 2 + n * 2 ≤ data.length := by
        omega
      rw [readVersionsChecked, copy?_eq_some hFirst,
        ih (offset + 2) hRest]
      rfl

theorem deserialize_inside (data : Bytes) :
    deserializeChecked data = some (deserialize data) := by
  unfold deserializeChecked deserialize
  split
  · rfl
  next hHead =>
  rw [copy?_eq_some (by omega)]
  simp only [Option.bind_eq_bind, Option.bind_some]
  by_cases hVersions :
      data.length < 2 + (ntohs (slice data 0 2)).toNat * 2
  · rw [if_pos hVersions, if_pos hVersions]
  rw [if_neg hVersions, if_neg hVersions,
    readVersions_inside data _ _
      (Nat.le_of_not_lt hVersions)]
  simp only [Option.bind_some]
  split
  · rfl
  next hKey =>
  rw [copy?_eq_some (Nat.le_of_not_lt hKey)]
  simp only [Option.bind_some]
  split
  · rfl
  next hFlag =>
  have hIn := Nat.lt_of_not_le hFlag
  rw [List.getD_eq_getElem?_getD,
    List.getElem?_eq_getElem hIn]
  simp only [Option.bind_some, Option.getD_some]
  split
  · split
    · rfl
    next hPk =>
    rw [copy?_eq_some (Nat.le_of_not_lt hPk)]
    simp only [Option.bind_some]
    split
    · rfl
    next hSig =>
    rw [copy?_eq_some (Nat.le_of_not_lt hSig)]
    rfl
  · rfl

end ClientHello

------------------------------------------------------------
-- The Server Hello
------------------------------------------------------------

namespace ServerHello

/- A complete message in front of `rest`. -/
structure Wire
    (hello : ServerHello)
    (rest data : Bytes) : Prop where
  ephemeral : hello.ephemeralPk.data.length = 32
  signature : hello.signature.data.length = 64
  bytes :
    data =
      htons hello.selectedVersion ++
        (hello.ephemeralPk.data ++
          (hello.signature.data ++ rest))

/- Accepted bytes begin with the message that is returned. -/
theorem deserialize_eq_ok_iff
    (data : Bytes)
    (hello : ServerHello) :
    deserialize data = .ok hello ↔
      ∃ rest, hello.Wire rest data := by
  constructor
  · intro hRead
    unfold deserialize at hRead
    split at hRead
    · cases hRead
    simp only at hRead
    split at hRead
    · cases hRead
    split at hRead
    · cases hRead
    next hHead hKey hSig =>
    cases hRead
    refine ⟨data.drop 98, ?_⟩
    refine
      { ephemeral := length_slice (by omega)
        signature := length_slice (by omega)
        bytes := ?_ }
    change
      data =
        htons (ntohs (slice data 0 2)) ++
          (slice data 2 32 ++
            (slice data 34 64 ++ data.drop (34 + 64)))
    rw [slice_append_drop data 34 64,
      slice_append_drop data 2 32,
      htons_ntohs (length_slice (by omega))]
    exact (slice_append_drop data 0 2).symm
  · rintro ⟨rest, hWire⟩
    rcases hello with ⟨version, ⟨pk⟩, ⟨sig⟩⟩
    have hPk : pk.length = 32 := hWire.ephemeral
    have hSig : sig.length = 64 := hWire.signature
    have hData :
        data = htons version ++ (pk ++ (sig ++ rest)) :=
      hWire.bytes
    have hDrop :
        data.drop 2 = pk ++ (sig ++ rest) := by
      rw [hData]
      exact List.drop_left' (length_htons version)
    have hVersion : slice data 0 2 = htons version := by
      rw [hData]
      exact List.take_left' (length_htons version)
    have hKeySlice : slice data 2 32 = pk := by
      rw [slice, hDrop]
      exact List.take_left' hPk
    have hSigSlice : slice data 34 64 = sig := by
      have hAfter : 34 = 2 + 32 := rfl
      rw [slice, hAfter, ← List.drop_drop, hDrop,
        List.drop_left' hPk]
      exact List.take_left' hSig
    have hLength : 98 ≤ data.length := by
      rw [hData]
      simp only [List.length_append, length_htons]
      omega
    unfold deserialize
    rw [if_neg (by omega), if_neg (by omega),
      if_neg (by omega), hVersion, hKeySlice, hSigSlice,
      ntohs_htons]

/- `deserialize`; a copy outside yields `none`. -/
def deserializeChecked (data : Bytes) :
    Option (Except Exception ServerHello) :=
  if data.length < 2 then
    some (.error (.runtimeError
      "Invalid ServerHello data: too short for version."))
  else do
    let beVersion ← copy? data 0 2
    let offset := 2
    if data.length < offset + 32 then
      some (.error (.runtimeError
        "Invalid ServerHello data: too short for public key."))
    else do
      let ephemeralPk ← copy? data offset 32
      let offset := offset + 32
      if data.length < offset + 64 then
        some (.error (.runtimeError
          "Invalid ServerHello data: too short for signature."))
      else do
        let signature ← copy? data offset 64
        some (.ok
          { selectedVersion := ntohs beVersion
            ephemeralPk := ⟨ephemeralPk⟩
            signature := ⟨signature⟩ })

theorem deserialize_inside (data : Bytes) :
    deserializeChecked data = some (deserialize data) := by
  unfold deserializeChecked deserialize
  split
  · rfl
  next hHead =>
  rw [copy?_eq_some (by omega)]
  simp only [Option.bind_eq_bind, Option.bind_some]
  split
  · rfl
  next hKey =>
  rw [copy?_eq_some (Nat.le_of_not_lt hKey)]
  simp only [Option.bind_some]
  split
  · rfl
  next hSig =>
  rw [copy?_eq_some (Nat.le_of_not_lt hSig)]
  rfl

end ServerHello

------------------------------------------------------------
-- Both Codecs
------------------------------------------------------------

namespace HandshakeCodec

/-
  A written hello is read back: a ClientHello exactly when
  its versions fit the count, a ServerHello always.  Bytes
  are accepted exactly when they begin with a complete
  message, whose fields are returned, and no read goes
  beyond them.
-/
theorem handshake_codecs :
    (∀ hello : ClientHello,
        hello.Sized →
          ((∃ read,
              ClientHello.deserialize hello.serialize =
                  .ok read ∧
                read.SameFields hello) ↔
            hello.supportedVersions.length ≤ 65535)) ∧
      (∀ hello : ServerHello,
        hello.ephemeralPk.data.length = 32 →
          hello.signature.data.length = 64 →
            ServerHello.deserialize hello.serialize =
              .ok hello) ∧
      ∀ data : Bytes,
        (∀ hello,
            ClientHello.deserialize data = .ok hello ↔
              ∃ flag rest, hello.Wire flag rest data) ∧
          (∀ hello,
            ServerHello.deserialize data = .ok hello ↔
              ∃ rest, hello.Wire rest data) ∧
          ClientHello.deserializeChecked data =
              some (ClientHello.deserialize data) ∧
            ServerHello.deserializeChecked data =
              some (ServerHello.deserialize data) := by
  refine ⟨?_, ?_, fun data => ⟨?_, ?_, ?_, ?_⟩⟩
  · intro hello hSized
    exact ClientHello.round_trip_iff hSized
  · intro hello hPk hSig
    exact ServerHello.deserialize_serialize hPk hSig
  · exact ClientHello.deserialize_eq_ok_iff data
  · exact ServerHello.deserialize_eq_ok_iff data
  · exact ClientHello.deserialize_inside data
  · exact ServerHello.deserialize_inside data

/- A flag byte of two and bytes behind the message. -/
theorem handshake_codecs_sample :
    (∃ read,
      ClientHello.deserialize
            (ClientHello.serialize
              { supportedVersions := supportedVersions
                ephemeralPk := ⟨List.replicate 32 7⟩ }) =
          .ok read ∧
        read.supportedVersions = supportedVersions) ∧
      ServerHello.deserialize
          (ServerHello.serialize
            { selectedVersion := Versions.v1_1
              ephemeralPk := ⟨List.replicate 32 7⟩
              signature := ⟨List.replicate 64 9⟩ }) =
        .ok
          { selectedVersion := Versions.v1_1
            ephemeralPk := ⟨List.replicate 32 7⟩
            signature := ⟨List.replicate 64 9⟩ } ∧
      ClientHello.deserialize
          ([0, 0] ++ List.replicate 32 7 ++
            2 :: List.replicate 98 9) =
        .ok
          { supportedVersions := []
            ephemeralPk := ⟨List.replicate 32 7⟩
            hasClientIdentity := true
            identityPk := ⟨List.replicate 32 9⟩
            identitySig := ⟨List.replicate 64 9⟩ } := by
  refine ⟨?_, ?_, ?_⟩
  · rcases
        (handshake_codecs.1
          { supportedVersions := supportedVersions
            ephemeralPk := ⟨List.replicate 32 7⟩ }
          ⟨by simp, fun hSet => absurd hSet (by simp)⟩).mpr
          (by decide) with
      ⟨read, hRead, hSame⟩
    exact ⟨read, hRead, hSame.versions⟩
  · exact handshake_codecs.2.1 _ (by simp) (by simp)
  · refine ((handshake_codecs.2.2 _).1 _).mpr ⟨2, [9, 9], ?_⟩
    exact
      { count := by simp
        ephemeral := by simp
        flagged := rfl
        identity := fun _ => ⟨by simp, by simp⟩
        anonymous := fun hZero => absurd hZero (by decide)
        bytes := by decide }

end HandshakeCodec

end ObscuraProto
