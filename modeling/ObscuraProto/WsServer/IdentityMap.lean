import ObscuraProto.WsCommon

/-
  The two identity maps of the server.

  `identity_map_mutex_` guards both.  They run in opposite
  directions, and the one from identities to connections
  holds only the last connection of each identity.

  Key definitions include:
    * `IdentityMap`
    * `IdentityMap.register`, `IdentityMap.unregister`
    * `IdentityMap.lookup`
    * `IdentityMap.Reaches`

  Key theorems include:
    * `IdentityMap.register_reaches`
    * `IdentityMap.unregister_reaches_iff`
-/

namespace ObscuraProto

structure IdentityMap where
  identityToHdl : Map PublicKey Hdl := ∅
  hdlToIdentity : Map Hdl PublicKey := ∅

namespace IdentityMap

/- The registration after an accepted handshake. -/
def register
    (hdl : Hdl)
    (clientPk : PublicKey)
    (m : IdentityMap) : IdentityMap where
  identityToHdl := m.identityToHdl.insert clientPk hdl
  hdlToIdentity := m.hdlToIdentity.insert hdl clientPk

/- The cleanup in `on_close`. -/
def unregister (hdl : Hdl) (m : IdentityMap) : IdentityMap :=
  match m.hdlToIdentity[hdl]? with
  | none => m
  | some pk =>
      { identityToHdl := m.identityToHdl.erase pk
        hdlToIdentity := m.hdlToIdentity.erase hdl }

/- The lookup of the calls that address an identity. -/
def lookup
    (identityPk : PublicKey)
    (m : IdentityMap) : Except Exception Hdl :=
  match m.identityToHdl[identityPk]? with
  | none => .error (.logicError "Identity is not connected.")
  | some hdl => .ok hdl

------------------------------------------------------------
-- Reachability
------------------------------------------------------------

/-
  An entry of the first map is registered under its identity,
  and no registered identity is without an entry.
-/
structure Reaches (m : IdentityMap) : Prop where
  registered :
    ∀ (pk : PublicKey) (hdl : Hdl),
      m.identityToHdl[pk]? = some hdl →
        m.hdlToIdentity[hdl]? = some pk
  reachable :
    ∀ (hdl : Hdl) (pk : PublicKey),
      m.hdlToIdentity[hdl]? = some pk →
        ∃ hdl', m.identityToHdl[pk]? = some hdl'

theorem reaches_empty : Reaches {} where
  registered := by
    intro pk hdl hFound
    simp at hFound
  reachable := by
    intro hdl pk hFound
    simp at hFound

/- Every entry of the first map is in the second one. -/
def Registered (m : IdentityMap) : Prop :=
  ∀ (pk : PublicKey) (hdl : Hdl),
    m.identityToHdl[pk]? = some hdl →
      m.hdlToIdentity[hdl]? = some pk

/- A connection registers at most once. -/
theorem register_registered
    {m : IdentityMap}
    {hdl : Hdl}
    (hRegistered : m.Registered)
    (hNew : m.hdlToIdentity[hdl]? = none)
    (clientPk : PublicKey) :
    (m.register hdl clientPk).Registered := by
  intro pk found hFound
  unfold register at hFound ⊢
  rcases OrderedMap.of_getElem?_insert hFound with
    ⟨hPk, hHdl⟩ | ⟨_, hOld⟩
  · rw [hPk, hHdl, Std.ExtTreeMap.getElem?_insert_self]
  · have hBefore := hRegistered pk found hOld
    have hOther : found ≠ hdl := by
      intro hSame
      rw [hSame, hNew] at hBefore
      cases hBefore
    exact
      (OrderedMap.getElem?_insert_of_ne hOther _ _).trans
        hBefore

theorem unregister_registered
    {m : IdentityMap}
    (hRegistered : m.Registered)
    (hdl : Hdl) :
    (m.unregister hdl).Registered := by
  intro pk found hFound
  unfold unregister at hFound ⊢
  cases hIdentity : m.hdlToIdentity[hdl]? with
  | none =>
      rw [hIdentity] at hFound
      exact hRegistered pk found hFound
  | some old =>
      rw [hIdentity] at hFound
      rcases OrderedMap.of_getElem?_erase hFound with
        ⟨hPk, hOld⟩
      have hBefore := hRegistered pk found hOld
      have hOther : found ≠ hdl := by
        intro hSame
        rw [hSame, hIdentity] at hBefore
        exact hPk (Option.some.inj hBefore).symm
      exact
        (OrderedMap.getElem?_erase_of_ne hOther _).trans
          hBefore

theorem register_reaches
    {m : IdentityMap}
    {hdl : Hdl}
    (hReaches : m.Reaches)
    (hNew : m.hdlToIdentity[hdl]? = none)
    (clientPk : PublicKey) :
    (m.register hdl clientPk).Reaches where
  registered :=
    register_registered hReaches.registered hNew clientPk
  reachable := by
    intro found pk hFound
    unfold register at hFound ⊢
    by_cases hPk : pk = clientPk
    · rw [hPk]
      exact ⟨hdl, Std.ExtTreeMap.getElem?_insert_self⟩
    · simp only [OrderedMap.getElem?_insert_of_ne hPk]
      rcases OrderedMap.of_getElem?_insert hFound with
        ⟨_, hSame⟩ | ⟨_, hOld⟩
      · exact absurd hSame hPk
      · exact hReaches.reachable found pk hOld

/- No other connection is registered under the same key. -/
def Sole (hdl : Hdl) (m : IdentityMap) : Prop :=
  ∀ pk, m.hdlToIdentity[hdl]? = some pk →
    ∀ other : Hdl, m.hdlToIdentity[other]? = some pk → other = hdl

/-
  The cleanup erases the entry of the identity, whichever
  connection the entry names.
-/
theorem unregister_reaches_iff
    {m : IdentityMap}
    (hReaches : m.Reaches)
    (hdl : Hdl) :
    (m.unregister hdl).Reaches ↔ m.Sole hdl := by
  have hRegistered :=
    unregister_registered hReaches.registered hdl
  unfold unregister at hRegistered ⊢
  unfold Sole
  cases hFound : m.hdlToIdentity[hdl]? with
  | none => simp [hReaches]
  | some pk =>
      constructor
      · intro hAfter pk' hPk other hOther
        cases hPk
        by_contra hDifferent
        rcases hAfter.reachable other pk
            ((OrderedMap.getElem?_erase_of_ne hDifferent
              _).trans hOther) with
          ⟨hdl', hEntry⟩
        rw [Std.ExtTreeMap.getElem?_erase_self] at hEntry
        cases hEntry
      · intro hSole
        rw [hFound] at hRegistered
        refine ⟨hRegistered, ?_⟩
        · intro other pk' hOther
          rcases OrderedMap.of_getElem?_erase hOther with
            ⟨hDifferent, hOld⟩
          have hPk : pk' ≠ pk := by
            intro hSame
            rw [hSame] at hOld
            exact hDifferent (hSole pk rfl other hOld)
          simp only [OrderedMap.getElem?_erase_of_ne hPk]
          exact hReaches.reachable other pk' hOld

end IdentityMap

end ObscuraProto
