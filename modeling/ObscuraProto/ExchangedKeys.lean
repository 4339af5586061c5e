import ObscuraProto.NetworkAttack

/-
  The keys that client sessions and a server derive.

  Every message to the server whose bytes are a hello leads
  to a pair of directional keys, once it is answered; client
  sessions derive theirs from the answers they accept.  With
  fresh ephemeral keys and a derivation free of collisions
  equal keys have the same origin, and what a client session
  has sealed shows which of its hellos the key comes from.

  Key definitions include:
    * `ExchangedKeys.exchangeOf`, `ExchangedKeys.derivations`
    * `ExchangedKeys.Fresh`
    * `ExchangedKeys.ClientsKnown`, `ExchangedKeys.KeysKnown`

  Key theorems include:
    * `ExchangedKeys.ClientsKnown.step`
    * `ExchangedKeys.KeysKnown.step`
    * `ExchangedKeys.exchange_unique`
    * `ExchangedKeys.initiation_unique`
-/

namespace ObscuraProto

/- The key `decrypt_packet` opens under. -/
def Session.rxKey (s : Session) : Bytes :=
  match s.sessionKeys with
  | none => []
  | some keys => keys.rx

theorem Session.Ready.rxKey_eq
    {s : Session}
    {keys : SessionKeys}
    (hReady : s.Ready keys) :
    s.rxKey = keys.rx := by
  simp [Session.rxKey, hReady.keys_eq]

namespace ExchangedKeys

open Effectful WsServer Threads NetworkAttack
open NamespaceSeparation (Labels)

variable (S : Sodium)

------------------------------------------------------------
-- Exchanged Keys
------------------------------------------------------------

/- The keys that an answer to the message leads to. -/
def exchangeOf : Label ServerCall IoEvent → Option Exchange
| .event ⟨.message input hdl frame, _⟩ =>
    match ClientHello.deserialize frame.payload with
    | .error _ => none
    | .ok hello =>
        match Crypto.serverComputeSessionKeys S
            input.kx.keyPair hello.ephemeralPk with
        | .error _ => none
        | .ok keys =>
            some
              { hdl := hdl
                hello := hello
                derivation :=
                  .ofServer hello.ephemeralPk
                    input.kx.keyPair.publicKey keys }
| _ => none

def exchanges (labels : Labels) : List Exchange :=
  labels.filterMap (exchangeOf S)

/- All keys that client sessions and the server derive. -/
def derivations (w : World) : List Derivation :=
  w.derived ++ (exchanges S w.labels).map Exchange.derivation

------------------------------------------------------------
-- Fresh Keys
------------------------------------------------------------

/- Ephemeral keys are fresh, and the keys derived differ. -/
def FreshKeys
    (l : Label ServerCall IoEvent)
    (w : World) : Prop :=
  ∀ x, exchangeOf S l = some x →
    CollisionFree (derivations S w) x.derivation ∧
      ∀ x' ∈ exchanges S w.labels,
        x'.derivation.serverPk ≠ x.derivation.serverPk

def Fresh (w : World) : Action → Prop
| .initiates _ kx => FreshEphemeral kx w
| .finalizes i serverHello =>
    ∀ s, w.clients[i]? = some s →
      ∀ d ∈ finalization S serverHello s,
        CollisionFree (derivations S w) d
| .serves l => FreshKeys S l w
| _ => True

------------------------------------------------------------
-- Client Sessions
------------------------------------------------------------

/- The client session has derived the key it sends under. -/
def SendsUnder
    (w : World)
    (i : Nat)
    (key : Bytes) : Prop :=
  ∃ d ∈ w.derived, d.c2s = key ∧
    ∃ initiation ∈ w.initiations,
      initiation.client = i ∧
        initiation.ephemeralPk = d.clientPk

/- What is on record about a client session. -/
structure Recorded (w : World) (i : Nat) (s : Session) :
    Prop where
  role : s.role = .client
  ephemeral :
    ∀ kp, s.ephemeralKxKp = some kp →
      ∃ initiation ∈ w.initiations,
        initiation.client = i ∧
          initiation.ephemeralPk = kp.publicKey
  keys :
    s.handshakeComplete = true → SendsUnder w i s.txKey

structure ClientsKnown (w : World) : Prop where
  sessions :
    ∀ i s, w.clients[i]? = some s → Recorded w i s
  encryptions :
    ∀ e ∈ w.encryptions,
      e.record.Genuine S ∧
        SendsUnder w e.client e.record.key
  fresh :
    w.initiations.Pairwise
      (fun x y => x.ephemeralPk ≠ y.ephemeralPk)

/- The records of the clients only get longer. -/
structure Extends (w w' : World) : Prop where
  initiations : w.initiations ⊆ w'.initiations
  derived : w.derived ⊆ w'.derived

variable {S}

theorem extends_of_eq
    {w w' : World}
    (hInitiations : w'.initiations = w.initiations)
    (hDerived : w'.derived = w.derived) :
    Extends w w' where
  initiations := hInitiations ▸ List.Subset.refl _
  derived := hDerived ▸ List.Subset.refl _

theorem SendsUnder.mono
    {w w' : World}
    {i : Nat}
    {key : Bytes}
    (hSends : SendsUnder w i key)
    (hMore : Extends w w') :
    SendsUnder w' i key := by
  rcases hSends with
    ⟨d, hDerived, hKey, initiation, hMem, hInitiation⟩
  exact
    ⟨d, hMore.derived hDerived, hKey, initiation,
      hMore.initiations hMem, hInitiation⟩

theorem Recorded.mono
    {w w' : World}
    {i : Nat}
    {s : Session}
    (hRecorded : Recorded w i s)
    (hMore : Extends w w') :
    Recorded w' i s where
  role := hRecorded.role
  ephemeral := by
    intro kp hKp
    rcases hRecorded.ephemeral kp hKp with
      ⟨initiation, hMem, hInitiation⟩
    exact
      ⟨initiation, hMore.initiations hMem, hInitiation⟩
  keys := fun hComplete => (hRecorded.keys hComplete).mono hMore

theorem ClientsKnown.encryptions_mono
    {w w' : World}
    (hKnown : ClientsKnown S w)
    (hMore : Extends w w') :
    ∀ e ∈ w.encryptions,
      e.record.Genuine S ∧
        SendsUnder w' e.client e.record.key := by
  intro e hMem
  rcases hKnown.encryptions e hMem with ⟨hGenuine, hSends⟩
  exact ⟨hGenuine, hSends.mono hMore⟩

/- One session is replaced by another that is on record. -/
theorem sessions_set
    {w w' : World}
    {i : Nat}
    {s' : Session}
    (hSessions :
      ∀ i s, w.clients[i]? = some s → Recorded w i s)
    (hMore : Extends w w')
    (hSet : w'.clients = w.clients.set i s')
    (hRecorded : Recorded w' i s') :
    ∀ i s, w'.clients[i]? = some s → Recorded w' i s := by
  intro j s hFound
  rw [hSet, List.getElem?_set] at hFound
  split at hFound
  · next hSame =>
      subst hSame
      split at hFound
      · cases hFound
        exact hRecorded
      · cases hFound
  · exact (hSessions j s hFound).mono hMore

theorem recorded_new
    (w : World)
    (i : Nat)
    (serverSignKey : KeyPair)
    (versions : List Version) :
    Recorded w i (.new .client serverSignKey versions) where
  role := rfl
  ephemeral := by
    intro kp hKp
    cases hKp
  keys := by
    intro hComplete
    cases hComplete

theorem clientsKnown_creates
    {w : World}
    (hKnown : ClientsKnown S w)
    (serverPk : PublicKey)
    (versions : List Version) :
    ClientsKnown S (creates serverPk versions w) where
  sessions := by
    intro i s hFound
    simp only [creates, List.getElem?_append] at hFound
    split at hFound
    · exact
        (hKnown.sessions i s hFound).mono (extends_of_eq rfl rfl)
    · cases List.mem_singleton.mp (List.mem_of_getElem? hFound)
      exact recorded_new _ _ _ _
  encryptions := hKnown.encryptions_mono (extends_of_eq rfl rfl)
  fresh := hKnown.fresh

/- Nothing but the table of sessions is written. -/
theorem ClientsKnown.set
    {w : World}
    {i : Nat}
    {s s' : Session}
    (hKnown : ClientsKnown S w)
    (hFound : w.clients[i]? = some s)
    (hRecorded : Recorded w i s → Recorded w i s') :
    ClientsKnown S
      { w with clients := w.clients.set i s' } where
  sessions :=
    sessions_set hKnown.sessions (extends_of_eq rfl rfl) rfl
      ((hRecorded (hKnown.sessions i s hFound)).mono
        (extends_of_eq rfl rfl))
  encryptions := hKnown.encryptions_mono (extends_of_eq rfl rfl)
  fresh := hKnown.fresh

theorem clientsKnown_identifies
    {w : World}
    (hKnown : ClientsKnown S w)
    (i : Nat)
    (identityKp : KeyPair) :
    ClientsKnown S (identifies i identityKp w) := by
  unfold identifies
  split
  · exact hKnown
  · next s hFound =>
      apply hKnown.set hFound
      intro hRecorded
      unfold Session.setClientIdentityKey
      split
      · exact hRecorded
      · exact
          ⟨hRecorded.role, hRecorded.ephemeral,
            hRecorded.keys⟩

theorem clientsKnown_initiates
    {w : World}
    (hKnown : ClientsKnown S w)
    (i : Nat)
    {kx : KxKeyPair}
    (hFresh : FreshEphemeral kx w) :
    ClientsKnown S (initiates S i kx w) := by
  unfold initiates
  split
  · exact hKnown
  · next s hFound =>
      have hRecorded := hKnown.sessions i s hFound
      have hMore
          (initiation : Initiation)
          (clients : List Session) :
          Extends w
            { w with
              clients := clients
              initiations := w.initiations ++ [initiation] } :=
        ⟨List.subset_append_left _ _, fun _ hMem => hMem⟩
      refine ⟨?_, ?_, ?_⟩
      · refine
          sessions_set hKnown.sessions (hMore _ _) rfl ?_
        rw [Session.clientInitiateHandshake_state S kx
          hRecorded.role]
        refine ⟨hRecorded.role, ?_, ?_⟩
        · intro kp hKp
          cases hKp
          exact
            ⟨_, List.mem_append_right _ (List.mem_singleton_self _),
              rfl, rfl⟩
        · intro hComplete
          exact (hRecorded.keys hComplete).mono (hMore _ _)
      · exact hKnown.encryptions_mono (hMore _ _)
      · refine
          List.pairwise_append.mpr
            ⟨hKnown.fresh, List.pairwise_singleton _ _, ?_⟩
        intro initiation hMem initiation' hNew
        cases List.mem_singleton.mp hNew
        exact hFresh initiation hMem

theorem clientsKnown_finalizes
    {w : World}
    (hKnown : ClientsKnown S w)
    (i : Nat)
    (serverHello : ServerHello) :
    ClientsKnown S (finalizes S i serverHello w) := by
  unfold finalizes
  split
  · exact hKnown
  · next s hFound =>
      have hRecorded := hKnown.sessions i s hFound
      have hMore
          (clients : List Session)
          (more : List Derivation) :
          Extends w
            { w with
              clients := clients
              derived := w.derived ++ more } :=
        ⟨fun _ hMem => hMem, List.subset_append_left _ _⟩
      refine ⟨?_, ?_, hKnown.fresh⟩
      · refine
          sessions_set hKnown.sessions (hMore _ _) rfl ?_
        rcases Session.clientFinalizeHandshake_config S
            serverHello s with ⟨hRole, _, _, hEphemeral⟩
        refine ⟨hRole.trans hRecorded.role, ?_, ?_⟩
        · intro kp hKp
          exact
            hRecorded.ephemeral kp (hEphemeral.symm.trans hKp)
        · intro hComplete
          cases hResult :
              s.clientFinalizeHandshake S serverHello with
          | mk result s' =>
              rw [hResult] at hComplete
              dsimp only at hComplete
              cases result with
              | error e =>
                  rcases
                    Session.clientFinalizeHandshake_error S
                      hResult with ⟨hKeys, hSame⟩
                  have hSends :=
                    hRecorded.keys (hSame.symm.trans hComplete)
                  have hTx : s'.txKey = s.txKey := by
                    unfold Session.txKey
                    rw [hKeys]
                  dsimp only
                  rw [hTx]
                  exact hSends.mono (hMore _ _)
              | ok _ =>
                  rcases
                    Session.clientFinalizeHandshake_ok S
                      hResult with
                    ⟨_, kp, keys, hKp, _, _, _, hState⟩
                  rcases hRecorded.ephemeral kp hKp with
                    ⟨initiation, hMem, hClient, hPk⟩
                  refine
                    ⟨.ofClient kp.publicKey
                      serverHello.ephemeralPk keys, ?_, ?_,
                      initiation, hMem, hClient, hPk⟩
                  · apply List.mem_append_right
                    unfold finalization
                    rw [hResult, hState]
                    simp [hKp, Session.established]
                  · rw [hState]
                    rfl
      · exact hKnown.encryptions_mono (hMore _ _)

theorem clientsKnown_encrypts
    {w : World}
    (hKnown : ClientsKnown S w)
    (i : Nat)
    (nonce : Nonce)
    (payload : Payload) :
    ClientsKnown S (encrypts S i nonce payload w) := by
  unfold encrypts
  split
  · exact hKnown
  · next s hFound =>
      have hRecorded := hKnown.sessions i s hFound
      by_cases hComplete : s.handshakeComplete = true
      · rcases Session.exists_ready hComplete with
          ⟨keys, hReady⟩
        simp only [Session.encryptPayload_ready S hReady]
        refine ⟨?_, ?_, hKnown.fresh⟩
        · exact
            sessions_set hKnown.sessions (extends_of_eq rfl rfl)
              rfl
              ⟨hRecorded.role, hRecorded.ephemeral,
                hRecorded.keys⟩
        · intro e hMem
          rcases List.mem_append.mp hMem with hOld | hNew
          · exact
              hKnown.encryptions_mono (extends_of_eq rfl rfl) e
                hOld
          · cases List.mem_singleton.mp hNew
            refine ⟨⟨nonce, ?_⟩, hRecorded.keys hComplete⟩
            dsimp only
            rw [hReady.txKey_eq]
      · simp only
          [Session.encryptPayload_incomplete S hComplete]
        exact hKnown.set hFound id

theorem clientsKnown_decrypts
    {w : World}
    (hKnown : ClientsKnown S w)
    (i : Nat)
    (packet : Bytes) :
    ClientsKnown S (decrypts S i packet w) := by
  unfold decrypts
  split
  · exact hKnown
  · next s hFound =>
      apply hKnown.set hFound
      intro hRecorded
      rcases Session.decryptPacket_cases S s packet with
        ⟨e, hError⟩ | ⟨keys, result, _, _, _, hOk⟩
      · rw [hError]
        exact hRecorded
      · rw [hOk]
        exact
          ⟨hRecorded.role, hRecorded.ephemeral,
            hRecorded.keys⟩

theorem clientsKnown_serves
    {w : World}
    (hKnown : ClientsKnown S w)
    (l : Label ServerCall IoEvent) :
    ClientsKnown S (serves S l w) where
  sessions := by
    intro i s hFound
    exact
      (hKnown.sessions i s hFound).mono (extends_of_eq rfl rfl)
  encryptions := hKnown.encryptions_mono (extends_of_eq rfl rfl)
  fresh := hKnown.fresh

theorem ClientsKnown.step
    {w : World}
    (hKnown : ClientsKnown S w)
    {act : Action}
    (hFresh : Fresh S w act) :
    ClientsKnown S (exec S w act) := by
  cases act with
  | creates serverPk versions =>
      exact clientsKnown_creates hKnown serverPk versions
  | identifies i identityKp =>
      exact clientsKnown_identifies hKnown i identityKp
  | initiates i kx =>
      exact clientsKnown_initiates hKnown i hFresh
  | finalizes i serverHello =>
      exact clientsKnown_finalizes hKnown i serverHello
  | encrypts i nonce payload =>
      exact clientsKnown_encrypts hKnown i nonce payload
  | decrypts i packet =>
      exact clientsKnown_decrypts hKnown i packet
  | serves l => exact clientsKnown_serves hKnown l

------------------------------------------------------------
-- Keys
------------------------------------------------------------

/- Equal keys have one origin, and the server has its own. -/
structure KeysKnown (S : Sodium) (w : World) : Prop where
  distinct : KeysDistinct (derivations S w)
  exchanges :
    (exchanges S w.labels).Pairwise
      (fun x y => x.derivation.c2s ≠ y.derivation.c2s)

theorem exchanges_snoc
    (labels : Labels)
    (l : Label ServerCall IoEvent) :
    exchanges S (labels ++ [l]) =
      exchanges S labels ++ (exchangeOf S l).toList := by
  unfold exchanges
  rw [List.filterMap_append]
  cases hExchange : exchangeOf S l with
  | none => simp [hExchange]
  | some x => simp [hExchange]

/- A new exchange has keys of its own. -/
theorem FreshKeys.fresh
    {w : World}
    {l : Label ServerCall IoEvent}
    (hFresh : FreshKeys S l w)
    {x : Exchange}
    (hNew : exchangeOf S l = some x) :
    ∀ x' ∈ exchanges S w.labels,
      x'.derivation.c2s ≠ x.derivation.c2s := by
  intro x' hMem hSame
  rcases hFresh x hNew with ⟨hFree, hOwn⟩
  have hLogged : x'.derivation ∈ derivations S w :=
    List.mem_append_right _ (List.mem_map_of_mem hMem)
  exact hOwn x' hMem ((hFree.2 _ hLogged).1 hSame).2

theorem keysDistinct_of_subset
    {log log' : List Derivation}
    (hLog : KeysDistinct log)
    (hSubset : log' ⊆ log) :
    KeysDistinct log' where
  c2s := fun d hMem d' hMem' =>
    hLog.c2s d (hSubset hMem) d' (hSubset hMem')
  s2c := fun d hMem d' hMem' =>
    hLog.s2c d (hSubset hMem) d' (hSubset hMem')
  directions := fun d hMem d' hMem' =>
    hLog.directions d (hSubset hMem) d' (hSubset hMem')

variable (S) in
theorem finalization_cases
    (serverHello : ServerHello)
    (s : Session) :
    finalization S serverHello s = [] ∨
      ∃ d, finalization S serverHello s = [d] := by
  unfold finalization
  split
  · exact Or.inl rfl
  · split
    · exact Or.inr ⟨_, rfl⟩
    · exact Or.inl rfl

theorem KeysKnown.step
    {w : World}
    (hKnown : KeysKnown S w)
    {act : Action}
    (hFresh : Fresh S w act) :
    KeysKnown S (exec S w act) := by
  have hSame
      {w' : World}
      (hDerived : w'.derived = w.derived)
      (hLabels : w'.labels = w.labels) :
      KeysKnown S w' := by
    refine ⟨?_, ?_⟩
    · unfold derivations
      rw [hDerived, hLabels]
      exact hKnown.distinct
    · rw [hLabels]
      exact hKnown.exchanges
  cases act with
  | creates serverPk versions => exact hSame rfl rfl
  | identifies i identityKp =>
      simp only [exec, identifies]
      split <;> exact hSame rfl rfl
  | initiates i kx =>
      simp only [exec, initiates]
      split <;> exact hSame rfl rfl
  | encrypts i nonce payload =>
      simp only [exec, encrypts]
      split <;> exact hSame rfl rfl
  | decrypts i packet =>
      simp only [exec, decrypts]
      split <;> exact hSame rfl rfl
  | finalizes i serverHello =>
      simp only [exec, finalizes]
      split
      · exact hSame rfl rfl
      · next s hFound =>
          refine ⟨?_, hKnown.exchanges⟩
          rcases finalization_cases S serverHello s with
            hNone | ⟨d, hOne⟩
          · simp only [derivations, hNone, List.append_nil]
            exact hKnown.distinct
          · have hFree :=
              hFresh s hFound d
                (hOne ▸ List.mem_singleton_self d)
            apply
              keysDistinct_of_subset (hKnown.distinct.snoc hFree)
            intro d' hMem
            simp only [derivations, hOne, List.mem_append,
              List.mem_singleton] at hMem ⊢
            tauto
  | serves l =>
      have hMore := exchanges_snoc (S := S) w.labels l
      cases hNew : exchangeOf S l with
      | none =>
          rw [hNew, Option.toList_none, List.append_nil]
            at hMore
          refine ⟨?_, ?_⟩
          · simp only [derivations, exec, serves, hMore]
            exact hKnown.distinct
          · simp only [exec, serves, hMore]
            exact hKnown.exchanges
      | some x =>
          rw [hNew, Option.toList_some] at hMore
          refine ⟨?_, ?_⟩
          · have hDistinct :=
              hKnown.distinct.snoc (hFresh x hNew).1
            simp only [derivations, exec, serves, hMore,
              List.map_append, List.map_singleton,
              ← List.append_assoc]
            exact hDistinct
          · simp only [exec, serves, hMore]
            refine
              List.pairwise_append.mpr
                ⟨hKnown.exchanges,
                  List.pairwise_singleton _ _, ?_⟩
            intro x' hMem x'' hLast
            cases List.mem_singleton.mp hLast
            exact hFresh.fresh hNew x' hMem

theorem mem_exchanges
    {labels : Labels}
    {l : Label ServerCall IoEvent}
    {x : Exchange}
    (hMem : l ∈ labels)
    (hExchange : exchangeOf S l = some x) :
    x ∈ exchanges S labels :=
  List.mem_filterMap.mpr ⟨l, hMem, hExchange⟩

theorem exchanges_mono
    (labels : Labels)
    (l : Label ServerCall IoEvent) :
    exchanges S labels ⊆ exchanges S (labels ++ [l]) := by
  rw [exchanges_snoc]
  exact List.subset_append_left _ _

/- The keys of an exchange say which one it is. -/
theorem exchange_unique
    {w : World}
    (hKeys : KeysKnown S w)
    {x x' : Exchange}
    (hMem : x ∈ exchanges S w.labels)
    (hMem' : x' ∈ exchanges S w.labels)
    (hSame : x.derivation.c2s = x'.derivation.c2s) :
    x = x' := by
  have hNodup :
      ((exchanges S w.labels).map
        (fun x => x.derivation.c2s)).Nodup :=
    List.pairwise_map.mpr hKeys.exchanges
  exact List.inj_on_of_nodup_map hNodup hMem hMem' hSame

theorem exchangeOf_clientPk
    {l : Label ServerCall IoEvent}
    {x : Exchange}
    (hExchange : exchangeOf S l = some x) :
    x.derivation.clientPk = x.hello.ephemeralPk := by
  unfold exchangeOf at hExchange
  split at hExchange
  · split at hExchange
    · cases hExchange
    · split at hExchange
      · cases hExchange
      · cases hExchange
        rfl
  · cases hExchange

/- Ephemeral keys say which initiation it was. -/
theorem initiation_unique
    {w : World}
    (hClients : ClientsKnown S w)
    {initiation initiation' : Initiation}
    (hMem : initiation ∈ w.initiations)
    (hMem' : initiation' ∈ w.initiations)
    (hSame :
      initiation.ephemeralPk = initiation'.ephemeralPk) :
    initiation = initiation' := by
  have hNodup :
      (w.initiations.map Initiation.ephemeralPk).Nodup :=
    List.pairwise_map.mpr hClients.fresh
  exact List.inj_on_of_nodup_map hNodup hMem hMem' hSame

------------------------------------------------------------
-- Steps of the Clients
------------------------------------------------------------

/- What the clients do is recorded, and nothing else. -/
structure Adds (w w' : World) : Prop extends Extends w w' where
  encryptions : w.encryptions ⊆ w'.encryptions
  server : w'.server = w.server
  labels : w'.labels = w.labels
  deliveries : w'.deliveries = w.deliveries
  replies : w'.replies = w.replies

theorem adds_of_exec
    {act : Action}
    (hOther : ∀ l, act ≠ .serves l)
    (w : World) :
    Adds w (exec S w act) := by
  have hSame
      (clients : List Session) :
      Adds w { w with clients := clients } :=
    ⟨extends_of_eq rfl rfl, List.Subset.refl _, rfl, rfl, rfl,
      rfl⟩
  cases act with
  | serves l => exact absurd rfl (hOther l)
  | creates serverPk versions => exact hSame _
  | identifies i identityKp =>
      simp only [exec, identifies]
      split
      · exact hSame w.clients
      · exact hSame _
  | initiates i kx =>
      simp only [exec, initiates]
      split
      · exact hSame w.clients
      · exact
          ⟨⟨List.subset_append_left _ _, List.Subset.refl _⟩,
            List.Subset.refl _, rfl, rfl, rfl, rfl⟩
  | finalizes i serverHello =>
      simp only [exec, finalizes]
      split
      · exact hSame w.clients
      · exact
          ⟨⟨List.Subset.refl _, List.subset_append_left _ _⟩,
            List.Subset.refl _, rfl, rfl, rfl, rfl⟩
  | encrypts i nonce payload =>
      simp only [exec, encrypts]
      split
      · exact hSame w.clients
      · refine
          ⟨extends_of_eq rfl rfl, ?_, rfl, rfl, rfl, rfl⟩
        dsimp only
        split
        · exact List.Subset.refl _
        · exact List.subset_append_left _ _
  | decrypts i packet =>
      simp only [exec, decrypts]
      split
      · exact hSame w.clients
      · exact hSame _

------------------------------------------------------------
-- Sample Runs
------------------------------------------------------------

instance
    (S : Sodium)
    (l : Label ServerCall IoEvent)
    (w : World) :
    Decidable (FreshKeys S l w) :=
  decidableForallSome _ _

instance (S : Sodium) (w : World) :
    (act : Action) → Decidable (Fresh S w act)
| .initiates _ kx =>
    inferInstanceAs (Decidable (FreshEphemeral kx w))
| .finalizes i serverHello =>
    inferInstanceAs
      (Decidable
        (∀ s, w.clients[i]? = some s →
          ∀ d ∈ finalization S serverHello s,
            CollisionFree (derivations S w) d))
| .serves l => inferInstanceAs (Decidable (FreshKeys S l w))
| .creates _ _ => inferInstanceAs (Decidable True)
| .identifies _ _ => inferInstanceAs (Decidable True)
| .encrypts _ _ _ => inferInstanceAs (Decidable True)
| .decrypts _ _ => inferInstanceAs (Decidable True)

end ExchangedKeys

end ObscuraProto
