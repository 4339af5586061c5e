import ObscuraProto.ExchangedKeys
import ObscuraProto.WsServer.Arrivals

/-
  Where the payloads on authenticated connections come from.

  The signature of a hello ties the connection to the
  ephemeral key of a client session, and the keys derived
  from it tie every packet that opens to an encryption by
  that session.  Sessions of the server never share a key, so
  one encryption is good for one delivery, whatever the
  network repeats and whichever connection it repeats it on.
  The counters of a client session rise, so the deliveries
  under one key are in the order of the encryptions.

  Key definitions include:
    * `PayloadAuthenticity.Sealing`
    * `PayloadAuthenticity.Ideal`
    * `PayloadAuthenticity.Authentic`

  Key theorems include:
    * `PayloadAuthenticity.SessionsKnown.serves`
    * `PayloadAuthenticity.counted_of_run`
    * `PayloadAuthenticity.sourced_of_takes`
    * `PayloadAuthenticity.payload_authenticity`
-/

namespace ObscuraProto

namespace PayloadAuthenticity

open Effectful WsServer Threads NetworkAttack ExchangedKeys
open NamespaceSeparation (Labels)

variable (S : Sodium)

------------------------------------------------------------
-- Ideal Primitives
------------------------------------------------------------

/- A client session has the private key of the hello. -/
def HonestKey (w : World) (x : Exchange) : Prop :=
  ∃ initiation ∈ w.initiations,
    initiation.ephemeralPk = x.derivation.clientPk

/- A client session or the server has sealed the packet. -/
def OnRecord (w : World) (key packet : Bytes) : Prop :=
  (∃ e ∈ w.encryptions,
      e.record.key = key ∧ e.record.packet = packet) ∨
    (key, packet) ∈ w.replies

/-
  Under a key that only a client session and the server can
  derive, nothing opens but what one of them has sealed.
-/
def Sealing (w : World) : Label ServerCall IoEvent → Prop
| .stepEvent =>
    ∀ arrival, arriving w.server = some arrival →
      ∀ x ∈ exchanges S w.labels,
        HonestKey w x →
          S.Opens x.derivation.c2s arrival.2.2.payload →
            OnRecord w x.derivation.c2s
              arrival.2.2.payload
| _ => True

/-
  The private key of `pk` is with client sessions only, and
  sealed packets cannot be made without the keys.
-/
def Secrets (pk : PublicKey) (w : World) : Action → Prop
| .serves l =>
    w.server.allowed l = true ∧
      HonestHello S pk l w ∧ Sealing S w l
| _ => True

def Ideal (pk : PublicKey) (w : World) (act : Action) : Prop :=
  Fresh S w act ∧ Secrets S pk w act

------------------------------------------------------------
-- The Property
------------------------------------------------------------

/- A client session has sealed it, under an ephemeral key
  that it had signed as `pk`. -/
def SentAs
    (pk : PublicKey)
    (w : World)
    (e : Encryption) : Prop :=
  ∃ initiation ∈ w.initiations,
    initiation.client = e.client ∧
      initiation.identity = some pk ∧
      ∃ d ∈ w.derived,
        d.clientPk = initiation.ephemeralPk ∧
          d.c2s = e.record.key

/- What was delivered is what was encrypted. -/
def DeliveryOf (e : Encryption) (d : Delivery) : Prop :=
  e.record.packet = d.packet ∧
    e.record.payload = d.payload ∧
    e.record.key = d.session.rxKey ∧
    e.record.counter = d.session.recvCounter

/- The delivery is on a connection of the identity. -/
def DeliveredAs
    (pk : PublicKey)
    (w : World)
    (i : Nat)
    (d : Delivery) : Prop :=
  w.deliveries[i]? = some d ∧
    d.session.getPeerIdentity = some pk

/-
  The payloads delivered on connections of the identity are
  mapped one to one to encryptions by its client sessions, and
  on one connection in the same order, as long as no counter
  can have come round.
-/
def Authentic (pk : PublicKey) (w : World) : Prop :=
  ∃ sourceOf : Nat → Nat,
    Set.InjOn sourceOf {i | ∃ d, DeliveredAs pk w i d} ∧
      (∀ i d, DeliveredAs pk w i d →
        ∃ e,
          w.encryptions[sourceOf i]? = some e ∧
            DeliveryOf e d ∧ SentAs pk w e) ∧
      (w.encryptions.length < 2 ^ 64 →
        ∀ i j d d', i < j →
          DeliveredAs pk w i d → DeliveredAs pk w j d' →
            d.session.rxKey = d'.session.rxKey →
              sourceOf i < sourceOf j)

variable {S}

------------------------------------------------------------
-- Stored Sessions
------------------------------------------------------------

/- The session comes from the answer to that message. -/
structure Stems
    (S : Sodium)
    (isAuth : Bool)
    (hdl : Hdl)
    (session : Session)
    (l : Label ServerCall IoEvent)
    (x : Exchange) : Prop where
  exchange : exchangeOf S l = some x
  connection : x.hdl = hdl
  side : isAuth = x.hello.hasClientIdentity
  rx : session.rxKey = x.derivation.c2s
  tx : session.txKey = x.derivation.s2c
  identity :
    isAuth = true →
      offered S l = some (hdl, x.hello) ∧
        session.getPeerIdentity = some x.hello.identityPk

/- The keys and the identity are kept, and no packet that
  was received is forgotten. -/
structure Follows (state state' : ConnectionState) : Prop where
  keys :
    state'.session.sessionKeys = state.session.sessionKeys
  identity :
    state'.session.peerIdentity = state.session.peerIdentity
  received :
    state.session.recvCounter ≤ state'.session.recvCounter

theorem Follows.refl (state : ConnectionState) :
    Follows state state :=
  ⟨rfl, rfl, UInt64.le_refl _⟩

theorem Follows.rxKey
    {state state' : ConnectionState}
    (hFollows : Follows state state') :
    state'.session.rxKey = state.session.rxKey := by
  unfold Session.rxKey
  rw [hFollows.keys]

theorem Follows.txKey
    {state state' : ConnectionState}
    (hFollows : Follows state state') :
    state'.session.txKey = state.session.txKey := by
  unfold Session.txKey
  rw [hFollows.keys]

theorem Follows.stems
    {isAuth : Bool}
    {hdl : Hdl}
    {state state' : ConnectionState}
    {l : Label ServerCall IoEvent}
    {x : Exchange}
    (hFollows : Follows state state')
    (hStems : Stems S isAuth hdl state.session l x) :
    Stems S isAuth hdl state'.session l x where
  exchange := hStems.exchange
  connection := hStems.connection
  side := hStems.side
  rx := hFollows.rxKey.trans hStems.rx
  tx := hFollows.txKey.trans hStems.tx
  identity := by
    intro hAuth
    rcases hStems.identity hAuth with ⟨hOffer, hPeer⟩
    exact ⟨hOffer, hFollows.identity.trans hPeer⟩

theorem Resent.follows
    {state state' : ConnectionState}
    (hResent : Resent state state') :
    Follows state state' := by
  rcases hResent with ⟨c, hState⟩
  subst hState
  exact ⟨rfl, rfl, UInt64.le_refl _⟩

theorem follows_received
    {state : ConnectionState}
    {counter : UInt64}
    (hNewer : state.session.recvCounter < counter)
    (now : Int) :
    Follows state
      (ConnectionState.received counter now state) :=
  ⟨rfl, rfl, UInt64.le_of_lt hNewer⟩

/- A hello that was answered is an exchange of keys. -/
theorem stems_of_answers
    {isAuth : Bool}
    {input : IoInput}
    {hdl : Hdl}
    {frame : Frame}
    {hello : ClientHello}
    {reply : ServerHello}
    {session : Session}
    {v : WsServer}
    (event : IoEvent)
    (hEvent : event.val = .message input hdl frame)
    (hAnswers :
      Answers S input.kx frame.payload hello reply session v)
    (hSide : isAuth = hello.hasClientIdentity) :
    (∃ x, Stems S isAuth hdl session (.event event) x) ∧
      session.recvCounter = 0 := by
  rcases event with ⟨event, hIo⟩
  dsimp only at hEvent
  subst hEvent
  have hPeer := hAnswers.peerIdentity
  rcases Session.serverRespondToHandshake_ok S
      hAnswers.replied with
    ⟨_, version, keys, _, hVerify, _, hKeys, _, _, hSession⟩
  have hReady : session.Ready keys := by
    rw [hSession]
    exact Session.ready_established _ _ _ _ _
  refine
    ⟨⟨{ hdl := hdl
        hello := hello
        derivation :=
          .ofServer hello.ephemeralPk
            input.kx.keyPair.publicKey keys }, ?_⟩, ?_⟩
  · refine
      { exchange := ?_
        connection := rfl
        side := hSide
        rx := hReady.rxKey_eq
        tx := hReady.txKey_eq
        identity := ?_ }
    · simp only [exchangeOf, hAnswers.hello_eq, hKeys]
    · intro hAuth
      have hFlag := hSide.symm.trans hAuth
      refine ⟨?_, ?_⟩
      · simp [offered, identifiedHello, hAnswers.hello_eq,
          hFlag, hVerify hFlag]
      · rw [Session.getPeerIdentity, hPeer, if_pos hFlag]
  · rw [hSession]
    rfl

/- A new session belongs to the message that is running. -/
theorem stems_of_established
    {labels : Labels}
    {p : ServerPool}
    {isAuth : Bool}
    {hdl : Hdl}
    {session : Session}
    (hSupervised : Supervised S labels p)
    (hEstablished : Established S p isAuth hdl session) :
    ∃ thread,
      p.events = some thread ∧
        thread.trace ≠ [] ∧
        .event thread.call ∈ labels ∧
        (∃ x,
          Stems S isAuth hdl session (.event thread.call) x) ∧
        session.recvCounter = 0 := by
  rcases hEstablished with
    ⟨thread, input, frame, hThread, hTrace, hMessage,
      hello, reply, ⟨m, _, hAnswers⟩, hSide, _⟩
  rcases stems_of_answers thread.call hMessage hAnswers hSide
    with ⟨hStems, hUnused⟩
  exact
    ⟨thread, hThread, hTrace,
      (hSupervised.events thread hThread).begun, hStems,
      hUnused⟩

/- Where a stored session comes from in one step. -/
theorem entry_origin
    {labels : Labels}
    {p q : ServerPool}
    {l : Label ServerCall IoEvent}
    (hSupervised : Supervised S labels p)
    (hBegins :
      ∀ thread, p.events = some thread → Begins S thread)
    (hStep : PoolStep S p l q)
    {isAuth : Bool}
    {hdl : Hdl}
    {state' : ConnectionState}
    (hEntry :
      (q.shared.sessionTable.table isAuth)[hdl]? =
        some state') :
    (∃ state,
        (p.shared.sessionTable.table isAuth)[hdl]? =
            some state ∧
          Follows state state') ∨
      (l = .stepEvent ∧
        Established S p isAuth hdl state'.session) := by
  by_cases hReads :
      l = .stepEvent ∧
        ∃ input hdl frame, Reading p input hdl frame
  · rcases hReads with ⟨hLabel, input, hdl', frame, hReading⟩
    subst hLabel
    rw [hReading.shared hBegins hStep] at hEntry
    apply Or.inl
    rcases (receive_spec S input hdl' frame.payload
        p.shared).1 with
      ⟨hQuiet, _⟩ | ⟨isAuth', opened, hAccepts, _⟩
    · rw [hQuiet.sessionTable] at hEntry
      exact ⟨state', hEntry, .refl state'⟩
    · rcases hAccepts.connection with
        ⟨state, keys, now, hStored, _, _, hNewer, hTable⟩
      rw [hTable] at hEntry
      exact
        store_entry Follows.refl hStored
          (follows_received hNewer now) hEntry
  · rcases
      entry_of_step hSupervised hBegins
        (fun hLabel input hdl frame hReading =>
          hReads ⟨hLabel, input, hdl, frame, hReading⟩)
        hStep hEntry with
      ⟨state, hStored, hResent⟩ | hEstablished
    · exact Or.inl ⟨state, hStored, Resent.follows hResent⟩
    · exact Or.inr hEstablished

------------------------------------------------------------
-- Deliveries
------------------------------------------------------------

/- The packet opens on a stored session, which takes it. -/
structure Takes
    (S : Sodium)
    (p q : ServerPool)
    (d : Delivery)
    (hdl : Hdl)
    (state : ConnectionState)
    (keys : SessionKeys)
    (counter : UInt64) : Prop where
  arrives :
    ∃ input frame,
      arriving p = some (input, hdl, frame) ∧
        frame.payload = d.packet
  first :
    ∃ thread, p.events = some thread ∧ thread.trace = []
  stored : p.shared.sessionTable.sessions[hdl]? = some state
  ready : state.session.Ready keys
  opens :
    Crypto.decrypt S d.packet keys.rx =
      .ok { payload := d.payload, counter := counter }
  newer : state.session.recvCounter < counter
  kept :
    ∃ now,
      q.shared.sessionTable.sessions[hdl]? =
        some (ConnectionState.received counter now state)
  session :
    d.session = { state.session with recvCounter := counter }

theorem reading_of_arriving
    {p : ServerPool}
    {input : IoInput}
    {hdl : Hdl}
    {frame : Frame}
    (hArriving : arriving p = some (input, hdl, frame)) :
    Reading p input hdl frame := by
  unfold arriving at hArriving
  split at hArriving
  · next hEvents =>
      cases hArriving
      exact ⟨⟨_, _, hEvents, _, _, _, rfl⟩⟩
  · cases hArriving

theorem delivered_cases
    {p q : ServerPool}
    (hBegins :
      ∀ thread, p.events = some thread → Begins S thread)
    (hStep : PoolStep S p .stepEvent q) :
    delivered S p = [] ∨
      ∃ d hdl state keys counter,
        delivered S p = [d] ∧
          Takes S p q d hdl state keys counter := by
  unfold delivered
  cases hArriving : arriving p with
  | none => exact Or.inl rfl
  | some arrival =>
      rcases arrival with ⟨input, hdl, frame⟩
      have hReading := reading_of_arriving hArriving
      have hShared := hReading.shared hBegins hStep
      dsimp only
      split
      · next payload state' hResult hEntry =>
          rcases (receive_spec S input hdl frame.payload
              p.shared).1 with
            ⟨_, hNot⟩ | ⟨isAuth, opened, hAccepts, hReports⟩
          · exact absurd hResult (hNot true payload)
          · rcases hReports.decrypted true payload hResult with
              ⟨hSide, hPayload⟩
            subst hSide
            subst hPayload
            rcases hAccepts.connection with
              ⟨state, keys, now, hStored, hReady, hOpens,
                hNewer, hTable⟩
            have hKept :
                ((p.shared.sessionTable.store true hdl
                    (ConnectionState.received opened.counter
                      now state)).table true)[hdl]? =
                  some
                    (ConnectionState.received opened.counter
                      now state) := by
              rw [SessionTable.table_store_self,
                Std.ExtTreeMap.getElem?_insert_self]
            rw [← hTable] at hKept
            cases hEntry.symm.trans hKept
            rcases hReading.thread with
              ⟨hIo, code, hThread, _⟩
            refine
              Or.inr
                ⟨_, hdl, state, keys, opened.counter, rfl, ?_⟩
            exact
              { arrives := ⟨input, frame, hArriving, rfl⟩
                first := ⟨_, hThread, rfl⟩
                stored := hStored
                ready := hReady
                opens := hOpens
                newer := hNewer
                kept := ⟨now, hShared ▸ hKept⟩
                session := rfl }
      · exact Or.inl rfl

theorem deliveries_serves
    {w : World}
    {l : Label ServerCall IoEvent}
    (hBegins :
      ∀ thread, w.server.events = some thread →
        Begins S thread)
    (hAllowed : w.server.allowed l = true) :
    (serves S l w).deliveries = w.deliveries ∨
      ∃ d hdl state keys counter,
        l = .stepEvent ∧
          (serves S l w).deliveries = w.deliveries ++ [d] ∧
          Takes S w.server (serves S l w).server d hdl state
            keys counter := by
  cases l with
  | stepEvent =>
      have hStep :
          PoolStep S w.server .stepEvent
            (serves S .stepEvent w).server :=
        ⟨hAllowed, rfl⟩
      rcases delivered_cases hBegins hStep with
        hNone | ⟨d, hdl, state, keys, counter, hOne, hTakes⟩
      · apply Or.inl
        simp only [serves, hNone, List.append_nil]
      · refine
          Or.inr ⟨d, hdl, state, keys, counter, rfl, ?_, hTakes⟩
        simp only [serves, hOne]
  | _ => exact Or.inl rfl

/- The running event after a step: new, or there before. -/
theorem unread_of_step
    {p q : ServerPool}
    {l : Label ServerCall IoEvent}
    (hStep : PoolStep S p l q) :
    ∀ thread, q.events = some thread → thread.trace = [] →
      l = .event thread.call ∨
        ∃ thread', p.events = some thread' ∧
          thread'.trace = [] ∧ thread'.call = thread.call := by
  refine
    Pool.forall_event_step
      (P := fun thread =>
        thread.trace = [] →
          l = .event thread.call ∨
            ∃ thread', p.events = some thread' ∧
              thread'.trace = [] ∧
              thread'.call = thread.call)
      ?_ ?_ ?_ hStep
  · exact fun event hLabel _ => Or.inl hLabel
  · intro thread effects next rest _ _ hTrace
    simp at hTrace
  · exact
      fun thread hThread hTrace =>
        Or.inr ⟨thread, hThread, hTrace, rfl⟩

------------------------------------------------------------
-- Sessions of the Server
------------------------------------------------------------

/-
  Stored sessions and deliveries come from exchanges.  That
  of the running message has delivered nothing yet, and no
  packet is delivered that is older than another one.
-/
structure SessionsKnown (S : Sodium) (w : World) : Prop where
  stored :
    ∀ (isAuth : Bool) (hdl : Hdl) (state : ConnectionState),
      (w.server.shared.sessionTable.table isAuth)[hdl]? =
          some state →
        ∃ l ∈ w.labels, ∃ x,
          Stems S isAuth hdl state.session l x
  unread :
    ∀ thread, w.server.events = some thread →
      thread.trace = [] →
        ∀ x, exchangeOf S (.event thread.call) = some x →
          ∀ (isAuth : Bool) (hdl : Hdl)
            (state : ConnectionState),
            (w.server.shared.sessionTable.table isAuth)[hdl]? =
                some state →
              state.session.rxKey ≠ x.derivation.c2s
  keyed :
    ∀ d ∈ w.deliveries, ∃ x ∈ exchanges S w.labels,
      d.session.rxKey = x.derivation.c2s
  passed :
    ∀ thread, w.server.events = some thread →
      ∀ x, exchangeOf S (.event thread.call) = some x →
        ∀ d ∈ w.deliveries,
          d.session.rxKey ≠ x.derivation.c2s
  bound :
    ∀ (isAuth : Bool) (hdl : Hdl) (state : ConnectionState),
      (w.server.shared.sessionTable.table isAuth)[hdl]? =
          some state →
        ∀ d ∈ w.deliveries,
          d.session.rxKey = state.session.rxKey →
            d.session.recvCounter ≤ state.session.recvCounter
  rising :
    w.deliveries.Pairwise
      (fun d d' =>
        d.session.rxKey = d'.session.rxKey →
          d.session.recvCounter < d'.session.recvCounter)
  replies :
    ∀ reply ∈ w.replies, ∃ x ∈ exchanges S w.labels,
      reply.1 = x.derivation.s2c

/- What the threads of the server keep to. -/
structure Served (S : Sodium) (w : World) : Prop where
  supervised : Supervised S w.labels w.server
  begins :
    ∀ thread, w.server.events = some thread → Begins S thread

section Serves

variable {w : World}
variable {l : Label ServerCall IoEvent}

theorem stored_serves
    (hKnown : SessionsKnown S w)
    (hServed : Served S w)
    (hAllowed : w.server.allowed l = true)
    {isAuth : Bool}
    {hdl : Hdl}
    {state : ConnectionState}
    (hEntry :
      ((serves S l w).server.shared.sessionTable.table
        isAuth)[hdl]? = some state) :
    ∃ l' ∈ w.labels, ∃ x,
      Stems S isAuth hdl state.session l' x := by
  have hStep : PoolStep S w.server l (serves S l w).server :=
    ⟨hAllowed, rfl⟩
  rcases entry_origin hServed.supervised hServed.begins hStep
      hEntry with
    ⟨old, hStored, hFollows⟩ | ⟨_, hEstablished⟩
  · rcases hKnown.stored isAuth hdl old hStored with
      ⟨l', hMem, x, hStems⟩
    exact ⟨l', hMem, x, hFollows.stems hStems⟩
  · rcases stems_of_established hServed.supervised
        hEstablished with
      ⟨thread, _, _, hBegun, ⟨x, hStems⟩, _⟩
    exact ⟨_, hBegun, x, hStems⟩

theorem keyed_serves
    (hKnown : SessionsKnown S w)
    (hServed : Served S w)
    (hAllowed : w.server.allowed l = true) :
    ∀ d ∈ (serves S l w).deliveries,
      ∃ x ∈ exchanges S w.labels,
        d.session.rxKey = x.derivation.c2s := by
  intro d hMem
  rcases deliveries_serves hServed.begins hAllowed with
    hSame | ⟨d', hdl, state, keys, counter, _, hMore, hTakes⟩
  · rw [hSame] at hMem
    exact hKnown.keyed d hMem
  · rw [hMore] at hMem
    rcases List.mem_append.mp hMem with hOld | hNew
    · exact hKnown.keyed d hOld
    · cases List.mem_singleton.mp hNew
      rcases hKnown.stored true hdl state hTakes.stored with
        ⟨l', hLabel, x, hStems⟩
      refine ⟨x, mem_exchanges hLabel hStems.exchange, ?_⟩
      rw [← hStems.rx, hTakes.session]
      rfl

/- A new message has keys that no session has had yet. -/
theorem unread_serves
    (hKnown : SessionsKnown S w)
    (hServed : Served S w)
    (hAllowed : w.server.allowed l = true)
    (hFresh : FreshKeys S l w)
    {thread : IoThread}
    (hThread : (serves S l w).server.events = some thread)
    (hTrace : thread.trace = [])
    {x : Exchange}
    (hExchange : exchangeOf S (.event thread.call) = some x)
    {isAuth : Bool}
    {hdl : Hdl}
    {state : ConnectionState}
    (hEntry :
      ((serves S l w).server.shared.sessionTable.table
        isAuth)[hdl]? = some state) :
    state.session.rxKey ≠ x.derivation.c2s := by
  have hStep : PoolStep S w.server l (serves S l w).server :=
    ⟨hAllowed, rfl⟩
  rcases unread_of_step hStep thread hThread hTrace with
    hLabel | ⟨thread', hThread', hTrace', hCall⟩
  · rcases stored_serves hKnown hServed hAllowed hEntry with
      ⟨l', hMem, x', hStems⟩
    rw [hStems.rx]
    subst hLabel
    exact
      hFresh.fresh hExchange x'
        (mem_exchanges hMem hStems.exchange)
  · rcases entry_origin hServed.supervised hServed.begins
        hStep hEntry with
      ⟨old, hStored, hFollows⟩ | ⟨_, hEstablished⟩
    · rw [hFollows.rxKey]
      rw [← hCall] at hExchange
      exact
        hKnown.unread thread' hThread' hTrace' x hExchange
          isAuth hdl old hStored
    · rcases hEstablished with
        ⟨running, _, _, hRunning, hBegun, _⟩
      cases hRunning.symm.trans hThread'
      exact absurd hTrace' hBegun

theorem passed_serves
    (hKnown : SessionsKnown S w)
    (hServed : Served S w)
    (hAllowed : w.server.allowed l = true)
    (hFresh : FreshKeys S l w)
    {thread : IoThread}
    (hThread : (serves S l w).server.events = some thread)
    {x : Exchange}
    (hExchange : exchangeOf S (.event thread.call) = some x) :
    ∀ d ∈ (serves S l w).deliveries,
      d.session.rxKey ≠ x.derivation.c2s := by
  have hStep : PoolStep S w.server l (serves S l w).server :=
    ⟨hAllowed, rfl⟩
  intro d hMem
  rcases Pool.event_of_step hStep thread hThread with
    hLabel | ⟨thread', hThread', hCall⟩
  · rcases keyed_serves hKnown hServed hAllowed d hMem with
      ⟨x', hMem', hKey⟩
    rw [hKey]
    subst hLabel
    exact hFresh.fresh hExchange x' hMem'
  · rw [← hCall] at hExchange
    have hOld :
        ∀ d ∈ w.deliveries,
          d.session.rxKey ≠ x.derivation.c2s :=
      hKnown.passed thread' hThread' x hExchange
    rcases deliveries_serves hServed.begins hAllowed with
      hSame | ⟨d', hdl, state, keys, counter, _, hMore, hTakes⟩
    · rw [hSame] at hMem
      exact hOld d hMem
    · rw [hMore] at hMem
      rcases List.mem_append.mp hMem with hBefore | hNew
      · exact hOld d hBefore
      · cases List.mem_singleton.mp hNew
        rcases hTakes.first with ⟨first, hFirst, hTrace⟩
        cases hFirst.symm.trans hThread'
        have hUnread :=
          hKnown.unread thread' hThread' hTrace x hExchange
            true hdl state hTakes.stored
        rw [hTakes.session]
        exact hUnread

/- A stored session is as far as all that was delivered. -/
theorem bound_serves
    (hKnown : SessionsKnown S w)
    (hServed : Served S w)
    (hKeys : KeysKnown S w)
    (hAllowed : w.server.allowed l = true)
    {isAuth : Bool}
    {hdl : Hdl}
    {state : ConnectionState}
    (hEntry :
      ((serves S l w).server.shared.sessionTable.table
        isAuth)[hdl]? = some state)
    {d : Delivery}
    (hMem : d ∈ (serves S l w).deliveries)
    (hKey : d.session.rxKey = state.session.rxKey) :
    d.session.recvCounter ≤ state.session.recvCounter := by
  have hStep : PoolStep S w.server l (serves S l w).server :=
    ⟨hAllowed, rfl⟩
  have hBefore
      (hOld : d ∈ w.deliveries) :
      d.session.recvCounter ≤ state.session.recvCounter := by
    rcases entry_origin hServed.supervised hServed.begins
        hStep hEntry with
      ⟨old, hStored, hFollows⟩ | ⟨_, hEstablished⟩
    · apply UInt64.le_trans _ hFollows.received
      apply hKnown.bound isAuth hdl old hStored d hOld
      rw [hKey, hFollows.rxKey]
    · rcases stems_of_established hServed.supervised
          hEstablished with
        ⟨thread, hThread, _, _, ⟨x, hStems⟩, _⟩
      have hOther :=
        hKnown.passed thread hThread x hStems.exchange d hOld
      exact absurd (hKey.trans hStems.rx) hOther
  rcases deliveries_serves hServed.begins hAllowed with
    hSame | ⟨d', hdl', old, keys, counter, _, hMore, hTakes⟩
  · rw [hSame] at hMem
    exact hBefore hMem
  · rw [hMore] at hMem
    rcases List.mem_append.mp hMem with hOld | hNew
    · exact hBefore hOld
    · cases List.mem_singleton.mp hNew
      -- both entries stem from the one exchange of the key
      rcases hTakes.kept with ⟨now, hKept⟩
      have hSession :
          ((serves S l w).server.shared.sessionTable.table
            true)[hdl']? =
            some (ConnectionState.received counter now old) :=
        hKept
      rcases stored_serves hKnown hServed hAllowed hSession with
        ⟨l₁, hMem₁, x₁, hStems₁⟩
      rcases stored_serves hKnown hServed hAllowed hEntry with
        ⟨l₂, hMem₂, x₂, hStems₂⟩
      have hSameKey :
          x₁.derivation.c2s = x₂.derivation.c2s := by
        rw [← hStems₁.rx, ← hStems₂.rx, ← hKey, hTakes.session]
        rfl
      have hSame :=
        exchange_unique hKeys
          (mem_exchanges hMem₁ hStems₁.exchange)
          (mem_exchanges hMem₂ hStems₂.exchange) hSameKey
      subst hSame
      have hSide := hStems₁.side.trans hStems₂.side.symm
      have hHdl :=
        hStems₁.connection.symm.trans hStems₂.connection
      subst hSide
      subst hHdl
      cases hKept.symm.trans hEntry
      rw [hTakes.session]
      exact UInt64.le_refl _

theorem rising_serves
    (hKnown : SessionsKnown S w)
    (hServed : Served S w)
    (hAllowed : w.server.allowed l = true) :
    (serves S l w).deliveries.Pairwise
      (fun d d' =>
        d.session.rxKey = d'.session.rxKey →
          d.session.recvCounter < d'.session.recvCounter) := by
  rcases deliveries_serves hServed.begins hAllowed with
    hSame | ⟨d, hdl, state, keys, counter, _, hMore, hTakes⟩
  · rw [hSame]
    exact hKnown.rising
  · rw [hMore]
    refine
      List.pairwise_append.mpr
        ⟨hKnown.rising, List.pairwise_singleton _ _, ?_⟩
    intro d' hOld d'' hNew hKey
    cases List.mem_singleton.mp hNew
    rw [hTakes.session] at hKey ⊢
    apply UInt64.lt_of_le_of_lt _ hTakes.newer
    exact
      hKnown.bound true hdl state hTakes.stored d' hOld hKey

theorem replies_serves
    (hKnown : SessionsKnown S w) :
    ∀ reply ∈ (serves S l w).replies,
      ∃ x ∈ exchanges S w.labels,
        reply.1 = x.derivation.s2c := by
  intro reply hMem
  rcases List.mem_append.mp hMem with hOld | hNew
  · exact hKnown.replies reply hOld
  · rcases List.mem_flatMap.mp hNew with
      ⟨effect, -, hSent⟩
    unfold sentUnder at hSent
    split at hSent
    · next hdl packet =>
        rcases List.mem_filterMap.mp hSent with
          ⟨isAuth, _, hEntry⟩
        rcases Option.map_eq_some_iff.mp hEntry with
          ⟨state, hStored, hReply⟩
        rcases hKnown.stored isAuth hdl state hStored with
          ⟨l', hLabel, x, hStems⟩
        refine ⟨x, mem_exchanges hLabel hStems.exchange, ?_⟩
        rw [← hReply]
        exact hStems.tx
    · cases hSent

theorem SessionsKnown.serves
    (hKnown : SessionsKnown S w)
    (hServed : Served S w)
    (hKeys : KeysKnown S w)
    (hAllowed : w.server.allowed l = true)
    (hFresh : FreshKeys S l w) :
    SessionsKnown S (serves S l w) where
  stored := by
    intro isAuth hdl state hEntry
    rcases stored_serves hKnown hServed hAllowed hEntry with
      ⟨l', hMem, hStems⟩
    exact ⟨l', List.mem_append_left _ hMem, hStems⟩
  unread := fun _ hThread hTrace _ hExchange _ _ _ hEntry =>
    unread_serves hKnown hServed hAllowed hFresh hThread
      hTrace hExchange hEntry
  keyed := by
    intro d hMem
    rcases keyed_serves hKnown hServed hAllowed d hMem with
      ⟨x, hExchange, hKey⟩
    exact ⟨x, exchanges_mono _ _ hExchange, hKey⟩
  passed := fun _ hThread _ hExchange =>
    passed_serves hKnown hServed hAllowed hFresh hThread
      hExchange
  bound := fun _ _ _ hEntry _ hMem hKey =>
    bound_serves hKnown hServed hKeys hAllowed hEntry hMem hKey
  rising := rising_serves hKnown hServed hAllowed
  replies := by
    intro reply hMem
    rcases replies_serves hKnown reply hMem with
      ⟨x, hExchange, hKey⟩
    exact ⟨x, exchanges_mono _ _ hExchange, hKey⟩

end Serves

------------------------------------------------------------
-- Where Deliveries Come From
------------------------------------------------------------

variable {pk : PublicKey}

/- What a run with ideal primitives shows. -/
structure Inv (S : Sodium) (pk : PublicKey) (w : World) :
    Prop where
  clients : ClientsKnown S w
  keys : KeysKnown S w
  served : Served S w
  sessions : SessionsKnown S w
  honest : ∀ l ∈ w.labels, HonestHello S pk l w
  sourced :
    ∀ d ∈ w.deliveries,
      d.session.getPeerIdentity = some pk →
        ∃ e ∈ w.encryptions, DeliveryOf e d ∧ SentAs pk w e

/- An encryption under the key of the exchange was made by
  the session whose hello it was. -/
theorem sentAs_of_key
    {w : World}
    (hInv : Inv S pk w)
    {x : Exchange}
    (hExchange : x ∈ exchanges S w.labels)
    {initiation : Initiation}
    (hInitiation : initiation ∈ w.initiations)
    (hIdentity : initiation.identity = some pk)
    (hPk : initiation.ephemeralPk = x.derivation.clientPk)
    {e : Encryption}
    (hMem : e ∈ w.encryptions)
    (hKey : e.record.key = x.derivation.c2s) :
    SentAs pk w e := by
  rcases (hInv.clients.encryptions e hMem).2 with
    ⟨d, hDerived, hTx, initiation', hMem', hClient, hPk'⟩
  have hLogged : d ∈ derivations S w :=
    List.mem_append_left _ hDerived
  have hLogged' : x.derivation ∈ derivations S w :=
    List.mem_append_right _ (List.mem_map_of_mem hExchange)
  have hPair :=
    hInv.keys.distinct.c2s d hLogged x.derivation hLogged'
      (hTx.trans hKey)
  have hSame : initiation = initiation' :=
    initiation_unique hInv.clients hInitiation hMem'
      (hPk.trans (hPair.1.symm.trans hPk'.symm))
  subst hSame
  exact
    ⟨initiation, hInitiation, hClient, hIdentity, d, hDerived,
      hPk'.symm, hTx⟩

/- A packet that a session of the identity has taken. -/
theorem sourced_of_takes
    (hCorrect : S.AeadCorrect)
    {w : World}
    (hInv : Inv S pk w)
    (hSealing : Sealing S w .stepEvent)
    {q : ServerPool}
    {d : Delivery}
    {hdl : Hdl}
    {state : ConnectionState}
    {keys : SessionKeys}
    {counter : UInt64}
    (hTakes : Takes S w.server q d hdl state keys counter)
    (hPeer : d.session.getPeerIdentity = some pk) :
    ∃ e ∈ w.encryptions, DeliveryOf e d ∧ SentAs pk w e := by
  rcases hInv.sessions.stored true hdl state hTakes.stored with
    ⟨l, hLabel, x, hStems⟩
  rcases hStems.identity rfl with ⟨hOffer, hIdentity⟩
  have hPk : x.hello.identityPk = pk := by
    rw [hTakes.session] at hPeer
    exact Option.some.inj (hIdentity.symm.trans hPeer)
  rcases hInv.honest l hLabel (hdl, x.hello) hOffer hPk with
    ⟨initiation, hInitiation, hConfigured, hEphemeral⟩
  have hExchange := mem_exchanges hLabel hStems.exchange
  have hClientPk :
      initiation.ephemeralPk = x.derivation.clientPk :=
    hEphemeral.trans (exchangeOf_clientPk hStems.exchange).symm
  have hRx : keys.rx = x.derivation.c2s :=
    hTakes.ready.rxKey_eq.symm.trans hStems.rx
  rcases hTakes.arrives with
    ⟨input, frame, hArriving, hPacket⟩
  have hOpens : S.Opens x.derivation.c2s frame.payload := by
    rw [hPacket, ← hRx]
    exact Crypto.opens_of_decrypt S hTakes.opens
  rcases hSealing _ hArriving x hExchange
      ⟨initiation, hInitiation, hClientPk⟩ hOpens with
    ⟨e, hMem, hKey, hSame⟩ | hReply
  · rcases (hInv.clients.encryptions e hMem).1 with
      ⟨nonce, hGenuine⟩
    have hOpened :=
      Crypto.decrypt_packet S hCorrect nonce e.record.payload
        e.record.counter keys.rx_size
    dsimp only at hSame
    rw [hRx, ← hKey, ← hGenuine, hSame, hPacket, hKey, ← hRx,
      hTakes.opens] at hOpened
    rcases Crypto.DecryptedResult.mk.inj
        (Except.ok.inj hOpened) with ⟨hPayload, hCounter⟩
    refine
      ⟨e, hMem,
        ⟨hSame.trans hPacket, hPayload.symm, ?_, ?_⟩,
        sentAs_of_key hInv hExchange hInitiation hConfigured
          hClientPk hMem hKey⟩
    · rw [hKey, ← hStems.rx, hTakes.session]
      rfl
    · rw [hTakes.session]
      exact hCounter.symm
  · rcases hInv.sessions.replies _ hReply with
      ⟨x', hExchange', hKey⟩
    exact
      absurd hKey
        (hInv.keys.distinct.directions x.derivation
          (List.mem_append_right _
            (List.mem_map_of_mem hExchange))
          x'.derivation
          (List.mem_append_right _
            (List.mem_map_of_mem hExchange')))

------------------------------------------------------------
-- Runs
------------------------------------------------------------

theorem SentAs.mono
    {w w' : World}
    {e : Encryption}
    (hSent : SentAs pk w e)
    (hMore : Extends w w') :
    SentAs pk w' e := by
  rcases hSent with
    ⟨initiation, hMem, hClient, hIdentity, d, hDerived, hKeys⟩
  exact
    ⟨initiation, hMore.initiations hMem, hClient, hIdentity,
      d, hMore.derived hDerived, hKeys⟩

theorem SessionsKnown.adds
    {w w' : World}
    (hKnown : SessionsKnown S w)
    (hAdds : Adds w w') :
    SessionsKnown S w' := by
  rcases hAdds with
    ⟨_, _, hServer, hLabels, hDeliveries, hReplies⟩
  rcases w' with
    ⟨_, _, _, _, server, labels, deliveries, replies⟩
  dsimp only at hServer hLabels hDeliveries hReplies
  subst hServer hLabels hDeliveries hReplies
  exact
    ⟨hKnown.stored, hKnown.unread, hKnown.keyed,
      hKnown.passed, hKnown.bound, hKnown.rising,
      hKnown.replies⟩

theorem Served.adds
    {w w' : World}
    (hServed : Served S w)
    (hAdds : Adds w w') :
    Served S w' where
  supervised := by
    rw [hAdds.server, hAdds.labels]
    exact hServed.supervised
  begins := by
    rw [hAdds.server]
    exact hServed.begins

theorem Inv.adds
    {w : World}
    {act : Action}
    (hInv : Inv S pk w)
    (hIdeal : Ideal S pk w act)
    (hAdds : Adds w (exec S w act)) :
    Inv S pk (exec S w act) where
  clients := hInv.clients.step hIdeal.1
  keys := hInv.keys.step hIdeal.1
  served := hInv.served.adds hAdds
  sessions := hInv.sessions.adds hAdds
  honest := by
    rw [hAdds.labels]
    exact
      fun l hMem =>
        (hInv.honest l hMem).mono (initiations_exec S w act)
  sourced := by
    rw [hAdds.deliveries]
    intro d hMem hPeer
    rcases hInv.sourced d hMem hPeer with
      ⟨e, hEncrypted, hOf, hSent⟩
    exact
      ⟨e, hAdds.encryptions hEncrypted, hOf,
        hSent.mono hAdds.toExtends⟩

theorem Inv.serves
    (hCorrect : S.AeadCorrect)
    {w : World}
    {l : Label ServerCall IoEvent}
    (hInv : Inv S pk w)
    (hIdeal : Ideal S pk w (.serves l)) :
    Inv S pk (serves S l w) := by
  rcases hIdeal with ⟨hFresh, hAllowed, hHonest, hSealing⟩
  have hStep :
      PoolStep S w.server l (NetworkAttack.serves S l w).server :=
    ⟨hAllowed, rfl⟩
  refine
    { clients := clientsKnown_serves hInv.clients l
      keys := hInv.keys.step hFresh
      served :=
        ⟨hInv.served.supervised.step hStep,
          begins_step hInv.served.begins hStep⟩
      sessions :=
        hInv.sessions.serves hInv.served hInv.keys hAllowed
          hFresh
      honest := ?_
      sourced := ?_ }
  · intro l' hMem
    rcases List.mem_append.mp hMem with hOld | hNew
    · exact hInv.honest l' hOld
    · cases List.mem_singleton.mp hNew
      exact hHonest
  · intro d hMem hPeer
    rcases deliveries_serves hInv.served.begins hAllowed with
      hSame | ⟨d', hdl, state, keys, counter, hLabel, hMore,
        hTakes⟩
    · rw [hSame] at hMem
      exact hInv.sourced d hMem hPeer
    · rw [hMore] at hMem
      rcases List.mem_append.mp hMem with hOld | hNew
      · exact hInv.sourced d hOld hPeer
      · cases List.mem_singleton.mp hNew
        subst hLabel
        exact
          sourced_of_takes hCorrect hInv hSealing hTakes hPeer

variable {serverSignKey : KeyPair}
variable {config : Config}
variable {hasOwner : Bool}

theorem inv_start :
    Inv S pk (start serverSignKey config hasOwner) where
  clients := ⟨by simp [start], by simp [start], by simp [start]⟩
  keys := ⟨keysDistinct_nil, List.Pairwise.nil⟩
  served :=
    ⟨⟨by simp [start, pool], by simp [start, pool]⟩,
      by simp [start, pool]⟩
  sessions := by
    refine
      { stored := ?_
        unread := by simp [start, pool]
        keyed := by simp [start]
        passed := by simp [start]
        bound := by simp [start]
        rising := List.Pairwise.nil
        replies := by simp [start] }
    intro isAuth hdl state hEntry
    cases isAuth <;>
      cases Std.ExtTreeMap.getElem?_empty.symm.trans hEntry
  honest := by simp [start]
  sourced := by simp [start]

theorem inv_of_run
    (hCorrect : S.AeadCorrect)
    {acts : List Action}
    {w : World}
    (hRun :
      StateMachine.Run
        (StateMachine.Guarded (Ideal S pk) (exec S))
        (start serverSignKey config hasOwner) acts w) :
    Inv S pk w := by
  refine hRun.invariant ?_ inv_start
  rintro v act u hInv ⟨hIdeal, hNext⟩
  subst hNext
  by_cases hServes : ∃ l, act = .serves l
  · rcases hServes with ⟨l, hServes⟩
    subst hServes
    exact hInv.serves hCorrect hIdeal
  · exact
      hInv.adds hIdeal
        (adds_of_exec (fun l hSame => hServes ⟨l, hSame⟩) v)

------------------------------------------------------------
-- The Order of the Encryptions
------------------------------------------------------------

/-
  The counter of a client session is as high as that of any
  packet it has sealed, and has been raised by encryptions
  only.
-/
structure Counted (w : World) : Prop where
  made : ∀ e ∈ w.encryptions, e.client < w.clients.length
  few :
    ∀ (i : Nat) (s : Session), w.clients[i]? = some s →
      s.sendCounter.toNat ≤ w.encryptions.length
  newest :
    ∀ (i : Nat) (s : Session), w.clients[i]? = some s →
      ∀ e ∈ w.encryptions, e.client = i →
        e.record.counter ≤ s.sendCounter
  rising :
    w.encryptions.Pairwise
      (fun e e' =>
        e.client = e'.client →
          e.record.counter < e'.record.counter)

theorem counted_start :
    Counted (start serverSignKey config hasOwner) where
  made := by simp [start]
  few := by simp [start]
  newest := by simp [start]
  rising := List.Pairwise.nil

theorem Counted.creates
    {w : World}
    (hCounted : Counted w)
    (serverPk : PublicKey)
    (versions : List Version) :
    Counted (creates serverPk versions w) where
  made := by
    intro e hMem
    have hBefore := hCounted.made e hMem
    simp only [NetworkAttack.creates, List.length_append]
    omega
  few := by
    intro i s hFound
    simp only [NetworkAttack.creates, List.getElem?_append]
      at hFound
    split at hFound
    · exact hCounted.few i s hFound
    · cases List.mem_singleton.mp (List.mem_of_getElem? hFound)
      exact Nat.zero_le _
  newest := by
    intro i s hFound e hMem hClient
    simp only [NetworkAttack.creates, List.getElem?_append]
      at hFound
    split at hFound
    · exact hCounted.newest i s hFound e hMem hClient
    · next hBeyond =>
        have hMade := hCounted.made e hMem
        rw [hClient] at hMade
        exact absurd hMade hBeyond
  rising := hCounted.rising

theorem set_cases
    {clients : List Session}
    {i j : Nat}
    {s' t' : Session}
    (hNow : (clients.set i s')[j]? = some t') :
    (j = i ∧ t' = s') ∨ (j ≠ i ∧ clients[j]? = some t') := by
  rw [List.getElem?_set] at hNow
  split at hNow
  · next hSame =>
      split at hNow
      · cases hNow
        exact Or.inl ⟨hSame.symm, rfl⟩
      · cases hNow
  · next hOther => exact Or.inr ⟨Ne.symm hOther, hNow⟩

/- A session is replaced by one with the same counter. -/
theorem Counted.keeps
    {w w' : World}
    {i : Nat}
    {s s' : Session}
    (hCounted : Counted w)
    (hFound : w.clients[i]? = some s)
    (hClients : w'.clients = w.clients.set i s')
    (hEncryptions : w'.encryptions = w.encryptions)
    (hCounter : s'.sendCounter = s.sendCounter) :
    Counted w' := by
  have hEntry :
      ∀ (j : Nat) (t' : Session), w'.clients[j]? = some t' →
        ∃ t, w.clients[j]? = some t ∧
          t'.sendCounter = t.sendCounter := by
    intro j t' hNow
    rw [hClients] at hNow
    rcases set_cases hNow with ⟨hSame, hHere⟩ | ⟨_, hOther⟩
    · subst hSame
      subst hHere
      exact ⟨s, hFound, hCounter⟩
    · exact ⟨t', hOther, rfl⟩
  constructor
  · rw [hEncryptions, hClients, List.length_set]
    exact hCounted.made
  · intro j t' hNow
    rcases hEntry j t' hNow with ⟨t, hBefore, hSame⟩
    rw [hEncryptions, hSame]
    exact hCounted.few j t hBefore
  · intro j t' hNow
    rcases hEntry j t' hNow with ⟨t, hBefore, hSame⟩
    rw [hEncryptions, hSame]
    exact hCounted.newest j t hBefore
  · rw [hEncryptions]
    exact hCounted.rising

/- The next counter is higher, and so is the packet's. -/
theorem Counted.seals
    {w w' : World}
    {i : Nat}
    {s s' : Session}
    {e : Encryption}
    (hCounted : Counted w)
    (hFound : w.clients[i]? = some s)
    (hClients : w'.clients = w.clients.set i s')
    (hEncryptions : w'.encryptions = w.encryptions ++ [e])
    (hCounter : s'.sendCounter = s.sendCounter + 1)
    (hClient : e.client = i)
    (hRecord : e.record.counter = s'.sendCounter)
    (hSmall : w'.encryptions.length < 2 ^ 64) :
    Counted w' := by
  rw [hEncryptions, List.length_append, List.length_singleton]
    at hSmall
  have hFew := hCounted.few i s hFound
  have hNext :
      s'.sendCounter.toNat = s.sendCounter.toNat + 1 := by
    rw [hCounter, UInt64.toNat_add]
    exact Nat.mod_eq_of_lt (by simp; omega)
  have hHigher : s.sendCounter < s'.sendCounter := by
    rw [UInt64.lt_iff_toNat_lt]
    omega
  constructor
  · rw [hEncryptions, hClients, List.length_set]
    intro d hMem
    rcases List.mem_append.mp hMem with hOld | hNew
    · exact hCounted.made d hOld
    · cases List.mem_singleton.mp hNew
      rw [hClient]
      exact (List.getElem?_eq_some_iff.mp hFound).1
  · intro j t' hNow
    rw [hEncryptions, List.length_append,
      List.length_singleton]
    rw [hClients] at hNow
    rcases set_cases hNow with ⟨_, hHere⟩ | ⟨_, hOther⟩
    · subst hHere
      omega
    · have hBefore := hCounted.few j t' hOther
      omega
  · intro j t' hNow d hMem hMade
    rw [hEncryptions] at hMem
    rw [hClients] at hNow
    rcases set_cases hNow with ⟨hSame, hHere⟩ | ⟨hNe, hOther⟩
    · subst hSame
      subst hHere
      rcases List.mem_append.mp hMem with hOld | hNew
      · exact
          UInt64.le_trans
            (hCounted.newest j s hFound d hOld hMade)
            (UInt64.le_of_lt hHigher)
      · cases List.mem_singleton.mp hNew
        exact UInt64.le_of_eq hRecord
    · rcases List.mem_append.mp hMem with hOld | hNew
      · exact hCounted.newest j t' hOther d hOld hMade
      · cases List.mem_singleton.mp hNew
        exact absurd (hMade.symm.trans hClient) hNe
  · rw [hEncryptions]
    refine
      List.pairwise_append.mpr
        ⟨hCounted.rising, List.pairwise_singleton _ _, ?_⟩
    intro d hOld d' hNew hSame
    cases List.mem_singleton.mp hNew
    rw [hRecord]
    exact
      UInt64.lt_of_le_of_lt
        (hCounted.newest i s hFound d hOld
          (hSame.trans hClient))
        hHigher

/- Only an encryption changes the counter of a session. -/
theorem Counted.step
    {w : World}
    (hCounted : Counted w)
    (act : Action)
    (hSmall : (exec S w act).encryptions.length < 2 ^ 64) :
    Counted (exec S w act) := by
  cases act with
  | creates serverPk versions =>
      exact hCounted.creates serverPk versions
  | identifies i identityKp =>
      simp only [exec, identifies]
      split
      · exact hCounted
      · next s hFound =>
          refine hCounted.keeps hFound rfl rfl ?_
          unfold Session.setClientIdentityKey
          split <;> rfl
  | initiates i kx =>
      simp only [exec, initiates]
      split
      · exact hCounted
      · next s hFound =>
          refine hCounted.keeps hFound rfl rfl ?_
          exact Session.clientInitiateHandshake_counter S kx s
  | finalizes i serverHello =>
      simp only [exec, finalizes]
      split
      · exact hCounted
      · next s hFound =>
          refine hCounted.keeps hFound rfl rfl ?_
          exact
            Session.clientFinalizeHandshake_counter S
              serverHello s
  | encrypts i nonce payload =>
      simp only [exec, encrypts] at hSmall ⊢
      cases hFound : w.clients[i]? with
      | none => exact hCounted
      | some s =>
          rw [hFound] at hSmall
          by_cases hComplete : s.handshakeComplete = true
          · rcases Session.exists_ready hComplete with
              ⟨keys, hReady⟩
            simp only [Session.encryptPayload_ready S hReady]
              at hSmall ⊢
            exact
              hCounted.seals hFound rfl rfl rfl rfl rfl hSmall
          · simp only
              [Session.encryptPayload_incomplete S hComplete]
            exact hCounted.keeps hFound rfl rfl rfl
  | decrypts i packet =>
      simp only [exec, decrypts]
      split
      · exact hCounted
      · next s hFound =>
          refine hCounted.keeps hFound rfl rfl ?_
          rcases Session.decryptPacket_cases S s packet with
            ⟨e, hError⟩ | ⟨keys, result, _, _, _, hOk⟩
          · rw [hError]
          · rw [hOk]
  | serves l =>
      exact
        ⟨hCounted.made, hCounted.few, hCounted.newest,
          hCounted.rising⟩

/- No encryption is taken off the record. -/
theorem encryptions_grow (w : World) (act : Action) :
    w.encryptions <+: (exec S w act).encryptions := by
  cases act with
  | creates serverPk versions => exact List.prefix_refl _
  | serves l => exact List.prefix_refl _
  | identifies i identityKp =>
      simp only [exec, identifies]
      split <;> exact List.prefix_refl _
  | initiates i kx =>
      simp only [exec, initiates]
      split <;> exact List.prefix_refl _
  | finalizes i serverHello =>
      simp only [exec, finalizes]
      split <;> exact List.prefix_refl _
  | encrypts i nonce payload =>
      simp only [exec, encrypts]
      split
      · exact List.prefix_refl _
      · split
        · exact List.prefix_refl _
        · exact List.prefix_append _ _
  | decrypts i packet =>
      simp only [exec, decrypts]
      split <;> exact List.prefix_refl _

theorem counted_of_run
    {ok : World → Action → Prop}
    {acts : List Action}
    {w : World}
    (hRun :
      StateMachine.Run (StateMachine.Guarded ok (exec S))
        (start serverSignKey config hasOwner) acts w)
    (hSmall : w.encryptions.length < 2 ^ 64) :
    Counted w := by
  have hCounted :
      w.encryptions.length < 2 ^ 64 → Counted w := by
    refine
      hRun.invariant
        (P := fun w =>
          w.encryptions.length < 2 ^ 64 → Counted w)
        ?_ (fun _ => counted_start)
    rintro v act u hBefore ⟨_, hNext⟩ hFew
    subst hNext
    have hFewer :=
      (encryptions_grow (S := S) v act).length_le
    exact
      (hBefore (Nat.lt_of_le_of_lt hFewer hFew)).step act hFew
  exact hCounted hSmall

/- A key seals for one client session only. -/
theorem client_of_key
    {w : World}
    (hClients : ClientsKnown S w)
    (hKeys : KeysKnown S w)
    {e e' : Encryption}
    (hMem : e ∈ w.encryptions)
    (hMem' : e' ∈ w.encryptions)
    (hSame : e.record.key = e'.record.key) :
    e.client = e'.client := by
  rcases (hClients.encryptions e hMem).2 with
    ⟨d, hDerived, hTx, initiation, hMade, hClient, hPk⟩
  rcases (hClients.encryptions e' hMem').2 with
    ⟨d', hDerived', hTx', initiation', hMade', hClient', hPk'⟩
  have hPair :=
    hKeys.distinct.c2s d (List.mem_append_left _ hDerived) d'
      (List.mem_append_left _ hDerived')
      (hTx.trans (hSame.trans hTx'.symm))
  have hInitiation : initiation = initiation' :=
    initiation_unique hClients hMade hMade'
      (hPk.trans (hPair.1.trans hPk'.symm))
  rw [← hClient, ← hClient', hInitiation]

/- Deliveries that share key and counter are the same one. -/
theorem delivery_unique
    {w : World}
    (hKnown : SessionsKnown S w)
    {i j : Nat}
    {d d' : Delivery}
    (hFound : w.deliveries[i]? = some d)
    (hFound' : w.deliveries[j]? = some d')
    (hKey : d.session.rxKey = d'.session.rxKey)
    (hCounter :
      d.session.recvCounter = d'.session.recvCounter) :
    i = j := by
  rcases List.getElem?_eq_some_iff.mp hFound with
    ⟨hIndex, hGet⟩
  rcases List.getElem?_eq_some_iff.mp hFound' with
    ⟨hIndex', hGet'⟩
  subst hGet
  subst hGet'
  have hRising := List.pairwise_iff_getElem.mp hKnown.rising
  rcases Nat.lt_trichotomy i j with hLess | hSame | hMore
  · have hLt := hRising i j hIndex hIndex' hLess hKey
    rw [hCounter] at hLt
    exact absurd hLt (UInt64.lt_irrefl _)
  · exact hSame
  · have hLt := hRising j i hIndex' hIndex hMore hKey.symm
    rw [hCounter] at hLt
    exact absurd hLt (UInt64.lt_irrefl _)

/- Sources of deliveries under one key are in their order. -/
theorem sources_rise
    {w : World}
    (hInv : Inv S pk w)
    (hCounted : Counted w)
    {i j k k' : Nat}
    {d d' : Delivery}
    {e e' : Encryption}
    (hLess : i < j)
    (hFound : w.deliveries[i]? = some d)
    (hFound' : w.deliveries[j]? = some d')
    (hKey : d.session.rxKey = d'.session.rxKey)
    (hIndex : w.encryptions[k]? = some e)
    (hIndex' : w.encryptions[k']? = some e')
    (hOf : DeliveryOf e d)
    (hOf' : DeliveryOf e' d') :
    k < k' := by
  have hClient : e.client = e'.client :=
    client_of_key hInv.clients hInv.keys
      (List.mem_of_getElem? hIndex)
      (List.mem_of_getElem? hIndex')
      (hOf.2.2.1.trans (hKey.trans hOf'.2.2.1.symm))
  have hNewer : e.record.counter < e'.record.counter := by
    rcases List.getElem?_eq_some_iff.mp hFound with
      ⟨hBound, hGet⟩
    rcases List.getElem?_eq_some_iff.mp hFound' with
      ⟨hBound', hGet'⟩
    rw [hOf.2.2.2, hOf'.2.2.2]
    subst hGet
    subst hGet'
    exact
      List.pairwise_iff_getElem.mp hInv.sessions.rising i j
        hBound hBound' hLess hKey
  rcases List.getElem?_eq_some_iff.mp hIndex with
    ⟨hBound, hGet⟩
  rcases List.getElem?_eq_some_iff.mp hIndex' with
    ⟨hBound', hGet'⟩
  subst hGet
  subst hGet'
  rcases Nat.lt_trichotomy k k' with hRises | hSame | hFalls
  · exact hRises
  · subst hSame
    exact absurd hNewer (UInt64.lt_irrefl _)
  · have hOlder :=
      List.pairwise_iff_getElem.mp hCounted.rising k' k hBound'
        hBound hFalls hClient.symm
    exact absurd (UInt64.lt_trans hNewer hOlder)
      (UInt64.lt_irrefl _)

/-
  Every payload delivered on a connection of the identity was
  encrypted by a session that had signed as the identity, no
  encryption is delivered twice, and none is overtaken.
-/
theorem payload_authenticity
    (hCorrect : S.AeadCorrect)
    {acts : List Action}
    {w : World}
    (hRun :
      StateMachine.Run
        (StateMachine.Guarded (Ideal S pk) (exec S))
        (start serverSignKey config hasOwner) acts w) :
    Authentic pk w := by
  have hInv := inv_of_run hCorrect hRun
  have hSources :
      ∀ i : Nat, ∃ k : Nat, ∀ d,
        DeliveredAs pk w i d →
          ∃ e,
            w.encryptions[k]? = some e ∧
              DeliveryOf e d ∧ SentAs pk w e := by
    intro i
    by_cases hDelivered : ∃ d, DeliveredAs pk w i d
    · rcases hDelivered with ⟨d, hFound, hPeer⟩
      rcases hInv.sourced d (List.mem_of_getElem? hFound) hPeer
        with ⟨e, hMem, hOf, hSent⟩
      rcases List.getElem?_of_mem hMem with ⟨k, hIndex⟩
      refine ⟨k, ?_⟩
      rintro d' ⟨hFound', _⟩
      cases hFound.symm.trans hFound'
      exact ⟨e, hIndex, hOf, hSent⟩
    · exact
        ⟨0, fun d hDelivery =>
          absurd ⟨d, hDelivery⟩ hDelivered⟩
  choose sourceOf hOf using hSources
  refine ⟨sourceOf, ?_, hOf, ?_⟩
  · rintro i ⟨d, hFound⟩ j ⟨d', hFound'⟩ hSame
    rcases hOf i d hFound with ⟨e, hIndex, hSource, _⟩
    rcases hOf j d' hFound' with ⟨e', hIndex', hSource', _⟩
    rw [hSame, hIndex'] at hIndex
    cases hIndex
    have hKey : d.session.rxKey = d'.session.rxKey :=
      hSource.2.2.1.symm.trans hSource'.2.2.1
    have hCounter :
        d.session.recvCounter = d'.session.recvCounter :=
      hSource.2.2.2.symm.trans hSource'.2.2.2
    exact
      delivery_unique hInv.sessions hFound.1 hFound'.1 hKey
        hCounter
  · intro hSmall i j d d' hLess hFound hFound' hKey
    have hCounted := counted_of_run hRun hSmall
    rcases hOf i d hFound with ⟨e, hIndex, hSource, _⟩
    rcases hOf j d' hFound' with ⟨e', hIndex', hSource', _⟩
    exact
      sources_rise hInv hCounted hLess hFound.1 hFound'.1 hKey
        hIndex hIndex' hSource hSource'

------------------------------------------------------------
-- Sample Runs
------------------------------------------------------------

instance (w : World) (x : Exchange) :
    Decidable (HonestKey w x) :=
  inferInstanceAs
    (Decidable
      (∃ initiation ∈ w.initiations,
        initiation.ephemeralPk = x.derivation.clientPk))

instance (w : World) (key packet : Bytes) :
    Decidable (OnRecord w key packet) :=
  inferInstanceAs
    (Decidable
      ((∃ e ∈ w.encryptions,
          e.record.key = key ∧ e.record.packet = packet) ∨
        (key, packet) ∈ w.replies))

instance (S : Sodium) (w : World) :
    (l : Label ServerCall IoEvent) → Decidable (Sealing S w l)
| .stepEvent =>
    inferInstanceAs
      (Decidable
        (∀ arrival, arriving w.server = some arrival →
          ∀ x ∈ exchanges S w.labels,
            HonestKey w x →
              S.Opens x.derivation.c2s arrival.2.2.payload →
                OnRecord w x.derivation.c2s
                  arrival.2.2.payload))
| .call _ => inferInstanceAs (Decidable True)
| .event _ => inferInstanceAs (Decidable True)
| .stepCall _ => inferInstanceAs (Decidable True)

instance
    (S : Sodium)
    (pk : PublicKey)
    (w : World) :
    (act : Action) → Decidable (Secrets S pk w act)
| .serves l =>
    inferInstanceAs
      (Decidable
        (w.server.allowed l = true ∧
          HonestHello S pk l w ∧ Sealing S w l))
| .creates _ _ => inferInstanceAs (Decidable True)
| .identifies _ _ => inferInstanceAs (Decidable True)
| .initiates _ _ => inferInstanceAs (Decidable True)
| .finalizes _ _ => inferInstanceAs (Decidable True)
| .encrypts _ _ _ => inferInstanceAs (Decidable True)
| .decrypts _ _ => inferInstanceAs (Decidable True)

instance
    (S : Sodium)
    (pk : PublicKey)
    (w : World)
    (act : Action) :
    Decidable (Ideal S pk w act) :=
  inferInstanceAs
    (Decidable (Fresh S w act ∧ Secrets S pk w act))

open PlainSodium

/- The server's answer to a hello, with its own key. -/
def sampleReply (ephemeral : UInt8) : ServerHello where
  selectedVersion := Versions.v1_1
  ephemeralPk := ⟨List.replicate 32 ephemeral⟩
  signature :=
    ⟨signature (List.replicate 32 6)
      (List.replicate 32 ephemeral)⟩

/- A payload is sealed once, and its packet repeated. -/
def sampleRun : List Action :=
  [ .creates (sampleKeyPair 6).publicKey supportedVersions,
    .identifies 0 (sampleKeyPair 5),
    .initiates 0 (sampleKx 7),
    .serves (.event (IoEvent.hello 1 7)) ] ++
    List.replicate 13 (.serves .stepEvent) ++
    [ .finalizes 0 (sampleReply 7),
      .encrypts 0 .zero { opCode := 9, parameters := [] },
      .serves (.event (IoEvent.sealed 1 7 1 9 [])) ] ++
    List.replicate 6 (.serves .stepEvent) ++
    [ .serves (.event (IoEvent.sealed 1 7 1 9 [])) ] ++
    List.replicate 6 (.serves .stepEvent)

def sampleWorld : World :=
  sampleRun.foldl (exec plainSodium)
    (start (sampleKeyPair 6) Config.withDefaults true)

set_option maxRecDepth 8000 in
/- The payload is delivered once. -/
theorem payload_authenticity_repeated :
    sampleWorld.deliveries.map Delivery.payload =
        [{ opCode := 9, parameters := [] }] ∧
      Authentic (sampleKeyPair 5).publicKey sampleWorld :=
  ⟨by decide +kernel,
    payload_authenticity plainSodium_aeadCorrect
      (StateMachine.run_of_allowed _ _ _ _
        (by decide +kernel))⟩

end PayloadAuthenticity

end ObscuraProto
