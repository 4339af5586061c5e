import ObscuraProto.NetworkAttack
import ObscuraProto.WsServer.Arrivals

/-
  Authenticated connections and the initiations behind them.

  The identity signature of a hello covers the ephemeral key
  of the client and nothing of the connection, so a hello
  that was recorded is as good on another connection.  As
  long as none is taken up on two connections, those that
  are introduced under an identity have initiations of their
  own.

  Key definitions include:
    * `HelloReplays.Introduced`
    * `HelloReplays.OwnInitiations`
    * `HelloReplays.NotReplayed`

  Key theorems include:
    * `HelloReplays.taken_of_introduced`
    * `HelloReplays.own_initiations`
    * `HelloReplays.replayed_hello`
-/

namespace ObscuraProto

namespace HelloReplays

open Effectful WsServer Threads NetworkAttack
open NamespaceSeparation (Labels)

variable (S : Sodium)

------------------------------------------------------------
-- The Property
------------------------------------------------------------

/- Sessions whose identity is `pk` alone can sign as `pk`. -/
def Unforgeable (pk : PublicKey) (w : World) :
    Action → Prop
| .serves l =>
    w.server.allowed l = true ∧ HonestHello S pk l w
| _ => True

/-
  The hello that the io thread is about to take up was taken
  up on no other connection; frames of text and those of
  connections with a session do not count.
-/
def NotReplayed (pk : PublicKey) (w : World) :
    Action → Prop
| .serves .stepEvent =>
    ∀ offer, taken S w.server = some offer →
      offer.2.identityPk = pk →
        ∀ offer' ∈ w.hellos,
          offer'.2.identityPk = pk →
            offer'.2.ephemeralPk = offer.2.ephemeralPk →
              offer'.1 = offer.1
| _ => True

/- The server has the connection as one of the identity. -/
def NamedAs
    (pk : PublicKey)
    (hdl : Hdl)
    (w : WsServer) : Prop :=
  (∃ state : ConnectionState,
      w.sessionTable.sessions[hdl]? = some state ∧
        state.session.getPeerIdentity = some pk) ∨
    w.identities.identityToHdl[pk]? = some hdl

/- The connection is or was one of the identity. -/
def Introduced
    (start : World)
    (pk : PublicKey)
    (acts : List Action)
    (hdl : Hdl) : Prop :=
  ∃ earlier w,
    earlier <+: acts ∧
      StateMachine.Run
        (StateMachine.Guarded (Unforgeable S pk) (exec S))
        start earlier w ∧
      NamedAs pk hdl w.server.shared

/- The hello of the initiation was taken up there. -/
def StemsFrom
    (pk : PublicKey)
    (hdl : Hdl)
    (initiation : Initiation)
    (w : World) : Prop :=
  initiation.identity = some pk ∧
    ∃ hello,
      (hdl, hello) ∈ w.hellos ∧
        hello.identityPk = pk ∧
        hello.ephemeralPk = initiation.ephemeralPk

/-
  The connections of an identity are mapped one to one to
  initiations by sessions that were configured with it.
-/
def OwnInitiations
    (start : World)
    (pk : PublicKey)
    (acts : List Action)
    (w : World) : Prop :=
  ∃ initiationOf : Hdl → Nat,
    Set.InjOn initiationOf
        {hdl | Introduced S start pk acts hdl} ∧
      ∀ hdl, Introduced S start pk acts hdl →
        ∃ initiation,
          w.initiations[initiationOf hdl]? =
              some initiation ∧
            StemsFrom pk hdl initiation w

------------------------------------------------------------
-- The Identity Map
------------------------------------------------------------

variable {S}

/- Entries are kept as they are or removed. -/
def NamesNone (w w' : WsServer) : Prop :=
  ∀ (pk : PublicKey) (hdl : Hdl),
    w'.identities.identityToHdl[pk]? = some hdl →
      w.identities.identityToHdl[pk]? = some hdl

/- A new entry is that of the hello on its connection. -/
def Names
    (S : Sodium)
    (event : ServerEvent)
    (w : WsServer)
    (_ : List ServerEffect)
    (w' : WsServer) : Prop :=
  ∀ (pk : PublicKey) (hdl : Hdl),
    w'.identities.identityToHdl[pk]? = some hdl →
      w.identities.identityToHdl[pk]? = some hdl ∨
        ∃ input frame hello,
          event = .message input hdl frame ∧
            identifiedHello S frame.payload = some hello ∧
            hello.identityPk = pk

theorem namesNone_of_eq
    {w w' : WsServer}
    (hSame : w'.identities = w.identities) :
    NamesNone w w' := by
  intro pk hdl hFound
  rw [hSame] at hFound
  exact hFound

theorem NamesNone.names
    {event : ServerEvent}
    {w w' : WsServer}
    {effects : List ServerEffect}
    (hNone : NamesNone w w') :
    Names S event w effects w' :=
  fun pk hdl hFound => Or.inl (hNone pk hdl hFound)

theorem names_of_eq
    {event : ServerEvent}
    {w w' : WsServer}
    {effects : List ServerEffect}
    (hSame : w'.identities = w.identities) :
    Names S event w effects w' :=
  (namesNone_of_eq hSame).names

theorem unregister_entry
    {m : IdentityMap}
    {hdl hdl' : Hdl}
    {pk : PublicKey}
    (hFound :
      (m.unregister hdl').identityToHdl[pk]? = some hdl) :
    m.identityToHdl[pk]? = some hdl := by
  unfold IdentityMap.unregister at hFound
  split at hFound
  · exact hFound
  · exact (OrderedMap.of_getElem?_erase hFound).2

/- Only a handshake registers an identity. -/
theorem namesNone_of_move
    {may : May}
    {w w' : WsServer}
    {effects : List ServerEffect}
    (hMove : Move S may w effects w')
    (hNot : ∀ hdl, ¬ may.establishes hdl) :
    NamesNone w w' := by
  cases hMove with
  | identifies _ hMay => exact absurd hMay (hNot _)
  | unregisters _ =>
      exact fun pk hdl hFound => unregister_entry hFound
  | forgetsIdentities _ =>
      intro pk hdl hFound
      cases Std.ExtTreeMap.getElem?_empty.symm.trans hFound
  | registers registration callback _ =>
      cases registration <;> exact namesNone_of_eq rfl
  | receives _ hWithin =>
      apply namesNone_of_eq
      rw [hWithin.state]
  | closesSessions _ =>
      apply namesNone_of_eq
      unfold closeSession
      split <;> split <;> rfl
  | _ => exact namesNone_of_eq rfl

------------------------------------------------------------
-- Registrations of a Message
------------------------------------------------------------

variable {input : IoInput}
variable {hdl : Hdl}
variable {frame : Frame}

/- Short for: what is registered is the hello's identity. -/
abbrev MessageNames
    {α : Type}
    (S : Sodium)
    (input : IoInput)
    (hdl : Hdl)
    (frame : Frame)
    (act : ServerAction α) : Prop :=
  Ensures (Names S (.message input hdl frame)) act

theorem plain_names
    {α : Type}
    {act : ServerAction α}
    (hMoves : Moves S plainMay act) :
    MessageNames S input hdl frame act :=
  hMoves.mono
    (fun _ _ _ hMove =>
      (namesNone_of_move hMove
        plainMay_plain.establishes).names)

theorem establish_names
    (session : Session)
    {identity : Option PublicKey}
    (hIdentity :
      ∀ clientPk, identity = some clientPk →
        ∃ hello,
          identifiedHello S frame.payload = some hello ∧
            hello.identityPk = clientPk) :
    MessageNames S input hdl frame
      (establish input hdl session identity) := by
  refine .bind (.atomic (fun _ => names_of_eq rfl)) ?_
  intro connId
  refine .bind (.modify (fun _ => names_of_eq rfl)) ?_
  intro _
  cases identity with
  | none => exact .pure ()
  | some clientPk =>
      apply Ensures.modify
      intro w pk hdl' hFound
      rcases OrderedMap.of_getElem?_insert hFound with
        ⟨hPk, hHdl⟩ | ⟨_, hOld⟩
      · rcases hIdentity clientPk rfl with
          ⟨hello, hHello, hSame⟩
        subst hHdl
        exact
          Or.inr
            ⟨input, frame, hello, rfl, hHello,
              hSame.trans hPk.symm⟩
      · exact Or.inl hOld

/- The peer identity is that of the hello, if it has one. -/
theorem conclude_names
    {hello : ClientHello}
    {session : Session}
    (hPeer :
      ∀ clientPk,
        hello.hasClientIdentity = true →
          session.getPeerIdentity = some clientPk →
            identifiedHello S frame.payload = some hello ∧
              hello.identityPk = clientPk) :
    MessageNames S input hdl frame
      (conclude input hdl hello session) := by
  have hClear :
      Unit →
        MessageNames S input hdl frame
          (clearHandshakeTime hdl) :=
    fun _ => plain_names (clearHandshakeTime_moves S hdl)
  refine
    .bind
      (plain_names
        (limiterRecord_moves S
          (fun rl => rl.recordHandshake_counts _ _))) ?_
  intro _
  dsimp only
  split
  · next clientPk hFlag hIdentity =>
      refine .bind ?_ hClear
      refine
        .bind
          (plain_names
            (identityAccepted_moves S (fun _ => trivial) _))
          ?_
      intro accepted
      split
      · apply establish_names
        intro pk hSame
        cases hSame
        exact ⟨hello, hPeer clientPk hFlag hIdentity⟩
      · exact plain_names (closeHdl_moves S _ _ _ _)
  · refine .bind (establish_names session ?_) hClear
    intro clientPk hNone
    cases hNone

/- The signature was checked before the session was made. -/
theorem handshake_names :
    MessageNames S input hdl frame
      (handshake S input hdl frame.payload) := by
  refine
    .bind
      (plain_names
        (limiterCheck_moves S
          (fun rl => rl.checkHandshakeRate_counts _ _))) ?_
  intro allowed
  split
  · exact plain_names (closeHdl_moves S _ _ _ _)
  · refine .ofExcept_bind ?_
    intro hello hHello
    refine .bind (plain_names (get_moves S)) ?_
    intro w
    dsimp only
    cases hReply :
        (Session.new .server w.serverSignKey
          w.config.supportedVersions
          ).serverRespondToHandshake S input.kx hello with
    | mk reply session =>
        refine .ofExcept_bind ?_
        intro serverHello hOk
        simp only at hOk
        rw [hOk] at hReply
        rcases Session.serverRespondToHandshake_ok S hReply
          with ⟨_, _, _, _, hVerify, _, _, _, _, hSession⟩
        refine .bind (.emit (fun _ => names_of_eq rfl)) ?_
        intro _
        refine .bind (.ofExcept _) ?_
        intro _
        apply conclude_names
        intro clientPk hFlag hPeer
        rw [hSession] at hPeer
        simp only [Session.getPeerIdentity,
          Session.established, hFlag, if_true] at hPeer
        cases hPeer
        refine ⟨?_, rfl⟩
        unfold identifiedHello
        rw [hHello]
        simp [hFlag, hVerify hFlag]

theorem onMessage_names :
    MessageNames S input hdl frame
      (onMessage S input hdl frame) := by
  unfold onMessage
  split
  · exact .pure ()
  · refine .bind (.atomic ?_) ?_
    · intro w
      have hWithin := receive_within S input hdl frame.payload w
      rw [receive, Action.run_atomically] at hWithin
      apply names_of_eq
      rw [hWithin.state]
    · intro received
      cases received with
      | ignored => exact .pure ()
      | decrypted isAuth payload =>
          refine .catchAll ?_ (fun _ => .pure ())
          exact
            plain_names
              (dispatch_moves S (fun _ _ => trivial) trivial
                (fun _ => trivial) input isAuth payload)
      | unknown =>
          refine .catchAll handshake_names ?_
          intro _
          exact plain_names (closeHdl_moves S _ _ _ _)

theorem handle_names (event : IoEvent) :
    Ensures (Names S event.val) (handle S event.val) := by
  rcases event with ⟨event, hIo⟩
  have hPlain
      (hNot : ∀ hdl, ¬ event.may.establishes hdl) :
      Ensures (Names S event) (handle S event) :=
    (handle_moves S event).mono
      (fun _ _ _ hMove => (namesNone_of_move hMove hNot).names)
  cases event with
  | message input hdl frame => exact onMessage_names
  | opened | closed | timeouts => exact hPlain (fun _ h => h)
  | call method => cases hIo

------------------------------------------------------------
-- Every Interleaving
------------------------------------------------------------

/- A hello of the identity was taken up on the connection. -/
def TakenUp
    (hellos : List (Hdl × ClientHello))
    (pk : PublicKey)
    (hdl : Hdl) : Prop :=
  ∃ hello, (hdl, hello) ∈ hellos ∧ hello.identityPk = pk

/-
  After the first step of a message its hello has been taken
  up, or what is left of the code has nothing to do with it.
-/
def Settled
    (S : Sodium)
    (hellos : List (Hdl × ClientHello))
    (thread : IoThread) : Prop :=
  thread.trace ≠ [] →
    ∀ input hdl frame hello,
      thread.call.val = .message input hdl frame →
        identifiedHello S frame.payload = some hello →
          (hdl, hello) ∈ hellos ∨
            Moves S plainMay thread.code

theorem Settled.mono
    {hellos : List (Hdl × ClientHello)}
    {thread : IoThread}
    (hSettled : Settled S hellos thread)
    (more : List (Hdl × ClientHello)) :
    Settled S (hellos ++ more) thread := by
  intro hLater input hdl frame hello hEvent hHello
  rcases hSettled hLater input hdl frame hello hEvent hHello
    with hTaken | hPlain
  · exact Or.inl (List.mem_append_left more hTaken)
  · exact Or.inr hPlain

/- The first step of a message looks for a session. -/
theorem taken_of_first
    {p : ServerPool}
    {thread : IoThread}
    {effects : WsServer → List ServerEffect}
    {next : WsServer → WsServer}
    {rest : WsServer → ServerAction Unit}
    (hBegins : Begins S thread)
    (hThread : p.events = some thread)
    (hCode : thread.code = .step effects next rest)
    (hFirst : thread.trace = [])
    (hEvent : thread.call.val = .message input hdl frame)
    {hello : ClientHello}
    (hHello : identifiedHello S frame.payload = some hello) :
    taken S p = some (hdl, hello) ∨
      Moves S plainMay (rest p.shared) := by
  have hStart := hBegins.first hFirst
  rw [hCode, hEvent] at hStart
  cases hBinary : frame.binary with
  | false =>
      simp only [handle, onMessage, hBinary, Bool.not_false,
        if_true] at hStart
      cases hStart
  | true =>
      rcases onMessage_first S input hdl hBinary with
        ⟨later, hSection, _, hPlain⟩
      cases hStart.trans hSection
      by_cases hUnknown :
          ((receive S input hdl frame.payload).run
            p.shared).result = .ok .unknown
      · apply Or.inl
        have hArriving :
            arriving p = some (input, hdl, frame) := by
          rcases thread with ⟨⟨event, hIo⟩, trace, code⟩
          dsimp only at hFirst hEvent hCode
          subst hFirst hEvent hCode
          unfold arriving
          rw [hThread]
        unfold taken
        rw [hArriving]
        simp only [hUnknown, hHello, Option.map_some]
      · exact Or.inr (hPlain _ hUnknown)

theorem settled_step
    {hellos : List (Hdl × ClientHello)}
    {p q : ServerPool}
    {l : Label ServerCall IoEvent}
    (hBegins :
      ∀ thread, p.events = some thread → Begins S thread)
    (hSettled :
      ∀ thread, p.events = some thread →
        Settled S hellos thread)
    (hStep : PoolStep S p l q) :
    ∀ thread, q.events = some thread →
      Settled S (hellos ++ takenBy S p l) thread := by
  rcases hStep with ⟨_, hNext⟩
  subst hNext
  cases l with
  | call k =>
      exact fun thread hThread =>
        (hSettled thread hThread).mono _
  | event event =>
      intro thread hThread
      cases hThread
      exact fun hLater => absurd rfl hLater
  | stepCall i =>
      intro thread hThread
      rw [show (p.exec (poolProgram S) (.stepCall i)).events =
        p.events from Pool.stepCall_events _ i p] at hThread
      exact (hSettled thread hThread).mono _
  | stepEvent =>
      simp only [Pool.exec, Pool.stepEvent]
      cases hThread : p.events with
      | none =>
          intro thread hNone
          rw [hThread] at hNone
          cases hNone
      | some thread =>
          have hNow := hSettled thread hThread
          intro thread' hThread'
          cases hCode : thread.code with
          | done result =>
              simp only [Pool.advance, hCode] at hThread'
              cases hThread'
              exact hNow.mono _
          | step effects next rest =>
              simp only [Pool.advance, hCode] at hThread'
              cases hThread'
              intro _ input hdl frame hello hEvent hHello
              by_cases hFirst : thread.trace = []
              · rcases taken_of_first
                    (hBegins thread hThread) hThread hCode
                    hFirst hEvent hHello with
                  hTaken | hPlain
                · apply Or.inl
                  simp [takenBy, hTaken]
                · exact Or.inr hPlain
              · rcases hNow hFirst input hdl frame hello hEvent
                    hHello with
                  hTaken | hPlain
                · exact Or.inl (List.mem_append_left _ hTaken)
                · apply Or.inr
                  rw [hCode] at hPlain
                  cases hPlain with
                  | step _ hRest => exact hRest p.shared

/- A stored session was there already or is a new one. -/
theorem entry_or_stored
    {may : May}
    {w w' : WsServer}
    {effects : List ServerEffect}
    {pk : PublicKey}
    {state' : ConnectionState}
    (hMove : Move S may w effects w')
    (hReceives : ∀ v v', may.receives v v' → Advances v v')
    (hEntry : (w'.sessionTable.table true)[hdl]? = some state')
    (hPeer : state'.session.getPeerIdentity = some pk) :
    NamedAs pk hdl w ∨
      (may.establishes hdl ∧ may.stores true state') := by
  rcases move_entry hMove hReceives hEntry with
    ⟨state, hBefore, hContinues⟩ | hStored
  · rcases hContinues with ⟨sent, received, now, hState⟩
    subst hState
    exact Or.inl (Or.inl ⟨state, hBefore, hPeer⟩)
  · exact Or.inr hStored

/- A move of code that has to do with no handshake. -/
theorem namedAs_of_move
    {may : May}
    {w w' : WsServer}
    {effects : List ServerEffect}
    {pk : PublicKey}
    (hMove : Move S may w effects w')
    (hNot : ∀ hdl, ¬ may.establishes hdl)
    (hReceives : ∀ v v', may.receives v v' → Advances v v')
    (hNamed : NamedAs pk hdl w') :
    NamedAs pk hdl w := by
  rcases hNamed with ⟨state', hEntry, hPeer⟩ | hFound
  · rcases entry_or_stored hMove hReceives hEntry hPeer with
      hOld | ⟨hMay, _⟩
    · exact hOld
    · exact absurd hMay (hNot hdl)
  · exact Or.inr (namesNone_of_move hMove hNot pk hdl hFound)

/- The hello of a stored session has proved its identity. -/
theorem identified_of_welcomes
    {session : Session}
    {trace : Trace}
    (hWelcomes :
      Welcomes S input frame.payload true session trace) :
    trace ≠ [] ∧
      ∃ hello,
        identifiedHello S frame.payload = some hello ∧
          session.getPeerIdentity = some hello.identityPk := by
  rcases hWelcomes with
    ⟨hello, reply, ⟨m, hMem, hAnswers⟩, hFlag, _⟩
  have hPeer := hAnswers.peerIdentity
  rw [← hFlag] at hPeer
  rcases Session.serverRespondToHandshake_ok S
      hAnswers.replied with
    ⟨_, _, _, _, hVerify, _⟩
  refine ⟨List.ne_nil_of_mem hMem, hello, ?_, hPeer⟩
  unfold identifiedHello
  rw [hAnswers.hello_eq]
  simp [← hFlag, hVerify hFlag.symm]

section OneStep

variable {hellos : List (Hdl × ClientHello)}
variable {p : ServerPool}
variable {thread : IoThread}
variable {effects : WsServer → List ServerEffect}
variable {next : WsServer → WsServer}
variable {rest : WsServer → ServerAction Unit}
variable {pk : PublicKey}

/- Nothing is registered before a session is looked for. -/
theorem first_identities
    (hBegins : Begins S thread)
    (hCode : thread.code = .step effects next rest)
    (hFirst : thread.trace = [])
    (hEvent : thread.call.val = .message input hdl frame)
    (w : WsServer) :
    (next w).identities = w.identities := by
  have hStart := hBegins.first hFirst
  rw [hCode, hEvent] at hStart
  cases hBinary : frame.binary with
  | false =>
      simp only [handle, onMessage, hBinary, Bool.not_false,
        if_true] at hStart
      cases hStart
  | true =>
      rcases onMessage_first S input hdl hBinary with
        ⟨later, hSection, _, _⟩
      cases hStart.trans hSection
      dsimp only
      rw [(receive_within S input hdl frame.payload w).state]

/- A step of the io thread after that. -/
theorem namedAs_of_later
    (hCode : thread.code = .step effects next rest)
    (hSettled : Settled S hellos thread)
    (hLater : thread.trace ≠ [])
    (hEvent : thread.call.val = .message input hdl frame)
    {hello : ClientHello}
    (hHello : identifiedHello S frame.payload = some hello)
    (hNamed : NamedAs hello.identityPk hdl (next p.shared)) :
    NamedAs hello.identityPk hdl p.shared ∨
      TakenUp hellos hello.identityPk hdl := by
  rcases hSettled hLater input hdl frame hello hEvent hHello
    with hTaken | hPlain
  · exact Or.inr ⟨hello, hTaken, rfl⟩
  · apply Or.inl
    rw [hCode] at hPlain
    cases hPlain with
    | step hMove _ =>
        exact
          namedAs_of_move (hMove p.shared)
            plainMay_plain.establishes
            (fun _ _ hMay => hMay.elim) hNamed

theorem namedAs_of_event
    (hCode : thread.code = .step effects next rest)
    (hBegins : Begins S thread)
    (hSettled : Settled S hellos thread)
    (hNames :
      Ensures (Names S thread.call.val) thread.code)
    (hMove :
      Move S (thread.call.val.mayAfter S thread.trace)
        p.shared (effects p.shared) (next p.shared))
    (hNamed : NamedAs pk hdl (next p.shared)) :
    NamedAs pk hdl p.shared ∨ TakenUp hellos pk hdl := by
  rcases hNamed with ⟨state', hEntry, hPeer⟩ | hFound
  · rcases hEvent : thread.call with ⟨event, hIo⟩
    rw [hEvent] at hMove
    cases event with
    | message input hdl' frame =>
        rcases entry_or_stored hMove (fun _ _ hMay => hMay)
            hEntry hPeer with
          hOld | ⟨hHdl, hWelcomes⟩
        · exact Or.inl hOld
        · cases hHdl
          rcases identified_of_welcomes hWelcomes with
            ⟨hLater, hello, hHello, hSame⟩
          cases hSame.symm.trans hPeer
          exact
            namedAs_of_later hCode hSettled hLater
              (by rw [hEvent]) hHello
              (Or.inl ⟨state', hEntry, hPeer⟩)
    | opened | closed | timeouts =>
        rcases entry_or_stored hMove
            (fun _ _ hMay => hMay.elim) hEntry hPeer with
          hOld | ⟨hMay, _⟩
        · exact Or.inl hOld
        · exact hMay.elim
    | call method => cases hIo
  · have hStep := hNames
    rw [hCode] at hStep
    cases hStep with
    | step hStep _ =>
        rcases hStep p.shared pk hdl hFound with
          hOld | ⟨input, frame, hello, hEvent, hHello, hPk⟩
        · exact Or.inl (Or.inr hOld)
        · subst hPk
          by_cases hFirst : thread.trace = []
          · rw [first_identities hBegins hCode hFirst hEvent]
              at hFound
            exact Or.inl (Or.inr hFound)
          · exact
              namedAs_of_later hCode hSettled hFirst hEvent
                hHello (Or.inr hFound)

end OneStep

/- What the server has, and what its io thread is about. -/
structure Attributed
    (S : Sodium)
    (labels : Labels)
    (hellos : List (Hdl × ClientHello))
    (p : ServerPool) : Prop where
  begins :
    ∀ thread, p.events = some thread → Begins S thread
  names :
    ∀ thread, p.events = some thread →
      Ensures (Names S thread.call.val) thread.code
  settled :
    ∀ thread, p.events = some thread →
      Settled S hellos thread
  entries :
    ∀ pk hdl, NamedAs pk hdl p.shared → TakenUp hellos pk hdl
  offers :
    ∀ offer ∈ hellos, ∃ l ∈ labels,
      offered S l = some offer

theorem offered_of_taken
    {labels : Labels}
    {p : ServerPool}
    {offer : Hdl × ClientHello}
    (hSupervised : Supervised S labels p)
    (hTaken : taken S p = some offer) :
    ∃ l ∈ labels, offered S l = some offer := by
  unfold taken at hTaken
  cases hArriving : arriving p with
  | none =>
      rw [hArriving] at hTaken
      cases hTaken
  | some arrival =>
      rcases arrival with ⟨input, hdl, frame⟩
      rw [hArriving] at hTaken
      dsimp only at hTaken
      split at hTaken
      · unfold arriving at hArriving
        split at hArriving
        · next hThread =>
            cases hArriving
            exact
              ⟨_, (hSupervised.events _ hThread).begun,
                hTaken⟩
        · cases hArriving
      · cases hTaken

theorem Attributed.step
    {labels : Labels}
    {hellos : List (Hdl × ClientHello)}
    {p q : ServerPool}
    {l : Label ServerCall IoEvent}
    (hAttributed : Attributed S labels hellos p)
    (hSupervised : Supervised S labels p)
    (hStep : PoolStep S p l q) :
    Attributed S (labels ++ [l]) (hellos ++ takenBy S p l)
      q where
  begins := begins_step hAttributed.begins hStep
  names := by
    refine
      Pool.forall_event_step ?_ ?_ hAttributed.names hStep
    · exact fun event _ => handle_names event
    · intro thread effects next rest hCode hNames
      rw [hCode] at hNames
      cases hNames with
      | step _ hRest => exact hRest p.shared
  settled :=
    settled_step hAttributed.begins hAttributed.settled hStep
  entries := by
    intro pk hdl hNamed
    have hMore
        (hTaken : TakenUp hellos pk hdl) :
        TakenUp (hellos ++ takenBy S p l) pk hdl := by
      rcases hTaken with ⟨hello, hMem, hPk⟩
      exact ⟨hello, List.mem_append_left _ hMem, hPk⟩
    have hMoved :=
      Pool.shared_step
        (P := fun w _ w' =>
          NamedAs pk hdl w' →
            NamedAs pk hdl w ∨ TakenUp hellos pk hdl)
        ?_ ?_ hStep
    · rcases hMoved with ⟨hSame, _⟩ | ⟨_, hMoved, _⟩
      · rw [hSame] at hNamed
        exact hMore (hAttributed.entries pk hdl hNamed)
      · rcases hMoved hNamed with hOld | hNew
        · exact hMore (hAttributed.entries pk hdl hOld)
        · exact hMore hNew
    · intro thread hThread effects next rest hCode hNow
      have hMoves := (hSupervised.calls thread hThread).code
      rw [hCode] at hMoves
      cases hMoves with
      | step hMove _ =>
          exact
            Or.inl
              (namedAs_of_move (hMove p.shared)
                (callMay_establishes thread.call)
                (fun _ _ hMay =>
                  absurd hMay (callMay_receives _ _ _)) hNow)
    · intro thread hThread effects next rest hCode hNow
      have hTraces := (hSupervised.events thread hThread).code
      rw [hCode] at hTraces
      cases hTraces with
      | step hMove _ =>
          exact
            namedAs_of_event hCode
              (hAttributed.begins thread hThread)
              (hAttributed.settled thread hThread)
              (hAttributed.names thread hThread)
              (hMove p.shared trivial) hNow
  offers := by
    intro offer hMem
    rcases List.mem_append.mp hMem with hOld | hNew
    · rcases hAttributed.offers offer hOld with
        ⟨l', hBegun, hOffer⟩
      exact ⟨l', List.mem_append_left _ hBegun, hOffer⟩
    · cases l with
      | stepEvent =>
          rcases offered_of_taken hSupervised
              (Option.mem_toList.mp hNew) with
            ⟨l', hBegun, hOffer⟩
          exact ⟨l', List.mem_append_left _ hBegun, hOffer⟩
      | call | event | stepCall => cases hNew

------------------------------------------------------------
-- One Connection, One Initiation
------------------------------------------------------------

variable {pk : PublicKey}

theorem foldl_of_run
    {ok : World → Action → Prop}
    {start w : World}
    {acts : List Action}
    (hRun :
      StateMachine.Run (StateMachine.Guarded ok (exec S))
        start acts w) :
    w = acts.foldl (exec S) start := by
  refine
    hRun.invariant_labels
      (P := fun acts w => w = acts.foldl (exec S) start) ?_ rfl
  rintro acts v act u _ hBefore ⟨_, hNext⟩
  rw [hNext, hBefore, List.foldl_append]
  rfl

/- What was taken up stays on record. -/
theorem hellos_exec (w : World) (act : Action) :
    w.hellos <+: (exec S w act).hellos := by
  by_cases hServes : ∃ l, act = .serves l
  · rcases hServes with ⟨l, hServes⟩
    subst hServes
    exact List.prefix_append _ _
  · have hSame :=
      exec_hellos S (fun l hSame => hServes ⟨l, hSame⟩) w
    exact hSame.symm ▸ List.prefix_refl w.hellos

theorem hellos_foldl (w : World) (acts : List Action) :
    w.hellos <+: (acts.foldl (exec S) w).hellos := by
  induction acts generalizing w with
  | nil => exact List.prefix_refl _
  | cons act acts ih =>
      exact (hellos_exec w act).trans (ih (exec S w act))

theorem attributed_of_run
    {ok : World → Action → Prop}
    (hAllowed :
      ∀ w l, ok w (.serves l) → w.server.allowed l = true)
    {serverSignKey : KeyPair}
    {config : Config}
    {hasOwner : Bool}
    {acts : List Action}
    {w : World}
    (hRun :
      StateMachine.Run (StateMachine.Guarded ok (exec S))
        (start serverSignKey config hasOwner) acts w) :
    Attributed S w.labels w.hellos w.server := by
  refine
    hRun.invariant_labels
      (P := fun _ w =>
        Attributed S w.labels w.hellos w.server)
      ?_ ?_
  · rintro acts v act u hEarlier hBefore ⟨hOk, hNext⟩
    subst hNext
    by_cases hServes : ∃ l, act = .serves l
    · rcases hServes with ⟨l, hServes⟩
      subst hServes
      exact
        hBefore.step
          (supervised_of_run (server_run hAllowed hEarlier))
          ⟨hAllowed _ _ hOk, rfl⟩
    · have hOther : ∀ l, act ≠ .serves l :=
        fun l hSame => hServes ⟨l, hSame⟩
      rcases exec_server S hOther v with ⟨hSame, hLabels⟩
      rw [hSame, hLabels, exec_hellos S hOther v]
      exact hBefore
  · refine
      ⟨by simp [start, pool], by simp [start, pool],
        by simp [start, pool], ?_, by simp [start]⟩
    rintro pk hdl (⟨state, hEntry, _⟩ | hFound)
    · cases Std.ExtTreeMap.getElem?_empty.symm.trans hEntry
    · cases Std.ExtTreeMap.getElem?_empty.symm.trans hFound

/- Who is introduced has had a hello of the identity. -/
theorem taken_of_introduced
    {serverSignKey : KeyPair}
    {config : Config}
    {hasOwner : Bool}
    {acts : List Action}
    {w : World}
    {ok : World → Action → Prop}
    (hRun :
      StateMachine.Run (StateMachine.Guarded ok (exec S))
        (start serverSignKey config hasOwner) acts w)
    (hIntroduced :
      Introduced S (start serverSignKey config hasOwner) pk
        acts hdl) :
    TakenUp w.hellos pk hdl := by
  rcases hIntroduced with
    ⟨earlier, v, ⟨more, hActs⟩, hEarlier, hNamed⟩
  have hAttributed :=
    attributed_of_run (fun _ _ hOk => hOk.1) hEarlier
  rcases hAttributed.entries pk hdl hNamed with
    ⟨hello, hMem, hPk⟩
  have hMore : v.hellos <+: w.hellos := by
    rw [foldl_of_run hRun, ← hActs, List.foldl_append,
      ← foldl_of_run hEarlier]
    exact hellos_foldl v more
  exact ⟨hello, hMore.subset hMem, hPk⟩

/- What a run without forged and repeated hellos shows. -/
structure Inv (S : Sodium) (pk : PublicKey) (w : World) :
    Prop where
  honest : ∀ l ∈ w.labels, HonestHello S pk l w
  single :
    ∀ offer ∈ w.hellos, offer.2.identityPk = pk →
      ∀ offer' ∈ w.hellos, offer'.2.identityPk = pk →
        offer'.2.ephemeralPk = offer.2.ephemeralPk →
          offer'.1 = offer.1

/- At most one hello is taken up at a time. -/
theorem takenBy_single
    {p : ServerPool}
    {l : Label ServerCall IoEvent}
    {offer offer' : Hdl × ClientHello}
    (hMem : offer ∈ takenBy S p l)
    (hMem' : offer' ∈ takenBy S p l) :
    offer = offer' := by
  cases l with
  | stepEvent =>
      exact
        Option.mem_unique (Option.mem_toList.mp hMem)
          (Option.mem_toList.mp hMem')
  | call | event | stepCall => cases hMem

theorem Inv.step
    {w w' : World}
    {act : Action}
    (hInv : Inv S pk w)
    (hUnforged : Unforgeable S pk w act)
    (hSingle : NotReplayed S pk w act)
    (hNext : w' = exec S w act) :
    Inv S pk w' := by
  have hMore := initiations_exec S w act
  rw [← hNext] at hMore
  by_cases hServes : ∃ l, act = .serves l
  · rcases hServes with ⟨l, hServes⟩
    subst hServes
    have hLabels : w'.labels = w.labels ++ [l] := by
      rw [hNext]
      rfl
    have hHellos :
        w'.hellos = w.hellos ++ takenBy S w.server l := by
      rw [hNext]
      rfl
    have hFirst :
        ∀ offer ∈ takenBy S w.server l,
          offer.2.identityPk = pk →
            ∀ offer' ∈ w.hellos,
              offer'.2.identityPk = pk →
                offer'.2.ephemeralPk = offer.2.ephemeralPk →
                  offer'.1 = offer.1 := by
      intro offer hMem
      cases l with
      | stepEvent =>
          exact hSingle offer (Option.mem_toList.mp hMem)
      | call | event | stepCall => cases hMem
    refine ⟨?_, ?_⟩
    · intro l' hMem
      rw [hLabels] at hMem
      rcases List.mem_append.mp hMem with hOld | hNew
      · exact (hInv.honest l' hOld).mono hMore
      · cases List.mem_singleton.mp hNew
        exact hUnforged.2.mono hMore
    · intro offer hMem hPk offer' hMem' hPk' hKey
      rw [hHellos] at hMem hMem'
      rcases List.mem_append.mp hMem with hOld | hNew <;>
        rcases List.mem_append.mp hMem' with hOld' | hNew'
      · exact
          hInv.single offer hOld hPk offer' hOld' hPk' hKey
      · exact
          (hFirst offer' hNew' hPk' offer hOld hPk
            hKey.symm).symm
      · exact hFirst offer hNew hPk offer' hOld' hPk' hKey
      · rw [takenBy_single hNew hNew']
  · have hOther : ∀ l, act ≠ .serves l :=
      fun l hSame => hServes ⟨l, hSame⟩
    have hLabels : w'.labels = w.labels := by
      rw [hNext]
      exact (exec_server S hOther w).2
    have hHellos : w'.hellos = w.hellos := by
      rw [hNext]
      exact exec_hellos S hOther w
    refine ⟨?_, ?_⟩
    · intro l hMem
      rw [hLabels] at hMem
      exact (hInv.honest l hMem).mono hMore
    · rw [hHellos]
      exact hInv.single

theorem inv_of_run
    {serverSignKey : KeyPair}
    {config : Config}
    {hasOwner : Bool}
    {acts : List Action}
    {w : World}
    (hRun :
      StateMachine.Run
        (StateMachine.Guarded
          (fun w act =>
            Unforgeable S pk w act ∧ NotReplayed S pk w act)
          (exec S))
        (start serverSignKey config hasOwner) acts w) :
    Inv S pk w := by
  refine
    hRun.invariant
      (fun _ _ _ hBefore hStep =>
        hBefore.step hStep.1.1 hStep.1.2 hStep.2) ?_
  exact ⟨by simp [start], by simp [start]⟩

/- The initiation that a connection stems from. -/
theorem stemsFrom_of_taken
    {w : World}
    (hInv : Inv S pk w)
    (hAttributed :
      Attributed S w.labels w.hellos w.server)
    (hTaken : TakenUp w.hellos pk hdl) :
    ∃ (i : Nat) (initiation : Initiation),
      w.initiations[i]? = some initiation ∧
        StemsFrom pk hdl initiation w := by
  rcases hTaken with ⟨hello, hMem, hPk⟩
  rcases hAttributed.offers _ hMem with ⟨l, hBegun, hOffer⟩
  rcases hInv.honest l hBegun (hdl, hello) hOffer hPk with
    ⟨initiation, hInitiation, hIdentity, hKey⟩
  rcases List.getElem?_of_mem hInitiation with ⟨i, hIndex⟩
  exact
    ⟨i, initiation, hIndex, hIdentity, hello, hMem, hPk,
      hKey.symm⟩

/- Two connections do not stem from the same one. -/
theorem StemsFrom.unique
    {w : World}
    {hdl' : Hdl}
    {initiation : Initiation}
    (hInv : Inv S pk w)
    (hStems : StemsFrom pk hdl initiation w)
    (hStems' : StemsFrom pk hdl' initiation w) :
    hdl = hdl' := by
  rcases hStems with ⟨_, hello, hMem, hPk, hKey⟩
  rcases hStems' with ⟨_, hello', hMem', hPk', hKey'⟩
  exact
    hInv.single (hdl', hello') hMem' hPk' (hdl, hello) hMem
      hPk (hKey.trans hKey'.symm)

/-
  Where no hello is taken up on two connections, each
  connection of the identity has an initiation of its own.
-/
theorem own_initiations
    (pk : PublicKey)
    {serverSignKey : KeyPair}
    {config : Config}
    {hasOwner : Bool}
    {acts : List Action}
    {w : World}
    (hRun :
      StateMachine.Run
        (StateMachine.Guarded
          (fun w act =>
            Unforgeable S pk w act ∧ NotReplayed S pk w act)
          (exec S))
        (start serverSignKey config hasOwner) acts w) :
    OwnInitiations S (start serverSignKey config hasOwner) pk acts
      w := by
  have hInv := inv_of_run hRun
  have hAttributed :=
    attributed_of_run (fun _ _ hOk => hOk.1.1) hRun
  have hStems :
      ∀ hdl : Hdl, ∃ i : Nat,
        Introduced S (start serverSignKey config hasOwner) pk acts
            hdl →
          ∃ initiation,
            w.initiations[i]? = some initiation ∧
              StemsFrom pk hdl initiation w := by
    intro hdl
    by_cases hIntroduced :
        Introduced S (start serverSignKey config hasOwner) pk
          acts hdl
    · rcases stemsFrom_of_taken hInv hAttributed
          (taken_of_introduced hRun hIntroduced) with
        ⟨i, initiation, hIndex, hFrom⟩
      exact ⟨i, fun _ => ⟨initiation, hIndex, hFrom⟩⟩
    · exact ⟨0, fun hOther => absurd hOther hIntroduced⟩
  choose initiationOf hOf using hStems
  refine ⟨initiationOf, ?_, hOf⟩
  intro hdl hMem hdl' hMem' hSame
  rcases hOf hdl hMem with ⟨initiation, hIndex, hFirst⟩
  rcases hOf hdl' hMem' with ⟨initiation', hIndex', hSecond⟩
  rw [hSame, hIndex'] at hIndex
  cases hIndex
  exact hFirst.unique hInv hSecond

------------------------------------------------------------
-- Sample Runs
------------------------------------------------------------

open PlainSodium

/- A client session with the identity 5 makes its hello. -/
def initiation
    (i : Nat)
    (ephemeral : UInt8) : List Action :=
  [ .creates (sampleKeyPair 6).publicKey supportedVersions,
    .identifies i (sampleKeyPair 5),
    .initiates i (sampleKx ephemeral) ]

/- The hello is handed over on a connection and answered. -/
def handedOver
    (hdl : Hdl)
    (ephemeral : UInt8) : List Action :=
  .serves (.event (IoEvent.hello hdl ephemeral)) ::
    List.replicate 13 (.serves .stepEvent)

/- It comes again, in a text frame of a third connection. -/
def asText (ephemeral : UInt8) : List Action :=
  [ .serves
      (.event
        ⟨.message (.smooth (sampleKx ephemeral)) 3
          { payload := (sampleHello 5 ephemeral).serialize
            binary := false }, rfl⟩),
    .serves .stepEvent ]

/-
  Two initiations on two connections; the first hello comes
  again where it is not taken up.
-/
def twoInitiations : List Action :=
  initiation 0 1 ++ handedOver 1 1 ++ initiation 1 2 ++
    handedOver 2 2 ++ handedOver 2 1 ++ asText 1

def sampleStart : World :=
  start (sampleKeyPair 6) Config.withDefaults true

instance
    (S : Sodium)
    (pk : PublicKey)
    (w : World) :
    (act : Action) → Decidable (Unforgeable S pk w act)
| .serves l =>
    inferInstanceAs
      (Decidable
        (w.server.allowed l = true ∧ HonestHello S pk l w))
| .creates _ _ => inferInstanceAs (Decidable True)
| .identifies _ _ => inferInstanceAs (Decidable True)
| .initiates _ _ => inferInstanceAs (Decidable True)
| .finalizes _ _ => inferInstanceAs (Decidable True)
| .encrypts _ _ _ => inferInstanceAs (Decidable True)
| .decrypts _ _ => inferInstanceAs (Decidable True)

instance
    (S : Sodium)
    (pk : PublicKey)
    (w : World) :
    (act : Action) → Decidable (NotReplayed S pk w act)
| .serves .stepEvent =>
    inferInstanceAs
      (Decidable
        (∀ offer, taken S w.server = some offer →
          offer.2.identityPk = pk →
            ∀ offer' ∈ w.hellos,
              offer'.2.identityPk = pk →
                offer'.2.ephemeralPk = offer.2.ephemeralPk →
                  offer'.1 = offer.1))
| .serves (.call _) => inferInstanceAs (Decidable True)
| .serves (.event _) => inferInstanceAs (Decidable True)
| .serves (.stepCall _) => inferInstanceAs (Decidable True)
| .creates _ _ => inferInstanceAs (Decidable True)
| .identifies _ _ => inferInstanceAs (Decidable True)
| .initiates _ _ => inferInstanceAs (Decidable True)
| .finalizes _ _ => inferInstanceAs (Decidable True)
| .encrypts _ _ _ => inferInstanceAs (Decidable True)
| .decrypts _ _ => inferInstanceAs (Decidable True)

def isStored (hdl : Hdl) (w : World) : Bool :=
  match w.server.shared.sessionTable.sessions[hdl]? with
  | none => false
  | some state =>
      state.session.getPeerIdentity ==
        some (sampleKeyPair 5).publicKey

set_option maxRecDepth 8000 in
theorem own_initiations_twice :
    let w := twoInitiations.foldl (exec plainSodium) sampleStart
    isStored 1 w = true ∧ isStored 2 w = true ∧
      OwnInitiations plainSodium sampleStart
        (sampleKeyPair 5).publicKey twoInitiations w := by
  intro w
  exact
    ⟨by decide, by decide,
      own_initiations (sampleKeyPair 5).publicKey
        (StateMachine.run_of_allowed _ _ _ _ (by decide))⟩

theorem introduced_of_isStored
    {acts : List Action}
    (hRun :
      StateMachine.Run
        (StateMachine.Guarded
          (Unforgeable plainSodium (sampleKeyPair 5).publicKey)
          (exec plainSodium))
        sampleStart acts
        (acts.foldl (exec plainSodium) sampleStart))
    (hStored :
      isStored hdl
        (acts.foldl (exec plainSodium) sampleStart) = true) :
    Introduced plainSodium sampleStart
      (sampleKeyPair 5).publicKey acts hdl := by
  unfold isStored at hStored
  split at hStored
  · cases hStored
  · next state hFound =>
      exact
        ⟨acts, _, List.prefix_refl acts, hRun,
          Or.inl ⟨state, hFound, eq_of_beq hStored⟩⟩

set_option maxRecDepth 8000 in
/-
  One hello makes two connections those of its identity, and
  the identity leads to the second one.
-/
theorem replayed_hello :
    let acts :=
      initiation 0 1 ++ handedOver 1 1 ++ handedOver 2 1
    let w := acts.foldl (exec plainSodium) sampleStart
    StateMachine.Run
        (StateMachine.Guarded
          (Unforgeable plainSodium (sampleKeyPair 5).publicKey)
          (exec plainSodium))
        sampleStart acts w ∧
      w.server.shared.identities.identityToHdl[
          (sampleKeyPair 5).publicKey]? = some 2 ∧
      ¬ OwnInitiations plainSodium sampleStart
        (sampleKeyPair 5).publicKey acts w := by
  intro acts w
  have hRun :
      StateMachine.Run
        (StateMachine.Guarded
          (Unforgeable plainSodium (sampleKeyPair 5).publicKey)
          (exec plainSodium))
        sampleStart acts w :=
    StateMachine.run_of_allowed _ _ _ _ (by decide)
  have hFirst :
      Introduced plainSodium sampleStart
        (sampleKeyPair 5).publicKey acts 1 :=
    introduced_of_isStored hRun (by decide)
  have hSecond :
      Introduced plainSodium sampleStart
        (sampleKeyPair 5).publicKey acts 2 :=
    introduced_of_isStored hRun (by decide)
  have hLength : w.initiations.length = 1 := by decide
  refine ⟨hRun, by decide, ?_⟩
  rintro ⟨initiationOf, hOne, hOf⟩
  have hZero
      (hdl : Hdl)
      (hIntroduced :
        Introduced plainSodium sampleStart
          (sampleKeyPair 5).publicKey acts hdl) :
      initiationOf hdl = 0 := by
    rcases hOf hdl hIntroduced with ⟨_, hIndex, _⟩
    have hLess := (List.getElem?_eq_some_iff.mp hIndex).1
    omega
  have hSame :=
    hOne hFirst hSecond
      ((hZero 1 hFirst).trans (hZero 2 hSecond).symm)
  cases hSame

end HelloReplays

end ObscuraProto
