import ObscuraProto.EndToEnd.Link
import ObscuraProto.Library.Draws

/-
  The link does what the dialogue says.

  Below the link is the order of its packets, which makes
  every packet open to what was said; above it is the
  dialogue, whose queues hold the words of the packets.  Each
  turn of the link is one step of the dialogue.

  Key definitions include:
    * `EndToEnd.Carrying`, `EndToEnd.Mirrors`

  Key theorems include:
    * `EndToEnd.dialogue_step`
    * `EndToEnd.turn_mirrors`
-/

namespace ObscuraProto

open Effectful EndToEnd Dialogue MalformedPayloads

namespace EndToEnd

variable {S : Sodium}
variable {keys : Role → SessionKeys}
variable {n : Nat}
variable {f : FifoLink}
variable {role : Role}

------------------------------------------------------------
-- Packets
------------------------------------------------------------

/- Each side has encrypted at most `n` packets. -/
def Carrying
    (S : Sodium)
    (keys : Role → SessionKeys)
    (n : Nat)
    (f : FifoLink) : Prop :=
  ∃ acts,
    FifoLink.Connected S keys acts f ∧
      ∀ role,
        acts.countP (FifoLink.Action.encryptsBy role) ≤ n

/- What is said gets to the end of the queue. -/
theorem Carrying.speak
    {cfg : Config}
    {handlers : HandlerTable}
    {said : Option Words}
    {packets : List Bytes}
    {closed : Session}
    (hCarrying : Carrying S keys n f)
    (hBound : n + 1 < 2 ^ 64)
    (hSays :
      Says S cfg handlers (keys role) (f.session role) said
        packets closed) :
    ∃ (f' : FifoLink) (items : List InFlight),
      Carrying S keys (n + 1) f' ∧
        f'.session = Function.update f.session role closed ∧
          f'.queue =
              Function.update f.queue role.other
                (f.queue role.other ++ items) ∧
            items.map InFlight.packet = packets ∧
              List.Forall₂
                (fun words item =>
                  Carries cfg handlers words
                    (InFlight.payload item))
                said.toList items := by
  rcases hCarrying with ⟨acts, hConnected, hCount⟩
  cases hSays with
  | nothing =>
      refine ⟨f, [], ?_, ?_, ?_, rfl, .nil⟩
      · exact
          ⟨acts, hConnected,
            fun role' => Nat.le_succ_of_le (hCount role')⟩
      · exact (Function.update_eq_self _ _).symm
      · rw [List.append_nil, Function.update_eq_self]
  | @words words payload nonce hCarries =>
      have hMore (role' : Role) :
          (acts ++
                [FifoLink.Action.encrypt role nonce
                  payload]).countP
              (FifoLink.Action.encryptsBy role') ≤ n + 1 := by
        rw [List.countP_append]
        have hOld := hCount role'
        have hNew :
            [FifoLink.Action.encrypt role nonce
                payload].countP
                (FifoLink.Action.encryptsBy role') ≤ 1 :=
          List.countP_le_length
        omega
      have hBounded :
          FifoLink.Bounded
            (acts ++ [.encrypt role nonce payload]) :=
        fun role' => Nat.lt_of_le_of_lt (hMore role') hBound
      have hExec :=
        Session.encryptPayload_ready S
          (hConnected.ordered role).senderReady nonce payload
      have hNext := hConnected.encrypt hBounded
      refine
        ⟨f.exec S (.encrypt role nonce payload),
          [⟨_, payload⟩], ⟨_, hNext, hMore⟩, ?_, ?_, rfl,
          .cons hCarries .nil⟩
      · simp only [FifoLink.exec, hExec]
      · simp only [FifoLink.exec, hExec]
        rfl

/- The packet at the head opens to what was said. -/
theorem Carrying.hear
    {first : InFlight}
    {rest : List InFlight}
    (hCorrect : S.AeadCorrect)
    (hCarrying : Carrying S keys n f)
    (hQueue : f.queue role = first :: rest) :
    ∃ opened,
      (f.session role).decryptPacket S first.packet =
          (.ok first.payload, opened) ∧
        opened.Ready (keys role) ∧
          Carrying S keys n
            { session := Function.update f.session role opened
              queue := Function.update f.queue role rest } := by
  rcases hCarrying with ⟨acts, hConnected, hCount⟩
  have hHere := hConnected.ordered role.other
  rw [FifoLink.other_other, hQueue] at hHere
  rcases hHere.pop hCorrect with ⟨opened, hOpens, _, hOrdered⟩
  refine ⟨opened, hOpens, hOrdered.receiverReady, ?_⟩
  have hNext := hConnected.deliver hCorrect role
  have hExec :
      f.exec S (.deliver role) =
        { session := Function.update f.session role opened
          queue := Function.update f.queue role rest } := by
    simp only [FifoLink.exec, hQueue, hOpens]
  rw [hExec] at hNext
  refine ⟨_, hNext, ?_⟩
  intro role'
  rw [List.countP_append]
  have hOld := hCount role'
  simpa [FifoLink.Action.encryptsBy] using hOld

------------------------------------------------------------
-- Words
------------------------------------------------------------

variable {terms : Terms}
variable {d : Talk}
variable {e e' : Ending}
variable {deed : Deed}

theorem role_of_own
    {role' : Role}
    (hOwn : Own role deed)
    (hActor : actor deed = some role') :
    role = role' := by
  rcases hOwn with hNone | hSome
  · rw [hNone] at hActor
    cases hActor
  · rw [hSome] at hActor
    exact Option.some.inj hActor

/- What is taken by a side is not taken from the other. -/
theorem inbox_other
    (rest : List Words)
    (d : Talk) :
    Function.update d.inbox role rest role.other =
      d.inbox role.other :=
  Function.update_of_ne (FifoLink.other_ne role) _ _

/- The step of an end is a step of the dialogue. -/
theorem dialogue_step
    {opened closed : Session}
    {packets : List Bytes}
    {rest : List Words}
    (hStep :
      EndStep S terms (keys role) role e opened deed packets
        closed e')
    (hPending : d.pending role = e.pending)
    (hStreams : d.streams role = e.streams)
    (hInbox :
      d.inbox role = (deed.heard role).toList ++ rest) :
    Dialogue.Step d deed
      { pending := Function.update d.pending role e'.pending
        streams := Function.update d.streams role e'.streams
        inbox :=
          Function.update (Function.update d.inbox role rest)
            role.other
            (d.inbox role.other ++
              (deed.said role).toList) } := by
  have hFits := hStep.fits
  rw [hStep.pending, hStep.streams, ← hPending, ← hStreams]
  cases deed with
  | idle =>
      have hRest : d.inbox role = rest := hInbox
      rw [← hRest]
      simpa [pendingAfter, streamsAfter, Act.said]
        using Dialogue.Step.idle d
  | ask role' id promise body =>
      cases role_of_own hStep.own rfl
      have hRest : d.inbox role = rest := by
        simpa [Act.heard] using hInbox
      rw [← hRest]
      simp only [pendingAfter, streamsAfter, Act.said, if_true,
        Option.toList_some, Function.update_eq_self]
      exact Dialogue.Step.ask d role id promise body
  | tell role' body =>
      cases role_of_own hStep.own rfl
      have hRest : d.inbox role = rest := by
        simpa [Act.heard] using hInbox
      rw [← hRest]
      simp only [pendingAfter, streamsAfter, Act.said, if_true,
        Option.toList_some, Function.update_eq_self]
      exact Dialogue.Step.tell d role body
  | start role' key kind ref =>
      cases role_of_own hStep.own rfl
      have hRest : d.inbox role = rest := by
        simpa [Act.heard] using hInbox
      rw [← hRest]
      simp only [pendingAfter, streamsAfter, Act.said, if_true,
        Option.toList_some, Function.update_eq_self]
      exact Dialogue.Step.start d role key kind ref
  | use role' key content ref =>
      cases role_of_own hStep.own rfl
      have hRest : d.inbox role = rest := by
        simpa [Act.heard] using hInbox
      have hKnown : d.streams role key = some ref := by
        rw [hStreams]
        exact hFits
      rw [← hRest]
      simp only [pendingAfter, streamsAfter, Act.said, if_true,
        Option.toList_some, Function.update_eq_self]
      exact Dialogue.Step.use d content hKnown
  | serve role' id body answer =>
      cases role_of_own hStep.own rfl
      have hHead : d.inbox role = .request id body :: rest := by
        simpa [Act.heard] using hInbox
      simp only [pendingAfter, streamsAfter, Act.said, if_true,
        Option.toList_some, Function.update_eq_self]
      rw [← inbox_other rest d]
      exact Dialogue.Step.serve d answer hHead
  | accept role' key kind ref =>
      cases role_of_own hStep.own rfl
      have hHead : d.inbox role = .opening key kind :: rest := by
        simpa [Act.heard] using hInbox
      simp only [pendingAfter, streamsAfter, Act.said,
        Option.toList_none, List.append_nil,
        Function.update_eq_self]
      rw [← inbox_other rest d, Function.update_eq_self]
      exact Dialogue.Step.accept d ref hHead
  | hear role' body =>
      cases role_of_own hStep.own rfl
      have hHead : d.inbox role = .plain body :: rest := by
        simpa [Act.heard] using hInbox
      simp only [pendingAfter, streamsAfter, Act.said,
        Option.toList_none, List.append_nil,
        Function.update_eq_self]
      rw [← inbox_other rest d, Function.update_eq_self]
      exact Dialogue.Step.hear d hHead
  | settle role' id answer promise =>
      cases role_of_own hStep.own rfl
      have hHead : d.inbox role = .reply id answer :: rest := by
        simpa [Act.heard] using hInbox
      have hPromise : promise = d.pending role id := by
        rw [hPending]
        exact hFits
      rw [hPromise]
      simp only [pendingAfter, streamsAfter, Act.said,
        Option.toList_none, List.append_nil,
        Function.update_eq_self]
      rw [← inbox_other rest d, Function.update_eq_self]
      exact Dialogue.Step.settle d hHead
  | deliver role' key content ref =>
      cases role_of_own hStep.own rfl
      have hHead : d.inbox role = .item key content :: rest := by
        simpa [Act.heard] using hInbox
      have hRef : ref = d.streams role key := by
        rw [hStreams]
        exact hFits
      rw [hRef]
      simp only [pendingAfter, streamsAfter, Act.said,
        Option.toList_none, List.append_nil,
        Function.update_eq_self]
      rw [← inbox_other rest d, Function.update_eq_self]
      exact Dialogue.Step.deliver d hHead

------------------------------------------------------------
-- Turns
------------------------------------------------------------

variable {hdl : Hdl}
variable {isAuth : Bool}
variable {l l' : Link}

/- Both ends are up, and have these sessions. -/
structure BothUp
    (terms : Terms)
    (hdl : Hdl)
    (isAuth : Bool)
    (session : Role → Session)
    (l : Link) : Prop where
  client : l.client.Up terms
  clientSession : session .client = l.client.session
  server :
    ∃ state,
      l.server.Up terms hdl isAuth state ∧
        session .server = state.session

/- The words that are on their way, packet by packet. -/
def Carried
    (terms : Terms)
    (inbox : Role → List Words)
    (f : FifoLink) : Prop :=
  ∀ role,
    List.Forall₂
      (fun words item =>
        Carries terms.config (terms.requestHandlers role) words
          (InFlight.payload item))
      (inbox role) (f.queue role)

/- The link is between its packets and its dialogue. -/
structure Mirrors
    (S : Sodium)
    (keys : Role → SessionKeys)
    (terms : Terms)
    (hdl : Hdl)
    (isAuth : Bool)
    (n : Nat)
    (f : FifoLink)
    (d : Talk)
    (l : Link) : Prop where
  carrying : Carrying S keys n f
  ends : BothUp terms hdl isAuth f.session l
  packets :
    ∀ role, l.queue role = (f.queue role).map InFlight.packet
  words : Carried terms d.inbox f
  pending :
    ∀ role, d.pending role = (l.ending hdl role).pending
  streams :
    ∀ role, d.streams role = (l.ending hdl role).streams

/- What one end has done, while the other one did nothing. -/
structure Done
    (terms : Terms)
    (hdl : Hdl)
    (role : Role)
    (l l' : Link)
    (seen : List Observation)
    (deed : Deed) : Prop where
  own : Own role deed
  seen : seen = terms.seen role deed
  fits : Fits role (l.ending hdl role) (l'.ending hdl role) deed
  objects :
    (l.ending hdl role).objects ≤ (l'.ending hdl role).objects
  other :
    l'.ending hdl role.other = l.ending hdl role.other

/- The words that are said are behind those on their way. -/
theorem Carried.say
    {inbox : Role → List Words}
    {f f' : FifoLink}
    {said : List Words}
    {items : List InFlight}
    (hCarried : Carried terms inbox f)
    (hQueue :
      f'.queue =
        Function.update f.queue role.other
          (f.queue role.other ++ items))
    (hSaid :
      List.Forall₂
        (fun words item =>
          Carries terms.config
            (terms.requestHandlers role.other) words
            (InFlight.payload item))
        said items) :
    Carried terms
      (Function.update inbox role.other
        (inbox role.other ++ said)) f' := by
  intro role'
  rw [hQueue]
  by_cases hOther : role' = role.other
  · subst hOther
    rw [Function.update_self, Function.update_self]
    exact List.rel_append (hCarried role.other) hSaid
  · rw [Function.update_of_ne hOther,
      Function.update_of_ne hOther]
    exact hCarried role'

/- An end has taken `heard` from its queue, and does a step. -/
theorem end_mirrors
    {d : Talk}
    {f₁ : FifoLink}
    {heard : Option Words}
    {rest : List Words}
    {packets : List Bytes}
    {seen : List Observation}
    {closed : Session}
    {queue : Role → List Bytes}
    (hMirrors : Mirrors S keys terms hdl isAuth n f d l)
    (hBound : n + 1 < 2 ^ 64)
    (hInbox : d.inbox role = heard.toList ++ rest)
    (hCarrying : Carrying S keys n f₁)
    (hWords :
      Carried terms (Function.update d.inbox role rest) f₁)
    (hPackets :
      ∀ role, queue role = (f₁.queue role).map InFlight.packet)
    (hDoes :
      Does S terms (keys role) role heard (l.ending hdl role)
        (f₁.session role) packets seen closed
        (l'.ending hdl role))
    (hEnds :
      BothUp terms hdl isAuth
        (Function.update f₁.session role closed) l')
    (hOther :
      l'.ending hdl role.other = l.ending hdl role.other)
    (hQueue : l'.queue = Link.carry role packets queue) :
    ∃ deed d' f',
      Dialogue.Step d deed d' ∧
        Mirrors S keys terms hdl isAuth (n + 1) f' d' l' ∧
          Done terms hdl role l l' seen deed := by
  rcases hDoes with ⟨deed, hHeard, hSeen, hStep⟩
  rw [← hHeard] at hInbox
  rcases hCarrying.speak hBound hStep.speech with
    ⟨f', items, hMore, hSession, hItems, hSent, hSaid⟩
  have hTalk :=
    dialogue_step hStep (hMirrors.pending role)
      (hMirrors.streams role) hInbox
  refine
    ⟨deed, _, f', hTalk, ?_,
      ⟨hStep.own, hSeen, hStep.fits, hStep.objects, hOther⟩⟩
  constructor
  · exact hMore
  · rw [hSession]
    exact hEnds
  · intro role'
    rw [hQueue, hItems]
    unfold Link.carry
    by_cases hHere : role' = role.other
    · subst hHere
      rw [Function.update_self, Function.update_self,
        List.map_append, hPackets, hSent]
    · rw [Function.update_of_ne hHere,
        Function.update_of_ne hHere]
      exact hPackets role'
  · rw [← inbox_other rest d]
    exact hWords.say hItems hSaid
  · intro role'
    by_cases hHere : role' = role
    · subst hHere
      exact Function.update_self _ _ _
    · dsimp only
      rw [Function.update_of_ne hHere, FifoLink.eq_other hHere,
        hOther]
      exact hMirrors.pending role.other
  · intro role'
    by_cases hHere : role' = role
    · subst hHere
      exact Function.update_self _ _ _
    · dsimp only
      rw [Function.update_of_ne hHere, FifoLink.eq_other hHere,
        hOther]
      exact hMirrors.streams role.other

/- A turn of the link is a step of the dialogue. -/
def Mirrored
    (S : Sodium)
    (keys : Role → SessionKeys)
    (terms : Terms)
    (hdl : Hdl)
    (isAuth : Bool)
    (n : Nat)
    (d : Talk)
    (l : Link)
    (action : Link.Action)
    (l' : Link) : Prop :=
  ∃ role deed d' f',
    Dialogue.Step d deed d' ∧
      Mirrors S keys terms hdl isAuth (n + 1) f' d' l' ∧
        Done terms hdl role l l' (l.seen S hdl role action)
            deed ∧
          l.seen S hdl role.other action = []

variable {d : Talk}

/- Nothing is taken from a queue. -/
theorem Mirrors.unheard
    (hMirrors : Mirrors S keys terms hdl isAuth n f d l)
    (role : Role) :
    Carried terms
      (Function.update d.inbox role (d.inbox role)) f := by
  rw [Function.update_eq_self]
  exact hMirrors.words

theorem Mirrors.ready
    (hMirrors : Mirrors S keys terms hdl isAuth n f d l)
    (role : Role) :
    (f.session role).Ready (keys role) := by
  rcases hMirrors.carrying with ⟨acts, hConnected, _⟩
  exact (hConnected.ordered role).senderReady

theorem callClient_mirrored
    {method : WsClient.PublicCall}
    (hMirrors : Mirrors S keys terms hdl isAuth n f d l)
    (hBound : n + 1 < 2 ^ 64)
    (hMay : l.client.MayCall terms method) :
    Mirrored S keys terms hdl isAuth n d l
      (.callClient method)
      (l.exec S hdl (.callClient method)) := by
  have hReady := hMirrors.ready .client
  rw [hMirrors.ends.clientSession] at hReady
  rcases WsClient.call_does hMirrors.ends.client hReady hMay
    with ⟨hUp, hDoes⟩
  rw [← hMirrors.ends.clientSession] at hDoes
  rcases hMirrors.ends.server with ⟨state, hServer, hSession⟩
  have hEnds :
      BothUp terms hdl isAuth
        (Function.update f.session .client
          ((WsClient.call S method).run l.client).state.session)
        (l.exec S hdl (.callClient method)) :=
    ⟨hUp, rfl, state, hServer, hSession⟩
  rcases end_mirrors hMirrors hBound rfl hMirrors.carrying
      (hMirrors.unheard .client) hMirrors.packets hDoes hEnds
      rfl rfl with ⟨deed, d', f', hStep, hAfter, hDone⟩
  exact ⟨.client, deed, d', f', hStep, hAfter, hDone, rfl⟩

theorem callServer_mirrored
    {method : WsServer.PublicCall}
    (hMirrors : Mirrors S keys terms hdl isAuth n f d l)
    (hBound : n + 1 < 2 ^ 64)
    (hMay : l.server.MayCall terms hdl isAuth method) :
    Mirrored S keys terms hdl isAuth n d l
      (.callServer method)
      (l.exec S hdl (.callServer method)) := by
  rcases hMirrors.ends.server with ⟨state, hServer, hSession⟩
  have hReady := hMirrors.ready .server
  rw [hSession] at hReady
  rcases WsServer.call_does hServer hReady hMay with
    ⟨state', hUp, hDoes⟩
  rw [← hSession] at hDoes
  have hEnds :
      BothUp terms hdl isAuth
        (Function.update f.session .server state'.session)
        (l.exec S hdl (.callServer method)) :=
    ⟨hMirrors.ends.client, hMirrors.ends.clientSession, state',
      hUp, rfl⟩
  rcases end_mirrors hMirrors hBound rfl hMirrors.carrying
      (hMirrors.unheard .server) hMirrors.packets hDoes hEnds
      rfl rfl with ⟨deed, d', f', hStep, hAfter, hDone⟩
  exact ⟨.server, deed, d', f', hStep, hAfter, hDone, rfl⟩

theorem elsewhere_mirrored
    {event : ServerEvent}
    (hMirrors : Mirrors S keys terms hdl isAuth n f d l)
    (hBound : n + 1 < 2 ^ 64)
    (hMay : event.elsewhere hdl l.server) :
    Mirrored S keys terms hdl isAuth n d l
      (.elsewhere event)
      (l.exec S hdl (.elsewhere event)) := by
  rcases hMirrors.ends.server with ⟨state, hServer, hSession⟩
  rcases WsServer.elsewhere_does hServer hMay with
    ⟨hUp, hDoes⟩
  rw [← hSession] at hDoes
  have hEnds :
      BothUp terms hdl isAuth
        (Function.update f.session .server (f.session .server))
        (l.exec S hdl (.elsewhere event)) :=
    ⟨hMirrors.ends.client, hMirrors.ends.clientSession, state,
      hUp, hSession⟩
  rcases end_mirrors hMirrors hBound rfl hMirrors.carrying
      (hMirrors.unheard .server) hMirrors.packets hDoes hEnds
      rfl rfl with ⟨deed, d', f', hStep, hAfter, hDone⟩
  exact ⟨.server, deed, d', f', hStep, hAfter, hDone, rfl⟩

/- The packet at the head of a queue, and its words. -/
theorem Mirrors.head
    (hMirrors : Mirrors S keys terms hdl isAuth n f d l)
    (hQueue : l.queue role ≠ []) :
    ∃ words rest first items,
      d.inbox role = words :: rest ∧
        f.queue role = first :: items ∧
          Carries terms.config (terms.requestHandlers role)
              words (InFlight.payload first) ∧
            l.queue role =
                first.packet :: items.map InFlight.packet ∧
              ∀ session,
                Carried terms
                  (Function.update d.inbox role rest)
                  { session := session
                    queue :=
                      Function.update f.queue role items } := by
  have hPackets := hMirrors.packets role
  have hWords := hMirrors.words role
  cases hItems : f.queue role with
  | nil =>
      rw [hItems] at hPackets
      exact (hQueue hPackets).elim
  | cons first items =>
      rw [hItems] at hPackets hWords
      cases hInbox : d.inbox role with
      | nil =>
          rw [hInbox] at hWords
          cases hWords
      | cons words rest =>
          rw [hInbox] at hWords
          cases hWords with
          | cons hCarries hRest =>
              refine
                ⟨words, rest, first, items, rfl, rfl, hCarries,
                  hPackets, ?_⟩
              intro session role'
              by_cases hHere : role' = role
              · subst hHere
                simpa using hRest
              · simpa [hHere] using hMirrors.words role'

/- What is left on its way, packet by packet. -/
theorem packets_rest
    {items : List InFlight}
    (hMirrors : Mirrors S keys terms hdl isAuth n f d l)
    (role role' : Role) :
    Function.update l.queue role
        (items.map InFlight.packet) role' =
      (Function.update f.queue role items role').map
        InFlight.packet := by
  by_cases hHere : role' = role
  · subst hHere
    rw [Function.update_self, Function.update_self]
  · rw [Function.update_of_ne hHere,
      Function.update_of_ne hHere]
    exact hMirrors.packets role'

theorem hearClient_mirrored
    {input : ClientInput}
    (hCorrect : S.AeadCorrect)
    (hDistinct : terms.config.opcodes.Distinct)
    (hMirrors : Mirrors S keys terms hdl isAuth n f d l)
    (hBound : n + 1 < 2 ^ 64)
    (hQueue : l.queue .client ≠ [])
    (hMay : WsClient.MayHear terms input) :
    Mirrored S keys terms hdl isAuth n d l
      (.hearClient input)
      (l.exec S hdl (.hearClient input)) := by
  have hReady := hMirrors.ready .client
  rcases hMirrors.head hQueue with
    ⟨words, rest, first, items, hInbox, hItems, hCarries,
      hHead, hRest⟩
  rcases hMirrors.carrying.hear hCorrect hItems with
    ⟨opened, hOpens, hAfter, hCarrying⟩
  rw [hMirrors.ends.clientSession] at hReady hOpens
  rcases WsClient.onMessage_does hMirrors.ends.client hDistinct
      hReady hAfter hMay hCarries hOpens with ⟨hUp, hDoes⟩
  rcases hMirrors.ends.server with ⟨state, hServer, hSession⟩
  have hSeen :
      l.seen S hdl .client (.hearClient input) =
        WsClient.hearSeen S input first.packet l.client := by
    simp only [Link.seen, hHead]
  have hExec :
      l.exec S hdl (.hearClient input) =
        l.afterClient
          ((WsClient.onMessage S input
            { payload := first.packet }).run l.client)
          (Function.update l.queue .client
            (items.map InFlight.packet)) := by
    simp only [Link.exec, hHead]
  have hEnds :
      BothUp terms hdl isAuth
        (Function.update
          (Function.update f.session .client opened) .client
          ((WsClient.onMessage S input
            { payload := first.packet }).run
              l.client).state.session)
        (l.exec S hdl (.hearClient input)) := by
    rw [hExec, Function.update_idem]
    exact ⟨hUp, rfl, state, hServer, hSession⟩
  rw [hExec] at hEnds ⊢
  rcases end_mirrors hMirrors hBound hInbox hCarrying
      (hRest _) (packets_rest hMirrors .client) hDoes hEnds
      rfl rfl with ⟨deed, d', f', hStep, hMirrors', hDone⟩
  rw [← hSeen] at hDone
  exact ⟨.client, deed, d', f', hStep, hMirrors', hDone, rfl⟩

theorem hearServer_mirrored
    {input : IoInput}
    (hCorrect : S.AeadCorrect)
    (hDistinct : terms.config.opcodes.Distinct)
    (hMirrors : Mirrors S keys terms hdl isAuth n f d l)
    (hBound : n + 1 < 2 ^ 64)
    (hQueue : l.queue .server ≠ [])
    (hMay :
      ∀ state, Found hdl isAuth state l.server →
        WsServer.MayHear terms input state l.server) :
    Mirrored S keys terms hdl isAuth n d l
      (.hearServer input)
      (l.exec S hdl (.hearServer input)) := by
  rcases hMirrors.head hQueue with
    ⟨words, rest, first, items, hInbox, hItems, hCarries,
      hHead, hRest⟩
  rcases hMirrors.carrying.hear hCorrect hItems with
    ⟨opened, hOpens, hAfter, hCarrying⟩
  rcases hMirrors.ends.server with ⟨state, hServer, hSession⟩
  rw [hSession] at hOpens
  rcases WsServer.onMessage_does hServer hDistinct hAfter
      (hMay state hServer.found) hCarries hOpens with
    ⟨state', hUp, hDoes⟩
  have hSeen :
      l.seen S hdl .server (.hearServer input) =
        WsServer.hearSeen S input hdl first.packet
          l.server := by
    simp only [Link.seen, hHead]
  have hExec :
      l.exec S hdl (.hearServer input) =
        l.afterServer hdl
          ((WsServer.onMessage S input hdl
            { payload := first.packet }).run l.server)
          (Function.update l.queue .server
            (items.map InFlight.packet)) := by
    simp only [Link.exec, hHead]
  have hEnds :
      BothUp terms hdl isAuth
        (Function.update
          (Function.update f.session .server opened) .server
          state'.session)
        (l.exec S hdl (.hearServer input)) := by
    rw [hExec, Function.update_idem]
    exact
      ⟨hMirrors.ends.client, hMirrors.ends.clientSession,
        state', hUp, rfl⟩
  rw [hExec] at hEnds ⊢
  rcases end_mirrors hMirrors hBound hInbox hCarrying
      (hRest _) (packets_rest hMirrors .server) hDoes hEnds
      rfl rfl with ⟨deed, d', f', hStep, hMirrors', hDone⟩
  rw [← hSeen] at hDone
  exact ⟨.server, deed, d', f', hStep, hMirrors', hDone, rfl⟩

theorem turn_mirrored
    {turn : Link.Turn}
    (hCorrect : S.AeadCorrect)
    (hDistinct : terms.config.opcodes.Distinct)
    (hMirrors : Mirrors S keys terms hdl isAuth n f d l)
    (hBound : n + 1 < 2 ^ 64)
    (hStep : Link.Step S hdl terms isAuth l turn l') :
    Mirrored S keys terms hdl isAuth n d l turn.action l' := by
  rcases hStep with ⟨_, hMay, hAfter⟩
  rw [hAfter]
  cases hAction : turn.action with
  | callClient method =>
      rw [hAction] at hMay
      exact callClient_mirrored hMirrors hBound hMay
  | callServer method =>
      rw [hAction] at hMay
      exact callServer_mirrored hMirrors hBound hMay
  | hearClient input =>
      rw [hAction] at hMay
      exact
        hearClient_mirrored hCorrect hDistinct hMirrors hBound
          hMay.1 hMay.2
  | hearServer input =>
      rw [hAction] at hMay
      exact
        hearServer_mirrored hCorrect hDistinct hMirrors hBound
          hMay.1 hMay.2
  | elsewhere event =>
      rw [hAction] at hMay
      exact elsewhere_mirrored hMirrors hBound hMay

end EndToEnd

end ObscuraProto
