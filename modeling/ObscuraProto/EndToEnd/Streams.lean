import ObscuraProto.EndToEnd.Requests

/-
  Streams, from one end to the other.

  The streams that an end starts are accepted at the other end
  once and in order, and go to the handler for their operation
  code.  What is written on the object at one end is dispatched
  to the object at the other end in order, whatever else both
  ends do, and to no other object.

  Key definitions include:
    * `Observation.started?`, `Observation.accepted?`
    * `EndToEnd.writtenOn`, `EndToEnd.dispatchedTo`
    * `EndToEnd.Joined`, `EndToEnd.Streamed`, `EndToEnd.Tidy`

  Key theorems include:
    * `EndToEnd.streamed_of_dialogue`
    * `EndToEnd.tidy_of_dialogue`
    * `EndToEnd.streams_delivered`
-/

namespace ObscuraProto

open Effectful EndToEnd Dialogue

namespace Observation

def started? :
    Observation → Option (Option OpCode × StreamRef)
| .started opCode stream => some (opCode, stream)
| _ => none

def accepted? :
    Observation →
      Option (StreamRef × List (HandlerId × StreamRef))
| .accepted stream handlers => some (stream, handlers)
| _ => none

def written? : Observation → Option (StreamRef × StreamItem)
| .written stream item => some (stream, item)
| _ => none

def dispatched? :
    Observation → Option (Option StreamRef × StreamItem)
| .dispatched stream item => some (stream, item)
| _ => none

/- A stream object that is made. -/
def object? : Observation → Option StreamRef
| .started _ stream => some stream
| .accepted stream _ => some stream
| _ => none

end Observation

namespace EndToEnd

/- What was written on a stream object, in order. -/
def writtenOn
    (ref : StreamRef)
    (seen : List Observation) : List StreamItem :=
  (seen.filterMap Observation.written?).filterMap
    (fun u => if u.1 = ref then some u.2 else none)

/- What was dispatched to a stream object, in order. -/
def dispatchedTo
    (ref : StreamRef)
    (seen : List Observation) : List StreamItem :=
  (seen.filterMap Observation.dispatched?).filterMap
    (fun d => if d.1 = some ref then some d.2 else none)

/- The objects of one stream at its two ends. -/
structure Joined
    (reach : List StreamItem → List StreamItem → Prop)
    (here there : List Observation)
    (ref ref' : StreamRef) : Prop where
  forth : reach (dispatchedTo ref' there) (writtenOn ref here)
  back : reach (dispatchedTo ref here) (writtenOn ref' there)

/-
  Of the streams that were started here, the oldest have been
  accepted there.
-/
structure Streamed
    (reach : List StreamItem → List StreamItem → Prop)
    (startHandler : Option OpCode → Option HandlerId)
    (here there : List Observation) : Prop where
  accepted_le :
    (there.filterMap Observation.accepted?).length ≤
      (here.filterMap Observation.started?).length
  accepted_at :
    ∀ (i : Nat) (ref' : StreamRef)
      (handlers : List (HandlerId × StreamRef)),
      (there.filterMap Observation.accepted?)[i]? =
          some (ref', handlers) →
        ∃ opCode ref,
          (here.filterMap Observation.started?)[i]? =
              some (opCode, ref) ∧
            handlers =
                ((startHandler opCode).map
                  (fun handler => (handler, ref'))).toList ∧
              Joined reach here there ref ref'

/- No object is made twice, and only objects are used. -/
structure Tidy (seen : List Observation) : Prop where
  objects : (seen.filterMap Observation.object?).Nodup
  written :
    ∀ u ∈ seen.filterMap Observation.written?,
      u.1 ∈ seen.filterMap Observation.object?
  dispatched :
    ∀ d ∈ seen.filterMap Observation.dispatched?,
      ∃ ref ∈ seen.filterMap Observation.object?,
        d.1 = some ref

------------------------------------------------------------
-- Observations of Deeds
------------------------------------------------------------

variable {terms : Terms}
variable {role : Role}

/- What is observed of a stream that is accepted. -/
def acceptanceOf
    (startHandler : Option OpCode → Option HandlerId)
    (o : UInt32 × Option OpCode × StreamRef) :
    StreamRef × List (HandlerId × StreamRef) :=
  (o.2.2,
    ((startHandler o.2.1).map
      (fun handler => (handler, o.2.2))).toList)

variable {deeds : List Deed}

theorem started_of_deeds :
    (deeds.flatMap (terms.seenBy role)).filterMap
        Observation.started? =
      (deeds.filterMap (Act.opened role)).map Prod.snd := by
  rw [List.map_filterMap]
  refine filterMap_flatMap_of (seenBy_filterMap ?_ ?_) deeds
  · intro deed hActor
    cases deed with
    | idle => cases hActor
    | settle role' id answer promise =>
        cases hActor
        cases promise <;> rfl
    | _ =>
        cases hActor
        simp [Terms.seen, Act.opened, Observation.started?]
  · intro deed hSilent
    rw [hSilent.opened]
    rfl

theorem accepted_of_deeds :
    (deeds.flatMap (terms.seenBy role)).filterMap
        Observation.accepted? =
      (deeds.filterMap (Act.accepted role)).map
        (acceptanceOf (terms.startHandler role)) := by
  rw [List.map_filterMap]
  refine filterMap_flatMap_of (seenBy_filterMap ?_ ?_) deeds
  · intro deed hActor
    cases deed with
    | idle => cases hActor
    | settle role' id answer promise =>
        cases hActor
        cases promise <;> rfl
    | _ =>
        cases hActor
        simp [Terms.seen, Act.accepted, acceptanceOf,
          Observation.accepted?]
  · intro deed hSilent
    rw [hSilent.accepted]
    rfl

theorem written_of_deeds :
    (deeds.flatMap (terms.seenBy role)).filterMap
        Observation.written? =
      (deeds.filterMap (Act.used role)).map
        (fun u => (u.2.2, u.2.1)) := by
  rw [List.map_filterMap]
  refine filterMap_flatMap_of (seenBy_filterMap ?_ ?_) deeds
  · intro deed hActor
    cases deed with
    | idle => cases hActor
    | settle role' id answer promise =>
        cases hActor
        cases promise <;> rfl
    | _ =>
        cases hActor
        simp [Terms.seen, Act.used, Observation.written?]
  · intro deed hSilent
    rw [hSilent.used]
    rfl

theorem dispatched_of_deeds :
    (deeds.flatMap (terms.seenBy role)).filterMap
        Observation.dispatched? =
      (deeds.filterMap (Act.delivered role)).map
        (fun d => (d.2.2, d.2.1)) := by
  rw [List.map_filterMap]
  refine filterMap_flatMap_of (seenBy_filterMap ?_ ?_) deeds
  · intro deed hActor
    cases deed with
    | idle => cases hActor
    | settle role' id answer promise =>
        cases hActor
        cases promise <;> rfl
    | _ =>
        cases hActor
        simp [Terms.seen, Act.delivered,
          Observation.dispatched?]
  · intro deed hSilent
    rw [hSilent.delivered]
    rfl

theorem objects_of_deeds :
    (deeds.flatMap (terms.seenBy role)).filterMap
        Observation.object? =
      (deeds.filterMap (Act.registers role)).map
        Prod.snd := by
  rw [List.map_filterMap]
  refine filterMap_flatMap_of (seenBy_filterMap ?_ ?_) deeds
  · intro deed hActor
    cases deed with
    | idle => cases hActor
    | settle role' id answer promise =>
        cases hActor
        cases promise <;> rfl
    | _ =>
        cases hActor
        simp [Terms.seen, Act.registers, Observation.object?]
  · intro deed hSilent
    rw [hSilent.registers]
    rfl

theorem writtenOn_deeds (ref : StreamRef) :
    writtenOn ref (deeds.flatMap (terms.seenBy role)) =
      usedOn role ref deeds := by
  unfold writtenOn usedOn
  rw [written_of_deeds, List.filterMap_map]
  rfl

theorem dispatchedTo_deeds (ref : StreamRef) :
    dispatchedTo ref (deeds.flatMap (terms.seenBy role)) =
      deliveredTo role ref deeds := by
  unfold dispatchedTo deliveredTo
  rw [dispatched_of_deeds, List.filterMap_map]
  rfl

------------------------------------------------------------
-- Streams
------------------------------------------------------------

variable {d : Talk}

/-
  Both directions of a stream, once it is registered at both
  ends.  What is missing is still in the inboxes.
-/
theorem joined_of_dialogue
    {reach : List StreamItem → List StreamItem → Prop}
    {key : UInt32}
    {ref ref' : StreamRef}
    (hStreaming : Streaming deeds d)
    (hHeard : Heard deeds d)
    (hApart : ∀ role, RefsApart role deeds)
    (hReach :
      ∀ role items,
        reach items (items ++ itemsOn key (d.inbox role)))
    (hHere : Registered role deeds key ref)
    (hThere : Registered role.other deeds key ref') :
    Joined reach (deeds.flatMap (terms.seenBy role))
      (deeds.flatMap (terms.seenBy role.other)) ref ref' where
  forth := by
    rw [dispatchedTo_deeds, writtenOn_deeds,
      hStreaming.items hHeard (hApart role)
        (hApart role.other) hHere hThere]
    exact hReach role.other _
  back := by
    have hSelf : role.other.other = role :=
      FifoLink.other_other role
    have hBack : Registered role.other.other deeds key ref := by
      rw [hSelf]
      exact hHere
    rw [dispatchedTo_deeds, writtenOn_deeds,
      hStreaming.items hHeard (hApart role.other)
        (hApart role.other.other) hThere hBack]
    change
      reach _
        (deliveredTo role.other.other ref deeds ++
          itemsOn key (d.inbox role.other.other))
    rw [hSelf]
    exact hReach role _

theorem streamed_of_dialogue
    {reach : List StreamItem → List StreamItem → Prop}
    (hStreaming : Streaming deeds d)
    (hHeard : Heard deeds d)
    (hApart : ∀ role, RefsApart role deeds)
    (hReach :
      ∀ key role items,
        reach items (items ++ itemsOn key (d.inbox role)))
    (role : Role) :
    Streamed reach (terms.startHandler role.other)
      (deeds.flatMap (terms.seenBy role))
      (deeds.flatMap (terms.seenBy role.other)) where
  accepted_le := by
    rw [accepted_of_deeds, started_of_deeds, List.length_map,
      List.length_map]
    have hOpenings :=
      congrArg List.length (hHeard.openings role)
    simp only [List.length_append, List.length_map]
      at hOpenings
    exact Nat.le.intro hOpenings.symm
  accepted_at := by
    intro i ref' handlers hAccepted
    rw [accepted_of_deeds, List.getElem?_map,
      Option.map_eq_some_iff] at hAccepted
    rcases hAccepted with
      ⟨⟨key, opCode, ref''⟩, hAccepted, hSame⟩
    cases hSame
    rcases hHeard.accepted_at role hAccepted with
      ⟨ref, hOpened⟩
    refine ⟨opCode, ref, ?_, rfl, ?_⟩
    · rw [started_of_deeds, List.getElem?_map, hOpened]
      rfl
    · exact
        joined_of_dialogue hStreaming hHeard hApart
          (hReach key)
          (registered_of_mem
            (Or.inl (List.mem_of_getElem? hOpened)))
          (registered_of_mem
            (Or.inr (List.mem_of_getElem? hAccepted)))

theorem object_of_registered
    {key : UInt32}
    {ref : StreamRef}
    (hRegistered : Registered role deeds key ref) :
    ref ∈
      (deeds.flatMap (terms.seenBy role)).filterMap
        Observation.object? := by
  rw [objects_of_deeds]
  exact List.mem_map_of_mem hRegistered

theorem tidy_of_dialogue
    (hStreaming : Streaming deeds d)
    (hNodup :
      ((deeds.filterMap (Act.registers role)).map
        Prod.snd).Nodup) :
    Tidy (deeds.flatMap (terms.seenBy role)) where
  objects := by
    rw [objects_of_deeds]
    exact hNodup
  written := by
    intro u hWritten
    rw [written_of_deeds] at hWritten
    rcases List.mem_map.mp hWritten with ⟨v, hUsed, hSame⟩
    rw [← hSame]
    exact object_of_registered (hStreaming.used role v hUsed)
  dispatched := by
    intro t hDispatched
    rw [dispatched_of_deeds] at hDispatched
    rcases List.mem_map.mp hDispatched with
      ⟨v, hDelivered, hSame⟩
    rcases hStreaming.delivered role v hDelivered with
      ⟨ref, hRef, hRegistered⟩
    rw [← hSame]
    exact ⟨ref, object_of_registered hRegistered, hRef⟩

------------------------------------------------------------
-- Runs
------------------------------------------------------------

variable {S : Sodium}
variable {hdl : Hdl}
variable {l : Link}

/-
  After a handshake between ends of one configuration with
  distinct codes, over any actions that `MayTake` allows: in
  particular stream data and ends have their default codes,
  what is sent fits, both wrappers are owned by a shared
  pointer when they write, and nothing is cancelled.  In
  either direction streams are accepted in order and go to the
  handler of their operation code.  The two objects of a
  stream are joined in both directions.  An end that has no
  packet on its way to it has been told everything.
-/
theorem streams_delivered
    {l₀ : Link}
    {g : Link.Greeting}
    {turns : List Link.Turn}
    (hCorrect : S.AeadCorrect)
    (hWaiting : l₀.Waiting hdl)
    (hWelcome : l₀.Welcome S g)
    (hRun :
      StateMachine.Run
        (Link.Step S hdl (l₀.terms l₀.isAuth) l₀.isAuth)
        (l₀.connect S hdl g) turns l)
    (hTurns : turns.length < 2 ^ 64)
    (hIds :
      ∀ role, Link.streamIds S hdl role turns ≤ 2 ^ 31)
    (role : Role) :
    let here := Link.trace S hdl role turns
    let there := Link.trace S hdl role.other turns
    let startHandler :=
      (l₀.terms l₀.isAuth).startHandler role.other
    Streamed (· <+: ·) startHandler here there ∧
      Tidy here ∧
        ((∀ r, l.queue r = []) →
          Streamed (· = ·) startHandler here there ∧
            (there.filterMap Observation.accepted?).length =
              (here.filterMap
                Observation.started?).length) := by
  rcases Link.connect_established hWaiting hWelcome with
    ⟨⟨keys, hEstablished⟩, hIntroduced⟩
  rw [← hIntroduced.terms] at hRun ⊢
  rcases run_mirrored hCorrect hEstablished hRun hTurns with
    ⟨deeds, d, f, hDeeds, hMirrors, hReflects⟩
  have hHeard := heard_of_run hDeeds quiet_initial
  have hStreaming :=
    streaming_of_run hDeeds quiet_initial
      (hReflects.freshKeys hIds)
  dsimp only
  rw [hReflects.seen role, hReflects.seen role.other]
  refine
    ⟨streamed_of_dialogue hStreaming hHeard
        hReflects.refsApart
        (fun _ _ _ => List.prefix_append _ _) role,
      tidy_of_dialogue hStreaming (hReflects.refs_nodup role),
      ?_⟩
  intro hQuiet
  have hInbox (r : Role) : d.inbox r = [] :=
    hMirrors.inbox_nil (hQuiet r)
  refine
    ⟨streamed_of_dialogue hStreaming hHeard
        hReflects.refsApart ?_ role,
      ?_⟩
  · intro key r items
    rw [hInbox r]
    exact (List.append_nil items).symm
  · rw [accepted_of_deeds, started_of_deeds, List.length_map,
      List.length_map]
    have hOpenings :=
      congrArg List.length (hHeard.openings role)
    rw [show d.inbox (other role) = [] from
      hInbox role.other] at hOpenings
    simp only [List.filterMap_nil, List.append_nil,
      List.length_map] at hOpenings
    exact hOpenings.symm

------------------------------------------------------------
-- A Sample Run
------------------------------------------------------------

open PlainSodium

/- The server writes on a stream that the client starts. -/
def answeredStream : List Link.Action :=
  [.callClient (.startStreamWith .zero 8),
    .callClient (.streamWrite .zero [1, 2] 0),
    .hearServer (.smooth (sampleKx 8)),
    .callServer (.streamWrite .zero [3] 0),
    .hearServer (.smooth (sampleKx 8)),
    .callServer (.streamEnd .zero 0),
    .hearClient (WsClient.smooth (sampleKx 7)),
    .hearClient (WsClient.smooth (sampleKx 7))]

theorem sample_starts (opCode : Option OpCode) :
    Starts (Link.sample.terms true).config opCode := by
  cases opCode with
  | none => exact sample_fits (n := 6) (by decide)
  | some opCode => exact sample_fits (n := 10) (by decide)

/- The client may start a stream in any state. -/
theorem client_starts (l : Link) (opCode : OpCode) :
    l.MayTake 1 (Link.sample.terms true) true
      (.callClient (.startStreamWith .zero opCode)) :=
  sample_starts
    (startStreamOpCode l.client.session.getSelectedVersion
      opCode)

set_option maxRecDepth 20000 in
theorem answeredStream_allowed :
    StateMachine.Allowed
      (fun l action =>
        Link.MayTake 1 (Link.sample.terms true) true l action)
      (fun l action => l.exec plainSodium 1 action)
      Link.connected answeredStream := by
  refine ⟨client_starts Link.connected 8,
    ⟨⟨?_, ⟨0, (), some 8, none, none, none⟩, ?_, ?_⟩,
      by decide, by decide, sample_fits (by decide)⟩,
    ⟨?_, fun state hFound => ⟨?_, repliable_smooth⟩⟩,
    ⟨⟨?_, ⟨0, .send 1, some 8, none, none, none⟩, ?_,
        ?_⟩,
      by decide, by decide, sample_fits (by decide)⟩,
    ⟨?_, fun state hFound => ⟨?_, repliable_smooth⟩⟩,
    ⟨⟨?_, ⟨0, .send 1, some 8, none, none, none⟩, ?_,
        ?_⟩,
      by decide, sample_fits (by decide)⟩,
    ⟨?_, repliable_smooth, rfl⟩,
    ⟨?_, repliable_smooth, rfl⟩,
    trivial⟩
  · decide +kernel
  · decide +kernel
  · decide +kernel
  · decide +kernel
  · exact fun hEnabled => absurd hEnabled (by decide +kernel)
  · decide +kernel
  · decide +kernel
  · decide +kernel
  · decide +kernel
  · exact fun hEnabled => absurd hEnabled (by decide +kernel)
  · decide +kernel
  · decide +kernel
  · decide +kernel
  · decide +kernel
  · decide +kernel

/- What an end of the sample observes. -/
def streaming (role : Role) : List Observation :=
  Link.trace plainSodium 1 role
    (Link.connected.turnsOf plainSodium 1 answeredStream)

/- The stream is accepted, and nothing is left to be told. -/
theorem streams_delivered_answered :
    Streamed (· = ·)
        ((Link.sample.terms true).startHandler .server)
        (streaming .client) (streaming .server) ∧
      ((streaming .server).filterMap
        Observation.accepted?).length = 1 := by
  have hRun :=
    Link.run_turnsOf plainSodium 1 answeredStream_allowed
  have hIds :
      ∀ role,
        Link.streamIds plainSodium 1 role
            (Link.connected.turnsOf plainSodium 1
              answeredStream) ≤ 2 ^ 31 := by
    intro role
    have hFew :
        Link.streamIds plainSodium 1 role
            (Link.connected.turnsOf plainSodium 1
              answeredStream) < 2 := by
      cases role <;> decide +kernel
    exact hFew.le.trans (by simp)
  have hQuiet :
      ∀ r,
        (answeredStream.foldl
          (fun l action => l.exec plainSodium 1 action)
            Link.connected).queue r = [] := by
    intro r
    cases r <;> decide +kernel
  have hDelivered :=
    streams_delivered plainSodium_aeadCorrect
      Link.sample_waiting Link.sample_welcome hRun
      (lt_of_eq_of_lt (b := 8) rfl (by simp)) hIds .client
  exact ⟨(hDelivered.2.2 hQuiet).1, by decide +kernel⟩

end EndToEnd

end ObscuraProto
