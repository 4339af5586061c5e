import ObscuraProto.HandshakeRate
import ObscuraProto.WsServer.LimiterIds
import ObscuraProto.WsServer.Opening

/-
  Connections do not disturb each other.

  What is received on a connection, and its close, leave the
  entries of any other connection as they are, whatever the
  application does in between with other connections.  The
  token buckets of the limiter are keyed by a counter of 64
  bits, so they are apart as long as it has not come round.

  Key definitions include:
    * `ConnectionFrame.Undisturbed`
    * `ConnectionFrame.BucketKept`
    * `ConnectionFrame.Elsewhere`

  Key theorems include:
    * `ConnectionFrame.connections_undisturbed`
    * `ConnectionFrame.bucket_disturbed`
-/

namespace ObscuraProto

namespace ConnectionFrame

open Effectful WsServer Threads

------------------------------------------------------------
-- What Is Kept of a Connection
------------------------------------------------------------

/- Its entries, and the objects of its streams. -/
structure Undisturbed
    (hdl : Hdl)
    (w w' : WsServer) : Prop where
  entries : SameEntries hdl w w'
  objects :
    ∀ streamId ref,
      w.streams.find hdl streamId = some ref →
        ∀ stream, w.streams.objects[ref]? = some stream →
          w'.streams.objects[ref]? = some stream

/- The message token bucket of its stored session. -/
def BucketKept (hdl : Hdl) (w w' : WsServer) : Prop :=
  ∀ connId, storedId hdl w connId →
    w'.rateLimiter.messageBuckets[connId]? =
      w.rateLimiter.messageBuckets[connId]?

/-
  What user callbacks may do that do not touch `other`: they
  keep all of it, and like every public method they store no
  session.
-/
structure Elsewhere
    (hdl other : Hdl)
    (w w' : WsServer) : Prop where
  undisturbed : Undisturbed other w w'
  bucket : BucketKept other w w'
  ids :
    ∀ connId, storedId hdl w' connId → storedId hdl w connId

/- The event is a message on the connection, or its close. -/
inductive IsOn (hdl : Hdl) : ServerEvent → Prop
| message (input : IoInput) (frame : Frame) :
    IsOn hdl (.message input hdl frame)
| closed (input : IoInput) : IsOn hdl (.closed input hdl)

/- The two connections have different limiter ids. -/
def IdsApart (hdl other : Hdl) (w : WsServer) : Prop :=
  ∀ connId, storedId hdl w connId → ¬ storedId other w connId

------------------------------------------------------------
-- Composition
------------------------------------------------------------

variable {hdl other : Hdl}

theorem Undisturbed.refl (other : Hdl) (w : WsServer) :
    Undisturbed other w w where
  entries := .refl other w
  objects := fun _ _ _ _ hObject => hObject

theorem find_of_entries
    {w w' : WsServer}
    (hEntries : SameEntries other w w')
    (streamId : UInt32) :
    w'.streams.find other streamId =
      w.streams.find other streamId := by
  unfold StreamTable.find NestedMap.lookupAt
  rw [hEntries.streams]

theorem Undisturbed.trans
    {w v u : WsServer}
    (hFirst : Undisturbed other w v)
    (hSecond : Undisturbed other v u) :
    Undisturbed other w u where
  entries := hFirst.entries.trans hSecond.entries
  objects := by
    intro streamId ref hFound stream hObject
    have hStill :
        v.streams.find other streamId = some ref := by
      rw [find_of_entries hFirst.entries]
      exact hFound
    exact
      hSecond.objects streamId ref hStill stream
        (hFirst.objects streamId ref hFound stream hObject)

theorem storedId_of_entries
    {w w' : WsServer}
    (hEntries : SameEntries other w w')
    (connId : UInt64) :
    storedId other w' connId ↔ storedId other w connId := by
  unfold storedId
  constructor
  · rintro ⟨isAuth, state, hStored, hId⟩
    rw [hEntries.sessions] at hStored
    exact ⟨isAuth, state, hStored, hId⟩
  · rintro ⟨isAuth, state, hStored, hId⟩
    rw [← hEntries.sessions] at hStored
    exact ⟨isAuth, state, hStored, hId⟩

/- Both together compose as well. -/
def Spared (other : Hdl) (w w' : WsServer) : Prop :=
  Undisturbed other w w' ∧ BucketKept other w w'

theorem Spared.refl (other : Hdl) (w : WsServer) :
    Spared other w w :=
  ⟨.refl other w, fun _ _ => rfl⟩

theorem Spared.trans
    {w v u : WsServer}
    (hFirst : Spared other w v)
    (hSecond : Spared other v u) :
    Spared other w u := by
  refine ⟨hFirst.1.trans hSecond.1, ?_⟩
  intro connId hStored
  have hStill : storedId other v connId :=
    (storedId_of_entries hFirst.1.entries connId).mpr hStored
  exact
    (hSecond.2 connId hStill).trans (hFirst.2 connId hStored)

theorem Elsewhere.refl (hdl other : Hdl) (w : WsServer) :
    Elsewhere hdl other w w where
  undisturbed := .refl other w
  bucket := fun _ _ => rfl
  ids := fun _ hStored => hStored

theorem Elsewhere.trans
    {w v u : WsServer}
    (hFirst : Elsewhere hdl other w v)
    (hSecond : Elsewhere hdl other v u) :
    Elsewhere hdl other w u := by
  have hSpared :
      Spared other w u :=
    Spared.trans ⟨hFirst.undisturbed, hFirst.bucket⟩
      ⟨hSecond.undisturbed, hSecond.bucket⟩
  exact
    { undisturbed := hSpared.1
      bucket := hSpared.2
      ids := fun connId hStored =>
        hFirst.ids connId (hSecond.ids connId hStored) }

theorem Elsewhere.idsApart
    {w w' : WsServer}
    (hElsewhere : Elsewhere hdl other w w')
    (hApart : IdsApart hdl other w) :
    IdsApart hdl other w' := by
  intro connId hStored hOther
  exact
    hApart connId (hElsewhere.ids connId hStored)
      ((storedId_of_entries hElsewhere.undisturbed.entries
        connId).mp hOther)

------------------------------------------------------------
-- Single Steps
------------------------------------------------------------

/- Stream objects are only added to. -/
theorem undisturbed_of_touches
    {may : LimiterOp → Prop}
    {w w' : WsServer}
    {effects : List ServerEffect}
    (hOther : other ≠ hdl)
    (hTouches : Touches may hdl w effects w') :
    Undisturbed other w w' where
  entries := hTouches.others other hOther
  objects := by
    intro _ ref _ stream hObject
    rcases hTouches.objects with ⟨more, hMore⟩
    rw [← hMore]
    have hLess : ref < w.streams.objects.length :=
      (List.getElem?_eq_some_iff.mp hObject).1
    rw [List.getElem?_append_left hLess]
    exact hObject

/- The bucket an operation may write. -/
def LimiterOp.bucketOf : LimiterOp → Option UInt64
| .checkMessageRate connId _ => some connId
| .recordMessage connId _ => some connId
| .unregisterConnection connId _ => some connId
| _ => none

theorem bucket_apply
    {op : LimiterOp}
    {connId : UInt64}
    (hOther : LimiterOp.bucketOf op ≠ some connId)
    (rl : RateLimiter) :
    (op.apply rl).messageBuckets[connId]? =
      rl.messageBuckets[connId]? := by
  refine RateLimiter.messageBuckets_apply ?_ ?_ ?_ rl
  · rintro now rfl
    exact hOther rfl
  · rintro now rfl
    exact hOther rfl
  · rintro ip rfl
    exact hOther rfl

theorem bucketKept_of_uses
    {may : LimiterOp → Prop}
    {w w' : WsServer}
    (hUses : UsesLimiter may w w')
    (hMay :
      ∀ op, may op → ∀ connId, storedId other w connId →
        LimiterOp.bucketOf op ≠ some connId) :
    BucketKept other w w' := by
  intro connId hStored
  rcases hUses with ⟨ops, hOps, hState⟩
  rw [hState]
  generalize w.rateLimiter = rl
  clear hState
  induction ops generalizing rl with
  | nil => rfl
  | cons op ops ih =>
      rw [List.foldl_cons,
        ih (fun other hMem =>
          hOps other (List.mem_cons_of_mem _ hMem))]
      exact
        bucket_apply
          (hMay op (hOps op List.mem_cons_self) connId hStored)
          rl

/- A step that writes no bucket spares the other one. -/
theorem spared_of_touches
    {may : LimiterOp → Prop}
    {w w' : WsServer}
    {effects : List ServerEffect}
    (hOther : other ≠ hdl)
    (hMay : ∀ op, may op → LimiterOp.bucketOf op = none)
    (hTouches : Touches may hdl w effects w') :
    Spared other w w' := by
  refine ⟨undisturbed_of_touches hOther hTouches, ?_⟩
  apply bucketKept_of_uses hTouches.limiter
  intro op hOp connId _
  rw [hMay op hOp]
  exact Option.some_ne_none connId |>.symm

/- And so does a step on the bucket of its own id. -/
theorem spared_of_apart
    {may : LimiterOp → Prop}
    {w w' : WsServer}
    {effects : List ServerEffect}
    (hOther : other ≠ hdl)
    (hApart : IdsApart hdl other w)
    (hMay :
      ∀ op, may op → ∀ connId,
        LimiterOp.bucketOf op = some connId →
          storedId hdl w connId)
    (hTouches : Touches may hdl w effects w') :
    Spared other w w' := by
  refine ⟨undisturbed_of_touches hOther hTouches, ?_⟩
  apply bucketKept_of_uses hTouches.limiter
  intro op hOp connId hStored hBucket
  exact hApart connId (hMay op hOp connId hBucket) hStored

------------------------------------------------------------
-- Messages and Closes
------------------------------------------------------------

variable (S : Sodium)

/- Short for: its steps spare the other connection. -/
abbrev Sparing
    (other : Hdl)
    {α : Type}
    (act : ServerAction α) : Prop :=
  Ensures (fun w _ w' => Spared other w w') act

theorem sparing_of_local
    {may : LimiterOp → Prop}
    {α : Type}
    {act : ServerAction α}
    (hOther : other ≠ hdl)
    (hMay : ∀ op, may op → LimiterOp.bucketOf op = none)
    (hLocal : Local may hdl act) :
    Sparing other act :=
  hLocal.mono
    (fun _ _ _ hTouches =>
      spared_of_touches hOther hMay hTouches)

theorem sparing_of_silent
    {α : Type}
    {act : ServerAction α}
    (hOther : other ≠ hdl)
    (hLocal : Local (fun _ => False) hdl act) :
    Sparing other act :=
  sparing_of_local hOther (fun _ hNever => hNever.elim) hLocal

theorem handshakeMayUse_bucket
    {input : IoInput}
    (op : LimiterOp)
    (hMay : handshakeMayUse input op) :
    LimiterOp.bucketOf op = none := by
  cases op with
  | checkMessageRate | recordMessage | unregisterConnection =>
      exact hMay.elim
  | _ => rfl

theorem onMessage_spares
    (input : IoInput)
    (frame : Frame)
    (hOther : other ≠ hdl)
    {w : WsServer}
    (hApart : IdsApart hdl other w) :
    Guarantees (Elsewhere hdl other)
      (fun w _ w' => Spared other w w')
      (onMessage S input hdl frame) w := by
  unfold onMessage
  split
  · exact .done _ w
  · refine .atomic_bind ?_ ?_
    · have hTouches :=
        receive_touches S input hdl frame.payload w
      unfold receive at hTouches
      rw [Action.run_atomically] at hTouches
      refine spared_of_apart hOther hApart ?_ hTouches
      intro op hMay connId hBucket
      cases op with
      | checkMessageRate | recordMessage =>
          cases hBucket
          exact hMay
      | _ => exact hMay.elim
    · intro received _ t _
      apply Guarantees.of_ensures
      cases received with
      | ignored => exact Ensures.pure ()
      | decrypted isAuth payload =>
          have hDispatch :
              Local (fun _ => False) hdl
                (Action.catchAll
                  (dispatch S input hdl isAuth payload)
                  (fun _ => pure ())) :=
            Ensures.catchAll
              (dispatch_local S input isAuth payload)
              (fun _ => Ensures.pure ())
          exact sparing_of_silent hOther hDispatch
      | unknown =>
          have hHandshake :
              Local (handshakeMayUse input) hdl
                (Action.catchAll
                  (handshake S input hdl frame.payload)
                  (fun _ =>
                    closeHdl input hdl .policyViolation
                      "Handshake error")) :=
            Ensures.catchAll
              (handshake_local S input frame.payload)
              (fun _ => closeHdl_local _ _ _ _)
          exact
            sparing_of_local hOther handshakeMayUse_bucket
              hHandshake

/- A step without the limiter can be one of the others. -/
theorem elsewhere_of_touches
    {target : Hdl}
    {w w' : WsServer}
    {effects : List ServerEffect}
    (hOther : other ≠ target)
    (hTouches : Touches (fun _ => False) target w effects w')
    (hDrops : Drops w w') :
    Elsewhere hdl other w w' := by
  have hSpared :=
    spared_of_touches hOther (fun _ hNever => hNever.elim)
      hTouches
  exact
    { undisturbed := hSpared.1
      bucket := hSpared.2
      ids := hDrops.held hdl }

/- As when a callback sends on its own connection. -/
theorem send_elsewhere
    (nonce : Nonce)
    {target : Hdl}
    (payload : Payload)
    (hOther : other ≠ target) :
    Ensures (fun w _ w' => Elsewhere hdl other w w')
      (call S (.send nonce target payload)) := by
  have hLocal :
      Local (fun _ => False) target
        (call S (.send nonce target payload)) :=
    send_local S nonce payload
  have hDropping :
      Dropping (call S (.send nonce target payload)) :=
    callCode_dropping S (.method (.send nonce target payload))
  exact
    (hLocal.both hDropping).mono
      (fun _ _ _ hBoth =>
        elsewhere_of_touches hOther hBoth.1 hBoth.2)

theorem onClose_spares
    (input : IoInput)
    (hOther : other ≠ hdl)
    {w : WsServer}
    (hApart : IdsApart hdl other w) :
    Guarantees (Elsewhere hdl other)
      (fun w _ w' => Spared other w w')
      (onClose input hdl) w := by
  have hFirst
      {α : Type}
      {act : ServerAction α}
      (hLocal : Local (fun _ => False) hdl act)
      (hDropping : Dropping act) :
      Ensures (fun w _ w' => Elsewhere hdl other w w') act :=
    (hLocal.both hDropping).mono
      (fun _ _ _ hBoth =>
        elsewhere_of_touches hOther hBoth.1 hBoth.2)
  have hBind
      {α : Type}
      {act : ServerAction α}
      {next : α → ServerAction Unit}
      {v : WsServer}
      (hAct :
        Ensures (fun w _ w' => Elsewhere hdl other w w') act)
      (hNext :
        ∀ a t, Elsewhere hdl other v t →
          Guarantees (Elsewhere hdl other)
            (fun w _ w' => Spared other w w') (next a) t) :
      Guarantees (Elsewhere hdl other)
        (fun w _ w' => Spared other w w') (act >>= next) v :=
    .bind hAct
      (fun _ _ _ hElse => ⟨hElse.undisturbed, hElse.bucket⟩)
      (fun _ _ _ hElse => hElse)
      (fun _ _ _ hElse hMore => hElse.trans hMore)
      (Elsewhere.refl hdl other) hNext
  apply hBind (hFirst get_local get_dropping)
  intro v t hElse
  apply hBind
    (hFirst (invokeHandler_local _ _ _)
      (invokeHandler_dropping _ _ _))
  intro _ u hMore
  have hStill := (hElse.trans hMore).idsApart hApart
  refine .atomic_bind ?_ ?_
  · refine
      spared_of_apart hOther hStill ?_ (closeSessions_touches u)
    intro op hMay connId hBucket
    cases op with
    | unregisterConnection connId' ip =>
        cases hBucket
        exact hMay
    | _ => exact hMay.elim
  · intro _ _ t' _
    apply Guarantees.of_ensures
    exact sparing_of_silent hOther (closeRest_local hdl)

------------------------------------------------------------
-- All Runs
------------------------------------------------------------

/- Up to 2^64 registrations the ids are apart. -/
theorem idsApart_of_fresh
    {w : WsServer}
    {drawn : Nat}
    (hFresh :
      Numbering.Fresh (fun hdl connId => storedId hdl w connId)
        drawn)
    (hOther : other ≠ hdl) :
    IdsApart hdl other w := by
  intro connId hHeld hHeldToo
  exact
    hOther (hFresh.distinct other hdl connId hHeldToo hHeld)

/- In any state the entries are left as they were. -/
theorem undisturbed_of_among
    {event : ServerEvent}
    (hOn : IsOn hdl event)
    (hOther : other ≠ hdl)
    {w w' : WsServer}
    (hAmong :
      Among (Elsewhere hdl other) (handle S event) w w') :
    Undisturbed other w w' := by
  refine
    hAmong.within (.of_ensures ?_ w) (Undisturbed.refl other)
      Undisturbed.trans (fun _ _ _ hKept => hKept)
      (fun _ _ hElse => hElse.undisturbed)
  cases hOn with
  | message input frame =>
      exact
        (onMessage_touches S input hdl frame).mono
          (fun _ _ _ hTouches =>
            undisturbed_of_touches hOther hTouches)
  | closed input =>
      exact
        (onClose_touches input hdl).mono
          (fun _ _ _ hTouches =>
            undisturbed_of_touches hOther hTouches)

/- And the bucket, when the two ids are not the same. -/
theorem spared_of_among
    {event : ServerEvent}
    (hOn : IsOn hdl event)
    (hOther : other ≠ hdl)
    {w w' : WsServer}
    (hApart : IdsApart hdl other w)
    (hAmong :
      Among (Elsewhere hdl other) (handle S event) w w') :
    Spared other w w' := by
  refine
    hAmong.within ?_ (Spared.refl other) Spared.trans
      (fun _ _ _ hKept => hKept)
      (fun _ _ hElse => ⟨hElse.undisturbed, hElse.bucket⟩)
  cases hOn with
  | message input frame =>
      exact onMessage_spares S input frame hOther hApart
  | closed input =>
      exact onClose_spares input hOther hApart

/-
  Whatever is received on a connection, and its close, leaves
  the entries of any other connection as they were, and up to
  2^64 registrations its message token bucket.
-/
theorem connections_undisturbed
    {serverSignKey : KeyPair}
    {config : Config}
    {hasOwner : Bool}
    {labels : List (Label ServerCall IoEvent)}
    {p : ServerPool}
    (hRun :
      StateMachine.Run (PoolStep S)
        (pool (WsServer.new serverSignKey config hasOwner))
          labels p)
    {event : ServerEvent}
    (hOn : IsOn hdl event)
    (hOther : other ≠ hdl)
    {w' : WsServer}
    (hAmong :
      Among (Elsewhere hdl other) (handle S event) p.shared
        w') :
    Undisturbed other p.shared w' ∧
      (registrations p.history ≤ 2 ^ 64 →
        BucketKept other p.shared w') := by
  refine ⟨undisturbed_of_among S hOn hOther hAmong, ?_⟩
  intro hFew
  have hApart : IdsApart hdl other p.shared :=
    idsApart_of_fresh (fresh_of_run hRun hFew) hOther
  exact (spared_of_among S hOn hOther hApart hAmong).2

------------------------------------------------------------
-- The Counter Comes Round
------------------------------------------------------------

/- The next number is taken for the session that is stored. -/
structure Enrolled
    (hdl : Hdl)
    (w w' : WsServer) : Prop where
  counter :
    w'.rateLimiter.nextConnId =
      w.rateLimiter.nextConnId + 1
  table :
    ∃ isAuth state,
      state.rateLimiterId = w.rateLimiter.nextConnId ∧
        w'.sessionTable =
          w.sessionTable.emplace isAuth hdl state

theorem conclude_enrols
    {input : IoInput}
    (hYes : input.identityAnswer = .ok true)
    (hdl : Hdl)
    (hello : ClientHello)
    (session : Session)
    (w : WsServer) :
    Enrolled hdl w
      ((conclude input hdl hello session).run w).state := by
  let now := nowMs (input.clock 1)
  let recorded :=
    if w.config.rateLimit.enabled then
      w.rateLimiter.recordHandshake input.remoteIp now
    else
      w.rateLimiter
  have hCounter :
      recorded.nextConnId = w.rateLimiter.nextConnId := by
    unfold recorded
    split
    · have hOp (ip : String) :
          LimiterOp.recordHandshake input.remoteIp now ≠
            .registerConnection ip :=
        LimiterOp.noConfusion
      exact nextConnId_apply hOp w.rateLimiter
    · rfl
  have hEstablish
      (identity : Option PublicKey) :
      Enrolled hdl w
        ((establish input hdl session identity >>= fun _ =>
          clearHandshakeTime hdl).run
            { w with rateLimiter := recorded }).state := by
    rw [Action.run_bind_ok
      (establish_run_eq input hdl session identity _)]
    refine ⟨?_, identity.isSome, _, hCounter, rfl⟩
    exact congrArg (· + 1) hCounter
  have hAsk (clientPk : PublicKey) (v : WsServer) :
      ∃ effects,
        (identityAccepted input hdl clientPk).run v =
          { result := .ok true
            effects := effects
            state := v } := by
    unfold identityAccepted
    rw [Action.run_get_bind, hYes]
    cases v.clientIdentityHandler with
    | none => exact ⟨_, rfl⟩
    | some handler => exact ⟨_, rfl⟩
  unfold conclude
  rw [Action.run_bind_ok (limiterRecord_run_eq _ w)]
  dsimp only
  split
  · next clientPk _ _ =>
      rcases hAsk clientPk { w with rateLimiter := recorded }
        with ⟨effects, hAsked⟩
      unfold establishIdentified
      rw [Effectful.Action.bind_assoc,
        Action.run_bind_ok hAsked]
      exact hEstablish (some clientPk)
  · exact hEstablish none

theorem answered_enrols
    {input : IoInput}
    {frame : Frame}
    {w : WsServer}
    (hYes : input.identityAnswer = .ok true)
    (hUnlimited :
      w.rateLimiter.checkHandshakeRate input.remoteIp
          (nowMs (input.clock 0)) =
        (true, w.rateLimiter))
    (hAnswered :
      HandshakeRate.answered S input frame w = true)
    (hdl : Hdl) :
    Enrolled hdl w
      ((handshake S input hdl frame.payload).run w).state := by
  unfold HandshakeRate.answered at hAnswered
  simp only [Bool.and_eq_true, decide_eq_true_eq]
    at hAnswered
  rcases hAnswered with ⟨hTransmit, hReply⟩
  unfold handshake
  rw [Action.run_bind_ok (limiterCheck_run_eq _ w)]
  simp only [hUnlimited, ite_self, Bool.or_true, Bool.not_true,
    Bool.false_eq_true, if_false]
  unfold respondToHello
  cases hHello : ClientHello.deserialize frame.payload with
  | error e =>
      rw [hHello] at hReply
      cases hReply
  | ok hello =>
      rw [hHello] at hReply
      rw [Action.run_ofExcept_ok_bind, Action.run_get_bind]
      dsimp only at hReply ⊢
      cases hRespond :
          (Session.new .server w.serverSignKey
            w.config.supportedVersions
            ).serverRespondToHandshake S input.kx hello with
      | mk reply session =>
          rw [hRespond] at hReply
          cases reply with
          | error e => cases hReply
          | ok reply =>
              rw [Action.run_ofExcept_ok_bind,
                Action.run_emit_bind, hTransmit,
                Action.run_ofExcept_ok_bind]
              exact conclude_enrols hYes hdl hello session w

open PlainSodium

/- Without a limit on the rate of handshakes. -/
def uncapped : Config :=
  { Config.withDefaults with
    rateLimit := { handshakeAttemptsPerMinute := 0 } }

/-
  The first connection has the id 0 and a bucket; so far
  `drawn` ids were given, and the second one has none.
-/
structure Wound (drawn : Nat) (w : WsServer) : Prop where
  configured : w.config = uncapped
  key : w.serverSignKey = sampleKeyPair 6
  limiter : w.rateLimiter.config = uncapped.rateLimit
  counter : w.rateLimiter.nextConnId = UInt64.ofNat drawn
  held : storedId 1 w 0
  only : ∀ connId, storedId 1 w connId → connId = 0
  bucket : w.rateLimiter.messageBuckets[(0 : UInt64)]? ≠ none
  unstored : Unstored 2 w

def secondHello : ServerEvent := .hello 2 2

def secondClosed : ServerEvent := .closed (.smooth (sampleKx 2)) 2

theorem spared_next
    {event : ServerEvent}
    {w : WsServer}
    (hOn : IsOn hdl event)
    (hOther : other ≠ hdl)
    (hApart : IdsApart hdl other w) :
    Spared other w (next S w event) :=
  spared_of_among S hOn hOther hApart
    (.of_run (Elsewhere.refl hdl other) (handle S event) w)

/- The first connection has its id and its bucket still. -/
theorem Wound.first_kept
    {drawn : Nat}
    {w w' : WsServer}
    (hWound : Wound drawn w)
    (hSpared : Spared 1 w w') :
    storedId 1 w' 0 ∧
      (∀ connId, storedId 1 w' connId → connId = 0) ∧
        w'.rateLimiter.messageBuckets[(0 : UInt64)]? ≠ none := by
  have hIds (connId : UInt64) :
      storedId 1 w' connId ↔ storedId 1 w connId :=
    storedId_of_entries hSpared.1.entries connId
  refine ⟨(hIds 0).mpr hWound.held, ?_, ?_⟩
  · intro connId hHeld
    exact hWound.only connId ((hIds connId).mp hHeld)
  · rw [hSpared.2 0 hWound.held]
    exact hWound.bucket

theorem Wound.unlimited
    {drawn : Nat}
    {w : WsServer}
    (hWound : Wound drawn w) :
    w.rateLimiter.checkHandshakeRate "127.0.0.1" (nowMs 0) =
      (true, w.rateLimiter) := by
  unfold RateLimiter.checkHandshakeRate
  rw [hWound.limiter]
  rfl

set_option maxRecDepth 8000 in
theorem Wound.enrolled
    {drawn : Nat}
    {w : WsServer}
    (hWound : Wound drawn w) :
    Enrolled 2 w (next plainSodium w secondHello) := by
  have hRun :
      next plainSodium w secondHello =
        ((handshake plainSodium (.smooth (sampleKx 2)) 2
          (sampleHello 5 2).serialize).run w).state :=
    onMessage_unknown plainSodium rfl (hWound.unstored true)
      (hWound.unstored false) _
  rw [hRun]
  have hAnswered :
      HandshakeRate.answered plainSodium
          (.smooth (sampleKx 2))
          { payload := (sampleHello 5 2).serialize } w =
        true := by
    unfold HandshakeRate.answered
    rw [hWound.configured, hWound.key]
    decide
  refine
    @answered_enrols plainSodium (.smooth (sampleKx 2))
      { payload := (sampleHello 5 2).serialize } w ?_ ?_
      hAnswered 2
  · rfl
  · exact hWound.unlimited

theorem onClose_closed
    (w : WsServer) :
    Closed 2 w (next plainSodium w secondClosed) := by
  rcases onClose_cases (.smooth (sampleKx 2)) 2 w with
    ⟨_, e, hError⟩ | hClosed
  · have hOk :
        ((onClose (.smooth (sampleKx 2)) 2).run w).result =
          .ok () := by
      unfold onClose
      rw [Action.run_get_bind]
      cases w.onCloseCallback <;> rfl
    rw [hOk] at hError
    cases hError
  · exact hClosed

/- The second one has got the next id, and no other. -/
theorem Wound.second_ids
    {drawn : Nat}
    {w : WsServer}
    (hWound : Wound drawn w)
    (connId : UInt64) :
    storedId 2 (next plainSodium w secondHello) connId ↔
      connId = UInt64.ofNat drawn := by
  rcases hWound.enrolled.table with
    ⟨isAuth, state, hId, hTable⟩
  rw [← hWound.counter]
  unfold storedId
  rw [hTable]
  constructor
  · rintro ⟨isAuth', state', hStored, hHas⟩
    by_cases hSide : isAuth' = isAuth
    · subst hSide
      rw [SessionTable.table_emplace_self] at hStored
      rcases OrderedMap.of_getElem?_insertIfNew hStored with
        ⟨_, hState⟩ | hOld
      · subst hState
        exact hHas.symm.trans hId
      · rw [hWound.unstored] at hOld
        cases hOld
    · rw [Bool.eq_not.mpr hSide,
        SessionTable.table_emplace_not,
        hWound.unstored] at hStored
      cases hStored
  · intro hSame
    refine ⟨isAuth, state, ?_, hId.trans hSame.symm⟩
    rw [SessionTable.table_emplace_self,
      OrderedMap.insertIfNew_of_absent (hWound.unstored isAuth)]
    exact Std.ExtTreeMap.getElem?_insert_self

theorem Wound.hello_spares
    {drawn : Nat}
    {w : WsServer}
    (hWound : Wound drawn w) :
    Spared 1 w (next plainSodium w secondHello) := by
  refine
    spared_next plainSodium (.message _ _) (by decide) ?_
  rintro connId ⟨isAuth, state, hStored, _⟩
  rw [hWound.unstored] at hStored
  cases hStored

/- No id of the first one, while the counter goes round. -/
theorem Wound.apart
    {drawn : Nat}
    {w : WsServer}
    (hWound : Wound drawn w)
    (hStart : 0 < drawn)
    (hDrawn : drawn < 2 ^ 64) :
    IdsApart 2 1 (next plainSodium w secondHello) := by
  intro connId hSecond hFirst
  have hZero :=
    (hWound.first_kept hWound.hello_spares).2.1 connId hFirst
  rw [hWound.second_ids] at hSecond
  rw [hZero] at hSecond
  have hNumber := congrArg UInt64.toNat hSecond
  rw [Numbering.toNat_counter hDrawn] at hNumber
  have hNone : (0 : UInt64).toNat = 0 := rfl
  omega

/- The second connection comes and goes once more. -/
theorem Wound.round
    {drawn : Nat}
    {w : WsServer}
    (hWound : Wound drawn w)
    (hStart : 0 < drawn)
    (hDrawn : drawn < 2 ^ 64) :
    Wound (drawn + 1)
      (next plainSodium (next plainSodium w secondHello)
        secondClosed) := by
  have hEnrolled := hWound.enrolled
  have hApart := hWound.apart hStart hDrawn
  have hHello := hWound.hello_spares
  generalize hMid : next plainSodium w secondHello = v
    at hEnrolled hApart hHello ⊢
  have hClose :
      Spared 1 v (next plainSodium v secondClosed) :=
    spared_next plainSodium (.closed _) (by decide) hApart
  rcases hWound.first_kept (hHello.trans hClose) with
    ⟨hHeld, hOnly, hBucket⟩
  have hCounter :
      (next plainSodium v
          secondClosed).rateLimiter.nextConnId =
        v.rateLimiter.nextConnId := by
    apply
      nextConnId_of_uses
        (handle_usesLimiter plainSodium secondClosed v)
    intro op hMay ip hOp
    rw [hOp] at hMay
    exact hMay
  exact
    { configured := by
        rw [next_config, ← hMid, next_config]
        exact hWound.configured
      key := by
        rw [next_serverSignKey, ← hMid, next_serverSignKey]
        exact hWound.key
      limiter := by
        rw [next_limiterConfig, ← hMid, next_limiterConfig]
        exact hWound.limiter
      counter := by
        rw [hCounter, hEnrolled.counter, hWound.counter]
        exact (UInt64.ofNat_add drawn 1).symm
      held := hHeld
      only := hOnly
      bucket := hBucket
      unstored := by
        intro isAuth
        rw [(onClose_closed v).table]
        exact Std.ExtTreeMap.getElem?_erase_self }

/- The first connection has sent one message. -/
def wound : WsServer :=
  next plainSodium
    (next plainSodium
      (WsServer.new (sampleKeyPair 6) uncapped true)
      (.hello 1 1))
    (.sealed 1 1 1 0 [])

set_option maxRecDepth 8000 in
theorem wound_start : Wound 1 wound := by
  have hAuth :
      (wound.sessionTable.sessions[(1 : Hdl)]?).map
          (fun state => state.rateLimiterId) = some 0 := by
    decide
  have hAnon :
      wound.sessionTable.anonSessions[(1 : Hdl)]? = none := by
    decide
  refine
    { configured := by
        unfold wound
        rw [next_config, next_config]
        rfl
      key := by
        unfold wound
        rw [next_serverSignKey, next_serverSignKey]
        rfl
      limiter := by
        unfold wound
        rw [next_limiterConfig, next_limiterConfig]
        rfl
      counter := by decide
      held := ?_
      only := ?_
      bucket := ?_
      unstored := ?_ }
  · rcases Option.map_eq_some_iff.mp hAuth with
      ⟨state, hStored, hId⟩
    exact ⟨true, state, hStored, hId⟩
  · rintro connId ⟨isAuth, state, hStored, hId⟩
    cases isAuth with
    | true =>
        have hSame :
            (wound.sessionTable.sessions[(1 : Hdl)]?).map
                (fun state => state.rateLimiterId) =
              some state.rateLimiterId :=
          congrArg (Option.map _) hStored
        rw [hAuth] at hSame
        injection hSame with hZero
        exact hId.symm.trans hZero.symm
    | false =>
        have hNone := hAnon.symm.trans hStored
        cases hNone
  · have hSome :
        (wound.rateLimiter.messageBuckets[(0 : UInt64)]?
          ).isSome = true := by
      decide
    exact Option.isSome_iff_ne_none.mp hSome
  · intro isAuth
    cases isAuth with
    | true =>
        have hNone :
            (wound.sessionTable.sessions[(2 : Hdl)]?).isNone =
              true := by
          decide
        exact Option.isNone_iff_eq_none.mp hNone
    | false =>
        have hNone :
            (wound.sessionTable.anonSessions[(2 : Hdl)]?
              ).isNone = true := by
          decide
        exact Option.isNone_iff_eq_none.mp hNone

/- A hello of the second connection spares the first one. -/
theorem wound_undisturbed :
    ∃ (labels : List (Label ServerCall IoEvent))
      (p : ServerPool),
      StateMachine.Run (PoolStep plainSodium)
          (pool (WsServer.new (sampleKeyPair 6) uncapped true))
          labels p ∧
        p.shared = wound ∧
          Undisturbed 1 wound
              (next plainSodium wound secondHello) ∧
            (registrations p.history ≤ 2 ^ 64 →
              BucketKept 1 wound
                (next plainSodium wound secondHello)) := by
  rcases
      Pool.run_events (poolProgram plainSodium)
        [⟨.hello 1 1, rfl⟩, ⟨.sealed 1 1 1 0 [], rfl⟩]
        (p := pool (WsServer.new (sampleKeyPair 6) uncapped true))
        rfl with
    ⟨labels, p, hRun, hShared, _⟩
  have hWound : p.shared = wound := hShared
  refine ⟨labels, p, hRun, hWound, ?_⟩
  rw [← hWound]
  exact
    connections_undisturbed plainSodium hRun
      (.message (.smooth (sampleKx 2)) _) (by decide)
      (.of_run (Elsewhere.refl 2 1)
        (handle plainSodium secondHello) p.shared)

/- Up to the id before the counter comes round. -/
theorem wound_rounds
    (rounds : Nat)
    (hRounds : rounds < 2 ^ 64) :
    ∃ events : List IoEvent,
      Wound (rounds + 1)
        (events.foldl
          (fun w event => next plainSodium w event.val)
          (WsServer.new (sampleKeyPair 6) uncapped true)) := by
  induction rounds with
  | zero =>
      exact
        ⟨[⟨.hello 1 1, rfl⟩, ⟨.sealed 1 1 1 0 [], rfl⟩],
          wound_start⟩
  | succ rounds ih =>
      rcases ih (by omega) with ⟨events, hWound⟩
      refine
        ⟨events ++
          [⟨secondHello, rfl⟩, ⟨secondClosed, rfl⟩], ?_⟩
      rw [List.foldl_append]
      exact hWound.round (by omega) hRounds

/-
  After 2^64 sessions a second connection gets the id of the
  first one, and its close drops the bucket of that one.
-/
theorem bucket_disturbed :
    ∃ (labels : List (Label ServerCall IoEvent))
      (p : ServerPool) (event : ServerEvent),
      StateMachine.Run (PoolStep plainSodium)
          (pool (WsServer.new (sampleKeyPair 6) uncapped true))
          labels p ∧
        IsOn 2 event ∧ (1 : Hdl) ≠ 2 ∧
          ¬ BucketKept 1 p.shared
            (next plainSodium p.shared event) := by
  rcases wound_rounds (2 ^ 64 - 1) (by omega) with
    ⟨events, hWound⟩
  rcases
      Pool.run_events (poolProgram plainSodium)
        (events ++ [⟨secondHello, rfl⟩])
        (p := pool (WsServer.new (sampleKeyPair 6) uncapped true))
        rfl with
    ⟨labels, p, hRun, hShared, _⟩
  refine
    ⟨labels, p, secondClosed, hRun, .closed _, by decide, ?_⟩
  rw [List.foldl_append] at hShared
  have hLast :
      p.shared =
        next plainSodium
          (events.foldl
            (fun w event => next plainSodium w event.val)
            (WsServer.new (sampleKeyPair 6) uncapped true))
          secondHello :=
    hShared
  rw [hLast]
  generalize
    events.foldl (fun w event => next plainSodium w event.val)
      (WsServer.new (sampleKeyPair 6) uncapped true) = w
    at hWound
  have hFirst := hWound.first_kept hWound.hello_spares
  have hTable := hWound.enrolled.table
  have hAbsent := hWound.unstored
  have hCounter := hWound.counter
  generalize next plainSodium w secondHello = v
    at hFirst hTable ⊢
  rcases hTable with ⟨isAuth, state, hId, hTable⟩
  have hStored :
      (v.sessionTable.table isAuth)[(2 : Hdl)]? =
        some state := by
    rw [hTable, SessionTable.table_emplace_self,
      OrderedMap.insertIfNew_of_absent (hAbsent isAuth)]
    exact Std.ExtTreeMap.getElem?_insert_self
  have hOther :
      (v.sessionTable.table (!isAuth))[(2 : Hdl)]? = none := by
    rw [hTable, SessionTable.table_emplace_not]
    exact hAbsent !isAuth
  intro hKept
  have hBucket := hKept 0 hFirst.1
  rw [(onClose_closed v).rateLimiter,
    closeSessions_rateLimiter hStored hOther, hId, hCounter]
    at hBucket
  apply hFirst.2.2
  rw [← hBucket]
  exact Std.ExtTreeMap.getElem?_erase_self

end ConnectionFrame

end ObscuraProto
