import ObscuraProto.ConnectionFrame

/-
  User callbacks that throw on the io thread.

  What is called while a message is processed is guarded, and
  so is the identity handler, so a message ends normally
  whatever the callbacks do.  The callbacks for new and for
  closed connections are not: an exception of theirs leaves
  the handler, a close is then not cleaned up after, and the
  loop of the io thread ends.  A run in which they return
  goes on, and every event in it is contained.

  Key definitions include:
    * `ThrowingCallbacks.IoLoop`, `ThrowingCallbacks.LoopStep`
    * `ThrowingCallbacks.Contained`
    * `ThrowingCallbacks.CallbackReturns`

  Key theorems include:
    * `ThrowingCallbacks.onMessage_throws`
    * `ThrowingCallbacks.contained_iff`
    * `ThrowingCallbacks.callbacks_contained`
    * `ThrowingCallbacks.close_escapes`
-/

namespace ObscuraProto

namespace ThrowingCallbacks

open Effectful WsServer ConnectionFrame

variable (S : Sodium)

------------------------------------------------------------
-- Messages
------------------------------------------------------------

section Messages

variable (input : IoInput) (hdl : Hdl)

/- Only `server_.close` can be the source of an exception. -/
def Closing (e : Exception) : Prop :=
  ∃ reason, input.close hdl reason = .error e

theorem closeHdl_throws
    (status : CloseStatus)
    (reason : String) :
    Throws (Closing input hdl)
      (closeHdl input hdl status reason) := by
  refine Throws.bind ?_ ?_
  · apply Throws.atomic
    intro w e hError
    cases hError
  · intro _
    apply Throws.ofExcept
    intro e hError
    exact ⟨reason, hError⟩

theorem limiterCheck_throws
    {P : Exception → Prop}
    (check : RateLimiter → Bool × RateLimiter) :
    Throws P (limiterCheck check) := by
  refine Throws.bind Throws.get ?_
  intro w
  split
  · apply Throws.atomic
    intro w e hError
    cases hError
  · exact Throws.pure true

theorem receiveFrom_throws
    (packet : Bytes)
    (isAuth : Bool)
    (state : ConnectionState) :
    Throws (Closing input hdl)
      (receiveFrom S input hdl packet isAuth state) := by
  unfold receiveFrom
  split
  · exact Throws.pure _
  · refine Throws.bind (limiterCheck_throws _) ?_
    intro allowed
    split
    · refine Throws.bind (closeHdl_throws input hdl _ _) ?_
      intro _
      exact Throws.pure _
    · refine Throws.catchAll (Throws.any _) ?_
      intro e _
      exact Throws.pure _

theorem receive_throws (packet : Bytes) :
    Throws (Closing input hdl)
      (receive S input hdl packet) := by
  apply Throws.atomic
  intro w e hError
  -- What is inside the atomic section throws only that.
  refine Throws.run (P := Closing input hdl) ?_ hError
  refine Throws.bind Throws.get ?_
  intro w
  split
  · exact receiveFrom_throws S input hdl packet true _
  · split
    · exact receiveFrom_throws S input hdl packet false _
    · exact Throws.pure _

/-
  No exception of a callback leaves the handler, whatever
  callbacks and other threads do to the state meanwhile.
-/
theorem onMessage_throws (frame : Frame) :
    Throws (Closing input hdl)
      (onMessage S input hdl frame) := by
  unfold onMessage
  split
  · exact Throws.pure ()
  · refine
      Throws.bind (receive_throws S input hdl frame.payload)
        ?_
    intro received
    cases received with
    | ignored => exact Throws.pure ()
    | decrypted isAuth payload =>
        refine Throws.catchAll (Throws.any _) ?_
        intro e _
        exact Throws.pure ()
    | unknown =>
        refine Throws.catchAll (Throws.any _) ?_
        intro e _
        exact closeHdl_throws input hdl _ _

end Messages

/- The timers call no user code and swallow their closes. -/
theorem checkTimeouts_throws
    {P : Exception → Prop}
    (input : IoInput) :
    Throws P (checkTimeouts input) := by
  have hQuietly
      (hdls : List Hdl)
      (status : CloseStatus)
      (reason : String) :
      Throws P (closeQuietly hdls status reason) := by
    apply Throws.atomic
    intro w e hError
    cases hError
  unfold checkTimeouts
  refine Throws.bind ?_ ?_
  · refine Throws.bind Throws.get ?_
    intro w
    dsimp only
    split
    · exact hQuietly _ _ _
    · exact Throws.pure ()
  intro _
  refine Throws.bind ?_ ?_
  · apply Throws.atomic
    intro w e hError
    have hInner :
        Throws P
          (do
            let w ← (Action.get : ServerAction WsServer)
            let handshakeMs := w.config.timeouts.handshakeMs
            if handshakeMs > 0 then
              let late := fun (_ : Hdl) (opened : Int) =>
                decide
                  ((handshakeMs.toNat : Int) <
                    nowMs (input.clock 0) - opened)
              closeQuietly (w.handshakeOpenTime.filter late).keys
                .policyViolation "Handshake timeout"
              Action.modify (fun w =>
                { w with
                  handshakeOpenTime :=
                    w.handshakeOpenTime.filter
                      (fun hdl opened =>
                        !late hdl opened) })) := by
      refine Throws.bind Throws.get ?_
      intro w
      dsimp only
      split
      · refine Throws.bind (hQuietly _ _ _) ?_
        intro _
        apply Throws.atomic
        intro w e hError
        cases hError
      · exact Throws.pure ()
    exact hInner.run hError
  intro _
  refine Throws.bind (requestSection_throws _) ?_
  intro _
  apply Throws.atomic
  intro w e hError
  cases hError

------------------------------------------------------------
-- Containment
------------------------------------------------------------

/- The handlers that the io thread runs for a connection. -/
inductive HandledFor (hdl : Hdl) : ServerEvent → Prop
| opened (input : IoInput) :
    HandledFor hdl (.opened input hdl)
| message (input : IoInput) (frame : Frame) :
    HandledFor hdl (.message input hdl frame)
| closed (input : IoInput) :
    HandledFor hdl (.closed input hdl)

/- `server_.close` does not throw, as on open connections. -/
def TransportCloses : ServerEvent → Prop
| .opened input _ => ∀ hdl r, input.close hdl r = .ok ()
| .message input _ _ => ∀ hdl r, input.close hdl r = .ok ()
| .closed input _ => ∀ hdl r, input.close hdl r = .ok ()
| _ => True

/-
  The handler returns, a close is cleaned up after and its
  requests are failed, and other connections keep all they
  have.
-/
structure Contained
    (hdl : Hdl)
    (event : ServerEvent)
    (w : WsServer) : Prop where
  returns : ((handle S event).run w).result = .ok ()
  cleaned :
    ∀ input, event = .closed input hdl →
      Closed hdl w (next S w event) ∧
        ∀ c ∈ (w.requests.closeConnection hdl).1,
          .complete c ∈ ((handle S event).run w).effects
  others :
    ∀ other, other ≠ hdl →
      Undisturbed other w (next S w event)

/-
  The callback for a new connection that is not refused, or
  for a closed one, is not set or returns.
-/
def CallbackReturns (w : WsServer) : ServerEvent → Prop
| .opened input _ =>
    refuses input w = true ∨
      answered w.onOpenCallback input.callbackAnswer = .ok ()
| .closed input _ =>
    answered w.onCloseCallback input.callbackAnswer = .ok ()
| _ => True

theorem onOpen_result
    {input : IoInput}
    {hdl : Hdl}
    (hCloses : ∀ hdl r, input.close hdl r = .ok ())
    (w : WsServer) :
    ((onOpen input hdl).run w).result =
      if refuses input w then
        .ok ()
      else
        answered w.onOpenCallback input.callbackAnswer := by
  rw [onOpen_run]
  unfold refuses
  cases hRate : passesRate input w with
  | false =>
      simp only [Bool.not_false, Bool.true_or,
        Bool.false_eq_true, if_false, if_true]
      rw [closeHdl_run]
      exact hCloses hdl _
  | true =>
      simp only [Bool.not_true, Bool.false_or, if_true]
      rw [← isFull_rateRecorded input w]
      unfold admitted isFull
      rw [Action.run_get_bind]
      dsimp only
      split
      · rw [closeHdl_run]
        exact hCloses hdl _
      · rcases
          recordOpenTime_run hdl (nowMs (input.clock 2))
            { w with rateLimiter := rateRecorded input w }
          with ⟨opened, hRecord⟩
        rw [Action.run_bind_ok hRecord, Action.run_get_bind,
          invokeHandler_run_eq]

theorem onClose_result
    (input : IoInput)
    (hdl : Hdl)
    (w : WsServer) :
    ((onClose input hdl).run w).result =
      answered w.onCloseCallback input.callbackAnswer := by
  unfold onClose
  rw [Action.run_get_bind]
  have hRun :=
    invokeHandler_run_eq w.onCloseCallback
      (fun handler => .onClose handler hdl)
      input.callbackAnswer w
  cases hAnswer :
      answered w.onCloseCallback input.callbackAnswer with
  | error e =>
      rw [hAnswer] at hRun
      rw [Action.run_bind_error hRun]
  | ok u =>
      rw [hAnswer] at hRun
      rw [Action.run_bind_ok hRun]
      rfl

/- After the callback the requests are failed as well. -/
theorem onClose_completes
    {input : IoInput}
    {hdl : Hdl}
    {w : WsServer}
    (hReturns :
      answered w.onCloseCallback input.callbackAnswer =
        .ok ())
    {c : Completion}
    (hMem : c ∈ (w.requests.closeConnection hdl).1) :
    .complete c ∈ ((onClose input hdl).run w).effects := by
  have hRun :=
    invokeHandler_run_eq w.onCloseCallback
      (fun handler => .onClose handler hdl)
      input.callbackAnswer w
  have hRequests :
      (closeSession false hdl
          (closeSession true hdl w)).requests =
        w.requests := by
    rcases closeSession_frame true hdl w with
      ⟨_, _, _, _, _, hFirst⟩
    rcases closeSession_frame false hdl
        (closeSession true hdl w) with
      ⟨_, _, _, _, _, hSecond⟩
    exact hSecond.trans hFirst
  unfold onClose
  rw [Action.run_get_bind]
  rw [hReturns] at hRun
  rw [Action.run_bind_ok hRun, Action.run_modify_bind,
    Action.run_modify_bind, Action.run_modify_bind,
    Action.run_bind_ok (requestSection_run _ _)]
  have hMapped :
      ServerEffect.complete c ∈
        ((closeSession false hdl
              (closeSession true hdl w)).requests.closeConnection
            hdl).1.map ServerEffect.complete := by
    rw [hRequests]
    exact List.mem_map_of_mem hMem
  exact
    List.mem_append_right _ (List.mem_append_left _ hMapped)

/- In any state other connections are left alone. -/
theorem undisturbed_next
    {hdl other : Hdl}
    {event : ServerEvent}
    (hFor : HandledFor hdl event)
    (hOther : other ≠ hdl)
    (w : WsServer) :
    Undisturbed other w (next S w event) := by
  have hSteps :
      Ensures (fun w _ w' => Undisturbed other w w')
        (handle S event) := by
    cases hFor with
    | opened input =>
        exact
          (onOpen_touches input hdl).mono
            (fun _ _ _ hTouches =>
              undisturbed_of_touches hOther hTouches)
    | message input frame =>
        exact
          (onMessage_touches S input hdl frame).mono
            (fun _ _ _ hTouches =>
              undisturbed_of_touches hOther hTouches)
    | closed input =>
        exact
          (onClose_touches input hdl).mono
            (fun _ _ _ hTouches =>
              undisturbed_of_touches hOther hTouches)
  refine Ensures.run ?_ hSteps w
  exact
    { refl := Undisturbed.refl other
      trans := fun hFirst hSecond => hFirst.trans hSecond }

/-
  In any state an event is contained exactly when its
  unguarded callback returns.
-/
theorem contained_iff
    {hdl : Hdl}
    {event : ServerEvent}
    (hFor : HandledFor hdl event)
    (hTransport : TransportCloses event)
    (w : WsServer) :
    Contained S hdl event w ↔ CallbackReturns w event := by
  have hOthers :
      ∀ other, other ≠ hdl →
        Undisturbed other w (next S w event) :=
    fun other hOther => undisturbed_next S hFor hOther w
  cases hFor with
  | opened input =>
      have hResult :
          ((handle S (.opened input hdl)).run w).result = _ :=
        onOpen_result hTransport w
      constructor
      · intro hContained
        have hReturns := hContained.returns
        rw [hResult] at hReturns
        split at hReturns
        · next hRefuses => exact Or.inl hRefuses
        · exact Or.inr hReturns
      · intro hReturns
        refine ⟨?_, ?_, hOthers⟩
        · rw [hResult]
          split
          · rfl
          · next hAdmitted =>
              exact hReturns.resolve_left hAdmitted
        · intro other hClosed
          cases hClosed
  | message input frame =>
      refine iff_of_true ⟨?_, ?_, hOthers⟩ trivial
      · cases hResult :
            ((handle S (.message input hdl frame)).run
              w).result with
        | ok u => rfl
        | error e =>
            rcases
                (onMessage_throws S input hdl frame).run
                  hResult with
              ⟨reason, hClose⟩
            rw [hTransport hdl reason] at hClose
            cases hClose
      · intro other hClosed
        cases hClosed
  | closed input =>
      have hResult :
          ((handle S (.closed input hdl)).run w).result = _ :=
        onClose_result input hdl w
      constructor
      · intro hContained
        have hReturns := hContained.returns
        rw [hResult] at hReturns
        exact hReturns
      · intro hReturns
        refine ⟨hResult.trans hReturns, ?_, hOthers⟩
        intro other hClosed
        cases hClosed
        refine ⟨?_, ?_⟩
        · rcases onClose_cases input hdl w with
            ⟨_, e, hError⟩ | hCleaned
          · have hNone := hResult.trans hReturns
            rw [show ((handle S (.closed input hdl)).run
              w).result = .error e from hError] at hNone
            cases hNone
          · exact hCleaned
        · intro c hMem
          exact onClose_completes hReturns hMem

------------------------------------------------------------
-- The Loop of the Io Thread
------------------------------------------------------------

/- `server_.run()` ends at an exception that gets out. -/
structure IoLoop where
  server : WsServer
  running : Bool := true

/- The io thread handles an event, or a thread calls. -/
inductive LoopLabel where
| event (event : IoEvent)
| call (call : ServerCall)

inductive LoopStep : IoLoop → LoopLabel → IoLoop → Prop
| event
    {loop : IoLoop}
    {event : IoEvent} :
    loop.running = true →
      LoopStep loop (.event event)
        { server := next S loop.server event.val
          running :=
            ((handle S event.val).run
              loop.server).result.isOk }
| call
    {loop : IoLoop}
    {call : ServerCall} :
    LoopStep loop (.call call)
      { server := ((callCode S call).run loop.server).state
        running := loop.running }

/- The unguarded callbacks return, closes do not throw. -/
def Heeds (loop : IoLoop) : LoopLabel → Prop
| .event event =>
    CallbackReturns loop.server event.val ∧
      TransportCloses event.val
| .call _ => True

def HeedingStep
    (loop : IoLoop)
    (label : LoopLabel)
    (loop' : IoLoop) : Prop :=
  Heeds loop label ∧ LoopStep S loop label loop'

theorem running_step
    {loop loop' : IoLoop}
    {label : LoopLabel}
    (hStep : HeedingStep S loop label loop')
    (hRunning : loop.running = true) :
    loop'.running = true := by
  rcases hStep with ⟨hHeeds, hStep⟩
  cases hStep with
  | call => exact hRunning
  | @event event _ =>
      have hReturns :
          ((handle S event.val).run loop.server).result =
            .ok () := by
        rcases event with ⟨event, hIo⟩
        cases event with
        | opened input hdl =>
            exact
              ((contained_iff S (.opened input) hHeeds.2
                loop.server).mpr hHeeds.1).returns
        | message input hdl frame =>
            exact
              ((contained_iff S (.message input frame)
                hHeeds.2 loop.server).mpr hHeeds.1).returns
        | closed input hdl =>
            exact
              ((contained_iff S (.closed input) hHeeds.2
                loop.server).mpr hHeeds.1).returns
        | timeouts input =>
            cases hResult :
                ((handle S (.timeouts input)).run
                  loop.server).result with
            | ok u => rfl
            | error e =>
                exact
                  ((checkTimeouts_throws (P := fun _ => False)
                    input).run hResult).elim
        | call method => cases hIo
      dsimp only
      rw [hReturns]
      rfl

/-
  While the unguarded callbacks return the io thread goes on,
  and in every state that is reached the next event is
  contained exactly when its unguarded callback returns.
-/
theorem callbacks_contained
    {key : KeyPair}
    {config : Config}
    {hasOwner : Bool}
    {labels : List LoopLabel}
    {loop : IoLoop}
    (hRun :
      StateMachine.Run (HeedingStep S)
        { server := .new key config hasOwner } labels loop) :
    loop.running = true ∧
      ∀ hdl event,
        HandledFor hdl event →
          TransportCloses event →
            (Contained S hdl event loop.server ↔
              CallbackReturns loop.server event) := by
  refine ⟨?_, ?_⟩
  · refine
      hRun.invariant (P := fun loop => loop.running = true)
        ?_ rfl
    intro loop label loop' hRunning hStep
    exact running_step S hStep hRunning
  · intro hdl event hFor hTransport
    exact contained_iff S hFor hTransport loop.server

------------------------------------------------------------
-- A Close That Is Not Cleaned Up After
------------------------------------------------------------

open PlainSodium

/- A server with a callback for closed connections. -/
def withCloseCallback : LoopLabel :=
  .call (.method (.register .onCloseCallback (some 9)))

def withPayloadHandler : LoopLabel :=
  .call (.method (.register .defaultPayloadHandler (some 4)))

/- A payload on connection 1, whose handler throws. -/
def throwingPayload : ServerEvent :=
  .message
    { IoInput.smooth (sampleKx 1) with
      callbackAnswer := .error (.user "handler failed") } 1
    { payload :=
        Crypto.packet plainSodium .zero
          { opCode := 9, parameters := [] } 1
          (sessionKey 1 (List.replicate 32 1)
            (List.replicate 32 1)) }

/- The handler runs for connection 1. -/
def runsHandler : ServerEffect → Bool
| .invoke (.payload handler hdl _) => handler == 4 && hdl == 1
| _ => false

set_option maxRecDepth 8000 in
/-
  On an established connection a handler throws, then the
  callback for the close returns; both are contained.
-/
theorem callbacks_contained_established :
    ∃ loop,
      StateMachine.Run (HeedingStep plainSodium)
          { server := WsServer.sample }
          [ withCloseCallback, withPayloadHandler,
            .event ⟨.hello 1 1, rfl⟩ ]
          loop ∧
        ((handle plainSodium throwingPayload).run
              loop.server).effects.any runsHandler = true ∧
          Contained plainSodium 1 throwingPayload
              loop.server ∧
            Contained plainSodium 1
              (.closed (.smooth (sampleKx 1)) 1)
              loop.server := by
  have hRun :
      StateMachine.Run (HeedingStep plainSodium)
          { server := WsServer.sample }
          ((([] ++ [withCloseCallback]) ++
              [withPayloadHandler]) ++
            [.event ⟨.hello 1 1, rfl⟩]) _ :=
    .snoc
      (.snoc (.snoc (.nil _) ⟨trivial, .call⟩)
        ⟨trivial, .call⟩)
      ⟨⟨trivial, fun _ _ => rfl⟩, .event rfl⟩
  refine ⟨_, hRun, by decide, ?_, ?_⟩
  · exact
      ((callbacks_contained plainSodium hRun).2 1 _
        (.message _ _) (fun _ _ => rfl)).mpr trivial
  · exact
      ((callbacks_contained plainSodium hRun).2 1 _
        (.closed (.smooth (sampleKx 1)))
        (fun _ _ => rfl)).mpr rfl

/- The same close, with an exception of the callback. -/
def throwingClose : ServerEvent :=
  .closed
    { IoInput.smooth (sampleKx 1) with
      callbackAnswer := .error (.user "on_close failed") } 1

/- The server after the callback is set and a handshake. -/
def connected : WsServer :=
  next plainSodium
    ((callCode plainSodium
      (.method (.register .onCloseCallback (some 9)))).run
        WsServer.sample).state
    (.hello 1 1)

set_option maxRecDepth 8000 in
/-
  The exception leaves the handler, the session is kept and
  the io thread has no loop any more.
-/
theorem close_escapes :
    ∃ labels loop,
      StateMachine.Run (LoopStep plainSodium)
          { server := WsServer.sample } labels loop ∧
        loop.running = true ∧
          HandledFor 1 throwingClose ∧
            TransportCloses throwingClose ∧
              ¬ Contained plainSodium 1 throwingClose
                  loop.server ∧
                ((next plainSodium loop.server
                      throwingClose).sessionTable.sessions[
                    (1 : Hdl)]?).isSome = true ∧
                  ((handle plainSodium throwingClose).run
                        loop.server).result.isOk = false := by
  have hRun :
      StateMachine.Run (LoopStep plainSodium)
          { server := WsServer.sample }
          (([] ++ [withCloseCallback]) ++
            [.event ⟨.hello 1 1, rfl⟩]) _ :=
    .snoc (.snoc (.nil _) .call) (.event rfl)
  refine ⟨_, _, hRun, ?_⟩
  have hCallback : connected.onCloseCallback = some 9 := by
    decide
  refine ⟨by decide, .closed _, fun _ _ => rfl, ?_, ?_, ?_⟩
  · intro hContained
    have hReturns :
        CallbackReturns connected throwingClose :=
      (contained_iff plainSodium (.closed _)
        (fun _ _ => rfl) _).mp hContained
    unfold CallbackReturns throwingClose at hReturns
    rw [hCallback] at hReturns
    cases hReturns
  · decide
  · decide

end ThrowingCallbacks

end ObscuraProto
