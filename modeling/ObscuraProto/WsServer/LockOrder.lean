import ObscuraProto.WsServer.Locking

/-
  The lock order of the server wrapper.

  Every entry point gives back all mutexes it takes, takes
  them in the documented order, and calls back only outside
  of its sections.

  Key definitions include:
    * `WsServer.LeafFree`

  Key theorems include:
    * `WsServer.Locking.call_balanced`
    * `WsServer.Locking.handle_balanced`
    * `WsServer.Locking.enter_balanced`
-/

namespace ObscuraProto

namespace WsServer

open Effectful Locks

/- No leaf is held, so that any leaf may be acquired. -/
def LeafFree (held : List Mutex) : Prop :=
  ∀ m ∈ held, m.rank < 3

theorem leafFree_nil : LeafFree [] := by
  intro m hMem
  cases hMem

theorem leafFree_sessions : LeafFree [.sessions] := by
  intro m hMem
  rw [List.mem_singleton.mp hMem]
  decide

/- Without an invocation, code may run in any section. -/
theorem Moves.unlocked_balanced
    {S : Sodium}
    {may : May}
    {α : Type}
    {act : ServerAction α}
    {held : List Mutex}
    (hMoves : Moves S may act)
    (hNone : ∀ callback, ¬ may.invokes callback) :
    Balanced lockPolicy held (unlocked act) := by
  apply Balanced.unlocked
  apply hMoves.mono
  intro w effects w' hMove effect hMem hCallback
  rcases hCallback with ⟨callback, hEffect⟩
  rw [hEffect] at hMem
  exact
    (hNone callback
      (invokesOnly_of_move hMove callback hMem)).elim

/- A step without effects may be taken in any section. -/
theorem silent_balanced
    {α : Type}
    {held : List Mutex}
    {f : WsServer → Outcome Exception ServerEffect WsServer α}
    (hSilent : ∀ w, (f w).effects = []) :
    Balanced lockPolicy held (unlocked (Action.atomic f)) := by
  apply Balanced.unlocked
  apply Ensures.atomic
  intro w effect hMem
  rw [hSilent w] at hMem
  cases hMem

namespace Locking

variable (S : Sodium)

------------------------------------------------------------
-- Sections
------------------------------------------------------------

/- A section that is entered with nothing held. -/
theorem holding_balanced
    {α : Type}
    {m : Mutex}
    {act : LockedAction α}
    (hAct : Balanced lockPolicy [m] act) :
    Balanced lockPolicy [] (holding m act) :=
  .holding (fun _ hMem => by cases hMem) hAct

theorem requestSection_balanced
    (f : RequestTable → List Completion × RequestTable) :
    Balanced lockPolicy [] (requestSection f) := by
  apply holding_balanced
  apply Balanced.unlocked
  apply Ensures.atomic
  intro _ effect hMem hCallback
  rcases hCallback with ⟨callback, hEffect⟩
  rw [hEffect] at hMem
  simp at hMem

theorem send_balanced
    (nonce : Nonce)
    (hdl : Hdl)
    (payload : Payload) :
    Balanced lockPolicy [] (send S nonce hdl payload) := by
  have hMoves :
      Moves S {} (WsServer.send S nonce hdl payload) :=
    send_moves S nonce hdl payload
  exact
    holding_balanced
      (hMoves.unlocked_balanced (fun _ hMay => hMay))

theorem sendAnonymous_balanced
    (nonce : Nonce)
    (hdl : Hdl)
    (payload : Payload) :
    Balanced lockPolicy []
      (sendAnonymous S nonce hdl payload) := by
  have hMoves :
      Moves S {} (WsServer.sendAnonymous S nonce hdl payload) :=
    sendAnonymous_moves S nonce hdl payload
  exact
    holding_balanced
      (hMoves.unlocked_balanced (fun _ hMay => hMay))

theorem registerStream_balanced
    (hdl : Hdl)
    (stream : Stream ServerSendFn) :
    Balanced lockPolicy [] (registerStream hdl stream) :=
  holding_balanced (silent_balanced (fun _ => rfl))

theorem clearHandshakeTime_balanced (hdl : Hdl) :
    Balanced lockPolicy [] (clearHandshakeTime hdl) :=
  holding_balanced (silent_balanced (fun _ => rfl))

------------------------------------------------------------
-- Public Methods
------------------------------------------------------------

theorem sendResponse_balanced
    (nonce : Nonce)
    (hdl : Hdl)
    (requestId : UInt32)
    (payload : Payload) :
    Balanced lockPolicy []
      (sendResponse S nonce hdl requestId payload) := by
  refine .bind .get (fun w => .bind (.ofExcept _) ?_)
  exact fun response => send_balanced S nonce hdl response

theorem sendAnonymousResponse_balanced
    (nonce : Nonce)
    (hdl : Hdl)
    (requestId : UInt32)
    (payload : Payload) :
    Balanced lockPolicy []
      (sendAnonymousResponse S nonce hdl requestId
        payload) := by
  refine .bind .get (fun w => .bind (.ofExcept _) ?_)
  exact
    fun response => sendAnonymous_balanced S nonce hdl response

theorem lookupIdentity_balanced (identityPk : PublicKey) :
    Balanced lockPolicy [] (lookupIdentity identityPk) :=
  holding_balanced (.bind .get (fun _ => .ofExcept _))

theorem asyncRequest_balanced
    (input : RequestInput)
    (hdl : Hdl)
    (payload : Payload)
    (timeoutMs : UInt32) :
    Balanced lockPolicy []
      (asyncRequest S input hdl payload timeoutMs) := by
  refine .bind (holding_balanced .get) (fun w => ?_)
  dsimp only
  split
  · exact .throw _
  · refine .bind (.unlocked_nil _) (fun requestId => ?_)
    refine .bind (.ofExcept _) (fun request => ?_)
    refine .bind (requestSection_balanced _) (fun _ => ?_)
    refine .bind ?_ (fun _ => .pure _)
    refine .catchAll (send_balanced S input.nonce hdl _) ?_
    intro e
    exact .bind (requestSection_balanced _) (fun _ => .throw e)

theorem asyncRequestToIdentity_balanced
    (input : RequestInput)
    (identityPk : PublicKey)
    (payload : Payload) :
    Balanced lockPolicy []
      (asyncRequestToIdentity S input identityPk payload) :=
  .bind (lookupIdentity_balanced identityPk)
    (fun hdl => asyncRequest_balanced S input hdl payload 0)

theorem startStream_balanced (nonce : Nonce) (hdl : Hdl) :
    Balanced lockPolicy [] (startStream S nonce hdl) := by
  refine .bind (.unlocked_nil _) (fun streamId => ?_)
  refine .bind (registerStream_balanced _ _) ?_
  intro stream
  refine .bind .get (fun w => .bind (.ofExcept _) ?_)
  intro start
  exact
    .bind (send_balanced S nonce hdl start) (fun _ => .pure _)

theorem startStreamWith_balanced
    (nonce : Nonce)
    (hdl : Hdl)
    (streamOpCode : OpCode) :
    Balanced lockPolicy []
      (startStreamWith S nonce hdl streamOpCode) := by
  refine .bind (.unlocked_nil _) (fun streamId => ?_)
  refine .bind (registerStream_balanced _ _) ?_
  intro stream
  refine .bind (holding_balanced .get) (fun w => ?_)
  cases w.sessionTable.selectedVersion hdl with
  | none => exact .throw _
  | some version =>
      refine .bind (.ofExcept _) (fun start => ?_)
      exact
        .bind (send_balanced S nonce hdl start)
          (fun _ => .pure _)

theorem streamCall_balanced
    (nonce : Nonce)
    (build :
      Stream ServerSendFn → Except Exception Payload)
    (ref : StreamRef) :
    Balanced lockPolicy [] (streamCall S nonce build ref) := by
  refine .bind .get (fun w => ?_)
  cases w.streams.objects[ref]? with
  | none => exact .pure _
  | some stream =>
      refine .catchAll ?_ (fun _ => .pure _)
      refine .bind (.ofExcept _) (fun payload => ?_)
      cases w.hasOwner with
      | false => exact .pure _
      | true =>
          cases stream.sendFn with
          | send hdl => exact send_balanced S nonce hdl payload
          | sendAnonymous hdl =>
              exact sendAnonymous_balanced S nonce hdl payload

theorem register_balanced
    (callback : Option HandlerId)
    (registration : Registration) :
    Balanced lockPolicy [] (register callback registration) := by
  unfold register
  split
  · exact .unlocked_nil _
  · rcases register_eq_modify registration callback with
      ⟨f, hModify⟩
    rw [hModify]
    exact holding_balanced (silent_balanced (fun _ => rfl))

theorem call_balanced (method : PublicCall) :
    Balanced lockPolicy [] (call S method) := by
  cases method with
  | send nonce hdl payload =>
      exact send_balanced S nonce hdl payload
  | sendAnonymous nonce hdl payload =>
      exact sendAnonymous_balanced S nonce hdl payload
  | sendResponse nonce hdl requestId payload =>
      exact sendResponse_balanced S nonce hdl requestId payload
  | sendToIdentity nonce identityPk payload =>
      exact
        .bind (lookupIdentity_balanced identityPk)
          (fun hdl => send_balanced S nonce hdl payload)
  | asyncRequest input hdl payload timeoutMs =>
      exact
        .bind
          (asyncRequest_balanced S input hdl payload timeoutMs)
          (fun _ => .pure _)
  | asyncRequestToIdentity input identityPk payload =>
      exact
        .bind
          (asyncRequestToIdentity_balanced S input identityPk
            payload)
          (fun _ => .pure _)
  | startStream nonce hdl =>
      exact
        .bind (startStream_balanced S nonce hdl)
          (fun _ => .pure _)
  | startStreamWith nonce hdl streamOpCode =>
      exact
        .bind (startStreamWith_balanced S nonce hdl streamOpCode)
          (fun _ => .pure _)
  | streamWrite nonce data ref =>
      exact streamCall_balanced S nonce _ ref
  | streamEnd nonce ref =>
      exact streamCall_balanced S nonce _ ref
  | streamCancel nonce ref =>
      exact streamCall_balanced S nonce _ ref
  | register registration callback =>
      exact register_balanced callback registration

------------------------------------------------------------
-- The Rate Limiter Within Sections
------------------------------------------------------------

section Held

variable {held : List Mutex}

theorem limiter_balanced
    {α : Type}
    (hLeafFree : LeafFree held)
    (locks : RateLimitConfig → Bool)
    (f : RateLimiter → α × RateLimiter) :
    Balanced lockPolicy held (limiter locks f) := by
  refine .bind .get (fun w => ?_)
  split
  · exact
      .holding hLeafFree (silent_balanced (fun _ => rfl))
  · exact silent_balanced (fun _ => rfl)

theorem limiterCheck_balanced
    (hLeafFree : LeafFree held)
    (locks : RateLimitConfig → Bool)
    (check : RateLimiter → Bool × RateLimiter) :
    Balanced lockPolicy held (limiterCheck locks check) := by
  refine .bind .get (fun w => ?_)
  split
  · exact limiter_balanced hLeafFree _ _
  · exact .pure _

theorem limiterRecord_balanced
    (hLeafFree : LeafFree held)
    (record : RateLimiter → RateLimiter) :
    Balanced lockPolicy held (limiterRecord record) := by
  refine .bind .get (fun w => ?_)
  split
  · exact limiter_balanced hLeafFree _ _
  · exact .pure _

theorem closeHdl_balanced
    (input : IoInput)
    (hdl : Hdl)
    (status : CloseStatus)
    (reason : String) :
    Balanced lockPolicy held
      (unlocked (closeHdl input hdl status reason)) := by
  have hMoves :
      Moves plainSodium {} (closeHdl input hdl status reason) :=
    closeHdl_moves plainSodium input hdl status reason
  exact hMoves.unlocked_balanced (fun _ hMay => hMay)

theorem closeSession_balanced
    (hLeafFree : LeafFree held)
    (isAuth : Bool)
    (hdl : Hdl) :
    Balanced lockPolicy held (closeSession isAuth hdl) := by
  refine .bind .get (fun w => ?_)
  cases (w.sessionTable.table isAuth)[hdl]? with
  | none => exact .pure _
  | some state =>
      exact
        .bind (limiter_balanced hLeafFree _ _)
          (fun _ => .modify _)

theorem keepPayload_balanced
    (hLeafFree : LeafFree held)
    (input : IoInput)
    (hdl : Hdl)
    (isAuth : Bool)
    (rateLimiterId : UInt64)
    (payload : Payload) :
    Balanced lockPolicy held
      (keepPayload input hdl isAuth rateLimiterId payload) := by
  refine .bind .get (fun w => ?_)
  split
  · exact .bind (closeHdl_balanced _ _ _ _) (fun _ => .pure _)
  · refine
      .bind (limiterRecord_balanced hLeafFree _) (fun _ => ?_)
    exact .bind (.modify _) (fun _ => .pure _)

theorem receiveFrom_balanced
    (hLeafFree : LeafFree held)
    (input : IoInput)
    (hdl : Hdl)
    (packet : Bytes)
    (isAuth : Bool)
    (state : ConnectionState) :
    Balanced lockPolicy held
      (receiveFrom S input hdl packet isAuth state) := by
  have hDecrypt :
      Balanced lockPolicy held
        (unlocked (decrypt S hdl packet isAuth state)) :=
    silent_balanced (fun _ => rfl)
  unfold receiveFrom
  split
  · exact .pure _
  · refine
      .bind (limiterCheck_balanced hLeafFree _ _)
        (fun allowed => ?_)
    split
    · exact
        .bind (closeHdl_balanced _ _ _ _) (fun _ => .pure _)
    · refine .catchAll ?_ (fun _ => .pure _)
      exact
        .bind hDecrypt
          (fun payload =>
            keepPayload_balanced hLeafFree _ _ _ _ _)

end Held

------------------------------------------------------------
-- Events
------------------------------------------------------------

theorem onOpen_balanced (input : IoInput) (hdl : Hdl) :
    Balanced lockPolicy [] (onOpen input hdl) := by
  have hTime : Balanced lockPolicy []
      (recordOpenTime hdl (nowMs (input.clock 2))) := by
    refine .bind .get (fun w => ?_)
    split
    · exact holding_balanced (.modify _)
    · exact .pure _
  refine .bind (limiterCheck_balanced leafFree_nil _ _) ?_
  intro allowed
  dsimp only
  split
  · exact .unlocked_nil _
  · refine
      .bind (limiterRecord_balanced leafFree_nil _)
        (fun _ => ?_)
    refine .bind .get (fun w => ?_)
    split
    · exact .unlocked_nil _
    · refine .bind hTime (fun _ => ?_)
      exact .bind .get (fun w => .unlocked_nil _)

theorem onClose_balanced (input : IoInput) (hdl : Hdl) :
    Balanced lockPolicy [] (onClose input hdl) := by
  have hSessions :=
    fun isAuth =>
      closeSession_balanced leafFree_sessions isAuth hdl
  refine .bind .get (fun w => ?_)
  -- The callback comes before all sections.
  refine .bind (.unlocked_nil _) (fun _ => ?_)
  refine .bind (holding_balanced ?_) (fun _ => ?_)
  · exact .bind (hSessions true) (fun _ => hSessions false)
  · refine .bind (holding_balanced (.modify _)) (fun _ => ?_)
    refine .bind (holding_balanced (.modify _)) (fun _ => ?_)
    exact
      .bind (requestSection_balanced _)
        (fun _ => clearHandshakeTime_balanced hdl)

theorem checkTimeouts_balanced (input : IoInput) :
    Balanced lockPolicy [] (checkTimeouts input) := by
  have hIdle (now : Int) :
      Balanced lockPolicy [] (closeIdle now) := by
    refine .bind .get (fun w => ?_)
    dsimp only
    split
    · exact
        .bind (holding_balanced .get)
          (fun v => .unlocked_nil _)
    · exact .pure _
  have hLate (now : Int) :
      Balanced lockPolicy [] (closeLateHandshakes now) := by
    have hMoves :
        Moves plainSodium { establishes := fun _ => True }
          (WsServer.closeLateHandshakes now) :=
      closeLateHandshakes_moves plainSodium now
    refine .bind .get (fun w => ?_)
    split
    · exact
        holding_balanced
          (hMoves.unlocked_balanced (fun _ hMay => hMay))
    · exact .pure _
  have hExpire (now : TimePoint) :
      Balanced lockPolicy [] (expireRequests now) := by
    refine .bind .get (fun w => ?_)
    split
    · exact requestSection_balanced _
    · exact .pure _
  refine .bind (hIdle _) (fun _ => .bind (hLate _) ?_)
  intro _
  exact
    .bind (hExpire _)
      (fun _ => limiter_balanced leafFree_nil _ _)

theorem stop_balanced : Balanced lockPolicy [] stop := by
  have hMoves : Moves plainSodium stopMay stopSessions :=
    stopSessions_moves plainSodium trivial
  refine .bind (.modify _) (fun _ => ?_)
  refine .bind (requestSection_balanced _) (fun _ => ?_)
  refine .bind (holding_balanced ?_) (fun _ => ?_)
  · exact hMoves.unlocked_balanced (fun _ hMay => hMay)
  · exact holding_balanced (.modify _)

theorem receive_balanced
    (input : IoInput)
    (hdl : Hdl)
    (packet : Bytes) :
    Balanced lockPolicy [] (receive S input hdl packet) := by
  refine holding_balanced (.bind .get (fun w => ?_))
  cases w.sessionTable.sessions[hdl]? with
  | some state =>
      exact
        receiveFrom_balanced S leafFree_sessions _ _ _ _ _
  | none =>
      cases w.sessionTable.anonSessions[hdl]? with
      | some state =>
          exact
            receiveFrom_balanced S leafFree_sessions _ _ _ _ _
      | none => exact .pure _

theorem streamHandlerOf_balanced
    (isAuth : Bool)
    (opCode : Option OpCode) :
    Balanced lockPolicy [] (streamHandlerOf isAuth opCode) := by
  refine .bind .get (fun w => ?_)
  cases opCode with
  | none => exact .pure _
  | some opCode =>
      refine .bind (holding_balanced .get) (fun w => ?_)
      cases (w.dispatchersOf isAuth).streamHandlers[opCode]?
        with
      | none => exact .pure _
      | some handler => exact .pure _

/- The handlers are called after their tables are left. -/
theorem dispatchPayload_balanced
    (input : IoInput)
    (hdl : Hdl)
    (isAuth : Bool)
    (payload : Payload) :
    Balanced lockPolicy []
      (dispatchPayload S input hdl isAuth payload) := by
  refine .bind (holding_balanced .get) (fun w => ?_)
  dsimp only
  cases (w.dispatchersOf isAuth).requestHandlers[
      payload.opCode]? with
  | none => exact .unlocked_nil _
  | some handler =>
      cases handler with
      | none => exact .pure _
      | some handler =>
          refine .bind (.ofExcept _) (fun requestId => ?_)
          refine .bind (.unlocked_nil _) (fun response => ?_)
          split
          · exact sendResponse_balanced _ _ _ _ _
          · exact sendAnonymousResponse_balanced _ _ _ _ _

theorem dispatch_balanced
    (input : IoInput)
    (hdl : Hdl)
    (isAuth : Bool)
    (payload : Payload) :
    Balanced lockPolicy []
      (dispatch S input hdl isAuth payload) := by
  have hFind (streamId : UInt32) :
      Balanced lockPolicy [] (findStream hdl streamId) := by
    have hMoves :
        Moves S {} (WsServer.findStream hdl streamId) :=
      findStream_moves S hdl streamId
    exact
      holding_balanced
        (hMoves.unlocked_balanced (fun _ hMay => hMay))
  have hTake (streamId : UInt32) :
      Balanced lockPolicy [] (takeStream hdl streamId) :=
    holding_balanced (silent_balanced (fun _ => rfl))
  refine .bind .get (fun w => .bind (.ofExcept _) ?_)
  intro message
  cases message with
  | response requestId response =>
      exact requestSection_balanced _
  | streamStart streamId opCode =>
      refine .bind (registerStream_balanced _ _) ?_
      intro stream
      exact
        .bind (streamHandlerOf_balanced isAuth opCode)
          (fun handler => .unlocked_nil _)
  | streamData streamId data =>
      exact .bind (hFind streamId) (fun _ => .unlocked_nil _)
  | streamEnd streamId =>
      exact .bind (hFind streamId) (fun _ => .unlocked_nil _)
  | streamCancel streamId =>
      exact .bind (hTake streamId) (fun _ => .unlocked_nil _)
  | application payload =>
      exact dispatchPayload_balanced S input hdl isAuth payload

theorem establish_balanced
    (input : IoInput)
    (hdl : Hdl)
    (session : Session)
    (identity : Option PublicKey) :
    Balanced lockPolicy []
      (establish input hdl session identity) := by
  refine
    .bind (limiter_balanced leafFree_nil _ _) (fun connId => ?_)
  refine .bind (holding_balanced (.modify _)) (fun _ => ?_)
  cases identity with
  | none => exact .pure _
  | some clientPk => exact holding_balanced (.modify _)

theorem conclude_balanced
    (input : IoInput)
    (hdl : Hdl)
    (clientHello : ClientHello)
    (session : Session) :
    Balanced lockPolicy []
      (conclude input hdl clientHello session) := by
  have hIdentified (clientPk : PublicKey) :
      Balanced lockPolicy []
        (establishIdentified input hdl session clientPk) := by
    refine .bind (.unlocked_nil _) (fun accepted => ?_)
    split
    · exact establish_balanced _ _ _ _
    · exact .unlocked_nil _
  have hClear :=
    fun _ : Unit => clearHandshakeTime_balanced hdl
  refine
    .bind (limiterRecord_balanced leafFree_nil _) (fun _ => ?_)
  cases clientHello.hasClientIdentity with
  | false => exact .bind (establish_balanced _ _ _ _) hClear
  | true =>
      cases session.getPeerIdentity with
      | none => exact .bind (establish_balanced _ _ _ _) hClear
      | some clientPk =>
          exact .bind (hIdentified clientPk) hClear

theorem handshake_balanced
    (input : IoInput)
    (hdl : Hdl)
    (data : Bytes) :
    Balanced lockPolicy [] (handshake S input hdl data) := by
  refine .bind (limiterCheck_balanced leafFree_nil _ _) ?_
  intro allowed
  split
  · exact .unlocked_nil _
  · refine .bind (.ofExcept _) (fun clientHello => ?_)
    refine .bind .get (fun w => ?_)
    dsimp only
    refine .bind (.ofExcept _) (fun serverHello => ?_)
    refine .bind (.unlocked_nil _) (fun _ => ?_)
    exact
      .bind (.ofExcept _) (fun _ => conclude_balanced _ _ _ _)

theorem onMessage_balanced
    (input : IoInput)
    (hdl : Hdl)
    (frame : Frame) :
    Balanced lockPolicy [] (onMessage S input hdl frame) := by
  unfold onMessage
  split
  · exact .pure _
  · refine .bind (receive_balanced S _ _ _) (fun received => ?_)
    cases received with
    | ignored => exact .pure _
    | decrypted isAuth payload =>
        exact
          .catchAll (dispatch_balanced S _ _ _ _)
            (fun _ => .pure _)
    | unknown =>
        exact
          .catchAll (handshake_balanced S _ _ _)
            (fun _ => .unlocked_nil _)

theorem handle_balanced (event : ServerEvent) :
    Balanced lockPolicy [] (handle S event) := by
  cases event with
  | opened input hdl => exact onOpen_balanced input hdl
  | message input hdl frame =>
      exact onMessage_balanced S input hdl frame
  | closed input hdl => exact onClose_balanced input hdl
  | timeouts input => exact checkTimeouts_balanced input
  | call method => exact call_balanced S method

theorem enter_balanced (entry : Entry) :
    Balanced lockPolicy [] (enter S entry) := by
  cases entry with
  | event event => exact handle_balanced S event
  | run => exact .pure _
  | stop => exact stop_balanced
  | getClientIdentity hdl =>
      refine .bind (holding_balanced .get) (fun w => ?_)
      exact .bind (.ofExcept _) (fun _ => .pure _)
  | syncRequest input hdl payload timeoutMs answer =>
      refine .bind (asyncRequest_balanced S _ _ _ _) ?_
      exact fun _ => .bind (.ofExcept _) (fun _ => .pure _)
  | syncRequestToIdentity input identityPk payload answer =>
      refine .bind (asyncRequestToIdentity_balanced S _ _ _) ?_
      exact fun _ => .bind (.ofExcept _) (fun _ => .pure _)

end Locking

end WsServer

end ObscuraProto
