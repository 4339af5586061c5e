import ObscuraProto.Library.Threads
import ObscuraProto.WsServer.Changes

/-
  The atomic steps of the server under interference.

  Public methods and `stop` run on any threads while the io
  thread handles one event after the other.  Every atomic
  step is one of a few kinds; a handshake relies on nothing
  but that no other thread stores a session.

  Key definitions include:
    * `WsServer.Unstored`, `WsServer.AddsNone`
    * `WsServer.IoStep`, `WsServer.CallStep`
    * `WsServer.ServerCall`, `WsServer.callCode`

  Key theorems include:
    * `WsServer.callCode_steps`
    * `WsServer.handle_steps`
-/

namespace ObscuraProto

open Effectful Threads

namespace WsServer

------------------------------------------------------------
-- Kinds of Steps
------------------------------------------------------------

/- No session of the connection is stored. -/
def Unstored (hdl : Hdl) (w : WsServer) : Prop :=
  ∀ isAuth, (w.sessionTable.table isAuth)[hdl]? = none

/- Sessions may be removed, but none is added. -/
def AddsNone (w w' : WsServer) : Prop :=
  ∀ hdl, Unstored hdl w → Unstored hdl w'

/- Sessions are kept as they are or removed. -/
structure Removes
    (w : WsServer)
    (effects : List ServerEffect)
    (w' : WsServer) : Prop where
  silent :
    ∀ hdl packet, ServerEffect.transmit hdl packet ∉ effects
  table :
    ∀ (isAuth : Bool) (hdl : Hdl),
      (w'.sessionTable.table isAuth)[hdl]? =
          (w.sessionTable.table isAuth)[hdl]? ∨
        (w'.sessionTable.table isAuth)[hdl]? = none

/- The answer to a hello, before its session is stored. -/
structure Replies
    (hdl : Hdl)
    (w : WsServer)
    (effects : List ServerEffect)
    (w' : WsServer) : Prop where
  unstored : Unstored hdl w
  transmit : ∃ reply, effects = [.transmit hdl reply]
  state : w' = w

/- A session that has not sent yet is stored. -/
structure Establishes
    (hdl : Hdl)
    (state : ConnectionState)
    (w : WsServer)
    (effects : List ServerEffect)
    (w' : WsServer) : Prop where
  unstored : Unstored hdl w
  silent : effects = []
  complete : state.session.handshakeComplete = true
  unused : state.session.sendCounter = 0
  table :
    ∃ isAuth,
      w'.sessionTable =
        w.sessionTable.emplace isAuth hdl state

/- One atomic step of the io thread. -/
inductive IoStep
    (S : Sodium)
    (w : WsServer)
    (effects : List ServerEffect)
    (w' : WsServer) : Prop
| sends : SendStep S w effects w' → IoStep S w effects w'
| receives
    {hdl : Hdl}
    {packet : Bytes}
    {isAuth : Bool}
    {opened : Crypto.DecryptedResult} :
    Accepts S hdl packet isAuth opened w effects w' →
      IoStep S w effects w'
| replies
    {hdl : Hdl} :
    Replies hdl w effects w' → IoStep S w effects w'
| establishes
    {hdl : Hdl}
    {state : ConnectionState} :
    Establishes hdl state w effects w' →
      IoStep S w effects w'
| removes : Removes w effects w' → IoStep S w effects w'

/- One atomic step of any other thread. -/
inductive CallStep
    (S : Sodium)
    (w : WsServer)
    (effects : List ServerEffect)
    (w' : WsServer) : Prop
| sends : SendStep S w effects w' → CallStep S w effects w'
| removes : Removes w effects w' → CallStep S w effects w'

theorem CallStep.io
    {S : Sodium}
    {w w' : WsServer}
    {effects : List ServerEffect}
    (hStep : CallStep S w effects w') :
    IoStep S w effects w' := by
  cases hStep with
  | sends hSends => exact .sends hSends
  | removes hRemoves => exact .removes hRemoves

theorem AddsNone.refl (w : WsServer) : AddsNone w w :=
  fun _ hUnstored => hUnstored

theorem AddsNone.trans
    (w v u : WsServer)
    (hFirst : AddsNone w v)
    (hSecond : AddsNone v u) :
    AddsNone w u :=
  fun hdl hUnstored => hSecond hdl (hFirst hdl hUnstored)

theorem SendStep.addsNone
    {S : Sodium}
    (w : WsServer)
    (effects : List ServerEffect)
    (w' : WsServer)
    (hStep : SendStep S w effects w') :
    AddsNone w w' := by
  intro hdl hUnstored isAuth
  rcases hStep.onlySends.connections isAuth hdl with ⟨c, hEntry⟩
  rw [hEntry, hUnstored isAuth]
  rfl

theorem CallStep.addsNone
    {S : Sodium}
    (w : WsServer)
    (effects : List ServerEffect)
    (w' : WsServer)
    (hStep : CallStep S w effects w') :
    AddsNone w w' := by
  cases hStep with
  | sends hSends => exact SendStep.addsNone w effects w' hSends
  | removes hRemoves =>
      intro hdl hUnstored isAuth
      rcases hRemoves.table isAuth hdl with hSame | hGone
      · rw [hSame]
        exact hUnstored isAuth
      · exact hGone

------------------------------------------------------------
-- Calls
------------------------------------------------------------

/- What other threads may call. -/
inductive ServerCall where
| method (method : PublicCall)
| stop

def callCode (S : Sodium) : ServerCall → ServerAction Unit
| .method method => call S method
| .stop => stop

variable (S : Sodium)

/- A step that leaves both tables alone. -/
theorem removes_of_eq
    {w w' : WsServer}
    {effects : List ServerEffect}
    (hTable : w'.sessionTable = w.sessionTable)
    (hSilent :
      ∀ hdl packet,
        ServerEffect.transmit hdl packet ∉ effects) :
    Removes w effects w' where
  silent := hSilent
  table := by
    intro isAuth hdl
    rw [hTable]
    exact Or.inl rfl

theorem stopSessions_removes (w : WsServer) :
    Removes w (stopSessions.run w).effects
      (stopSessions.run w).state := by
  unfold stopSessions
  rw [Action.run_atomically, Action.run_get_bind,
    closeQuietly_run_bind, closeQuietly_run_bind]
  refine ⟨by simp [Action.modify], ?_⟩
  intro isAuth hdl
  apply Or.inr
  cases isAuth with
  | true => exact Std.ExtTreeMap.getElem?_empty
  | false => exact Std.ExtTreeMap.getElem?_empty

theorem stop_steps : Ensures (CallStep S) stop := by
  apply Ensures.bind
  · exact
      Ensures.modify
        (fun _ => .removes (removes_of_eq rfl (by simp)))
  · intro _
    apply Ensures.bind
    · apply Ensures.atomic
      intro w
      exact .removes (removes_of_eq rfl (by simp))
    · intro _
      apply Ensures.bind
      · apply Ensures.atomic
        intro w
        have hRemoves := stopSessions_removes w
        rw [stopSessions, Action.run_atomically] at hRemoves
        exact .removes hRemoves
      · intro _
        exact
          Ensures.modify
            (fun _ => .removes (removes_of_eq rfl (by simp)))

theorem callCode_steps (k : ServerCall) :
    Ensures (CallStep S) (callCode S k) := by
  cases k with
  | method method =>
      exact
        (call_sends S method).mono
          (fun _ _ _ hStep => .sends hStep)
  | stop => exact stop_steps S

------------------------------------------------------------
-- Events
------------------------------------------------------------

/- Short for: from `w` on, whatever other threads do. -/
abbrev Guards
    {α : Type}
    (act : ServerAction α)
    (w : WsServer) : Prop :=
  Guarantees AddsNone (IoStep S) act w

variable {S}

theorem Sends.guards
    {α : Type}
    {act : ServerAction α}
    (hSends : Sends S act)
    (w : WsServer) :
    Guards S act w :=
  .of_ensures (hSends.mono (fun _ _ _ hStep => .sends hStep)) w

/- Sends go before a part that may rely on `AddsNone`. -/
theorem Sends.guards_bind
    {α β : Type}
    {act : ServerAction α}
    {g : α → ServerAction β}
    {w : WsServer}
    (hSends : Sends S act)
    (hNext : ∀ a t, AddsNone w t → Guards S (g a) t) :
    Guards S (act >>= g) w :=
  .bind hSends (fun _ _ _ hStep => .sends hStep)
    SendStep.addsNone AddsNone.trans AddsNone.refl hNext

variable (S)

theorem establish_steps
    (input : IoInput)
    {hdl : Hdl}
    {session : Session}
    (identity : Option PublicKey)
    {w : WsServer}
    (hUnstored : Unstored hdl w)
    (hComplete : session.handshakeComplete = true)
    (hUnused : session.sendCounter = 0) :
    Guards S (establish input hdl session identity) w := by
  refine .atomic_bind ?_ ?_
  · exact .removes (removes_of_eq rfl (by simp))
  intro connId _ t hLater
  have hAddsNone : AddsNone w t := hLater
  refine .atomic_bind ?_ ?_
  · exact
      .establishes
        ⟨hAddsNone hdl hUnstored, rfl, hComplete, hUnused,
          identity.isSome, rfl⟩
  · intro _ _ u _
    cases identity with
    | none => exact .of_ensures (Ensures.pure ()) u
    | some clientPk =>
        refine .of_ensures (Ensures.modify ?_) u
        intro v
        exact .removes (removes_of_eq rfl (by simp))

theorem establishIdentified_steps
    (input : IoInput)
    {hdl : Hdl}
    {session : Session}
    (clientPk : PublicKey)
    {w : WsServer}
    (hUnstored : Unstored hdl w)
    (hComplete : session.handshakeComplete = true)
    (hUnused : session.sendCounter = 0) :
    Guards S (establishIdentified input hdl session clientPk)
      w := by
  have hAsk :
      Sends S (identityAccepted input hdl clientPk) := by
    have hMoves :
        Moves S plainMay (identityAccepted input hdl clientPk) :=
      identityAccepted_moves S (fun _ => trivial) input
    exact hMoves.sends plainMay_plain
  apply Sends.guards_bind hAsk
  intro accepted t hAddsNone
  split
  · exact
      establish_steps S input (some clientPk)
        (hAddsNone hdl hUnstored) hComplete hUnused
  · exact (closeHdl_sends S _ _ _ _).guards t

theorem conclude_steps
    (input : IoInput)
    {hdl : Hdl}
    (hello : ClientHello)
    {session : Session}
    {w : WsServer}
    (hUnstored : Unstored hdl w)
    (hComplete : session.handshakeComplete = true)
    (hUnused : session.sendCounter = 0) :
    Guards S (conclude input hdl hello session) w := by
  apply
    Sends.guards_bind
      ((limiterRecord_moves S
        (fun rl => rl.recordHandshake_counts _ _)).sends
          plainMay_plain)
  intro _ t hAddsNone
  have hStill := hAddsNone hdl hUnstored
  have hClear :
      Unit → Ensures (IoStep S) (clearHandshakeTime hdl) :=
    fun _ =>
      (clearHandshakeTime_sends S hdl).mono
        (fun _ _ _ hStep => .sends hStep)
  dsimp only
  split
  · exact
      .bind_ensures
        (establishIdentified_steps S input _ hStill hComplete
          hUnused)
        hClear
  · exact
      .bind_ensures
        (establish_steps S input none hStill hComplete
          hUnused)
        hClear

theorem respondToHello_steps
    (input : IoInput)
    {hdl : Hdl}
    (data : Bytes)
    {w : WsServer}
    (hUnstored : Unstored hdl w) :
    Guards S (respondToHello S input hdl data) w := by
  refine .ofExcept_bind ?_
  intro hello _
  apply Sends.guards_bind (get_sends S)
  intro w' t hAddsNone
  have hStill := hAddsNone hdl hUnstored
  dsimp only
  cases hReply :
      (Session.new .server w'.serverSignKey
        w'.config.supportedVersions).serverRespondToHandshake
          S input.kx hello with
  | mk reply session =>
      refine .ofExcept_bind ?_
      intro serverHello hOk
      simp only at hOk
      rw [hOk] at hReply
      rcases Session.serverRespondToHandshake_ok S hReply with
        ⟨_, version, keys, _, _, _, _, _, _, hSession⟩
      refine .atomic_bind ?_ ?_
      · exact .replies ⟨hStill, ⟨_, rfl⟩, rfl⟩
      · intro _ _ u hLater
        refine .ofExcept_bind ?_
        intro _ _
        apply conclude_steps S input hello (hLater hdl hStill)
        · rw [hSession]
          rfl
        · rw [hSession]
          rfl

theorem handshake_steps
    (input : IoInput)
    {hdl : Hdl}
    (data : Bytes)
    {w : WsServer}
    (hUnstored : Unstored hdl w) :
    Guards S (handshake S input hdl data) w := by
  apply
    Sends.guards_bind
      ((limiterCheck_moves S
        (fun rl => rl.checkHandshakeRate_counts _ _)).sends
          plainMay_plain)
  intro allowed t hAddsNone
  split
  · exact (closeHdl_sends S _ _ _ _).guards t
  · exact
      respondToHello_steps S input data
        (hAddsNone hdl hUnstored)

theorem onMessage_steps
    (input : IoInput)
    (hdl : Hdl)
    (frame : Frame)
    (w : WsServer) :
    Guards S (onMessage S input hdl frame) w := by
  unfold onMessage
  split
  · exact .of_ensures (Ensures.pure ()) w
  · rcases receive_spec S input hdl frame.payload w with
      ⟨hSpec, hUnknown⟩
    unfold receive at hSpec hUnknown ⊢
    rw [Action.run_atomically] at hSpec hUnknown
    refine .atomic_bind ?_ ?_
    · rcases hSpec with ⟨hQuiet, _⟩ | ⟨_, _, hAccepts, _⟩
      · exact .sends (.quiet hQuiet)
      · exact .receives hAccepts
    · intro received hReceived t hAddsNone
      cases received with
      | ignored => exact .of_ensures (Ensures.pure ()) t
      | decrypted isAuth payload =>
          apply Sends.guards
          exact
            Ensures.catchAll
              (dispatch_sends S input hdl isAuth payload)
              (fun _ => Ensures.pure ())
      | unknown =>
          rcases hUnknown hReceived with ⟨hSame, hNone⟩
          rw [hSame] at hAddsNone
          refine
            .catchAll
              (handshake_steps S input frame.payload
                (hAddsNone hdl hNone)) ?_
          intro _
          exact
            (closeHdl_sends S _ _ _ _).mono
              (fun _ _ _ hStep => .sends hStep)

theorem closeSessions_removes (hdl : Hdl) (w : WsServer) :
    Removes w []
      (closeSession false hdl (closeSession true hdl w)) where
  silent := by simp
  table := by
    intro isAuth other
    have hTable :=
      closeSession_table false isAuth hdl
        (closeSession true hdl w)
    rw [closeSession_table true isAuth hdl w] at hTable
    have hErased :
        (closeSession false hdl
            (closeSession true hdl w)).sessionTable.table
              isAuth =
          (w.sessionTable.table isAuth).erase hdl := by
      cases isAuth with
      | true => exact hTable
      | false => exact hTable
    rw [hErased]
    by_cases hSame : other = hdl
    · rw [hSame]
      exact Or.inr Std.ExtTreeMap.getElem?_erase_self
    · exact Or.inl (OrderedMap.getElem?_erase_of_ne hSame _)

/- A close only sends and removes, like a call. -/
theorem onClose_callSteps (input : IoInput) (hdl : Hdl) :
    Ensures (CallStep S) (onClose input hdl) := by
  have hSends
      {α : Type}
      {act : ServerAction α}
      (hAct : Sends S act) :
      Ensures (CallStep S) act :=
    hAct.mono (fun _ _ _ hStep => .sends hStep)
  apply Ensures.bind (hSends (get_sends S))
  intro w
  apply Ensures.bind
    (hSends
      ((invokeHandler_moves S (fun _ => trivial) _ _).sends
        plainMay_plain))
  intro _
  apply Ensures.bind
  · exact
      Ensures.modify
        (fun w => .removes (closeSessions_removes hdl w))
  · intro _
    apply Ensures.bind
    · exact
        Ensures.modify
          (fun _ => .removes (removes_of_eq rfl (by simp)))
    · intro _
      apply Ensures.bind
      · exact
          Ensures.modify
            (fun _ => .removes (removes_of_eq rfl (by simp)))
      · intro _
        apply Ensures.bind
        · apply Ensures.atomic
          intro w
          exact .removes (removes_of_eq rfl (by simp))
        · intro _
          exact hSends (clearHandshakeTime_sends S hdl)

theorem onClose_steps (input : IoInput) (hdl : Hdl) :
    Ensures (IoStep S) (onClose input hdl) :=
  (onClose_callSteps S input hdl).mono
    (fun _ _ _ hStep => hStep.io)

/- Every step of every event, under interference. -/
theorem handle_steps
    (event : ServerEvent)
    (w : WsServer) :
    Guards S (handle S event) w := by
  cases event with
  | opened input hdl => exact (onOpen_sends S input hdl).guards w
  | message input hdl frame =>
      exact onMessage_steps S input hdl frame w
  | closed input hdl =>
      exact .of_ensures (onClose_steps S input hdl) w
  | timeouts input => exact (checkTimeouts_sends S input).guards w
  | call method => exact (call_sends S method).guards w

end WsServer

end ObscuraProto
