import ObscuraProto.WsServer.Moves

/-
  What the methods and events of the server leave alone.

  Sends advance send counters and nothing else that concerns
  a session or the count of sessions; every public method,
  every dispatch, `on_open` and the timer keep to that.

  Key definitions include:
    * `OnlySends`, `Quiet`, `HandsOver`, `SendStep`
    * `WsServer.Sends`

  Key theorems include:
    * `WsServer.call_sends`, `WsServer.dispatch_sends`
    * `WsServer.onOpen_sends`
    * `WsServer.checkTimeouts_sends`
-/

namespace ObscuraProto

open Effectful

------------------------------------------------------------
-- The Frame of a Send
------------------------------------------------------------

def ConnectionState.withSendCounter
    (c : UInt64)
    (state : ConnectionState) : ConnectionState :=
  { state with
    session := { state.session with sendCounter := c } }

/- Nothing but send counters of stored sessions differs. -/
structure OnlySends
    (w : WsServer)
    (_ : List ServerEffect)
    (w' : WsServer) : Prop where
  config : w'.config = w.config
  serverSignKey : w'.serverSignKey = w.serverSignKey
  identities : w'.identities = w.identities
  connections :
    ∀ (isAuth : Bool) (hdl : Hdl), ∃ c,
      (w'.sessionTable.table isAuth)[hdl]? =
        ((w.sessionTable.table isAuth)[hdl]?).map
          (ConnectionState.withSendCounter c)
  counts : w.rateLimiter.SameCounts w'.rateLimiter

theorem OnlySends.of_eq
    {w w' : WsServer}
    {effects : List ServerEffect}
    (hConfig : w'.config = w.config)
    (hKey : w'.serverSignKey = w.serverSignKey)
    (hIdentities : w'.identities = w.identities)
    (hTable : w'.sessionTable = w.sessionTable)
    (hCounts : w.rateLimiter.SameCounts w'.rateLimiter) :
    OnlySends w effects w' where
  config := hConfig
  serverSignKey := hKey
  identities := hIdentities
  counts := hCounts
  connections := by
    intro isAuth hdl
    rw [hTable]
    cases hEntry : (w.sessionTable.table isAuth)[hdl]? with
    | none => exact ⟨0, rfl⟩
    | some state => exact ⟨state.session.sendCounter, rfl⟩

/- Effects play no part in the frame. -/
theorem OnlySends.forget
    {w w' : WsServer}
    {effects : List ServerEffect}
    (hSends : OnlySends w effects w')
    (effects' : List ServerEffect) :
    OnlySends w effects' w' :=
  ⟨hSends.config, hSends.serverSignKey, hSends.identities,
    hSends.connections, hSends.counts⟩

theorem composes_onlySends : Composes OnlySends where
  refl := fun _ => OnlySends.of_eq rfl rfl rfl rfl (.refl _)
  trans := by
    intro w v u _ _ hFirst hSecond
    refine
      { config := hSecond.config.trans hFirst.config
        serverSignKey :=
          hSecond.serverSignKey.trans hFirst.serverSignKey
        identities :=
          hSecond.identities.trans hFirst.identities
        connections := ?_
        counts := hFirst.counts.trans hSecond.counts }
    intro isAuth hdl
    rcases hFirst.connections isAuth hdl with ⟨c, hC⟩
    rcases hSecond.connections isAuth hdl with ⟨d, hD⟩
    refine ⟨d, ?_⟩
    rw [hD, hC, Option.map_map]
    rfl

theorem OnlySends.identityOf
    {w w' : WsServer}
    {effects : List ServerEffect}
    (hSends : OnlySends w effects w')
    (hdl : Hdl) :
    w'.sessionTable.identityOf hdl =
      w.sessionTable.identityOf hdl := by
  rcases hSends.connections true hdl with ⟨c, hEntry⟩
  unfold SessionTable.identityOf
  have hSessions :
      w'.sessionTable.sessions[hdl]? =
        (w.sessionTable.sessions[hdl]?).map
          (ConnectionState.withSendCounter c) :=
    hEntry
  rw [hSessions]
  cases w.sessionTable.sessions[hdl]? with
  | none => rfl
  | some state => rfl

------------------------------------------------------------
-- The Step of a Send
------------------------------------------------------------

/- Storing a session back with some send counter. -/
theorem onlySends_store
    {w : WsServer}
    {isAuth : Bool}
    {hdl : Hdl}
    {state : ConnectionState}
    (hStored :
      (w.sessionTable.table isAuth)[hdl]? = some state)
    (c : UInt64)
    (effects : List ServerEffect) :
    OnlySends w effects
      { w with
        sessionTable :=
          w.sessionTable.store isAuth hdl
            (state.withSendCounter c) } where
  config := rfl
  serverSignKey := rfl
  identities := rfl
  counts := .refl _
  connections := by
    intro isAuth' hdl'
    have hSame :=
      (composes_onlySends.refl w).connections isAuth' hdl'
    by_cases hTable : isAuth' = isAuth
    · subst hTable
      simp only [SessionTable.table_store_self]
      by_cases hHdl : hdl' = hdl
      · subst hHdl
        refine ⟨c, ?_⟩
        rw [Std.ExtTreeMap.getElem?_insert_self, hStored]
        rfl
      · rw [OrderedMap.getElem?_insert_of_ne hHdl]
        exact hSame
    · have hNot : isAuth' = !isAuth :=
        Bool.eq_not.mpr hTable
      subst hNot
      simp only [SessionTable.table_store_not]
      exact hSame

/- Nothing happens to sessions, and nothing is handed over. -/
structure Quiet
    (w : WsServer)
    (effects : List ServerEffect)
    (w' : WsServer) : Prop where
  config : w'.config = w.config
  serverSignKey : w'.serverSignKey = w.serverSignKey
  identities : w'.identities = w.identities
  sessionTable : w'.sessionTable = w.sessionTable
  counts : w.rateLimiter.SameCounts w'.rateLimiter
  silent :
    ∀ hdl packet, ServerEffect.transmit hdl packet ∉ effects

theorem composes_quiet : Composes Quiet where
  refl := fun _ => ⟨rfl, rfl, rfl, rfl, .refl _, by simp⟩
  trans := by
    intro w v u xs ys hFirst hSecond
    refine
      { config := hSecond.config.trans hFirst.config
        serverSignKey :=
          hSecond.serverSignKey.trans hFirst.serverSignKey
        identities :=
          hSecond.identities.trans hFirst.identities
        sessionTable :=
          hSecond.sessionTable.trans hFirst.sessionTable
        counts := hFirst.counts.trans hSecond.counts
        silent := ?_ }
    intro hdl packet hEffect
    rcases List.mem_append.mp hEffect with hLeft | hRight
    · exact hFirst.silent hdl packet hLeft
    · exact hSecond.silent hdl packet hRight

/- One stored session hands over its next packet. -/
structure HandsOver
    (S : Sodium)
    (w : WsServer)
    (effects : List ServerEffect)
    (w' : WsServer) : Prop where
  config : w'.config = w.config
  serverSignKey : w'.serverSignKey = w.serverSignKey
  identities : w'.identities = w.identities
  counts : w.rateLimiter.SameCounts w'.rateLimiter
  packet :
    ∃ isAuth hdl state keys nonce payload,
      (w.sessionTable.table isAuth)[hdl]? = some state ∧
        state.session.Ready keys ∧
        effects =
          [.transmit hdl
            (state.nextPacket S nonce payload keys)] ∧
        w'.sessionTable =
          w.sessionTable.store isAuth hdl state.afterSend

/- One atomic step of a method that sends. -/
inductive SendStep
    (S : Sodium)
    (w : WsServer)
    (effects : List ServerEffect)
    (w' : WsServer) : Prop
| quiet : Quiet w effects w' → SendStep S w effects w'
| handsOver :
    HandsOver S w effects w' → SendStep S w effects w'

theorem Quiet.onlySends
    {w w' : WsServer}
    {effects : List ServerEffect}
    (hQuiet : Quiet w effects w') :
    OnlySends w effects w' :=
  OnlySends.of_eq hQuiet.config hQuiet.serverSignKey
    hQuiet.identities hQuiet.sessionTable hQuiet.counts

theorem SendStep.onlySends
    {S : Sodium}
    {w w' : WsServer}
    {effects : List ServerEffect}
    (hStep : SendStep S w effects w') :
    OnlySends w effects w' := by
  cases hStep with
  | quiet hQuiet => exact hQuiet.onlySends
  | handsOver hHandsOver =>
      rcases hHandsOver.packet with
        ⟨isAuth, hdl, state, keys, nonce, payload, hStored,
          _, _, hTable⟩
      have hStore :=
        onlySends_store hStored
          (state.session.sendCounter + 1) effects
      refine
        ⟨hHandsOver.config, hHandsOver.serverSignKey,
          hHandsOver.identities, ?_, hHandsOver.counts⟩
      intro isAuth' hdl'
      rw [hTable]
      exact hStore.connections isAuth' hdl'

namespace WsServer

variable (S : Sodium)

/- Short for: every step is a step of a send. -/
abbrev Sends {α : Type} (act : ServerAction α) : Prop :=
  Ensures (SendStep S) act

theorem Sends.run
    {S : Sodium}
    {α : Type}
    {act : ServerAction α}
    (hSends : Sends S act)
    (w : WsServer) :
    OnlySends w (act.run w).effects (act.run w).state :=
  (hSends.mono (fun _ _ _ hStep => hStep.onlySends)).run
    composes_onlySends w

/- A step that leaves the sessions alone. -/
theorem quiet_step
    {w w' : WsServer}
    {effects : List ServerEffect}
    (hConfig : w'.config = w.config)
    (hKey : w'.serverSignKey = w.serverSignKey)
    (hIdentities : w'.identities = w.identities)
    (hTable : w'.sessionTable = w.sessionTable)
    (hCounts : w.rateLimiter.SameCounts w'.rateLimiter)
    (hEffects :
      ∀ hdl packet,
        ServerEffect.transmit hdl packet ∉ effects) :
    SendStep S w effects w' :=
  .quiet
    ⟨hConfig, hKey, hIdentities, hTable, hCounts, hEffects⟩

------------------------------------------------------------
-- Exceptions of Sections
------------------------------------------------------------

/- Only a missing session makes `send` throw. -/
theorem send_throws
    (nonce : Nonce)
    (hdl : Hdl)
    (payload : Payload) :
    Throws
      (· = .logicError "Session not ready for sending data.")
      (send S nonce hdl payload) := by
  apply Throws.atomic
  intro w e hError
  rcases SessionTable.send_cases S nonce hdl payload
      w.sessionTable with
    hRefused | ⟨isAuth, state, keys, _, _, hSent⟩
  · simp only [hRefused] at hError
    cases hError
    rfl
  · simp only [hSent] at hError
    cases hError

theorem requestSection_throws
    {P : Exception → Prop}
    (f : RequestTable → List Completion × RequestTable) :
    Throws P (requestSection f) := by
  apply Throws.atomic
  intro w e hError
  cases hError

theorem takeRequestId_throws
    {P : Exception → Prop} :
    Throws P takeRequestId := by
  apply Throws.atomic
  intro w e hError
  cases hError

------------------------------------------------------------
-- Moves
------------------------------------------------------------

/- Only a packet handed over concerns the sessions. -/
theorem Move.sendStep
    {S : Sodium}
    {may : May}
    {w w' : WsServer}
    {effects : List ServerEffect}
    (hMove : Move S may w effects w')
    (hPlain : may.Plain) :
    SendStep S w effects w' := by
  cases hMove with
  | handsOver nonce payload hStored hReady =>
      exact
        .handsOver
          ⟨rfl, rfl, rfl, .refl _, _, _, _, _, nonce,
            payload, hStored, hReady, rfl, rfl⟩
  | limits hCounts =>
      exact quiet_step S rfl rfl rfl rfl hCounts (by simp)
  | registers registration callback _ =>
      cases registration <;>
        exact
          quiet_step S rfl rfl rfl rfl (.refl _) (by simp)
  | receives hMay _ => exact absurd hMay (hPlain.receives _ _)
  | replies _ hMay => exact absurd hMay (hPlain.establishes _)
  | counts _ hMay => exact absurd hMay (hPlain.establishes _)
  | stores _ _ hMay _ => exact absurd hMay (hPlain.establishes _)
  | identifies _ hMay =>
      exact absurd hMay (hPlain.establishes _)
  | closesSessions hMay => exact absurd hMay (hPlain.closes _)
  | closesStreams hMay => exact absurd hMay (hPlain.closes _)
  | unregisters hMay => exact absurd hMay (hPlain.closes _)
  | stops hMay => exact absurd hMay hPlain.stops
  | stopsSessions hMay _ => exact absurd hMay hPlain.stops
  | forgetsIdentities hMay => exact absurd hMay hPlain.stops
  | _ =>
      exact quiet_step S rfl rfl rfl rfl (.refl _) (by simp)

theorem Moves.sends
    {S : Sodium}
    {may : May}
    {α : Type}
    {act : ServerAction α}
    (hMoves : Moves S may act)
    (hPlain : may.Plain) :
    Sends S act :=
  hMoves.mono
    (fun _ _ _ hMove => Move.sendStep hMove hPlain)

/- Everything but what concerns the sessions. -/
def plainMay : May where
  opens := fun _ => True
  usesStreams := True
  takesRequestId := True
  requests := fun _ => True
  invokes := fun _ => True
  registers := fun _ _ => True

theorem plainMay_plain : plainMay.Plain := by
  constructor <;> simp [plainMay]

theorem get_sends :
    Sends S (Action.get : ServerAction WsServer) :=
  (get_moves S).sends plainMay_plain

theorem closeHdl_sends
    (input : IoInput)
    (hdl : Hdl)
    (status : CloseStatus)
    (reason : String) :
    Sends S (closeHdl input hdl status reason) :=
  (closeHdl_moves S input hdl status reason).sends
    plainMay_plain

theorem clearHandshakeTime_sends (hdl : Hdl) :
    Sends S (clearHandshakeTime hdl) :=
  (clearHandshakeTime_moves S hdl).sends plainMay_plain

/- No public method does more than send. -/
theorem call_sends (method : PublicCall) :
    Sends S (call S method) := by
  apply (call_moves S method).sends
  constructor <;> simp [PublicCall.may]

theorem onOpen_sends
    (input : IoInput)
    (hdl : Hdl) :
    Sends S (onOpen input hdl) := by
  apply (onOpen_moves S input hdl).sends
  constructor <;> simp [ServerEvent.may]

theorem checkTimeouts_sends (input : IoInput) :
    Sends S (checkTimeouts input) := by
  apply (checkTimeouts_moves S input).sends
  constructor <;> simp [ServerEvent.may]

theorem dispatch_sends
    (input : IoInput)
    (hdl : Hdl)
    (isAuth : Bool)
    (payload : Payload) :
    Sends S (dispatch S input hdl isAuth payload) := by
  have hMoves :
      Moves S plainMay (dispatch S input hdl isAuth payload) :=
    dispatch_moves S (fun _ _ => trivial) trivial
      (fun _ => trivial) input isAuth payload
  exact hMoves.sends plainMay_plain

end WsServer

end ObscuraProto
