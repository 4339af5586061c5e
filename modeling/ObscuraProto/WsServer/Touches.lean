import ObscuraProto.WsServer.Streams

/-
  What an event on one connection touches.

  All connections share the tables of the server and the rate
  limiter.  Every step of `on_open`, `on_message` and
  `on_close` leaves the entries of the other connections as
  they are, only adds stream objects, and uses the limiter
  through a few of its methods.

  Key definitions include:
    * `LimiterOp`, `LimiterOp.apply`
    * `SameEntries`, `Touches`
    * `WsServer.storedId`, `WsServer.mayUse`

  Key theorems include:
    * `WsServer.onOpen_touches`, `WsServer.onClose_touches`
    * `WsServer.onMessage_touches`
    * `WsServer.handle_usesLimiter`
-/

namespace ObscuraProto

/- The methods of the limiter that write its state. -/
inductive LimiterOp where
| checkConnectionRate (ip : String) (nowMs : Int)
| recordConnection (ip : String) (nowMs : Int)
| checkHandshakeRate (ip : String) (nowMs : Int)
| recordHandshake (ip : String) (nowMs : Int)
| checkMessageRate (connId : UInt64) (nowUs : Int)
| recordMessage (connId : UInt64) (nowUs : Int)
| registerConnection (ip : String)
| unregisterConnection (connId : UInt64) (ip : String)
| cleanup (nowMs : Int)
deriving DecidableEq

def LimiterOp.apply (rl : RateLimiter) :
    LimiterOp → RateLimiter
| .checkConnectionRate ip nowMs =>
    (rl.checkConnectionRate ip nowMs).2
| .recordConnection ip nowMs => rl.recordConnection ip nowMs
| .checkHandshakeRate ip nowMs =>
    (rl.checkHandshakeRate ip nowMs).2
| .recordHandshake ip nowMs => rl.recordHandshake ip nowMs
| .checkMessageRate connId nowUs =>
    (rl.checkMessageRate connId nowUs).2
| .recordMessage connId nowUs => rl.recordMessage connId nowUs
| .registerConnection ip => (rl.registerConnection ip).2
| .unregisterConnection connId ip =>
    rl.unregisterConnection connId ip
| .cleanup nowMs => rl.cleanup nowMs

/- The limiter is used through permitted methods only. -/
def UsesLimiter
    (may : LimiterOp → Prop)
    (w w' : WsServer) : Prop :=
  ∃ ops : List LimiterOp,
    (∀ op ∈ ops, may op) ∧
      w'.rateLimiter =
        ops.foldl LimiterOp.apply w.rateLimiter

/- All that is kept about a connection but its limiter state. -/
structure SameEntries
    (hdl : Hdl)
    (w w' : WsServer) : Prop where
  sessions :
    ∀ isAuth,
      (w'.sessionTable.table isAuth)[hdl]? =
        (w.sessionTable.table isAuth)[hdl]?
  openTime :
    w'.handshakeOpenTime[hdl]? = w.handshakeOpenTime[hdl]?
  streams :
    w'.streams.perConnectionStreams[hdl]? =
      w.streams.perConnectionStreams[hdl]?
  pending :
    w'.requests.pendingRequests[hdl]? =
      w.requests.pendingRequests[hdl]?
  deadlines :
    w'.requests.requestDeadlines[hdl]? =
      w.requests.requestDeadlines[hdl]?

theorem SameEntries.refl
    (hdl : Hdl)
    (w : WsServer) :
    SameEntries hdl w w :=
  ⟨fun _ => rfl, rfl, rfl, rfl, rfl⟩

theorem SameEntries.trans
    {hdl : Hdl}
    {w v u : WsServer}
    (hFirst : SameEntries hdl w v)
    (hSecond : SameEntries hdl v u) :
    SameEntries hdl w u where
  sessions := fun isAuth =>
    (hSecond.sessions isAuth).trans (hFirst.sessions isAuth)
  openTime := hSecond.openTime.trans hFirst.openTime
  streams := hSecond.streams.trans hFirst.streams
  pending := hSecond.pending.trans hFirst.pending
  deadlines := hSecond.deadlines.trans hFirst.deadlines

/- Nothing is touched but what belongs to `hdl`. -/
structure Touches
    (may : LimiterOp → Prop)
    (hdl : Hdl)
    (w : WsServer)
    (effects : List ServerEffect)
    (w' : WsServer) : Prop where
  limiter : UsesLimiter may w w'
  others : ∀ other, other ≠ hdl → SameEntries other w w'
  objects : w.streams.objects <+: w'.streams.objects

section Composition

variable {may : LimiterOp → Prop} {hdl : Hdl}

theorem usesLimiter_same
    {w w' : WsServer}
    (hSame : w'.rateLimiter = w.rateLimiter) :
    UsesLimiter may w w' :=
  ⟨[], by simp, hSame⟩

theorem UsesLimiter.trans
    {w v u : WsServer}
    (hFirst : UsesLimiter may w v)
    (hSecond : UsesLimiter may v u) :
    UsesLimiter may w u := by
  rcases hFirst with ⟨ops, hMay, hState⟩
  rcases hSecond with ⟨ops', hMay', hState'⟩
  refine ⟨ops ++ ops', ?_, ?_⟩
  · intro op hMem
    rcases List.mem_append.mp hMem with hMem | hMem
    · exact hMay op hMem
    · exact hMay' op hMem
  · rw [List.foldl_append, ← hState]
    exact hState'

theorem UsesLimiter.mono
    {may' : LimiterOp → Prop}
    {w w' : WsServer}
    (hUses : UsesLimiter may w w')
    (hMore : ∀ op, may op → may' op) :
    UsesLimiter may' w w' := by
  rcases hUses with ⟨ops, hMay, hState⟩
  exact ⟨ops, fun op hMem => hMore op (hMay op hMem), hState⟩

theorem composes_touches (may : LimiterOp → Prop) (hdl : Hdl) :
    Effectful.Composes (Touches may hdl) where
  refl := fun w =>
    ⟨usesLimiter_same rfl, fun other _ => .refl other w,
      List.prefix_refl _⟩
  trans := by
    intro w v u _ _ hFirst hSecond
    exact
      { limiter := hFirst.limiter.trans hSecond.limiter
        others := fun other hOther =>
          (hFirst.others other hOther).trans
            (hSecond.others other hOther)
        objects := hFirst.objects.trans hSecond.objects }

theorem Touches.mono
    {may' : LimiterOp → Prop}
    {w w' : WsServer}
    {effects : List ServerEffect}
    (hTouches : Touches may hdl w effects w')
    (hMore : ∀ op, may op → may' op) :
    Touches may' hdl w effects w' :=
  { limiter := hTouches.limiter.mono hMore
    others := hTouches.others
    objects := hTouches.objects }

end Composition

namespace WsServer

open Effectful

variable {may : LimiterOp → Prop} {hdl : Hdl}

/- Short for: every step touches only what it may. -/
abbrev Local
    (may : LimiterOp → Prop)
    (hdl : Hdl)
    {α : Type}
    (act : ServerAction α) : Prop :=
  Ensures (Touches may hdl) act

------------------------------------------------------------
-- Single Steps
------------------------------------------------------------

/- A step that is the same on everything concerned. -/
theorem touches_of_eq
    {w w' : WsServer}
    {effects : List ServerEffect}
    (hLimiter : w'.rateLimiter = w.rateLimiter)
    (hSessions : w'.sessionTable = w.sessionTable)
    (hTimes : w'.handshakeOpenTime = w.handshakeOpenTime)
    (hStreams : w'.streams = w.streams)
    (hRequests : w'.requests = w.requests) :
    Touches may hdl w effects w' where
  limiter := usesLimiter_same hLimiter
  others := by
    intro other _
    constructor
    · intro isAuth
      rw [hSessions]
    · rw [hTimes]
    · rw [hStreams]
    · rw [hRequests]
    · rw [hRequests]
  objects := ⟨[], by rw [List.append_nil, hStreams]⟩

theorem get_local :
    Local may hdl (Action.get : ServerAction WsServer) :=
  Ensures.get (composes_touches may hdl).refl

theorem limiter_local
    {α : Type}
    {f : RateLimiter → α × RateLimiter}
    (op : LimiterOp)
    (hMay : may op)
    (hOp : ∀ rl, (f rl).2 = op.apply rl) :
    Local may hdl (limiter f) := by
  apply Ensures.atomic
  intro w
  exact
    { limiter := ⟨[op], by simpa using hMay, hOp _⟩
      others := fun other _ => ⟨fun _ => rfl, rfl, rfl, rfl, rfl⟩
      objects := List.prefix_refl _ }

theorem limiterCheck_local
    {check : RateLimiter → Bool × RateLimiter}
    (op : LimiterOp)
    (hMay : may op)
    (hOp : ∀ rl, (check rl).2 = op.apply rl) :
    Local may hdl (limiterCheck check) := by
  apply Ensures.bind get_local
  intro w
  split
  · exact limiter_local op hMay hOp
  · exact Ensures.pure true

theorem limiterRecord_local
    {record : RateLimiter → RateLimiter}
    (op : LimiterOp)
    (hMay : may op)
    (hOp : ∀ rl, record rl = op.apply rl) :
    Local may hdl (limiterRecord record) := by
  apply Ensures.bind get_local
  intro w
  split
  · exact limiter_local op hMay hOp
  · exact Ensures.pure ()

/- Sections of the sessions that write one entry. -/
theorem touches_store
    {w : WsServer}
    {t : SessionTable}
    {effects : List ServerEffect}
    (hOthers :
      ∀ isAuth other, other ≠ hdl →
        (t.table isAuth)[other]? =
          (w.sessionTable.table isAuth)[other]?) :
    Touches may hdl w effects { w with sessionTable := t } where
  limiter := usesLimiter_same rfl
  others := fun other hOther =>
    ⟨fun isAuth => hOthers isAuth other hOther, rfl, rfl, rfl,
      rfl⟩
  objects := List.prefix_refl _

theorem table_store_ne
    {other : Hdl}
    (hOther : other ≠ hdl)
    (isAuth isAuth' : Bool)
    (state : ConnectionState)
    (t : SessionTable) :
    ((t.store isAuth' hdl state).table isAuth)[other]? =
      (t.table isAuth)[other]? := by
  by_cases hSide : isAuth = isAuth'
  · subst hSide
    rw [SessionTable.table_store_self,
      OrderedMap.getElem?_insert_of_ne hOther]
  · rw [Bool.eq_not.mpr hSide, SessionTable.table_store_not]

theorem sessionSection_local
    {f :
      SessionTable →
        Except Exception (Option Bytes) × SessionTable}
    (target : Hdl)
    (hOthers :
      ∀ t isAuth other, other ≠ hdl →
        ((f t).2.table isAuth)[other]? =
          (t.table isAuth)[other]?) :
    Local may hdl (sessionSection target f) := by
  apply Ensures.atomic
  intro w
  have hTable := hOthers w.sessionTable
  rcases hResult : f w.sessionTable with ⟨result, t⟩
  rw [hResult] at hTable
  cases result with
  | error e => exact touches_store hTable
  | ok packet => exact touches_store hTable

theorem requestSection_local
    {f : RequestTable → List Completion × RequestTable}
    (hPending :
      ∀ t other, other ≠ hdl →
        (f t).2.pendingRequests[other]? =
          t.pendingRequests[other]?)
    (hDeadlines :
      ∀ t other, other ≠ hdl →
        (f t).2.requestDeadlines[other]? =
          t.requestDeadlines[other]?) :
    Local may hdl (requestSection f) := by
  apply Ensures.atomic
  intro w
  exact
    { limiter := usesLimiter_same rfl
      others := fun other hOther =>
        ⟨fun _ => rfl, rfl, rfl, hPending _ other hOther,
          hDeadlines _ other hOther⟩
      objects := List.prefix_refl _ }

theorem modify_local
    {f : WsServer → WsServer}
    (hStep : ∀ w, Touches may hdl w [] (f w)) :
    Local may hdl (Action.modify f) :=
  Ensures.modify hStep

theorem emit_local (effect : ServerEffect) :
    Local may hdl (Action.emit effect) :=
  Ensures.emit (fun _ => touches_of_eq rfl rfl rfl rfl rfl)

/- Calls to the outside. -/
theorem closeHdl_local
    (input : IoInput)
    (target : Hdl)
    (status : CloseStatus)
    (reason : String) :
    Local may hdl (closeHdl input target status reason) :=
  Ensures.bind (emit_local _) (fun _ => Ensures.ofExcept _)

theorem invoke_local
    {α : Type}
    (callback : ServerCallback)
    (answer : Except Exception α) :
    Local may hdl (invoke callback answer) :=
  Ensures.bind (emit_local _) (fun _ => Ensures.ofExcept _)

theorem invokeHandler_local
    (handler : Option HandlerId)
    (callback : HandlerId → ServerCallback)
    (answer : Except Exception Unit) :
    Local may hdl (invokeHandler handler callback answer) := by
  cases handler with
  | none => exact Ensures.pure ()
  | some handler => exact invoke_local _ answer

------------------------------------------------------------
-- Sending
------------------------------------------------------------

variable (S : Sodium)

/- The session of the target is the one that is stored. -/
theorem transmit_table
    {other : Hdl}
    (hOther : other ≠ hdl)
    (nonce : Nonce)
    (isAuth isAuth' : Bool)
    (state : ConnectionState)
    (payload : Payload)
    (t : SessionTable) :
    ((t.transmit S nonce isAuth' hdl state payload).2.table
        isAuth)[other]? =
      (t.table isAuth)[other]? := by
  unfold SessionTable.transmit
  rcases state.session.encryptPayload S nonce payload with
    ⟨packet, session⟩
  cases packet with
  | error e => exact table_store_ne hOther isAuth isAuth' _ t
  | ok packet =>
      exact table_store_ne hOther isAuth isAuth' _ t

theorem send_local
    (nonce : Nonce)
    (payload : Payload) :
    Local may hdl (send S nonce hdl payload) := by
  apply sessionSection_local
  intro t isAuth other hOther
  unfold SessionTable.send
  cases t.ready hdl with
  | none => rfl
  | some found =>
      exact
        transmit_table S hOther nonce isAuth found.1 found.2
          payload t

theorem sendAnonymous_local
    (nonce : Nonce)
    (payload : Payload) :
    Local may hdl (sendAnonymous S nonce hdl payload) := by
  apply sessionSection_local
  intro t isAuth other hOther
  unfold SessionTable.sendAnonymous
  cases t.readyIn false hdl with
  | none => rfl
  | some state =>
      exact
        transmit_table S hOther nonce isAuth false state
          payload t

theorem sendResponse_local
    (nonce : Nonce)
    (requestId : UInt32)
    (payload : Payload) :
    Local may hdl
      (sendResponse S nonce hdl requestId payload) := by
  apply Ensures.bind get_local
  intro w
  apply Ensures.bind (Ensures.ofExcept _)
  intro response
  exact send_local S nonce response

theorem sendAnonymousResponse_local
    (nonce : Nonce)
    (requestId : UInt32)
    (payload : Payload) :
    Local may hdl
      (sendAnonymousResponse S nonce hdl requestId
        payload) := by
  apply Ensures.bind get_local
  intro w
  apply Ensures.bind (Ensures.ofExcept _)
  intro response
  exact sendAnonymous_local S nonce response

------------------------------------------------------------
-- Requests and Streams
------------------------------------------------------------

theorem nested_insertAt_ne
    {V : Type}
    {other : Hdl}
    (hOther : other ≠ hdl)
    (id : UInt32)
    (value : V)
    (outer : NestedMap V) :
    (NestedMap.insertAt hdl id value outer)[other]? =
      outer[other]? :=
  OrderedMap.getElem?_insert_of_ne hOther _ _

theorem nested_eraseAt_ne
    {V : Type}
    {other : Hdl}
    (hOther : other ≠ hdl)
    (id : UInt32)
    (outer : NestedMap V) :
    (NestedMap.eraseAt hdl id outer)[other]? =
      outer[other]? := by
  unfold NestedMap.eraseAt
  cases outer[hdl]? with
  | none => rfl
  | some inner =>
      exact OrderedMap.getElem?_insert_of_ne hOther _ _

theorem nested_pruneAt_ne
    {V : Type}
    {other : Hdl}
    (hOther : other ≠ hdl)
    (outer : NestedMap V) :
    (NestedMap.pruneAt hdl outer)[other]? = outer[other]? := by
  unfold NestedMap.pruneAt
  split
  · rfl
  · split
    · exact OrderedMap.getElem?_erase_of_ne hOther _
    · rfl

theorem respond_local
    (requestId : UInt32)
    (response : Payload) :
    Local may hdl
      (requestSection (fun t =>
        t.respond hdl requestId response)) := by
  apply requestSection_local
  · intro t other hOther
    unfold RequestTable.respond
    split
    · rfl
    · exact nested_eraseAt_ne hOther requestId _
  · intro t other _
    unfold RequestTable.respond
    split <;> rfl

theorem closeRequests_local :
    Local may hdl
      (requestSection (fun t => t.closeConnection hdl)) := by
  apply requestSection_local
  · intro t other hOther
    exact OrderedMap.getElem?_erase_of_ne hOther _
  · intro t other hOther
    exact OrderedMap.getElem?_erase_of_ne hOther _

theorem registerRequest_local
    (hdl : Hdl)
    (requestId : UInt32)
    (promise : PromiseId)
    (deadline : Option TimePoint) :
    Local may hdl
      (requestSection (fun t =>
        ([], t.register hdl requestId promise deadline))) := by
  apply requestSection_local
  · intro t other hOther
    exact nested_insertAt_ne hOther requestId promise _
  · intro t other hOther
    cases deadline with
    | none => rfl
    | some deadline =>
        exact nested_insertAt_ne hOther requestId deadline _

theorem failRequest_local
    (hdl : Hdl)
    (requestId : UInt32)
    (e : Exception) :
    Local may hdl
      (requestSection (fun t => t.fail hdl requestId e)) := by
  apply requestSection_local
  · intro t other hOther
    exact
      (nested_pruneAt_ne hOther _).trans
        (nested_eraseAt_ne hOther requestId _)
  · intro t other hOther
    exact
      (nested_pruneAt_ne hOther _).trans
        (nested_eraseAt_ne hOther requestId _)

theorem registerStream_local
    (stream : Stream ServerSendFn) :
    Local may hdl (registerStream hdl stream) := by
  apply Ensures.atomic
  intro w
  exact
    { limiter := usesLimiter_same rfl
      others := fun other hOther =>
        ⟨fun _ => rfl, rfl, nested_insertAt_ne hOther _ _ _,
          rfl, rfl⟩
      objects := List.prefix_append _ _ }

theorem takeStream_local (streamId : UInt32) :
    Local may hdl (takeStream hdl streamId) := by
  apply Ensures.atomic
  intro w
  exact
    { limiter := usesLimiter_same rfl
      others := fun other hOther =>
        ⟨fun _ => rfl, rfl, nested_eraseAt_ne hOther _ _, rfl,
          rfl⟩
      objects := List.prefix_refl _ }

theorem findStream_local
    (target : Hdl)
    (streamId : UInt32) :
    Local may hdl (findStream target streamId) :=
  Ensures.bind get_local (fun _ => Ensures.pure _)

------------------------------------------------------------
-- Dispatch
------------------------------------------------------------

theorem dispatchStream_local
    (input : IoInput)
    (stream : Option StreamRef)
    (handlerOf : Stream ServerSendFn → Option HandlerId)
    (callback : HandlerId → ServerCallback) :
    Local may hdl
      (dispatchStream input stream handlerOf callback) :=
  Ensures.bind get_local
    (fun _ => invokeHandler_local _ _ _)

theorem dispatchStreamStart_local
    (input : IoInput)
    (isAuth : Bool)
    (streamId : UInt32)
    (opCode : Option OpCode) :
    Local may hdl
      (dispatchStreamStart input hdl isAuth streamId
        opCode) := by
  apply Ensures.bind (registerStream_local _)
  intro stream
  apply Ensures.bind get_local
  intro w
  exact invokeHandler_local _ _ _

theorem dispatchPayload_local
    (input : IoInput)
    (isAuth : Bool)
    (payload : Payload) :
    Local may hdl
      (dispatchPayload S input hdl isAuth payload) := by
  apply Ensures.bind get_local
  intro w
  dsimp only
  split
  · exact Ensures.pure ()
  · apply Ensures.bind (Ensures.ofExcept _)
    intro requestId
    apply Ensures.bind (invoke_local _ _)
    intro response
    split
    · exact sendResponse_local S _ _ _
    · exact sendAnonymousResponse_local S _ _ _
  · exact invokeHandler_local _ _ _

theorem dispatch_local
    (input : IoInput)
    (isAuth : Bool)
    (payload : Payload) :
    Local may hdl (dispatch S input hdl isAuth payload) := by
  apply Ensures.bind get_local
  intro w
  apply Ensures.bind (Ensures.ofExcept _)
  intro message
  cases message with
  | response requestId response =>
      exact respond_local requestId response
  | streamStart streamId opCode =>
      exact
        dispatchStreamStart_local input isAuth streamId opCode
  | streamData streamId data =>
      exact
        Ensures.bind (findStream_local hdl streamId)
          (fun _ => dispatchStream_local input _ _ _)
  | streamEnd streamId =>
      exact
        Ensures.bind (findStream_local hdl streamId)
          (fun _ => dispatchStream_local input _ _ _)
  | streamCancel streamId =>
      exact
        Ensures.bind (takeStream_local streamId)
          (fun _ => dispatchStream_local input _ _ _)
  | application payload =>
      exact dispatchPayload_local S input isAuth payload

------------------------------------------------------------
-- The First Section of on_message
------------------------------------------------------------

theorem table_touch_ne
    {other : Hdl}
    (hOther : other ≠ hdl)
    (isAuth isAuth' : Bool)
    (now : Int)
    (t : SessionTable) :
    ((t.touch isAuth' hdl now).table isAuth)[other]? =
      (t.table isAuth)[other]? := by
  unfold SessionTable.touch
  split
  · rfl
  · exact table_store_ne hOther isAuth isAuth' _ t

theorem keepPayload_local
    {rateLimiterId : UInt64}
    (input : IoInput)
    (hMay :
      may
        (.recordMessage rateLimiterId
          (nowUs (input.clock 1))))
    (isAuth : Bool)
    (payload : Payload) :
    Local may hdl
      (keepPayload input hdl isAuth rateLimiterId
        payload) := by
  apply Ensures.bind get_local
  intro w
  split
  · exact
      Ensures.bind (closeHdl_local _ _ _ _)
        (fun _ => Ensures.pure _)
  · apply Ensures.bind
      (limiterRecord_local _ hMay (fun _ => rfl))
    intro _
    refine
      Ensures.bind (modify_local ?_) (fun _ => Ensures.pure _)
    intro w
    exact
      touches_store (fun isAuth' other hOther =>
        table_touch_ne hOther isAuth' isAuth _ _)

theorem decrypt_local
    (packet : Bytes)
    (isAuth : Bool)
    (state : ConnectionState) :
    Local may hdl (decrypt S hdl packet isAuth state) := by
  apply Ensures.atomic
  intro w
  rcases state.session.decryptPacket S packet with
    ⟨result, session⟩
  exact
    touches_store (fun isAuth' other hOther =>
      table_store_ne hOther isAuth' isAuth _ _)

theorem receiveFrom_local
    {state : ConnectionState}
    (input : IoInput)
    (hCheck :
      may
        (.checkMessageRate state.rateLimiterId
          (nowUs (input.clock 0))))
    (hRecord :
      may
        (.recordMessage state.rateLimiterId
          (nowUs (input.clock 1))))
    (packet : Bytes)
    (isAuth : Bool) :
    Local may hdl
      (receiveFrom S input hdl packet isAuth state) := by
  unfold receiveFrom
  split
  · exact Ensures.pure _
  · apply Ensures.bind
      (limiterCheck_local _ hCheck (fun _ => rfl))
    intro allowed
    split
    · exact
        Ensures.bind (closeHdl_local _ _ _ _)
          (fun _ => Ensures.pure _)
    · refine Ensures.catchAll ?_ (fun _ => Ensures.pure _)
      exact
        Ensures.bind (decrypt_local S packet isAuth state)
          (fun payload =>
            keepPayload_local input hRecord isAuth payload)

/- The limiter id of a connection that is stored. -/
def storedId
    (hdl : Hdl)
    (w : WsServer)
    (connId : UInt64) : Prop :=
  ∃ isAuth state,
    (w.sessionTable.table isAuth)[hdl]? = some state ∧
      state.rateLimiterId = connId

/- What a packet of a stored session may ask of the limiter. -/
def packetMayUse (hdl : Hdl) (w : WsServer) : LimiterOp → Prop
| .checkMessageRate connId _ => storedId hdl w connId
| .recordMessage connId _ => storedId hdl w connId
| _ => False

/- What a first message may ask of it. -/
def handshakeMayUse (input : IoInput) : LimiterOp → Prop
| .checkHandshakeRate ip now =>
    ip = input.remoteIp ∧ now = nowMs (input.clock 0)
| .recordHandshake ip now =>
    ip = input.remoteIp ∧ now = nowMs (input.clock 1)
| .registerConnection ip => ip = input.remoteIp
| _ => False

def messageMayUse
    (input : IoInput)
    (hdl : Hdl)
    (w : WsServer)
    (op : LimiterOp) : Prop :=
  packetMayUse hdl w op ∨ handshakeMayUse input op

theorem receive_touches
    (input : IoInput)
    (hdl : Hdl)
    (packet : Bytes)
    (w : WsServer) :
    let o := (receive S input hdl packet).run w
    Touches (packetMayUse hdl w) hdl w o.effects o.state := by
  dsimp only
  unfold receive
  rw [Action.run_atomically, Action.run_get_bind]
  split
  · next state hStored =>
      have hId : storedId hdl w state.rateLimiterId :=
        ⟨true, state, hStored, rfl⟩
      exact
        (receiveFrom_local S input hId hId packet true).run
          (composes_touches _ hdl) w
  · split
    · next state hStored =>
        have hId : storedId hdl w state.rateLimiterId :=
          ⟨false, state, hStored, rfl⟩
        exact
          (receiveFrom_local S input hId hId packet false).run
            (composes_touches _ hdl) w
    · exact (composes_touches _ hdl).refl w

theorem receive_local
    (input : IoInput)
    (packet : Bytes) :
    Ensures (fun w => Touches (packetMayUse hdl w) hdl w)
      (receive S input hdl packet) := by
  apply Ensures.atomic
  intro w
  have hTouches := receive_touches S input hdl packet w
  unfold receive at hTouches
  rw [Action.run_atomically] at hTouches
  exact hTouches

------------------------------------------------------------
-- The Handshake
------------------------------------------------------------

/- Code that does not use the limiter may run anywhere. -/
theorem Local.anywhere
    {α : Type}
    {act : ServerAction α}
    {mayIn : WsServer → LimiterOp → Prop}
    (hLocal : Local (fun _ => False) hdl act) :
    Ensures (fun w => Touches (mayIn w) hdl w) act :=
  hLocal.mono
    (fun _ _ _ hTouches =>
      hTouches.mono (fun _ hNever => hNever.elim))

theorem touches_emplace
    (isAuth : Bool)
    (state : ConnectionState)
    (w : WsServer) :
    Touches may hdl w []
      { w with
        sessionTable :=
          w.sessionTable.emplace isAuth hdl state } := by
  apply touches_store
  intro isAuth' other hOther
  by_cases hSide : isAuth' = isAuth
  · subst hSide
    rw [SessionTable.table_emplace_self,
      OrderedMap.getElem?_insertIfNew_of_ne hOther]
  · rw [Bool.eq_not.mpr hSide,
      SessionTable.table_emplace_not]

theorem establish_local
    (input : IoInput)
    (hMay : may (.registerConnection input.remoteIp))
    (session : Session)
    (identity : Option PublicKey) :
    Local may hdl (establish input hdl session identity) := by
  apply Ensures.bind
    (limiter_local (.registerConnection input.remoteIp) hMay
      (fun _ => rfl))
  intro connId
  apply Ensures.bind
    (modify_local (fun w => touches_emplace _ _ w))
  intro _
  cases identity with
  | none => exact Ensures.pure ()
  | some clientPk =>
      exact
        modify_local
          (fun _ => touches_of_eq rfl rfl rfl rfl rfl)

theorem clearHandshakeTime_local :
    Local may hdl (clearHandshakeTime hdl) := by
  apply modify_local
  intro w
  exact
    { limiter := usesLimiter_same rfl
      others := fun other hOther =>
        ⟨fun _ => rfl,
          OrderedMap.getElem?_erase_of_ne hOther _, rfl, rfl,
          rfl⟩
      objects := List.prefix_refl _ }

theorem identityAccepted_local
    (input : IoInput)
    (clientPk : PublicKey) :
    Local may hdl (identityAccepted input hdl clientPk) := by
  apply Ensures.bind get_local
  intro w
  split
  · exact Ensures.pure true
  · exact invoke_local _ _

theorem establishIdentified_local
    (input : IoInput)
    (hMay : may (.registerConnection input.remoteIp))
    (session : Session)
    (clientPk : PublicKey) :
    Local may hdl
      (establishIdentified input hdl session clientPk) := by
  apply Ensures.bind (identityAccepted_local input clientPk)
  intro accepted
  split
  · exact establish_local input hMay session _
  · exact closeHdl_local _ _ _ _

theorem conclude_local
    (input : IoInput)
    (hello : ClientHello)
    (session : Session) :
    Local (handshakeMayUse input) hdl
      (conclude input hdl hello session) := by
  have hRegister :
      handshakeMayUse input
        (.registerConnection input.remoteIp) :=
    rfl
  apply Ensures.bind
    (limiterRecord_local
      (.recordHandshake input.remoteIp
        (nowMs (input.clock 1)))
      ⟨rfl, rfl⟩ (fun _ => rfl))
  intro _
  dsimp only
  split
  · refine
      Ensures.bind ?_ (fun _ => clearHandshakeTime_local)
    exact establishIdentified_local input hRegister session _
  · refine
      Ensures.bind ?_ (fun _ => clearHandshakeTime_local)
    exact establish_local input hRegister session none

theorem handshake_local
    (input : IoInput)
    (data : Bytes) :
    Local (handshakeMayUse input) hdl
      (handshake S input hdl data) := by
  apply Ensures.bind
    (limiterCheck_local
      (.checkHandshakeRate input.remoteIp
        (nowMs (input.clock 0)))
      ⟨rfl, rfl⟩ (fun _ => rfl))
  intro allowed
  split
  · exact closeHdl_local _ _ _ _
  · apply Ensures.bind (Ensures.ofExcept _)
    intro hello
    apply Ensures.bind get_local
    intro w
    apply Ensures.bind (Ensures.ofExcept _)
    intro serverHello
    apply Ensures.bind (emit_local _)
    intro _
    apply Ensures.bind (Ensures.ofExcept _)
    intro _
    exact conclude_local input hello _

------------------------------------------------------------
-- Events on One Connection
------------------------------------------------------------

theorem onMessage_touches
    (input : IoInput)
    (hdl : Hdl)
    (frame : Frame) :
    Ensures (fun w => Touches (messageMayUse input hdl w) hdl w)
      (onMessage S input hdl frame) := by
  unfold onMessage
  split
  · exact Ensures.pure ()
  · refine Ensures.bind ?_ ?_
    · refine (receive_local S input frame.payload).mono ?_
      intro w _ _ hTouches
      exact hTouches.mono (fun _ => Or.inl)
    intro received
    cases received with
    | ignored => exact Ensures.pure ()
    | decrypted isAuth payload =>
        exact
          Ensures.catchAll
            (dispatch_local S input isAuth payload).anywhere
            (fun _ => Ensures.pure ())
    | unknown =>
        refine
          Ensures.catchAll
            ((handshake_local S input frame.payload).mono ?_)
            (fun _ => (closeHdl_local _ _ _ _).anywhere)
        intro w _ _ hTouches
        exact hTouches.mono (fun _ => Or.inr)

/- What an open and a close may ask of the limiter. -/
def openMayUse (input : IoInput) : LimiterOp → Prop
| .checkConnectionRate ip now =>
    ip = input.remoteIp ∧ now = nowMs (input.clock 0)
| .recordConnection ip now =>
    ip = input.remoteIp ∧ now = nowMs (input.clock 1)
| _ => False

def closeMayUse (hdl : Hdl) (w : WsServer) : LimiterOp → Prop
| .unregisterConnection connId _ => storedId hdl w connId
| _ => False

theorem recordOpenTime_local (now : Int) :
    Local may hdl (recordOpenTime hdl now) := by
  apply Ensures.bind get_local
  intro w
  split
  · apply modify_local
    intro w
    exact
      { limiter := usesLimiter_same rfl
        others := fun other hOther =>
          ⟨fun _ => rfl,
            OrderedMap.getElem?_insert_of_ne hOther _ _, rfl,
            rfl, rfl⟩
        objects := List.prefix_refl _ }
  · exact Ensures.pure ()

theorem onOpen_touches
    (input : IoInput)
    (hdl : Hdl) :
    Local (openMayUse input) hdl (onOpen input hdl) := by
  apply Ensures.bind
    (limiterCheck_local
      (.checkConnectionRate input.remoteIp
        (nowMs (input.clock 0)))
      ⟨rfl, rfl⟩ (fun _ => rfl))
  intro allowed
  split
  · exact closeHdl_local _ _ _ _
  · apply Ensures.bind
      (limiterRecord_local
        (.recordConnection input.remoteIp
          (nowMs (input.clock 1)))
        ⟨rfl, rfl⟩ (fun _ => rfl))
    intro _
    apply Ensures.bind get_local
    intro w
    dsimp only
    split
    · exact closeHdl_local _ _ _ _
    · apply Ensures.bind (recordOpenTime_local _)
      intro _
      apply Ensures.bind get_local
      intro w
      exact invokeHandler_local _ _ _

/- Erasing one session unregisters the id it is stored with. -/
theorem closeSession_touches
    {isAuth : Bool}
    {w : WsServer}
    (hMay :
      ∀ state,
        (w.sessionTable.table isAuth)[hdl]? = some state →
          may
            (.unregisterConnection state.rateLimiterId
              state.remoteIp)) :
    Touches may hdl w [] (closeSession isAuth hdl w) := by
  have hTable (isAuth' : Bool) (other : Hdl)
      (hOther : other ≠ hdl) :
      ((closeSession isAuth hdl w).sessionTable.table
          isAuth')[other]? =
        (w.sessionTable.table isAuth')[other]? := by
    rw [closeSession_table]
    split
    · exact OrderedMap.getElem?_erase_of_ne hOther _
    · rfl
  rcases closeSession_frame isAuth hdl w with
    ⟨_, _, _, hTimes, hStreams, hRequests⟩
  refine
    { limiter := ?_
      others := ?_
      objects := ?_ }
  · unfold closeSession
    cases hStored : (w.sessionTable.table isAuth)[hdl]? with
    | none => exact usesLimiter_same rfl
    | some state =>
        exact
          ⟨[.unregisterConnection state.rateLimiterId
              state.remoteIp],
            by simpa using hMay state hStored, rfl⟩
  · intro other hOther
    constructor
    · exact fun isAuth' => hTable isAuth' other hOther
    · rw [hTimes]
    · rw [hStreams]
    · rw [hRequests]
    · rw [hRequests]
  · exact ⟨[], by rw [List.append_nil, hStreams]⟩

theorem closeSessions_touches (w : WsServer) :
    Touches (closeMayUse hdl w) hdl w []
      (closeSession false hdl (closeSession true hdl w)) := by
  have hFirst :
      Touches (closeMayUse hdl w) hdl w []
        (closeSession true hdl w) :=
    closeSession_touches
      (fun state hStored => ⟨true, state, hStored, rfl⟩)
  have hSecond :
      Touches (closeMayUse hdl w) hdl (closeSession true hdl w)
        []
        (closeSession false hdl (closeSession true hdl w)) := by
    apply closeSession_touches
    intro state hStored
    rw [closeSession_table, if_neg (by decide)] at hStored
    exact ⟨false, state, hStored, rfl⟩
  exact (composes_touches _ hdl).trans hFirst hSecond

/- The rest of a close does not use the limiter. -/
theorem closeRest_local (hdl : Hdl) :
    Local may hdl (do
      Action.modify (fun w =>
        { w with streams := w.streams.closeConnection hdl })
      Action.modify (fun w =>
        { w with identities := w.identities.unregister hdl })
      requestSection (fun t => t.closeConnection hdl)
      clearHandshakeTime hdl) := by
  refine Ensures.bind (modify_local ?_) ?_
  · intro w
    exact
      { limiter := usesLimiter_same rfl
        others := fun other hOther =>
          ⟨fun _ => rfl, rfl,
            OrderedMap.getElem?_erase_of_ne hOther _, rfl,
            rfl⟩
        objects := List.prefix_refl _ }
  · intro _
    refine Ensures.bind (modify_local ?_) ?_
    · exact fun _ => touches_of_eq rfl rfl rfl rfl rfl
    · intro _
      exact
        Ensures.bind closeRequests_local
          (fun _ => clearHandshakeTime_local)

theorem onClose_touches
    (input : IoInput)
    (hdl : Hdl) :
    Ensures (fun w => Touches (closeMayUse hdl w) hdl w)
      (onClose input hdl) := by
  apply Ensures.bind get_local.anywhere
  intro w
  apply Ensures.bind (invokeHandler_local _ _ _).anywhere
  intro _
  apply Ensures.bind
    (Ensures.modify (fun w => closeSessions_touches w))
  intro _
  exact (closeRest_local hdl).anywhere

------------------------------------------------------------
-- Calls and Timers
------------------------------------------------------------

/- Only what a step does with the limiter. -/
def Limits
    (may : LimiterOp → Prop)
    (w : WsServer)
    (_ : List ServerEffect)
    (w' : WsServer) : Prop :=
  UsesLimiter may w w'

theorem composes_limits (may : LimiterOp → Prop) :
    Composes (Limits may) where
  refl := fun _ => usesLimiter_same rfl
  trans := fun hFirst hSecond =>
    UsesLimiter.trans hFirst hSecond

theorem Local.limits
    {α : Type}
    {act : ServerAction α}
    (hLocal : Local may hdl act) :
    Ensures (Limits may) act :=
  hLocal.mono (fun _ _ _ hTouches => hTouches.limiter)

theorem get_limits :
    Ensures (Limits may)
      (Action.get : ServerAction WsServer) :=
  Ensures.get (composes_limits may).refl

theorem asyncRequest_limits
    (input : RequestInput)
    (hdl : Hdl)
    (payload : Payload)
    (timeoutMs : UInt32) :
    Ensures (Limits may)
      (asyncRequest S input hdl payload timeoutMs) := by
  apply Ensures.bind get_limits
  intro w
  split
  · exact Ensures.throw _
  · apply Ensures.bind
      (Ensures.atomic (fun _ => usesLimiter_same rfl))
    intro requestId
    apply Ensures.bind (Ensures.ofExcept _)
    intro request
    apply Ensures.bind
      (registerRequest_local hdl _ _ _).limits
    intro _
    refine Ensures.bind ?_ (fun _ => Ensures.pure _)
    apply Ensures.catchAll (send_local S _ _).limits
    intro e
    exact
      Ensures.bind
        (failRequest_local hdl _ _).limits
        (fun _ => Ensures.throw e)

theorem takeStreamId_limits :
    Ensures (Limits may) takeStreamId :=
  Ensures.atomic (fun _ => usesLimiter_same rfl)

theorem startStream_limits
    (nonce : Nonce)
    (hdl : Hdl) :
    Ensures (Limits may) (startStream S nonce hdl) := by
  apply Ensures.bind takeStreamId_limits
  intro streamId
  apply Ensures.bind (registerStream_local _).limits
  intro ref
  apply Ensures.bind get_limits
  intro w
  apply Ensures.bind (Ensures.ofExcept _)
  intro start
  exact
    Ensures.bind (send_local S nonce start).limits
      (fun _ => Ensures.pure ref)

theorem startStreamWith_limits
    (nonce : Nonce)
    (hdl : Hdl)
    (streamOpCode : OpCode) :
    Ensures (Limits may)
      (startStreamWith S nonce hdl streamOpCode) := by
  apply Ensures.bind takeStreamId_limits
  intro streamId
  apply Ensures.bind (registerStream_local _).limits
  intro ref
  apply Ensures.bind get_limits
  intro w
  split
  · exact Ensures.throw _
  · apply Ensures.bind (Ensures.ofExcept _)
    intro start
    exact
      Ensures.bind (send_local S nonce start).limits
        (fun _ => Ensures.pure ref)

theorem streamCall_limits
    (nonce : Nonce)
    (build :
      Stream ServerSendFn → Except Exception Payload)
    (ref : StreamRef) :
    Ensures (Limits may) (streamCall S nonce build ref) := by
  apply Ensures.bind get_limits
  intro w
  split
  · exact Ensures.pure ()
  · next stream _ =>
      refine Ensures.catchAll ?_ (fun _ => Ensures.pure ())
      apply Ensures.bind (Ensures.ofExcept _)
      intro payload
      split
      · cases stream.sendFn with
        | send hdl =>
            exact (send_local S nonce payload).limits
        | sendAnonymous hdl =>
            exact (sendAnonymous_local S nonce payload).limits
      · exact Ensures.pure ()

theorem register_limits
    (registration : Registration)
    (callback : Option HandlerId) :
    Ensures (Limits may) (register callback registration) := by
  cases registration <;>
    exact Ensures.modify (fun _ => usesLimiter_same rfl)

/- The public methods do not use the limiter. -/
theorem call_limits (method : PublicCall) :
    Ensures (Limits may) (call S method) := by
  cases method with
  | send nonce hdl payload =>
      exact (send_local S nonce payload).limits
  | sendAnonymous nonce hdl payload =>
      exact (sendAnonymous_local S nonce payload).limits
  | sendResponse nonce hdl requestId payload =>
      exact (sendResponse_local S nonce requestId payload).limits
  | sendToIdentity nonce identityPk payload =>
      apply Ensures.bind get_limits
      intro w
      apply Ensures.bind (Ensures.ofExcept _)
      intro hdl
      exact (send_local S nonce payload).limits
  | asyncRequest input hdl payload timeoutMs =>
      exact
        Ensures.bind
          (asyncRequest_limits S input hdl payload timeoutMs)
          (fun _ => Ensures.pure ())
  | asyncRequestToIdentity input identityPk payload =>
      refine Ensures.bind ?_ (fun _ => Ensures.pure ())
      apply Ensures.bind get_limits
      intro w
      apply Ensures.bind (Ensures.ofExcept _)
      intro hdl
      exact asyncRequest_limits S input hdl payload 0
  | startStream nonce hdl =>
      exact
        Ensures.bind (startStream_limits S nonce hdl)
          (fun _ => Ensures.pure ())
  | startStreamWith nonce hdl streamOpCode =>
      exact
        Ensures.bind
          (startStreamWith_limits S nonce hdl streamOpCode)
          (fun _ => Ensures.pure ())
  | streamWrite nonce data ref =>
      exact streamCall_limits S nonce _ ref
  | streamEnd nonce ref =>
      exact streamCall_limits S nonce _ ref
  | streamCancel nonce ref =>
      exact streamCall_limits S nonce _ ref
  | register registration callback =>
      exact register_limits registration callback

theorem closeQuietly_limits
    (hdls : List Hdl)
    (status : CloseStatus)
    (reason : String) :
    Ensures (Limits may) (closeQuietly hdls status reason) :=
  Ensures.atomic (fun _ => usesLimiter_same rfl)

/- The timer cleans the limiter up once, in the end. -/
theorem checkTimeouts_limits (input : IoInput) :
    Ensures (Limits (· = .cleanup (nowMs (input.clock 2))))
      (checkTimeouts input) := by
  refine Ensures.bind ?_ (fun _ => Ensures.bind ?_ ?_)
  · apply Ensures.bind get_limits
    intro w
    dsimp only
    split
    · exact closeQuietly_limits _ _ _
    · exact Ensures.pure ()
  · apply Ensures.atomic
    intro w
    rw [Action.run_get_bind]
    dsimp only
    split
    · rw [closeQuietly_run_bind]
      exact usesLimiter_same rfl
    · exact usesLimiter_same rfl
  · intro _
    apply Ensures.bind
      (Ensures.atomic (fun _ => usesLimiter_same rfl))
    intro _
    apply Ensures.atomic
    intro w
    exact
      ⟨[.cleanup (nowMs (input.clock 2))], by simp, rfl⟩

/- A message for a stored session is no handshake. -/
theorem onMessage_stored
    {hdl : Hdl}
    {isAuth : Bool}
    {w : WsServer}
    (hStored : (w.sessionTable.table isAuth)[hdl]? ≠ none)
    (input : IoInput)
    (frame : Frame) :
    UsesLimiter (packetMayUse hdl w) w
      ((onMessage S input hdl frame).run w).state := by
  unfold onMessage
  split
  · exact usesLimiter_same rfl
  · have hTouches :=
      (receive_touches S input hdl frame.payload w).limiter
    have hKnown :
        ((receive S input hdl frame.payload).run w).result ≠
          .ok .unknown := by
      intro hUnknown
      have hNone :=
        (receive_spec S input hdl frame.payload w).2 hUnknown
      exact hStored (hNone.2 isAuth)
    cases hRun : (receive S input hdl frame.payload).run w with
    | mk result effects state =>
        rw [hRun] at hTouches hKnown
        cases result with
        | error e =>
            rw [Action.run_bind_error hRun]
            exact hTouches
        | ok received =>
            rw [Action.run_bind_ok hRun]
            cases received with
            | ignored => exact hTouches
            | decrypted isAuth' payload =>
                refine hTouches.trans ?_
                have hDispatch :
                    Local (packetMayUse hdl w) hdl
                      (Action.catchAll
                        (dispatch S input hdl isAuth' payload)
                        (fun _ => pure ())) :=
                  Ensures.catchAll
                    (dispatch_local S input isAuth' payload)
                    (fun _ => Ensures.pure ())
                exact
                  hDispatch.limits.run (composes_limits _)
                    state
            | unknown => exact absurd rfl hKnown

/- Without a session a binary message is a handshake. -/
theorem onMessage_unknown
    {hdl : Hdl}
    {frame : Frame}
    {w : WsServer}
    (hBinary : frame.binary = true)
    (hSessions : w.sessionTable.sessions[hdl]? = none)
    (hAnon : w.sessionTable.anonSessions[hdl]? = none)
    (input : IoInput) :
    ((onMessage S input hdl frame).run w).state =
      ((handshake S input hdl frame.payload).run w).state := by
  have hReceive :
      (receive S input hdl frame.payload).run w =
        { result := .ok .unknown
          effects := []
          state := w } := by
    unfold receive
    rw [Action.run_atomically, Action.run_get_bind]
    simp only [hSessions, hAnon]
    rfl
  unfold onMessage
  rw [hBinary]
  simp only [Bool.not_true, Bool.false_eq_true, if_false]
  rw [Action.run_bind_ok hReceive]
  exact
    Action.state_run_catchAll
      (fun _ _ => by rw [closeHdl_run]) w

theorem stop_limits : Ensures (Limits may) stop := by
  apply Ensures.bind
    (Ensures.modify (fun _ => usesLimiter_same rfl))
  intro _
  apply Ensures.bind
    (Ensures.atomic (fun _ => usesLimiter_same rfl))
  intro _
  refine Ensures.bind ?_ ?_
  · apply Ensures.atomic
    intro w
    rw [Action.run_get_bind, closeQuietly_run_bind,
      closeQuietly_run_bind]
    exact usesLimiter_same rfl
  · intro _
    exact Ensures.modify (fun _ => usesLimiter_same rfl)

end WsServer

/- What an event may ask of the limiter, in whatever state. -/
def ServerEvent.mayUse : ServerEvent → LimiterOp → Prop
| .opened input _, op => WsServer.openMayUse input op
| .message _ _ _, .checkMessageRate _ _ => True
| .message _ _ _, .recordMessage _ _ => True
| .message input _ _, op => WsServer.handshakeMayUse input op
| .closed _ _, .unregisterConnection _ _ => True
| .closed _ _, _ => False
| .timeouts input, op => op = .cleanup (nowMs (input.clock 2))
| .call _, _ => False

namespace WsServer

open Effectful

variable (S : Sodium)

theorem handle_usesLimiter
    (event : ServerEvent)
    (w : WsServer) :
    UsesLimiter event.mayUse w (next S w event) := by
  have hRun
      (hHandle : Ensures (Limits event.mayUse) (handle S event)) :
      UsesLimiter event.mayUse w (next S w event) :=
    hHandle.run (composes_limits _) w
  cases event with
  | opened input hdl =>
      exact hRun (onOpen_touches input hdl).limits
  | message input hdl frame =>
      apply hRun
      refine (onMessage_touches S input hdl frame).mono ?_
      intro w _ w' hTouches
      refine hTouches.limiter.mono ?_
      intro op hMay
      rcases hMay with hPacket | hHandshake
      · cases op with
        | checkMessageRate | recordMessage => exact trivial
        | _ => exact hPacket.elim
      · cases op with
        | checkMessageRate | recordMessage => exact trivial
        | _ => exact hHandshake
  | closed input hdl =>
      apply hRun
      refine (onClose_touches input hdl).mono ?_
      intro w _ w' hTouches
      refine hTouches.limiter.mono ?_
      intro op hMay
      cases op with
      | unregisterConnection => exact trivial
      | _ => exact hMay
  | timeouts input => exact hRun (checkTimeouts_limits input)
  | call method => exact hRun (call_limits S method)

end WsServer

end ObscuraProto
