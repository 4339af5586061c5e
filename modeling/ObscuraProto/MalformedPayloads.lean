import ObscuraProto.Messages
import ObscuraProto.ParamGrammar
import ObscuraProto.WsServer.Changes

/-
  Payloads whose parameters do not parse.

  The reads of a branch of `on_message` succeed exactly on
  the parameters that begin with the fields of its message.
  All of them come before the first change and the first
  callback, so a payload that decrypts and does not parse
  ends in the handler that swallows the exception.

  Key definitions include:
    * `MalformedPayloads.Required`
    * `MalformedPayloads.Malformed`
    * `MalformedPayloads.Inert`

  Key theorems include:
    * `MalformedPayloads.parse_iff`
    * `MalformedPayloads.receive_run_decrypted`
    * `MalformedPayloads.dispatch_malformed`
    * `MalformedPayloads.malformed_inert`
-/

namespace ObscuraProto

open Framing (Begins)

------------------------------------------------------------
-- Reads
------------------------------------------------------------

namespace PayloadReader

/- A read returns exactly in front of a field. -/
theorem readParamBytes_cases (r : PayloadReader) :
    (∃ param r',
        r.readParamBytes = (.ok param, r') ∧
          Begins 2 param.length r.remaining r'.remaining) ∨
      ∃ e r',
        r.readParamBytes = (.error e, r') ∧
          ∀ n rest, ¬ Begins 2 n r.remaining rest := by
  cases hSplit : Framing.split 2 r.remaining with
  | none =>
      rcases readParamBytes_of_short hSplit with
        ⟨e, r', hRead⟩
      refine Or.inr ⟨e, r', hRead, ?_⟩
      intro n rest hBegins
      rcases Framing.begins_iff.mp hBegins with
        ⟨content, hFound, _⟩
      rw [hSplit] at hFound
      cases hFound
  | some found =>
      rcases readParamBytes_of_split hSplit with
        ⟨hRead, hRest⟩
      refine Or.inl ⟨_, _, hRead, ?_⟩
      rw [hRest]
      exact Framing.begins_iff.mpr ⟨_, hSplit, rfl⟩

theorem readParamWidth_cases
    (width : Nat)
    (r : PayloadReader) :
    (∃ param r',
        r.readParamWidth width = (.ok param, r') ∧
          Begins 2 width r.remaining r'.remaining) ∨
      ∃ e r',
        r.readParamWidth width = (.error e, r') ∧
          ∀ rest, ¬ Begins 2 width r.remaining rest := by
  unfold readParamWidth
  rcases readParamBytes_cases r with
    ⟨param, r', hRead, hBegins⟩ | ⟨e, r', hRead, hNone⟩
  · by_cases hWidth : param.length = width
    · rw [hWidth] at hBegins
      simp only [hRead, hWidth, ne_eq, not_true_eq_false,
        if_false]
      exact Or.inl ⟨_, _, rfl, hBegins⟩
    · simp only [hRead, ne_eq, if_pos hWidth]
      refine Or.inr ⟨_, _, rfl, ?_⟩
      intro rest hOther
      exact hWidth (hBegins.unique hOther).1
  · simp only [hRead]
    exact Or.inr ⟨_, _, rfl, hNone width⟩

theorem readParamUint32_cases (r : PayloadReader) :
    (∃ n r',
        r.readParamUint32 = (.ok n, r') ∧
          Begins 2 4 r.remaining r'.remaining) ∨
      ∃ e r',
        r.readParamUint32 = (.error e, r') ∧
          ∀ rest, ¬ Begins 2 4 r.remaining rest := by
  unfold readParamUint32
  rcases readParamWidth_cases 4 r with
    ⟨param, r', hRead, hBegins⟩ | ⟨e, r', hRead, hNone⟩
  · simp only [hRead]
    exact Or.inl ⟨_, _, rfl, hBegins⟩
  · simp only [hRead]
    exact Or.inr ⟨_, _, rfl, hNone⟩

theorem readParamUint16_cases (r : PayloadReader) :
    (∃ n r',
        r.readParamUint16 = (.ok n, r') ∧
          Begins 2 2 r.remaining r'.remaining) ∨
      ∃ e r',
        r.readParamUint16 = (.error e, r') ∧
          ∀ rest, ¬ Begins 2 2 r.remaining rest := by
  unfold readParamUint16
  rcases readParamWidth_cases 2 r with
    ⟨param, r', hRead, hBegins⟩ | ⟨e, r', hRead, hNone⟩
  · simp only [hRead]
    exact Or.inl ⟨_, _, rfl, hBegins⟩
  · simp only [hRead]
    exact Or.inr ⟨_, _, rfl, hNone⟩

end PayloadReader

namespace MalformedPayloads

open Effectful WsServer PayloadReader

------------------------------------------------------------
-- What a Message Requires
------------------------------------------------------------

/-
  The fields a message begins with, by its kind; what stands
  behind them is not read.
-/
def Required : MessageKind → Bytes → Prop
| .response, bytes =>
    ∃ rest n rest',
      Begins 2 4 bytes rest ∧
        2 ≤ n ∧ Begins 2 n rest rest'
| .streamStart, bytes =>
    ∃ rest,
      Begins 2 4 bytes rest ∧
        (rest = [] ∨ ∃ rest', Begins 2 2 rest rest')
| .streamData, bytes =>
    ∃ rest n rest',
      Begins 2 4 bytes rest ∧ Begins 2 n rest rest'
| .streamEnd, bytes => ∃ rest, Begins 2 4 bytes rest
| .streamCancel, bytes => ∃ rest, Begins 2 4 bytes rest
| .application, _ => True

/- An exception is no message. -/
theorem refused
    {e : Exception}
    {P : Prop}
    (hNot : ¬ P) :
    (∃ m : Message, Except.error e = .ok m) ↔ P := by
  refine iff_of_false ?_ hNot
  rintro ⟨m, hError⟩
  cases hError

theorem parseStreamId_iff
    (message : UInt32 → Message)
    (payload : Payload) :
    (∃ m, Message.parseStreamId message payload = .ok m) ↔
      ∃ rest, Begins 2 4 payload.parameters rest := by
  unfold Message.parseStreamId
  rcases readParamUint32_cases (.new payload) with
    ⟨n, r', hRead, hBegins⟩ | ⟨e, r', hRead, hNone⟩
  · simp only [hRead]
    exact iff_of_true ⟨_, rfl⟩ ⟨_, hBegins⟩
  · simp only [hRead]
    apply refused
    rintro ⟨rest, hBegins⟩
    exact hNone rest hBegins

theorem parseStreamData_iff (payload : Payload) :
    (∃ m, Message.parseStreamData payload = .ok m) ↔
      Required .streamData payload.parameters := by
  unfold Message.parseStreamData
  rcases readParamUint32_cases (.new payload) with
    ⟨n, r', hRead, hBegins⟩ | ⟨e, r', hRead, hNone⟩
  · simp only [hRead]
    rcases readParamBytes_cases r' with
      ⟨data, r'', hData, hField⟩ | ⟨e, r'', hData, hNoData⟩
    · simp only [hData]
      exact iff_of_true ⟨_, rfl⟩ ⟨_, _, _, hBegins, hField⟩
    · simp only [hData]
      apply refused
      rintro ⟨rest, n, rest', hFirst, hSecond⟩
      rw [← (hBegins.unique hFirst).2] at hSecond
      exact hNoData n rest' hSecond
  · simp only [hRead]
    apply refused
    rintro ⟨rest, n, rest', hFirst, _⟩
    exact hNone rest hFirst

theorem parseResponse_iff (payload : Payload) :
    (∃ m, Message.parseResponse payload = .ok m) ↔
      Required .response payload.parameters := by
  unfold Message.parseResponse
  rcases readParamUint32_cases (.new payload) with
    ⟨n, r', hRead, hBegins⟩ | ⟨e, r', hRead, hNone⟩
  · simp only [hRead]
    rcases readParamBytes_cases r' with
      ⟨data, r'', hData, hField⟩ | ⟨e, r'', hData, hNoData⟩
    · simp only [hData, Payload.deserialize]
      by_cases hShort : data.length < 2
      · simp only [if_pos hShort]
        apply refused
        rintro ⟨rest, n, rest', hFirst, hLong, hSecond⟩
        rw [← (hBegins.unique hFirst).2] at hSecond
        have hLength := (hField.unique hSecond).1
        omega
      · simp only [if_neg hShort]
        exact
          iff_of_true ⟨_, rfl⟩
            ⟨_, _, _, hBegins, Nat.le_of_not_lt hShort,
              hField⟩
    · simp only [hData]
      apply refused
      rintro ⟨rest, n, rest', hFirst, _, hSecond⟩
      rw [← (hBegins.unique hFirst).2] at hSecond
      exact hNoData n rest' hSecond
  · simp only [hRead]
    apply refused
    rintro ⟨rest, n, rest', hFirst, _⟩
    exact hNone rest hFirst

theorem parseStreamStart_iff (payload : Payload) :
    (∃ m, Message.parseStreamStart payload = .ok m) ↔
      Required .streamStart payload.parameters := by
  unfold Message.parseStreamStart
  rcases readParamUint32_cases (.new payload) with
    ⟨n, r', hRead, hBegins⟩ | ⟨e, r', hRead, hNone⟩
  · simp only [hRead]
    by_cases hMore : r'.hasMore = true
    · have hSome := r'.hasMore_iff.mp hMore
      simp only [if_pos hMore]
      rcases readParamUint16_cases r' with
        ⟨opCode, r'', hCode, hField⟩ |
          ⟨e, r'', hCode, hNoCode⟩
      · simp only [hCode]
        exact
          iff_of_true ⟨_, rfl⟩
            ⟨_, hBegins, Or.inr ⟨_, hField⟩⟩
      · simp only [hCode]
        apply refused
        rintro ⟨rest, hFirst, hSecond⟩
        rw [← (hBegins.unique hFirst).2] at hSecond
        rcases hSecond with hNil | ⟨rest', hOther⟩
        · exact hSome hNil
        · exact hNoCode rest' hOther
    · have hNil : r'.remaining = [] := by
        by_contra hSome
        exact hMore (r'.hasMore_iff.mpr hSome)
      simp only [if_neg hMore]
      exact
        iff_of_true ⟨_, rfl⟩ ⟨_, hBegins, Or.inl hNil⟩
  · simp only [hRead]
    apply refused
    rintro ⟨rest, hFirst, _⟩
    exact hNone rest hFirst

/- A payload parses exactly if it has the required fields. -/
theorem parse_iff
    (oc : ReservedOpcodes)
    (payload : Payload) :
    (∃ m, Message.parse oc payload = .ok m) ↔
      Required (oc.classify payload.opCode)
        payload.parameters := by
  unfold Message.parse
  cases oc.classify payload.opCode with
  | response => exact parseResponse_iff payload
  | streamStart => exact parseStreamStart_iff payload
  | streamData => exact parseStreamData_iff payload
  | streamEnd => exact parseStreamId_iff .streamEnd payload
  | streamCancel =>
      exact parseStreamId_iff .streamCancel payload
  | application => exact iff_of_true ⟨_, rfl⟩ trivial

------------------------------------------------------------
-- The First Section
------------------------------------------------------------

variable (S : Sodium)

/- The entry that `on_message` finds for a connection. -/
structure Found
    (hdl : Hdl)
    (isAuth : Bool)
    (state : ConnectionState)
    (w : WsServer) : Prop where
  stored : (w.sessionTable.table isAuth)[hdl]? = some state
  first : isAuth = false → w.sessionTable.sessions[hdl]? = none

/- The message rate of a connection is not exceeded. -/
def RateAllows
    (input : IoInput)
    (state : ConnectionState)
    (w : WsServer) : Prop :=
  w.config.rateLimit.enabled = true →
    (w.rateLimiter.checkMessageRate state.rateLimiterId
      (nowUs (input.clock 0))).1 = true

theorem limiterCheck_run_allowed
    {check : RateLimiter → Bool × RateLimiter}
    {w : WsServer}
    (hAllowed :
      w.config.rateLimit.enabled = true →
        (check w.rateLimiter).1 = true) :
    ∃ rl,
      (limiterCheck check).run w =
        { result := .ok true
          effects := []
          state := { w with rateLimiter := rl } } := by
  unfold limiterCheck
  rw [Action.run_get_bind]
  split
  · next hEnabled =>
      refine ⟨(check w.rateLimiter).2, ?_⟩
      simp only [limiter, Action.run_atomic,
        hAllowed hEnabled]
  · exact ⟨w.rateLimiter, rfl⟩

/- A payload that fits is kept. -/
theorem keepPayload_run_fits
    (input : IoInput)
    (hdl : Hdl)
    (isAuth : Bool)
    (connId : UInt64)
    {payload : Payload}
    {w : WsServer}
    (hSize : w.config.payloadTooLarge payload = false) :
    ∃ rl,
      (keepPayload input hdl isAuth connId payload).run w =
        { result := .ok (.decrypted isAuth payload)
          effects := []
          state :=
            { w with
              rateLimiter := rl
              sessionTable :=
                w.sessionTable.touch isAuth hdl
                  (nowMs (input.clock 2)) } } := by
  unfold keepPayload
  rw [Action.run_get_bind, if_neg (by rw [hSize]; simp)]
  rcases limiterRecord_run
      (fun rl =>
        rl.recordMessage_counts connId
          (nowUs (input.clock 1))) w with
    ⟨rl, hRecord, _⟩
  rw [Action.run_bind_ok hRecord, Action.run_modify_bind]
  exact ⟨rl, rfl⟩

/- The packet opens, and the size of its payload is next. -/
theorem accept_run_opened
    (input : IoInput)
    (hdl : Hdl)
    (isAuth : Bool)
    {state : ConnectionState}
    {packet : Bytes}
    {payload : Payload}
    (hOpens :
      (state.session.decryptPacket S packet).1 = .ok payload)
    (w : WsServer) :
    ∃ counter,
      (accept S input hdl packet isAuth state).run w =
        (keepPayload input hdl isAuth state.rateLimiterId
          payload).run
          { w with
            sessionTable :=
              w.sessionTable.store isAuth hdl
                (ConnectionState.received counter
                  state.lastActivityMs state) } := by
  rcases Session.decryptPacket_cases S state.session packet
    with ⟨e, hRejected⟩ |
      ⟨keys, opened, hReady, hOpened, hNewer, hAccepted⟩
  · rw [hRejected] at hOpens
    cases hOpens
  · have hPayload : opened.payload = payload := by
      rw [hAccepted] at hOpens
      exact Except.ok.inj hOpens
    have hDecrypt :
        (decrypt S hdl packet isAuth state).run w =
          { result := .ok payload
            effects := []
            state :=
              { w with
                sessionTable :=
                  w.sessionTable.store isAuth hdl
                    (ConnectionState.received opened.counter
                      state.lastActivityMs state) } } := by
      simp only [decrypt, Action.run_atomic, hAccepted,
        hPayload]
      rfl
    refine ⟨opened.counter, ?_⟩
    unfold accept
    rw [Action.run_bind_ok hDecrypt]
    rfl

/- The checks before are passed, and exceptions swallowed. -/
theorem receive_run_opened
    {input : IoInput}
    {hdl : Hdl}
    {isAuth : Bool}
    {state : ConnectionState}
    {packet : Bytes}
    {payload : Payload}
    {w : WsServer}
    (hFound : Found hdl isAuth state w)
    (hRate : RateAllows input state w)
    (hOpens :
      (state.session.decryptPacket S packet).1 =
        .ok payload) :
    ∃ rl counter,
      (receive S input hdl packet).run w =
        (Action.catchAll
          (keepPayload input hdl isAuth state.rateLimiterId
            payload)
          (fun _ => pure .ignored)).run
          { w with
            rateLimiter := rl
            sessionTable :=
              w.sessionTable.store isAuth hdl
                (ConnectionState.received counter
                  state.lastActivityMs state) } := by
  have hFrom :
      (receive S input hdl packet).run w =
        (receiveFrom S input hdl packet isAuth state).run
          w := by
    unfold receive
    rw [Action.run_atomically, Action.run_get_bind]
    cases isAuth with
    | true =>
        have hStored : w.sessionTable.sessions[hdl]? = _ :=
          hFound.stored
        simp only [hStored]
    | false =>
        have hStored :
            w.sessionTable.anonSessions[hdl]? = _ :=
          hFound.stored
        simp only [hFound.first rfl, hStored]
  have hComplete :
      state.session.isHandshakeComplete = true := by
    rcases Session.decryptPacket_cases S state.session packet
      with ⟨e, hRejected⟩ | ⟨keys, _, hReady, _⟩
    · rw [hRejected] at hOpens
      cases hOpens
    · exact hReady.complete
  rcases limiterCheck_run_allowed hRate with ⟨rl, hCheck⟩
  rcases accept_run_opened S input hdl isAuth hOpens
      { w with rateLimiter := rl } with ⟨counter, hAccept⟩
  refine ⟨rl, counter, ?_⟩
  rw [hFrom]
  unfold receiveFrom
  simp only [hComplete, Bool.not_true, Bool.false_eq_true,
    if_false]
  rw [Action.run_bind_ok hCheck]
  simp only [Bool.not_true, Bool.false_eq_true,
    if_false, Action.run_catchAll_pure, hAccept]
  rfl

/- The payload is passed on, and its receipt is recorded. -/
theorem receive_run_decrypted
    {input : IoInput}
    {hdl : Hdl}
    {isAuth : Bool}
    {state : ConnectionState}
    {packet : Bytes}
    {payload : Payload}
    {w : WsServer}
    (hFound : Found hdl isAuth state w)
    (hRate : RateAllows input state w)
    (hOpens :
      (state.session.decryptPacket S packet).1 = .ok payload)
    (hSize : w.config.payloadTooLarge payload = false) :
    ∃ rl counter,
      (receive S input hdl packet).run w =
        { result := .ok (.decrypted isAuth payload)
          effects := []
          state :=
            { w with
              rateLimiter := rl
              sessionTable :=
                w.sessionTable.store isAuth hdl
                  (ConnectionState.received counter
                    (nowMs (input.clock 2)) state) } } := by
  rcases receive_run_opened S hFound hRate hOpens with
    ⟨rl, counter, hReceive⟩
  have hKeep :=
    keepPayload_run_fits input hdl isAuth state.rateLimiterId
      (w :=
        { w with
          rateLimiter := rl
          sessionTable :=
            w.sessionTable.store isAuth hdl
              (ConnectionState.received counter
                state.lastActivityMs state) }) hSize
  rcases hKeep with ⟨rl', hKeep⟩
  refine ⟨rl', counter, ?_⟩
  rw [hReceive, Action.run_catchAll_pure, hKeep]
  simp only [SessionTable.touch_store]
  rfl

------------------------------------------------------------
-- Dispatch
------------------------------------------------------------

/-
  The fields of the message are missing, or the identifier
  in front of the parameters of a request is.
-/
inductive Malformed
    (isAuth : Bool)
    (payload : Payload)
    (w : WsServer) : Prop
| message :
    ¬ Required (w.config.opcodes.classify payload.opCode)
        payload.parameters →
      Malformed isAuth payload w
| request (handler : Option HandlerId) :
    w.config.opcodes.classify payload.opCode =
        .application →
      (w.dispatchersOf isAuth).requestHandlers[
          payload.opCode]? = some handler →
        (∀ rest, ¬ Begins 2 4 payload.parameters rest) →
          Malformed isAuth payload w

/- Without its identifier a request is not handled. -/
theorem dispatchPayload_malformed
    (input : IoInput)
    (hdl : Hdl)
    {isAuth : Bool}
    {payload : Payload}
    {handler : Option HandlerId}
    {w : WsServer}
    (hHandler :
      (w.dispatchersOf isAuth).requestHandlers[
          payload.opCode]? = some handler)
    (hNone : ∀ rest, ¬ Begins 2 4 payload.parameters rest) :
    ∃ result,
      (dispatchPayload S input hdl isAuth payload).run w =
        { result := result, effects := [], state := w } := by
  unfold dispatchPayload
  rw [Action.run_get_bind]
  simp only [hHandler]
  cases handler with
  | none => exact ⟨_, rfl⟩
  | some handler =>
      rcases readParamUint32_cases (.new payload) with
        ⟨n, r', _, hBegins⟩ | ⟨e, r', hRead, _⟩
      · exact (hNone _ hBegins).elim
      · simp only [hRead, Action.run_ofExcept_error_bind]
        exact ⟨_, rfl⟩

/- The state is left as it is found, in silence. -/
theorem dispatch_malformed
    (input : IoInput)
    (hdl : Hdl)
    {isAuth : Bool}
    {payload : Payload}
    {w : WsServer}
    (hMalformed : Malformed isAuth payload w) :
    ∃ result,
      (dispatch S input hdl isAuth payload).run w =
        { result := result, effects := [], state := w } := by
  unfold dispatch
  rw [Action.run_get_bind]
  cases hMalformed with
  | message hMissing =>
      cases hParse :
          Message.parse w.config.opcodes payload with
      | error e =>
          rw [Action.run_ofExcept_error_bind]
          exact ⟨_, rfl⟩
      | ok m =>
          exact
            (hMissing
              ((parse_iff _ payload).mp ⟨m, hParse⟩)).elim
  | request handler hKind hHandler hNone =>
      have hParse :
          Message.parse w.config.opcodes payload =
            .ok (.application payload) := by
        simp only [Message.parse, hKind]
      rw [hParse, Action.run_ofExcept_ok_bind]
      exact
        dispatchPayload_malformed S input hdl hHandler hNone

------------------------------------------------------------
-- The Whole Handler
------------------------------------------------------------

/-
  The handler returns; nothing is called, completed, closed
  or sent, and requests, streams and the stored session stay.
-/
structure Inert
    (hdl : Hdl)
    (isAuth : Bool)
    (w : WsServer)
    (o : Outcome Exception ServerEffect WsServer Unit) :
    Prop where
  returns : o.result = .ok ()
  silent : o.effects = []
  requests : o.state.requests = w.requests
  streams : o.state.streams = w.streams
  kept :
    ((o.state.sessionTable.table isAuth)[hdl]?).isSome = true

/-
  A payload that decrypts within the limits and does not
  parse as its operation code requires is inert.
-/
theorem malformed_inert
    {input : IoInput}
    {hdl : Hdl}
    {isAuth : Bool}
    {state : ConnectionState}
    {frame : Frame}
    {payload : Payload}
    {w : WsServer}
    (hFound : Found hdl isAuth state w)
    (hBinary : frame.binary = true)
    (hRate : RateAllows input state w)
    (hOpens :
      (state.session.decryptPacket S frame.payload).1 =
        .ok payload)
    (hSize : w.config.payloadTooLarge payload = false)
    (hMalformed : Malformed isAuth payload w) :
    Inert hdl isAuth w
      ((onMessage S input hdl frame).run w) := by
  rcases receive_run_decrypted S hFound hRate hOpens hSize
    with ⟨rl, counter, hReceive⟩
  have hLater :
      Malformed isAuth payload
        { w with
          rateLimiter := rl
          sessionTable :=
            w.sessionTable.store isAuth hdl
              (ConnectionState.received counter
                (nowMs (input.clock 2)) state) } := by
    cases hMalformed with
    | message hMissing => exact .message hMissing
    | request handler hKind hHandler hNone =>
        exact .request handler hKind hHandler hNone
  rcases dispatch_malformed S input hdl hLater with
    ⟨result, hDispatch⟩
  have hRun :
      (onMessage S input hdl frame).run w =
        { result := .ok ()
          effects := []
          state :=
            { w with
              rateLimiter := rl
              sessionTable :=
                w.sessionTable.store isAuth hdl
                  (ConnectionState.received counter
                    (nowMs (input.clock 2)) state) } } := by
    unfold onMessage
    rw [hBinary]
    simp only [Bool.not_true, Bool.false_eq_true, if_false]
    rw [Action.run_bind_ok hReceive]
    simp only [Action.run_catchAll_pure, hDispatch]
    cases result with
    | ok u => rfl
    | error e => rfl
  rw [hRun]
  exact
    { returns := rfl
      silent := rfl
      requests := rfl
      streams := rfl
      kept := by simp }

open PlainSodium

/- The server after a handshake of connection 1. -/
def greeted : WsServer :=
  next plainSodium WsServer.sample (.hello 1 1)

/- A response whose inner payload has one byte. -/
def truncated : Payload :=
  { opCode := OpCode.response
    parameters := [0, 4, 0, 0, 0, 7, 0, 1, 9] }

def truncatedFrame : Frame :=
  { payload :=
      Crypto.packet plainSodium .zero
        truncated 1
        (sessionKey 1 (List.replicate 32 1)
          (List.replicate 32 1)) }

set_option maxRecDepth 8000 in
theorem greeted_stored :
    (greeted.sessionTable.sessions[(1 : Hdl)]?).isSome =
      true := by
  decide

set_option maxRecDepth 8000 in
/- It passes all checks, and ends at its short content. -/
theorem malformed_inert_truncated :
    Inert 1 true greeted
      ((onMessage plainSodium (.smooth (sampleKx 1)) 1
        truncatedFrame).run greeted) := by
  have hFound :
      Found 1 true
        ((greeted.sessionTable.sessions[(1 : Hdl)]?).get
          greeted_stored) greeted :=
    { stored := (Option.some_get greeted_stored).symm
      first := by simp }
  have hOpens :
      (Session.decryptPacket plainSodium
          truncatedFrame.payload
          ((greeted.sessionTable.sessions[(1 : Hdl)]?).get
            greeted_stored).session).1 =
        .ok truncated := rfl
  refine
    malformed_inert plainSodium hFound rfl ?_ hOpens rfl
      (.message ?_)
  · intro _
    decide
  · rw [← parse_iff]
    rintro ⟨m, hParse⟩
    cases hParse

end MalformedPayloads

end ObscuraProto
