import ObscuraProto.Library.Threads
import ObscuraProto.PlainSodium
import ObscuraProto.WsClient.Moves

/-
  The threads of the client, with the history of all steps.

  The io thread handles one event after the other; public
  methods and the iterations of the watchdog run on any other
  threads.  A callback that calls a method is such a thread,
  too: the io thread takes no step until it is done.

  Key definitions include:
    * `ClientIoEvent`, `ClientCall`
    * `WsClient.poolProgram`, `WsClient.PoolStep`
    * `WsClient.Reads`, `WsClient.messageMay`

  Key theorems include:
    * `WsClient.handle_traces`
-/

namespace ObscuraProto

open Effectful Threads

/- What the io thread itself handles. -/
def ClientEvent.isIo : ClientEvent → Bool
| .call _ => false
| .watchdogPass _ => false
| _ => true

abbrev ClientIoEvent :=
  {event : ClientEvent // event.isIo = true}

/- What runs on another thread. -/
inductive ClientCall where
| method (called : WsClient.PublicCall)
| watchdogPass (now : TimePoint)

namespace WsClient

def callCode (S : Sodium) : ClientCall → ClientAction Unit
| .method called => call S called
| .watchdogPass now => watchdogPass now

/- The steps that a thread of the client has taken. -/
abbrev Trace := List (Transition WsClient ClientEffect)

def poolProgram (S : Sodium) :
    Program Exception ClientEffect WsClient Trace ClientCall
      ClientIoEvent where
  callCode := callCode S
  eventCode := fun event => handle S event.val
  note := fun w effects w' history =>
    history ++ [⟨w, effects, w'⟩]

abbrev ClientPool :=
  Pool Exception ClientEffect WsClient Trace ClientCall
    ClientIoEvent

/- Nothing runs yet. -/
def pool (w : WsClient) : ClientPool where
  shared := w
  history := []

abbrev PoolStep (S : Sodium) :
    ClientPool → Label ClientCall ClientIoEvent →
      ClientPool → Prop :=
  Pool.Step (poolProgram S)

def callMay : ClientCall → ClientMay
| .method called => called.may
| .watchdogPass now => (ClientEvent.watchdogPass now).may

theorem callCode_moves
    (S : Sodium)
    (k : ClientCall) :
    Moves S (callMay k) (callCode S k) := by
  cases k with
  | method called => exact call_moves S called
  | watchdogPass now => exact watchdogPass_moves S now

------------------------------------------------------------
-- What a Message Has Shown
------------------------------------------------------------

/- The thread has met such a state. -/
def Seen (P : WsClient → Prop) (trace : Trace) : Prop :=
  ∃ m ∈ trace, P m.before

/-
  The packet was decrypted by the session of the client, and
  what came out is such a message.
-/
def Reads
    (S : Sodium)
    (packet : Bytes)
    (message : Message)
    (trace : Trace) : Prop :=
  ∃ payload,
    Seen
        (fun w =>
          (w.session.decryptPacket S packet).1 = .ok payload)
        trace ∧
      Seen
        (fun w =>
          Message.parse w.config.opcodes payload =
            .ok message)
        trace

/- What a message may do next, after the steps in the trace. -/
def messageMay
    (S : Sodium)
    (input : ClientInput)
    (frame : Frame)
    (trace : Trace) : ClientMay :=
  { (ClientEvent.message input frame).may with
    requests := fun s =>
      s = .disconnects ∨
        ∃ requestId response,
          s = .responds requestId response ∧
            Reads S frame.payload
              (.response requestId response) trace }

/- The permissions that need no past. -/
def plainMay
    (input : ClientInput)
    (frame : Frame) : ClientMay :=
  { (ClientEvent.message input frame).may with
    requests := (· = .disconnects) }

end WsClient

/- What an event may do next, after the steps in the trace. -/
def ClientEvent.mayAfter
    (S : Sodium)
    (trace : WsClient.Trace) : ClientEvent → ClientMay
| .message input frame =>
    WsClient.messageMay S input frame trace
| event => event.may

namespace WsClient

theorem seen_last
    {P : WsClient → Prop}
    {trace : Trace}
    {w w' : WsClient}
    {effects : List ClientEffect}
    (hState : P w) :
    Seen P (trace ++ [⟨w, effects, w'⟩]) :=
  ⟨⟨w, effects, w'⟩, by simp, hState⟩

theorem Seen.append
    {P : WsClient → Prop}
    {trace : Trace}
    (hSeen : Seen P trace)
    (more : Trace) :
    Seen P (trace ++ more) := by
  rcases hSeen with ⟨m, hMem, hState⟩
  exact ⟨m, List.mem_append_left _ hMem, hState⟩

/- More sections may be allowed. -/
theorem ClientMove.withRequests
    {S : Sodium}
    {may : ClientMay}
    {more : ClientRequestSection → Prop}
    (hMore : ∀ s, may.requests s → more s)
    {w w' : WsClient}
    {effects : List ClientEffect}
    (hMove : ClientMove S may w effects w') :
    ClientMove S { may with requests := more } w effects
      w' := by
  cases hMove with
  | reads => exact .reads
  | invokes hMay => exact .invokes hMay
  | encrypts nonce payload hMay =>
      exact .encrypts nonce payload hMay
  | handsOver packet => exact .handsOver packet
  | decrypts packet hMay => exact .decrypts packet hMay
  | requests hMay => exact .requests (hMore _ hMay)
  | takesRequestId hMay => exact .takesRequestId hMay
  | ensuresWatchdog => exact .ensuresWatchdog
  | takesStreamId => exact .takesStreamId
  | registersStream stream hMay =>
      exact .registersStream stream hMay
  | dropsStream streamId hMay =>
      exact .dropsStream streamId hMay
  | registers registration callback hMay =>
      exact .registers registration callback hMay
  | connects uri => exact .connects uri
  | startsThread => exact .startsThread
  | setsIdentity identityKp => exact .setsIdentity identityKp
  | stopsIo => exact .stopsIo
  | closes hdl => exact .closes hdl
  | opens hdl hMay => exact .opens hdl hMay
  | ends hMay => exact .ends hMay
  | releases hMay => exact .releases hMay
  | identifies identityKp hMay =>
      exact .identifies identityKp hMay
  | initiates kx hMay => exact .initiates kx hMay
  | greets hdl hello hMay => exact .greets hdl hello hMay
  | finalizes serverHello hMay =>
      exact .finalizes serverHello hMay

/- Short for: from the trace on, within its permissions. -/
abbrev MessageTraces
    {α : Type}
    (S : Sodium)
    (input : ClientInput)
    (frame : Frame)
    (trace : Trace)
    (act : ClientAction α) : Prop :=
  Traces (fun _ => True)
    (fun trace =>
      ClientMove S (messageMay S input frame trace))
    (fun _ => True) trace act

variable {S : Sodium}
variable {input : ClientInput}
variable {frame : Frame}

theorem plain_traces
    {α : Type}
    {act : ClientAction α}
    (hAct : Moves S (plainMay input frame) act)
    (trace : Trace) :
    MessageTraces S input frame trace act := by
  refine
    .of_ensures hAct ?_ (fun _ => trivial) trace
  intro trace w effects w' hMove
  exact ClientMove.withRequests (fun _ => Or.inl) hMove

theorem get_bind_traces
    {β : Type}
    {trace : Trace}
    {g : WsClient → ClientAction β}
    (hNext :
      ∀ w,
        MessageTraces S input frame
          (trace ++ [⟨w, [], w⟩]) (g w)) :
    MessageTraces S input frame trace
      (Action.get >>= g) := by
  refine .atomic_bind (fun _ _ => .reads) ?_
  intro w w' _ hRead
  cases hRead
  exact hNext w

------------------------------------------------------------
-- Every Event
------------------------------------------------------------

/- Only a response needs to have been read. -/
theorem dispatch_traces
    {payload : Payload}
    {trace : Trace}
    (hDecrypted :
      Seen
        (fun w =>
          (w.session.decryptPacket S frame.payload).1 =
            .ok payload)
        trace) :
    MessageTraces S input frame trace
      (dispatch S input payload) := by
  refine get_bind_traces ?_
  intro w
  refine .ofExcept_bind ?_
  intro message hMessage
  have hInvokes (callback : ClientCallback)
      (hNot : ∀ handler, callback ≠ .disconnect handler) :
      (plainMay input frame).invokes callback :=
    hNot
  cases message with
  | response requestId response =>
      refine .step ?_ (fun _ _ => .returned () trivial)
      intro w' _
      exact
        .requests (s := .responds requestId response)
          (Or.inr
            ⟨requestId, response, rfl, payload,
              hDecrypted.append _, seen_last hMessage⟩)
  | streamStart streamId opCode =>
      apply plain_traces
      exact
        dispatchStreamStart_moves S trivial
          (fun _ _ => hInvokes _ (by simp)) input streamId
          opCode
  | streamData streamId data =>
      apply plain_traces
      exact
        Ensures.bind (findStream_moves S _)
          (fun _ =>
            dispatchStream_moves S
              (fun _ => hInvokes _ (by simp)) _ _ _)
  | streamEnd streamId =>
      apply plain_traces
      exact
        Ensures.bind (findStream_moves S _)
          (fun _ =>
            dispatchStream_moves S
              (fun _ => hInvokes _ (by simp)) _ _ _)
  | streamCancel streamId =>
      apply plain_traces
      exact
        Ensures.bind (takeStream_moves S trivial _)
          (fun _ =>
            dispatchStream_moves S
              (fun _ => hInvokes _ (by simp)) _ _ _)
  | application payload =>
      apply plain_traces
      exact
        dispatchPayload_moves S trivial
          (fun _ _ => hInvokes _ (by simp))
          (fun _ _ => hInvokes _ (by simp)) input payload

theorem disconnect_traces (trace : Trace) :
    MessageTraces S input frame trace (disconnect true) :=
  plain_traces (disconnect_moves S trivial rfl true) trace

/- A payload that is too large ends the connection. -/
theorem decrypted_traces
    {payload : Payload}
    {trace : Trace}
    (hDecrypted :
      Seen
        (fun w =>
          (w.session.decryptPacket S frame.payload).1 =
            .ok payload)
        trace) :
    MessageTraces S input frame trace
      (do
        let w ← Action.get
        if w.config.payloadTooLarge payload then
          disconnect true
        else
          dispatch S input payload) := by
  refine get_bind_traces ?_
  intro w
  split
  · exact disconnect_traces _
  · exact dispatch_traces (hDecrypted.append _)

theorem onMessage_traces
    (S : Sodium)
    (input : ClientInput)
    (frame : Frame) :
    MessageTraces S input frame []
      (onMessage S input frame) := by
  unfold onMessage
  split
  · exact .returned () trivial
  · refine .catchAll ?_ (fun _ _ => disconnect_traces _)
    refine get_bind_traces ?_
    intro w
    split
    · apply plain_traces
      refine finishHandshake_moves S trivial ?_ input _
      exact fun handler => by simp [plainMay, ClientEvent.may]
    · refine
        .atomic_bind
          (fun _ _ => .decrypts frame.payload trivial) ?_
      intro w' payload _ hPayload
      exact decrypted_traces (seen_last hPayload)

/- Every step of an event, with what its thread has done. -/
theorem handle_traces
    (S : Sodium)
    (event : ClientEvent) :
    Traces (fun _ => True)
      (fun trace => ClientMove S (event.mayAfter S trace))
      (fun _ => True) [] (handle S event) := by
  have hPlain
      (hSame : ∀ trace, event.mayAfter S trace = event.may) :
      Traces (fun _ => True)
        (fun trace => ClientMove S (event.mayAfter S trace))
        (fun _ => True) [] (handle S event) := by
    apply Traces.of_ensures (handle_moves S event)
    · intro trace w effects w' hMove
      rw [hSame trace]
      exact hMove
    · exact fun _ => trivial
  cases event with
  | message input frame => exact onMessage_traces S input frame
  | opened | closed | failed | watchdogPass | call =>
      exact hPlain (fun _ => rfl)

------------------------------------------------------------
-- Sample Runs
------------------------------------------------------------

open PlainSodium

def sample : WsClient :=
  new (sampleKeyPair 6) Config.withDefaults true

/- Nothing outside fails. -/
def smooth (kx : KxKeyPair) : ClientInput where
  kx := kx
  nonce := .zero
  transmit := .ok ()
  requestAnswer := .ok { opCode := 0, parameters := [] }
  callbackAnswer := .ok ()

/- The reply of the server, with the ephemeral key 2. -/
def welcome : ServerHello where
  selectedVersion := Versions.v1_1
  ephemeralPk := ⟨List.replicate 32 2⟩
  signature :=
    ⟨signature (List.replicate 32 6) (List.replicate 32 2)⟩

/- A connection opens and its handshake is completed. -/
def connected : List (Label ClientCall ClientIoEvent) :=
  [.event ⟨.opened (smooth (sampleKx 1)) 1, rfl⟩] ++
    List.replicate 5 .stepEvent ++
    [ .event
        ⟨.message (smooth (sampleKx 1))
          { payload := welcome.serialize }, rfl⟩ ] ++
    List.replicate 4 .stepEvent

end WsClient

end ObscuraProto
