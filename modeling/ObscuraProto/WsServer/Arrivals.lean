import ObscuraProto.WsServer.Frame
import ObscuraProto.WsServer.Pool

/-
  Where the stored connections of a running server come from.

  The first step of a message is the only one that opens a
  packet; later the io thread no longer advances a stored
  session.  So wherever other threads come in between, a
  stored connection is the one of before, perhaps after
  sends, or the one of a packet that was just received, or
  one whose place was free and whose hello was answered.

  Key definitions include:
    * `ServerEvent.mayLater`, `WsServer.Begins`
    * `WsServer.Resent`, `WsServer.Reading`

  Key theorems include:
    * `WsServer.begins_step`
    * `WsServer.Reading.shared`
    * `WsServer.entry_of_step`
-/

namespace ObscuraProto

open Effectful Threads

/- What an event may do after its first step. -/
def ServerEvent.mayLater (event : ServerEvent) : May :=
  { event.may with receives := fun _ _ => False }

namespace WsServer

variable {S : Sodium}

abbrev IoThread :=
  Threads.Thread Exception ServerEffect WsServer IoEvent

------------------------------------------------------------
-- The First Step of a Message
------------------------------------------------------------

/- What a message does with the outcome of its first section. -/
theorem onMessage_answers
    (S : Sodium)
    (input : IoInput)
    (hdl : Hdl)
    {frame : Frame}
    (hBinary : frame.binary = true) :
    ∃ answer : Received → ServerAction Unit,
      onMessage S input hdl frame =
          receive S input hdl frame.payload >>= answer ∧
        (∀ received,
          Moves S (ServerEvent.message input hdl frame).mayLater
            (answer received)) ∧
          ∀ received,
            received ≠ .unknown →
              Moves S plainMay (answer received) := by
  unfold onMessage
  rw [hBinary]
  refine ⟨_, rfl, ?_, ?_⟩
  · intro received
    cases received with
    | ignored => exact .pure ()
    | decrypted isAuth payload =>
        refine .catchAll ?_ (fun _ => .pure ())
        refine
          dispatch_moves S ?_ trivial (fun _ => trivial) input
            isAuth payload
        exact
          fun requestId response =>
            ⟨requestId, response, rfl⟩
    | unknown =>
        exact
          .catchAll
            (handshake_moves S rfl (fun _ _ => trivial)
              (fun _ _ => trivial) input frame.payload)
            (fun _ => closeHdl_moves S _ _ _ _)
  · intro received hKnown
    cases received with
    | ignored => exact .pure ()
    | decrypted isAuth payload =>
        refine .catchAll ?_ (fun _ => .pure ())
        exact
          dispatch_moves S (fun _ _ => trivial) trivial
            (fun _ => trivial) input isAuth payload
    | unknown => exact absurd rfl hKnown

/- The first section of `on_message`, and what follows it. -/
theorem onMessage_first
    (S : Sodium)
    (input : IoInput)
    (hdl : Hdl)
    {frame : Frame}
    (hBinary : frame.binary = true) :
    ∃ rest : Except Exception Received → ServerAction Unit,
      onMessage S input hdl frame =
          .step
            (fun w =>
              ((receive S input hdl frame.payload).run
                w).effects)
            (fun w =>
              ((receive S input hdl frame.payload).run
                w).state)
            (fun w =>
              rest
                ((receive S input hdl frame.payload).run
                  w).result) ∧
        (∀ result,
          Moves S (ServerEvent.message input hdl frame).mayLater
            (rest result)) ∧
          ∀ result,
            result ≠ .ok .unknown →
              Moves S plainMay (rest result) := by
  rcases onMessage_answers S input hdl hBinary with
    ⟨answer, hCode, hAnswer, hPlain⟩
  have hSection :
      receive S input hdl frame.payload =
        Action.atomic
          (receive S input hdl frame.payload).run := by
    unfold receive
    unfold Action.atomically
    congr 1
    funext w
    rw [Action.run_atomic]
  refine
    ⟨fun result => Action.ofExcept result >>= answer, ?_, ?_,
      ?_⟩
  · rw [hCode]
    conv_lhs => rw [hSection]
    rfl
  · exact
      fun result => .bind (.ofExcept result) hAnswer
  · intro result hKnown
    cases result with
    | error e => exact .done _
    | ok received =>
        apply hPlain
        intro hUnknown
        exact hKnown (congrArg Except.ok hUnknown)

/-
  The thread has not begun, or what is left of it does not
  receive.
-/
structure Begins (S : Sodium) (thread : IoThread) : Prop where
  first :
    thread.trace = [] →
      thread.code = handle S thread.call.val
  later :
    thread.trace ≠ [] →
      Moves S thread.call.val.mayLater thread.code

/- No event but a message receives. -/
theorem mayLater_eq
    {event : IoEvent}
    (hOther :
      ∀ input hdl frame,
        event.val ≠ .message input hdl frame) :
    event.val.mayLater = event.val.may := by
  rcases event with ⟨event, hIo⟩
  cases event with
  | message input hdl frame =>
      exact absurd rfl (hOther input hdl frame)
  | opened | closed | timeouts => rfl
  | call method => cases hIo

theorem Begins.advance
    {thread : IoThread}
    {effects : WsServer → List ServerEffect}
    {next : WsServer → WsServer}
    {rest : WsServer → ServerAction Unit}
    (hBegins : Begins S thread)
    (hCode : thread.code = .step effects next rest)
    (w : WsServer) :
    Moves S thread.call.val.mayLater (rest w) := by
  have hMoves
      (hNow : Moves S thread.call.val.mayLater thread.code) :
      Moves S thread.call.val.mayLater (rest w) := by
    rw [hCode] at hNow
    cases hNow with
    | step _ hRest => exact hRest w
  by_cases hFirst : thread.trace = []
  · have hStart := hBegins.first hFirst
    by_cases hMessage :
        ∃ input hdl frame,
          thread.call.val = .message input hdl frame
    · rcases hMessage with ⟨input, hdl, frame, hMessage⟩
      rw [hMessage] at hStart ⊢
      cases hBinary : frame.binary with
      | true =>
          rcases onMessage_first S input hdl hBinary with
            ⟨later, hSection, hLater, _⟩
          rw [hCode] at hStart
          cases hStart.trans hSection
          exact hLater _
      | false =>
          rw [hCode] at hStart
          simp only [handle, onMessage, hBinary,
            Bool.not_false, if_true] at hStart
          cases hStart
    · apply hMoves
      rw [hStart, mayLater_eq]
      · exact handle_moves S _
      · intro input hdl frame hSame
        exact hMessage ⟨input, hdl, frame, hSame⟩
  · exact hMoves (hBegins.later hFirst)

theorem begins_step
    {p q : ServerPool}
    {l : Label ServerCall IoEvent}
    (hBegins :
      ∀ thread, p.events = some thread → Begins S thread)
    (hStep : PoolStep S p l q) :
    ∀ thread, q.events = some thread → Begins S thread := by
  refine Pool.forall_event_step ?_ ?_ hBegins hStep
  · intro event _
    exact ⟨fun _ => rfl, fun hTrace => absurd rfl hTrace⟩
  · intro thread effects next rest hCode hThread
    exact
      ⟨fun hTrace => by simp at hTrace,
        fun _ => hThread.advance hCode p.shared⟩

/- The io thread is about to receive the message. -/
structure Reading
    (p : ServerPool)
    (input : IoInput)
    (hdl : Hdl)
    (frame : Frame) : Prop where
  thread :
    ∃ hIo code,
      p.events =
          some
            { call := ⟨.message input hdl frame, hIo⟩
              trace := []
              code := code } ∧
        ∃ effects next rest, code = .step effects next rest

/- Its step is the first section of `on_message`. -/
theorem Reading.shared
    {p q : ServerPool}
    {input : IoInput}
    {hdl : Hdl}
    {frame : Frame}
    (hReading : Reading p input hdl frame)
    (hBegins :
      ∀ thread, p.events = some thread → Begins S thread)
    (hStep : PoolStep S p .stepEvent q) :
    q.shared =
      ((receive S input hdl frame.payload).run
        p.shared).state := by
  rcases hReading.thread with
    ⟨hIo, code, hThread, effects, next, rest, hCode⟩
  have hStart := (hBegins _ hThread).first rfl
  rcases hStep with ⟨_, hNext⟩
  subst hNext
  subst hCode
  simp only [Pool.exec, Pool.stepEvent, hThread, Pool.advance]
  cases hBinary : frame.binary with
  | true =>
      rcases onMessage_first S input hdl hBinary with
        ⟨later, hSection, _, _⟩
      cases hStart.trans hSection
      rfl
  | false =>
      simp only [handle, onMessage, hBinary, Bool.not_false,
        if_true] at hStart
      cases hStart

------------------------------------------------------------
-- Where Entries Come From
------------------------------------------------------------

/- Only the send counter differs. -/
def Resent (state state' : ConnectionState) : Prop :=
  ∃ c, state' = state.withSendCounter c

theorem Resent.refl (state : ConnectionState) :
    Resent state state :=
  ⟨state.session.sendCounter, rfl⟩

/- The hello of the running message was answered with it. -/
def Established
    (S : Sodium)
    (p : ServerPool)
    (isAuth : Bool)
    (hdl : Hdl)
    (session : Session) : Prop :=
  ∃ thread input frame,
    p.events = some thread ∧
      thread.trace ≠ [] ∧
      thread.call.val = .message input hdl frame ∧
      Welcomes S input frame.payload isAuth session
        thread.trace

theorem Begins.move
    {thread : IoThread}
    {effects : WsServer → List ServerEffect}
    {next : WsServer → WsServer}
    {rest : WsServer → ServerAction Unit}
    (hBegins : Begins S thread)
    (hCode : thread.code = .step effects next rest)
    (hNot :
      thread.trace = [] →
        ∀ input hdl frame,
          thread.call.val ≠ .message input hdl frame)
    (w : WsServer) :
    Move S thread.call.val.mayLater w (effects w)
      (next w) := by
  have hMoves : Moves S thread.call.val.mayLater thread.code := by
    by_cases hFirst : thread.trace = []
    · rw [hBegins.first hFirst, mayLater_eq (hNot hFirst)]
      exact handle_moves S _
    · exact hBegins.later hFirst
  rw [hCode] at hMoves
  cases hMoves with
  | step hMove _ => exact hMove w

/- A step that may not receive keeps entries or adds one. -/
theorem later_entry
    {may : May}
    {w w' : WsServer}
    {effects : List ServerEffect}
    (hMove : Move S may w effects w')
    (hNot : ∀ v v', ¬ may.receives v v')
    {isAuth : Bool}
    {hdl : Hdl}
    {state' : ConnectionState}
    (hEntry :
      (w'.sessionTable.table isAuth)[hdl]? = some state') :
    (∃ state,
        (w.sessionTable.table isAuth)[hdl]? = some state ∧
          Resent state state') ∨
      ((w.sessionTable.table isAuth)[hdl]? = none ∧
        may.establishes hdl) := by
  rcases
    move_entry_of hMove Resent.refl (fun _ => ⟨_, rfl⟩)
      (fun hMay _ => absurd hMay (hNot _ _)) hEntry with
    hKept | ⟨hFree, hMay, _⟩
  · exact Or.inl hKept
  · exact Or.inr ⟨hFree, hMay⟩

theorem callMay_receives (k : ServerCall) :
    ∀ w w', ¬ k.may.receives w w' := by
  intro w w' hMay
  cases k <;> cases hMay

theorem callMay_establishes
    (k : ServerCall)
    (hdl : Hdl) :
    ¬ k.may.establishes hdl := by
  intro hMay
  cases k <;> cases hMay

/- The io thread adds what its trace has a hello for. -/
theorem established_entry
    {p : ServerPool}
    {thread : IoThread}
    {effects : List ServerEffect}
    {w' : WsServer}
    (hLater :
      Move S thread.call.val.mayLater p.shared effects w')
    (hMove :
      Move S (thread.call.val.mayAfter S thread.trace)
        p.shared effects w')
    (hThread : p.events = some thread)
    (hUnread :
      thread.trace = [] →
        ∀ input hdl frame,
          thread.call.val ≠ .message input hdl frame)
    {isAuth : Bool}
    {hdl : Hdl}
    {state' : ConnectionState}
    (hEntry :
      (w'.sessionTable.table isAuth)[hdl]? = some state') :
    (∃ state,
        (p.shared.sessionTable.table isAuth)[hdl]? =
            some state ∧
          Resent state state') ∨
      Established S p isAuth hdl state'.session := by
  rcases later_entry hLater (fun _ _ hMay => hMay) hEntry with
    hKept | ⟨hFree, hMay⟩
  · exact Or.inl hKept
  · apply Or.inr
    rcases hEvent : thread.call with ⟨event, hIo⟩
    rw [hEvent] at hMay hMove hUnread
    cases event with
    | message input hdl' frame =>
        cases hMay
        rcases move_entry hMove (fun _ _ hMay => hMay) hEntry
          with ⟨state, hStored, _⟩ | ⟨_, hWelcomes⟩
        · cases hFree.symm.trans hStored
        · refine
            ⟨thread, input, frame, hThread, ?_, ?_,
              hWelcomes⟩
          · intro hFirst
            exact hUnread hFirst input hdl frame rfl
          · rw [hEvent]
    | opened | closed | timeouts => cases hMay
    | call method => cases hIo

theorem entry_of_step
    {labels : List (Label ServerCall IoEvent)}
    {p q : ServerPool}
    {l : Label ServerCall IoEvent}
    (hSupervised : Supervised S labels p)
    (hBegins :
      ∀ thread, p.events = some thread → Begins S thread)
    (hNot :
      l = .stepEvent →
        ∀ input hdl frame, ¬ Reading p input hdl frame)
    (hStep : PoolStep S p l q)
    {isAuth : Bool}
    {hdl : Hdl}
    {state' : ConnectionState}
    (hEntry :
      (q.shared.sessionTable.table isAuth)[hdl]? =
        some state') :
    (∃ state,
        (p.shared.sessionTable.table isAuth)[hdl]? =
            some state ∧
          Resent state state') ∨
      (l = .stepEvent ∧
        Established S p isAuth hdl state'.session) := by
  rcases hStep with ⟨_, hNext⟩
  subst hNext
  have hIdle
      (hSame : (p.exec (poolProgram S) l).shared = p.shared) :
      ∃ state,
        (p.shared.sessionTable.table isAuth)[hdl]? =
            some state ∧
          Resent state state' := by
    rw [hSame] at hEntry
    exact ⟨state', hEntry, .refl state'⟩
  cases l with
  | call k => exact Or.inl (hIdle rfl)
  | event event => exact Or.inl (hIdle rfl)
  | stepCall i =>
      apply Or.inl
      cases hThread : p.calls[i]? with
      | none =>
          apply hIdle
          simp only [Pool.exec, Pool.stepCall, hThread]
      | some thread =>
          have hMoves :=
            (hSupervised.calls thread
              (List.mem_of_getElem? hThread)).code
          cases hCode : thread.code with
          | done result =>
              apply hIdle
              simp only [Pool.exec, Pool.stepCall, hThread,
                Pool.advance, hCode]
          | step effects next rest =>
              simp only [Pool.exec] at hEntry
              rw [Pool.stepCall_running _ hThread hCode]
                at hEntry
              rw [hCode] at hMoves
              cases hMoves with
              | step hMove _ =>
                  rcases
                    later_entry (hMove p.shared)
                      (callMay_receives thread.call)
                      hEntry with hKept | ⟨_, hMay⟩
                  · exact hKept
                  · exact
                      absurd hMay
                        (callMay_establishes thread.call hdl)
  | stepEvent =>
      cases hThread : p.events with
      | none =>
          apply Or.inl
          apply hIdle
          simp only [Pool.exec, Pool.stepEvent, hThread]
      | some thread =>
          cases hCode : thread.code with
          | done result =>
              apply Or.inl
              apply hIdle
              simp only [Pool.exec, Pool.stepEvent, hThread,
                Pool.advance, hCode]
          | step effects next rest =>
              have hUnread
                  (hFirst : thread.trace = [])
                  (input : IoInput)
                  (hdl : Hdl)
                  (frame : Frame) :
                  thread.call.val ≠
                    .message input hdl frame := by
                intro hMessage
                apply hNot rfl input hdl frame
                rcases thread with ⟨⟨event, hIo⟩, trace, code⟩
                dsimp only at hFirst hMessage hCode
                subst hFirst
                subst hMessage
                exact
                  ⟨hIo, code, hThread, effects, next, rest,
                    hCode⟩
              have hTraces :=
                (hSupervised.events thread hThread).code
              rw [hCode] at hTraces
              simp only [Pool.exec, Pool.stepEvent, hThread,
                Pool.advance, hCode] at hEntry
              cases hTraces with
              | step hMove _ =>
                  rcases
                    established_entry
                      ((hBegins thread hThread).move hCode
                        hUnread p.shared)
                      (hMove p.shared trivial) hThread hUnread
                      hEntry with hKept | hEstablished
                  · exact Or.inl hKept
                  · exact Or.inr ⟨rfl, hEstablished⟩

end WsServer

end ObscuraProto
