import ObscuraProto.WsServer.Traces

/-
  The threads of the server, with the history of all steps.

  The io thread handles one event after the other; public
  methods and `stop` run on any other threads.  A callback
  that calls a method is such a thread, too: the io thread
  takes no step until it is done.  In every run each thread
  keeps to its permissions.

  Key definitions include:
    * `IoEvent`, `WsServer.ServerPool`
    * `WsServer.poolProgram`, `WsServer.PoolStep`
    * `WsServer.Supervised`, `WsServer.PoolMove`

  Key theorems include:
    * `WsServer.Supervised.step`
    * `WsServer.supervised_of_run`
-/

namespace ObscuraProto

open Effectful Threads

/- What the io thread itself handles. -/
def ServerEvent.isIo : ServerEvent → Bool
| .call _ => false
| _ => true

abbrev IoEvent := {event : ServerEvent // event.isIo = true}

namespace WsServer

def poolProgram (S : Sodium) :
    Program Exception ServerEffect WsServer Trace ServerCall
      IoEvent where
  callCode := callCode S
  eventCode := fun event => handle S event.val
  note := fun w effects w' history =>
    history ++ [⟨w, effects, w'⟩]

abbrev ServerPool :=
  Pool Exception ServerEffect WsServer Trace ServerCall
    IoEvent

/- Nothing runs yet. -/
def pool (w : WsServer) : ServerPool where
  shared := w
  history := []

abbrev PoolStep (S : Sodium) :
    ServerPool → Label ServerCall IoEvent →
      ServerPool → Prop :=
  Pool.Step (poolProgram S)

def ServerCall.may : ServerCall → May
| .method called => called.may
| .stop => stopMay

theorem callCode_moves
    (S : Sodium)
    (k : ServerCall) :
    Moves S k.may (callCode S k) := by
  cases k with
  | method method => exact call_moves S method
  | stop => exact stop_moves S

------------------------------------------------------------
-- Tables After a Move
------------------------------------------------------------

/- A stored connection replaces one that was there. -/
theorem store_entry
    {Q : ConnectionState → ConnectionState → Prop}
    (hRefl : ∀ state, Q state state)
    {t : SessionTable}
    {isAuth isAuth' : Bool}
    {hdl hdl' : Hdl}
    {state state' stored : ConnectionState}
    (hStored : (t.table isAuth)[hdl]? = some state)
    (hReplaced : Q state stored)
    (hEntry :
      ((t.store isAuth hdl stored).table isAuth')[hdl']? =
        some state') :
    ∃ state,
      (t.table isAuth')[hdl']? = some state ∧
        Q state state' := by
  by_cases hSide : isAuth' = isAuth
  · subst hSide
    rw [SessionTable.table_store_self] at hEntry
    rcases OrderedMap.of_getElem?_insert hEntry with
      ⟨hHdl, hState⟩ | ⟨_, hOld⟩
    · subst hHdl
      subst hState
      exact ⟨state, hStored, hReplaced⟩
    · exact ⟨state', hOld, hRefl state'⟩
  · rw [Bool.eq_not.mpr hSide, SessionTable.table_store_not]
      at hEntry
    rw [Bool.eq_not.mpr hSide]
    exact ⟨state', hEntry, hRefl state'⟩

/-
  Where a stored connection comes from: it was there, before
  a send or what may be received, or its place was free.
-/
theorem move_entry_of
    {S : Sodium}
    {may : May}
    {w w' : WsServer}
    {effects : List ServerEffect}
    {Q : ConnectionState → ConnectionState → Prop}
    (hMove : Move S may w effects w')
    (hRefl : ∀ state, Q state state)
    (hSends : ∀ state, Q state state.afterSend)
    {isAuth : Bool}
    {hdl : Hdl}
    {state' : ConnectionState}
    (hReceives :
      may.receives w w' →
        (w'.sessionTable.table isAuth)[hdl]? = some state' →
          ∃ state,
            (w.sessionTable.table isAuth)[hdl]? =
                some state ∧
              Q state state')
    (hEntry :
      (w'.sessionTable.table isAuth)[hdl]? = some state') :
    (∃ state,
        (w.sessionTable.table isAuth)[hdl]? = some state ∧
          Q state state') ∨
      ((w.sessionTable.table isAuth)[hdl]? = none ∧
        may.establishes hdl ∧ may.stores isAuth state') := by
  have hSame
      (hTable : w'.sessionTable = w.sessionTable) :
      ∃ state,
        (w.sessionTable.table isAuth)[hdl]? = some state ∧
          Q state state' := by
    rw [hTable] at hEntry
    exact ⟨state', hEntry, hRefl state'⟩
  cases hMove with
  | handsOver nonce payload hStored hReady =>
      exact
        Or.inl (store_entry hRefl hStored (hSends _) hEntry)
  | receives hMay _ => exact Or.inl (hReceives hMay hEntry)
  | registers registration callback _ =>
      cases registration <;> exact Or.inl (hSame rfl)
  | @stores hdl' isAuth' state hMay hStores =>
      by_cases hSide : isAuth = isAuth'
      · subst hSide
        simp only [SessionTable.table_emplace_self] at hEntry
        cases hBefore :
            (w.sessionTable.table isAuth)[hdl]? with
        | some old =>
            rw [OrderedMap.getElem?_insertIfNew_of_present
              hBefore] at hEntry
            cases hEntry
            exact Or.inl ⟨state', rfl, hRefl state'⟩
        | none =>
            rcases OrderedMap.of_getElem?_insertIfNew hEntry
              with ⟨hHdl, hState⟩ | hOld
            · subst hHdl
              subst hState
              exact Or.inr ⟨rfl, hMay, hStores⟩
            · cases hBefore.symm.trans hOld
      · rw [Bool.eq_not.mpr hSide] at hEntry
        simp only [SessionTable.table_emplace_not] at hEntry
        rw [Bool.eq_not.mpr hSide]
        exact Or.inl ⟨state', hEntry, hRefl state'⟩
  | @closesSessions hdl' hMay =>
      rw [closeSession_table, closeSession_table] at hEntry
      apply Or.inl
      refine ⟨state', ?_, hRefl state'⟩
      cases isAuth <;>
        exact (OrderedMap.of_getElem?_erase hEntry).2
  | stopsSessions hMay _ =>
      cases isAuth <;>
        cases Std.ExtTreeMap.getElem?_empty.symm.trans hEntry
  | _ => exact Or.inl (hSame rfl)

theorem move_entry
    {S : Sodium}
    {may : May}
    {w w' : WsServer}
    {effects : List ServerEffect}
    (hMove : Move S may w effects w')
    (hReceives : ∀ v v', may.receives v v' → Advances v v')
    {isAuth : Bool}
    {hdl : Hdl}
    {state' : ConnectionState}
    (hEntry :
      (w'.sessionTable.table isAuth)[hdl]? = some state') :
    (∃ state,
        (w.sessionTable.table isAuth)[hdl]? = some state ∧
          Continues state state') ∨
      (may.establishes hdl ∧ may.stores isAuth state') := by
  have hAdvanced
      (hMay : may.receives w w')
      (hEntry :
        (w'.sessionTable.table isAuth)[hdl]? = some state') :
      ∃ state,
        (w.sessionTable.table isAuth)[hdl]? = some state ∧
          Continues state state' := by
    have hRel := hReceives _ _ hMay isAuth hdl
    rw [hEntry] at hRel
    cases hBefore : (w.sessionTable.table isAuth)[hdl]? with
    | none =>
        rw [hBefore] at hRel
        cases hRel
    | some state =>
        rw [hBefore] at hRel
        cases hRel with
        | some hContinues => exact ⟨state, rfl, hContinues⟩
  rcases
    move_entry_of hMove Continues.refl
      (fun _ => ⟨_, _, _, rfl⟩) hAdvanced hEntry with
    hKept | ⟨_, hStored⟩
  · exact Or.inl hKept
  · exact Or.inr hStored

theorem join_insert
    (table : HandlerTable)
    (opCode opCode' : OpCode)
    (callback : Option HandlerId) :
    (table.insert opCode callback)[opCode']?.join =
      if opCode' = opCode then
        callback
      else
        table[opCode']?.join := by
  split
  · next hSame =>
      rw [hSame, Std.ExtTreeMap.getElem?_insert_self]
      rfl
  · next hOther => rw [OrderedMap.getElem?_insert_of_ne hOther]

/- A registration sets the handler it names, or none. -/
theorem registeredAt_register
    (registration other : Registration)
    (callback : Option HandlerId)
    (w : WsServer) :
    let w' := ((register callback registration).run w).state
    w'.registeredAt other = w.registeredAt other ∨
      (other = registration ∧
        w'.registeredAt other = callback) := by
  dsimp only
  have hJoin
      (f : OpCode → Registration)
      (table : HandlerTable)
      (opCode opCode' : OpCode) :
      (table.insert opCode callback)[opCode']?.join =
          table[opCode']?.join ∨
        (f opCode' = f opCode ∧
          (table.insert opCode callback)[opCode']?.join =
            callback) := by
    rw [join_insert]
    by_cases hSame : opCode' = opCode
    · rw [if_pos hSame, hSame]
      exact Or.inr ⟨rfl, rfl⟩
    · rw [if_neg hSame]
      exact Or.inl rfl
  cases registration with
  | opHandler opCode =>
      cases other with
      | opHandler opCode' =>
          exact
            hJoin .opHandler
              w.dispatchers.opCodeHandlers opCode opCode'
      | _ => exact Or.inl rfl
  | anonOpHandler opCode =>
      cases other with
      | anonOpHandler opCode' =>
          exact
            hJoin .anonOpHandler
              w.anonDispatchers.opCodeHandlers opCode opCode'
      | _ => exact Or.inl rfl
  | requestHandler opCode =>
      cases other with
      | requestHandler opCode' =>
          exact
            hJoin .requestHandler
              w.dispatchers.requestHandlers opCode opCode'
      | _ => exact Or.inl rfl
  | anonRequestHandler opCode =>
      cases other with
      | anonRequestHandler opCode' =>
          exact
            hJoin .anonRequestHandler
              w.anonDispatchers.requestHandlers opCode opCode'
      | _ => exact Or.inl rfl
  | streamHandler opCode =>
      cases other with
      | streamHandler opCode' =>
          exact
            hJoin .streamHandler
              w.dispatchers.streamHandlers opCode opCode'
      | _ => exact Or.inl rfl
  | anonStreamHandler opCode =>
      cases other with
      | anonStreamHandler opCode' =>
          exact
            hJoin .anonStreamHandler
              w.anonDispatchers.streamHandlers opCode opCode'
      | _ => exact Or.inl rfl
  | defaultPayloadHandler =>
      cases other with
      | defaultPayloadHandler => exact Or.inr ⟨rfl, rfl⟩
      | _ => exact Or.inl rfl
  | anonDefaultPayloadHandler =>
      cases other with
      | anonDefaultPayloadHandler => exact Or.inr ⟨rfl, rfl⟩
      | _ => exact Or.inl rfl
  | incomingStreamHandler =>
      cases other with
      | incomingStreamHandler => exact Or.inr ⟨rfl, rfl⟩
      | _ => exact Or.inl rfl
  | _ => cases other <;> exact Or.inl rfl

theorem move_registeredAt
    {S : Sodium}
    {may : May}
    {w w' : WsServer}
    {effects : List ServerEffect}
    (hMove : Move S may w effects w')
    (other : Registration) :
    w'.registeredAt other = w.registeredAt other ∨
      ∃ callback,
        may.registers other callback ∧
          w'.registeredAt other = callback := by
  cases hMove with
  | registers registration callback hMay =>
      rcases registeredAt_register registration other callback
          w with hKept | ⟨hOther, hSet⟩
      · exact Or.inl hKept
      · subst hOther
        exact Or.inr ⟨callback, hMay, hSet⟩
  | receives _ hWithin =>
      rw [hWithin.state]
      cases other <;> exact Or.inl rfl
  | closesSessions _ =>
      unfold closeSession
      split <;> split <;> cases other <;> exact Or.inl rfl
  | _ => cases other <;> exact Or.inl rfl

------------------------------------------------------------
-- Permissions in a Run
------------------------------------------------------------

/- A call keeps to its permissions. -/
structure CallKeeps
    (S : Sodium)
    (labels : List (Label ServerCall IoEvent))
    (thread :
      Threads.Thread Exception ServerEffect WsServer ServerCall) :
    Prop where
  begun : .call thread.call ∈ labels
  code : Moves S thread.call.may thread.code
  past :
    Explained (fun _ => Move S thread.call.may) thread.trace

/- An event keeps to those that its trace gives it. -/
structure EventKeeps
    (S : Sodium)
    (labels : List (Label ServerCall IoEvent))
    (thread :
      Threads.Thread Exception ServerEffect WsServer IoEvent) :
    Prop where
  begun : .event thread.call ∈ labels
  code :
    Traces (fun _ => True)
      (fun trace =>
        Move S (thread.call.val.mayAfter S trace))
      (fun _ => True) thread.trace thread.code
  past :
    Explained
      (fun trace =>
        Move S (thread.call.val.mayAfter S trace))
      thread.trace

structure Supervised
    (S : Sodium)
    (labels : List (Label ServerCall IoEvent))
    (p : ServerPool) : Prop where
  calls : ∀ thread ∈ p.calls, CallKeeps S labels thread
  events :
    ∀ thread, p.events = some thread →
      EventKeeps S labels thread

/- What one step of the pool is, and whose. -/
inductive PoolMove
    (S : Sodium)
    (p q : ServerPool) : Prop
| idle :
    q.shared = p.shared → q.history = p.history →
      PoolMove S p q
| call
    {thread :
      Threads.Thread Exception ServerEffect WsServer ServerCall}
    {effects : List ServerEffect} :
    thread ∈ p.calls →
      Move S thread.call.may p.shared effects q.shared →
        q.history = p.history ++ [⟨p.shared, effects, q.shared⟩] →
          PoolMove S p q
| event
    {thread :
      Threads.Thread Exception ServerEffect WsServer IoEvent}
    {effects : List ServerEffect} :
    p.events = some thread →
      Move S (thread.call.val.mayAfter S thread.trace)
          p.shared effects q.shared →
        q.history = p.history ++ [⟨p.shared, effects, q.shared⟩] →
          PoolMove S p q

variable {S : Sodium}
variable {labels : List (Label ServerCall IoEvent)}

theorem CallKeeps.snoc
    {thread :
      Threads.Thread Exception ServerEffect WsServer ServerCall}
    (hKeeps : CallKeeps S labels thread)
    (l : Label ServerCall IoEvent) :
    CallKeeps S (labels ++ [l]) thread :=
  ⟨List.mem_append_left _ hKeeps.begun, hKeeps.code,
    hKeeps.past⟩

theorem EventKeeps.snoc
    {thread :
      Threads.Thread Exception ServerEffect WsServer IoEvent}
    (hKeeps : EventKeeps S labels thread)
    (l : Label ServerCall IoEvent) :
    EventKeeps S (labels ++ [l]) thread :=
  ⟨List.mem_append_left _ hKeeps.begun, hKeeps.code,
    hKeeps.past⟩

/- Every thread still keeps to its permissions. -/
theorem Supervised.step
    {p q : ServerPool}
    {l : Label ServerCall IoEvent}
    (hSupervised : Supervised S labels p)
    (hStep : PoolStep S p l q) :
    Supervised S (labels ++ [l]) q where
  calls := by
    refine Pool.forall_calls_step ?_ ?_ ?_ hStep
    · intro k hLabel
      subst hLabel
      exact ⟨by simp, callCode_moves S k, .nil⟩
    · intro thread effects next rest hCode hKeeps
      have hMoves := hKeeps.code
      rw [hCode] at hMoves
      cases hMoves with
      | step hMove hRest =>
          exact
            ⟨hKeeps.begun, hRest p.shared,
              hKeeps.past.snoc (hMove p.shared)⟩
    · intro thread hThread
      exact (hSupervised.calls thread hThread).snoc l
  events := by
    refine Pool.forall_event_step ?_ ?_ ?_ hStep
    · intro event hLabel
      subst hLabel
      exact ⟨by simp, handle_traces S event.val, .nil⟩
    · intro thread effects next rest hCode hKeeps
      have hTraces := hKeeps.code
      rw [hCode] at hTraces
      cases hTraces with
      | step hMove hRest =>
          exact
            ⟨hKeeps.begun, hRest p.shared trivial,
              hKeeps.past.snoc (hMove p.shared trivial)⟩
    · intro thread hThread
      exact (hSupervised.events thread hThread).snoc l

theorem Supervised.move
    {p q : ServerPool}
    {l : Label ServerCall IoEvent}
    (hSupervised : Supervised S labels p)
    (hStep : PoolStep S p l q) :
    PoolMove S p q := by
  rcases hStep with ⟨_, hNext⟩
  subst hNext
  cases l with
  | call k => exact .idle rfl rfl
  | event event => exact .idle rfl rfl
  | stepCall i =>
      simp only [Pool.exec]
      have hIdle
          (hEnded :
            ∀ thread, p.calls[i]? = some thread →
              ∃ result, thread.code = .done result) :
          PoolMove S p (p.stepCall (poolProgram S) i) := by
        rw [Pool.stepCall_ended _ hEnded]
        exact .idle rfl rfl
      cases hThread : p.calls[i]? with
      | none =>
          apply hIdle
          intro thread hSome
          rw [hThread] at hSome
          cases hSome
      | some thread =>
          have hMem := List.mem_of_getElem? hThread
          have hMoves := (hSupervised.calls thread hMem).code
          cases hCode : thread.code with
          | done result =>
              apply hIdle
              intro thread' hSome
              rw [hThread] at hSome
              cases hSome
              exact ⟨result, hCode⟩
          | step effects next rest =>
              rw [Pool.stepCall_running _ hThread hCode]
              rw [hCode] at hMoves
              cases hMoves with
              | step hMove _ =>
                  exact .call hMem (hMove p.shared) rfl
  | stepEvent =>
      simp only [Pool.exec, Pool.stepEvent]
      cases hThread : p.events with
      | none => exact .idle rfl rfl
      | some thread =>
          have hTraces := (hSupervised.events thread hThread).code
          cases hCode : thread.code with
          | done result =>
              simp only [Pool.advance, hCode]
              exact .idle rfl rfl
          | step effects next rest =>
              simp only [Pool.advance, hCode]
              rw [hCode] at hTraces
              cases hTraces with
              | step hMove _ =>
                  exact
                    .event hThread (hMove p.shared trivial) rfl

theorem supervised_of_run
    {w : WsServer}
    {p : ServerPool}
    (hRun : StateMachine.Run (PoolStep S) (pool w) labels p) :
    Supervised S labels p :=
  hRun.invariant_labels
    (fun _ _ _ _ _ hBefore hStep => hBefore.step hStep)
    ⟨by simp [pool], by simp [pool]⟩

------------------------------------------------------------
-- Sample Runs
------------------------------------------------------------

end WsServer

/- The sample events are the io thread's. -/
def IoEvent.hello (hdl : Hdl) (ephemeral : UInt8) : IoEvent :=
  ⟨.hello hdl ephemeral, rfl⟩

def IoEvent.sealed
    (hdl : Hdl)
    (ephemeral : UInt8)
    (counter : UInt64)
    (opCode : OpCode)
    (parameters : Bytes) : IoEvent :=
  ⟨.sealed hdl ephemeral counter opCode parameters, rfl⟩

namespace WsServer

/- The thread of the event has returned normally. -/
def eventReturned (p : ServerPool) : Bool :=
  match p.events with
  | some { code := .done (.ok ()), .. } => true
  | _ => false

theorem returned_of
    {p : ServerPool}
    (hReturned : eventReturned p = true) :
    ∃ thread,
      p.events = some thread ∧
        thread.code = .done (.ok ()) := by
  unfold eventReturned at hReturned
  split at hReturned
  · next call trace hEvents => exact ⟨_, hEvents, rfl⟩
  · cases hReturned

end WsServer

end ObscuraProto
