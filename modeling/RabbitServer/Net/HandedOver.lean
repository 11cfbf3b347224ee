import RabbitServer.Net.ClosingTurn
import RabbitServer.Net.OutputStream

/-! The messages a step of the loop hands to `sendInLoop`, and the functors it leaves
waiting. -/

namespace RabbitServer.Net

/-- The message a functor hands to `sendInLoop`. -/
def LoopFunctor.messages : LoopFunctor → List Bytes
  | .sendInLoop data => [data]
  | _ => []

namespace TcpConnection
variable {conn : TcpConnection} {sent : Bytes}

theorem OutputExact.functor (exactly : conn.OutputExact sent) (f : LoopFunctor)
    (write : WriteResult) :
    (conn.functor f write).1.OutputExact (sent ++ f.messages.flatten) := by
  cases f with
  | closeConnectionInLoop =>
    simpa [LoopFunctor.messages, TcpConnection.functor] using exactly.closeConnectionInLoop
  | sendInLoop data =>
    simpa [LoopFunctor.messages, TcpConnection.functor] using exactly.sendInLoop data write
  | connectionDestroyed =>
    simpa [LoopFunctor.messages, TcpConnection.functor] using exactly.connectionDestroyed

/-- The message a call hands to `sendInLoop` at once. -/
def handsOver (conn : TcpConnection) (inLoopThread : Bool) : ConnCall → List Bytes
  | .send message => if conn.state = .kConnected ∧ inLoopThread = true then [message] else []
  | .closeConnection => []

theorem OutputExact.call (exactly : conn.OutputExact sent) (inLoopThread : Bool) (c : ConnCall)
    (write : WriteResult) :
    (conn.call inLoopThread c write).1.OutputExact
      (sent ++ (conn.handsOver inLoopThread c).flatten) := by
  cases c with
  | send message =>
    simp only [TcpConnection.call, handsOver]
    by_cases connected : conn.state = .kConnected
    · cases inLoopThread with
      | false => simpa [connected] using exactly
      | true => simpa [connected] using exactly.sendInLoop message write
    · simpa [connected] using exactly
  | closeConnection =>
    simp only [TcpConnection.call, handsOver, List.flatten_nil, List.append_nil]
    split <;> exact exactly

theorem handsOver_congr {other : TcpConnection} (state : other.state = conn.state)
    (inLoopThread : Bool) : other.handsOver inLoopThread = conn.handsOver inLoopThread := by
  funext c
  cases c with
  | send message => simp only [handsOver, state]
  | closeConnection => rfl

theorem OutputExact.calls (exactly : conn.OutputExact sent) (cs : List ConnCall)
    (writes : List WriteResult) :
    (conn.calls cs writes).1.OutputExact (sent ++ (cs.flatMap (conn.handsOver true)).flatten) := by
  induction cs generalizing conn sent writes with
  | nil =>
    rw [List.flatMap_nil, List.flatten_nil, List.append_nil]
    exact exactly
  | cons c rest ih =>
    have here := exactly.call true c (writes.headD (.accepted 0))
    have later := ih here writes.tail
    rw [handsOver_congr (conn.call_state true c _)] at later
    rw [List.flatMap_cons, List.flatten_append, ← List.append_assoc]
    exact later

theorem send_unsent (conn : TcpConnection) (message : Bytes) (write : WriteResult)
    {f : LoopFunctor} (member : f ∈ (conn.call true (.send message) write).2.toList) :
    f.messages = [] := by
  simp only [TcpConnection.call] at member
  split at member
  · cases member
  · cases member

theorem closeConnection_unsent (conn : TcpConnection) (inLoopThread : Bool) (write : WriteResult)
    {f : LoopFunctor} (member : f ∈ (conn.call inLoopThread .closeConnection write).2.toList) :
    f.messages = [] := by
  simp only [TcpConnection.call] at member
  split at member
  · cases List.mem_singleton.mp member
    rfl
  · cases member

/-- What is called in the loop thread queues no message. -/
theorem calls_unsent (conn : TcpConnection) (cs : List ConnCall) (writes : List WriteResult) :
    ∀ f ∈ (conn.calls cs writes).2, f.messages = [] := by
  induction cs generalizing conn writes with
  | nil =>
    intro f member
    cases member
  | cons c rest ih =>
    intro f member
    rcases List.mem_append.mp member with now | later
    · cases c with
      | send message => exact send_unsent conn message (writes.headD (.accepted 0)) now
      | closeConnection => exact closeConnection_unsent conn true (writes.headD (.accepted 0)) now
    · exact ih _ _ f later

end TcpConnection

namespace ConnectionLoop
variable {Context Input Halt : Type}

/-- The functors that are still to be called, in order. -/
def waiting (s : ConnectionLoop Context Halt) : List LoopFunctor :=
  s.turn.toRun ++ s.pendingFunctors

/-- The functor a step calls, and what `write` does in it. -/
def functorRun (s : ConnectionLoop Context Halt) (event : Event Input) :
    Option (LoopFunctor × WriteResult) :=
  match s.halted, s.turn, event with
  | none, .running (f :: _), .functor write => some (f, write)
  | _, _, _ => none

/-- What is waiting once a step has taken its functor. -/
def left (s : ConnectionLoop Context Halt) (event : Event Input) : List LoopFunctor :=
  if (s.functorRun event).isSome then s.waiting.tail else s.waiting

/-- The messages a step hands to `sendInLoop`: by a functor, in `messageCallback_`, or in
a call from elsewhere in the loop thread. -/
def handed (app : App Context Input Halt) (s : ConnectionLoop Context Halt) (event : Event Input) :
    List Bytes :=
  match s.halted, event with
  | none, .functor _ =>
    match s.turn with
    | .running (f :: _) => f.messages
    | _ => []
  | none, .call inLoopThread c _ =>
    if inLoopThread = true ∧ s.turn = .polling then [] else s.conn.handsOver inLoopThread c
  | _, _ =>
    match s.delivered event with
    | some (data, input) =>
      match app.messageCallback s.context (s.conn.inBuffer ++ data) input with
      | .ok (_, _, calls) => calls.flatMap (s.conn.handsOver true)
      | .error _ => []
    | none => []

variable {app : App Context Input Halt} {s : ConnectionLoop Context Halt} {sent : Bytes}

theorem step_halted {halt : Halt} (halted : s.halted = some halt) (event : Event Input) :
    step app s event = s := by
  rw [step, halted]
  rfl

theorem step_running (running : s.halted = none) (event : Event Input) :
    step app s event = s.next app event := by
  rw [step, running]
  rfl

theorem receive_exact (exactly : s.conn.OutputExact sent) (input : Input)
    (writes : List WriteResult) :
    (s.receive app input writes).conn.OutputExact (sent ++
      (match app.messageCallback s.context s.conn.inBuffer input with
      | .ok (_, _, calls) => calls.flatMap (s.conn.handsOver true)
      | .error _ => ([] : List Bytes)).flatten) := by
  unfold receive
  split
  next halt stops =>
    rw [stops]
    simpa using exactly
  next context inBuffer calls returned =>
    rw [returned]
    have received : TcpConnection.OutputExact { s.conn with inBuffer } sent :=
      ⟨exactly.whole, exactly.backlog, exactly.established⟩
    have same : TcpConnection.handsOver { s.conn with inBuffer } true = s.conn.handsOver true :=
      TcpConnection.handsOver_congr rfl true
    have called := received.calls calls writes
    rw [same] at called
    exact called

/-- The output after a step holds what was sent before, and what the step has handed over. -/
theorem step_exact (app : App Context Input Halt) (exactly : s.conn.OutputExact sent)
    (event : Event Input) :
    (step app s event).conn.OutputExact (sent ++ (handed app s event).flatten) := by
  cases halted : s.halted with
  | some halt =>
    have nothing : handed app s event = [] := by
      simp [handed, halted, delivered]
    rw [step_halted halted, nothing]
    simpa using exactly
  | none =>
    rw [step_running halted]
    have unchanged : ∀ event, handed app s event = [] → (s.next app event).conn = s.conn →
        (s.next app event).conn.OutputExact (sent ++ (handed app s event).flatten) := by
      intro event nothing same
      rw [nothing, same, List.flatten_nil, List.append_nil]
      exact exactly
    cases event with
    | poll revents =>
      apply unchanged
      · simp [handed, halted, delivered]
      · simp only [next]
        split <;> rfl
    | handleEvent read input writes =>
      simp only [handed, halted]
      cases delivered : s.delivered (.handleEvent read input writes) with
      | none =>
        simp only [List.flatten_nil, List.append_nil, next]
        split
        next callback rest turn =>
          rw [(handleEvent_undelivered app halted turn delivered).2]
          exact exactly.handleEvent callback read _
        next => exact exactly
      | some given =>
        obtain ⟨data, given⟩ := given
        obtain ⟨rest, others, running, turn, same, bytes⟩ := delivered_cases delivered
        cases same
        have reached : step app s (.handleEvent (.delivered data) input writes) = _ :=
          step_delivered halted turn bytes
        rw [step_running halted] at reached
        rw [reached]
        apply receive_exact
        exact ⟨exactly.whole, exactly.backlog, exactly.established⟩
    | doPendingFunctors =>
      apply unchanged
      · simp [handed, halted, delivered]
      · simp only [next]
        split <;> rfl
    | functor write =>
      simp only [handed, halted, next]
      cases s.turn with
      | polling => simpa using exactly
      | dispatching active => simpa using exactly
      | running toRun =>
        cases toRun with
        | nil => simpa using exactly
        | cons f toRun => exact exactly.functor f write
    | iterate =>
      apply unchanged
      · simp [handed, halted, delivered]
      · simp only [next]
        split <;> rfl
    | call inLoopThread c write =>
      simp only [handed, halted, next]
      split
      next => simpa using exactly
      next => exact exactly.call inLoopThread c write
    | removeConnectionInLoop =>
      apply unchanged
      · simp [handed, halted, delivered]
      · simp only [next]
        split <;> rfl

/-- A functor that a step may queue: a message only by a `send` from outside. -/
def Queues (event : Event Input) (f : LoopFunctor) : Prop :=
  f.messages = [] ∨ ∃ inLoopThread message write, event = .call inLoopThread (.send message) write

theorem receive_waiting (s : ConnectionLoop Context Halt) (input : Input)
    (writes : List WriteResult) :
    ∃ queued, (s.receive app input writes).waiting = s.waiting ++ queued ∧
      ∀ f ∈ queued, f.messages = [] := by
  unfold receive
  split
  next => exact ⟨[], (List.append_nil _).symm, fun f member => absurd member List.not_mem_nil⟩
  next context inBuffer calls _ =>
    exact ⟨_, (List.append_assoc ..).symm, TcpConnection.calls_unsent _ calls writes⟩

theorem handleEvent_waiting (app : App Context Input Halt) (s : ConnectionLoop Context Halt)
    (callback : ChannelCallback) (read : Buffer.Readv) (input : Input)
    (writes : List WriteResult) :
    ∃ queued, (s.handleEvent app callback read input writes).waiting = s.waiting ++ queued ∧
      ∀ f ∈ queued, f.messages = [] := by
  simp only [handleEvent]
  split
  · exact receive_waiting _ input writes
  · exact ⟨[], (List.append_nil _).symm, fun f member => absurd member List.not_mem_nil⟩

theorem functorRun_cases {event : Event Input} {f : LoopFunctor} {write : WriteResult}
    (ran : s.functorRun event = some (f, write)) :
    ∃ toRun, s.turn = .running (f :: toRun) ∧ event = .functor write ∧ s.halted = none := by
  unfold functorRun at ran
  split at ran
  next f toRun write running turn =>
    cases ran
    exact ⟨toRun, turn, rfl, running⟩
  next => cases ran

/-- A step that runs a functor. -/
theorem step_ran (app : App Context Input Halt) {event : Event Input} {f : LoopFunctor}
    {write : WriteResult}
    (ran : s.functorRun event = some (f, write)) :
    ∃ toRun, s.turn = .running (f :: toRun) ∧
      step app s event = { s with turn := .running toRun }.ended (s.conn.functor f write) := by
  obtain ⟨toRun, turn, rfl, running⟩ := functorRun_cases ran
  refine ⟨toRun, turn, ?_⟩
  rw [step_running running, next, turn]

theorem handed_ran (app : App Context Input Halt) {event : Event Input} {f : LoopFunctor}
    {write : WriteResult}
    (ran : s.functorRun event = some (f, write)) : handed app s event = f.messages := by
  obtain ⟨toRun, turn, rfl, running⟩ := functorRun_cases ran
  simp only [handed, running, turn]

/-- The functor that is run is the first of those that wait. -/
theorem waiting_ran {event : Event Input} {f : LoopFunctor} {write : WriteResult}
    (ran : s.functorRun event = some (f, write)) : s.waiting = f :: s.left event := by
  obtain ⟨toRun, turn, -⟩ := functorRun_cases ran
  simp [left, ran, waiting, turn, Turn.toRun]

/-- What waits after a step is what the step has left, and what it has queued. -/
theorem step_waiting (app : App Context Input Halt) (s : ConnectionLoop Context Halt)
    (event : Event Input) :
    ∃ queued, (step app s event).waiting = s.left event ++ queued ∧
      ∀ f ∈ queued, Queues event f := by
  have unqueued : ∀ after : ConnectionLoop Context Halt, after.waiting = s.left event →
      ∃ queued, after.waiting = s.left event ++ queued ∧ ∀ f ∈ queued, Queues event f :=
    fun after same => ⟨[], by rw [same, List.append_nil],
      fun f member => absurd member List.not_mem_nil⟩
  cases ran : s.functorRun event with
  | some run =>
    obtain ⟨toRun, turn, after⟩ := step_ran app ran
    apply unqueued
    rw [after, left, ran]
    simp [waiting, ended, turn, Turn.toRun]
  | none =>
    have same : s.left event = s.waiting := by rw [left, ran]; rfl
    cases halted : s.halted with
    | some halt => exact unqueued _ (by rw [step_halted halted, same])
    | none =>
      have moves := step_moves app s event
      generalize step app s event = after at moves ⊢
      cases moves with
      | idle => exact unqueued _ same.symm
      | poll revents polling can =>
        exact unqueued _ (by rw [same]; simp [waiting, polling, Turn.toRun])
      | @handleEvent callback rest running turn read input writes =>
        obtain ⟨queued, appended, unsent⟩ := handleEvent_waiting app
          { s with turn := .dispatching rest } callback read input writes
        refine ⟨queued, ?_, fun f member => Or.inl (unsent f member)⟩
        rw [appended, same]
        simp [waiting, turn, Turn.toRun]
      | doPendingFunctors turn =>
        exact unqueued _ (by rw [same]; simp [waiting, turn, Turn.toRun])
      | functor turn write => simp [functorRun, halted, turn] at ran
      | iterate turn => exact unqueued _ (by rw [same]; simp [waiting, turn, Turn.toRun])
      | call inLoopThread c write =>
        refine ⟨_, by rw [same]; exact (List.append_assoc ..).symm, ?_⟩
        cases c with
        | send message => exact fun f _ => Or.inr ⟨inLoopThread, message, write, rfl⟩
        | closeConnection =>
          exact fun f member =>
            Or.inl (TcpConnection.closeConnection_unsent _ inLoopThread write member)
      | removeConnectionInLoop waits =>
        refine ⟨_, by rw [same]; exact (List.append_assoc ..).symm, ?_⟩
        intro f member
        cases List.mem_singleton.mp member
        exact Or.inl rfl

end ConnectionLoop

end RabbitServer.Net
