import RabbitServer.Net.LifeCycle

/-! What a step of the loop can do to its connection, and how a close that has been
queued is carried out before the next poll. -/

namespace RabbitServer.Net

namespace TcpConnection
variable (conn : TcpConnection)

theorem handleClose_callback : conn.handleClose.2 ≠ some .messageCallback := by
  unfold handleClose
  split <;> nofun

theorem handleWrite_callback (write : WriteResult) :
    (conn.handleWrite write).2 ≠ some .messageCallback := by
  simp only [handleWrite]
  split_ifs
  next => exact handleClose_callback _
  all_goals exact (Option.some_ne_none _).symm

theorem closeConnectionInLoop_callback :
    conn.closeConnectionInLoop.2 ≠ some .messageCallback := by
  simp only [closeConnectionInLoop]
  split_ifs
  next => exact (Option.some_ne_none _).symm
  next => exact handleClose_callback _
  next => exact (Option.some_ne_none _).symm

/-- `messageCallback_` is called by a read that gets bytes, and by nothing else. -/
theorem handleEvent_message {callback : ChannelCallback} {read : Buffer.Readv} {write : WriteResult}
    (message : (conn.handleEvent callback read write).2 = some .messageCallback) :
    callback = .readCallback ∧ ∃ data, read = .delivered data ∧ data.length > 0 := by
  cases callback with
  | errorCallback => cases message
  | hupCallback => cases message
  | writeCallback => exact absurd message (conn.handleWrite_callback write)
  | readCallback =>
    cases read with
    | failed errno => cases message
    | delivered data =>
      simp only [handleEvent, handleRead] at message
      split at message
      next some => exact ⟨rfl, data, rfl, some⟩
      next => exact absurd message conn.handleClose_callback

end TcpConnection

/-- The functor that closes is queued or about to run, with no read and no poll before it. -/
def Turn.ClosureAhead : Turn ChannelCallback LoopFunctor → List LoopFunctor → Prop
  | .polling, _ => False
  | .dispatching callbacks, pendingFunctors =>
    .closeConnectionInLoop ∈ pendingFunctors ∧ .readCallback ∉ callbacks
  | .running toRun, _ => .closeConnectionInLoop ∈ toRun

theorem Turn.ClosureAhead.append {turn : Turn ChannelCallback LoopFunctor}
    {pendingFunctors : List LoopFunctor} (ahead : turn.ClosureAhead pendingFunctors) (more : List LoopFunctor) :
    turn.ClosureAhead (pendingFunctors ++ more) := by
  cases turn with
  | polling => exact ahead
  | dispatching callbacks => exact ⟨List.mem_append_left _ ahead.1, ahead.2⟩
  | running toRun => exact ahead

namespace ConnectionLoop
variable {Context Input Halt : Type} {app : App Context Input Halt}
  {s : ConnectionLoop Context Halt} {event : Event Input}

theorem delivered_cases {data : Bytes} {input : Input}
    (delivered : s.delivered event = some (data, input)) :
    ∃ rest writes, s.halted = none ∧ s.turn = .dispatching (.readCallback :: rest) ∧
      event = .handleEvent (.delivered data) input writes ∧ data.length > 0 := by
  unfold ConnectionLoop.delivered at delivered
  split at delivered
  next rest bytes given writes halted turn =>
    split at delivered
    next some =>
      simp only [Option.some.injEq, Prod.mk.injEq] at delivered
      obtain ⟨rfl, rfl⟩ := delivered
      exact ⟨rest, writes, halted, turn, rfl, some⟩
    next => cases delivered
  next => cases delivered

/-- Delivered bytes are appended to the unread ones and handed to `messageCallback_`. -/
theorem step_delivered {data : Bytes} {input : Input} {rest : List ChannelCallback}
    {writes : List WriteResult} (running : s.halted = none)
    (turn : s.turn = .dispatching (.readCallback :: rest)) (some : data.length > 0) :
    step app s (.handleEvent (.delivered data) input writes) =
      { s with
        turn := .dispatching rest
        conn := { s.conn with inBuffer := s.conn.inBuffer ++ data }
        callbacks := s.callbacks ++ [ServerCallback.messageCallback] }.receive app input
          writes := by
  simp only [step, running, next, turn, handleEvent, TcpConnection.handleEvent,
    TcpConnection.handleRead, if_pos some, ended]
  rfl

theorem receive_state (s : ConnectionLoop Context Halt) (input : Input)
    (writes : List WriteResult) :
    (s.receive app input writes).conn.state = s.conn.state := by
  unfold receive
  split
  next => rfl
  next context inBuffer calls _ =>
    exact TcpConnection.calls_state { s.conn with inBuffer } calls writes

theorem receive_quiet (s : ConnectionLoop Context Halt) (input : Input) (writes : List WriteResult)
    (quiet : s.conn.state = .kDisconnected → s.conn.channel.Quiet) :
    (s.receive app input writes).conn.state = .kDisconnected →
      (s.receive app input writes).conn.channel.Quiet := by
  unfold receive
  split
  next => exact quiet
  next context inBuffer calls _ =>
    exact (TcpConnection.calls_forward { s.conn with inBuffer } calls writes).quiet quiet

theorem receive_turn (s : ConnectionLoop Context Halt) (input : Input) (writes : List WriteResult) :
    (s.receive app input writes).turn = s.turn := by
  unfold receive
  split <;> rfl

theorem receive_callbacks (s : ConnectionLoop Context Halt) (input : Input)
    (writes : List WriteResult) : (s.receive app input writes).callbacks = s.callbacks := by
  unfold receive
  split <;> rfl

theorem receive_halted {s : ConnectionLoop Context Halt} {input : Input} {halt : Halt}
    (writes : List WriteResult)
    (stops : app.messageCallback s.context s.conn.inBuffer input = .error halt) :
    s.receive app input writes = { s with halted := some halt } := by
  simp only [receive, stops]

theorem receive_returned {s : ConnectionLoop Context Halt} {input : Input} {context : Context}
    {inBuffer : Bytes} {calls : List ConnCall} (writes : List WriteResult)
    (returned : app.messageCallback s.context s.conn.inBuffer input =
      .ok (context, inBuffer, calls)) :
    (s.receive app input writes).context = context ∧
      (s.receive app input writes).conn.inBuffer = inBuffer ∧
      (s.receive app input writes).halted = s.halted := by
  unfold receive
  rw [returned]
  exact ⟨rfl, (TcpConnection.calls_forward { s.conn with inBuffer } calls writes).inBuffer, rfl⟩

/-- What `messageCallback_` calls does not change the state a callback has left. -/
theorem handleEvent_state (s : ConnectionLoop Context Halt) (callback : ChannelCallback)
    (read : Buffer.Readv) (input : Input) (writes : List WriteResult) :
    (s.handleEvent app callback read input writes).conn.state =
      (s.conn.handleEvent callback read (writes.headD (.accepted 0))).1.state := by
  simp only [handleEvent]
  split
  · exact receive_state _ input writes
  · rfl

/-- A callback that gets no bytes is an operation of the connection and nothing more. -/
theorem handleEvent_undelivered (app : App Context Input Halt) {callback : ChannelCallback}
    {rest : List ChannelCallback} {read : Buffer.Readv} {input : Input}
    {writes : List WriteResult} (running : s.halted = none)
    (turn : s.turn = .dispatching (callback :: rest))
    (none : s.delivered (.handleEvent read input writes) = none) :
    (s.conn.handleEvent callback read (writes.headD (.accepted 0))).2 ≠ some .messageCallback ∧
      { s with turn := .dispatching rest }.handleEvent app callback read input writes =
        { s with turn := .dispatching rest }.ended
          (s.conn.handleEvent callback read (writes.headD (.accepted 0))) := by
  have quiet : (s.conn.handleEvent callback read (writes.headD (.accepted 0))).2 ≠
      some .messageCallback := by
    intro message
    obtain ⟨rfl, data, rfl, bytes⟩ := s.conn.handleEvent_message message
    simp [ConnectionLoop.delivered, running, turn, bytes] at none
  exact ⟨quiet, if_neg quiet⟩

/-- Every other step keeps the context and the input and moves the connection forward. -/
theorem step_undelivered (app : App Context Input Halt) (none : s.delivered event = none) :
    (step app s event).context = s.context ∧ (step app s event).halted = s.halted ∧
      s.conn.Forward (step app s event).conn := by
  have moves := step_moves app s event
  generalize step app s event = after at moves ⊢
  cases moves with
  | handleEvent running turn read input writes =>
    obtain ⟨quiet, same⟩ := handleEvent_undelivered app running turn none
    rw [same]
    exact ⟨rfl, rfl, s.conn.handleEvent_forward _ read _ quiet⟩
  | functor turn write => exact ⟨rfl, rfl, s.conn.functor_forward _ write⟩
  | call inLoopThread c write => exact ⟨rfl, rfl, s.conn.call_forward inLoopThread c write⟩
  | _ => exact ⟨rfl, rfl, TcpConnection.Forward.refl s.conn⟩

/-- What holds of a connection and the turn its loop is in: once it is disconnected nothing
more is read. -/
structure Orderly (s : ConnectionLoop Context Halt) : Prop where
  quiet : s.conn.state = .kDisconnected → s.conn.channel.Quiet
  ordered : ∀ callbacks, s.turn = .dispatching callbacks →
    ∃ revents, callbacks <:+ handleEventWithGuard revents
  unread : ∀ callbacks, s.turn = .dispatching callbacks → s.conn.state = .kDisconnected →
    .readCallback ∉ callbacks

theorem start_orderly (context : Context) :
    ({ context } : ConnectionLoop Context Halt).Orderly where
  quiet := nofun
  ordered := nofun
  unread := nofun

/-- A callback is taken off the turn; what remains is still in order, and holds no read
once the connection is disconnected. -/
theorem Orderly.tail (orderly : s.Orderly) {callback : ChannelCallback}
    {rest : List ChannelCallback} (turn : s.turn = .dispatching (callback :: rest)) :
    (∃ revents, rest <:+ handleEventWithGuard revents) ∧
      (callback ≠ .errorCallback → .readCallback ∉ rest) := by
  obtain ⟨revents, ordered⟩ := orderly.ordered _ turn
  exact ⟨⟨revents, (List.suffix_cons _ _).trans ordered⟩, not_read_after ordered⟩

theorem Orderly.handleEvent (orderly : s.Orderly) {callback : ChannelCallback}
    {rest : List ChannelCallback} (turn : s.turn = .dispatching (callback :: rest))
    (read : Buffer.Readv) (input : Input) (writes : List WriteResult) :
    ({ s with turn := .dispatching rest }.handleEvent app callback read input writes).Orderly := by
  obtain ⟨suffix, other⟩ := orderly.tail turn
  simp only [ConnectionLoop.handleEvent]
  split
  next message =>
    obtain ⟨rfl, data, rfl, some⟩ := s.conn.handleEvent_message message
    simp only [ended, TcpConnection.handleEvent, TcpConnection.handleRead, if_pos some]
    refine ⟨receive_quiet _ input writes orderly.quiet, ?_, ?_⟩
    · rw [receive_turn]
      intro callbacks turn
      cases turn
      exact suffix
    · rw [receive_turn]
      intro callbacks turn _
      cases turn
      exact other (by decide)
  next quiet =>
    have forward := s.conn.handleEvent_forward callback read (writes.headD (.accepted 0)) quiet
    refine ⟨forward.quiet orderly.quiet, ?_, ?_⟩
    · intro callbacks turn
      cases turn
      exact suffix
    · intro callbacks turn gone
      cases turn
      cases callback with
      | errorCallback =>
        have absent := orderly.unread _ turn gone
        exact fun member => absent (List.mem_cons_of_mem _ member)
      | hupCallback => exact other (by decide)
      | readCallback => exact other (by decide)
      | writeCallback => exact other (by decide)

theorem Orderly.step (orderly : s.Orderly) : (s.step app event).Orderly := by
  obtain ⟨quiet, ordered, unread⟩ := id orderly
  have moves := step_moves app s event
  generalize s.step app event = after at moves ⊢
  cases moves with
  | idle => exact orderly
  | poll revents polling can =>
    constructor
    · exact quiet
    · intro callbacks turn
      cases turn
      exact ⟨revents, List.suffix_refl _⟩
    · intro callbacks turn gone
      cases turn
      rcases can with none | reports
      · subst none
        decide
      · exact (quiet gone).not_read reports
  | handleEvent running turn read input writes => exact orderly.handleEvent turn read input writes
  | doPendingFunctors turn => exact ⟨quiet, nofun, nofun⟩
  | functor turn write => exact ⟨(s.conn.functor_forward _ write).quiet quiet, nofun, nofun⟩
  | iterate turn => exact ⟨quiet, nofun, nofun⟩
  | call inLoopThread c write =>
    have same := s.conn.call_state inLoopThread c write
    constructor
    · exact (s.conn.call_forward inLoopThread c write).quiet quiet
    · exact ordered
    · intro callbacks turn gone
      exact unread callbacks turn (same ▸ gone)
  | removeConnectionInLoop waiting => exact ⟨quiet, ordered, unread⟩

/-- The connection is closing, or will be before the next poll. -/
def ClosesBeforePoll (s : ConnectionLoop Context Halt) : Prop :=
  2 ≤ s.conn.state.rank ∨ s.turn.ClosureAhead s.pendingFunctors

theorem step_rank_le : s.conn.state.rank ≤ (step app s event).conn.state.rank := by
  cases delivered : s.delivered event with
  | none => exact (step_undelivered app delivered).2.2.rank_le
  | some given =>
    obtain ⟨data, input⟩ := given
    obtain ⟨rest, writes, running, turn, rfl, some⟩ := delivered_cases delivered
    rw [step_delivered running turn some, receive_state]

theorem ClosesBeforePoll.step (established : 1 ≤ s.conn.state.rank)
    (closes : s.ClosesBeforePoll) : (step app s event).ClosesBeforePoll := by
  rcases closes with closing | ahead
  · exact Or.inl (closing.trans step_rank_le)
  have moves := step_moves app s event
  generalize ConnectionLoop.step app s event = after at moves ⊢
  cases moves with
  | idle => exact Or.inr ahead
  | poll revents polling can =>
    rw [polling] at ahead
    exact ahead.elim
  | handleEvent running turn read input writes =>
    rw [turn] at ahead
    obtain ⟨queued, unread⟩ := ahead
    rw [List.mem_cons, not_or] at unread
    simp only [handleEvent]
    rw [if_neg (fun message => unread.1 (s.conn.handleEvent_message message).1.symm)]
    exact Or.inr ⟨queued, unread.2⟩
  | doPendingFunctors turn =>
    rw [turn] at ahead
    exact Or.inr ahead.1
  | functor turn write =>
    -- either this is the functor that closes, or it is still among the others
    rw [turn] at ahead
    rcases List.mem_cons.mp ahead with rfl | later
    · exact Or.inl (s.conn.closeConnectionInLoop_closing established)
    · exact Or.inr later
  | iterate turn =>
    rw [turn] at ahead
    cases ahead
  | call inLoopThread c write => exact Or.inr (ahead.append _)
  | removeConnectionInLoop waiting => exact Or.inr (ahead.append _)

theorem calls_close (conn : TcpConnection) {cs : List ConnCall} (writes : List WriteResult)
    (connected : conn.state = .kConnected) (close : .closeConnection ∈ cs) :
    .closeConnectionInLoop ∈ (conn.calls cs writes).2 := by
  induction cs generalizing conn writes with
  | nil => cases close
  | cons c rest ih =>
    simp only [TcpConnection.calls, List.mem_append]
    rcases List.mem_cons.mp close with rfl | later
    · left
      simp [TcpConnection.call, connected]
    · right
      exact ih _ _ ((conn.call_state true c _).trans connected) later

/-- A `closeConnection` made in `messageCallback_` is carried out before the next poll. -/
theorem receive_closes (s : ConnectionLoop Context Halt) {input : Input}
    {writes : List WriteResult} {context : Context} {inBuffer : Bytes} {calls : List ConnCall}
    {rest : List ChannelCallback} (established : 1 ≤ s.conn.state.rank)
    (returned : app.messageCallback s.context s.conn.inBuffer input =
      .ok (context, inBuffer, calls))
    (turn : s.turn = .dispatching rest) (unread : .readCallback ∉ rest)
    (close : .closeConnection ∈ calls) : (s.receive app input writes).ClosesBeforePoll := by
  by_cases closing : 2 ≤ s.conn.state.rank
  · left
    rwa [receive_state]
  · right
    rw [receive_turn, turn]
    refine ⟨?_, unread⟩
    have connected : s.conn.state = .kConnected := by
      cases state : s.conn.state with
      | kConnected => rfl
      | kConnecting => rw [state] at established; exact absurd established (by decide)
      | kDisconnecting => rw [state] at closing; exact absurd (by decide) closing
      | kDisconnected => rw [state] at closing; exact absurd (by decide) closing
    unfold receive
    rw [returned]
    exact List.mem_append_right _ (calls_close { s.conn with inBuffer } writes connected close)

/-- Where a close is on its way, bytes are read only while the connection still has output
to write. -/
theorem delivered_closing {data : Bytes} {input : Input} (orderly : s.Orderly)
    (closes : s.ClosesBeforePoll) (delivered : s.delivered event = some (data, input)) :
    s.conn.state = .kDisconnecting := by
  obtain ⟨rest, writes, running, turn, rfl, some⟩ := delivered_cases delivered
  rcases closes with closing | ahead
  · cases state : s.conn.state with
    | kDisconnecting => rfl
    | kConnecting => rw [state] at closing; exact absurd closing (by decide)
    | kConnected => rw [state] at closing; exact absurd closing (by decide)
    | kDisconnected => exact absurd (List.mem_cons_self ..) (orderly.unread _ turn state)
  · rw [turn] at ahead
    exact absurd (List.mem_cons_self ..) ahead.2

end ConnectionLoop

end RabbitServer.Net
