import RabbitServer.Net.ConnectionLoop

/-! The states of a connection come in an order, and no operation goes back. -/

namespace RabbitServer.Net

/-- How far along its life a connection is. -/
def State.rank : State → Nat
  | .kConnecting => 0
  | .kConnected => 1
  | .kDisconnecting => 2
  | .kDisconnected => 3

theorem State.rank_le_three (state : State) : state.rank ≤ 3 := by
  cases state <;> decide

namespace Channel

/-- The channel asks for nothing that would be read. -/
def Quiet (c : Channel) : Prop := c.events ⊆ writeEvent

theorem Quiet.enableWriting {c : Channel} (quiet : c.Quiet) : c.enableWriting.Quiet :=
  Finset.union_subset quiet (Finset.Subset.refl _)

theorem Quiet.disableWriting {c : Channel} (quiet : c.Quiet) : c.disableWriting.Quiet :=
  Finset.sdiff_subset.trans quiet

theorem disableAll_quiet (c : Channel) : c.disableAll.Quiet := Finset.empty_subset _

theorem remove_quiet (c : Channel) : c.remove.Quiet := by
  unfold Quiet remove
  rw [removeChannel_events]
  exact c.disableAll_quiet

theorem Quiet.not_read {c : Channel} (quiet : c.Quiet) {revents : Events}
    (reports : c.Reports revents) : .readCallback ∉ handleEventWithGuard revents := by
  obtain ⟨_, interest, entry, within⟩ := reports
  have tracked := c.tracked
  have absent : ∀ flag ∈ revents, flag = .EPOLLOUT ∨ flag = .EPOLLERR ∨ flag = .EPOLLHUP := by
    intro flag member
    rcases Finset.mem_union.mp (within member) with own | always
    · rw [entry] at tracked
      split at tracked
      · rw [Option.some.inj tracked] at own
        exact Or.inl (Finset.mem_singleton.mp (quiet own))
      · cases tracked
    · right
      simpa using always
  have none : ¬ (.EPOLLIN ∈ revents ∨ .EPOLLPRI ∈ revents ∨ .EPOLLRDHUP ∈ revents) := by
    intro member
    rcases member with member | member | member <;> simpa using absent _ member
  simp only [handleEventWithGuard, if_neg none]
  split_ifs <;> simp

end Channel

/-- Only an error is handled before a read, and at most one read in a turn. -/
theorem handleEventWithGuard_pairwise (revents : Events) :
    (handleEventWithGuard revents).Pairwise
      (fun first second => first = .errorCallback ∨ second ≠ .readCallback) := by
  simp only [handleEventWithGuard]
  split_ifs <;> decide

theorem not_read_after {callback : ChannelCallback} {rest : List ChannelCallback} {revents : Events}
    (ordered : callback :: rest <:+ handleEventWithGuard revents)
    (other : callback ≠ .errorCallback) : .readCallback ∉ rest := by
  intro member
  have pairs := (handleEventWithGuard_pairwise revents).sublist ordered.sublist
  rcases (List.pairwise_cons.mp pairs).1 _ member with error | kept
  · exact other error
  · exact kept rfl

namespace TcpConnection

/-- What every operation but the delivery of bytes keeps. -/
structure Forward (before after : TcpConnection) : Prop where
  rank_le : before.state.rank ≤ after.state.rank
  quiet : (before.state = .kDisconnected → before.channel.Quiet) →
    after.state = .kDisconnected → after.channel.Quiet
  inBuffer : after.inBuffer = before.inBuffer

theorem Forward.refl (conn : TcpConnection) : conn.Forward conn := ⟨Nat.le_refl _, id, rfl⟩

theorem Forward.trans {first second third : TcpConnection} (one : first.Forward second)
    (two : second.Forward third) : first.Forward third where
  rank_le := one.rank_le.trans two.rank_le
  quiet := two.quiet ∘ one.quiet
  inBuffer := two.inBuffer.trans one.inBuffer

variable (conn : TcpConnection)

theorem handleClose_forward : conn.Forward conn.handleClose.1 := by
  unfold handleClose
  split
  · exact ⟨State.rank_le_three _, fun _ _ => conn.channel.disableAll_quiet, rfl⟩
  · exact Forward.refl conn

theorem connectionDestroyed_forward : conn.Forward conn.connectionDestroyed := by
  unfold connectionDestroyed
  split
  · exact ⟨State.rank_le_three _, fun _ _ => Channel.remove_quiet _, rfl⟩
  · exact ⟨Nat.le_refl _, fun _ _ => Channel.remove_quiet _, rfl⟩

theorem closeConnectionInLoop_forward : conn.Forward conn.closeConnectionInLoop.1 := by
  unfold closeConnectionInLoop
  split
  next open_ =>
    split
    next => exact ⟨by rcases open_ with state | state <;> simp [state, State.rank], nofun, rfl⟩
    next => exact conn.handleClose_forward
  next => exact Forward.refl conn

@[simp] theorem sendInLoop_state (data : Bytes) (write : WriteResult) :
    (conn.sendInLoop data write).state = conn.state := by
  simp only [sendInLoop]
  split_ifs <;> rfl

@[simp] theorem sendInLoop_inBuffer (data : Bytes) (write : WriteResult) :
    (conn.sendInLoop data write).inBuffer = conn.inBuffer := by
  simp only [sendInLoop]
  split_ifs <;> rfl

theorem sendInLoop_quiet (data : Bytes) (write : WriteResult) (quiet : conn.channel.Quiet) :
    (conn.sendInLoop data write).channel.Quiet := by
  simp only [sendInLoop]
  split_ifs
  all_goals first | exact quiet | exact quiet.enableWriting

theorem sendInLoop_forward (data : Bytes) (write : WriteResult) :
    conn.Forward (conn.sendInLoop data write) where
  rank_le := by rw [sendInLoop_state]
  quiet := by
    intro quiet gone
    rw [sendInLoop_state] at gone
    exact conn.sendInLoop_quiet data write (quiet gone)
  inBuffer := conn.sendInLoop_inBuffer data write

theorem handleWrite_forward (write : WriteResult) : conn.Forward (conn.handleWrite write).1 := by
  simp only [handleWrite]
  split_ifs with writing
  next =>
    generalize same : ({ conn with
      written := conn.written ++ conn.outBuffer.take (write.wroted conn.outBuffer.length)
      outBuffer := conn.outBuffer.drop (write.wroted conn.outBuffer.length)
      channel := conn.channel.disableWriting } : TcpConnection) = drained
    have stopped : conn.Forward drained := by
      subst same
      exact ⟨Nat.le_refl _, fun quiet gone => (quiet gone).disableWriting, rfl⟩
    exact stopped.trans drained.handleClose_forward
  next => exact ⟨Nat.le_refl _, fun quiet gone => (quiet gone).disableWriting, rfl⟩
  all_goals exact ⟨Nat.le_refl _, id, rfl⟩

theorem call_state (inLoopThread : Bool) (c : ConnCall) (write : WriteResult) :
    (conn.call inLoopThread c write).1.state = conn.state := by
  cases c <;> simp only [call] <;> split_ifs <;> simp

theorem call_forward (inLoopThread : Bool) (c : ConnCall) (write : WriteResult) :
    conn.Forward (conn.call inLoopThread c write).1 := by
  cases c with
  | send message =>
    simp only [call]
    split_ifs
    · exact conn.sendInLoop_forward message write
    · exact Forward.refl conn
    · exact Forward.refl conn
  | closeConnection =>
    simp only [call]
    split <;> exact Forward.refl conn

theorem calls_forward (cs : List ConnCall) (writes : List WriteResult) :
    conn.Forward (conn.calls cs writes).1 := by
  induction cs generalizing conn writes with
  | nil => exact Forward.refl conn
  | cons c rest ih => exact (conn.call_forward true c _).trans (ih _ _)

theorem calls_state (cs : List ConnCall) (writes : List WriteResult) :
    (conn.calls cs writes).1.state = conn.state := by
  induction cs generalizing conn writes with
  | nil => rfl
  | cons c rest ih => exact (ih _ _).trans (conn.call_state true c _)

/-- Without a byte delivered a callback of the channel leaves the input alone. -/
theorem handleEvent_forward (callback : ChannelCallback) (read : Buffer.Readv) (write : WriteResult)
    (quiet : (conn.handleEvent callback read write).2 ≠ some .messageCallback) :
    conn.Forward (conn.handleEvent callback read write).1 := by
  cases callback with
  | errorCallback => exact Forward.refl conn
  | hupCallback => exact conn.connectionDestroyed_forward
  | writeCallback => exact conn.handleWrite_forward write
  | readCallback =>
    cases read with
    | failed errno => exact Forward.refl conn
    | delivered data =>
      simp only [handleEvent, handleRead] at quiet ⊢
      split at quiet
      next => exact absurd rfl quiet
      next none =>
        rw [if_neg none]
        exact conn.handleClose_forward

theorem functor_forward (f : LoopFunctor) (write : WriteResult) :
    conn.Forward (conn.functor f write).1 := by
  cases f with
  | closeConnectionInLoop => exact conn.closeConnectionInLoop_forward
  | sendInLoop data => exact conn.sendInLoop_forward data write
  | connectionDestroyed => exact conn.connectionDestroyed_forward

/-- Once the functor has run, an established connection is closing. -/
theorem closeConnectionInLoop_closing (established : 1 ≤ conn.state.rank) :
    2 ≤ conn.closeConnectionInLoop.1.state.rank := by
  unfold closeConnectionInLoop handleClose
  split_ifs with open_ writing closable
  · simp [State.rank]
  · simp [State.rank]
  · rcases open_ with state | state
    · exact absurd (Or.inr state) closable
    · rw [state] at established
      exact absurd established (by decide)
  · cases state : conn.state with
    | kConnecting => exact absurd (Or.inr state) open_
    | kConnected => exact absurd (Or.inl state) open_
    | kDisconnected => decide
    | kDisconnecting => decide

end TcpConnection

end RabbitServer.Net
