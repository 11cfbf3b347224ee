import RabbitServer.Net.ChannelsHeld
import RabbitServer.Net.RemovedOnce

/-! A server at rest: while no functor waits in any loop, the map, the states of the connections
and the pollers name the same connections, and all others have been given up. -/

namespace RabbitServer.Net

namespace TcpConnection
variable {conn : TcpConnection}

/-- While it is not disconnected, an established connection is in its poller. -/
structure Listening (conn : TcpConnection) : Prop where
  established : 1 ≤ conn.state.rank
  added : conn.state ≠ .kDisconnected → conn.channel.index = .kAdded

theorem established_listening : established.Listening := ⟨Nat.le_refl 1, fun _ => rfl⟩

theorem Listening.not_connecting (listening : conn.Listening) : conn.state ≠ .kConnecting := by
  intro connecting
  have established := listening.established
  rw [connecting] at established
  exact absurd established (by decide)

/-- An operation that goes forward, and takes the channel out of the poller only of a connection
that it leaves disconnected. -/
theorem Listening.next (listening : conn.Listening) {after : TcpConnection}
    (rank_le : conn.state.rank ≤ after.state.rank)
    (kept : conn.channel.index = .kAdded → after.state ≠ .kDisconnected →
      after.channel.index = .kAdded) : after.Listening where
  established := listening.established.trans rank_le
  added := by
    intro alive
    apply kept _ alive
    apply listening.added
    intro gone
    rw [gone] at rank_le
    revert rank_le alive
    cases after.state <;> decide

theorem handleEvent_rank_le (callback : ChannelCallback) (read : Buffer.Readv)
    (write : WriteResult) : conn.state.rank ≤ (conn.handleEvent callback read write).1.state.rank := by
  by_cases message : (conn.handleEvent callback read write).2 = some .messageCallback
  · obtain ⟨rfl, data, rfl, nonempty⟩ := conn.handleEvent_message message
    simp only [handleEvent, handleRead, if_pos nonempty]
    exact Nat.le_refl _
  · exact (conn.handleEvent_forward callback read write message).rank_le

theorem Listening.handleEvent (listening : conn.Listening) (callback : ChannelCallback)
    (read : Buffer.Readv) (write : WriteResult) :
    (conn.handleEvent callback read write).1.Listening := by
  apply listening.next (handleEvent_rank_le callback read write)
  intro added alive
  by_cases hup : callback = .hupCallback
  · subst hup
    exact absurd (connectionDestroyed_state listening.not_connecting) alive
  · exact handleEvent_added added hup read write

theorem Listening.functor (listening : conn.Listening) (f : LoopFunctor) (write : WriteResult) :
    (conn.functor f write).1.Listening := by
  apply listening.next (conn.functor_forward f write).rank_le
  intro added alive
  cases f with
  | sendInLoop data => exact sendInLoop_added added data write
  | connectionDestroyed =>
    exact absurd (connectionDestroyed_state listening.not_connecting) alive
  | closeConnectionInLoop =>
    simp only [TcpConnection.functor, closeConnectionInLoop]
    split_ifs
    · exact added
    · exact handleClose_added added
    · exact added

theorem Listening.call (listening : conn.Listening) (inLoopThread : Bool) (c : ConnCall)
    (write : WriteResult) : (conn.call inLoopThread c write).1.Listening :=
  listening.next (conn.call_forward inLoopThread c write).rank_le fun added _ =>
    call_added added inLoopThread c write

theorem Listening.calls (listening : conn.Listening) (cs : List ConnCall)
    (writes : List WriteResult) : (conn.calls cs writes).1.Listening :=
  listening.next (conn.calls_forward cs writes).rank_le fun added _ => calls_added added cs writes

end TcpConnection

namespace TcpServer
open Library.Runs

variable {LoopId : Type} {base : LoopId} {s : TcpServer LoopId}

def EachListening (s : TcpServer LoopId) : Prop :=
  ∀ id served, s.served id = some served → served.conn.Listening

theorem EachListening.setConn (each : s.EachListening) (id : ConnectionId) (loop : LoopId)
    {conn : TcpConnection} (listening : conn.Listening) :
    (s.setConn id loop conn).EachListening := by
  intro other served known
  simp only [TcpServer.setConn, Function.update_apply] at known
  split at known
  · cases known
    exact listening
  · exact each other served known

variable [DecidableEq LoopId]

theorem EachListening.serve (each : s.EachListening) (loop : LoopId) (id : ConnectionId)
    (callback : Option ServerCallback) : (s.serve base loop id callback).EachListening := by
  intro other served known
  rw [serve_served] at known
  exact each other served known

theorem EachListening.handleEvent (each : s.EachListening) (loop : LoopId) (id : ConnectionId)
    (callback : ChannelCallback) (read : Buffer.Readv) (left : Bytes) (calls : List ConnCall)
    (writes : List WriteResult) :
    (s.handleEvent base loop id callback read left calls writes).EachListening := by
  unfold TcpServer.handleEvent
  split
  next => exact each
  next served known =>
    have listening := (each id served known).handleEvent callback read
      (writes.headD (.accepted 0))
    have set := each.setConn id served.loop listening
    dsimp only
    split
    next =>
      have received : TcpConnection.Listening
          { (served.conn.handleEvent callback read (writes.headD (.accepted 0))).1 with
            inBuffer := left } := ⟨listening.established, listening.added⟩
      exact set.setConn id served.loop (received.calls calls writes)
    next => exact set.serve loop id _

theorem EachListening.functor (each : s.EachListening) (loop : LoopId) (f : ServerFunctor)
    (write : WriteResult) : (s.functor base loop f write).EachListening := by
  cases f with
  | connection id f =>
    simp only [TcpServer.functor]
    split
    next => exact each
    next served known =>
      exact (each.setConn id served.loop ((each id served known).functor f write)).serve loop id _
  | removeConnectionInLoop id =>
    have told : (s.serve base base id (some .closeCallback)).EachListening := each.serve base id _
    simpa only [TcpServer.serve, if_true, TcpServer.functor] using told
  | removeConnectionFromMapInLoop id =>
    have told : (s.serve base base id (some .removeConnectionFromMap)).EachListening :=
      each.serve base id _
    simpa only [TcpServer.serve, if_true, TcpServer.functor] using told

theorem EachListening.step (each : s.EachListening) (event : Event LoopId) :
    (s.step base event).EachListening := by
  unfold TcpServer.step
  split
  · exact each
  cases event with
  | newConnetion ioLoop =>
    simp only [TcpServer.next]
    split
    · exact each.setConn s.nextConnectionId ioLoop TcpConnection.established_listening
    · exact each
  | poll loop active =>
    simp only [TcpServer.next]
    split <;> exact each
  | handleEvent loop read left calls writes =>
    simp only [TcpServer.next]
    split
    · exact EachListening.handleEvent (s := s.setTurn loop _) each loop _ _ read left calls writes
    · exact each
  | doPendingFunctors loop =>
    simp only [TcpServer.next]
    split <;> exact each
  | functor loop write =>
    simp only [TcpServer.next]
    split
    · exact EachListening.functor (s := s.setTurn loop _) each loop _ write
    · exact each
  | iterate loop =>
    simp only [TcpServer.next]
    split <;> exact each
  | call thread id c write =>
    simp only [TcpServer.next]
    split
    · exact each
    next served known =>
      split
      · exact each
      · exact each.setConn id served.loop ((each id served known).call _ c write)

end TcpServer

end RabbitServer.Net
