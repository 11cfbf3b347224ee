import RabbitServer.Net.LifeCycle

/-! What an operation tells the server about its connection. -/

namespace RabbitServer.Net

/-- How an operation can end a connection: by the close callback while it is open, by a
hang-up in any state, and in no other way. -/
def TcpConnection.Outcome (conn : TcpConnection) (hup : Prop)
    (result : TcpConnection × Option ServerCallback) : Prop :=
  match result.2 with
  | some .closeCallback => conn.state ≠ .kDisconnected ∧ result.1.state = .kDisconnected
  | some .removeConnectionFromMap => hup ∧ result.1.state = .kDisconnected
  | _ => (result.1.state = .kDisconnected ↔ conn.state = .kDisconnected) ∧
      result.1.state ≠ .kConnecting

namespace TcpConnection
variable {conn : TcpConnection} (established : conn.state ≠ .kConnecting)
include established

theorem handleClose_outcome (hup : Prop) : conn.Outcome hup conn.handleClose := by
  unfold handleClose
  split
  next open_ =>
    refine ⟨?_, rfl⟩
    rcases open_ with state | state <;> rw [state] <;> decide
  next => exact ⟨Iff.rfl, established⟩

theorem connectionDestroyed_state : conn.connectionDestroyed.state = .kDisconnected := by
  unfold connectionDestroyed
  split
  next => rfl
  next other =>
    cases state : conn.state with
    | kConnecting => exact absurd state established
    | kConnected => exact absurd (Or.inl state) other
    | kDisconnected => rfl
    | kDisconnecting => exact absurd (Or.inr state) other

theorem handleWrite_outcome (hup : Prop) (write : WriteResult) :
    conn.Outcome hup (conn.handleWrite write) := by
  simp only [handleWrite]
  split_ifs
  next drained disconnecting =>
    unfold handleClose
    rw [if_pos (Or.inl disconnecting)]
    exact ⟨by rw [disconnecting]; decide, rfl⟩
  all_goals exact ⟨Iff.rfl, established⟩

theorem handleEvent_outcome (callback : ChannelCallback) (read : Buffer.Readv)
    (write : WriteResult) :
    conn.Outcome (callback = .hupCallback) (conn.handleEvent callback read write) := by
  cases callback with
  | errorCallback => exact ⟨Iff.rfl, established⟩
  | hupCallback => exact ⟨rfl, connectionDestroyed_state established⟩
  | writeCallback => exact handleWrite_outcome established _ write
  | readCallback =>
    cases read with
    | failed errno => exact ⟨Iff.rfl, established⟩
    | delivered data =>
      simp only [handleEvent, handleRead]
      split
      next => exact ⟨Iff.rfl, established⟩
      next => exact handleClose_outcome established _

/-- `connectionDestroyed` is queued only for a connection that is disconnected. -/
theorem functor_outcome (f : LoopFunctor) (write : WriteResult)
    (gone : f = .connectionDestroyed → conn.state = .kDisconnected) :
    conn.Outcome False (conn.functor f write) := by
  cases f with
  | closeConnectionInLoop =>
    simp only [functor, closeConnectionInLoop]
    split_ifs with open_
    · refine ⟨iff_of_false nofun ?_, nofun⟩
      rcases open_ with state | state <;> rw [state] <;> decide
    · exact handleClose_outcome established _
    · exact ⟨Iff.rfl, established⟩
  | sendInLoop data =>
    have same := conn.sendInLoop_state data write
    exact ⟨by rw [functor, same], by rwa [functor, same]⟩
  | connectionDestroyed =>
    have destroyed := connectionDestroyed_state established
    exact ⟨iff_of_true destroyed (gone rfl), by rw [functor, destroyed]; nofun⟩

omit established

/-- A call from outside never destroys the connection. -/
theorem call_harmless (conn : TcpConnection) (inLoopThread : Bool) (c : ConnCall)
    (write : WriteResult) :
    ∀ f ∈ (conn.call inLoopThread c write).2.toList, f ≠ .connectionDestroyed := by
  intro f member
  cases c with
  | send message =>
    simp only [TcpConnection.call] at member
    split_ifs at member
    · cases member
    · cases List.mem_singleton.mp member
      intro same
      cases same
    · cases member
  | closeConnection =>
    simp only [TcpConnection.call] at member
    split_ifs at member
    · cases List.mem_singleton.mp member
      intro same
      cases same
    · cases member

theorem calls_harmless (conn : TcpConnection) (cs : List ConnCall) (writes : List WriteResult) :
    ∀ f ∈ (conn.calls cs writes).2, f ≠ .connectionDestroyed := by
  induction cs generalizing conn writes with
  | nil => nofun
  | cons c rest ih =>
    intro f member
    rcases List.mem_append.mp member with now | later
    · exact call_harmless conn true c _ f now
    · exact ih _ _ f later

end TcpConnection

end RabbitServer.Net
