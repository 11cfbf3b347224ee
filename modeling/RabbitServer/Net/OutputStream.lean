import RabbitServer.Library.Runs
import RabbitServer.Net.TcpConnection

/-! The output side of a connection: what `write` has accepted and what `outBuffer_`
holds, against the messages handed to `sendInLoop`. -/

namespace RabbitServer.Net.TcpConnection
open Library.Runs

inductive Step where
  | sendInLoop (data : Bytes) (write : WriteResult)
  | handleEvent (callback : ChannelCallback) (read : Buffer.Readv) (write : WriteResult)
  | handleClose
  | closeConnectionInLoop
  | connectionDestroyed

def step (conn : TcpConnection) : Step → TcpConnection
  | .sendInLoop data write => conn.sendInLoop data write
  | .handleEvent callback read write => (conn.handleEvent callback read write).1
  | .handleClose => conn.handleClose.1
  | .closeConnectionInLoop => conn.closeConnectionInLoop.1
  | .connectionDestroyed => conn.connectionDestroyed

/-- The messages of the `sendInLoop` calls, in call order. -/
def messages (steps : List Step) : Bytes :=
  steps.flatMap fun step =>
    match step with
    | .sendInLoop data _ => data
    | _ => []

structure OutputExact (conn : TcpConnection) (sent : Bytes) : Prop where
  whole : conn.written ++ conn.outBuffer = sent
  backlog : conn.state = .kConnected ∨ conn.state = .kDisconnecting →
    (conn.channel.writing = true ↔ conn.outBuffer ≠ [])
  established : conn.state ≠ .kConnecting

theorem messages_cons (s : Step) (rest : List Step) :
    messages (s :: rest) = messages [s] ++ messages rest := by
  rw [← List.singleton_append, messages, List.flatMap_append]
  rfl

section
variable {conn : TcpConnection} {sent : Bytes} (exactly : conn.OutputExact sent)
include exactly

/-- Where the connection is left disconnected, only the bytes matter. -/
theorem OutputExact.disconnected (channel : Channel) :
    OutputExact { conn with state := .kDisconnected, channel } sent where
  whole := exactly.whole
  backlog := by
    intro state
    rcases state with state | state <;> cases state
  established := nofun

theorem OutputExact.handleClose : conn.handleClose.1.OutputExact sent := by
  unfold TcpConnection.handleClose
  split
  · exact exactly.disconnected _
  · exact exactly

theorem OutputExact.connectionDestroyed : conn.connectionDestroyed.OutputExact sent := by
  unfold TcpConnection.connectionDestroyed
  split
  next => exact exactly.disconnected _
  next other =>
    have gone : conn.state = .kDisconnected := by
      cases same : conn.state with
      | kConnecting => exact absurd same exactly.established
      | kConnected => exact absurd (Or.inl same) other
      | kDisconnected => rfl
      | kDisconnecting => exact absurd (Or.inr same) other
    have := exactly.disconnected conn.channel.remove
    rwa [← gone] at this

theorem OutputExact.closeConnectionInLoop : conn.closeConnectionInLoop.1.OutputExact sent := by
  unfold TcpConnection.closeConnectionInLoop
  split
  next open_ =>
    split
    next writing =>
      have connected := open_.resolve_right exactly.established
      exact {
        whole := exactly.whole
        backlog := fun _ => exactly.backlog (Or.inl connected)
        established := nofun }
    next => exact exactly.handleClose
  next => exact exactly

theorem OutputExact.handleRead (read : Buffer.Readv) :
    (conn.handleRead read).1.OutputExact sent := by
  unfold TcpConnection.handleRead
  cases read with
  | failed errno => exact exactly
  | delivered data =>
    simp only
    split
    · exact ⟨exactly.whole, exactly.backlog, exactly.established⟩
    · exact exactly.handleClose

/-- What a write accepts moves from the backlog to the wire; the flag is cleared when the
backlog has run empty. -/
theorem OutputExact.handleWrite (write : WriteResult) :
    (conn.handleWrite write).1.OutputExact sent := by
  unfold TcpConnection.handleWrite
  split
  next writing =>
    simp only
    generalize write.wroted conn.outBuffer.length = wroted
    split
    next =>
      have moved : conn.written ++ conn.outBuffer.take wroted ++ conn.outBuffer.drop wroted =
          sent := by
        calc
          _ = conn.written ++ conn.outBuffer := by rw [List.append_assoc, List.take_append_drop]
          _ = sent := exactly.whole
      split
      next empty =>
        have drained : OutputExact { conn with
            written := conn.written ++ conn.outBuffer.take wroted
            outBuffer := conn.outBuffer.drop wroted
            channel := conn.channel.disableWriting } sent := {
          whole := moved
          backlog := fun _ => by simp [List.eq_nil_of_length_eq_zero empty]
          established := exactly.established }
        split
        next => exact drained.handleClose
        next => exact drained
      next left =>
        exact {
          whole := moved
          backlog := fun _ => iff_of_true writing (mt List.length_eq_zero_iff.mpr left)
          established := exactly.established }
    next => exact exactly
  next => exact exactly

/-- A message is accepted, buffered, or cut between the two; it is written directly only
with nothing before it. -/
theorem OutputExact.sendInLoop (data : Bytes) (write : WriteResult) :
    (conn.sendInLoop data write).OutputExact (sent ++ data) := by
  unfold TcpConnection.sendInLoop
  simp only
  split
  next direct =>
    -- nothing is buffered, so what `write` takes follows all earlier messages
    have empty := List.eq_nil_of_length_eq_zero direct.2
    have accepted : conn.written = sent := by simpa [empty] using exactly.whole
    generalize same : write.wroted data.length = wroted
    have bound : wroted ≤ data.length := same ▸ write.wroted_le data.length
    rw [if_neg direct.1]
    split
    next short =>
      exact {
        whole := by simp [empty, accepted]
        backlog := fun _ => by
          apply iff_of_true rfl (List.append_ne_nil_of_right_ne_nil _ _)
          exact List.ne_nil_of_length_pos (by rw [List.length_drop]; omega)
        established := exactly.established }
    next whole =>
      have all : data.take wroted = data := List.take_of_length_le (by omega)
      exact {
        whole := by simp [empty, accepted, all]
        backlog := exactly.backlog
        established := exactly.established }
  next behind =>
    rw [List.take_zero, List.drop_zero, List.append_nil]
    have whole : conn.written ++ (conn.outBuffer ++ data) = sent ++ data := by
      calc
        _ = conn.written ++ conn.outBuffer ++ data := (List.append_assoc _ _ _).symm
        _ = sent ++ data := by rw [exactly.whole]
    split
    next some =>
      have held : conn.outBuffer ++ data ≠ [] :=
        List.append_ne_nil_of_right_ne_nil _ (List.ne_nil_of_length_pos some)
      split
      next writing => exact ⟨whole, fun _ => iff_of_true writing held, exactly.established⟩
      next => exact ⟨whole, fun _ => iff_of_true rfl held, exactly.established⟩
    next none =>
      have nothing := List.eq_nil_of_length_eq_zero (Nat.eq_zero_of_not_pos none)
      rw [nothing, List.append_nil]
      exact exactly

theorem OutputExact.handleEvent (callback : ChannelCallback) (read : Buffer.Readv)
    (write : WriteResult) : (conn.handleEvent callback read write).1.OutputExact sent := by
  cases callback with
  | errorCallback => exact exactly
  | hupCallback => exact exactly.connectionDestroyed
  | readCallback => exact exactly.handleRead read
  | writeCallback => exact exactly.handleWrite write

theorem OutputExact.step (s : Step) : (conn.step s).OutputExact (sent ++ messages [s]) := by
  cases s with
  | sendInLoop data write =>
    rw [show messages [.sendInLoop data write] = data from List.append_nil data]
    exact exactly.sendInLoop data write
  | handleEvent callback read write =>
    rw [show messages [.handleEvent callback read write] = [] from rfl, List.append_nil]
    exact exactly.handleEvent callback read write
  | handleClose =>
    rw [show messages [.handleClose] = [] from rfl, List.append_nil]
    exact exactly.handleClose
  | closeConnectionInLoop =>
    rw [show messages [.closeConnectionInLoop] = [] from rfl, List.append_nil]
    exact exactly.closeConnectionInLoop
  | connectionDestroyed =>
    rw [show messages [.connectionDestroyed] = [] from rfl, List.append_nil]
    exact exactly.connectionDestroyed

theorem OutputExact.run (steps : List Step) :
    (Library.Runs.run TcpConnection.step conn steps).OutputExact (sent ++ messages steps) := by
  induction steps generalizing conn sent with
  | nil => simpa [messages] using exactly
  | cons s rest ih =>
    have here := exactly.step s
    have later := ih here
    rw [List.append_assoc, ← messages_cons] at later
    exact later

end

/-- A connection that has just been established. -/
def established : TcpConnection := ({} : TcpConnection).connectionEstablish

theorem established_exact : established.OutputExact [] where
  whole := rfl
  backlog := fun _ => by decide
  established := by decide

/-- Whatever the kernel does, the bytes accepted so far and the backlog are the messages
in call order, and while the connection is open the channel waits to write exactly when
there is a backlog. -/
theorem output_exact (steps : List Step) :
    (run step established steps).written ++ (run step established steps).outBuffer =
        messages steps ∧
      ((run step established steps).state = .kConnected ∨
          (run step established steps).state = .kDisconnecting →
        ((run step established steps).channel.writing = true ↔
          (run step established steps).outBuffer ≠ [])) := by
  have exactly := established_exact.run steps
  rw [List.nil_append] at exactly
  exact ⟨exactly.whole, exactly.backlog⟩

end RabbitServer.Net.TcpConnection
