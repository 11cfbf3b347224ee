import RabbitServer.Net.BufferQueue
import RabbitServer.Net.OutputStream

/-! The output side of a `TcpConnection` with `outBuffer_` as the byte vector it is, against the
connection that has a byte queue in its place. -/

namespace RabbitServer.Net
open Library.Runs

structure BufferedConnection where
  state : State
  channel : Channel
  outBuffer : Buffer
  written : Bytes

namespace BufferedConnection
variable (conn : BufferedConnection)

def handleClose : BufferedConnection × Option ServerCallback :=
  if conn.state = .kDisconnecting ∨ conn.state = .kConnected then
    ({ conn with state := .kDisconnected, channel := conn.channel.disableAll }, some .closeCallback)
  else (conn, none)

/-- Without what is read, which goes to `inBuffer_`. -/
def handleRead (result : Buffer.Readv) : BufferedConnection × Option ServerCallback :=
  match result with
  | .failed _ => (conn, none)
  | .delivered data =>
    if data.length > 0 then (conn, some .messageCallback) else conn.handleClose

def connectionDestroyed : BufferedConnection :=
  if conn.state = .kConnected ∨ conn.state = .kDisconnecting then
    { conn with state := .kDisconnected, channel := conn.channel.disableAll.remove }
  else { conn with channel := conn.channel.remove }

def handleHup : BufferedConnection × Option ServerCallback :=
  (conn.connectionDestroyed, some .removeConnectionFromMap)

def closeConnectionInLoop : BufferedConnection × Option ServerCallback :=
  if conn.state = .kConnected ∨ conn.state = .kConnecting then
    if conn.channel.writing then ({ conn with state := .kDisconnecting }, none)
    else conn.handleClose
  else (conn, none)

/-- What `sendInLoop` writes at once. -/
def directly (len : Nat) (result : WriteResult) : Nat :=
  if ¬ conn.channel.writing ∧ conn.outBuffer.readbleBytes = 0 then result.wroted len else 0

def sendInLoop (data : Bytes) (result : WriteResult) (fresh : Nat → Byte) : BufferedConnection :=
  let wroted := conn.directly data.length result
  let conn := { conn with written := conn.written ++ data.take wroted }
  if wroted < data.length then
    let conn := { conn with outBuffer := conn.outBuffer.append (data.drop wroted) fresh }
    if conn.channel.writing then conn else { conn with channel := conn.channel.enableWriting }
  else conn

def handleWrite (result : WriteResult) : BufferedConnection × Option ServerCallback :=
  if conn.channel.writing then
    let wroted := result.wroted conn.outBuffer.readbleBytes.toNat
    if wroted > 0 then
      let conn := { conn with
        written := conn.written ++ conn.outBuffer.readable.take wroted
        outBuffer := (conn.outBuffer.retrieve wroted).2 }
      if conn.outBuffer.readbleBytes = 0 then
        let conn := { conn with channel := conn.channel.disableWriting }
        if conn.state = .kDisconnecting then conn.handleClose else (conn, none)
      else (conn, none)
    else (conn, none)
  else (conn, none)

def handleEvent (callback : ChannelCallback) (read : Buffer.Readv) (write : WriteResult) :
    BufferedConnection × Option ServerCallback :=
  match callback with
  | .errorCallback => (conn, none)
  | .hupCallback => conn.handleHup
  | .readCallback => conn.handleRead read
  | .writeCallback => conn.handleWrite write

/-- A step, and what new storage holds if `outBuffer_` grows in it. -/
abbrev Step := TcpConnection.Step × (Nat → Byte)

def step (conn : BufferedConnection) (s : Step) : BufferedConnection :=
  match s.1 with
  | .sendInLoop data write => conn.sendInLoop data write s.2
  | .handleEvent callback read write => (conn.handleEvent callback read write).1
  | .handleClose => conn.handleClose.1
  | .closeConnectionInLoop => conn.closeConnectionInLoop.1
  | .connectionDestroyed => conn.connectionDestroyed

/-- A connection that has just been established. -/
def established (fresh : Nat → Byte) : BufferedConnection where
  state := TcpConnection.established.state
  channel := TcpConnection.established.channel
  outBuffer := .new Buffer.DEFAULTINITSIZE fresh
  written := []

/-- A message that makes `outBuffer_` grow finds no unread byte past the live elements of the
vector, or only zero ones. -/
def GrowthKeeps (conn : BufferedConnection) (s : Step) : Prop :=
  match s.1 with
  | .sendInLoop data write =>
    conn.directly data.length write < data.length →
      conn.outBuffer.GrowthKeeps (.append (data.drop (conn.directly data.length write)) s.2)
  | _ => True

/-- The connection with a queue that holds the readable bytes. -/
structure Shows (conn : BufferedConnection) (queued : TcpConnection) : Prop where
  state : conn.state = queued.state
  channel : conn.channel = queued.channel
  written : conn.written = queued.written
  outBuffer : conn.outBuffer.readable = queued.outBuffer

theorem established_shows (fresh : Nat → Byte) :
    (established fresh).Shows TcpConnection.established :=
  ⟨rfl, rfl, rfl, Buffer.new_readable _ fresh⟩

section
variable {conn : BufferedConnection} {queued : TcpConnection} (shows : conn.Shows queued)
include shows

theorem Shows.handleClose : conn.handleClose.1.Shows queued.handleClose.1 ∧
    conn.handleClose.2 = queued.handleClose.2 := by
  obtain ⟨state, channel, inBuffer, outBuffer, written⟩ := queued
  obtain ⟨rfl, rfl, rfl, rfl⟩ := shows
  unfold BufferedConnection.handleClose TcpConnection.handleClose
  split
  · exact ⟨⟨rfl, rfl, rfl, rfl⟩, rfl⟩
  · exact ⟨⟨rfl, rfl, rfl, rfl⟩, rfl⟩

theorem Shows.connectionDestroyed : conn.connectionDestroyed.Shows queued.connectionDestroyed := by
  obtain ⟨state, channel, inBuffer, outBuffer, written⟩ := queued
  obtain ⟨rfl, rfl, rfl, rfl⟩ := shows
  unfold BufferedConnection.connectionDestroyed TcpConnection.connectionDestroyed
  split
  · exact ⟨rfl, rfl, rfl, rfl⟩
  · exact ⟨rfl, rfl, rfl, rfl⟩

theorem Shows.closeConnectionInLoop :
    conn.closeConnectionInLoop.1.Shows queued.closeConnectionInLoop.1 ∧
      conn.closeConnectionInLoop.2 = queued.closeConnectionInLoop.2 := by
  have closes := shows.handleClose
  obtain ⟨state, channel, inBuffer, outBuffer, written⟩ := queued
  obtain ⟨rfl, rfl, rfl, rfl⟩ := shows
  unfold BufferedConnection.closeConnectionInLoop TcpConnection.closeConnectionInLoop
  split
  · split
    · exact ⟨⟨rfl, rfl, rfl, rfl⟩, rfl⟩
    · exact closes
  · exact ⟨⟨rfl, rfl, rfl, rfl⟩, rfl⟩

theorem Shows.handleRead (read : Buffer.Readv) :
    (conn.handleRead read).1.Shows (queued.handleRead read).1 ∧
      (conn.handleRead read).2 = (queued.handleRead read).2 := by
  unfold BufferedConnection.handleRead TcpConnection.handleRead
  cases read with
  | failed errno => exact ⟨shows, rfl⟩
  | delivered data =>
    simp only
    split
    · exact ⟨⟨shows.state, shows.channel, shows.written, shows.outBuffer⟩, rfl⟩
    · exact shows.handleClose

variable (valid : conn.outBuffer.Valid)
include valid

/-- As many bytes wait. -/
theorem Shows.readbleBytes : conn.outBuffer.readbleBytes = queued.outBuffer.length := by
  have length := conn.outBuffer.readable_length
  have order := valid.read_le_write
  rw [shows.outBuffer] at length
  unfold Buffer.readbleBytes at length ⊢
  omega

theorem Shows.handleWrite (write : WriteResult) :
    (conn.handleWrite write).1.Shows (queued.handleWrite write).1 ∧
      (conn.handleWrite write).2 = (queued.handleWrite write).2 := by
  have waiting := shows.readbleBytes valid
  obtain ⟨state, channel, inBuffer, outBuffer, written⟩ := queued
  obtain ⟨rfl, rfl, rfl, rfl⟩ := shows
  unfold BufferedConnection.handleWrite TcpConnection.handleWrite
  rw [waiting, Int.toNat_natCast]
  simp only
  generalize write.wroted conn.outBuffer.readable.length = wroted
  by_cases writing : conn.channel.writing = true
  · have nonneg : (0 : Int) ≤ wroted := Int.natCast_nonneg wroted
    have left : (conn.outBuffer.retrieve wroted).2.readable = conn.outBuffer.readable.drop wroted :=
      Buffer.retrieve_readable valid wroted nonneg
    have taken : Shows { conn with
        written := conn.written ++ conn.outBuffer.readable.take wroted
        outBuffer := (conn.outBuffer.retrieve wroted).2 } { conn with
        inBuffer
        written := conn.written ++ conn.outBuffer.readable.take wroted
        outBuffer := conn.outBuffer.readable.drop wroted } :=
      ⟨rfl, rfl, rfl, left⟩
    have still : (conn.outBuffer.retrieve wroted).2.readbleBytes = 0 ↔
        (conn.outBuffer.readable.drop wroted).length = 0 := by
      rw [taken.readbleBytes (Buffer.retrieve_valid valid _ nonneg), Int.natCast_eq_zero]
    simp only [if_pos writing, still]
    split_ifs with some empty closing
    · apply Shows.handleClose
      exact ⟨rfl, rfl, rfl, left⟩
    · exact ⟨⟨rfl, rfl, rfl, left⟩, rfl⟩
    · exact ⟨taken, rfl⟩
    · exact ⟨⟨rfl, rfl, rfl, rfl⟩, rfl⟩
  · rw [if_neg writing, if_neg writing]
    exact ⟨⟨rfl, rfl, rfl, rfl⟩, rfl⟩

/-- The queue gets the rest of a message exactly where growth keeps what is unread. -/
theorem Shows.sendInLoop_iff (data : Bytes) (write : WriteResult) (fresh : Nat → Byte) :
    (conn.sendInLoop data write fresh).Shows (queued.sendInLoop data write) ↔
      (conn.directly data.length write < data.length →
        conn.outBuffer.GrowthKeeps (.append (data.drop (conn.directly data.length write)) fresh)) := by
  have waiting := shows.readbleBytes valid
  obtain ⟨state, channel, inBuffer, outBuffer, written⟩ := queued
  obtain ⟨rfl, rfl, rfl, rfl⟩ := shows
  have direct : conn.directly data.length write =
      if ¬ conn.channel.writing ∧ conn.outBuffer.readable.length = 0 then write.wroted data.length
      else 0 := by
    simp only [directly, waiting, Int.natCast_eq_zero]
  unfold BufferedConnection.sendInLoop TcpConnection.sendInLoop
  simp only [← direct]
  generalize conn.directly data.length write = wroted
  by_cases short : wroted < data.length
  · rw [← Buffer.call_queue_iff valid, forall_prop_of_true short]
    simp only [if_pos short, Buffer.call, Buffer.queueCall]
    split
    · exact ⟨fun shown => shown.outBuffer, fun same => ⟨rfl, rfl, rfl, same⟩⟩
    · exact ⟨fun shown => shown.outBuffer, fun same => ⟨rfl, rfl, rfl, same⟩⟩
  · rw [if_neg short, if_neg short]
    exact iff_of_true ⟨rfl, rfl, rfl, rfl⟩ fun other => absurd other short

theorem Shows.step_iff (s : Step) : (conn.step s).Shows (queued.step s.1) ↔ conn.GrowthKeeps s := by
  obtain ⟨s, fresh⟩ := s
  cases s with
  | sendInLoop data write => exact shows.sendInLoop_iff valid data write fresh
  | handleEvent callback read write =>
    apply iff_of_true _ trivial
    cases callback with
    | errorCallback => exact shows
    | hupCallback => exact shows.connectionDestroyed
    | readCallback => exact (shows.handleRead read).1
    | writeCallback => exact (shows.handleWrite valid write).1
  | handleClose => exact iff_of_true shows.handleClose.1 trivial
  | closeConnectionInLoop => exact iff_of_true shows.closeConnectionInLoop.1 trivial
  | connectionDestroyed => exact iff_of_true shows.connectionDestroyed trivial

end

/-- Whatever is appended, the indices of `outBuffer_` stay valid. -/
theorem step_valid {conn : BufferedConnection} (valid : conn.outBuffer.Valid) (s : Step) :
    (conn.step s).outBuffer.Valid := by
  have closes : ∀ conn : BufferedConnection, conn.handleClose.1.outBuffer = conn.outBuffer := by
    intro conn
    unfold handleClose
    split <;> rfl
  have destroys : conn.connectionDestroyed.outBuffer = conn.outBuffer := by
    unfold connectionDestroyed
    split <;> rfl
  obtain ⟨s, fresh⟩ := s
  cases s with
  | sendInLoop data write =>
    simp only [step, sendInLoop]
    split_ifs
    · exact Buffer.append_valid valid fresh _
    · exact Buffer.append_valid valid fresh _
    · exact valid
  | handleEvent callback read write =>
    cases callback with
    | errorCallback => exact valid
    | hupCallback => exact destroys ▸ valid
    | readCallback =>
      simp only [step, handleEvent, handleRead]
      cases read with
      | failed errno => exact valid
      | delivered data =>
        simp only
        split_ifs
        · exact valid
        · exact closes conn ▸ valid
    | writeCallback =>
      have retrieved := Buffer.retrieve_valid valid _
        (Int.natCast_nonneg (write.wroted conn.outBuffer.readbleBytes.toNat))
      simp only [step, handleEvent, handleWrite]
      split_ifs
      · rw [closes]
        exact retrieved
      · exact retrieved
      · exact retrieved
      · exact valid
      · exact valid
  | handleClose => exact closes conn ▸ valid
  | closeConnectionInLoop =>
    simp only [step, closeConnectionInLoop]
    split_ifs
    · exact valid
    · exact closes conn ▸ valid
    · exact valid
  | connectionDestroyed => exact destroys ▸ valid

/-- Over any run of sends, writes and closes: the connection with the byte vector goes through the
states of the one with the queue exactly when no message makes `outBuffer_` grow while unread
bytes other than zero lie past the live elements of the vector. -/
theorem output_refines_iff (fresh : Nat → Byte) (steps : List Step) :
    (∀ done, done <+: steps → (run step (established fresh) done).Shows
        (run (fun queued s => queued.step s.1) TcpConnection.established done)) ↔
      Along step GrowthKeeps (established fresh) steps := by
  apply related_iff_along (fun conn => conn.outBuffer.Valid) Shows
  · exact Buffer.new_valid _ fresh
  · exact established_shows fresh
  · exact fun conn s valid => step_valid valid s
  · exact fun conn queued s valid shows => shows.step_iff valid s

end BufferedConnection

end RabbitServer.Net
