import RabbitServer.Net.Buffer
import RabbitServer.Net.Channel

/-! `net/TcpConnection.cpp`, with both buffers as FIFO byte queues. What the kernel does
is an argument of each operation; the callback an operation ends in is returned. -/

namespace RabbitServer.Net

inductive State where
  | kConnecting | kConnected | kDisconnected | kDisconnecting
  deriving DecidableEq

/-- `written` is what `write` has accepted on the socket so far. -/
structure TcpConnection where
  state : State := .kConnecting
  channel : Channel := {}
  inBuffer : Bytes := []
  outBuffer : Bytes := []
  written : Bytes := []

/-- What a `write` does: fail with an `errno`, or accept some of the bytes. -/
inductive WriteResult where
  | failed (errno : Int)
  | accepted (n : Nat)
  deriving DecidableEq

/-- The bytes a `write` of `len` bytes gets rid of; a failed one counts as none. -/
def WriteResult.wroted (result : WriteResult) (len : Nat) : Nat :=
  match result with
  | .failed _ => 0
  | .accepted n => min n len

theorem WriteResult.wroted_le (result : WriteResult) (len : Nat) : result.wroted len ≤ len := by
  cases result with
  | failed errno => exact Nat.zero_le len
  | accepted n => exact Nat.min_le_right n len

/-- The callbacks into the server. -/
inductive ServerCallback where
  | messageCallback | closeCallback | removeConnectionFromMap
  deriving DecidableEq

/-- What is queued in the loop of the connection. -/
inductive LoopFunctor where
  | closeConnectionInLoop
  | sendInLoop (data : Bytes)
  | connectionDestroyed
  deriving DecidableEq

/-- A call from outside on the connection. -/
inductive ConnCall where
  | send (message : Bytes)
  | closeConnection
  deriving DecidableEq

namespace TcpConnection
variable (conn : TcpConnection)

def handleClose : TcpConnection × Option ServerCallback :=
  if conn.state = .kDisconnecting ∨ conn.state = .kConnected then
    ({ conn with state := .kDisconnected, channel := conn.channel.disableAll }, some .closeCallback)
  else (conn, none)

/-- The read delivers bytes, nothing at the end of the stream, or fails. -/
def handleRead (result : Buffer.Readv) : TcpConnection × Option ServerCallback :=
  match result with
  | .failed _ => (conn, none)
  | .delivered data =>
    if data.length > 0 then
      ({ conn with inBuffer := conn.inBuffer ++ data }, some .messageCallback)
    else conn.handleClose

/-- `connectionEstablish` up to `connectionCallback_`. -/
def connectionEstablish : TcpConnection :=
  { conn with channel := conn.channel.enableReading, state := .kConnected }

def connectionDestroyed : TcpConnection :=
  if conn.state = .kConnected ∨ conn.state = .kDisconnecting then
    { conn with state := .kDisconnected, channel := conn.channel.disableAll.remove }
  else { conn with channel := conn.channel.remove }

def handleHup : TcpConnection × Option ServerCallback :=
  (conn.connectionDestroyed, some .removeConnectionFromMap)

def closeConnectionInLoop : TcpConnection × Option ServerCallback :=
  if conn.state = .kConnected ∨ conn.state = .kConnecting then
    if conn.channel.writing then ({ conn with state := .kDisconnecting }, none)
    else conn.handleClose
  else (conn, none)

def sendInLoop (data : Bytes) (result : WriteResult) : TcpConnection :=
  let wroted :=
    if ¬ conn.channel.writing ∧ conn.outBuffer.length = 0 then result.wroted data.length else 0
  let conn := { conn with written := conn.written ++ data.take wroted }
  if wroted < data.length then
    let conn := { conn with outBuffer := conn.outBuffer ++ data.drop wroted }
    if conn.channel.writing then conn else { conn with channel := conn.channel.enableWriting }
  else conn

def handleWrite (result : WriteResult) : TcpConnection × Option ServerCallback :=
  if conn.channel.writing then
    let wroted := result.wroted conn.outBuffer.length
    if wroted > 0 then
      let conn := { conn with
        written := conn.written ++ conn.outBuffer.take wroted
        outBuffer := conn.outBuffer.drop wroted }
      if conn.outBuffer.length = 0 then
        let conn := { conn with channel := conn.channel.disableWriting }
        if conn.state = .kDisconnecting then conn.handleClose else (conn, none)
      else (conn, none)
    else (conn, none)
  else (conn, none)

/-- A callback of the channel. The error callback only logs. -/
def handleEvent (callback : ChannelCallback) (read : Buffer.Readv) (write : WriteResult) :
    TcpConnection × Option ServerCallback :=
  match callback with
  | .errorCallback => (conn, none)
  | .hupCallback => conn.handleHup
  | .readCallback => conn.handleRead read
  | .writeCallback => conn.handleWrite write

def functor (f : LoopFunctor) (write : WriteResult) : TcpConnection × Option ServerCallback :=
  match f with
  | .closeConnectionInLoop => conn.closeConnectionInLoop
  | .sendInLoop data => (conn.sendInLoop data write, none)
  | .connectionDestroyed => (conn.connectionDestroyed, none)

/-- `send` and `closeConnection`, with the functor they queue in the connection's loop. -/
def call (inLoopThread : Bool) (c : ConnCall) (write : WriteResult) :
    TcpConnection × Option LoopFunctor :=
  match c with
  | .send message =>
    if conn.state = .kConnected then
      if inLoopThread then (conn.sendInLoop message write, none)
      else (conn, some (.sendInLoop message))
    else (conn, none)
  | .closeConnection =>
    if conn.state = .kConnected ∨ conn.state = .kConnecting then
      (conn, some .closeConnectionInLoop)
    else (conn, none)

/-- The calls a callback makes in the loop thread, one after the other. -/
def calls (conn : TcpConnection) : List ConnCall → List WriteResult →
    TcpConnection × List LoopFunctor
  | [], _ => (conn, [])
  | c :: rest, writes =>
    let (after, queued) := conn.call true c (writes.headD (.accepted 0))
    let (last, later) := calls after rest writes.tail
    (last, queued.toList ++ later)

end TcpConnection

end RabbitServer.Net
