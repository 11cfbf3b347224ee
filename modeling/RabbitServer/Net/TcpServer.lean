import Mathlib.Logic.Function.Basic
import RabbitServer.Net.ConnectionLoop

/-! `net/TcpServer.cpp`: the connections of a server, the base loop that keeps the map of
them, and the io loops they live in. A loop makes its turns as in `ConnectionLoop`;
what the application does in a callback is part of the event. -/

namespace RabbitServer.Net

/-- A connection is known by the number `nextConnectionId_` gave its name. -/
abbrev ConnectionId := Nat

/-- What is queued in a loop of the server. -/
inductive ServerFunctor where
  | connection (id : ConnectionId) (f : LoopFunctor)
  | removeConnectionInLoop (id : ConnectionId)
  | removeConnectionFromMapInLoop (id : ConnectionId)
  deriving DecidableEq

structure IoLoop where
  turn : Turn (ConnectionId × ChannelCallback) ServerFunctor := .polling
  pendingFunctors : List ServerFunctor := []

/-- An established connection and the loop it has been given. The steps before it is one, of the
base loop and of its own, are in `Http/Establishing.lean`. -/
structure Served (LoopId : Type) where
  loop : LoopId
  conn : TcpConnection := .established

/-- `connections` are the keys of the map `connections_`. -/
structure TcpServer (LoopId : Type) where
  served : ConnectionId → Option (Served LoopId) := fun _ => none
  connections : Finset ConnectionId := ∅
  nextConnectionId : ConnectionId := 0
  loops : LoopId → IoLoop := fun _ => {}
  assertFailed : Bool := false

namespace TcpServer
variable {LoopId : Type}

/-- `newConnetion` is called by a callback of the base loop, that of the acceptor. `left`
and `calls` are what `messageCallback_` leaves unread and calls on its connection. The
thread of a `call` is the one of a loop, or another. -/
inductive Event (LoopId : Type) where
  | newConnetion (ioLoop : LoopId)
  | poll (loop : LoopId) (active : List (ConnectionId × Events))
  | handleEvent (loop : LoopId) (read : Buffer.Readv) (left : Bytes) (calls : List ConnCall)
      (writes : List WriteResult)
  | doPendingFunctors (loop : LoopId)
  | functor (loop : LoopId) (write : WriteResult)
  | iterate (loop : LoopId)
  | call (thread : Option LoopId) (id : ConnectionId) (c : ConnCall) (write : WriteResult)

variable [DecidableEq LoopId]

def setLoop (s : TcpServer LoopId) (loop : LoopId) (value : IoLoop) : TcpServer LoopId :=
  { s with loops := Function.update s.loops loop value }

def setTurn (s : TcpServer LoopId) (loop : LoopId)
    (turn : Turn (ConnectionId × ChannelCallback) ServerFunctor) : TcpServer LoopId :=
  s.setLoop loop { s.loops loop with turn }

def queueInLoop (s : TcpServer LoopId) (loop : LoopId) (fs : List ServerFunctor) :
    TcpServer LoopId :=
  s.setLoop loop { s.loops loop with pendingFunctors := (s.loops loop).pendingFunctors ++ fs }

def setConn (s : TcpServer LoopId) (id : ConnectionId) (loop : LoopId) (conn : TcpConnection) :
    TcpServer LoopId :=
  { s with served := Function.update s.served id (some ⟨loop, conn⟩) }

/-- `assert(it != connections_.end())`, `erase`, and `connectionDestroyed` for the io loop. -/
def removeConnectionInLoop (s : TcpServer LoopId) (id : ConnectionId) : TcpServer LoopId :=
  if id ∈ s.connections then
    let s := { s with connections := s.connections.erase id }
    match s.served id with
    | some served => s.queueInLoop served.loop [.connection id .connectionDestroyed]
    | none => s
  else { s with assertFailed := true }

def removeConnectionFromMapInLoop (s : TcpServer LoopId) (id : ConnectionId) : TcpServer LoopId :=
  if id ∈ s.connections then { s with connections := s.connections.erase id }
  else { s with assertFailed := true }

variable (base : LoopId)

/-- The two removals are `RunInLoop` on the base loop: called at once in its own thread. -/
def serve (s : TcpServer LoopId) (loop : LoopId) (id : ConnectionId)
    (callback : Option ServerCallback) : TcpServer LoopId :=
  match callback with
  | some .closeCallback =>
    if loop = base then s.removeConnectionInLoop id
    else s.queueInLoop base [.removeConnectionInLoop id]
  | some .removeConnectionFromMap =>
    if loop = base then s.removeConnectionFromMapInLoop id
    else s.queueInLoop base [.removeConnectionFromMapInLoop id]
  | _ => s

/-- `messageCallback_` of the connection. -/
def receive (s : TcpServer LoopId) (id : ConnectionId) (served : Served LoopId) (left : Bytes)
    (calls : List ConnCall) (writes : List WriteResult) : TcpServer LoopId :=
  let called := { served.conn with inBuffer := left }.calls calls writes
  (s.setConn id served.loop called.1).queueInLoop served.loop
    (called.2.map (.connection id))

def handleEvent (s : TcpServer LoopId) (loop : LoopId) (id : ConnectionId)
    (callback : ChannelCallback) (read : Buffer.Readv) (left : Bytes) (calls : List ConnCall)
    (writes : List WriteResult) : TcpServer LoopId :=
  match s.served id with
  | none => s
  | some served =>
    let result := served.conn.handleEvent callback read (writes.headD (.accepted 0))
    let s := s.setConn id served.loop result.1
    if result.2 = some .messageCallback then
      s.receive id { served with conn := result.1 } left calls writes
    else s.serve base loop id result.2

def functor (s : TcpServer LoopId) (loop : LoopId) (f : ServerFunctor) (write : WriteResult) :
    TcpServer LoopId :=
  match f with
  | .connection id f =>
    match s.served id with
    | none => s
    | some served =>
      let result := served.conn.functor f write
      (s.setConn id served.loop result.1).serve base loop id result.2
  | .removeConnectionInLoop id => s.removeConnectionInLoop id
  | .removeConnectionFromMapInLoop id => s.removeConnectionFromMapInLoop id

/-- What `epoll_wait` can report to a loop: each of its connections once. -/
def Reported (s : TcpServer LoopId) (loop : LoopId) (active : List (ConnectionId × Events)) :
    Prop :=
  (active.map Prod.fst).Nodup ∧ ∀ entry ∈ active, ∃ served ∈ s.served entry.1,
    served.loop = loop ∧ served.conn.channel.Reports entry.2

instance (s : TcpServer LoopId) (loop : LoopId) (active : List (ConnectionId × Events)) :
    Decidable (s.Reported loop active) :=
  inferInstanceAs (Decidable (_ ∧ _))

def next (s : TcpServer LoopId) : Event LoopId → TcpServer LoopId
  | .newConnetion ioLoop =>
    match (s.loops base).turn with
    | .dispatching _ =>
      { s.setConn s.nextConnectionId ioLoop .established with
        connections := insert s.nextConnectionId s.connections
        nextConnectionId := s.nextConnectionId + 1 }
    | _ => s
  | .poll loop active =>
    if (s.loops loop).turn = .polling ∧ s.Reported loop active then
      s.setTurn loop (.dispatching (active.flatMap fun entry =>
        (handleEventWithGuard entry.2).map fun callback => (entry.1, callback)))
    else s
  | .handleEvent loop read left calls writes =>
    match (s.loops loop).turn with
    | .dispatching ((id, callback) :: rest) =>
      (s.setTurn loop (.dispatching rest)).handleEvent base loop id callback read left calls writes
    | _ => s
  | .doPendingFunctors loop =>
    if (s.loops loop).turn = .dispatching [] then
      s.setLoop loop { turn := .running (s.loops loop).pendingFunctors }
    else s
  | .functor loop write =>
    match (s.loops loop).turn with
    | .running (f :: toRun) => (s.setTurn loop (.running toRun)).functor base loop f write
    | _ => s
  | .iterate loop =>
    if (s.loops loop).turn = .running [] then s.setTurn loop .polling else s
  | .call thread id c write =>
    match s.served id with
    | none => s
    | some served =>
      if ∃ loop, thread = some loop ∧ (s.loops loop).turn = .polling then s
      else
        let called := served.conn.call (thread = some served.loop) c write
        (s.setConn id served.loop called.1).queueInLoop served.loop
          (called.2.toList.map (.connection id))

/-- A failed assertion ends the process. -/
def step (s : TcpServer LoopId) (event : Event LoopId) : TcpServer LoopId :=
  if s.assertFailed then s else s.next base event

end TcpServer

end RabbitServer.Net
