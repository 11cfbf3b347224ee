import RabbitServer.Net.TcpServer

/-! A server with its application: `messageCallback_` of every connection is the same function,
and works on the `context_` of the connection it is called for. -/

namespace RabbitServer.Net

/-- `contexts` are what `connectionCallback_` sets and `messageCallback_` leaves in `context_`.
A `halted` process makes no step. -/
structure HostedServer (LoopId Context Halt : Type) where
  server : TcpServer LoopId := {}
  contexts : ConnectionId → Context
  halted : Option Halt := none

namespace HostedServer
variable {LoopId Context Input Halt : Type} [DecidableEq LoopId]

/-- The events of a server, without what the application does in them. -/
inductive Event (LoopId Input : Type) where
  | newConnetion (ioLoop : LoopId)
  | poll (loop : LoopId) (active : List (ConnectionId × Events))
  | handleEvent (loop : LoopId) (read : Buffer.Readv) (input : Input) (writes : List WriteResult)
  | doPendingFunctors (loop : LoopId)
  | functor (loop : LoopId) (write : WriteResult)
  | iterate (loop : LoopId)
  | call (thread : Option LoopId) (id : ConnectionId) (c : ConnCall) (write : WriteResult)

variable (app : App Context Input Halt) (base : LoopId)

/-- Nothing has been accepted yet; every connection will begin with the same context. -/
def start (context : Context) : HostedServer LoopId Context Halt where
  contexts := fun _ => context

/-- The connection that a callback reads bytes for, and what is unread with them. -/
def delivered (s : HostedServer LoopId Context Halt) (loop : LoopId) (read : Buffer.Readv) :
    Option (ConnectionId × Bytes) :=
  match (s.server.loops loop).turn, read with
  | .dispatching ((id, .readCallback) :: _), .delivered data =>
    match s.server.served id with
    | some served =>
      if data.length > 0 then some (id, served.conn.inBuffer ++ data) else none
    | none => none
  | _, _ => none

def handleEvent (s : HostedServer LoopId Context Halt) (loop : LoopId) (read : Buffer.Readv)
    (input : Input) (writes : List WriteResult) : HostedServer LoopId Context Halt :=
  match s.delivered loop read with
  | none => { s with server := s.server.next base (.handleEvent loop read [] [] writes) }
  | some (id, unread) =>
    match app.messageCallback (s.contexts id) unread input with
    | .error halt =>
      { s with
        server := s.server.next base (.handleEvent loop read unread [] writes)
        halted := some halt }
    | .ok (context, left, calls) =>
      { s with
        server := s.server.next base (.handleEvent loop read left calls writes)
        contexts := Function.update s.contexts id context }

def next (s : HostedServer LoopId Context Halt) :
    Event LoopId Input → HostedServer LoopId Context Halt
  | .handleEvent loop read input writes => s.handleEvent app base loop read input writes
  | .newConnetion ioLoop => { s with server := s.server.next base (.newConnetion ioLoop) }
  | .poll loop active => { s with server := s.server.next base (.poll loop active) }
  | .doPendingFunctors loop => { s with server := s.server.next base (.doPendingFunctors loop) }
  | .functor loop write => { s with server := s.server.next base (.functor loop write) }
  | .iterate loop => { s with server := s.server.next base (.iterate loop) }
  | .call thread id c write => { s with server := s.server.next base (.call thread id c write) }

/-- The process has been ended, by the application or by a failed assertion. -/
def ended (s : HostedServer LoopId Context Halt) : Bool :=
  s.halted.isSome || s.server.assertFailed

def step (s : HostedServer LoopId Context Halt) (event : Event LoopId Input) :
    HostedServer LoopId Context Halt :=
  if s.ended then s else s.next app base event

end HostedServer

end RabbitServer.Net
