import RabbitServer.Library.Runs
import RabbitServer.Net.OutputStream

/-! One connection and its io loop, turn by turn: `Poll`, the callbacks of the active
channel, then the functors queued so far. Other threads, and other callbacks of the
loop thread, may call the connection in between. -/

namespace RabbitServer.Net

/-- What `messageCallback_` makes of its context and the unread bytes, and its calls on
the connection; `Halt` is how it can end other than by returning. -/
structure App (Context Input Halt : Type) where
  messageCallback : Context → Bytes → Input → Except Halt (Context × Bytes × List ConnCall)

/-- Where `loop()` is: what the last `Poll` found and is not handled yet, and the functors
swapped out and not called yet. -/
inductive Turn (Active Functor : Type) where
  | polling
  | dispatching (active : List Active)
  | running (toRun : List Functor)
  deriving DecidableEq

def Turn.toRun {Active Functor : Type} : Turn Active Functor → List Functor
  | .running toRun => toRun
  | _ => []

/-- `callbacks` are the callbacks into the server made so far. For `removing` of them the
server has still to queue `connectionDestroyed`. -/
structure ConnectionLoop (Context Halt : Type) where
  conn : TcpConnection := .established
  context : Context
  turn : Turn ChannelCallback LoopFunctor := .polling
  pendingFunctors : List LoopFunctor := []
  callbacks : List ServerCallback := []
  removing : Nat := 0
  halted : Option Halt := none

namespace ConnectionLoop
variable {Context Input Halt : Type}

/-- `poll` reports no event where only other channels are active. `call` is one made by
another thread, or in the loop thread by a callback or functor that is not ours. -/
inductive Event (Input : Type) where
  | poll (revents : Events)
  | handleEvent (read : Buffer.Readv) (input : Input) (writes : List WriteResult)
  | doPendingFunctors
  | functor (write : WriteResult)
  | iterate
  | call (inLoopThread : Bool) (c : ConnCall) (write : WriteResult)
  | removeConnectionInLoop

/-- The connection after one of its operations, and the callback this ended in. -/
def ended (s : ConnectionLoop Context Halt) (result : TcpConnection × Option ServerCallback) :
    ConnectionLoop Context Halt :=
  { s with
    conn := result.1
    callbacks := s.callbacks ++ result.2.toList
    removing := if result.2 = some .closeCallback then s.removing + 1 else s.removing }

def receive (s : ConnectionLoop Context Halt) (app : App Context Input Halt) (input : Input)
    (writes : List WriteResult) : ConnectionLoop Context Halt :=
  match app.messageCallback s.context s.conn.inBuffer input with
  | .error halt => { s with halted := some halt }
  | .ok (context, inBuffer, calls) =>
    let called := { s.conn with inBuffer }.calls calls writes
    { s with
      conn := called.1
      context
      pendingFunctors := s.pendingFunctors ++ called.2 }

def handleEvent (s : ConnectionLoop Context Halt) (app : App Context Input Halt)
    (callback : ChannelCallback) (read : Buffer.Readv) (input : Input)
    (writes : List WriteResult) : ConnectionLoop Context Halt :=
  let result := s.conn.handleEvent callback read (writes.headD (.accepted 0))
  let s := s.ended result
  if result.2 = some .messageCallback then s.receive app input writes else s

/-- The connection is registered before it is polled, and a step that is not next leaves
everything as it is. -/
def next (app : App Context Input Halt) (s : ConnectionLoop Context Halt) :
    Event Input → ConnectionLoop Context Halt
  | .poll revents =>
    if s.turn = .polling ∧ (revents = ∅ ∨ s.conn.channel.Reports revents) then
      { s with turn := .dispatching (handleEventWithGuard revents) }
    else s
  | .handleEvent read input writes =>
    match s.turn with
    | .dispatching (callback :: rest) =>
      { s with turn := .dispatching rest }.handleEvent app callback read input writes
    | _ => s
  | .doPendingFunctors =>
    if s.turn = .dispatching [] then
      { s with turn := .running s.pendingFunctors, pendingFunctors := [] }
    else s
  | .functor write =>
    match s.turn with
    | .running (f :: toRun) => { s with turn := .running toRun }.ended (s.conn.functor f write)
    | _ => s
  | .iterate => if s.turn = .running [] then { s with turn := .polling } else s
  | .call inLoopThread c write =>
    if inLoopThread ∧ s.turn = .polling then s
    else
      let called := s.conn.call inLoopThread c write
      { s with conn := called.1, pendingFunctors := s.pendingFunctors ++ called.2.toList }
  | .removeConnectionInLoop =>
    if s.removing > 0 then
      { s with
        pendingFunctors := s.pendingFunctors ++ [.connectionDestroyed]
        removing := s.removing - 1 }
    else s

def step (app : App Context Input Halt) (s : ConnectionLoop Context Halt) (event : Event Input) :
    ConnectionLoop Context Halt :=
  if s.halted.isSome then s else s.next app event

/-- The bytes an event reads, if it is a read callback that gets any. -/
def delivered (s : ConnectionLoop Context Halt) (event : Event Input) : Option (Bytes × Input) :=
  match s.halted, s.turn, event with
  | none, .dispatching (.readCallback :: _), .handleEvent (.delivered data) input _ =>
    if data.length > 0 then some (data, input) else none
  | _, _, _ => none

/-- What has been read so far, in order. -/
def recordReads (s : ConnectionLoop Context Halt) (event : Event Input)
    (reads : List (Bytes × Input)) : List (Bytes × Input) :=
  reads ++ (s.delivered event).toList

/-- What a step comes to: `idle` where it is not next, else the one thing its event does. -/
inductive Moves (app : App Context Input Halt) (s : ConnectionLoop Context Halt) :
    Event Input → ConnectionLoop Context Halt → Prop where
  | idle (event : Event Input) : Moves app s event s
  | poll (revents : Events) (polling : s.turn = .polling)
      (can : revents = ∅ ∨ s.conn.channel.Reports revents) :
      Moves app s (.poll revents) { s with turn := .dispatching (handleEventWithGuard revents) }
  | handleEvent {callback : ChannelCallback} {rest : List ChannelCallback}
      (running : s.halted = none) (turn : s.turn = .dispatching (callback :: rest))
      (read : Buffer.Readv) (input : Input) (writes : List WriteResult) :
      Moves app s (.handleEvent read input writes)
        ({ s with turn := .dispatching rest }.handleEvent app callback read input writes)
  | doPendingFunctors (turn : s.turn = .dispatching []) :
      Moves app s .doPendingFunctors
        { s with turn := .running s.pendingFunctors, pendingFunctors := [] }
  | functor {f : LoopFunctor} {toRun : List LoopFunctor} (turn : s.turn = .running (f :: toRun))
      (write : WriteResult) :
      Moves app s (.functor write)
        ({ s with turn := .running toRun }.ended (s.conn.functor f write))
  | iterate (turn : s.turn = .running []) : Moves app s .iterate { s with turn := .polling }
  | call (inLoopThread : Bool) (c : ConnCall) (write : WriteResult) :
      Moves app s (.call inLoopThread c write)
        { s with
          conn := (s.conn.call inLoopThread c write).1
          pendingFunctors :=
            s.pendingFunctors ++ (s.conn.call inLoopThread c write).2.toList }
  | removeConnectionInLoop (waiting : s.removing > 0) :
      Moves app s .removeConnectionInLoop
        { s with
          pendingFunctors := s.pendingFunctors ++ [.connectionDestroyed]
          removing := s.removing - 1 }

theorem step_moves (app : App Context Input Halt) (s : ConnectionLoop Context Halt)
    (event : Event Input) : Moves app s event (step app s event) := by
  unfold step
  split
  next => exact .idle event
  next running =>
    have running : s.halted = none := by simpa using running
    cases event with
    | poll revents =>
      simp only [next]
      split
      next can => exact .poll revents can.1 can.2
      next => exact .idle _
    | handleEvent read input writes =>
      simp only [next]
      split
      next callback rest turn => exact .handleEvent running turn read input writes
      next => exact .idle _
    | doPendingFunctors =>
      simp only [next]
      split
      next turn => exact .doPendingFunctors turn
      next => exact .idle _
    | functor write =>
      simp only [next]
      split
      next f toRun turn => exact .functor turn write
      next => exact .idle _
    | iterate =>
      simp only [next]
      split
      next turn => exact .iterate turn
      next => exact .idle _
    | call inLoopThread c write =>
      simp only [next]
      split
      next => exact .idle _
      next => exact .call inLoopThread c write
    | removeConnectionInLoop =>
      simp only [next]
      split
      next waiting => exact .removeConnectionInLoop waiting
      next => exact .idle _

end ConnectionLoop

end RabbitServer.Net
