import Mathlib.Data.List.Count
import RabbitServer.Library.Multimap
import RabbitServer.Net.Timer

/-! `net/TimerQueue.cpp`, in the loop it belongs to. Every clock reading is given by the event
that takes it. -/

namespace RabbitServer.Net
open Library

/-- What the queue does, in order. -/
inductive Did where
  | addTimer (id : Nat) (expiration now : Timestamp)
  | handleRead (now : Timestamp)
  | run (id : Nat)
  | free (id : Nat)
  deriving DecidableEq

/-- A timer is known by its place in `asked`, the requests it was made for. `calling` are the
timers that another thread has made and whose functor it has not queued yet; `dangled` tells
that a freed timer was used. -/
structure TimerQueue where
  asked : List Request := []
  heap : Nat → Option Timer := fun _ => none
  timers : Multimap Timestamp Nat := .empty
  expiredTimers : List (Timestamp × Nat) := []
  calling : List Nat := []
  pendingFunctors : List Nat := []
  dangled : Bool := false
  did : List Did := []

namespace TimerQueue

/-- A call of `addTimerRunAt` and the like: `inLoop` is a whole call in the loop thread; in
another thread the timer is made, and its functor is queued some time later. -/
inductive Call where
  | inLoop (request : Request) (made now : Timestamp)
  | newTimer (request : Request) (made : Timestamp)
  | queueInLoop (caller : Nat)

/-- What happens while the callback of a timer runs, and the clock as `reset` and `addTimer`
read it after that. -/
structure Turn where
  calls : List Call
  reset : Timestamp
  now : Timestamp

inductive Event where
  | call (c : Call)
  | functor (now : Timestamp)
  | handleRead (now : Timestamp) (turns : Nat → Turn)

variable (wide : ℚ → Int32) (s : TimerQueue)

def log (d : Did) : TimerQueue := { s with did := s.did ++ [d] }

/-- The timer at a place of the heap; `none` where it is deleted. -/
def store (id : Nat) (timer : Option Timer) : TimerQueue :=
  { s with heap := Function.update s.heap id timer }

/-- The answer is looked at by no caller. -/
def addTimer (id : Nat) (now : Timestamp) : Bool × TimerQueue :=
  match s.heap id with
  | some timer =>
    let s := s.log (.addTimer id timer.expiration now)
    if timer.expiration < now then (false, s)
    else (true, { s with timers := s.timers.insert timer.expiration id })
  | none => (false, { s with dangled := true })

def newTimer (made : Timestamp) (request : Request) : TimerQueue :=
  { s.store s.asked.length (some (request.timer wide made)) with asked := s.asked ++ [request] }

def call : Call → TimerQueue
  | .inLoop request made now => ((s.newTimer wide made request).addTimer s.asked.length now).2
  | .newTimer request made =>
    { s.newTimer wide made request with calling := s.calling ++ [s.asked.length] }
  | .queueInLoop caller =>
    match s.calling[caller]? with
    | some id =>
      { s with
        calling := s.calling.eraseIdx caller
        pendingFunctors := s.pendingFunctors ++ [id] }
    | none => s

def calls (cs : List Call) : TimerQueue := cs.foldl (fun s c => s.call wide c) s

/-- The clock is read only where there is a timer. -/
def getExpiredTimers (now : Timestamp) : TimerQueue :=
  if s.timers.entries = [] then { s with expiredTimers := [] }
  else
    { s with
      expiredTimers := s.timers.below now
      timers := s.timers.eraseBelow now }

/-- The body of the loop in `resetTimers`. -/
def resetTimer (id : Nat) (turn : Turn) : TimerQueue :=
  match s.heap id with
  | some timer =>
    let s := (s.log (.run id)).calls wide turn.calls
    if timer.repeat_ then ((s.store id (some (timer.reset turn.reset))).addTimer id turn.now).2
    else (s.store id none).log (.free id)
  | none => { s with dangled := true }

def resetTimers : List (Timestamp × Nat) → (Nat → Turn) → TimerQueue → TimerQueue
  | [], _, s => s
  | entry :: rest, turns, s =>
    resetTimers rest (fun i => turns (i + 1)) (s.resetTimer wide entry.2 (turns 0))

def handleRead (now : Timestamp) (turns : Nat → Turn) : TimerQueue :=
  let s := (s.log (.handleRead now)).getExpiredTimers now
  resetTimers wide s.expiredTimers turns s

def step : Event → TimerQueue
  | .call c => s.call wide c
  | .functor now =>
    match s.pendingFunctors with
    | id :: rest => ({ s with pendingFunctors := rest }.addTimer id now).2
    | [] => s
  | .handleRead now turns => s.handleRead wide now turns

end TimerQueue

end RabbitServer.Net
