import RabbitServer.Net.ClosingTurn
import RabbitServer.Net.ConnectionOutcome

/-! The loop of a connection and the other threads that call it. A call from another thread
is two steps: `state_` is looked at, and the functor is queued some time later. -/

namespace RabbitServer.Net
open Library.Runs

/-- `calling` are the functors of the calls that have looked at `state_` and have queued
nothing yet. -/
structure CallingThreads (Context Halt : Type) where
  io : ConnectionLoop Context Halt
  calling : List LoopFunctor := []

namespace CallingThreads
variable {Context Input Halt : Type}

inductive Event (Input : Type) where
  | io (event : ConnectionLoop.Event Input)
  | look (c : ConnCall)
  | queueInLoop (caller : Nat)

/-- A call that goes on queues its functor; which of them is next is up to the threads. -/
def step (app : App Context Input Halt) (s : CallingThreads Context Halt) :
    Event Input → CallingThreads Context Halt
  | .io event => { s with io := s.io.step app event }
  | .look c => { s with calling := s.calling ++ (s.io.conn.call false c (.accepted 0)).2.toList }
  | .queueInLoop caller =>
    match s.calling[caller]? with
    | some f =>
      { io := { s.io with pendingFunctors := s.io.pendingFunctors ++ [f] }
        calling := s.calling.eraseIdx caller }
    | none => s

/-- The other threads do nothing to the loop but queue functors. -/
theorem step_io (app : App Context Input Halt) (s : CallingThreads Context Halt)
    (event : Event Input) :
    (∃ own, event = .io own ∧ (step app s event).io = s.io.step app own) ∨
      ((∀ own, event ≠ .io own) ∧ ∃ queued, (step app s event).io =
        { s.io with pendingFunctors := s.io.pendingFunctors ++ queued }) := by
  cases event with
  | io own => exact Or.inl ⟨own, rfl, rfl⟩
  | look c =>
    right
    constructor
    · intro own same
      cases same
    · exact ⟨[], by simp [step]⟩
  | queueInLoop caller =>
    right
    constructor
    · intro own same
      cases same
    · simp only [step]
      split
      next f _ => exact ⟨[f], rfl⟩
      next => exact ⟨[], by simp⟩

end CallingThreads

namespace ConnectionLoop
variable {Context Input Halt : Type} {app : App Context Input Halt}
  {s : ConnectionLoop Context Halt} {event : Event Input}

/-- The callback a step ends in, if it ends in any. -/
theorem step_callbacks (app : App Context Input Halt) (orderly : s.Orderly)
    (established : s.conn.state ≠ .kConnecting) (event : Event Input) :
    ∃ called, (step app s event).callbacks = s.callbacks ++ Option.toList called ∧
      (called = some .closeCallback →
        s.conn.state ≠ .kDisconnected ∧ (step app s event).conn.state = .kDisconnected) ∧
      (called = some .messageCallback → s.conn.state ≠ .kDisconnected) := by
  have moves := step_moves app s event
  generalize step app s event = after at moves ⊢
  cases moves with
  | @handleEvent callback rest running turn read input writes =>
    have outcome := TcpConnection.handleEvent_outcome established callback read
      (writes.headD (.accepted 0))
    simp only [handleEvent]
    split
    next message =>
      obtain ⟨rfl, -⟩ := s.conn.handleEvent_message message
      refine ⟨some .messageCallback, ?_, ?_, ?_⟩
      · rw [receive_callbacks, ended, message]
      · intro close
        cases close
      · intro _ gone
        exact orderly.unread _ turn gone (List.mem_cons_self ..)
    next quiet =>
      refine ⟨_, rfl, ?_, ?_⟩
      · intro close
        simp only [TcpConnection.Outcome, close] at outcome
        exact outcome
      · intro message
        exact absurd message quiet
  | @functor f toRun turn write =>
    have quiet : (s.conn.functor f write).2 ≠ some .messageCallback := by
      cases f with
      | closeConnectionInLoop => exact s.conn.closeConnectionInLoop_callback
      | sendInLoop data => exact (Option.some_ne_none _).symm
      | connectionDestroyed => exact (Option.some_ne_none _).symm
    refine ⟨_, rfl, ?_, fun message => absurd message quiet⟩
    intro close
    have other : f ≠ .connectionDestroyed := by
      intro same
      subst same
      cases close
    have outcome := TcpConnection.functor_outcome established f write fun same => absurd same other
    simp only [TcpConnection.Outcome, close] at outcome
    exact outcome
  | _ => exact ⟨none, by simp, by simp, by simp⟩

end ConnectionLoop

/-- One step of a life: `kConnected`, then perhaps `kDisconnecting`, then `kDisconnected`. -/
inductive State.Follows : State → State → Prop where
  | stays (state : State) : Follows state state
  | disconnecting : Follows .kConnected .kDisconnecting
  | disconnected : Follows .kConnected .kDisconnected
  | drained : Follows .kDisconnecting .kDisconnected

theorem State.follows_of_rank_le {before after : State} (established : 1 ≤ before.rank)
    (rank_le : before.rank ≤ after.rank) : before.Follows after := by
  cases before <;> cases after <;> first
    | constructor
    | exact absurd established (by decide)
    | exact absurd rank_le (by decide)

namespace CallingThreads
variable {Context Input Halt : Type} {app : App Context Input Halt}
  {s : CallingThreads Context Halt}

/-- What holds of a connection and its loop however often it has been called: the close
callback has been made at most once, and then the connection is disconnected. -/
structure Living (s : CallingThreads Context Halt) : Prop where
  established : 1 ≤ s.io.conn.state.rank
  orderly : s.io.Orderly
  closed : s.io.callbacks.count .closeCallback ≤ 1
  gone : .closeCallback ∈ s.io.callbacks → s.io.conn.state = .kDisconnected

/-- An established connection that nobody has called yet. -/
def start (context : Context) : CallingThreads Context Halt := { io := { context } }

theorem start_living (context : Context) : (start context : CallingThreads Context Halt).Living where
  established := Nat.le_refl 1
  orderly := ConnectionLoop.start_orderly context
  closed := Nat.zero_le 1
  gone := fun member => absurd member List.not_mem_nil

theorem Living.not_connecting (living : s.Living) : s.io.conn.state ≠ .kConnecting := by
  intro state
  have established := living.established
  rw [state] at established
  exact absurd established (by decide)

theorem Living.step (living : s.Living) (event : Event Input) :
    (CallingThreads.step app s event).Living := by
  rcases step_io app s event with ⟨own, -, io⟩ | ⟨-, queued, io⟩
  · obtain ⟨called, callbacks, close, -⟩ :=
      ConnectionLoop.step_callbacks app living.orderly living.not_connecting own
    have rank_le : s.io.conn.state.rank ≤ (s.io.step app own).conn.state.rank :=
      ConnectionLoop.step_rank_le
    constructor
    · rw [io]
      exact living.established.trans rank_le
    · rw [io]
      exact living.orderly.step
    · rw [io, callbacks, List.count_append]
      by_cases closes : called = some .closeCallback
      · -- it was not disconnected, so the callback has not been made before
        have first : ServerCallback.closeCallback ∉ s.io.callbacks :=
          fun member => (close closes).1 (living.gone member)
        rw [List.count_eq_zero.mpr first, closes]
        decide
      · have none : ServerCallback.closeCallback ∉ called.toList := by
          simpa using fun same => closes same
        rw [List.count_eq_zero.mpr none]
        exact living.closed
    · rw [io, callbacks]
      intro member
      rcases List.mem_append.mp member with before | now
      · have disconnected := living.gone before
        rw [disconnected] at rank_le
        cases state : (s.io.step app own).conn.state with
        | kDisconnected => rfl
        | kConnecting => rw [state] at rank_le; exact absurd rank_le (by decide)
        | kConnected => rw [state] at rank_le; exact absurd rank_le (by decide)
        | kDisconnecting => rw [state] at rank_le; exact absurd rank_le (by decide)
      · exact (close (by simpa using now)).2
  · constructor
    · rw [io]
      exact living.established
    · rw [io]
      exact ⟨living.orderly.quiet, living.orderly.ordered, living.orderly.unread⟩
    · rw [io]
      exact living.closed
    · rw [io]
      exact living.gone

/-- One step of the life cycle: the state goes forward, and while it is `kDisconnected` no
message callback is made. -/
def GoesForward (app : App Context Input Halt) (s : CallingThreads Context Halt)
    (event : Event Input) : Prop :=
  s.io.conn.state.Follows (step app s event).io.conn.state ∧
    (s.io.conn.state = .kDisconnected →
      (step app s event).io.callbacks.count .messageCallback =
        s.io.callbacks.count .messageCallback)

theorem Living.goesForward (living : s.Living) (event : Event Input) :
    GoesForward app s event := by
  unfold GoesForward
  rcases step_io app s event with ⟨own, -, io⟩ | ⟨-, queued, io⟩
  · obtain ⟨called, callbacks, -, message⟩ :=
      ConnectionLoop.step_callbacks app living.orderly living.not_connecting own
    rw [io]
    refine ⟨State.follows_of_rank_le living.established ConnectionLoop.step_rank_le, ?_⟩
    intro gone
    have none : ServerCallback.messageCallback ∉ called.toList := by
      intro member
      exact message (by simpa using member) gone
    rw [callbacks, List.count_append, List.count_eq_zero.mpr none]
    rfl
  · rw [io]
    exact ⟨.stays _, fun _ => rfl⟩

/-- However the loop and the callers interleave, the life cycle only goes forward, and the
close callback is made at most once. -/
theorem life_goes_forward (app : App Context Input Halt) (context : Context)
    (events : List (Event Input)) :
    Along (step app) (GoesForward app) (start context) events ∧
      (run (step app) (start context) events).io.callbacks.count .closeCallback ≤ 1 := by
  constructor
  · exact along_of_invariant Living _ events (start_living context)
      (fun _ event living => living.step event) fun _ event living => living.goesForward event
  · exact (run_invariant Living _ events (start_living context)
      fun _ event living => living.step event).closed

end CallingThreads

end RabbitServer.Net
