import Mathlib.Data.Finset.Basic
import RabbitServer.Library.Runs

/-! `net/EventLoop.cpp`: the functor queue and its wakeup descriptor, with any number of
threads queueing. A step is what one thread does without another being able to see
the middle of it. The loop is one that nobody stops. -/

namespace RabbitServer.Net
open Library.Runs

/-- A channel that `Poll` found active: the wakeup channel, or any other. -/
inductive ActiveChannel where
  | wakeupChannel | other
  deriving DecidableEq

/-- Where the loop thread is in `loop()`. At the head of `handling` is the channel whose
callback is running; `inFunctor` is inside a call of `toRun[i]`. -/
inductive LoopPc (Functor : Type*) where
  | poll
  | handling (activeChannels : List ActiveChannel)
  | calling
  | running (toRun : List Functor)
  | inFunctor (toRun : List Functor)

/-- The functors swapped out and not called yet. -/
def LoopPc.toRun {Functor : Type*} : LoopPc Functor → List Functor
  | .running toRun => toRun
  | .inFunctor toRun => toRun
  | _ => []

/-- A callback of a channel or a functor is running. -/
def LoopPc.calls {Functor : Type*} : LoopPc Functor → Bool
  | .handling (.other :: _) | .inFunctor _ => true
  | _ => false

/-- The queue is swapped out before the next `Poll`. -/
def LoopPc.SwapAhead {Functor : Type*} : LoopPc Functor → Prop
  | .handling _ => True
  | .calling => True
  | _ => False

/-- The loop thread is in `doPendingFunctors`. -/
def LoopPc.Calling {Functor : Type*} : LoopPc Functor → Prop
  | .poll => False
  | .handling _ => False
  | _ => True

/-- `counter` is the eventfd's. `waking` are the other threads between their push and
their wakeup write, `loopPushed` says it of the loop thread. `ran` are the functors
called so far. -/
structure EventLoop (Functor Thread : Type*) where
  pc : LoopPc Functor := .poll
  pendingFunctors : List Functor := []
  callingPendingFunctors : Bool := false
  counter : Nat := 0
  waking : Finset Thread := ∅
  loopPushed : Bool := false
  ran : List Functor := []

namespace EventLoop
variable {Functor Thread : Type*}

inductive LoopStep (Functor : Type*) where
  | poll (activeChannels : List ActiveChannel)
  | handleRead
  | handled
  | queueInLoop (func : Functor)
  | setCalling
  | swap
  | call
  | returned
  | clearCalling

inductive Step (Functor Thread : Type*) where
  | queueInLoop (thread : Thread) (func : Functor)
  | wakeup (thread : Thread)
  | loopWakeup
  | loop (step : LoopStep Functor)

/-- A write that would take the counter past this value blocks. -/
def counterMax : Nat := 0xfffffffffffffffe

/-- `pendingFunctors_.push_back(func)` under the lock -/
def push (s : EventLoop Functor Thread) (func : Functor) : EventLoop Functor Thread :=
  { s with pendingFunctors := s.pendingFunctors ++ [func] }

/-- A step of `loop()` that is not next leaves the state as it is. `RunInLoop` in the loop
thread calls its argument and is part of the callback or functor it is called from. -/
def loopStep (s : EventLoop Functor Thread) (step : LoopStep Functor) : EventLoop Functor Thread :=
  match step, s.pc with
  | .poll activeChannels, .poll =>
    if .wakeupChannel ∈ activeChannels → 0 < s.counter then
      { s with pc := .handling activeChannels }
    else s
  | .handleRead, .handling (.wakeupChannel :: rest) =>
    if 0 < s.counter then { s with pc := .handling rest, counter := 0 } else s
  | .handled, .handling (.other :: rest) => { s with pc := .handling rest }
  | .queueInLoop func, .handling (.other :: _) => { s.push func with loopPushed := true }
  | .queueInLoop func, .inFunctor _ => { s.push func with loopPushed := true }
  | .setCalling, .handling [] => { s with pc := .calling, callingPendingFunctors := true }
  | .swap, .calling => { s with pc := .running s.pendingFunctors, pendingFunctors := [] }
  | .call, .running (func :: toRun) => { s with pc := .inFunctor toRun, ran := s.ran ++ [func] }
  | .returned, .inFunctor toRun => { s with pc := .running toRun }
  | .clearCalling, .running [] => { s with pc := .poll, callingPendingFunctors := false }
  | _, _ => s

section
variable [DecidableEq Thread]

/-- Only the loop thread looks at `callingPendingFunctors_`; any other thread is not in
the loop thread and writes without looking. -/
def step (s : EventLoop Functor Thread) : Step Functor Thread → EventLoop Functor Thread
  | .queueInLoop thread func =>
    if thread ∈ s.waking then s else { s.push func with waking := insert thread s.waking }
  | .wakeup thread =>
    if thread ∈ s.waking ∧ s.counter < counterMax then
      { s with waking := s.waking.erase thread, counter := s.counter + 1 }
    else s
  | .loopWakeup =>
    if s.loopPushed then
      if s.callingPendingFunctors then
        if s.counter < counterMax then
          { s with loopPushed := false, counter := s.counter + 1 }
        else s
      else { s with loopPushed := false }
    else s
  | .loop step => if s.loopPushed then s else s.loopStep step

/-- The functor that `QueueInLoop` is called with in the step. -/
def handed (s : EventLoop Functor Thread) : Step Functor Thread → List Functor
  | .queueInLoop thread func => if thread ∈ s.waking then [] else [func]
  | .loop (.queueInLoop func) => if s.loopPushed = false ∧ s.pc.calls then [func] else []
  | _ => []

/-- The functors that have been handed to `QueueInLoop`, in order. -/
def recordQueued (s : EventLoop Functor Thread) (step : Step Functor Thread)
    (queued : List Functor) : List Functor :=
  queued ++ s.handed step

end

/-- Nothing is lost or run twice, and what the last swap has left behind is announced. -/
structure Covered (s : EventLoop Functor Thread) (queued : List Functor) : Prop where
  order : s.ran ++ s.pc.toRun ++ s.pendingFunctors = queued
  announced : s.pendingFunctors ≠ [] →
    s.pc.SwapAhead ∨ 0 < s.counter ∨ s.waking.Nonempty ∨ s.loopPushed = true
  flagged : s.pc.Calling → s.callingPendingFunctors = true
  inside : s.loopPushed = true → s.pc.SwapAhead ∨ s.pc.Calling

theorem start_covered (counter : Nat) (waking : Finset Thread) :
    ({ counter, waking } : EventLoop Functor Thread).Covered [] where
  order := rfl
  announced := fun work => absurd rfl work
  flagged := nofun
  inside := nofun

section
variable {s : EventLoop Functor Thread} {queued : List Functor}

theorem Covered.push_order (covered : s.Covered queued) (func : Functor) :
    s.ran ++ s.pc.toRun ++ (s.pendingFunctors ++ [func]) = queued ++ [func] := by
  calc
    _ = s.ran ++ s.pc.toRun ++ s.pendingFunctors ++ [func] := (List.append_assoc _ _ _).symm
    _ = queued ++ [func] := by rw [covered.order]

/-- What waits at `Poll` is announced. -/
theorem Covered.at_poll (covered : s.Covered queued) (pc : s.pc = .poll)
    (work : s.pendingFunctors ≠ []) : 0 < s.counter ∨ s.waking.Nonempty := by
  have announced := covered.announced work
  have inside := covered.inside
  rw [pc] at announced inside
  rcases announced with ahead | counted | waking | pushed
  · cases ahead
  · exact Or.inl counted
  · exact Or.inr waking
  · rcases inside pushed with ahead | calling
    · cases ahead
    · cases calling

/-- The loop thread hands over what it is called with in a callback. -/
theorem Covered.loopPush (covered : s.Covered queued) (calls : s.pc.calls = true)
    (func : Functor) : ({ s.push func with loopPushed := true } : EventLoop Functor Thread).Covered
      (queued ++ [func]) where
  order := covered.push_order func
  announced := fun _ => Or.inr (Or.inr (Or.inr rfl))
  flagged := covered.flagged
  inside := by
    intro _
    show s.pc.SwapAhead ∨ s.pc.Calling
    cases pc : s.pc with
    | handling active => exact Or.inl trivial
    | inFunctor toRun => exact Or.inr trivial
    | _ =>
      rw [pc] at calls
      cases calls

/-- The other steps of `loop()` hand over nothing. -/
theorem Covered.loopStep (covered : s.Covered queued) (free : s.loopPushed = false)
    {step : LoopStep Functor} (silent : ∀ func, step ≠ .queueInLoop func) :
    (s.loopStep step).Covered queued := by
  obtain ⟨order, announced, flagged, inside⟩ := covered
  unfold EventLoop.loopStep
  split
  next activeChannels pc =>
    rw [pc] at order
    split
    next => exact ⟨order, fun _ => Or.inl trivial, nofun, fun _ => Or.inl trivial⟩
    next => exact ⟨by rw [pc]; exact order, announced, flagged, inside⟩
  next rest pc =>
    rw [pc] at order
    split
    next => exact ⟨order, fun _ => Or.inl trivial, nofun, fun _ => Or.inl trivial⟩
    next => exact ⟨by rw [pc]; exact order, announced, flagged, inside⟩
  next rest pc =>
    rw [pc] at order
    exact ⟨order, fun _ => Or.inl trivial, nofun, fun _ => Or.inl trivial⟩
  next func _ _ => exact absurd rfl (silent func)
  next func _ _ => exact absurd rfl (silent func)
  next pc =>
    rw [pc] at order
    exact ⟨order, fun _ => Or.inl trivial, fun _ => rfl, fun _ => Or.inl trivial⟩
  next pc =>
    rw [pc] at order flagged
    have all : s.ran ++ s.pendingFunctors = queued := by
      rwa [LoopPc.toRun, List.append_nil] at order <;> exact nofun
    exact ⟨(List.append_nil _).trans all, fun work => absurd rfl work, fun _ => flagged trivial,
      fun _ => Or.inr trivial⟩
  next func toRun pc =>
    rw [pc] at order announced flagged
    have called : s.ran ++ [func] ++ toRun ++ s.pendingFunctors = queued := by
      rwa [LoopPc.toRun, List.append_cons] at order
    exact ⟨called, announced, fun _ => flagged trivial, fun _ => Or.inr trivial⟩
  next toRun pc =>
    rw [pc] at order announced flagged
    exact ⟨order, announced, fun _ => flagged trivial, fun _ => Or.inr trivial⟩
  next pc =>
    rw [pc] at order announced
    exact ⟨order, announced, nofun, fun here => by rw [free] at here; cases here⟩
  next => exact ⟨order, announced, flagged, inside⟩

variable [DecidableEq Thread]

/-- The loop thread queues in a callback only. -/
theorem loop_queueInLoop (s : EventLoop Functor Thread) (func : Functor) :
    s.step (.loop (.queueInLoop func)) =
      if s.loopPushed = false ∧ s.pc.calls then { s.push func with loopPushed := true } else s := by
  obtain ⟨pc, pendingFunctors, calling, counter, waking, pushed, ran⟩ := s
  cases pushed with
  | true => rfl
  | false => rcases pc with _ | ⟨_ | ⟨_ | _, rest⟩⟩ | _ | _ | _ <;> rfl

/-- Most steps hand nothing to `QueueInLoop`. -/
theorem recordQueued_silent {step : Step Functor Thread} (silent : s.handed step = []) :
    s.recordQueued step queued = queued := by
  rw [recordQueued, silent, List.append_nil]

theorem handed_loop {step : LoopStep Functor} (silent : ∀ func, step ≠ .queueInLoop func) :
    s.handed (.loop step) = [] := by
  cases step with
  | queueInLoop func => exact absurd rfl (silent func)
  | _ => rfl

/-- The write of another thread always follows its push; the loop thread's own follows
where no swap is ahead, since `callingPendingFunctors_` is set there. -/
theorem Covered.step (covered : s.Covered queued) (step : Step Functor Thread) :
    (s.step step).Covered (s.recordQueued step queued) := by
  cases step with
  | queueInLoop thread func =>
    simp only [EventLoop.step, recordQueued, handed]
    split
    next =>
      rw [List.append_nil]
      exact covered
    next =>
      exact ⟨covered.push_order func,
        fun _ => Or.inr (Or.inr (Or.inl (Finset.insert_nonempty thread s.waking))),
        covered.flagged, covered.inside⟩
  | wakeup thread =>
    rw [recordQueued_silent rfl]
    simp only [EventLoop.step]
    split
    next =>
      exact ⟨covered.order, fun _ => Or.inr (Or.inl (Nat.succ_pos _)), covered.flagged,
        covered.inside⟩
    next => exact covered
  | loopWakeup =>
    rw [recordQueued_silent rfl]
    simp only [EventLoop.step]
    split
    next pushed =>
      split
      next =>
        split
        next =>
          exact ⟨covered.order, fun _ => Or.inr (Or.inl (Nat.succ_pos _)), covered.flagged, nofun⟩
        next => exact covered
      next unflagged =>
        -- pushed by a callback of a channel: the swap of this turn is still ahead
        have ahead := (covered.inside pushed).resolve_right fun calling =>
          unflagged (covered.flagged calling)
        exact ⟨covered.order, fun _ => Or.inl ahead, covered.flagged, nofun⟩
    next => exact covered
  | loop step =>
    by_cases queues : ∃ func, step = .queueInLoop func
    · obtain ⟨func, rfl⟩ := queues
      rw [loop_queueInLoop, recordQueued, handed]
      split
      next may => exact covered.loopPush may.2 func
      next =>
        rw [List.append_nil]
        exact covered
    · have silent : ∀ func, step ≠ .queueInLoop func := fun func same => queues ⟨func, same⟩
      rw [recordQueued_silent (handed_loop silent)]
      simp only [EventLoop.step]
      split
      next => exact covered
      next free => exact covered.loopStep (Bool.not_eq_true _ ▸ free) silent

end

theorem run_covered [DecidableEq Thread] (counter : Nat) (waking : Finset Thread)
    (steps : List (Step Functor Thread)) :
    let s := run (recorded step recordQueued) ({ counter, waking }, []) steps
    s.1.Covered s.2 :=
  run_invariant (fun s : EventLoop Functor Thread × List Functor => s.1.Covered s.2) _ steps
    (start_covered counter waking) fun _ step covered => covered.step step

/-- Over every interleaving, the functors called are the first ones handed to `QueueInLoop`, in
order, the others wait in order, and at `Poll` a waiting functor is announced by the counter or
by a thread that has not written yet. -/
theorem queue_exact [DecidableEq Thread] (counter : Nat) (waking : Finset Thread)
    (steps : List (Step Functor Thread)) :
    let s := run (recorded step recordQueued) ({ counter, waking }, []) steps
    s.1.ran ++ s.1.pc.toRun ++ s.1.pendingFunctors = s.2 ∧ s.1.ran <+: s.2 ∧
      (s.1.pc = .poll → s.1.pendingFunctors ≠ [] → 0 < s.1.counter ∨ s.1.waking.Nonempty) := by
  intro s
  have covered : s.1.Covered s.2 := run_covered counter waking steps
  have first : s.1.ran <+: s.2 := by
    rw [← covered.order, List.append_assoc]
    exact List.prefix_append _ _
  exact ⟨covered.order, first, covered.at_poll⟩

end EventLoop

end RabbitServer.Net
