import RabbitServer.Base.MutexLock
import RabbitServer.Net.EventLoop

/-! The functor queue of `net/EventLoop.cpp` with `mutex_` taken and the statements under it run
one by one, by any number of threads: what `EventLoop` has as one step. -/

namespace RabbitServer.Net
open Library.Runs Library.CriticalSection RabbitServer.Base

/-- What stands under `mutex_`: in `QueueInLoop`, and in `doPendingFunctors` the swap with the
empty `toRun` and the `clear`. -/
inductive QueueStatement (Functor : Type*) where
  | push_back (func : Functor)
  | swap
  | clear

/-- What is handed to `QueueInLoop` by the statement. -/
def QueueStatement.handed {Functor : Type*} : QueueStatement Functor → List Functor
  | .push_back func => [func]
  | _ => []

/-- The swap is next. -/
def LoopPc.swaps {Functor : Type*} : LoopPc Functor → Bool
  | .calling => true
  | _ => false

namespace EventLoop
variable {Functor Thread : Type*}

/-- The steps of the loop thread that are not under `mutex_`. -/
def LoopStep.unguarded : LoopStep Functor → Bool
  | .queueInLoop _ | .swap => false
  | _ => true

variable [DecidableEq Thread]

/-- The loop thread is `none`. -/
def execQueue (s : EventLoop Functor Thread) :
    Option Thread → QueueStatement Functor → EventLoop Functor Thread
  | some thread, .push_back func => { s.push func with waking := insert thread s.waking }
  | none, .push_back func => { s.push func with loopPushed := true }
  | none, .swap => { s with pc := .running s.pendingFunctors, pendingFunctors := [] }
  | none, .clear => { s with pendingFunctors := [] }
  | some _, _ => s

/-- What a thread does without `mutex_`. -/
def outer (s : EventLoop Functor Thread) :
    Option Thread → Option (LoopStep Functor) → EventLoop Functor Thread
  | some thread, _ => s.step (.wakeup thread)
  | none, none => s.step .loopWakeup
  | none, some step => if step.unguarded then s.step (.loop step) else s

/-- A thread may call `QueueInLoop` when it is behind the wakeup of its last one; the loop thread
does so in a callback. -/
def mayQueue (s : EventLoop Functor Thread) : Option Thread → Bool
  | some thread => thread ∉ s.waking
  | none => !s.loopPushed && s.pc.calls

/-- The loop thread comes to the swap in `doPendingFunctors`. -/
def maySwap (s : EventLoop Functor Thread) : Option Thread → Bool
  | some _ => false
  | none => !s.loopPushed && s.pc.swaps

def entersQueue (s : EventLoop Functor Thread) (thread : Option Thread) :
    List (QueueStatement Functor) → Bool
  | [.push_back _] => s.mayQueue thread
  | [.swap, .clear] => s.maySwap thread
  | _ => false

/-- The world is the loop, and beside it what has been handed to `QueueInLoop`. -/
def guardedQueue (Functor Thread : Type*) [DecidableEq Thread] :
    Program (Option Thread) (QueueStatement Functor) (Option (LoopStep Functor))
      (EventLoop Functor Thread × List Functor) where
  exec s thread statement := (s.1.execQueue thread statement, s.2 ++ statement.handed)
  waits _ _ _ := false
  outer s thread event := (s.1.outer thread event, s.2)
  enters s := s.1.entersQueue

theorem execQueue_counter (s : EventLoop Functor Thread) (thread : Option Thread)
    (statement : QueueStatement Functor) : (s.execQueue thread statement).counter = s.counter := by
  cases thread <;> cases statement <;> rfl

/-- Nobody but the thread that pushes has to wake the loop up for it. -/
theorem mem_execQueue_waking {thread : Option Thread} {other : Thread}
    (apart : thread ≠ some other) (s : EventLoop Functor Thread)
    (statement : QueueStatement Functor) :
    other ∈ (s.execQueue thread statement).waking ↔ other ∈ s.waking := by
  cases thread with
  | none => cases statement <;> exact Iff.rfl
  | some thread =>
    cases statement with
    | push_back func =>
      exact Finset.mem_insert.trans (or_iff_right fun same => apart (congrArg some same.symm))
    | swap => exact Iff.rfl
    | clear => exact Iff.rfl

theorem mayQueue_execQueue {thread other : Option Thread} (apart : thread ≠ other)
    (s : EventLoop Functor Thread) (statement : QueueStatement Functor) :
    (s.execQueue thread statement).mayQueue other = s.mayQueue other := by
  cases other with
  | some other => simp only [mayQueue, mem_execQueue_waking apart]
  | none =>
    cases thread with
    | none => exact absurd rfl apart
    | some thread => cases statement <;> rfl

theorem maySwap_execQueue {thread other : Option Thread} (apart : thread ≠ other)
    (s : EventLoop Functor Thread) (statement : QueueStatement Functor) :
    (s.execQueue thread statement).maySwap other = s.maySwap other := by
  cases other with
  | some other => rfl
  | none =>
    cases thread with
    | none => exact absurd rfl apart
    | some thread => cases statement <;> rfl

omit [DecidableEq Thread] in
theorem loopStep_waking (s : EventLoop Functor Thread) (step : LoopStep Functor) :
    (s.loopStep step).waking = s.waking := by
  unfold loopStep
  split
  next => split <;> rfl
  next => split <;> rfl
  all_goals rfl

/-- Only its own wakeup lets a thread come to `QueueInLoop` again. -/
theorem mayQueue_outer {thread other : Option Thread} (apart : thread ≠ other)
    (s : EventLoop Functor Thread) (event : Option (LoopStep Functor)) :
    (s.outer thread event).mayQueue other = s.mayQueue other := by
  cases thread with
  | some thread =>
    simp only [outer, step]
    split
    next =>
      cases other with
      | some other =>
        have different : other ≠ thread := fun same => apart (congrArg some same.symm)
        simp only [mayQueue, Finset.mem_erase, different, ne_eq, not_false_eq_true, true_and]
      | none => rfl
    next => rfl
  | none =>
    cases other with
    | none => exact absurd rfl apart
    | some other =>
      have same : (s.outer none event).waking = s.waking := by
        cases event with
        | none =>
          simp only [outer, step]
          split
          next =>
            split
            next => split <;> rfl
            next => rfl
          next => rfl
        | some step =>
          simp only [outer, EventLoop.step]
          split
          next =>
            split
            next => rfl
            next => exact loopStep_waking s step
          next => rfl
      simp only [mayQueue, same]

theorem maySwap_outer {thread other : Option Thread} (apart : thread ≠ other)
    (s : EventLoop Functor Thread) (event : Option (LoopStep Functor)) :
    (s.outer thread event).maySwap other = s.maySwap other := by
  cases other with
  | some other => rfl
  | none =>
    cases thread with
    | none => exact absurd rfl apart
    | some thread =>
      simp only [outer, step]
      split <;> rfl

/-- A push or a swap, and a wakeup of another thread. -/
theorem execQueue_wakeup {thread : Option Thread} {other : Thread} (apart : thread ≠ some other)
    (s : EventLoop Functor Thread) (statement : QueueStatement Functor) :
    (s.step (.wakeup other)).execQueue thread statement =
      (s.execQueue thread statement).step (.wakeup other) := by
  have same : other ∈ (s.execQueue thread statement).waking ∧
      (s.execQueue thread statement).counter < counterMax ↔
        other ∈ s.waking ∧ s.counter < counterMax := by
    rw [mem_execQueue_waking apart, execQueue_counter]
  by_cases ready : other ∈ s.waking ∧ s.counter < counterMax
  · rw [step, if_pos ready, step, if_pos (same.mpr ready)]
    cases thread with
    | none => cases statement <;> rfl
    | some thread =>
      have different : thread ≠ other := fun same => apart (congrArg some same)
      cases statement with
      | push_back func => simp only [execQueue, push, Finset.erase_insert_of_ne different]
      | swap => rfl
      | clear => rfl
  · rw [step, if_neg ready, step, if_neg (fun both => ready (same.mp both))]

/-- A push and a step of the loop thread, which does not look at the queue. -/
theorem push_loopStep (thread : Thread) (func : Functor) (s : EventLoop Functor Thread)
    {step : LoopStep Functor} (unguarded : step.unguarded = true) :
    { (s.loopStep step).push func with waking := insert thread (s.loopStep step).waking } =
      ({ s.push func with waking := insert thread s.waking } : EventLoop Functor Thread).loopStep
        step := by
  obtain ⟨pc, pendingFunctors, calling, counter, waking, pushed, ran⟩ := s
  cases step with
  | poll activeChannels =>
    cases pc with
    | poll =>
      by_cases reported : .wakeupChannel ∈ activeChannels → 0 < counter
      · simp only [loopStep, push, if_pos reported]
        exact (if_pos reported).symm
      · simp only [loopStep, push, if_neg reported]
        exact (if_neg reported).symm
    | _ => rfl
  | handleRead =>
    rcases pc with _ | ⟨_ | ⟨_ | _, rest⟩⟩ | _ | _ | _
    case handling.cons.wakeupChannel =>
      by_cases counted : 0 < counter
      · simp only [loopStep, push, if_pos counted]
        exact (if_pos counted).symm
      · simp only [loopStep, push, if_neg counted]
        exact (if_neg counted).symm
    all_goals rfl
  | handled => rcases pc with _ | ⟨_ | ⟨_ | _, rest⟩⟩ | _ | _ | _ <;> rfl
  | queueInLoop other => cases unguarded
  | setCalling => rcases pc with _ | ⟨_ | ⟨channel, rest⟩⟩ | _ | _ | _ <;> rfl
  | swap => cases unguarded
  | call => rcases pc with _ | _ | _ | ⟨_ | ⟨func, toRun⟩⟩ | _ <;> rfl
  | returned => cases pc <;> rfl
  | clearCalling => rcases pc with _ | _ | _ | ⟨_ | ⟨func, toRun⟩⟩ | _ <;> rfl

/-- A push of another thread and the wakeup of the loop thread. -/
theorem push_loopWakeup (thread : Thread) (func : Functor) (s : EventLoop Functor Thread) :
    (s.step .loopWakeup).execQueue (some thread) (.push_back func) =
      (s.execQueue (some thread) (.push_back func)).step .loopWakeup := by
  obtain ⟨pc, pendingFunctors, calling, counter, waking, pushed, ran⟩ := s
  cases pushed with
  | false => rfl
  | true =>
    cases calling with
    | false => rfl
    | true =>
      by_cases room : counter < counterMax
      · simp only [step, execQueue, push, if_pos, if_pos room]
        exact (if_pos room).symm
      · simp only [step, execQueue, push, if_pos, if_neg room]
        exact (if_neg room).symm

/-- A statement under the lock and a step of another thread without it. -/
theorem execQueue_outer {thread other : Option Thread} (apart : thread ≠ other)
    (s : EventLoop Functor Thread) (statement : QueueStatement Functor)
    (event : Option (LoopStep Functor)) :
    (s.outer other event).execQueue thread statement =
      (s.execQueue thread statement).outer other event := by
  cases other with
  | some other => exact execQueue_wakeup apart s statement
  | none =>
    cases thread with
    | none => exact absurd rfl apart
    | some thread =>
      cases statement with
      | swap => rfl
      | clear => rfl
      | push_back func =>
        cases event with
        | none => exact push_loopWakeup thread func s
        | some step =>
          simp only [outer]
          split
          next unguarded =>
            by_cases pushed : s.loopPushed = true
            · have still : (s.execQueue (some thread) (.push_back func)).loopPushed = true := pushed
              rw [EventLoop.step, if_pos pushed, EventLoop.step, if_pos still]
            · have still : ¬ (s.execQueue (some thread) (.push_back func)).loopPushed = true :=
                pushed
              rw [EventLoop.step, if_neg pushed, EventLoop.step, if_neg still]
              exact push_loopStep thread func s unguarded
          next => rfl

theorem guardedQueue_independent : (guardedQueue Functor Thread).Independent where
  exec apart s statement event :=
    Prod.ext (execQueue_outer apart s.1 statement event) rfl
  waits _ _ _ _ := rfl
  enters := by
    intro thread other apart s statement section_
    simp only [guardedQueue, entersQueue, mayQueue_execQueue apart, maySwap_execQueue apart]
  enters_outer := by
    intro thread other apart s event section_
    simp only [guardedQueue, entersQueue, mayQueue_outer apart, maySwap_outer apart]

omit [DecidableEq Thread] in
theorem maySwap_iff {s : EventLoop Functor Thread} {thread : Option Thread} :
    s.maySwap thread = true ↔ thread = none ∧ s.loopPushed = false ∧ s.pc = .calling := by
  cases thread with
  | some thread => simp [maySwap]
  | none =>
    rw [maySwap, Bool.and_eq_true, Bool.not_eq_true']
    cases s.pc <;> simp [LoopPc.swaps]

/-- The push of a thread that may come to it is a step of the loop. -/
theorem push_step {s : EventLoop Functor Thread} {thread : Option Thread} {func : Functor}
    (may : s.mayQueue thread = true) :
    ∃ event, s.execQueue thread (.push_back func) = s.step event ∧ s.handed event = [func] := by
  cases thread with
  | some thread =>
    have behind : thread ∉ s.waking := of_decide_eq_true may
    refine ⟨.queueInLoop thread func, ?_, if_neg behind⟩
    rw [step, if_neg behind]
    rfl
  | none =>
    rw [mayQueue, Bool.and_eq_true, Bool.not_eq_true'] at may
    refine ⟨.loop (.queueInLoop func), ?_, if_pos may⟩
    rw [loop_queueInLoop, if_pos may]
    rfl

/-- A first part of a section is a step of the loop, or none. -/
theorem section_steps {s : EventLoop Functor Thread × List Functor} {thread : Option Thread}
    {done rest : List (QueueStatement Functor)}
    (enters : s.1.entersQueue thread (done ++ rest) = true) :
    ∃ steps, done.foldl (fun s => (guardedQueue Functor Thread).exec s thread) s =
      run (recorded step recordQueued) s steps := by
  generalize whole : done ++ rest = section_ at enters
  unfold entersQueue at enters
  split at enters
  next func =>
    obtain ⟨event, once, handed⟩ := push_step enters
    rcases List.append_eq_singleton_iff.mp whole with ⟨rfl, -⟩ | ⟨rfl, -⟩
    · exact ⟨[], rfl⟩
    · refine ⟨[event], Prod.ext once ?_⟩
      rw [run_cons, run_nil, recorded, recordQueued, handed]
      rfl
  next =>
    obtain ⟨rfl, pushed, swaps⟩ := maySwap_iff.mp enters
    obtain ⟨⟨pc, pendingFunctors, calling, counter, waking, _, ran⟩, queued⟩ := s
    cases swaps
    cases pushed
    rcases List.append_eq_cons_iff.mp whole with ⟨rfl, -⟩ | ⟨more, rfl, parts⟩
    · exact ⟨[], rfl⟩
    · refine ⟨[.loop .swap], ?_⟩
      -- nobody has pushed between the swap and the `clear`
      rcases List.append_eq_singleton_iff.mp parts.symm with ⟨rfl, -⟩ | ⟨rfl, -⟩
      · rfl
      · exact Prod.ext rfl (List.append_nil _)
  next => cases enters

theorem outer_steps (s : EventLoop Functor Thread × List Functor) (thread : Option Thread)
    (event : Option (LoopStep Functor)) :
    ∃ steps, (guardedQueue Functor Thread).outer s thread event =
      run (recorded step recordQueued) s steps := by
  have silent : ∀ step : Step Functor Thread, s.1.handed step = [] →
      ∃ steps, (s.1.step step, s.2) = run (recorded EventLoop.step recordQueued) s steps :=
    fun step none => ⟨[step], Prod.ext rfl (recordQueued_silent none).symm⟩
  cases thread with
  | some thread => exact silent (.wakeup thread) rfl
  | none =>
    cases event with
    | none => exact silent .loopWakeup rfl
    | some small =>
      simp only [guardedQueue, outer]
      split
      next unguarded =>
        apply silent
        apply handed_loop
        rintro func rfl
        cases unguarded
      next => exact ⟨[], rfl⟩

/-- With the sections at once, the loop is where a run of `EventLoop` has brought it. -/
structure Reached (start : EventLoop Functor Thread × List Functor)
    (a : Atomic (Option Thread) (QueueStatement Functor) (EventLoop Functor Thread × List Functor)) :
    Prop where
  entered : a.Entered (guardedQueue Functor Thread)
  world : ∃ steps, a.world = run (recorded step recordQueued) start steps

theorem start_reached (start : EventLoop Functor Thread × List Functor) :
    Reached start { world := start } where
  entered := fun thread section_ todo => by cases todo
  world := ⟨[], rfl⟩

section
variable {start : EventLoop Functor Thread × List Functor}
  {a : Atomic (Option Thread) (QueueStatement Functor) (EventLoop Functor Thread × List Functor)}
  (reached : Reached start a)
include reached

/-- So it is after a first part of the section of a thread. -/
theorem Reached.part {thread : Option Thread} {done rest : List (QueueStatement Functor)}
    (todo : a.todo thread = some (done ++ rest)) :
    ∃ steps, done.foldl (fun s => (guardedQueue Functor Thread).exec s thread) a.world =
      run (recorded EventLoop.step recordQueued) start steps := by
  obtain ⟨steps, world⟩ := reached.world
  obtain ⟨more, parts⟩ := section_steps (reached.entered thread _ todo)
  exact ⟨steps ++ more, by rw [run_append, ← world, parts]⟩

theorem Reached.step
    (event : AtomicStep (Option Thread) (QueueStatement Functor) (Option (LoopStep Functor))) :
    Reached start (a.step (guardedQueue Functor Thread) event) := by
  refine ⟨reached.entered.step guardedQueue_independent (fun _ _ _ => rfl) event, ?_⟩
  cases event with
  | enter thread section_ =>
    simp only [Atomic.step]
    split
    next => exact reached.world
    next => exact reached.world
  | pass thread =>
    cases todo : a.todo thread with
    | none =>
      simp only [Atomic.step, todo]
      exact reached.world
    | some section_ =>
      rw [Atomic.step_pass (fun _ _ => rfl) todo]
      exact reached.part (todo.trans (congrArg some (List.append_nil section_).symm))
  | outer thread event =>
    simp only [Atomic.step]
    split
    next =>
      obtain ⟨steps, world⟩ := reached.world
      obtain ⟨more, same⟩ := outer_steps a.world thread event
      refine ⟨steps ++ more, ?_⟩
      rw [run_append, ← world]
      exact same
    next => exact reached.world

end

/-- Any number of threads that queue functors and the loop thread that swaps them out, taken apart
into what each does under `mutex_` and around it, one statement at a time: at every moment the loop
is where some run of whole steps has brought it. No functor is lost between the swap and the
`clear`, each runs at most once and in the order of the pushes, and one that waits at `Poll` is
announced. -/
theorem locked_queue_exact (counter : Nat) (waking : Finset Thread)
    (events : List (GuardedStep (Option Thread) (QueueStatement Functor)
      (Option (LoopStep Functor)))) :
    let s := (run (Guarded.step (guardedQueue Functor Thread))
      { world := ({ counter, waking }, []) } events).world
    (∃ steps, s = run (recorded step recordQueued) ({ counter, waking }, []) steps) ∧
      s.1.ran ++ s.1.pc.toRun ++ s.1.pendingFunctors = s.2 ∧
      (s.1.pc = .poll → s.1.pendingFunctors ≠ [] → 0 < s.1.counter ∨ s.1.waking.Nonempty) := by
  intro s
  let start : EventLoop Functor Thread × List Functor := ({ counter, waking }, [])
  have shows := Guarded.run_shows guardedQueue_independent start events
  have reached : Reached start (Guarded.atOnce (guardedQueue Functor Thread) start events) :=
    run_invariant (Reached start) _ _ (start_reached start) fun a event reached =>
      reached.step event
  have whole : ∃ steps, s = run (recorded step recordQueued) start steps := by
    cases owner : (run (Guarded.step (guardedQueue Functor Thread)) { world := start }
      events).lock.mutex_ with
    | none =>
      obtain ⟨steps, world⟩ := reached.world
      exact ⟨steps, (shows.free owner).trans world⟩
    | some thread =>
      -- the thread with the mutex is in the middle of its section
      obtain ⟨done, rest, -, todo, ended⟩ :=
        (shows.at_ thread).done ((shows.exact.mutex_ thread).mp owner)
      rw [Program.between_never (fun _ _ => rfl)] at ended
      obtain ⟨steps, parts⟩ := reached.part todo
      exact ⟨steps, (Prod.mk.inj ended).1.symm.trans parts⟩
  obtain ⟨steps, same⟩ := whole
  have covered : s.1.Covered s.2 := by
    rw [same]
    exact run_covered counter waking steps
  exact ⟨⟨steps, same⟩, covered.order, covered.at_poll⟩

end EventLoop

end RabbitServer.Net
