import RabbitServer.Net.EventLoop

/-! `EventLoop::stop`: how a loop comes to its end, whichever thread stops it, and which
functors it leaves behind. -/

namespace RabbitServer.Net
open Library.Runs

/-- Where `loop()` is: at its test of `quit_`, in a turn, or behind. -/
inductive WhileAt where
  | testing | turning | left
  deriving DecidableEq

/-- `stopping` are the other threads between `quit_ = true` and their wakeup write. -/
structure StoppingLoop (Functor Thread : Type*) where
  loop : EventLoop Functor Thread := {}
  whileAt : WhileAt := .testing
  quit : Bool := false
  stopping : Finset Thread := ∅

namespace StoppingLoop
variable {Functor Thread : Type*}

/-- `stopInLoop` is a call of `stop` in a callback or a functor of the loop itself. -/
inductive Event (Functor Thread : Type*) where
  | loop (step : EventLoop.Step Functor Thread)
  | test
  | stop (thread : Thread)
  | wakeup (thread : Thread)
  | stopInLoop

/-- The loop thread makes its steps inside a turn, and a thread in `stop()` makes no other. -/
def Free (s : StoppingLoop Functor Thread) : EventLoop.Step Functor Thread → Prop
  | .queueInLoop thread _ => thread ∉ s.stopping
  | .wakeup _ => True
  | .loopWakeup => s.whileAt = .turning
  | .loop _ => s.whileAt = .turning

instance [DecidableEq Thread] (s : StoppingLoop Functor Thread) :
    (step : EventLoop.Step Functor Thread) → Decidable (s.Free step)
  | .queueInLoop thread _ => inferInstanceAs (Decidable (thread ∉ s.stopping))
  | .wakeup _ => inferInstanceAs (Decidable True)
  | .loopWakeup => inferInstanceAs (Decidable (s.whileAt = .turning))
  | .loop _ => inferInstanceAs (Decidable (s.whileAt = .turning))

/-- `doPendingFunctors` returns, and the turn is over. -/
def ends (s : StoppingLoop Functor Thread) (step : EventLoop.Step Functor Thread) : Bool :=
  match step, s.loop.pc with
  | .loop .clearCalling, .running [] => !s.loop.loopPushed
  | _, _ => false

/-- The loop thread is in a callback or a functor. -/
def inside (s : StoppingLoop Functor Thread) : Bool :=
  match s.loop.pc with
  | .handling (.other :: _) => !s.loop.loopPushed
  | .inFunctor _ => !s.loop.loopPushed
  | _ => false

variable [DecidableEq Thread]

def step (s : StoppingLoop Functor Thread) : Event Functor Thread → StoppingLoop Functor Thread
  | .loop step =>
    if s.Free step then
      { s with
        loop := s.loop.step step
        whileAt := if s.ends step then .testing else s.whileAt }
    else s
  | .test =>
    if s.whileAt = .testing then { s with whileAt := if s.quit then .left else .turning } else s
  | .stop thread =>
    if thread ∈ s.stopping ∨ thread ∈ s.loop.waking then s
    else { s with quit := true, stopping := insert thread s.stopping }
  | .wakeup thread =>
    if thread ∈ s.stopping ∧ s.loop.counter < EventLoop.counterMax then
      { s with
        loop := { s.loop with counter := s.loop.counter + 1 }
        stopping := s.stopping.erase thread }
    else s
  | .stopInLoop => if s.inside then { s with quit := true } else s

/-- How often `Poll` has returned since `quit_` was set. -/
def recordPolls (s : StoppingLoop Functor Thread) (event : Event Functor Thread) (polls : Nat) :
    Nat :=
  match event, s.loop.pc, (s.step event).loop.pc with
  | .loop (.loop (.poll _)), .poll, .handling _ => if s.quit then polls + 1 else polls
  | _, _, _ => polls

/-- The functors that have been handed to `QueueInLoop`. -/
def recordQueued (s : StoppingLoop Functor Thread) (event : Event Functor Thread)
    (queued : List Functor) : List Functor :=
  match event with
  | .loop step => if s.Free step then s.loop.recordQueued step queued else queued
  | _ => queued

structure Story (Functor : Type*) where
  polls : Nat := 0
  queued : List Functor := []

def record (s : StoppingLoop Functor Thread) (event : Event Functor Thread)
    (story : Story Functor) : Story Functor where
  polls := s.recordPolls event story.polls
  queued := s.recordQueued event story.queued

/-- Between the turns the loop thread is in no function of the loop. After `quit_` is set the
loop can be in `Poll` once more, and is woken there. -/
structure Stopping (s : StoppingLoop Functor Thread × Story Functor) : Prop where
  covered : s.1.loop.Covered s.2.queued
  between : s.1.whileAt ≠ .turning → s.1.loop.pc = .poll
  awake : s.1.quit = true → s.1.whileAt = .turning → s.1.loop.pc = .poll →
    0 < s.1.loop.counter ∨ s.1.stopping.Nonempty
  once : s.2.polls ≤ 1
  unpolled : s.1.whileAt = .turning → s.1.loop.pc = .poll → s.2.polls = 0
  unstopped : s.1.quit = false → s.2.polls = 0
  finished : s.1.whileAt = .left → s.1.quit = true

omit [DecidableEq Thread] in
theorem start_stopping (counter : Nat) (waking : Finset Thread) :
    Stopping (({ loop := { counter, waking } }, {}) :
      StoppingLoop Functor Thread × Story Functor) where
  covered := EventLoop.start_covered counter waking
  between := fun _ => rfl
  awake := nofun
  once := Nat.zero_le 1
  unpolled := fun _ _ => rfl
  unstopped := fun _ => rfl
  finished := nofun

/-- No return of `Poll` is counted where the loop thread stays. -/
theorem recorded_same {s : StoppingLoop Functor Thread × Story Functor}
    {event : Event Functor Thread} (same : (s.1.step event).loop.pc = s.1.loop.pc) :
    recorded step record s event =
      (s.1.step event, ⟨s.2.polls, s.1.recordQueued event s.2.queued⟩) := by
  have polls : s.1.recordPolls event s.2.polls = s.2.polls := by
    unfold recordPolls
    split
    next active before after =>
      rw [same, before] at after
      cases after
    next => rfl
  rw [recorded, record, polls]

omit [DecidableEq Thread] in
/-- `Poll` is reached in one way. -/
theorem loopStep_poll (s : EventLoop Functor Thread) (step : EventLoop.LoopStep Functor)
    (poll : (s.loopStep step).pc = .poll) :
    s.loopStep step = s ∨ (step = .clearCalling ∧ s.pc = .running []) := by
  unfold EventLoop.loopStep at poll ⊢
  split
  next active before =>
    split
    next can =>
      simp only [before, if_pos can] at poll
      cases poll
    next => exact Or.inl rfl
  next rest before =>
    split
    next can =>
      simp only [before, if_pos can] at poll
      cases poll
    next => exact Or.inl rfl
  next rest before =>
    simp only [before] at poll
    cases poll
  next func rest before =>
    simp only [before, EventLoop.push] at poll
    cases poll
  next func toRun before =>
    simp only [before, EventLoop.push] at poll
    cases poll
  next before =>
    simp only [before] at poll
    cases poll
  next before =>
    simp only [before] at poll
    cases poll
  next func toRun before =>
    simp only [before] at poll
    cases poll
  next toRun before =>
    simp only [before] at poll
    cases poll
  next before => exact Or.inr ⟨rfl, before⟩
  next => exact Or.inl rfl

section
variable {s : StoppingLoop Functor Thread × Story Functor} (stopping : Stopping s)
include stopping

omit [DecidableEq Thread] in
/-- A step that leaves the loop thread where it is. -/
theorem Stopping.stay {after : StoppingLoop Functor Thread} {queued : List Functor}
    (covered : after.loop.Covered queued) (pc : after.loop.pc = s.1.loop.pc) (whileAt : after.whileAt = s.1.whileAt)
    (quit : after.quit = s.1.quit)
    (awake : 0 < s.1.loop.counter ∨ s.1.stopping.Nonempty →
      0 < after.loop.counter ∨ after.stopping.Nonempty) :
    Stopping (after, ⟨s.2.polls, queued⟩) where
  covered
  between := by
    rw [whileAt, pc]
    exact stopping.between
  awake := by
    rw [quit, whileAt, pc]
    exact fun quit turning poll => awake (stopping.awake quit turning poll)
  once := stopping.once
  unpolled := by
    rw [whileAt, pc]
    exact stopping.unpolled
  unstopped := by
    rw [quit]
    exact stopping.unstopped
  finished := by
    rw [whileAt, quit]
    exact stopping.finished

/-- A step of the loop that only adds to the counter, and not one of the loop thread. -/
theorem Stopping.outside {step : EventLoop.Step Functor Thread} (free : s.1.Free step)
    (ends : s.1.ends step = false) (pc : (s.1.loop.step step).pc = s.1.loop.pc)
    (counter : s.1.loop.counter ≤ (s.1.loop.step step).counter) :
    Stopping (recorded StoppingLoop.step record s (.loop step)) := by
  have same : s.1.step (.loop step) = { s.1 with loop := s.1.loop.step step } := by
    rw [StoppingLoop.step, if_pos free, ends]
    rfl
  rw [recorded_same (by rw [same]; exact pc), same, recordQueued, if_pos free]
  exact stopping.stay (stopping.covered.step step) pc rfl rfl fun awake =>
    awake.imp_left fun positive => positive.trans_le counter

/-- A step of the loop thread inside a turn: a return of `Poll` is counted, and where the turn
is over the test comes next. -/
theorem Stopping.loopStep (turning : s.1.whileAt = .turning) (step : EventLoop.LoopStep Functor) :
    Stopping (recorded StoppingLoop.step record s (.loop (.loop step))) := by
  have covered := stopping.covered.step (.loop step)
  have queued : s.1.recordQueued (.loop (.loop step)) s.2.queued =
      s.1.loop.recordQueued (.loop step) s.2.queued := if_pos turning
  have after : s.1.step (.loop (.loop step)) = { s.1 with
      loop := s.1.loop.step (.loop step)
      whileAt := if s.1.ends (.loop step) then .testing else s.1.whileAt } := if_pos turning
  by_cases poll : (s.1.loop.step (.loop step)).pc = .poll
  · have counted : recordPolls s.1 (.loop (.loop step)) s.2.polls = s.2.polls := by
      unfold recordPolls
      split
      next active _ handling =>
        rw [after] at handling
        cases poll.symm.trans handling
      next => rfl
    cases ends : s.1.ends (.loop step) with
    | true =>
      rw [recorded, record, counted, queued, after, ends]
      exact {
        covered
        between := fun _ => poll
        awake := nofun
        once := stopping.once
        unpolled := nofun
        unstopped := stopping.unstopped
        finished := nofun }
    | false =>
      -- the loop thread was in `Poll`, and still is
      have still : s.1.loop.step (.loop step) = s.1.loop := by
        by_cases pushed : s.1.loop.loopPushed
        · exact if_pos pushed
        · rw [EventLoop.step, if_neg pushed] at poll ⊢
          rcases loopStep_poll s.1.loop step poll with same | ⟨rfl, pc⟩
          · exact same
          · simp [StoppingLoop.ends, pc, pushed] at ends
      have unqueued := still ▸ covered
      rw [recorded, record, counted, queued, after, ends, still]
      exact stopping.stay unqueued rfl rfl rfl id
  · have unended : s.1.ends (.loop step) = false := by
      by_contra ends
      have ended : s.1.ends (.loop step) = true := by simpa using ends
      unfold StoppingLoop.ends at ended
      split at ended
      next same pc =>
        cases same
        have free : s.1.loop.loopPushed = false := by simpa using ended
        exact poll (by simp [EventLoop.step, EventLoop.loopStep, pc, free])
      next => cases ended
    have few : recordPolls s.1 (.loop (.loop step)) s.2.polls ≤ 1 ∧
        (s.1.quit = false → recordPolls s.1 (.loop (.loop step)) s.2.polls = 0) := by
      unfold recordPolls
      split
      next active before _ =>
        have none := stopping.unpolled turning before
        split
        next quit => exact ⟨by omega, fun unset => by rw [quit] at unset; cases unset⟩
        next => exact ⟨by omega, fun _ => none⟩
      next => exact ⟨stopping.once, stopping.unstopped⟩
    rw [recorded, record, queued, after, unended]
    exact {
      covered
      between := fun other => absurd turning other
      awake := fun _ _ here => absurd here poll
      once := few.1
      unpolled := fun _ here => absurd here poll
      unstopped := few.2
      finished := fun left => absurd (turning.symm.trans left) (by decide) }

theorem Stopping.step (event : Event Functor Thread) :
    Stopping (recorded StoppingLoop.step record s event) := by
  cases event with
  | loop step =>
    by_cases free : s.1.Free step
    · cases step with
      | loop step => exact stopping.loopStep free step
      | queueInLoop thread func =>
        apply stopping.outside free rfl
        · simp only [EventLoop.step]
          split <;> rfl
        · simp only [EventLoop.step]
          split <;> exact Nat.le_refl _
      | wakeup thread =>
        apply stopping.outside free rfl
        · simp only [EventLoop.step]
          split <;> rfl
        · simp only [EventLoop.step]
          split
          · exact Nat.le_succ _
          · exact Nat.le_refl _
      | loopWakeup =>
        apply stopping.outside free rfl
        · simp only [EventLoop.step]
          split_ifs <;> rfl
        · simp only [EventLoop.step]
          split_ifs
          · exact Nat.le_succ _
          all_goals exact Nat.le_refl _
    · have same : s.1.step (.loop step) = s.1 := if_neg free
      rw [recorded_same (by rw [same]), same, recordQueued, if_neg free]
      exact stopping
  | test =>
    have same : (s.1.step .test).loop = s.1.loop := by
      simp only [StoppingLoop.step]
      split <;> rfl
    rw [recorded_same (by rw [same])]
    simp only [StoppingLoop.step]
    split
    next testing =>
      have poll := stopping.between (by rw [testing]; decide)
      by_cases quit : s.1.quit = true
      · rw [if_pos quit]
        exact {
          covered := stopping.covered
          between := fun _ => poll
          awake := fun _ turning => by cases turning
          once := stopping.once
          unpolled := fun turning => by cases turning
          unstopped := stopping.unstopped
          finished := fun _ => quit }
      · rw [if_neg quit]
        exact {
          covered := stopping.covered
          between := fun _ => poll
          awake := fun set => absurd set quit
          once := stopping.once
          unpolled := fun _ _ => stopping.unstopped (by simpa using quit)
          unstopped := stopping.unstopped
          finished := fun left => by cases left }
    next => exact stopping
  | stop thread =>
    have same : (s.1.step (.stop thread)).loop = s.1.loop := by
      simp only [StoppingLoop.step]
      split <;> rfl
    rw [recorded_same (by rw [same])]
    simp only [StoppingLoop.step]
    split
    next => exact stopping
    next =>
      exact {
        covered := stopping.covered
        between := stopping.between
        awake := fun _ _ _ => Or.inr (Finset.insert_nonempty thread _)
        once := stopping.once
        unpolled := stopping.unpolled
        unstopped := fun unset => by cases unset
        finished := fun _ => rfl }
  | wakeup thread =>
    have same : (s.1.step (.wakeup thread)).loop.pc = s.1.loop.pc := by
      simp only [StoppingLoop.step]
      split <;> rfl
    rw [recorded_same same]
    simp only [StoppingLoop.step]
    split
    next =>
      have covered := stopping.covered
      exact stopping.stay ⟨covered.order, fun _ => Or.inr (Or.inl (Nat.succ_pos _)),
        covered.flagged, covered.inside⟩ rfl rfl rfl fun _ => Or.inl (Nat.succ_pos _)
    next => exact stopping
  | stopInLoop =>
    have same : (s.1.step .stopInLoop).loop = s.1.loop := by
      simp only [StoppingLoop.step]
      split <;> rfl
    rw [recorded_same (by rw [same])]
    simp only [StoppingLoop.step]
    split
    next inside =>
      -- a callback or a functor is running, so `Poll` is behind
      have away : s.1.loop.pc ≠ .poll := by
        intro poll
        simp [StoppingLoop.inside, poll] at inside
      exact {
        covered := stopping.covered
        between := stopping.between
        awake := fun _ _ here => absurd here away
        once := stopping.once
        unpolled := stopping.unpolled
        unstopped := fun unset => by cases unset
        finished := fun _ => rfl }
    next => exact stopping

end

/-- A loop that has come to its end calls no functor any more. -/
theorem left_step {s : StoppingLoop Functor Thread} (left : s.whileAt = .left)
    (poll : s.loop.pc = .poll) (event : Event Functor Thread) :
    (s.step event).whileAt = .left ∧ (s.step event).loop.pc = .poll ∧
      (s.step event).loop.ran = s.loop.ran := by
  cases event with
  | loop step =>
    simp only [StoppingLoop.step]
    split
    next free =>
      cases step with
      | queueInLoop thread func =>
        refine ⟨left, ?_⟩
        simp only [EventLoop.step]
        split <;> exact ⟨poll, rfl⟩
      | wakeup thread =>
        refine ⟨left, ?_⟩
        simp only [EventLoop.step]
        split <;> exact ⟨poll, rfl⟩
      | loopWakeup => exact absurd (left.symm.trans free) (by decide)
      | loop step => exact absurd (left.symm.trans free) (by decide)
    next => exact ⟨left, poll, rfl⟩
  | test =>
    rw [StoppingLoop.step, if_neg (by rw [left]; decide)]
    exact ⟨left, poll, rfl⟩
  | stop thread =>
    simp only [StoppingLoop.step]
    split <;> exact ⟨left, poll, rfl⟩
  | wakeup thread =>
    simp only [StoppingLoop.step]
    split <;> exact ⟨left, poll, rfl⟩
  | stopInLoop =>
    simp only [StoppingLoop.step]
    split <;> exact ⟨left, poll, rfl⟩

/-- However the threads interleave: a loop that is to stop does not sleep on it, it polls once
more at most, and when it has come to its end it has called all it has ever swapped out; what
was queued behind that is never called. -/
theorem stop_exact (counter : Nat) (waking : Finset Thread)
    (events : List (Event Functor Thread)) :
    let s := run (recorded step record) ({ loop := { counter, waking } }, {}) events
    (s.1.quit = true → s.1.whileAt = .turning → s.1.loop.pc = .poll →
        0 < s.1.loop.counter ∨ s.1.stopping.Nonempty) ∧
      s.2.polls ≤ 1 ∧
      (s.1.whileAt = .left → s.1.quit = true ∧
        s.1.loop.ran ++ s.1.loop.pendingFunctors = s.2.queued ∧
        ∀ later, (run step s.1 later).whileAt = .left ∧
          (run step s.1 later).loop.ran = s.1.loop.ran) := by
  intro s
  have stopping : Stopping s := run_invariant Stopping _ events (start_stopping counter waking)
    fun s event stopping => stopping.step event
  refine ⟨stopping.awake, stopping.once, ?_⟩
  intro left
  have poll := stopping.between (by rw [left]; decide)
  have order := stopping.covered.order
  rw [poll, LoopPc.toRun, List.append_nil] at order
  · refine ⟨stopping.finished left, order, ?_⟩
    intro later
    have still := run_invariant (fun after : StoppingLoop Functor Thread =>
      after.whileAt = .left ∧ after.loop.pc = .poll ∧ after.loop.ran = s.1.loop.ran) s.1 later
      ⟨left, poll, rfl⟩ fun after event kept => by
        obtain ⟨left, poll, ran⟩ := left_step kept.1 kept.2.1 event
        exact ⟨left, poll, ran.trans kept.2.2⟩
    exact ⟨still.1, still.2.2⟩
  all_goals rintro toRun ⟨⟩

end StoppingLoop

end RabbitServer.Net
