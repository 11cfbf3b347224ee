import Mathlib.Data.Finset.Card
import Mathlib.Data.Prod.Lex
import Mathlib.Order.WellFounded
import RabbitServer.Library.Progress
import RabbitServer.Net.EventLoop

/-! The functor queue of `net/EventLoop.cpp` once nobody queues any more: the loop thread and the
threads that have still to write to `wakeup_fd_`, in any fair order. -/

namespace RabbitServer.Net
open Library.Runs

/-- The loop, with the number of steps the loop thread has made. -/
structure QuietLoop (Functor Thread : Type*) where
  loop : EventLoop Functor Thread
  steps : Nat := 0

namespace QuietLoop
variable {Functor Thread : Type*}

/-- What `Poll` finds: the wakeup channel when its counter is not zero, and the other channels that
are ready then. -/
def found (others : ℕ → ℕ) (s : QuietLoop Functor Thread) : List ActiveChannel :=
  (if 0 < s.loop.counter then [.wakeupChannel] else []) ++
    List.replicate (others s.steps) .other

/-- What the loop thread does next; callbacks and functors return, and queue nothing. A poll that
finds nothing does not return. -/
def next (others : ℕ → ℕ) (s : QuietLoop Functor Thread) : Option (EventLoop.LoopStep Functor) :=
  match s.loop.pc with
  | .poll => if s.found others = [] then none else some (.poll (s.found others))
  | .handling [] => some .setCalling
  | .handling (.wakeupChannel :: _) => some .handleRead
  | .handling (.other :: _) => some .handled
  | .calling => some .swap
  | .running [] => some .clearCalling
  | .running (_ :: _) => some .call
  | .inFunctor _ => some .returned

/-- The loop thread is `none`. -/
def step [DecidableEq Thread] (others : ℕ → ℕ) (s : QuietLoop Functor Thread) :
    Option Thread → QuietLoop Functor Thread
  | some thread => { s with loop := s.loop.step (.wakeup thread) }
  | none =>
    if s.loop.loopPushed then { s with loop := s.loop.step .loopWakeup }
    else
      match s.next others with
      | none => s
      | some small => { loop := s.loop.step (.loop small), steps := s.steps + 1 }

/-- Where the loop thread is on its way from a functor to the next one. -/
def phase : LoopPc Functor → Nat
  | .inFunctor _ => 6
  | .running [] => 5
  | .poll => 4
  | .handling _ => 3
  | .calling => 2
  | .running (_ :: _) => 1

/-- The channels still to handle. -/
def channels : LoopPc Functor → Nat
  | .handling activeChannels => activeChannels.length
  | _ => 0

/-- The functors and the wakeups to come. -/
def work (s : EventLoop Functor Thread) : Nat :=
  s.pendingFunctors.length + s.pc.toRun.length + s.waking.card + s.loopPushed.toNat

/-- The work, then the way to the next functor, then the channels on it. -/
def rank (s : QuietLoop Functor Thread) : ℕ ×ₗ ℕ :=
  toLex (8 * work s.loop + phase s.loop.pc, channels s.loop.pc)

/-- Of the wakeup channel, `epoll_wait` reports one entry at most, and one means that the counter is
not zero. -/
def Readable (s : EventLoop Functor Thread) : Prop :=
  match s.pc with
  | .handling activeChannels => activeChannels.count .wakeupChannel ≤ 1 ∧
      (.wakeupChannel ∈ activeChannels → 0 < s.counter)
  | _ => True

/-- Each poll reports the wakeup channel at most once. -/
def ReportsOnce : EventLoop.Step Functor Thread → Prop
  | .loop (.poll activeChannels) => activeChannels.count .wakeupChannel ≤ 1
  | _ => True

/-- What holds once nobody queues any more; `queued` is all that has been. -/
structure Quiet (queued : List Functor) (s : QuietLoop Functor Thread) : Prop where
  covered : s.loop.Covered queued
  readable : Readable s.loop
  room : s.loop.counter + s.loop.waking.card + s.loop.loopPushed.toNat ≤ EventLoop.counterMax

variable {s : QuietLoop Functor Thread} {others : ℕ → ℕ} {queued : List Functor}

theorem found_wakeup : ActiveChannel.wakeupChannel ∈ s.found others → 0 < s.loop.counter := by
  intro member
  by_contra empty
  simp [found, empty] at member

theorem found_once : (s.found others).count .wakeupChannel ≤ 1 := by
  rw [found, List.count_append, List.count_replicate]
  split <;> simp

/-- Less work, or the same and a shorter way to the next functor. -/
theorem rank_lt_of_left {s t : QuietLoop Functor Thread}
    (less : 8 * work s.loop + phase s.loop.pc < 8 * work t.loop + phase t.loop.pc) :
    rank s < rank t := Prod.Lex.toLex_lt_toLex.mpr (Or.inl less)

theorem phase_running_le (toRun : List Functor) : phase (.running toRun) ≤ 5 := by
  cases toRun <;> simp [phase]

/-- Until all functors have been called, each step of the loop thread is a step forward. -/
theorem next_rank (order : s.loop.Covered queued) (readable : Readable s.loop)
    {small : EventLoop.LoopStep Functor} (next : s.next others = some small)
    (unfinished : s.loop.ran ≠ queued) :
    rank { loop := s.loop.loopStep small, steps := s.steps + 1 } < rank s := by
  have whole := order.order
  obtain ⟨⟨pc, pendingFunctors, calling, counter, waking, pushed, ran⟩, steps⟩ := s
  simp only [QuietLoop.next] at next
  cases pc with
  | poll =>
    simp only at next
    split at next
    · cases next
    · cases next
      have reported : .wakeupChannel ∈ found others ⟨⟨.poll, pendingFunctors, calling, counter,
        waking, pushed, ran⟩, steps⟩ → 0 < counter := found_wakeup
      apply rank_lt_of_left
      simp only [EventLoop.loopStep, if_pos reported, work, LoopPc.toRun, phase]
      omega
  | handling activeChannels =>
    cases activeChannels with
    | nil =>
      cases next
      apply rank_lt_of_left
      simp only [EventLoop.loopStep, work, LoopPc.toRun, phase]
      omega
    | cons channel rest =>
      have shorter : rest.length < (channel :: rest).length := Nat.lt_succ_self _
      cases channel with
      | wakeupChannel =>
        cases next
        have counted : 0 < counter := readable.2 (List.mem_cons_self ..)
        simp only [EventLoop.loopStep, if_pos counted]
        exact Prod.Lex.toLex_lt_toLex.mpr (Or.inr ⟨rfl, shorter⟩)
      | other =>
        cases next
        exact Prod.Lex.toLex_lt_toLex.mpr (Or.inr ⟨rfl, shorter⟩)
  | calling =>
    cases next
    cases pendingFunctors with
    | nil =>
      -- nothing is queued and nothing was swapped out
      simp only [LoopPc.toRun, List.append_nil] at whole
      exact absurd whole unfinished
    | cons func pendingFunctors =>
      apply rank_lt_of_left
      simp only [EventLoop.loopStep, work, LoopPc.toRun, phase, List.length_nil]
      omega
  | running toRun =>
    cases toRun with
    | nil =>
      cases next
      apply rank_lt_of_left
      simp only [EventLoop.loopStep, work, LoopPc.toRun, phase]
      omega
    | cons func toRun =>
      cases next
      apply rank_lt_of_left
      simp only [EventLoop.loopStep, work, LoopPc.toRun, phase, List.length_cons]
      omega
  | inFunctor toRun =>
    cases next
    apply rank_lt_of_left
    have shorter := phase_running_le toRun
    simp only [EventLoop.loopStep, work, LoopPc.toRun]
    change 8 * _ + phase (.running toRun) < 8 * _ + 6
    omega

theorem Readable.mono {loop later : EventLoop Functor Thread} (readable : Readable loop)
    (pc : later.pc = loop.pc) (counter : loop.counter ≤ later.counter) : Readable later := by
  unfold Readable at readable ⊢
  rw [pc]
  split at readable
  next => exact ⟨readable.1, fun member => (readable.2 member).trans_le counter⟩
  next => trivial

/-- What `Poll` reports stays readable until it is read. -/
theorem Readable.loopStep {loop : EventLoop Functor Thread} (readable : Readable loop)
    {small : EventLoop.LoopStep Functor}
    (once : ReportsOnce (.loop small : EventLoop.Step Functor Thread)) :
    Readable (loop.loopStep small) := by
  have before := readable
  unfold Readable at before
  unfold EventLoop.loopStep
  split
  next activeChannels pc =>
    split
    next reported => exact ⟨once, reported⟩
    next => exact readable
  next rest pc =>
    split
    next =>
      rw [pc] at before
      have single := before.1
      rw [List.count_cons_self] at single
      have gone : .wakeupChannel ∉ rest := List.count_eq_zero.mp (by omega)
      exact ⟨by omega, fun member => absurd member gone⟩
    next => exact readable
  next rest pc =>
    rw [pc] at before
    have single := before.1
    rw [List.count_cons_of_ne (by decide)] at single
    exact ⟨single, fun member => before.2 (List.mem_cons_of_mem _ member)⟩
  next => exact readable.mono rfl (Nat.le_refl _)
  next => exact readable.mono rfl (Nat.le_refl _)
  next => trivial
  next => trivial
  next => trivial
  next => trivial
  next => trivial
  next => exact readable

theorem next_once {small : EventLoop.LoopStep Functor} (next : s.next others = some small) :
    ReportsOnce (.loop small : EventLoop.Step Functor Thread) := by
  unfold QuietLoop.next at next
  split at next
  · split at next
    · cases next
    · cases next
      exact found_once
  all_goals
    cases next
    trivial

theorem next_queues_nothing {small : EventLoop.LoopStep Functor}
    (next : s.next others = some small) (func : Functor) : small ≠ .queueInLoop func := by
  rintro rfl
  unfold QuietLoop.next at next
  split at next
  · split at next
    · cases next
    · cases next
  all_goals cases next

/-- The loop thread only takes from the counter, and leaves to the others what they have to do. -/
theorem loopStep_leaves {loop : EventLoop Functor Thread} {small : EventLoop.LoopStep Functor}
    (queues : ∀ func, small ≠ .queueInLoop func) :
    (loop.loopStep small).counter ≤ loop.counter ∧
      (loop.loopStep small).waking = loop.waking ∧
      (loop.loopStep small).loopPushed = loop.loopPushed := by
  unfold EventLoop.loopStep
  split
  next => split <;> exact ⟨Nat.le_refl _, rfl, rfl⟩
  next =>
    split
    · exact ⟨Nat.zero_le _, rfl, rfl⟩
    · exact ⟨Nat.le_refl _, rfl, rfl⟩
  next => exact ⟨Nat.le_refl _, rfl, rfl⟩
  next func _ _ => exact absurd rfl (queues func)
  next func _ _ => exact absurd rfl (queues func)
  all_goals exact ⟨Nat.le_refl _, rfl, rfl⟩

variable [DecidableEq Thread]

theorem Readable.step {loop : EventLoop Functor Thread} (readable : Readable loop)
    {step : EventLoop.Step Functor Thread} (once : ReportsOnce step) :
    Readable (loop.step step) := by
  cases step with
  | queueInLoop thread func =>
    simp only [EventLoop.step]
    split
    next => exact readable
    next => exact readable.mono rfl (Nat.le_refl _)
  | wakeup thread =>
    simp only [EventLoop.step]
    split
    next => exact readable.mono rfl (Nat.le_succ _)
    next => exact readable
  | loopWakeup =>
    simp only [EventLoop.step]
    split
    next =>
      split
      next =>
        split
        next => exact readable.mono rfl (Nat.le_succ _)
        next => exact readable
      next => exact readable.mono rfl (Nat.le_refl _)
    next => exact readable
  | loop small =>
    simp only [EventLoop.step]
    split
    next => exact readable
    next => exact readable.loopStep once

/-- The write of a thread that has one to make. -/
theorem wakeup_step {loop : EventLoop Functor Thread} {thread : Thread}
    (ready : thread ∈ loop.waking ∧ loop.counter < EventLoop.counterMax) :
    loop.step (.wakeup thread) =
      { loop with waking := loop.waking.erase thread, counter := loop.counter + 1 } := if_pos ready

theorem Quiet.wakeup (quiet : Quiet queued s) (thread : Thread) :
    Quiet queued { s with loop := s.loop.step (.wakeup thread) } := by
  have covered := quiet.covered.step (.wakeup thread)
  rw [EventLoop.recordQueued_silent rfl] at covered
  refine ⟨covered, quiet.readable.step trivial, ?_⟩
  have room := quiet.room
  by_cases ready : thread ∈ s.loop.waking ∧ s.loop.counter < EventLoop.counterMax
  · have fewer := Finset.card_erase_add_one ready.1
    simp only [wakeup_step ready]
    omega
  · simp only [EventLoop.step, if_neg ready]
    exact room

theorem Quiet.loopWakeup (quiet : Quiet queued s) (pushed : s.loop.loopPushed = true) :
    Quiet queued { s with loop := s.loop.step .loopWakeup } := by
  have covered := quiet.covered.step .loopWakeup
  rw [EventLoop.recordQueued_silent rfl] at covered
  refine ⟨covered, quiet.readable.step trivial, ?_⟩
  have room := quiet.room
  simp only [pushed, Bool.toNat_true] at room
  simp only [EventLoop.step, if_pos pushed]
  split
  next =>
    split
    next =>
      simp only [Bool.toNat_false]
      omega
    next => exact quiet.room
  next =>
    simp only [Bool.toNat_false]
    omega

theorem Quiet.step (quiet : Quiet queued s) (party : Option Thread) : Quiet queued (s.step others party) := by
  cases party with
  | some thread => exact quiet.wakeup thread
  | none =>
    simp only [QuietLoop.step]
    split
    next pushed => exact quiet.loopWakeup pushed
    next free =>
      split
      next => exact quiet
      next small next =>
        obtain ⟨counter, waking, pushed⟩ :=
          @loopStep_leaves _ _ s.loop small (next_queues_nothing next)
        have room := quiet.room
        have covered := quiet.covered.step (.loop small)
        rw [EventLoop.recordQueued_silent
          (EventLoop.handed_loop (next_queues_nothing next))] at covered
        refine ⟨covered, ?_, ?_⟩
        · simp only [EventLoop.step, if_neg free]
          exact quiet.readable.loopStep (next_once next)
        · simp only [EventLoop.step, if_neg free, waking, pushed]
          omega

omit [DecidableEq Thread] in
theorem next_none (next : s.next others = none) : s.loop.pc = .poll ∧ s.loop.counter = 0 := by
  unfold QuietLoop.next at next
  split at next
  next pc =>
    split at next
    next nothing =>
      refine ⟨pc, Nat.eq_zero_of_not_pos fun counted => ?_⟩
      rw [found, if_pos counted] at nothing
      cases nothing
    next => cases next
  all_goals cases next

/-- A wakeup that is written is one less to come. -/
theorem wakeup_rank {thread : Thread}
    (ready : thread ∈ s.loop.waking ∧ s.loop.counter < EventLoop.counterMax) :
    rank (s.step others (some thread)) < rank s := by
  have fewer := Finset.card_erase_add_one ready.1
  apply rank_lt_of_left
  simp only [step, wakeup_step ready, work]
  omega

theorem loopWakeup_rank (quiet : Quiet queued s) (pushed : s.loop.loopPushed = true) :
    rank { s with loop := s.loop.step .loopWakeup } < rank s := by
  have room := quiet.room
  simp only [pushed, Bool.toNat_true] at room
  apply rank_lt_of_left
  simp only [EventLoop.step, if_pos pushed, work]
  split
  next =>
    rw [if_pos (by omega)]
    simp only [pushed, Bool.toNat_true, Bool.toNat_false]
    omega
  next =>
    simp only [pushed, Bool.toNat_true, Bool.toNat_false]
    omega

theorem Quiet.descends (quiet : Quiet queued s) (unfinished : s.loop.ran ≠ queued)
    (party : Option Thread) : s.step others party = s ∨ rank (s.step others party) < rank s := by
  cases party with
  | some thread =>
    by_cases ready : thread ∈ s.loop.waking ∧ s.loop.counter < EventLoop.counterMax
    · exact Or.inr (wakeup_rank ready)
    · left
      rw [QuietLoop.step, EventLoop.step, if_neg ready]
  | none =>
    simp only [QuietLoop.step]
    split
    next pushed => exact Or.inr (loopWakeup_rank quiet pushed)
    next free =>
      split
      next => exact Or.inl rfl
      next small next =>
        right
        simp only [EventLoop.step, if_neg free]
        exact next_rank quiet.covered quiet.readable next unfinished

/-- At `Poll` a functor that waits is announced, so that one of the threads can go on. -/
theorem Quiet.moves (quiet : Quiet queued s) (unfinished : s.loop.ran ≠ queued) :
    ∃ party, s.step others party ≠ s := by
  by_cases pushed : s.loop.loopPushed = true
  · refine ⟨none, fun same => ?_⟩
    have lower := loopWakeup_rank quiet pushed
    rw [QuietLoop.step, if_pos pushed] at same
    rw [same] at lower
    exact lt_irrefl _ lower
  cases next : s.next others with
  | some small =>
    refine ⟨none, fun same => ?_⟩
    rw [QuietLoop.step, if_neg pushed, next] at same
    exact absurd (congrArg QuietLoop.steps same) (Nat.succ_ne_self _)
  | none =>
    obtain ⟨pc, empty⟩ := next_none next
    have whole : s.loop.ran ++ s.loop.pendingFunctors = queued := by
      have order := quiet.covered.order
      simpa only [pc, LoopPc.toRun, List.append_nil] using order
    have waits : s.loop.pendingFunctors ≠ [] := by
      intro empty
      rw [empty, List.append_nil] at whole
      exact unfinished whole
    rcases quiet.covered.at_poll pc waits with counted | ⟨thread, waking⟩
    · rw [empty] at counted
      cases counted
    · have ready : thread ∈ s.loop.waking ∧ s.loop.counter < EventLoop.counterMax :=
        ⟨waking, by rw [empty]; decide⟩
      refine ⟨some thread, fun same => ?_⟩
      have lower : rank (s.step others (some thread)) < rank s := wakeup_rank ready
      rw [same] at lower
      exact lt_irrefl _ lower

/-- In a loop that nobody stops, once nobody queues any more: however the loop thread and the threads
that have still to wake it up are scheduled, and whatever other channels are ready at each poll, as
long as each thread has its turn again and again, every functor that was queued is called. -/
theorem functors_called (steps : List (EventLoop.Step Functor Thread))
    (once : ∀ step ∈ steps, ReportsOnce step)
    (room : let s := run EventLoop.step ({} : EventLoop Functor Thread) steps
      s.counter + s.waking.card + s.loopPushed.toNat ≤ EventLoop.counterMax)
    (others : ℕ → ℕ) {schedule : ℕ → Option Thread} (fair : Fair schedule) :
    let s := run (recorded EventLoop.step EventLoop.recordQueued)
      (({} : EventLoop Functor Thread), []) steps
    ∃ n, (stateAt (step others) { loop := s.1 } schedule n).loop.ran = s.2 := by
  intro s
  have alone : s.1 = run EventLoop.step {} steps := run_recorded _ _ _ steps
  rw [← alone] at room
  have covered : s.1.Covered s.2 := EventLoop.run_covered 0 ∅ steps
  have readable : Readable s.1 := by
    rw [alone]
    exact run_invariant_of_mem Readable _ steps trivial
      fun s step member readable => readable.step (once step member)
  have start : Quiet s.2 { loop := s.1 } := ⟨covered, readable, room⟩
  exact fair_ends rank start (fun s party quiet => quiet.step party)
    (fun s party quiet unfinished => quiet.descends unfinished party)
    (fun s quiet unfinished => quiet.moves unfinished) fair

/-- A functor is queued while the loop is about to read the wakeup for another one. -/
theorem functors_called_two :
    let steps : List (EventLoop.Step Nat Unit) :=
      [.queueInLoop () 1, .wakeup (), .loop (.poll [.wakeupChannel]), .queueInLoop () 2]
    let s := run (recorded EventLoop.step EventLoop.recordQueued) ({}, []) steps
    ∃ n, (stateAt (step fun k => k % 2) { loop := s.1 }
      (fun n => if n % 2 = 0 then none else some ()) n).loop.ran = s.2 := by
  have fair : Fair fun n => if n % 2 = 0 then none else some () := by
    intro party n
    cases party with
    | none => exact ⟨2 * n, by omega, if_pos (by omega)⟩
    | some thread => exact ⟨2 * n + 1, by omega, if_neg (by omega)⟩
  exact functors_called _ (by simp [ReportsOnce]) (by decide) (fun k => k % 2) fair

end QuietLoop

end RabbitServer.Net
