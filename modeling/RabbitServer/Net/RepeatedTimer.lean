import RabbitServer.Net.TimerOwned

/-! A repeated timer, from tick to tick. -/

namespace RabbitServer.Net.TimerQueue
open Library Library.Runs
variable (wide : ℚ → Int32)

/-- A tick puts the repeated timers it has run back into `timers_`, each once and under the
time that `reset` has read with the interval added. `turns i` is for the timer in place `i` of
the batch. -/
def Repeats (s : TimerQueue) (event : Event) : Prop :=
  ∀ now turns, event = .handleRead now turns →
    ∀ i entry interval, (s.timers.below now)[i]? = some entry →
      s.asked[entry.2]? = some (.addTimerRunEvery interval) → 0 < interval →
        (s.step wide event).timers.of entry.2 =
          [(Timestamp.nowAfter (turns i).reset interval, entry.2)]

/-- The interval is one that an `int` can hold, and the clock has not gone on by more than it
from `reset` to `addTimer`. -/
def KeepsInterval (s : TimerQueue) (event : Event) : Prop :=
  ∀ now turns, event = .handleRead now turns →
    ∀ i entry interval, (s.timers.below now)[i]? = some entry →
      s.asked[entry.2]? = some (.addTimerRunEvery interval) → 0 < interval →
        WholeSeconds interval ∧ (turns i).now ≤ Timestamp.nowAfter (turns i).reset interval

variable {wide} {s : TimerQueue}

/-- A repeated timer that has been run is due next at what `reset` says, unless that is past
when it is added. -/
theorem Owned.repeated_entries (owned : Owned wide s []) {now : Timestamp} (turns : Nat → Turn)
    {i : Nat} {entry : Timestamp × Nat} {interval : ℚ}
    (here : (s.timers.below now)[i]? = some entry)
    (asked : s.asked[entry.2]? = some (.addTimerRunEvery interval)) :
    (s.handleRead wide now turns).timers.of entry.2 =
      if Timestamp.nowAfter (turns i).reset (toInt wide interval).toInt < (turns i).now then []
      else [(Timestamp.nowAfter (turns i).reset (toInt wide interval).toInt, entry.2)] := by
  obtain ⟨only, timer, found, due⟩ := owned.expired (List.mem_of_getElem? here)
  obtain ⟨request, made, requested, kind⟩ := (owned entry.2).made timer found
  cases Option.some.inj (requested.symm.trans asked)
  have repeated : timer.repeat_ = true := by rw [kind]; rfl
  have interval : timer.interval = toInt wide interval := by rw [kind]; rfl
  have expired := ((s.timers.mem_below now).mp (List.mem_of_getElem? here)).2
  have gone := (s.view entry.2).tick_entries only expired
  have view := congrArg View.entries (owned.handleRead_view turns here found)
  rw [View.resetTimer, if_pos repeated, View.addTimer, Timer.reset_repeated _ repeated,
    interval] at view
  refine view.trans ?_
  split
  · exact gone
  · rfl

theorem repeats_iff (owned : Owned wide s []) (event : Event) :
    s.Repeats wide event ↔ s.KeepsInterval event := by
  have exact_at (now : Timestamp) (turns : Nat → Turn) (i : Nat) (entry : Timestamp × Nat)
      (interval : ℚ) (here : (s.timers.below now)[i]? = some entry)
      (asked : s.asked[entry.2]? = some (.addTimerRunEvery interval)) (positive : 0 < interval) :
      (s.handleRead wide now turns).timers.of entry.2 =
          [(Timestamp.nowAfter (turns i).reset interval, entry.2)] ↔
        WholeSeconds interval ∧ (turns i).now ≤ Timestamp.nowAfter (turns i).reset interval := by
    rw [owned.repeated_entries turns here asked, ← nowAfter_toInt wide (turns i).reset positive]
    split
    next late =>
      apply iff_of_false (List.cons_ne_nil _ _).symm
      rintro ⟨same, early⟩
      rw [same] at late
      exact absurd early (not_le.mpr late)
    next early =>
      constructor
      · intro same
        have same := (Prod.mk.inj (List.cons.inj same).1).1
        rw [same] at early
        exact ⟨same, not_lt.mp early⟩
      · intro kept
        rw [kept.1]
  constructor
  · intro repeats now turns same i entry interval here asked positive
    apply (exact_at now turns i entry interval here asked positive).mp
    cases same
    exact repeats now turns rfl i entry interval here asked positive
  · intro keeps now turns same i entry interval here asked positive
    cases same
    apply (exact_at now turns i entry interval here asked positive).mpr
    exact keeps now turns rfl i entry interval here asked positive

/-- Repeated timers keep repeating with their intervals exactly where these are whole seconds
and the clock does not pass them while a timer is added again. -/
theorem repeats_iff_keepsInterval (events : List Event) :
    Along (step wide) (Repeats wide) {} events ↔ Along (step wide) KeepsInterval {} events := by
  apply along_iff_of_exact fun s _ => Owned wide s []
  · exact start_owned
  · exact fun s event _ owned _ => owned.step event
  · exact fun s event _ owned => repeats_iff owned event

/-- Every half second: the interval is kept as 0, so that after a tick the timer is due at
once. -/
theorem repeats_fails :
    ¬ Along (step fun _ => 0) (Repeats fun _ => 0) {}
      [.call (.inLoop (.addTimerRunEvery (1 / 2)) 0 0),
        .handleRead 500001 fun _ => ⟨[], 500002, 500002⟩] := by
  intro along
  have entries := along.2.1 500001 _ rfl 0 (500000, 0) (1 / 2) (by decide +kernel)
    (by simp [step, call, newTimer, store]) (by norm_num)
  revert entries
  decide +kernel

end RabbitServer.Net.TimerQueue
