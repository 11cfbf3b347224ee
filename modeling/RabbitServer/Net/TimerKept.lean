import RabbitServer.Net.TimerOwned

/-! What the steps of the queue can do to one timer. A property of its view that all of this
keeps holds after every step. -/

namespace RabbitServer.Net.TimerQueue
open Library

/-- The property is one of the view and of the entries of the timer that the batch still holds.
A timer is made and added at once or queued, is added by its functor, and is run and reset. -/
structure Kept (wide : ℚ → Int32) (id : Nat) (Q : View → List (Timestamp × Nat) → Prop) :
    Prop where
  inLoop : ∀ (v : View) request made now, v.request = none → v.places [] = 0 → Q v [] →
    Q ((v.newTimer (request.timer wide made) request).addTimer id (request.timer wide made) now) []
  newTimer : ∀ (v : View) request made, v.request = none → v.places [] = 0 → Q v [] →
    Q (v.newTimer (request.timer wide made) request).queue []
  functor : ∀ (v : View) timer now, v.Placed wide [] → v.places [] = 0 → v.timer = some timer →
    Q v.queue [] → Q (v.addTimer id timer now) []
  resetTimer : ∀ (v : View) timer turn entry, v.Placed wide [entry] → v.places [] = 0 →
    v.timer = some timer → Q v [entry] → Q (v.resetTimer id timer turn) []

section
variable {wide : ℚ → Int32} {s : TimerQueue} {id : Nat} {batch : List (Timestamp × Nat)}
  {Q : View → List (Timestamp × Nat) → Prop} (kept : Kept wide id Q)
include kept

theorem Kept.call (owned : Owned wide s batch) (c : Call)
    (holds : Q (s.view id) (batched batch id)) :
    Q ((s.call wide c).view id) (batched batch id) := by
  by_cases new : id = s.asked.length
  · subst new
    have unmade : (s.view s.asked.length).request = none := List.getElem?_eq_none (Nat.le_refl _)
    have fresh := (owned.fresh (Nat.le_refl s.asked.length)).2
    obtain ⟨-, nowhere, gone⟩ := View.places_eq_zero.mp fresh
    cases c with
    | inLoop request made now =>
      rw [call_inLoop_view made now request nowhere, gone]
      rw [gone] at fresh holds
      exact kept.inLoop _ request made now unmade fresh holds
    | newTimer request made =>
      rw [call_newTimer_view, gone]
      rw [gone] at fresh holds
      exact kept.newTimer _ request made unmade fresh holds
    | queueInLoop caller =>
      rw [queueInLoop_view]
      exact holds
  · rw [call_view c new]
    exact holds

theorem Kept.calls (owned : Owned wide s batch) (cs : List Call)
    (holds : Q (s.view id) (batched batch id)) :
    Q ((s.calls wide cs).view id) (batched batch id) := by
  induction cs generalizing s with
  | nil => exact holds
  | cons c rest ih => exact ih (owned.call c) (kept.call owned c holds)

theorem Kept.reset {entry : Timestamp × Nat} (owned : Owned wide s (entry :: batch)) (turn : Turn)
    (holds : Q (s.view id) (batched (entry :: batch) id)) :
    Q ((s.resetTimer wide entry.2 turn).view id) (batched batch id) := by
  obtain ⟨free, timer, found, -⟩ := owned.head
  by_cases this : entry.2 = id
  · subst this
    obtain ⟨-, nowhere, gone⟩ := View.places_eq_zero.mp free
    have first : batched (entry :: batch) entry.2 = entry :: batched batch entry.2 :=
      List.filter_cons_of_pos (decide_eq_true rfl)
    have placed := owned entry.2
    rw [first, gone] at placed holds
    rw [gone] at free
    rw [resetTimer_view turn (owned.known found) found nowhere, gone]
    exact kept.resetTimer _ timer turn entry placed free found holds
  · have elsewhere : batched (entry :: batch) id = batched batch id :=
      List.filter_cons_of_neg (by simpa using this)
    rw [resetTimer_view_calls turn found this, ← elsewhere]
    apply kept.calls (owned.log (.run entry.2))
    rw [log_view_ne (d := .run entry.2) (beq_false_of_ne this)]
    exact holds

theorem Kept.resetTimers (owned : Owned wide s batch) (turns : Nat → Turn)
    (holds : Q (s.view id) (batched batch id)) :
    Q ((TimerQueue.resetTimers wide batch turns s).view id) [] := by
  induction batch generalizing s turns with
  | nil => exact holds
  | cons entry rest ih => exact ih (owned.resetTimer (turns 0)) _ (kept.reset owned (turns 0) holds)

theorem Kept.popped (owned : Owned wide s []) (now : Timestamp) (holds : Q (s.view id) []) :
    Q ((s.step wide (.functor now)).view id) [] := by
  simp only [step]
  split
  next other rest pending =>
    by_cases this : other = id
    · subst this
      have placed := owned other
      rw [pop_view pending] at placed holds
      obtain ⟨placed, free, timer, found⟩ := placed.unqueue
      rw [addTimer_view now found (View.places_eq_zero.mp free).2.1]
      exact kept.functor _ timer now placed free found holds
    · rw [addTimer_view_ne now this, pop_view_ne pending this]
      exact holds
  next => exact holds

/-- What a tick does before it runs anything depends on more than the view. -/
theorem Kept.step (owned : Owned wide s []) (event : Event)
    (tick : ∀ now turns, event = .handleRead now turns →
      Q ((s.view id).tick now) ((s.view id).entries.filter fun entry => entry.1 < now))
    (holds : Q (s.view id) []) : Q ((s.step wide event).view id) [] := by
  cases event with
  | call c => exact kept.call owned c holds
  | functor now => exact kept.popped owned now holds
  | handleRead now turns =>
    rw [TimerQueue.step, handleRead_eq]
    apply kept.resetTimers (owned.tick now)
    rw [tick_view, batched, Multimap.below_of]
    exact tick now turns rfl

end

end RabbitServer.Net.TimerQueue
