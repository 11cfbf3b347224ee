import RabbitServer.Library.Runs
import RabbitServer.Net.TimerView

/-! A timer stands in one place at most: in a functor that will add it, in `timers_`, or in
the batch of a tick that has not come to it yet. -/

namespace RabbitServer.Net.TimerQueue
open Library

/-- The entries of the timer in a batch. -/
def batched (batch : List (Timestamp × Nat)) (id : Nat) : List (Timestamp × Nat) :=
  batch.filter fun entry => entry.2 = id

def View.places (v : View) (batch : List (Timestamp × Nat)) : Nat :=
  v.queued + v.entries.length + batch.length

/-- A timer in the heap is as it was made but for its expiration, and the place it stands in
has it under that. What is not in the heap stands nowhere. -/
structure View.Placed (wide : ℚ → Int32) (v : View) (batch : List (Timestamp × Nat)) : Prop where
  made : ∀ timer, v.timer = some timer → ∃ request made, v.request = some request ∧
    timer = { request.timer wide made with expiration := timer.expiration }
  once : v.places batch ≤ v.timer.toList.length
  due : ∀ timer, v.timer = some timer → ∀ entry ∈ v.entries ++ batch, entry.1 = timer.expiration

def Owned (wide : ℚ → Int32) (s : TimerQueue) (batch : List (Timestamp × Nat)) : Prop :=
  ∀ id, (s.view id).Placed wide (batched batch id)

section
variable {wide : ℚ → Int32} {s s' : TimerQueue} {batch batch' : List (Timestamp × Nat)}
  {v : View} {id : Nat} {timer : Timer}

theorem View.places_eq_zero :
    v.places batch = 0 ↔ v.queued = 0 ∧ v.entries = [] ∧ batch = [] := by
  rw [places, Nat.add_eq_zero_iff, Nat.add_eq_zero_iff, List.length_eq_zero_iff,
    List.length_eq_zero_iff, and_assoc]

theorem start_owned : Owned wide {} [] := by
  intro id
  constructor
  · intro timer found
    cases found
  · exact Nat.le_refl 0
  · intro timer found
    cases found

/-- A timer that stands somewhere is in the heap, and stands nowhere else. -/
theorem View.Placed.found (placed : v.Placed wide batch) (stands : 0 < v.places batch) :
    v.places batch = 1 ∧ ∃ timer, v.timer = some timer := by
  have once := placed.once
  cases found : v.timer with
  | none =>
    rw [found] at once
    exact absurd (Nat.lt_of_lt_of_le stands once) (Nat.lt_irrefl 0)
  | some timer =>
    rw [found] at once
    exact ⟨Nat.le_antisymm once stands, timer, rfl⟩

theorem Owned.known (owned : Owned wide s batch) (found : (s.view id).timer = some timer) :
    id < s.asked.length := by
  obtain ⟨request, _, asked, -⟩ := (owned id).made timer found
  exact (List.getElem?_eq_some_iff.mp asked).1

/-- There is nothing of a timer that has not been made yet. -/
theorem Owned.fresh (owned : Owned wide s batch) (unmade : s.asked.length ≤ id) :
    (s.view id).timer = none ∧ (s.view id).places (batched batch id) = 0 := by
  have none : (s.view id).timer = none := by
    cases found : (s.view id).timer with
    | none => rfl
    | some timer => exact absurd (owned.known found) (Nat.not_lt_of_le unmade)
  have once := (owned id).once
  rw [none] at once
  exact ⟨none, Nat.eq_zero_of_le_zero once⟩

/-- A step that changes one timer alone. -/
theorem Owned.change (owned : Owned wide s batch) (id : Nat)
    (others : ∀ other, other ≠ id → s'.view other = s.view other)
    (same : ∀ other, other ≠ id → batched batch' other = batched batch other)
    (here : (s'.view id).Placed wide (batched batch' id)) : Owned wide s' batch' := by
  intro other
  by_cases this : other = id
  · rw [this]
    exact here
  · rw [others other this, same other this]
    exact owned other

theorem View.Placed.log (placed : v.Placed wide batch) (d : Did) : (v.log d).Placed wide batch :=
  ⟨placed.made, placed.once, placed.due⟩

/-- A timer that stands nowhere is added. -/
theorem View.Placed.addTimer (placed : v.Placed wide batch) (id : Nat) (now : Timestamp)
    (found : v.timer = some timer) (free : v.places batch = 0) :
    (v.addTimer id timer now).Placed wide batch := by
  obtain ⟨unqueued, -, rfl⟩ := View.places_eq_zero.mp free
  unfold View.addTimer
  split
  next => exact placed.log _
  next =>
    constructor
    · exact placed.made
    · show v.queued + 1 + 0 ≤ v.timer.toList.length
      rw [unqueued, found]
      rfl
    · intro other same entry member
      have this : timer = other := Option.some.inj (found.symm.trans same)
      rw [List.append_nil] at member
      rw [List.mem_singleton.mp member, ← this]

theorem Owned.log (owned : Owned wide s batch) (d : Did) : Owned wide (s.log d) batch :=
  fun id => ⟨(owned id).made, (owned id).once, (owned id).due⟩

theorem Owned.addTimer (owned : Owned wide s batch) (now : Timestamp)
    (found : (s.view id).timer = some timer) (free : (s.view id).places (batched batch id) = 0) :
    Owned wide (s.addTimer id now).2 batch := by
  apply owned.change id
  · exact fun other different => addTimer_view_ne now different.symm
  · exact fun _ _ => rfl
  · rw [addTimer_view now found (View.places_eq_zero.mp free).2.1]
    exact (owned id).addTimer id now found free

theorem View.Placed.newTimer (free : v.places batch = 0) (made : Timestamp) (request : Request) :
    (v.newTimer (request.timer wide made) request).Placed wide batch := by
  obtain ⟨unqueued, nowhere, rfl⟩ := View.places_eq_zero.mp free
  constructor
  · intro timer found
    cases found
    exact ⟨request, made, rfl, rfl⟩
  · exact Nat.le_trans (Nat.le_of_eq free) (Nat.zero_le 1)
  · intro timer _ entry member
    rw [List.append_nil] at member
    have member : entry ∈ v.entries := member
    rw [nowhere] at member
    cases member

/-- A timer that stands nowhere gets a functor. -/
theorem View.Placed.queue (placed : v.Placed wide batch) (found : v.timer = some timer)
    (free : v.places batch = 0) : v.queue.Placed wide batch := by
  refine ⟨placed.made, ?_, placed.due⟩
  obtain ⟨unqueued, nowhere, rfl⟩ := View.places_eq_zero.mp free
  show v.queued + 1 + v.entries.length + 0 ≤ v.timer.toList.length
  rw [unqueued, nowhere, found]
  rfl

theorem View.Placed.unqueue (placed : v.queue.Placed wide batch) :
    v.Placed wide batch ∧ v.places batch = 0 ∧ ∃ timer, v.timer = some timer := by
  have more : v.queue.places batch = v.places batch + 1 := by
    simp only [View.places, View.queue]
    omega
  obtain ⟨one, found⟩ := placed.found (by omega)
  refine ⟨⟨placed.made, ?_, placed.due⟩, by omega, found⟩
  exact Nat.le_trans (by omega) placed.once

theorem Owned.call (owned : Owned wide s batch) (c : Call) : Owned wide (s.call wide c) batch := by
  have fresh := (owned.fresh (Nat.le_refl s.asked.length)).2
  cases c with
  | inLoop request made now =>
    apply owned.change s.asked.length
    · exact fun other different => call_view (.inLoop request made now) different
    · exact fun _ _ => rfl
    · rw [call_inLoop_view made now request (View.places_eq_zero.mp fresh).2.1]
      exact (View.Placed.newTimer fresh made request).addTimer _ now rfl fresh
  | newTimer request made =>
    apply owned.change s.asked.length
    · exact fun other different => call_view (.newTimer request made) different
    · exact fun _ _ => rfl
    · rw [call_newTimer_view]
      exact (View.Placed.newTimer fresh made request).queue rfl fresh
  | queueInLoop caller =>
    intro id
    rw [queueInLoop_view]
    exact owned id

theorem Owned.calls (owned : Owned wide s batch) (cs : List Call) :
    Owned wide (s.calls wide cs) batch := by
  induction cs generalizing s with
  | nil => exact owned
  | cons c rest ih => exact ih (owned.call c)

theorem Owned.functor (owned : Owned wide s batch) (now : Timestamp) :
    Owned wide (s.step wide (.functor now)) batch := by
  simp only [step]
  split
  next id rest pending =>
    have placed := owned id
    rw [pop_view pending] at placed
    obtain ⟨placed, free, timer, found⟩ := placed.unqueue
    apply Owned.addTimer _ now found free
    apply owned.change id
    · exact fun other different => pop_view_ne pending different.symm
    · exact fun _ _ => rfl
    · exact placed
  next => exact owned

/-- The expired timers change over from `timers_` to the batch. -/
theorem View.Placed.getExpiredTimers (placed : v.Placed wide []) (now : Timestamp) :
    (v.getExpiredTimers now).Placed wide (v.entries.filter fun entry => entry.1 < now) := by
  have parts := List.length_eq_length_filter_add (l := v.entries) fun entry => entry.1 < now
  constructor
  · exact placed.made
  · have once : v.queued + v.entries.length + 0 ≤ v.timer.toList.length := placed.once
    simp only [← decide_not, not_lt] at parts
    simp only [View.places, View.getExpiredTimers]
    omega
  · intro timer found entry member
    apply placed.due timer found entry
    rw [List.append_nil]
    rcases List.mem_append.mp member with later | expired
    · exact List.mem_of_mem_filter later
    · exact List.mem_of_mem_filter expired

theorem Owned.getExpiredTimers (owned : Owned wide s []) (now : Timestamp) :
    Owned wide (s.getExpiredTimers now) (s.timers.below now) := by
  intro id
  rw [getExpiredTimers_view, batched, Multimap.below_of]
  exact (owned id).getExpiredTimers now

/-- The timer the loop has come to stands nowhere else. -/
theorem Owned.head {entry : Timestamp × Nat} {rest : List (Timestamp × Nat)}
    (owned : Owned wide s (entry :: rest)) :
    (s.view entry.2).places (batched rest entry.2) = 0 ∧
      ∃ timer, (s.view entry.2).timer = some timer ∧ timer.expiration = entry.1 := by
  have here : batched (entry :: rest) entry.2 = entry :: batched rest entry.2 :=
    List.filter_cons_of_pos (decide_eq_true rfl)
  have placed := owned entry.2
  rw [here] at placed
  have more : (s.view entry.2).places (entry :: batched rest entry.2) =
      (s.view entry.2).places (batched rest entry.2) + 1 := rfl
  obtain ⟨one, timer, found⟩ := placed.found (by omega)
  refine ⟨by omega, timer, found, (placed.due timer found entry ?_).symm⟩
  exact List.mem_append_right _ (List.mem_cons_self ..)

theorem View.Placed.store (free : v.places batch = 0) (timer : Option Timer)
    (made : ∀ t, timer = some t → ∃ request made, v.request = some request ∧
      t = { request.timer wide made with expiration := t.expiration }) :
    (v.store timer).Placed wide batch := by
  obtain ⟨_, nowhere, rfl⟩ := View.places_eq_zero.mp free
  refine ⟨made, Nat.le_trans (Nat.le_of_eq free) (Nat.zero_le _), ?_⟩
  intro _ _ entry member
  rw [List.append_nil] at member
  have member : entry ∈ v.entries := member
  rw [nowhere] at member
  cases member

/-- A timer that has been run is added again or freed. -/
theorem View.Placed.resetTimer (placed : v.Placed wide batch') (id : Nat) (turn : Turn)
    (found : v.timer = some timer) (free : v.places batch = 0) :
    (v.resetTimer id timer turn).Placed wide batch := by
  unfold View.resetTimer
  split
  next =>
    refine View.Placed.addTimer ?_ id turn.now rfl free
    apply View.Placed.store (v := v.log (.run id)) free
    intro t same
    cases same
    obtain ⟨request, made, asked, before⟩ := placed.made timer found
    refine ⟨request, made, asked, ?_⟩
    rw [timer.reset_eq, before]
  next =>
    apply View.Placed.log
    apply View.Placed.store (v := v.log (.run id)) free
    intro t same
    cases same

theorem Owned.resetTimer {entry : Timestamp × Nat} {rest : List (Timestamp × Nat)}
    (owned : Owned wide s (entry :: rest)) (turn : Turn) :
    Owned wide (s.resetTimer wide entry.2 turn) rest := by
  obtain ⟨free, timer, found, -⟩ := owned.head
  apply ((owned.log (.run entry.2)).calls turn.calls).change entry.2
  · exact fun other different => resetTimer_view_calls turn found different.symm
  · intro other different
    exact (List.filter_cons_of_neg (by simpa using different.symm)).symm
  · rw [resetTimer_view turn (owned.known found) found (View.places_eq_zero.mp free).2.1]
    exact (owned entry.2).resetTimer entry.2 turn found free

theorem Owned.resetTimers (owned : Owned wide s batch) (turns : Nat → Turn) :
    Owned wide (resetTimers wide batch turns s) [] := by
  induction batch generalizing s turns with
  | nil => exact owned
  | cons entry rest ih => exact ih (owned.resetTimer (turns 0)) _

theorem batched_eq_nil : batched batch id = [] ↔ ∀ entry ∈ batch, entry.2 ≠ id := by
  rw [batched, List.filter_eq_nil_iff]
  simp only [decide_eq_true_eq, ne_eq]

/-- The loop comes to every timer of the batch once. -/
theorem Owned.resetTimers_view (owned : Owned wide s batch) (turns : Nat → Turn) {i : Nat}
    {entry : Timestamp × Nat} (here : batch[i]? = some entry)
    (found : (s.view entry.2).timer = some timer) :
    (TimerQueue.resetTimers wide batch turns s).view entry.2 =
      (s.view entry.2).resetTimer entry.2 timer (turns i) := by
  induction batch generalizing s turns i with
  | nil => cases here
  | cons first rest ih =>
    have later := owned.resetTimer (turns 0)
    obtain ⟨free, -⟩ := owned.head
    obtain ⟨-, nowhere, gone⟩ := View.places_eq_zero.mp free
    have known := owned.known found
    cases i with
    | zero =>
      cases here
      have still : entry.2 < (s.resetTimer wide entry.2 (turns 0)).asked.length :=
        Nat.lt_of_lt_of_le known (resetTimer_asked (turns 0)).length_le
      calc
        _ = (s.resetTimer wide entry.2 (turns 0)).view entry.2 :=
          TimerQueue.resetTimers_view _ still (batched_eq_nil.mp gone)
        _ = _ := resetTimer_view (turns 0) known found nowhere
    | succ i =>
      have behind : entry ∈ rest := List.mem_of_getElem? here
      have before : (s.resetTimer wide first.2 (turns 0)).view entry.2 = s.view entry.2 :=
        resetTimer_view_ne (turns 0) known (batched_eq_nil.mp gone entry behind).symm
      rw [TimerQueue.resetTimers, ih later _ here (before ▸ found), before]

theorem handleRead_eq (s : TimerQueue) (now : Timestamp) (turns : Nat → Turn) :
    s.handleRead wide now turns =
      TimerQueue.resetTimers wide (s.timers.below now) turns
        ((s.log (.handleRead now)).getExpiredTimers now) := by
  simp only [TimerQueue.handleRead, getExpiredTimers_eq]
  rfl

theorem Owned.tick (owned : Owned wide s []) (now : Timestamp) :
    Owned wide ((s.log (.handleRead now)).getExpiredTimers now) (s.timers.below now) :=
  (owned.log (.handleRead now)).getExpiredTimers now

theorem Owned.handleRead (owned : Owned wide s []) (now : Timestamp) (turns : Nat → Turn) :
    Owned wide (s.handleRead wide now turns) [] := by
  rw [handleRead_eq]
  exact (owned.tick now).resetTimers turns

/-- A timer that has expired was in `timers_`, once. -/
theorem Owned.expired (owned : Owned wide s []) {now : Timestamp} {entry : Timestamp × Nat}
    (member : entry ∈ s.timers.below now) :
    (s.view entry.2).entries = [entry] ∧
      ∃ timer, (s.view entry.2).timer = some timer ∧ timer.expiration = entry.1 := by
  have here : entry ∈ (s.view entry.2).entries :=
    List.mem_filter.mpr ⟨(s.timers.mem_below now).mp member |>.1, decide_eq_true rfl⟩
  have some := List.length_pos_of_mem here
  obtain ⟨one, timer, found⟩ := (owned entry.2).found (by unfold View.places; omega)
  constructor
  · have single : (s.view entry.2).entries.length = 1 := by
      unfold View.places at one
      omega
    obtain ⟨only, same⟩ := List.length_eq_one_iff.mp single
    rw [same] at here ⊢
    rw [List.mem_singleton.mp here]
  · refine ⟨timer, found, ((owned entry.2).due timer found entry ?_).symm⟩
    exact List.mem_append_left _ here

/-- A tick has taken note of itself and of what has expired. -/
def View.tick (v : View) (now : Timestamp) : View :=
  (v.log (.handleRead now)).getExpiredTimers now

theorem View.tick_eq (v : View) (now : Timestamp) :
    v.tick now =
      ⟨v.request, v.timer, v.queued, v.entries.filter fun entry => now ≤ entry.1,
        v.story ++ [.handleRead now]⟩ := rfl

theorem View.tick_entries (v : View) {now : Timestamp} {entry : Timestamp × Nat}
    (only : v.entries = [entry]) (expired : entry.1 < now) : (v.tick now).entries = [] := by
  show (v.entries.filter fun entry => now ≤ entry.1) = []
  rw [only, List.filter_cons_of_neg (by simpa using expired), List.filter_nil]

theorem tick_view (s : TimerQueue) (id : Nat) (now : Timestamp) :
    ((s.log (.handleRead now)).getExpiredTimers now).view id = (s.view id).tick now := by
  rw [getExpiredTimers_view, log_view (d := .handleRead now) rfl, View.tick]

/-- What a tick does with a timer that has expired. -/
theorem Owned.handleRead_view (owned : Owned wide s []) {now : Timestamp} (turns : Nat → Turn)
    {i : Nat} {entry : Timestamp × Nat} (here : (s.timers.below now)[i]? = some entry)
    (found : (s.view entry.2).timer = some timer) :
    (s.handleRead wide now turns).view entry.2 =
      ((s.view entry.2).tick now).resetTimer entry.2 timer (turns i) := by
  rw [handleRead_eq, (owned.tick now).resetTimers_view turns here, tick_view]
  rw [tick_view]
  exact found

/-- What it does with one that has not. -/
theorem handleRead_view_ne (s : TimerQueue) {now : Timestamp} (turns : Nat → Turn)
    (known : id < s.asked.length) (absent : ∀ entry ∈ s.timers.below now, entry.2 ≠ id) :
    (s.handleRead wide now turns).view id = (s.view id).tick now := by
  rw [handleRead_eq, TimerQueue.resetTimers_view _ _ absent, tick_view]
  rw [getExpiredTimers_eq]
  exact known

theorem Owned.step (owned : Owned wide s []) (event : Event) :
    Owned wide (s.step wide event) [] := by
  cases event with
  | call c => exact owned.call c
  | functor now => exact owned.functor now
  | handleRead now turns => exact owned.handleRead now turns

end

end RabbitServer.Net.TimerQueue
