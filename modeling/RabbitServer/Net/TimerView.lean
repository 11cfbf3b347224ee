import RabbitServer.Net.TimerQueue

/-! The queue seen from one timer: nothing that is done with another timer changes it. -/

namespace RabbitServer.Net
open Library

/-- A tick is of concern to every timer. -/
def Did.concerns (id : Nat) : Did → Bool
  | .addTimer other _ _ | .run other | .free other => other == id
  | .handleRead _ => true

namespace TimerQueue

/-- What there is of a timer in the queue; `queued` counts the functors that will add it. -/
@[ext]
structure View where
  request : Option Request
  timer : Option Timer
  queued : Nat
  entries : List (Timestamp × Nat)
  story : List Did

def view (s : TimerQueue) (id : Nat) : View where
  request := s.asked[id]?
  timer := s.heap id
  queued := (s.calling ++ s.pendingFunctors).count id
  entries := s.timers.of id
  story := s.did.filter (Did.concerns id)

namespace View
variable (v : View) (id : Nat) (timer : Timer)

def log (d : Did) : View := { v with story := v.story ++ [d] }

def store (timer : Option Timer) : View := { v with timer }

/-- For a timer that is not in `timers_` yet. -/
def addTimer (now : Timestamp) : View :=
  if timer.expiration < now then v.log (.addTimer id timer.expiration now)
  else { v.log (.addTimer id timer.expiration now) with entries := [(timer.expiration, id)] }

def newTimer (request : Request) : View := { v with request := some request, timer := some timer }

def queue : View := { v with queued := v.queued + 1 }

def getExpiredTimers (now : Timestamp) : View :=
  { v with entries := v.entries.filter fun entry => now ≤ entry.1 }

def resetTimer (turn : Turn) : View :=
  if timer.repeat_ then
    ((v.log (.run id)).store (some (timer.reset turn.reset))).addTimer id (timer.reset turn.reset)
      turn.now
  else ((v.log (.run id)).store none).log (.free id)

theorem addTimer_request (now : Timestamp) : (v.addTimer id timer now).request = v.request := by
  unfold addTimer
  split <;> rfl

theorem resetTimer_request (turn : Turn) : (v.resetTimer id timer turn).request = v.request := by
  unfold resetTimer
  split
  · exact addTimer_request _ _ _ _
  · rfl

end View

section
variable {wide : ℚ → Int32} {s : TimerQueue} {id other : Nat}

theorem log_view_ne {d : Did} (foreign : d.concerns other = false) :
    (s.log d).view other = s.view other := by
  simp [view, log, List.filter_append, foreign]

theorem log_view {d : Did} (mine : d.concerns id = true) :
    (s.log d).view id = (s.view id).log d := by
  simp [view, log, View.log, List.filter_append, mine]

theorem store_view_ne (timer : Option Timer) (different : id ≠ other) :
    (s.store id timer).view other = s.view other := by
  simp [view, store, Function.update_of_ne different.symm]

theorem store_view (timer : Option Timer) :
    (s.store id timer).view id = (s.view id).store timer := by
  simp [view, store, View.store]

theorem addTimer_view_ne (now : Timestamp) (different : id ≠ other) :
    (s.addTimer id now).2.view other = s.view other := by
  unfold addTimer
  split
  next timer _ =>
    have logged : (s.log (.addTimer id timer.expiration now)).view other = s.view other :=
      log_view_ne (beq_false_of_ne different)
    split
    · exact logged
    · rw [← logged]
      simp only [view, Multimap.of_insert_ne _ different]
  next => rfl

theorem addTimer_view {timer : Timer} (now : Timestamp) (found : (s.view id).timer = some timer)
    (absent : (s.view id).entries = []) :
    (s.addTimer id now).2.view id = (s.view id).addTimer id timer now := by
  have found : s.heap id = some timer := found
  have logged : (s.log (.addTimer id timer.expiration now)).view id =
      (s.view id).log (.addTimer id timer.expiration now) := log_view (beq_self_eq_true id)
  have absent : (s.log (.addTimer id timer.expiration now)).timers.of id = [] := absent
  simp only [addTimer, found, View.addTimer]
  split
  · exact logged
  · rw [← logged]
    exact View.ext rfl rfl rfl (Multimap.of_insert_self _ absent) rfl

@[simp] theorem addTimer_asked (now : Timestamp) : (s.addTimer id now).2.asked = s.asked := by
  unfold addTimer
  split
  · split <;> rfl
  · rfl

theorem newTimer_view_ne (wide : ℚ → Int32) (made : Timestamp) (request : Request)
    (different : id ≠ s.asked.length) :
    (s.newTimer wide made request).view id = s.view id := by
  have older : (s.asked ++ [request])[id]? = s.asked[id]? := by
    rcases Nat.lt_or_gt_of_ne different with before | behind
    · exact List.getElem?_append_left before
    · rw [List.getElem?_eq_none (by simp; omega), List.getElem?_eq_none (by omega)]
  rw [← store_view_ne (s := s) (some (request.timer wide made)) different.symm]
  exact View.ext older rfl rfl rfl rfl

theorem newTimer_view (wide : ℚ → Int32) (s : TimerQueue) (made : Timestamp) (request : Request) :
    (s.newTimer wide made request).view s.asked.length =
      (s.view s.asked.length).newTimer (request.timer wide made) request := by
  simp [view, newTimer, store, View.newTimer]

theorem call_asked (c : Call) : s.asked <+: (s.call wide c).asked := by
  cases c with
  | inLoop request made now =>
    simp only [call, addTimer_asked]
    exact List.prefix_append _ _
  | newTimer request made => exact List.prefix_append _ _
  | queueInLoop caller =>
    simp only [call]
    split <;> exact List.prefix_rfl

theorem count_eraseIdx (queue later : List Nat) {caller : Nat}
    (found : queue[caller]? = some other) :
    (queue.eraseIdx caller ++ (later ++ [other])).count id = (queue ++ later).count id := by
  obtain ⟨bound, rfl⟩ := List.getElem?_eq_some_iff.mp found
  have perm := (List.getElem_cons_eraseIdx_perm bound).count_eq id
  simp only [List.count_append, List.count_cons, List.count_nil] at perm ⊢
  omega

theorem queueInLoop_view (caller id : Nat) :
    (s.call wide (.queueInLoop caller)).view id = s.view id := by
  simp only [call]
  split
  next other found => simp only [view, count_eraseIdx s.calling s.pendingFunctors found]
  next => rfl

/-- A call makes one timer at most, a new one. -/
theorem call_view (c : Call) (different : id ≠ s.asked.length) :
    (s.call wide c).view id = s.view id := by
  cases c with
  | inLoop request made now =>
    simp only [call]
    rw [addTimer_view_ne now different.symm, newTimer_view_ne wide made request different]
  | newTimer request made =>
    rw [← newTimer_view_ne wide made request different]
    simp [view, call, newTimer, store, different.symm]
  | queueInLoop caller => exact queueInLoop_view caller id

theorem call_inLoop_view (made now : Timestamp) (request : Request)
    (absent : (s.view s.asked.length).entries = []) :
    (s.call wide (.inLoop request made now)).view s.asked.length =
      ((s.view s.asked.length).newTimer (request.timer wide made) request).addTimer
        s.asked.length (request.timer wide made) now := by
  rw [← newTimer_view]
  apply addTimer_view
  · rw [newTimer_view]
    rfl
  · rw [newTimer_view]
    exact absent

theorem call_newTimer_view (made : Timestamp) (request : Request) :
    (s.call wide (.newTimer request made)).view s.asked.length =
      ((s.view s.asked.length).newTimer (request.timer wide made) request).queue := by
  rw [← newTimer_view]
  simp only [view, call, newTimer, store, View.queue, List.count_append, List.count_singleton_self]
  congr 1
  omega

/-- The functor at the head of the queue is taken out. -/
theorem pop_view {rest : List Nat} (pending : s.pendingFunctors = id :: rest) :
    s.view id = ({ s with pendingFunctors := rest }.view id).queue := by
  simp only [view, View.queue, pending, List.count_append, List.count_cons_self]
  rfl

theorem pop_view_ne {rest : List Nat} (pending : s.pendingFunctors = id :: rest)
    (different : id ≠ other) : { s with pendingFunctors := rest }.view other = s.view other := by
  simp only [view, pending, List.count_append, List.count_cons_of_ne different]

theorem calls_asked (cs : List Call) : s.asked <+: (s.calls wide cs).asked := by
  induction cs generalizing s with
  | nil => exact List.prefix_rfl
  | cons c rest ih => exact (call_asked c).trans ih

theorem calls_view (cs : List Call) (known : id < s.asked.length) :
    (s.calls wide cs).view id = s.view id := by
  induction cs generalizing s with
  | nil => rfl
  | cons c rest ih =>
    have still : id < (s.call wide c).asked.length :=
      Nat.lt_of_lt_of_le known (call_asked c).length_le
    exact (ih still).trans (call_view c (Nat.ne_of_lt known))

/-- Where there is no timer there is nothing to take out. -/
theorem getExpiredTimers_eq (s : TimerQueue) (now : Timestamp) :
    s.getExpiredTimers now =
      { s with expiredTimers := s.timers.below now, timers := s.timers.eraseBelow now } := by
  unfold getExpiredTimers
  split
  next none =>
    obtain ⟨asked, heap, ⟨entries, sorted⟩, expiredTimers, calling, pending, dangled, did⟩ := s
    cases none
    rfl
  next => rfl

theorem getExpiredTimers_view (s : TimerQueue) (id : Nat) (now : Timestamp) :
    (s.getExpiredTimers now).view id = (s.view id).getExpiredTimers now := by
  rw [getExpiredTimers_eq]
  exact View.ext rfl rfl rfl (Multimap.of_eraseBelow _ now id) rfl

/-- For another timer there is nothing but what happens during the callback. -/
theorem resetTimer_view_calls {timer : Timer} (turn : Turn) (found : s.heap id = some timer)
    (different : id ≠ other) :
    (s.resetTimer wide id turn).view other =
      ((s.log (.run id)).calls wide turn.calls).view other := by
  have foreign : (id == other) = false := beq_false_of_ne different
  simp only [resetTimer, found]
  split
  · rw [addTimer_view_ne _ different, store_view_ne _ different]
  · rw [log_view_ne (d := .free id) foreign, store_view_ne _ different]

theorem resetTimer_view_ne (turn : Turn) (known : other < s.asked.length) (different : id ≠ other) :
    (s.resetTimer wide id turn).view other = s.view other := by
  have foreign : (id == other) = false := beq_false_of_ne different
  cases found : s.heap id with
  | some timer =>
    calc
      _ = ((s.log (.run id)).calls wide turn.calls).view other :=
        resetTimer_view_calls turn found different
      _ = (s.log (.run id)).view other := calls_view turn.calls known
      _ = s.view other := log_view_ne (d := .run id) foreign
  | none =>
    simp only [resetTimer, found]
    rfl

theorem resetTimer_asked (turn : Turn) : s.asked <+: (s.resetTimer wide id turn).asked := by
  unfold resetTimer
  split
  next =>
    have made : s.asked <+: ((s.log (.run id)).calls wide turn.calls).asked :=
      calls_asked (s := s.log (.run id)) turn.calls
    split
    · rw [addTimer_asked]
      exact made
    · exact made
  next => exact List.prefix_rfl

theorem resetTimers_view {batch : List (Timestamp × Nat)} (turns : Nat → Turn)
    (known : id < s.asked.length) (absent : ∀ entry ∈ batch, entry.2 ≠ id) :
    (resetTimers wide batch turns s).view id = s.view id := by
  induction batch generalizing s turns with
  | nil => rfl
  | cons entry rest ih =>
    have still : id < (s.resetTimer wide entry.2 (turns 0)).asked.length :=
      Nat.lt_of_lt_of_le known (resetTimer_asked (turns 0)).length_le
    rw [resetTimers, ih _ still fun later member => absent later (List.mem_cons_of_mem _ member)]
    exact resetTimer_view_ne (turns 0) known (absent entry (List.mem_cons_self ..))

theorem resetTimer_view {timer : Timer} (turn : Turn) (known : id < s.asked.length)
    (found : (s.view id).timer = some timer) (absent : (s.view id).entries = []) :
    (s.resetTimer wide id turn).view id = (s.view id).resetTimer id timer turn := by
  have found : s.heap id = some timer := found
  have before : ((s.log (.run id)).calls wide turn.calls).view id = (s.view id).log (.run id) :=
    (calls_view (s := s.log (.run id)) turn.calls known).trans
        (log_view (d := .run id) (beq_self_eq_true id))
  simp only [resetTimer, found, View.resetTimer]
  split
  · rw [← before, ← store_view]
    apply addTimer_view
    · rw [store_view]
      rfl
    · rw [store_view, before]
      exact absent
  · rw [← before, ← store_view]
    exact log_view (d := .free id) (beq_self_eq_true id)

end

end TimerQueue

end RabbitServer.Net
