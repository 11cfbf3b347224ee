import RabbitServer.Net.TimerTick

/-! `TimerQueue::~TimerQueue`: what becomes of the timers when the queue is gone. -/

namespace RabbitServer.Net

/-- Whether the timer was refused when it was to be added. -/
def Did.refuses : Did → Option Bool
  | .addTimer _ expiration now => some (expiration < now)
  | _ => none

namespace TimerQueue
open Library Library.Runs

/-- `delete` of a timer -/
def deleteTimer (s : TimerQueue) (id : Nat) : TimerQueue :=
  match s.heap id with
  | some _ => (s.store id none).log (.free id)
  | none => { s with dangled := true }

/-- `~TimerQueue` -/
def destroyed (s : TimerQueue) : TimerQueue :=
  s.timers.entries.foldl (fun s entry => s.deleteTimer entry.2) s

/-- The last time a timer was to be added it was refused. -/
def refusedLast (story : List Did) : Bool := (story.filterMap Did.refuses).getLast?.getD false

def refused (s : TimerQueue) (id : Nat) : Bool := refusedLast (s.did.filter (Did.concerns id))

theorem refusedLast_concat (story : List Did) (d : Did) :
    refusedLast (story ++ [d]) = d.refuses.getD (refusedLast story) := by
  cases d <;> simp [refusedLast, Did.refuses]

/-- A timer that was made is in the heap or has been freed once, and one in the heap that stands
nowhere has been refused. -/
structure View.Settled (v : View) (id : Nat) (batch : List (Timestamp × Nat)) : Prop where
  unmade : v.request = none → v.timer = none
  freed : v.story.count (.free id) = if v.request.isSome ∧ v.timer = none then 1 else 0
  refused : refusedLast v.story = true ↔ v.timer.isSome = true ∧ v.places batch = 0

section
variable {wide : ℚ → Int32} {v : View} {id : Nat} {timer : Timer}
  {batch : List (Timestamp × Nat)}

/-- A timer that stands nowhere is added, or refused. -/
theorem View.Settled.addTimer (made : v.request ≠ none) (found : v.timer = some timer)
    (free : v.places [] = 0) (unfreed : v.story.count (.free id) = 0) (now : Timestamp) :
    (v.addTimer id timer now).Settled id [] := by
  obtain ⟨unqueued, nowhere, -⟩ := View.places_eq_zero.mp free
  unfold View.addTimer
  split
  next expired =>
    refine ⟨fun none => absurd none made, ?_, ?_⟩
    · simp [View.log, unfreed, found]
    · rw [View.log, refusedLast_concat]
      simp [Did.refuses, expired, found, View.places, unqueued, nowhere]
  next ahead =>
    refine ⟨fun none => absurd none made, ?_, ?_⟩
    · simp [View.log, unfreed, found]
    · rw [View.log, refusedLast_concat]
      simp [Did.refuses, ahead, View.places]

/-- A timer in the heap has been asked for. -/
theorem View.Placed.requested (placed : v.Placed wide batch) (found : v.timer = some timer) :
    v.request ≠ none := by
  obtain ⟨request, _, asked, -⟩ := placed.made timer found
  rw [asked]
  exact Option.some_ne_none request

theorem View.Settled.fresh (settled : v.Settled id batch) (unmade : v.request = none) :
    v.story.count (.free id) = 0 ∧ refusedLast v.story = false := by
  constructor
  · rw [settled.freed, unmade]
    rfl
  · rw [← Bool.not_eq_true, settled.refused, settled.unmade unmade]
    exact fun both => Bool.false_ne_true both.1

/-- Nothing that stands somewhere was refused. -/
theorem View.Settled.unrefused (settled : v.Settled id batch) (stands : v.places batch ≠ 0) :
    refusedLast v.story = false := by
  rw [← Bool.not_eq_true, settled.refused]
  exact fun both => stands both.2

theorem View.Settled.unfreed (settled : v.Settled id batch) (found : v.timer = some timer) :
    v.story.count (.free id) = 0 := by
  rw [settled.freed, found]
  simp

theorem settled_kept (id : Nat) : Kept wide id fun v batch => v.Settled id batch where
  inLoop v request made now unmade free settled := by
    exact View.Settled.addTimer (v := v.newTimer (request.timer wide made) request)
      (Option.some_ne_none request) rfl free (settled.fresh unmade).1 now
  newTimer v request made unmade free settled := by
    obtain ⟨unfreed, unrefused⟩ := settled.fresh unmade
    refine ⟨fun none => absurd none (Option.some_ne_none request), ?_, ?_⟩
    · simpa [View.newTimer, View.queue] using unfreed
    · show refusedLast v.story = true ↔ _
      rw [unrefused]
      simp [View.newTimer, View.queue, View.places]
  functor v timer now placed free found settled := by
    have made := placed.requested found
    exact View.Settled.addTimer made found free (settled.unfreed found) now
  resetTimer v timer turn entry placed free found settled := by
    have made := placed.requested found
    have unfreed : (v.story ++ [Did.run id]).count (.free id) = 0 := by
      rw [List.count_append, settled.unfreed found]
      rfl
    unfold View.resetTimer
    split
    next again =>
      exact View.Settled.addTimer (v := (v.log (.run id)).store (some (timer.reset turn.reset)))
        made rfl free unfreed turn.now
    next last =>
      have unrefused := settled.unrefused (by simp [View.places])
      refine ⟨fun none => absurd none made, ?_, ?_⟩
      · show (v.story ++ [Did.run id] ++ [Did.free id]).count (.free id) = _
        rw [List.count_append, unfreed]
        simp [View.log, View.store, Option.isSome_iff_ne_none.mpr made]
      · show refusedLast (v.story ++ [.run id] ++ [.free id]) = true ↔ _
        rw [refusedLast_concat, refusedLast_concat]
        simp [Did.refuses, unrefused, View.log, View.store]

end

/-- What every run keeps. -/
structure Kempt (wide : ℚ → Int32) (s : TimerQueue) : Prop where
  tended : Tended wide s
  settled : ∀ id, (s.view id).Settled id []

variable {wide : ℚ → Int32} {s : TimerQueue}

theorem start_kempt : Kempt wide {} where
  tended := start_tended
  settled := fun id => ⟨fun _ => rfl, rfl, iff_of_false Bool.false_ne_true fun both => by
    cases both.1⟩

/-- A tick takes what has expired from `timers_` into the batch. -/
theorem View.Settled.tick {v : View} {id : Nat} (settled : v.Settled id []) (now : Timestamp) :
    (v.tick now).Settled id (v.entries.filter fun entry => entry.1 < now) := by
  have same : (v.tick now).places (v.entries.filter fun entry => entry.1 < now) = v.places [] := by
    have parts := List.length_eq_length_filter_add (l := v.entries) fun entry => entry.1 < now
    simp only [← decide_not, not_lt] at parts
    simp only [View.places, View.tick_eq, List.length_nil]
    omega
  refine ⟨settled.unmade, ?_, ?_⟩
  · show (v.story ++ [Did.handleRead now]).count (Did.free id) = _
    rw [List.count_append, settled.freed]
    rfl
  · rw [same]
    show refusedLast (v.story ++ [Did.handleRead now]) = true ↔ _
    rw [refusedLast_concat]
    exact settled.refused

theorem Kempt.step (kempt : Kempt wide s) (event : Event) : Kempt wide (s.step wide event) where
  tended := kempt.tended.step event
  settled := by
    intro id
    apply (settled_kept id).step kempt.tended.owned event _ (kempt.settled id)
    exact fun now turns _ => (kempt.settled id).tick now

/-- `delete` of every timer of a list, each of them there. -/
theorem deleteTimers_eq (ids : List Nat) (once : ids.Nodup) (found : ∀ id ∈ ids, s.heap id ≠ none) :
    (ids.foldl deleteTimer s).dangled = s.dangled ∧
      (ids.foldl deleteTimer s).did = s.did ++ ids.map Did.free ∧
      ∀ id, (ids.foldl deleteTimer s).heap id = if id ∈ ids then none else s.heap id := by
  induction ids generalizing s with
  | nil => exact ⟨rfl, (List.append_nil _).symm, fun id => (if_neg List.not_mem_nil).symm⟩
  | cons first rest ih =>
    obtain ⟨absent, once⟩ := List.nodup_cons.mp once
    obtain ⟨timer, here⟩ := Option.ne_none_iff_exists'.mp (found first (List.mem_cons_self ..))
    have deleted : s.deleteTimer first = (s.store first none).log (.free first) := by
      simp only [deleteTimer, here]
    have others : ∀ id, id ≠ first → (s.deleteTimer first).heap id = s.heap id := by
      intro id different
      rw [deleted]
      exact Function.update_of_ne different _ _
    have still : ∀ id ∈ rest, (s.deleteTimer first).heap id ≠ none := by
      intro id member
      rw [others id fun same => absent (same ▸ member)]
      exact found id (List.mem_cons_of_mem first member)
    obtain ⟨dangled, did, heap⟩ := ih once still
    refine ⟨?_, ?_, ?_⟩
    · rw [List.foldl_cons, dangled, deleted]
      rfl
    · rw [List.foldl_cons, did, deleted]
      exact List.append_assoc s.did [Did.free first] _
    · intro id
      rw [List.foldl_cons, heap]
      by_cases this : id = first
      · subst this
        rw [if_neg absent, if_pos (List.mem_cons_self ..), deleted]
        exact Function.update_self ..
      · rw [others id this]
        simp only [List.mem_cons, this, false_or]

theorem destroyed_eq (s : TimerQueue) :
    s.destroyed = (s.timers.entries.map Prod.snd).foldl deleteTimer s := by
  rw [destroyed, List.foldl_map]

theorem entries_nil_iff {id : Nat} :
    (s.view id).entries = [] ↔ id ∉ s.timers.entries.map Prod.snd := by
  show batched s.timers.entries id = [] ↔ _
  rw [batched_eq_nil, List.mem_map, not_exists]
  exact forall_congr' fun entry => not_and.symm

/-- A timer in the heap that is not in `timers_` has been refused, or waits for its functor. -/
theorem Kempt.unlisted (kempt : Kempt wide s) (id : Nat) :
    (s.view id).timer.isSome = true ∧ (s.view id).entries = [] ↔
      s.refused id = true ∨ id ∈ s.calling ++ s.pendingFunctors := by
  have refused : s.refused id = true ↔ _ := (kempt.settled id).refused
  rw [refused, View.places_eq_zero, ← List.count_pos_iff]
  constructor
  · rintro ⟨found, unlisted⟩
    rcases Nat.eq_zero_or_pos (s.view id).queued with unqueued | queued
    · exact Or.inl ⟨found, unqueued, unlisted, rfl⟩
    · exact Or.inr queued
  · rintro (⟨found, -, unlisted, -⟩ | queued)
    · exact ⟨found, unlisted⟩
    · have queued : 0 < (s.view id).queued := queued
      obtain ⟨one, timer, found⟩ := (kempt.tended.owned id).found (by unfold View.places; omega)
      refine ⟨by rw [found]; rfl, List.length_eq_zero_iff.mp ?_⟩
      unfold View.places at one
      omega

theorem free_injective : Function.Injective Did.free := fun _ _ same => Did.free.inj same

/-- A timer that was made is in the heap, or has been freed once. -/
theorem Kempt.freed (kempt : Kempt wide s) {id : Nat} (made : id < s.asked.length) :
    s.did.count (.free id) = if s.heap id = none then 1 else 0 := by
  have requested : (s.view id).request.isSome = true := by
    show s.asked[id]?.isSome = true
    rw [List.getElem?_eq_getElem made]
    rfl
  have mine : Did.concerns id (.free id) = true := beq_self_eq_true id
  rw [← List.count_filter mine]
  show (s.view id).story.count (.free id) = _
  rw [(kempt.settled id).freed]
  simp only [requested, true_and]
  rfl

/-- `~TimerQueue` frees every timer of `timers_` once and nothing that has been freed. What is in
the heap after that is never freed: a timer that was refused when it was added the last time, and
one whose functor has not been called. -/
theorem destroyed_leaves (events : List Event) :
    let s := run (step wide) {} events
    s.destroyed.dangled = false ∧ ∀ id < s.asked.length,
      (s.destroyed.heap id ≠ none ↔
        s.refused id = true ∨ id ∈ s.calling ++ s.pendingFunctors) ∧
      s.destroyed.did.count (.free id) = if s.destroyed.heap id = none then 1 else 0 := by
  intro s
  have kempt : Kempt wide s := run_invariant (Kempt wide) {} events start_kempt fun s event kempt =>
    kempt.step event
  have sound := kempt.tended.sound
  have found : ∀ id ∈ s.timers.entries.map Prod.snd, s.heap id ≠ none := by
    intro id member
    obtain ⟨entry, inside, rfl⟩ := List.mem_map.mp member
    obtain ⟨-, timer, found, -⟩ := sound.unfreed entry inside
    rw [found]
    exact Option.some_ne_none timer
  obtain ⟨dangled, did, heap⟩ := deleteTimers_eq _ sound.once found
  rw [destroyed_eq]
  refine ⟨dangled.trans sound.undangled, fun id made => ⟨?_, ?_⟩⟩
  · rw [← kempt.unlisted id, entries_nil_iff, heap]
    show _ ↔ (s.heap id).isSome = true ∧ _
    split
    next listed => exact iff_of_false (fun left => left rfl) fun both => both.2 listed
    next unlisted =>
      rw [Option.isSome_iff_ne_none]
      exact (and_iff_left unlisted).symm
  · rw [did, heap, List.count_append, kempt.freed made,
      List.count_map_of_injective _ Did.free free_injective]
    by_cases listed : id ∈ s.timers.entries.map Prod.snd
    · rw [if_neg (found id listed), List.count_eq_one_of_mem sound.once listed, if_pos listed,
        if_pos rfl]
    · rw [List.count_eq_zero_of_not_mem listed, if_neg listed, Nat.add_zero]

end TimerQueue

end RabbitServer.Net
