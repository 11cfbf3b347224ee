import Mathlib.Data.List.Nodup
import RabbitServer.Net.TimerOrder

/-! What a tick runs and in which order, and that a timer is freed once and not used after
that. -/

namespace RabbitServer.Net

def Did.ran : Did → Option Nat
  | .run id => some id
  | _ => none

/-- The timer's callback is run, or it is freed. -/
def Did.ends (id : Nat) : Did → Bool
  | .run other | .free other => other == id
  | _ => false

/-- What has been added is not run behind that. -/
def Did.NotYet : Did → Did → Prop
  | .addTimer id _ _, .run other => id ≠ other
  | _, _ => True

def Request.repeated : Request → Bool
  | .addTimerRunEvery _ => true
  | _ => false

theorem Request.timer_repeat (wide : ℚ → Int32) (request : Request) (made : Timestamp) :
    (request.timer wide made).repeat_ = request.repeated := by
  cases request <;> rfl

namespace TimerQueue
open Library Library.Runs

def ran (story : List Did) : List Nat := story.filterMap Did.ran

def fate (id : Nat) (did : List Did) : List Did := did.filter (Did.ends id)

/-- A tick at `now`, and the story of it: it runs the timers that are due, each once and in the
order of their expirations, those with the same one in the order they were inserted in. What is
added meanwhile waits, and what is left is not due. -/
structure Fires (s after : TimerQueue) (now : Timestamp) (story : List Did) : Prop where
  did : after.did = s.did ++ .handleRead now :: story
  due : ran story = (s.timers.entries.filter fun entry => entry.1 < now).map Prod.snd
  once : (ran story).Nodup
  ordered : s.timers.entries.Pairwise fun first second => first.1 ≤ second.1
  ties : ∀ key, s.timers.group key = [] ∨
    s.timers.group key = (inserted s.did).filter fun entry => entry.1 = key
  later : story.Pairwise Did.NotYet
  left : ∀ entry ∈ after.timers.entries, now ≤ entry.1

variable (wide : ℚ → Int32)

def Ticks (s : TimerQueue) (event : Event) : Prop :=
  ∀ now turns, event = .handleRead now turns → ∃ story, s.Fires (s.step wide event) now story

/-- What is in `timers_` is there once, under its expiration, and has not been freed; a timer
that is not repeated is freed once, behind its callback, and none is used after that. -/
structure Sound (s : TimerQueue) : Prop where
  unfreed : ∀ entry ∈ s.timers.entries, .free entry.2 ∉ s.did ∧
    ∃ timer, s.heap entry.2 = some timer ∧ timer.expiration = entry.1
  once : (s.timers.entries.map Prod.snd).Nodup
  freed : ∀ id request, s.asked[id]? = some request → request.repeated = false →
    fate id s.did = [] ∨ fate id s.did = [.run id, .free id]
  undangled : s.dangled = false

variable {wide} {s : TimerQueue} {id : Nat} {batch : List (Timestamp × Nat)}

/-- What follows on a run: calls add new timers, and the timer itself is added again or freed. -/
def Follows (id least : Nat) (d : Did) : Prop :=
  d = .free id ∨ ∃ other expiration now, d = .addTimer other expiration now ∧
    (other = id ∨ least ≤ other)

theorem Follows.ran {id least : Nat} {d : Did} (follows : Follows id least d) : d.ran = none := by
  obtain rfl | ⟨_, _, _, rfl, -⟩ := follows <;> rfl

theorem Follows.notYet {id least : Nat} {d : Did} (follows : Follows id least d) (before : Did) :
    before.NotYet d := by
  obtain rfl | ⟨_, _, _, rfl, -⟩ := follows <;> cases before <;> trivial

theorem addTimer_did {timer : Timer} (found : s.heap id = some timer) (now : Timestamp) :
    (s.addTimer id now).2.did = s.did ++ [.addTimer id timer.expiration now] := by
  simp only [TimerQueue.addTimer, found]
  split <;> rfl

theorem calls_did (wide : ℚ → Int32) (s : TimerQueue) (id : Nat) (cs : List Call) :
    ∃ others, (s.calls wide cs).did = s.did ++ others ∧
      ∀ d ∈ others, Follows id s.asked.length d := by
  induction cs generalizing s with
  | nil => exact ⟨[], (List.append_nil _).symm, nofun⟩
  | cons c rest ih =>
    obtain ⟨later, same, after⟩ := ih (s.call wide c)
    have grown : s.asked.length ≤ (s.call wide c).asked.length := (call_asked c).length_le
    have follow : ∀ d ∈ later, Follows id s.asked.length d := by
      intro d member
      obtain freed | ⟨other, expiration, now, added, new⟩ := after d member
      · exact Or.inl freed
      · exact Or.inr ⟨other, expiration, now, added, new.imp_right grown.trans⟩
    have same : (s.calls wide (c :: rest)).did = (s.call wide c).did ++ later := same
    cases c with
    | inLoop request made now =>
      have found : (s.newTimer wide made request).heap s.asked.length =
          some (request.timer wide made) := Function.update_self ..
      have first := addTimer_did found now
      refine ⟨.addTimer s.asked.length (request.timer wide made).expiration now :: later, ?_, ?_⟩
      · rw [same, TimerQueue.call, first]
        exact List.append_assoc s.did _ later
      · intro d member
        rcases List.mem_cons.mp member with rfl | behind
        · exact Or.inr ⟨_, _, _, rfl, Or.inr (Nat.le_refl _)⟩
        · exact follow d behind
    | newTimer request made => exact ⟨later, same, follow⟩
    | queueInLoop caller =>
      refine ⟨later, ?_, follow⟩
      rw [same]
      simp only [TimerQueue.call]
      split <;> rfl

theorem resetTimer_did (wide : ℚ → Int32) {timer : Timer} (found : s.heap id = some timer)
    (turn : Turn) :
    ∃ others, (s.resetTimer wide id turn).did = s.did ++ .run id :: others ∧
      ∀ d ∈ others, Follows id s.asked.length d := by
  obtain ⟨others, same, follow⟩ := calls_did wide (s.log (.run id)) id turn.calls
  have same : ((s.log (.run id)).calls wide turn.calls).did = s.did ++ .run id :: others :=
    same.trans (List.append_assoc ..)
  have ends : ∀ last, Follows id s.asked.length last →
      ∀ d ∈ others ++ [last], Follows id s.asked.length d := by
    intro last here d member
    rcases List.mem_append.mp member with before | this
    · exact follow d before
    · rwa [List.mem_singleton.mp this]
  simp only [TimerQueue.resetTimer, found]
  split
  · have stored : (TimerQueue.store ((s.log (.run id)).calls wide turn.calls) id
        (some (timer.reset turn.reset))).heap id = some (timer.reset turn.reset) :=
      Function.update_self ..
    refine ⟨others ++ [.addTimer id (timer.reset turn.reset).expiration turn.now], ?_, ?_⟩
    · rw [addTimer_did stored, TimerQueue.store, same]
      simp
    · exact ends _ (Or.inr ⟨_, _, _, rfl, Or.inl rfl⟩)
  · refine ⟨others ++ [.free id], ?_, ends _ (Or.inl rfl)⟩
    show ((s.log (.run id)).calls wide turn.calls).did ++ [.free id] = _
    rw [same]
    simp

/-- What stands in a batch has been made. -/
theorem Owned.batch_known (owned : Owned wide s batch) {entry : Timestamp × Nat}
    (member : entry ∈ batch) : entry.2 < s.asked.length := by
  have here : entry ∈ batched batch entry.2 := List.mem_filter.mpr ⟨member, decide_eq_true rfl⟩
  have some := List.length_pos_of_mem here
  obtain ⟨-, timer, found⟩ := (owned entry.2).found (by unfold View.places; omega)
  exact owned.known found

/-- The loop runs the batch, in its order. -/
theorem Owned.resetTimers_did (owned : Owned wide s batch) (turns : Nat → Turn) :
    ∃ story, (TimerQueue.resetTimers wide batch turns s).did = s.did ++ story ∧
      ran story = batch.map Prod.snd ∧ story.Pairwise Did.NotYet := by
  induction batch generalizing s turns with
  | nil => exact ⟨[], (List.append_nil _).symm, rfl, List.Pairwise.nil⟩
  | cons entry rest ih =>
    obtain ⟨free, timer, found, -⟩ := owned.head
    obtain ⟨-, -, gone⟩ := View.places_eq_zero.mp free
    obtain ⟨others, first, follow⟩ := resetTimer_did wide found (turns 0)
    obtain ⟨later, same, runs, waits⟩ := ih (owned.resetTimer (turns 0)) fun i => turns (i + 1)
    have quiet : ran others = [] := List.filterMap_eq_nil_iff.mpr fun d member =>
      (follow d member).ran
    refine ⟨.run entry.2 :: (others ++ later), ?_, ?_, ?_⟩
    · rw [TimerQueue.resetTimers, same, first]
      simp
    · show entry.2 :: ran (others ++ later) = entry.2 :: rest.map Prod.snd
      rw [ran, List.filterMap_append, ← ran, ← ran, quiet, runs, List.nil_append]
    · refine List.pairwise_cons.mpr ⟨fun _ _ => trivial, List.pairwise_append.mpr ⟨?_, waits, ?_⟩⟩
      · exact List.pairwise_of_forall_mem_list fun first _ second member =>
          (follow second member).notYet first
      · intro d member d' behind
        obtain rfl | ⟨other, expiration, now, rfl, new⟩ := follow d member
        · cases d' <;> trivial
        cases d' with
        | run id =>
          have running : id ∈ ran later := List.mem_filterMap.mpr ⟨_, behind, rfl⟩
          rw [runs] at running
          obtain ⟨waiting, inside, rfl⟩ := List.mem_map.mp running
          have known := owned.batch_known (List.mem_cons_of_mem entry inside)
          rintro rfl
          rcases new with again | unmade
          · exact batched_eq_nil.mp gone waiting inside again
          · omega
        | addTimer _ _ _ => trivial
        | handleRead _ => trivial
        | free _ => trivial

theorem Owned.handleRead_did (owned : Owned wide s []) (now : Timestamp) (turns : Nat → Turn) :
    ∃ story, (s.handleRead wide now turns).did = s.did ++ .handleRead now :: story ∧
      ran story = (s.timers.below now).map Prod.snd ∧ story.Pairwise Did.NotYet := by
  obtain ⟨story, same, told⟩ := (owned.tick now).resetTimers_did turns
  refine ⟨story, ?_, told⟩
  rw [handleRead_eq, same, getExpiredTimers_eq]
  exact List.append_assoc s.did [.handleRead now] story

/-- What has been run or freed of the timer tells whether it is in the heap. -/
structure View.Lived (v : View) (id : Nat) : Prop where
  unmade : v.request = none → fate id v.story = []
  live : v.timer ≠ none → .free id ∉ v.story
  once : ∀ request, v.request = some request → request.repeated = false →
    fate id v.story = match v.timer with
      | some _ => []
      | none => [.run id, .free id]

theorem fate_story : fate id (s.view id).story = fate id s.did := by
  rw [fate, view, List.filter_filter, fate]
  apply List.filter_congr
  intro d _
  cases d <;> simp [Did.ends, Did.concerns]

theorem fate_concat (story : List Did) (d : Did) :
    fate id (story ++ [d]) = fate id story ++ if d.ends id then [d] else [] := by
  rw [fate, List.filter_append, List.filter_singleton, fate]
  cases d.ends id <;> rfl

/-- What is neither a run nor a free leaves the timer as it is. -/
theorem View.Lived.log {v : View} (lived : v.Lived id) {d : Did} (other : d.ends id = false) :
    (v.log d).Lived id := by
  have same : fate id (v.log d).story = fate id v.story := by
    rw [View.log, fate_concat, other]
    exact List.append_nil _
  constructor
  · exact fun none => same.trans (lived.unmade none)
  · intro found freed
    rcases List.mem_append.mp freed with before | this
    · exact lived.live found before
    · rw [← List.mem_singleton.mp this] at other
      exact Bool.noConfusion ((beq_self_eq_true id).symm.trans other)
  · exact fun request asked kind => same.trans (lived.once request asked kind)

theorem View.Lived.addTimer {v : View} (lived : v.Lived id) (timer : Timer) (now : Timestamp) :
    (v.addTimer id timer now).Lived id := by
  have logged := lived.log (d := .addTimer id timer.expiration now) rfl
  unfold View.addTimer
  split
  · exact logged
  · exact ⟨logged.unmade, logged.live, logged.once⟩

theorem View.Lived.newTimer {v : View} (lived : v.Lived id) (unmade : v.request = none)
    (timer : Timer) (request : Request) : (v.newTimer timer request).Lived id where
  unmade := nofun
  live := by
    intro _ freed
    have ended : .free id ∈ fate id v.story := List.mem_filter.mpr ⟨freed, beq_self_eq_true id⟩
    rw [lived.unmade unmade] at ended
    cases ended
  once := fun _ _ _ => lived.unmade unmade

theorem lived_kept (id : Nat) : Kept wide id fun v _ => v.Lived id where
  inLoop v request made now unmade _ lived := (lived.newTimer unmade _ request).addTimer _ now
  newTimer v request made unmade _ lived := by
    obtain ⟨unmade, live, once⟩ := lived.newTimer unmade (request.timer wide made) request
    exact ⟨unmade, live, once⟩
  functor v timer now _ _ _ lived := by
    have here : v.Lived id := ⟨lived.unmade, lived.live, lived.once⟩
    exact here.addTimer timer now
  resetTimer v timer turn entry placed _ found lived := by
    obtain ⟨request, made, asked, kind⟩ := placed.made timer found
    have kind : timer.repeat_ = request.repeated := by
      rw [kind]
      exact request.timer_repeat wide made
    unfold View.resetTimer
    split
    next again =>
      apply View.Lived.addTimer
      constructor
      · intro none
        cases asked.symm.trans none
      · intro _ freed
        rcases List.mem_append.mp freed with before | this
        · exact lived.live (by rw [found]; exact Option.some_ne_none _) before
        · cases List.mem_singleton.mp this
      · intro other same once
        cases asked.symm.trans same
        rw [kind, once] at again
        cases again
    next last =>
      constructor
      · intro none
        cases asked.symm.trans none
      · exact fun gone => absurd rfl gone
      · intro other same once
        have unrun := lived.once other same once
        rw [found] at unrun
        show fate id (v.story ++ [.run id] ++ [.free id]) = [.run id, .free id]
        rw [fate_concat, fate_concat, unrun]
        simp [Did.ends]

theorem nodup_of_batched {entries : List (Timestamp × Nat)}
    (once : ∀ id, (batched entries id).length ≤ 1) : (entries.map Prod.snd).Nodup := by
  rw [List.nodup_iff_count_le_one]
  intro id
  rw [List.count_eq_countP, List.countP_map, List.countP_eq_length_filter]
  exact once id

/-- No timer stands in `timers_` twice. -/
theorem Owned.nodup (owned : Owned wide s batch) : (s.timers.entries.map Prod.snd).Nodup := by
  apply nodup_of_batched
  intro id
  have once := (owned id).once
  have small : (s.view id).timer.toList.length ≤ 1 := by cases (s.view id).timer <;> simp
  show (s.view id).entries.length ≤ 1
  unfold View.places at once
  omega

section
variable (undangled : s.dangled = false)
include undangled

theorem addTimer_undangled {timer : Timer} (found : s.heap id = some timer) (now : Timestamp) :
    (s.addTimer id now).2.dangled = false := by
  simp only [TimerQueue.addTimer, found]
  split <;> exact undangled

theorem calls_undangled (cs : List Call) : (s.calls wide cs).dangled = false := by
  induction cs generalizing s with
  | nil => exact undangled
  | cons c rest ih =>
    apply ih (s := s.call wide c)
    cases c with
    | inLoop request made now =>
      exact addTimer_undangled (s := s.newTimer wide made request) undangled
        (Function.update_self ..) now
    | newTimer request made => exact undangled
    | queueInLoop caller =>
      simp only [TimerQueue.call]
      split <;> exact undangled

theorem resetTimer_undangled {timer : Timer} (found : s.heap id = some timer) (turn : Turn) :
    (s.resetTimer wide id turn).dangled = false := by
  have called : ((s.log (.run id)).calls wide turn.calls).dangled = false :=
    calls_undangled (s := s.log (.run id)) undangled turn.calls
  simp only [TimerQueue.resetTimer, found]
  split
  · exact addTimer_undangled (s := TimerQueue.store _ id _) called (Function.update_self ..)
      turn.now
  · exact called

theorem Owned.resetTimers_undangled (owned : Owned wide s batch) (turns : Nat → Turn) :
    (TimerQueue.resetTimers wide batch turns s).dangled = false := by
  induction batch generalizing s turns with
  | nil => exact undangled
  | cons entry rest ih =>
    obtain ⟨-, timer, found, -⟩ := owned.head
    exact ih (resetTimer_undangled undangled found (turns 0)) (owned.resetTimer (turns 0)) _

/-- Nothing that is used has been freed. -/
theorem Owned.step_undangled (owned : Owned wide s []) (event : Event) :
    (s.step wide event).dangled = false := by
  cases event with
  | call c => exact calls_undangled undangled [c]
  | functor now =>
    simp only [TimerQueue.step]
    split
    next id rest pending =>
      have placed := owned id
      rw [pop_view pending] at placed
      obtain ⟨-, -, timer, found⟩ := placed.unqueue
      exact addTimer_undangled (s := { s with pendingFunctors := rest }) undangled found now
    next => exact undangled
  | handleRead now turns =>
    rw [TimerQueue.step, handleRead_eq]
    apply (owned.tick now).resetTimers_undangled _ turns
    rw [getExpiredTimers_eq]
    exact undangled

end

/-- What every run keeps. -/
structure Tended (wide : ℚ → Int32) (s : TimerQueue) : Prop where
  owned : Owned wide s []
  timed : s.Timed
  lived : ∀ id, (s.view id).Lived id
  undangled : s.dangled = false

theorem start_tended : Tended wide {} where
  owned := start_owned
  timed := fun _ => ⟨nofun, fun _ _ => rfl⟩
  lived := fun _ => ⟨fun _ => rfl, nofun, nofun⟩
  undangled := rfl

theorem Tended.step (tended : Tended wide s) (event : Event) : Tended wide (s.step wide event) where
  owned := tended.owned.step event
  timed := tended.timed.step event
  lived := by
    intro id
    apply (lived_kept id).step tended.owned event _ (tended.lived id)
    intro now turns _
    obtain ⟨unmade, live, once⟩ := (tended.lived id).log (d := .handleRead now) rfl
    exact ⟨unmade, live, once⟩
  undangled := tended.owned.step_undangled tended.undangled event

theorem Tended.sound (tended : Tended wide s) : s.Sound where
  unfreed := by
    intro entry member
    have here : entry ∈ (s.view entry.2).entries := List.mem_filter.mpr ⟨member, decide_eq_true rfl⟩
    have some := List.length_pos_of_mem here
    have placed := tended.owned entry.2
    obtain ⟨-, timer, found⟩ := placed.found (by unfold View.places; omega)
    refine ⟨?_, timer, found, ?_⟩
    · intro freed
      apply (tended.lived entry.2).live (by rw [found]; exact Option.some_ne_none _)
      exact List.mem_filter.mpr ⟨freed, beq_self_eq_true _⟩
    · exact (placed.due timer found entry (List.mem_append_left _ here)).symm
  once := tended.owned.nodup
  freed := by
    intro id request asked kind
    have fate := (tended.lived id).once request asked kind
    rw [fate_story] at fate
    rw [fate]
    cases (s.view id).timer with
    | some timer => exact Or.inl rfl
    | none => exact Or.inr rfl
  undangled := tended.undangled

/-- What a tick does where the clock has not gone back. -/
theorem Tended.fires (tended : Tended wide s) (now : Timestamp) (turns : Nat → Turn)
    (clock : Clock (s.step wide (.handleRead now turns)).did) :
    ∃ story, s.Fires (s.step wide (.handleRead now turns)) now story := by
  have after := (tended.step (.handleRead now turns)).timed clock
  obtain ⟨story, did, runs, later⟩ := tended.owned.handleRead_did now turns
  have before := tended.timed (clock.of_prefix (did ▸ List.prefix_append _ _))
  rw [Multimap.below_eq_filter] at runs
  refine ⟨story, did, runs, ?_, s.timers.sorted, ?_, later, ?_⟩
  · rw [runs]
    exact tended.owned.nodup.sublist (List.filter_sublist.map _)
  · intro key
    by_cases above : ∀ read, .handleRead read ∈ s.did → read ≤ key
    · exact Or.inr (before.kept key above)
    · left
      simp only [not_forall, not_le, exists_prop] at above
      obtain ⟨read, ticked, past⟩ := above
      rw [Multimap.group, List.filter_eq_nil_iff]
      intro entry member this
      have due := before.past read ticked entry member
      rw [of_decide_eq_true this] at due
      exact absurd due (not_le.mpr past)
  · apply after.past now
    show .handleRead now ∈ (s.handleRead wide now turns).did
    rw [did]
    exact List.mem_append_right _ (List.mem_cons_self ..)

theorem step_did (owned : Owned wide s []) (event : Event) :
    s.did <+: (s.step wide event).did := by
  have added : ∀ (t : TimerQueue) id now, t.did <+: (t.addTimer id now).2.did := by
    intro t id now
    cases found : t.heap id with
    | none =>
      simp only [TimerQueue.addTimer, found]
      exact List.prefix_rfl
    | some timer =>
      rw [addTimer_did found]
      exact List.prefix_append _ _
  cases event with
  | call c =>
    obtain ⟨others, same, -⟩ := calls_did wide s 0 [c]
    exact ⟨others, same.symm⟩
  | functor now =>
    simp only [TimerQueue.step]
    split
    next id rest _ => exact added { s with pendingFunctors := rest } id now
    next => exact List.prefix_rfl
  | handleRead now turns =>
    obtain ⟨story, same, -⟩ := owned.handleRead_did now turns
    exact ⟨.handleRead now :: story, same.symm⟩

theorem run_did (owned : Owned wide s []) (events : List Event) :
    s.did <+: (run (step wide) s events).did := by
  induction events generalizing s with
  | nil => exact List.prefix_rfl
  | cons event rest ih => exact (step_did owned event).trans (ih (owned.step event))

/-- Where the clock does not go back, every tick runs what is due and nothing else, and at any
time every timer has one owner. -/
theorem ticks_exact (events : List Event) (clock : Clock (run (step wide) {} events).did) :
    Along (step wide) (Ticks wide) {} events ∧
      ∀ done, done <+: events → Sound (run (step wide) {} done) := by
  constructor
  · apply along_of_ahead fun s rest => Tended wide s ∧ Clock (run (step wide) s rest).did
    · exact ⟨start_tended, clock⟩
    · exact fun s event rest ahead => ⟨ahead.1.step event, ahead.2⟩
    · rintro s event rest ⟨tended, clock⟩ now turns rfl
      exact tended.fires now turns (clock.of_prefix (run_did (tended.step _).owned rest))
  · intro done _
    exact (run_invariant (Tended wide) {} done start_tended fun s event tended =>
      tended.step event).sound

/-- Two timers that are due at the same time, a repeated one that is not due yet, and callbacks
that add timers. -/
theorem ticks_exact_ties :
    let events : List Event := [.call (.inLoop (.addTimerRunAt 5) 0 1),
      .call (.inLoop (.addTimerRunAt 5) 0 1), .call (.inLoop (.addTimerRunEvery 1) 0 2),
      .handleRead 6 fun _ => ⟨[.inLoop (.addTimerRunAt 9) 6 6], 7, 7⟩,
      .handleRead 10 fun _ => ⟨[], 10, 10⟩]
    Along (step fun _ => 0) (Ticks fun _ => 0) {} events ∧
      ∀ done, done <+: events → Sound (run (step fun _ => 0) {} done) :=
  ticks_exact _ (by unfold Clock; decide +kernel)

end TimerQueue

end RabbitServer.Net
