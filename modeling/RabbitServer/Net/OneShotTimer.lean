import RabbitServer.Net.TimerKept

/-! A timer that `addTimerRunAfter` has made, until its callback has run. -/

namespace RabbitServer.Net.TimerQueue
open Library Library.Runs
variable (wide : ℚ → Int32)

/-- The timer has been added, and a tick after that came when the clock was past its
expiration. -/
def Late (did : List Did) (id : Nat) : Prop :=
  ∃ expiration added now,
    List.Sublist [.addTimer id expiration added, .handleRead now] did ∧ expiration < now

/-- After every step the callback of a timer has been run once if the timer is late, and not
at all otherwise: it is run in the tick that finds it late first. -/
def RunsOnce (s : TimerQueue) (event : Event) : Prop :=
  ∀ id delay, (s.step wide event).asked[id]? = some (.addTimerRunAfter delay) → 0 ≤ delay →
    (Late (s.step wide event).did id → (s.step wide event).did.count (.run id) = 1) ∧
      (¬ Late (s.step wide event).did id → (s.step wide event).did.count (.run id) = 0)

/-- Where a tick makes a timer late, the clock had not passed its expiration when it was
added. -/
def AddedInTime (s : TimerQueue) (event : Event) : Prop :=
  ∀ now turns, event = .handleRead now turns →
    ∀ id delay, s.asked[id]? = some (.addTimerRunAfter delay) → 0 ≤ delay →
      ∀ expiration added, .addTimer id expiration added ∈ s.did → expiration < now →
        ¬ Late s.did id → added ≤ expiration

variable {wide} {s : TimerQueue} {id : Nat} {batch : List (Timestamp × Nat)} {v : View}
  {story : List Did} {expiration added : Timestamp} {timer : Timer}

theorem pair_sublist_concat {α : Type*} (x y z : α) (l : List α) :
    List.Sublist [x, y] (l ++ [z]) ↔ List.Sublist [x, y] l ∨ y = z ∧ x ∈ l := by
  have reversed (k : List α) : List.Sublist [x, y] k ↔ List.Sublist [y, x] k.reverse :=
    List.reverse_sublist.symm
  rw [reversed, reversed, List.reverse_concat, List.sublist_cons_iff]
  apply or_congr_right
  constructor
  · rintro ⟨rest, same, before⟩
    obtain ⟨rfl, rfl⟩ := List.cons.inj same
    exact ⟨rfl, List.mem_reverse.mp (List.singleton_sublist.mp before)⟩
  · rintro ⟨rfl, before⟩
    exact ⟨[x], rfl, List.singleton_sublist.mpr (List.mem_reverse.mpr before)⟩

theorem late_concat {d : Did} : Late (story ++ [d]) id ↔ Late story id ∨
    ∃ expiration added now, d = .handleRead now ∧ .addTimer id expiration added ∈ story ∧
      expiration < now := by
  constructor
  · rintro ⟨expiration, added, now, ordered, past⟩
    rcases (pair_sublist_concat _ _ _ _).mp ordered with before | ⟨rfl, member⟩
    · exact Or.inl ⟨expiration, added, now, before, past⟩
    · exact Or.inr ⟨expiration, added, now, rfl, member, past⟩
  · rintro (⟨expiration, added, now, before, past⟩ | ⟨expiration, added, now, rfl, member, past⟩)
    · exact ⟨expiration, added, now, (pair_sublist_concat _ _ _ _).mpr (Or.inl before), past⟩
    · exact ⟨expiration, added, now, (pair_sublist_concat _ _ _ _).mpr (Or.inr ⟨rfl, member⟩),
        past⟩

theorem Late.concat (late : Late story id) (d : Did) : Late (story ++ [d]) id :=
  late_concat.mpr (Or.inl late)

/-- Only a tick makes a timer late. -/
theorem not_late_concat {d : Did} (early : ¬ Late story id) (other : ∀ now, d ≠ .handleRead now) :
    ¬ Late (story ++ [d]) id := by
  intro late
  rcases late_concat.mp late with before | ⟨_, _, now, tick, -⟩
  · exact early before
  · exact other now tick

theorem late_story : Late s.did id ↔ Late (s.view id).story id := by
  constructor
  · rintro ⟨expiration, added, now, ordered, past⟩
    refine ⟨expiration, added, now, ?_, past⟩
    have kept := ordered.filter (Did.concerns id)
    show List.Sublist _ (s.did.filter (Did.concerns id))
    simpa only [List.filter_cons, Did.concerns, beq_self_eq_true, if_true, List.filter_nil]
      using kept
  · rintro ⟨expiration, added, now, ordered, past⟩
    exact ⟨expiration, added, now, ordered.trans List.filter_sublist, past⟩

theorem run_story : s.did.count (.run id) = (s.view id).story.count (.run id) := by
  have mine : Did.concerns id (.run id) = true := beq_self_eq_true id
  exact (List.count_filter mine).symm

theorem addTimer_story :
    .addTimer id expiration added ∈ s.did ↔ .addTimer id expiration added ∈ (s.view id).story :=
  ⟨fun member => List.mem_filter.mpr ⟨member, beq_self_eq_true id⟩, List.mem_of_mem_filter⟩

/-- Nothing but ticks has been of concern to the timer. -/
def Unadded (id : Nat) (story : List Did) : Prop :=
  (∀ expiration added, .addTimer id expiration added ∉ story) ∧ .run id ∉ story

/-- The timer has been added once, and has not expired since. -/
structure Added (id : Nat) (story : List Did) (expiration added : Timestamp) : Prop where
  here : .addTimer id expiration added ∈ story
  once : ∀ e a, .addTimer id e a ∈ story → e = expiration ∧ a = added
  early : ¬ Late story id
  unrun : .run id ∉ story

inductive Stage (id : Nat) (v : View) (batch : List (Timestamp × Nat)) : Prop where
  | unadded (nowhere : v.entries = [] ∧ batch = []) (never : Unadded id v.story)
  | waiting (expiration added : Timestamp) (only : v.entries = [(expiration, id)] ∧ batch = [])
      (once : Added id v.story expiration added) (taken : added ≤ expiration)
  | refused (expiration added : Timestamp) (free : v.places batch = 0)
      (once : Added id v.story expiration added) (late : expiration < added)
  | due (expired : batch ≠ []) (late : Late v.story id) (unrun : .run id ∉ v.story)
  | finished (free : v.places batch = 0) (late : Late v.story id) (run : v.story.count (.run id) = 1)

structure View.Staged (v : View) (id : Nat) (batch : List (Timestamp × Nat)) : Prop where
  unmade : v.request = none → Unadded id v.story
  stage : ∀ delay, v.request = some (.addTimerRunAfter delay) → 0 ≤ delay → Stage id v batch

/-- What is not late is not run. -/
theorem Unadded.early (never : Unadded id story) : ¬ Late story id := by
  rintro ⟨expiration, added, now, ordered, -⟩
  exact never.1 expiration added (ordered.subset (List.mem_cons_self ..))

theorem Unadded.tick (never : Unadded id story) (now : Timestamp) :
    Unadded id (story ++ [.handleRead now]) := by
  simpa [Unadded] using never

theorem Unadded.add (never : Unadded id story) (expiration added : Timestamp) :
    Added id (story ++ [.addTimer id expiration added]) expiration added where
  here := List.mem_append_right _ (List.mem_singleton_self _)
  once := by
    intro e a member
    rcases List.mem_append.mp member with before | now
    · exact absurd before (never.1 e a)
    · cases List.mem_singleton.mp now
      exact ⟨rfl, rfl⟩
  early := not_late_concat never.early (by intro now same; cases same)
  unrun := by simpa using never.2

theorem Added.tick (once : Added id story expiration added) {now : Timestamp}
    (early : now ≤ expiration) : Added id (story ++ [.handleRead now]) expiration added where
  here := List.mem_append_left _ once.here
  once := by
    intro e a member
    apply once.once e a
    simpa using member
  early := by
    intro late
    rcases late_concat.mp late with before | ⟨e, a, read, same, member, past⟩
    · exact once.early before
    · cases same
      rw [(once.once e a member).1] at past
      exact absurd past (not_lt.mpr early)
  unrun := by simpa using once.unrun

/-- The timer is added: taken where the clock has not passed its expiration. -/
theorem Stage.addTimer (free : v.places [] = 0) (never : Unadded id v.story) (now : Timestamp) :
    Stage id (v.addTimer id timer now) [] := by
  unfold View.addTimer
  split
  next late => exact .refused timer.expiration now free (never.add _ _) late
  next early => exact .waiting timer.expiration now ⟨rfl, rfl⟩ (never.add _ _) (not_lt.mp early)

/-- A tick finds the timers that are late, and those only. -/
theorem Stage.tick (stage : Stage id v []) (now : Timestamp)
    (inTime : ∀ expiration added, .addTimer id expiration added ∈ v.story → expiration < now →
      ¬ Late v.story id → added ≤ expiration) :
    Stage id (v.tick now) (v.entries.filter fun entry => entry.1 < now) := by
  cases stage with
  | unadded nowhere never =>
    apply Stage.unadded _ (never.tick now)
    rw [View.tick_eq, nowhere.1]
    exact ⟨rfl, rfl⟩
  | waiting expiration added only once taken =>
    by_cases past : expiration < now
    · apply Stage.due
      · simp [only.1, past]
      · exact late_concat.mpr (Or.inr ⟨expiration, added, now, rfl, once.here, past⟩)
      · simpa [View.tick_eq] using once.unrun
    · have early := not_lt.mp past
      apply Stage.waiting expiration added _ (once.tick early) taken
      simp [View.tick_eq, only.1, early]
  | refused expiration added free once late =>
    have early : now ≤ expiration := by
      by_contra past
      have taken := inTime expiration added once.here (not_le.mp past) once.early
      exact absurd late (not_lt.mpr taken)
    apply Stage.refused expiration added _ (once.tick early) late
    obtain ⟨unqueued, nowhere, -⟩ := View.places_eq_zero.mp free
    exact View.places_eq_zero.mpr ⟨unqueued, by simp [View.tick_eq, nowhere], by simp [nowhere]⟩
  | due expired => exact absurd rfl expired
  | finished free late run =>
    apply Stage.finished _ (late.concat _)
    · simpa [View.tick_eq] using run
    · obtain ⟨unqueued, nowhere, -⟩ := View.places_eq_zero.mp free
      exact View.places_eq_zero.mpr ⟨unqueued, by simp [View.tick_eq, nowhere], by simp [nowhere]⟩

/-- The loop runs a timer that is due, and frees it. -/
theorem Stage.resetTimer (stage : Stage id v batch) (stands : batch ≠ [])
    (free : v.places [] = 0) (once : timer.repeat_ = false) (turn : Turn) :
    Stage id (v.resetTimer id timer turn) [] := by
  have reset : v.resetTimer id timer turn = ((v.log (.run id)).store none).log (.free id) := by
    rw [View.resetTimer, once]
    rfl
  cases stage with
  | unadded nowhere => exact absurd nowhere.2 stands
  | waiting _ _ only => exact absurd only.2 stands
  | refused _ _ free => exact absurd (View.places_eq_zero.mp free).2.2 stands
  | finished free => exact absurd (View.places_eq_zero.mp free).2.2 stands
  | due expired late unrun =>
    rw [reset]
    refine Stage.finished free ?_ ?_
    · exact (late.concat (.run id)).concat (.free id)
    · simp [View.log, View.store, List.count_eq_zero.mpr unrun]

/-- Nothing but a tick that comes too late takes a timer out of its stages. -/
theorem staged_kept (id : Nat) : Kept wide id fun v batch => v.Staged id batch where
  inLoop v request made now unmade free staged := by
    have never := staged.unmade unmade
    constructor
    · intro none
      rw [View.addTimer_request] at none
      cases none
    · exact fun _ _ _ => Stage.addTimer (v := v.newTimer _ request) free never now
  newTimer v request made unmade free staged := by
    have never := staged.unmade unmade
    obtain ⟨-, nowhere, -⟩ := View.places_eq_zero.mp free
    constructor
    · intro none
      cases none
    · exact fun _ _ _ => .unadded ⟨nowhere, rfl⟩ never
  functor v timer now placed free found staged := by
    obtain ⟨request, _, made, -⟩ := placed.made timer found
    have nowhere := (View.places_eq_zero.mp free).2.1
    constructor
    · intro none
      rw [View.addTimer_request, made] at none
      cases none
    · intro delay asked positive
      rw [View.addTimer_request] at asked
      cases staged.stage delay asked positive with
      | unadded nowhere never => exact Stage.addTimer free never now
      | waiting _ _ only => exact absurd (nowhere.symm.trans only.1) (List.cons_ne_nil _ _).symm
      | refused _ _ queued => exact absurd (View.places_eq_zero.mp queued).1 (Nat.succ_ne_zero _)
      | due expired => exact absurd rfl expired
      | finished queued => exact absurd (View.places_eq_zero.mp queued).1 (Nat.succ_ne_zero _)
  resetTimer v timer turn entry placed free found staged := by
    obtain ⟨request, made, asked, kind⟩ := placed.made timer found
    constructor
    · intro none
      rw [View.resetTimer_request, asked] at none
      cases none
    · intro delay after positive
      rw [View.resetTimer_request] at after
      have once : timer.repeat_ = false := by
        cases Option.some.inj (asked.symm.trans after)
        rw [kind]
        rfl
      exact (staged.stage delay after positive).resetTimer (List.cons_ne_nil _ _) free once turn

theorem staged_step (owned : Owned wide s []) {event : Event} (inTime : s.AddedInTime event)
    (staged : (s.view id).Staged id []) : ((s.step wide event).view id).Staged id [] := by
  apply (staged_kept id).step owned event _ staged
  intro now turns same
  constructor
  · exact fun none => (staged.unmade none).tick now
  · intro delay asked positive
    refine (staged.stage delay asked positive).tick now ?_
    intro expiration added member past early
    apply inTime now turns same id delay asked positive expiration added _ past
    · exact fun late => early (late_story.mp late)
    · exact addTimer_story.mpr member

/-- Between the steps no timer is due, so that one which has not been run is not late. -/
theorem Stage.exact (stage : Stage id v []) :
    (Late v.story id → v.story.count (.run id) = 1) ∧
      (¬ Late v.story id → v.story.count (.run id) = 0) := by
  cases stage with
  | unadded _ never =>
    exact ⟨fun late => absurd late never.early, fun _ => List.count_eq_zero.mpr never.2⟩
  | waiting _ _ _ once _ =>
    exact ⟨fun late => absurd late once.early, fun _ => List.count_eq_zero.mpr once.unrun⟩
  | refused _ _ _ once _ =>
    exact ⟨fun late => absurd late once.early, fun _ => List.count_eq_zero.mpr once.unrun⟩
  | due expired => exact absurd rfl expired
  | finished _ late run => exact ⟨fun _ => run, fun early => absurd late early⟩

theorem runsOnce_iff (owned : Owned wide s []) (staged : ∀ id, (s.view id).Staged id [])
    (event : Event) : s.RunsOnce wide event ↔ s.AddedInTime event := by
  constructor
  · intro runs now turns same id delay asked positive expiration added member past early
    subst same
    cases (staged id).stage delay asked positive with
    | unadded _ never => exact absurd (addTimer_story.mp member) (never.1 _ _)
    | waiting e a _ once taken =>
      obtain ⟨rfl, rfl⟩ := once.once _ _ (addTimer_story.mp member)
      exact taken
    | refused e a free once _ =>
      obtain ⟨rfl, rfl⟩ := once.once _ _ (addTimer_story.mp member)
      have view : (s.step wide (.handleRead now turns)).view id = (s.view id).tick now := by
        apply handleRead_view_ne s turns (List.getElem?_eq_some_iff.mp asked).1
        intro entry expired this
        subst this
        have only := (owned.expired expired).1
        rw [(View.places_eq_zero.mp free).2.1] at only
        cases only
      have still := congrArg View.request view
      have late : Late ((s.view id).tick now).story id :=
        late_concat.mpr (Or.inr ⟨expiration, added, now, rfl, once.here, past⟩)
      have run := (runs id delay (still.trans asked) positive).1
      rw [late_story, run_story, view] at run
      have never : ((s.view id).tick now).story.count (.run id) = 0 := by
        simp [View.tick_eq, List.count_eq_zero.mpr once.unrun]
      exact absurd (never.symm.trans (run late)) (by decide)
    | due expired => exact absurd rfl expired
    | finished _ late _ => exact absurd (late_story.mpr late) early
  · intro inTime id delay asked positive
    have stage := (staged_step owned inTime (staged id)).stage delay asked positive
    rw [late_story, run_story]
    exact stage.exact

/-- The callback of a timer is run once, in the first tick that finds it late, exactly where the
clock has not passed its expiration when it is added. -/
theorem runsOnce_iff_addedInTime (events : List Event) :
    Along (step wide) (RunsOnce wide) {} events ↔ Along (step wide) AddedInTime {} events := by
  apply along_iff_of_exact fun s _ => Owned wide s [] ∧ ∀ id, (s.view id).Staged id []
  · refine ⟨start_owned, fun id => ⟨fun _ => ?_, ?_⟩⟩
    · exact ⟨fun _ _ => List.not_mem_nil, List.not_mem_nil⟩
    · intro delay asked
      cases asked
  · exact fun s event _ good inTime =>
      ⟨good.1.step event, fun id => staged_step good.1 inTime (good.2 id)⟩
  · exact fun s event _ good => runsOnce_iff good.1 good.2 event

/-- A delay of 0, and the clock goes on before `addTimer` looks at it: the timer is never run,
where the next one is. -/
theorem runsOnce_fails :
    ¬ Along (step fun _ => 0) (RunsOnce fun _ => 0) {}
      [.call (.inLoop (.addTimerRunAfter 0) 5 6), .call (.inLoop (.addTimerRunAfter 0) 7 7),
        .handleRead 8 fun _ => ⟨[], 8, 8⟩] := by
  intro along
  have run := (along.2.2.1 0 0 (by decide +kernel) (by decide +kernel)).1
    ⟨5, 6, 8, by decide +kernel, by decide⟩
  revert run
  decide +kernel

end RabbitServer.Net.TimerQueue
