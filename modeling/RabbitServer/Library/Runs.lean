import Mathlib.Data.List.Infix

/-! Runs of a machine whose step is a total function of a state and an event.
A property of runs is written with `Along`: a relation between a state and the
event that meets it there, required at every position of the run. -/

namespace Library.Runs

variable {State Event : Type*}

/-- The state after the events, in order. -/
def run (step : State → Event → State) (start : State) (events : List Event) : State :=
  events.foldl step start

/-- Every event of the run is related by `meets` to the state it finds. -/
def Along (step : State → Event → State) (meets : State → Event → Prop) :
    State → List Event → Prop
  | _, [] => True
  | state, event :: rest => meets state event ∧ Along step meets (step state event) rest

section
variable {step : State → Event → State} {meets good : State → Event → Prop}

@[simp] theorem run_nil (start : State) : run step start [] = start := rfl

@[simp] theorem run_cons (start : State) (event : Event) (rest : List Event) :
    run step start (event :: rest) = run step (step start event) rest := rfl

@[simp] theorem along_cons (start : State) (event : Event) (rest : List Event) :
    Along step meets start (event :: rest) ↔
      meets start event ∧ Along step meets (step start event) rest := Iff.rfl

/-- An invariant that every event meeting the condition keeps holds after the run. -/
theorem Along.invariant (Inv : State → Prop) {start : State} {events : List Event}
    (along : Along step meets start events) (initial : Inv start)
    (keeps : ∀ state event, Inv state → meets state event → Inv (step state event)) :
    Inv (run step start events) := by
  induction events generalizing start with
  | nil => exact initial
  | cons event rest ih => exact ih along.2 (keeps _ _ initial along.1)

/-- The same without a condition on the events. -/
theorem run_invariant (Inv : State → Prop) (start : State) (events : List Event)
    (initial : Inv start) (keeps : ∀ state event, Inv state → Inv (step state event)) :
    Inv (run step start events) := by
  induction events generalizing start with
  | nil => exact initial
  | cons event rest ih => exact ih (step start event) (keeps _ _ initial)

/-- The same for the events of one run. -/
theorem run_invariant_of_mem (Inv : State → Prop) (start : State) (events : List Event)
    (initial : Inv start)
    (keeps : ∀ state, ∀ event ∈ events, Inv state → Inv (step state event)) :
    Inv (run step start events) := by
  induction events generalizing start with
  | nil => exact initial
  | cons event rest ih =>
    apply ih _ (keeps _ event (List.mem_cons_self ..) initial)
    exact fun state later member => keeps state later (List.mem_cons_of_mem _ member)

/-- An invariant may mention the events still to come. -/
theorem run_invariant_ahead (Ahead : State → List Event → Prop) (start : State)
    (done later : List Event) (initial : Ahead start (done ++ later))
    (keeps : ∀ state event rest, Ahead state (event :: rest) → Ahead (step state event) rest) :
    Ahead (run step start done) later := by
  induction done generalizing start with
  | nil => exact initial
  | cons event rest ih => exact ih (step start event) (keeps _ _ _ initial)

/-- First violation: where a condition is exact in every state of an invariant that
it keeps, it is exact for runs. The invariant is used only up to the first event
that breaks the condition, and may mention the events still to come. -/
theorem along_iff_of_exact (Ahead : State → List Event → Prop) (start : State)
    (events : List Event) (initial : Ahead start events)
    (keeps : ∀ state event rest, Ahead state (event :: rest) → meets state event →
      Ahead (step state event) rest)
    (exact_at : ∀ state event rest, Ahead state (event :: rest) →
      (good state event ↔ meets state event)) :
    Along step good start events ↔ Along step meets start events := by
  induction events generalizing start with
  | nil => exact Iff.rfl
  | cons event rest ih =>
    rw [along_cons, along_cons, exact_at _ _ _ initial]
    apply and_congr_right
    intro here
    exact ih (step start event) (keeps _ _ _ initial here)

/-- Exact refinement: two machines driven by the same events stay related after
every prefix exactly when every event meets the condition, where the condition is
exact for one step. The invariant of the concrete machine does not need it. -/
theorem related_iff_along {Abstract : Type*} {abstractStep : Abstract → Event → Abstract}
    (Inv : State → Prop) (related : State → Abstract → Prop) (start : State) (abstract : Abstract)
    (events : List Event) (initial : Inv start) (initially : related start abstract)
    (keeps : ∀ state event, Inv state → Inv (step state event))
    (exact_at : ∀ state abstract event, Inv state → related state abstract →
      (related (step state event) (abstractStep abstract event) ↔ meets state event)) :
    (∀ done, done <+: events → related (run step start done) (run abstractStep abstract done)) ↔
      Along step meets start events := by
  induction events generalizing start abstract with
  | nil =>
    apply iff_of_true _ trivial
    intro done none
    rw [List.prefix_nil.mp none]
    exact initially
  | cons event rest ih =>
    constructor
    · intro always
      have here : related (step start event) (abstractStep abstract event) :=
        always [event] (List.cons_prefix_cons.mpr ⟨rfl, List.nil_prefix⟩)
      have later : Along step meets (step start event) rest := by
        apply (ih _ _ (keeps _ _ initial) here).mp
        intro done before
        exact always (event :: done) (List.cons_prefix_cons.mpr ⟨rfl, before⟩)
      exact ⟨(exact_at _ _ _ initial initially).mp here, later⟩
    · intro along done before
      have here := (exact_at _ _ _ initial initially).mpr along.1
      cases done with
      | nil => exact initially
      | cons head done =>
        obtain ⟨rfl, tail_before⟩ := List.cons_prefix_cons.mp before
        exact (ih _ _ (keeps _ _ initial) here).mpr along.2 done tail_before

/-- The machine with a history beside it, which sees every step and acts on none. -/
def recorded {History : Type*} (step : State → Event → State)
    (record : State → Event → History → History) (s : State × History) (event : Event) :
    State × History :=
  (step s.1 event, record s.1 event s.2)

theorem run_recorded {History : Type*} (step : State → Event → State)
    (record : State → Event → History → History) (s : State × History) (events : List Event) :
    (run (recorded step record) s events).1 = run step s.1 events := by
  induction events generalizing s with
  | nil => rfl
  | cons event rest ih => exact ih (recorded step record s event)

/-- A condition that keeps an invariant, and with it gives a property of each step, gives
the property of the run. -/
theorem Along.imp_of_invariant (Inv : State → Prop) {start : State} {events : List Event}
    (along : Along step meets start events) (initial : Inv start)
    (keeps : ∀ state event, Inv state → meets state event → Inv (step state event))
    (gives : ∀ state event, Inv state → meets state event → good state event) :
    Along step good start events := by
  induction events generalizing start with
  | nil => exact trivial
  | cons event rest ih =>
    exact ⟨gives _ _ initial along.1, ih along.2 (keeps _ _ initial along.1)⟩

/-- A step that breaks the condition makes the property fail sooner or later: then the
property holds of a run and of whatever comes next exactly when every event of the run
meets the condition. -/
theorem along_next_iff_of_doomed (Inv Doomed : State → Prop) (start : State)
    (events : List Event) (initial : Inv start)
    (keeps : ∀ state event, Inv state → meets state event → Inv (step state event))
    (gives : ∀ state event, Inv state → good state event)
    (dooms : ∀ state event, Inv state → ¬ meets state event → Doomed (step state event))
    (stays : ∀ state event, Doomed state → good state event → Doomed (step state event))
    (fails : ∀ state, Doomed state → ∃ event, ¬ good state event) :
    (∀ next, Along step good start (events ++ [next])) ↔ Along step meets start events := by
  have ends : ∀ rest state, Doomed state → ¬ ∀ next, Along step good state (rest ++ [next]) := by
    intro rest
    induction rest with
    | nil =>
      intro state doomed always
      obtain ⟨event, failing⟩ := fails state doomed
      exact failing (always event).1
    | cons event rest ih =>
      intro state doomed always
      obtain ⟨next, -⟩ := fails state doomed
      have here := (always next).1
      exact ih _ (stays _ _ doomed here) fun next => (always next).2
  induction events generalizing start with
  | nil => exact iff_of_true (fun next => ⟨gives _ _ initial, trivial⟩) trivial
  | cons event rest ih =>
    by_cases meeting : meets start event
    · have tail := ih _ (keeps _ _ initial meeting)
      constructor
      · exact fun always => ⟨meeting, tail.mp fun next => (always next).2⟩
      · exact fun along next => ⟨gives _ _ initial, tail.mpr along.2 next⟩
    · apply iff_of_false
      · intro always
        exact ends rest _ (dooms _ _ initial meeting) fun next => (always next).2
      · exact fun along => meeting along.1

/-- What holds of every step of an invariant's states holds along every run. The invariant may
mention the events still to come. -/
theorem along_of_ahead (Ahead : State → List Event → Prop) (start : State) (events : List Event)
    (initial : Ahead start events)
    (keeps : ∀ state event rest, Ahead state (event :: rest) → Ahead (step state event) rest)
    (holds : ∀ state event rest, Ahead state (event :: rest) → good state event) :
    Along step good start events := by
  induction events generalizing start with
  | nil => exact trivial
  | cons event rest ih => exact ⟨holds _ _ _ initial, ih _ (keeps _ _ _ initial)⟩

/-- The same where it does not. -/
theorem along_of_invariant (Inv : State → Prop) (start : State) (events : List Event)
    (initial : Inv start) (keeps : ∀ state event, Inv state → Inv (step state event))
    (holds : ∀ state event, Inv state → good state event) : Along step good start events :=
  along_of_ahead (fun state _ => Inv state) start events initial
    (fun state event _ => keeps state event) fun state event _ => holds state event

end

section
variable {Part Own Seen : Type*} [DecidableEq Part]

/-- The events of one part. -/
def ownEvents (part : Part) (events : List (Part × Own)) : List Own :=
  events.filterMap fun event => if event.1 = part then some event.2 else none

/-- A run of many parts, seen from one of them, is the run of its own events: the events of
the others leave what is seen. -/
theorem run_own {step : State → Part × Own → State} {own : Seen → Own → Seen} (part : Part)
    (shows : State → Seen → Prop) (start : State) (first : Seen) (events : List (Part × Own))
    (initial : shows start first)
    (steps : ∀ state seen event, shows state seen →
      shows (step state (part, event)) (own seen event))
    (leaves : ∀ state seen event, event.1 ≠ part → shows state seen →
      shows (step state event) seen) :
    shows (run step start events) (run own first (ownEvents part events)) := by
  induction events generalizing start first with
  | nil => exact initial
  | cons event rest ih =>
    obtain ⟨concerned, event⟩ := event
    by_cases this : concerned = part
    · subst this
      have own := ih _ _ (steps start first event initial)
      simpa [ownEvents] using own
    · have kept := ih _ _ (leaves start first (concerned, event) this initial)
      simpa [ownEvents, this] using kept

end

end Library.Runs
