import RabbitServer.Library.Runs

/-! One machine seen through another: a step of the first stands for some steps of the second,
none or several, and the two stay related over whole runs. -/

namespace Library.Runs

variable {State Event Seen Own : Type*} {step : State → Event → State} {own : Seen → Own → Seen}

/-- The events of the second machine that the steps of a run of the first stand for. -/
def translated (step : State → Event → State) (translate : State → Event → List Own) :
    State → List Event → List Own
  | _, [] => []
  | state, event :: rest =>
    translate state event ++ translated step translate (step state event) rest

theorem run_append (start : State) (events later : List Event) :
    run step start (events ++ later) = run step (run step start events) later :=
  List.foldl_append

/-- What relates the machines after every step relates them after every run. -/
theorem run_translated {translate : State → Event → List Own} (shows : State → Seen → Prop)
    (start : State) (first : Seen) (events : List Event) (initial : shows start first)
    (steps : ∀ state seen event, shows state seen →
      shows (step state event) (run own seen (translate state event))) :
    shows (run step start events) (run own first (translated step translate start events)) := by
  induction events generalizing start first with
  | nil => exact initial
  | cons event rest ih =>
    rw [translated, run_append]
    exact ih _ _ (steps start first event initial)

/-- What holds of all that single steps stand for holds of all that a run stands for. -/
theorem translated_forall {translate : State → Event → List Own} (meets : Event → Prop)
    (holds : Own → Prop) (start : State) (events : List Event)
    (meeting : ∀ event ∈ events, meets event)
    (gives : ∀ state event, meets event → ∀ small ∈ translate state event, holds small) :
    ∀ small ∈ translated step translate start events, holds small := by
  induction events generalizing start with
  | nil => exact nofun
  | cons event rest ih =>
    intro small member
    rcases List.mem_append.mp member with here | later
    · exact gives start event (meeting event (List.mem_cons_self ..)) small here
    · exact ih _ (fun other inside => meeting other (List.mem_cons_of_mem _ inside)) small later

end Library.Runs
