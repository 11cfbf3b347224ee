import Mathlib.Order.WellFounded
import RabbitServer.Library.Simulation

/-! Unending runs of several parties: a machine whose every move descends in a rank comes to its
end, however the parties are scheduled, as long as none of them is left out for good. -/

namespace Library.Runs

variable {State Party : Type*} {step : State → Party → State} {start : State}

/-- The state once the parties have been scheduled `n` times. -/
def stateAt (step : State → Party → State) (start : State) (schedule : ℕ → Party) (n : ℕ) : State :=
  run step start ((List.range n).map schedule)

/-- Every party is scheduled again and again. -/
def Fair (schedule : ℕ → Party) : Prop := ∀ party n, ∃ m, n ≤ m ∧ schedule m = party

theorem stateAt_succ (schedule : ℕ → Party) (n : ℕ) :
    stateAt step start schedule (n + 1) = step (stateAt step start schedule n) (schedule n) := by
  rw [stateAt, List.range_succ, List.map_append, run_append]
  rfl

theorem stateAt_invariant (Inv : State → Prop) (initial : Inv start)
    (keeps : ∀ state party, Inv state → Inv (step state party)) (schedule : ℕ → Party) (n : ℕ) :
    Inv (stateAt step start schedule n) :=
  run_invariant Inv start _ initial keeps

section
variable {Rank : Type*} [Preorder Rank] (rank : State → Rank)

/-- Until something moves the state is the same, and then it is lower. -/
theorem stateAt_descends {schedule : ℕ → Party}
    (descends : ∀ n, stateAt step start schedule (n + 1) = stateAt step start schedule n ∨
      rank (stateAt step start schedule (n + 1)) < rank (stateAt step start schedule n))
    {n m : ℕ} (later : n ≤ m) :
    stateAt step start schedule m = stateAt step start schedule n ∨
      rank (stateAt step start schedule m) < rank (stateAt step start schedule n) := by
  induction m, later using Nat.le_induction with
  | base => exact Or.inl rfl
  | succ m _ ih =>
    rcases descends m with still | lower
    · rwa [still]
    · right
      rcases ih with same | before
      · rwa [same] at lower
      · exact lower.trans before

/-- Where some party can move in every state that is not final, and every move from such a state
descends, a fair schedule comes to a final one. -/
theorem fair_ends [WellFoundedLT Rank] {Inv final : State → Prop} (initial : Inv start)
    (keeps : ∀ state party, Inv state → Inv (step state party))
    (descends : ∀ state party, Inv state → ¬ final state →
      step state party = state ∨ rank (step state party) < rank state)
    (moves : ∀ state, Inv state → ¬ final state → ∃ party, step state party ≠ state)
    {schedule : ℕ → Party} (fair : Fair schedule) :
    ∃ n, final (stateAt step start schedule n) := by
  by_contra unending
  have going : ∀ n, ¬ final (stateAt step start schedule n) := fun n ends => unending ⟨n, ends⟩
  have good := stateAt_invariant Inv initial keeps schedule
  have descending : ∀ n, stateAt step start schedule (n + 1) = stateAt step start schedule n ∨
      rank (stateAt step start schedule (n + 1)) < rank (stateAt step start schedule n) := by
    intro n
    rw [stateAt_succ]
    exact descends _ (schedule n) (good n) (going n)
  have lower : ∀ n, ∃ m, rank (stateAt step start schedule m) <
      rank (stateAt step start schedule n) := by
    intro n
    obtain ⟨party, moved⟩ := moves _ (good n) (going n)
    obtain ⟨m, later, rfl⟩ := fair party n
    rcases stateAt_descends rank descending later with same | below
    · refine ⟨m + 1, ?_⟩
      rw [← same] at moved ⊢
      exact (descending m).resolve_left ((stateAt_succ schedule m).trans_ne moved)
    · exact ⟨m, below⟩
  let ranks := Set.range fun n => rank (stateAt step start schedule n)
  obtain ⟨_, ⟨n, rfl⟩, least⟩ := wellFounded_lt.has_min ranks ⟨_, 0, rfl⟩
  obtain ⟨m, below⟩ := lower n
  exact least _ ⟨m, rfl⟩ below

end

end Library.Runs
