/-! A `while` loop whose body may stop the program, run with fuel. A measure that
every pass decreases makes the fuel irrelevant. -/

namespace Library.Loop

variable {State Stop : Type _}

/-- `while (continues) body`; out of fuel the loop stops with `spins`. -/
def whileLoop (continues : State → Bool) (body : State → Except Stop State) (spins : Stop) :
    Nat → State → Except Stop State
  | 0, _ => .error spins
  | fuel + 1, state =>
    if continues state then
      match body state with
      | .ok next => whileLoop continues body spins fuel next
      | .error stop => .error stop
    else .ok state

section
variable {continues : State → Bool} {body : State → Except Stop State} {spins : Stop}

theorem whileLoop_done (fuel : Nat) {state : State} (done : continues state = false) :
    whileLoop continues body spins (fuel + 1) state = .ok state := by
  simp [whileLoop, done]

theorem whileLoop_pass (fuel : Nat) {state next : State} (more : continues state = true)
    (pass : body state = .ok next) :
    whileLoop continues body spins (fuel + 1) state = whileLoop continues body spins fuel next := by
  simp [whileLoop, more, pass]

theorem whileLoop_stop (fuel : Nat) {state : State} {stop : Stop} (more : continues state = true)
    (stops : body state = .error stop) :
    whileLoop continues body spins (fuel + 1) state = .error stop := by
  simp [whileLoop, more, stops]

/-- A pass that changes nothing spins, whatever the fuel. -/
theorem whileLoop_spins (fuel : Nat) {state : State} (more : continues state = true)
    (idle : body state = .ok state) :
    whileLoop continues body spins fuel state = .error spins := by
  induction fuel with
  | zero => rfl
  | succ fuel ih => rw [whileLoop_pass fuel more idle, ih]

variable (Inv : State → Prop) (measure : State → Nat)
  (decreases : ∀ state next, Inv state → continues state = true → body state = .ok next →
    Inv next ∧ measure next < measure state)
include decreases

theorem whileLoop_fuel (state : State) (inv : Inv state) (fuel other : Nat)
    (enough : measure state < fuel) (otherEnough : measure state < other) :
    whileLoop continues body spins fuel state = whileLoop continues body spins other state := by
  induction fuel generalizing state other with
  | zero => omega
  | succ fuel ih =>
    cases other with
    | zero => omega
    | succ other =>
      cases more : continues state with
      | false => rw [whileLoop_done fuel more, whileLoop_done other more]
      | true =>
        cases pass : body state with
        | error stop => rw [whileLoop_stop fuel more pass, whileLoop_stop other more pass]
        | ok next =>
          have smaller := decreases state next inv more pass
          rw [whileLoop_pass fuel more pass, whileLoop_pass other more pass]
          exact ih next smaller.1 other (by omega) (by omega)

/-- With enough fuel the loop ends, or stops for a reason its body gave. -/
theorem whileLoop_ends (never : ∀ state, body state ≠ .error spins) (state : State)
    (inv : Inv state) (fuel : Nat) (enough : measure state < fuel) :
    whileLoop continues body spins fuel state ≠ .error spins := by
  induction fuel generalizing state with
  | zero => omega
  | succ fuel ih =>
    cases more : continues state with
    | false => simp [whileLoop_done fuel more]
    | true =>
      cases pass : body state with
      | error stop =>
        rw [whileLoop_stop fuel more pass, ← pass]
        exact never state
      | ok next =>
        have smaller := decreases state next inv more pass
        rw [whileLoop_pass fuel more pass]
        exact ih next smaller.1 (by omega)

end

/-- Two computations end alike: in related states, or for related reasons. -/
def Ends {Stop' State' : Type _} (R : State → State' → Prop) (E : Stop → Stop' → Prop) :
    Except Stop State → Except Stop' State' → Prop
  | .ok state, .ok other => R state other
  | .error stop, .error other => E stop other
  | _, _ => False

section
variable {Stop' State' : Type _} {continues : State → Bool} {body : State → Except Stop State}
  {spins : Stop} {continues' : State' → Bool} {body' : State' → Except Stop' State'}
  {spins' : Stop'} {R : State → State' → Prop} {E : Stop → Stop' → Prop}

theorem Ends.cases {first : Except Stop State} {second : Except Stop' State'}
    (ends : Ends R E first second) :
    (∃ state other, first = .ok state ∧ second = .ok other ∧ R state other) ∨
      ∃ stop other, first = .error stop ∧ second = .error other ∧ E stop other := by
  cases first with
  | ok state =>
    cases second with
    | ok other => exact Or.inl ⟨state, other, rfl, rfl, ends⟩
    | error other => exact ends.elim
  | error stop =>
    cases second with
    | ok other => exact ends.elim
    | error other => exact Or.inr ⟨stop, other, rfl, rfl, ends⟩

/-- Where one pass keeps two loops related, they end alike. -/
theorem whileLoop_ends_alike (spin : E spins spins')
    (same : ∀ state other, R state other → continues state = continues' other)
    (pass : ∀ state other, R state other → continues state = true →
      Ends R E (body state) (body' other))
    (fuel : Nat) {state : State} {other : State'} (related : R state other) :
    Ends R E (whileLoop continues body spins fuel state)
      (whileLoop continues' body' spins' fuel other) := by
  induction fuel generalizing state other with
  | zero => exact spin
  | succ fuel ih =>
    have agree := same state other related
    cases more : continues state with
    | false =>
      rw [whileLoop_done fuel more, whileLoop_done fuel (agree.symm.trans more)]
      exact related
    | true =>
      have more' := agree.symm.trans more
      obtain ⟨next, next', first, second, here⟩ | ⟨stop, stop', first, second, here⟩ :=
        (pass state other related more).cases
      · rw [whileLoop_pass fuel more first, whileLoop_pass fuel more' second]
        exact ih here
      · rw [whileLoop_stop fuel more first, whileLoop_stop fuel more' second]
        exact here

end

end Library.Loop
