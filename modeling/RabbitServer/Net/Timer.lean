import Mathlib.Algebra.Order.Floor.Ring
import Mathlib.Data.Rat.Floor
import Mathlib.Tactic.Linarith

/-! `net/Timestamp.cpp`, `net/Timer.cpp`, and the three ways in which `EventLoop` makes a
timer. Times are whole microseconds since the epoch, of any size; `double` is exact. -/

namespace RabbitServer.Net

abbrev Timestamp := Int

namespace Timestamp

def kMicroSecondsPerSecond : Int := 1000 * 1000

theorem kMicroSecondsPerSecond_cast : (kMicroSecondsPerSecond : ℚ) = 1000000 := by
  norm_num [kMicroSecondsPerSecond]

/-- `now` is the clock reading that is taken. -/
def nowAfter (now : Timestamp) (seconds : ℚ) : Timestamp :=
  ⌊(now : ℚ) + kMicroSecondsPerSecond * seconds⌋

theorem nowAfter_eq (now : Timestamp) (seconds : ℚ) :
    nowAfter now seconds = now + ⌊(kMicroSecondsPerSecond : ℚ) * seconds⌋ := by
  rw [nowAfter, Int.floor_intCast_add]

theorem nowAfter_intCast (now : Timestamp) (seconds : Int) :
    nowAfter now seconds = now + kMicroSecondsPerSecond * seconds := by
  rw [nowAfter_eq, ← Int.cast_mul, Int.floor_intCast]

end Timestamp

/-- A `double` given for an `int` is rounded towards zero. Where that does not fit the
language leaves the value open: it is what `wide` says. -/
def toInt (wide : ℚ → Int32) (seconds : ℚ) : Int32 :=
  let whole := if 0 ≤ seconds then ⌊seconds⌋ else ⌈seconds⌉
  if Int32.minValue.toInt ≤ whole ∧ whole ≤ Int32.maxValue.toInt then Int32.ofInt whole
  else wide seconds

structure Timer where
  expiration : Timestamp
  repeat_ : Bool
  interval : Int32

/-- `isRepeated` is asked before, so that a timer that is not repeated stays as it is. -/
def Timer.reset (timer : Timer) (now : Timestamp) : Timer :=
  if timer.repeat_ then
    { timer with expiration := Timestamp.nowAfter now timer.interval.toInt }
  else timer

theorem Timer.reset_eq (timer : Timer) (now : Timestamp) :
    timer.reset now = { timer with expiration := (timer.reset now).expiration } := by
  unfold Timer.reset
  split <;> rfl

theorem Timer.reset_repeated {timer : Timer} (now : Timestamp) (repeated : timer.repeat_ = true) :
    (timer.reset now).expiration = Timestamp.nowAfter now timer.interval.toInt := by
  rw [Timer.reset, if_pos repeated]

/-- What `EventLoop` is asked for. -/
inductive Request where
  | addTimerRunAt (time : Timestamp)
  | addTimerRunAfter (delay : ℚ)
  | addTimerRunEvery (interval : ℚ)
  deriving DecidableEq

/-- The timer that is made; `addTimerRunAt` does not look at the clock. -/
def Request.timer (wide : ℚ → Int32) (now : Timestamp) : Request → Timer
  | .addTimerRunAt time => ⟨time, false, 0⟩
  | .addTimerRunAfter delay => ⟨Timestamp.nowAfter now delay, false, 0⟩
  | .addTimerRunEvery interval => ⟨Timestamp.nowAfter now interval, true, toInt wide interval⟩

/-- The interval is a number of seconds that an `int` can hold, but for less than a
microsecond. -/
def WholeSeconds (interval : ℚ) : Prop :=
  interval < 2147483648 ∧ Int.fract interval < 1 / 1000000

section
variable {wide : ℚ → Int32} {interval : ℚ}

theorem toInt_of_lt (positive : 0 < interval) (small : interval < 2147483648) :
    (toInt wide interval).toInt = ⌊interval⌋ := by
  have low : 0 ≤ ⌊interval⌋ := Int.floor_nonneg.mpr (le_of_lt positive)
  have high : ⌊interval⌋ < 2147483648 := Int.floor_lt.mpr (by exact_mod_cast small)
  have least : Int32.minValue.toInt = -2147483648 := by decide
  have most : Int32.maxValue.toInt = 2147483647 := by decide
  rw [toInt, if_pos (le_of_lt positive), if_pos (by omega)]
  exact Int32.toInt_ofInt_of_le (by omega) (by omega)

theorem floor_micro : ⌊(Timestamp.kMicroSecondsPerSecond : ℚ) * interval⌋ =
    Timestamp.kMicroSecondsPerSecond * ⌊interval⌋ ↔ Int.fract interval < 1 / 1000000 := by
  have split : (Timestamp.kMicroSecondsPerSecond : ℚ) * interval =
      (Timestamp.kMicroSecondsPerSecond * ⌊interval⌋ : Int) +
        Timestamp.kMicroSecondsPerSecond * Int.fract interval := by
    rw [Int.cast_mul, ← mul_add, Int.floor_add_fract]
  have part := Int.fract_nonneg interval
  rw [split, Int.floor_intCast_add, add_eq_left, Int.floor_eq_zero_iff, Set.mem_Ico,
    Timestamp.kMicroSecondsPerSecond_cast]
  constructor
  · intro within
    linarith [within.2]
  · intro below
    constructor <;> linarith

/-- As an `int` the interval is what was given exactly where that is a whole number of
seconds. -/
theorem nowAfter_toInt (wide : ℚ → Int32) (now : Timestamp) (positive : 0 < interval) :
    Timestamp.nowAfter now (toInt wide interval).toInt = Timestamp.nowAfter now interval ↔
      WholeSeconds interval := by
  rw [Timestamp.nowAfter_intCast, Timestamp.nowAfter_eq, Int.add_right_inj, WholeSeconds]
  by_cases small : interval < 2147483648
  · rw [toInt_of_lt positive small, eq_comm, floor_micro]
    exact (and_iff_right small).symm
  · apply iff_of_false _ fun whole => small whole.1
    intro same
    have most : (toInt wide interval).toInt < 2147483648 := Int32.toInt_lt _
    have least : (2147483648 * 1000000 : Int) ≤
        ⌊(Timestamp.kMicroSecondsPerSecond : ℚ) * interval⌋ := by
      rw [Int.le_floor, Timestamp.kMicroSecondsPerSecond_cast]
      push_cast
      linarith
    rw [← same, Timestamp.kMicroSecondsPerSecond] at least
    omega

end

end RabbitServer.Net
