import Mathlib.Data.List.Infix
import Mathlib.Data.List.TakeDrop

/-! Searching, copying and comparing over a range `[first, last)` of an array, step by step as
pointer code does it. An access outside the array gives `none`. -/

namespace Library.Ranges

variable {Cell : Type*} (array : List Cell)

/-- The cells of the range. -/
def slice (first last : Nat) : List Cell := (array.take last).drop first

def copy (first last : Nat) : Option (List Cell) :=
  if first ≤ last ∧ last ≤ array.length then some (slice array first last) else none

theorem copy_eq {first last : Nat} (ordered : first ≤ last) (inside : last ≤ array.length) :
    copy array first last = some (slice array first last) := if_pos ⟨ordered, inside⟩

theorem slice_length {first last : Nat} (inside : last ≤ array.length) :
    (slice array first last).length = last - first := by
  rw [slice, List.length_drop, List.length_take, Nat.min_eq_left inside]

theorem slice_zero (last : Nat) : slice array 0 last = array.take last := rfl

theorem slice_end (first : Nat) : slice array first array.length = array.drop first := by
  rw [slice, List.take_length]

/-- A range that begins inside another one. -/
theorem slice_drop (first count last : Nat) :
    (slice array first last).drop count = slice array (first + count) last :=
  List.drop_drop

theorem slice_take (first last count : Nat) (shorter : first + count ≤ last) :
    (slice array first last).take count = slice array first (first + count) := by
  rw [slice, slice, List.take_drop, List.take_take, Nat.min_eq_left shorter]

theorem slice_cons {first last : Nat} (more : first < last) (inside : last ≤ array.length) :
    ∃ cell, array[first]? = some cell ∧
      slice array first last = cell :: slice array (first + 1) last := by
  have bound : first < (array.take last).length := by
    rw [List.length_take, Nat.min_eq_left inside]
    exact more
  have present : first < array.length := Nat.lt_of_lt_of_le more inside
  refine ⟨array[first], List.getElem?_eq_getElem present, ?_⟩
  rw [slice, List.drop_eq_getElem_cons bound, List.getElem_take, slice]

variable [DecidableEq Cell]

/-- The first cell of the range that holds `cell`, or the end of the range; `rest` is the array
from `first` on. -/
def findFrom (cell : Cell) (last : Nat) : List Cell → Nat → Option Nat
  | [], first => if first = last then some last else none
  | head :: rest, first =>
    if first = last then some last
    else if head = cell then some first
    else findFrom cell last rest (first + 1)

def find (first last : Nat) (cell : Cell) : Option Nat :=
  findFrom cell last (array.drop first) first

/-- Whether the cells of the range are those of another array, from its beginning on. -/
def equal (last : Nat) : List Cell → Nat → Option Bool
  | [], first => if first = last then some true else none
  | cell :: other, first =>
    if first = last then some true
    else
      match array[first]? with
      | some here => if here = cell then equal last other (first + 1) else some false
      | none => none

theorem find_eq {first last : Nat} (cell : Cell) (ordered : first ≤ last)
    (inside : last ≤ array.length) :
    find array first last cell = some (first + (slice array first last).idxOf cell) := by
  unfold find
  induction size : last - first generalizing first with
  | zero =>
    have same : first = last := by omega
    have none : slice array first last = [] := List.eq_nil_of_length_eq_zero (by
      rw [slice_length array inside]
      omega)
    subst same
    rw [none, List.idxOf_nil, Nat.add_zero]
    cases array.drop first <;> simp [findFrom]
  | succ size ih =>
    have more : first < last := by omega
    obtain ⟨head, found, cut⟩ := slice_cons array more inside
    have rest : array.drop first = head :: array.drop (first + 1) := by
      obtain ⟨bound, rfl⟩ := List.getElem?_eq_some_iff.mp found
      exact List.drop_eq_getElem_cons bound
    rw [rest, cut, findFrom, if_neg (Nat.ne_of_lt more), List.idxOf_cons]
    by_cases here : head = cell
    · rw [if_pos here, beq_iff_eq.mpr here]
      rfl
    · rw [if_neg here, beq_false_of_ne here, ih (show first + 1 ≤ last from more) (by omega)]
      simp only [cond_false, Option.some.injEq]
      omega

theorem equal_eq {first last : Nat} (other : List Cell) (inside : last ≤ array.length)
    (long : first + other.length = last) :
    equal array last other first = some (decide (slice array first last = other)) := by
  induction other generalizing first with
  | nil =>
    have none : slice array first last = [] := List.eq_nil_of_length_eq_zero (by
      rw [slice_length array inside, ← long]
      simp)
    rw [none, equal, if_pos (by simpa using long)]
    simp
  | cons cell other ih =>
    rw [List.length_cons] at long
    obtain ⟨here, found, cut⟩ := slice_cons array (show first < last by omega) inside
    rw [equal, if_neg (by omega), found, cut]
    simp only
    by_cases same : here = cell
    · rw [if_pos same, ih (by omega)]
      simp [same]
    · rw [if_neg same]
      simp [same]

end Library.Ranges
