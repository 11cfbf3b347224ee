import Mathlib.Data.List.Infix
import Mathlib.Data.List.GetD

/-! A growable array with its storage in view. `size` elements are live, `capacity`
cells are allocated, and a cell past `size` keeps what was stored there until the
storage is reallocated. Growth past the capacity moves to new storage that holds
exactly the live elements, doubling the size if that is enough. -/

namespace Library

structure Storage (Cell : Type*) where
  cells : Nat → Cell
  size : Nat
  capacity : Nat
  size_le_capacity : size ≤ capacity

namespace Storage

variable {Cell : Type*}

/-- The array before anything is allocated. -/
def empty (fresh : Nat → Cell) : Storage Cell := ⟨fresh, 0, 0, Nat.le_refl 0⟩

/-- The `count` cells from `start` on. -/
def read (s : Storage Cell) (start count : Nat) : List Cell :=
  (List.range count).map fun i => s.cells (start + i)

/-- Store `data` from cell `start` on. -/
def write (s : Storage Cell) (start : Nat) (data : List Cell) : Storage Cell :=
  { s with cells := fun i => if start ≤ i then data[i - start]?.getD (s.cells i) else s.cells i }

/-- Copy `count` cells from `start` to the front. -/
def copyFront (s : Storage Cell) (start count : Nat) : Storage Cell :=
  { s with cells := fun i => if i < count then s.cells (start + i) else s.cells i }

/-- Change the number of live elements. New elements are `zero`; the cells of new
storage that hold no element hold `fresh`. -/
def resize (s : Storage Cell) (zero : Cell) (fresh : Nat → Cell) (n : Nat) : Storage Cell :=
  if fits : n ≤ s.capacity then
    { s with
      cells := fun i => if s.size ≤ i ∧ i < n then zero else s.cells i
      size := n
      size_le_capacity := fits }
  else
    { cells := fun i => if i < s.size then s.cells i else if i < n then zero else fresh i
      size := n
      capacity := max (2 * s.size) n
      size_le_capacity := Nat.le_max_right _ _ }

section
variable (s : Storage Cell)

@[simp] theorem read_length (start count : Nat) : (s.read start count).length = count := by
  simp [read]

@[simp] theorem read_getElem (start count i : Nat) (bound : i < (s.read start count).length) :
    (s.read start count)[i] = s.cells (start + i) := by
  simp [read]

@[simp] theorem write_size (start : Nat) (data : List Cell) :
    (s.write start data).size = s.size := rfl

@[simp] theorem write_capacity (start : Nat) (data : List Cell) :
    (s.write start data).capacity = s.capacity := rfl

@[simp] theorem copyFront_capacity (start count : Nat) :
    (s.copyFront start count).capacity = s.capacity := rfl

theorem resize_capacity_of_gt (zero : Cell) (fresh : Nat → Cell) {n : Nat}
    (grows : s.capacity < n) : (s.resize zero fresh n).capacity = max (2 * s.size) n := by
  unfold resize
  rw [dif_neg (by omega)]

theorem read_congr {s t : Storage Cell} {start first count : Nat}
    (same : ∀ i, i < count → s.cells (start + i) = t.cells (first + i)) :
    s.read start count = t.read first count := by
  apply List.map_congr_left
  intro i member
  exact same i (List.mem_range.mp member)

theorem read_add (start first second : Nat) :
    s.read start (first + second) = s.read start first ++ s.read (start + first) second := by
  simp only [read, List.range_add, List.map_append, List.map_map, Function.comp_def,
    Nat.add_assoc]

theorem read_drop (start count k : Nat) :
    (s.read start count).drop k = s.read (start + k) (count - k) := by
  apply List.ext_getElem
  · simp
  · intro i _ _
    simp [Nat.add_assoc]

theorem read_take (start count k : Nat) :
    (s.read start count).take k = s.read start (min k count) := by
  rw [read, ← List.map_take, List.take_range, read]

theorem read_write_self (start : Nat) (data : List Cell) :
    (s.write start data).read start data.length = data := by
  apply List.ext_getElem
  · simp
  · intro i _ inside
    simp [write, inside]

/-- Storing leaves the cells before it alone. -/
theorem read_write_before (start : Nat) (data : List Cell) (first count : Nat)
    (before : first + count ≤ start) :
    (s.write start data).read first count = s.read first count := by
  apply read_congr
  intro i inside
  exact if_neg (by omega)

theorem read_copyFront (start count : Nat) :
    (s.copyFront start count).read 0 count = s.read start count := by
  apply read_congr
  intro i inside
  simp [copyFront, inside]

/-- Growth keeps a range of cells exactly when those of them that are no live
elements hold the value new elements get. -/
theorem read_resize_iff (zero : Cell) (fresh : Nat → Cell) {n : Nat} (grows : s.capacity < n)
    (start count : Nat) (inside : start + count ≤ n) :
    (s.resize zero fresh n).read start count = s.read start count ↔
      ∀ i, s.size ≤ i → start ≤ i → i < start + count → s.cells i = zero := by
  have cell : ∀ i, i < n → (s.resize zero fresh n).cells i =
      if i < s.size then s.cells i else zero := by
    intro i below
    unfold resize
    rw [dif_neg (by omega)]
    simp only [below, if_true]
  constructor
  · intro same i dead low high
    have bound : i - start < count := by omega
    have at_i := congrArg (fun l => l[i - start]?) same
    have position : start + (i - start) = i := by omega
    simp only [read, List.getElem?_map, List.getElem?_range bound, Option.map_some,
      Option.some.injEq, position] at at_i
    rw [cell i (by omega), if_neg (by omega)] at at_i
    exact at_i.symm
  · intro zeroes
    apply read_congr
    intro i bound
    rw [cell _ (by omega)]
    split
    · rfl
    · exact (zeroes _ (by omega) (by omega) (by omega)).symm

end

end Storage

end Library
