import Mathlib.Data.List.Pairwise
import Mathlib.Order.Lattice

/-! A multimap as the list of its entries in the order of their keys. Entries with the same
key stand in the order in which they were inserted. -/

namespace Library

structure Multimap (Key Value : Type*) [LinearOrder Key] where
  entries : List (Key × Value)
  sorted : entries.Pairwise fun a b => a.1 ≤ b.1

/-- In a list ordered by `r`, what a predicate that is inherited from right to left holds of
is a prefix. -/
theorem takeWhile_eq_filter {α : Type*} {r : α → α → Prop} {p : α → Bool} {l : List α}
    (ordered : l.Pairwise r) (inherited : ∀ a b, r a b → p b = true → p a = true) :
    l.takeWhile p = l.filter p := by
  induction ordered with
  | nil => rfl
  | @cons a rest before _ ih =>
    cases here : p a with
    | true => rw [List.takeWhile_cons_of_pos here, List.filter_cons_of_pos here, ih]
    | false =>
      have none : ∀ b ∈ rest, ¬ p b = true := by
        intro b member later
        rw [inherited a b (before b member) later] at here
        cases here
      rw [List.takeWhile_cons_of_neg (by simp [here]), List.filter_cons_of_neg (by simp [here]),
        List.filter_eq_nil_iff.mpr none]

theorem dropWhile_eq_filter {α : Type*} {r : α → α → Prop} {p : α → Bool} {l : List α}
    (ordered : l.Pairwise r) (inherited : ∀ a b, r a b → p b = true → p a = true) :
    l.dropWhile p = l.filter fun a => !p a := by
  induction ordered with
  | nil => rfl
  | @cons a rest before _ ih =>
    cases here : p a with
    | true =>
      rw [List.dropWhile_cons_of_pos here, List.filter_cons_of_neg (by simp [here]), ih]
    | false =>
      have all : ∀ b ∈ a :: rest, (!p b) = true := by
        intro b member
        rcases List.mem_cons.mp member with rfl | later
        · simp [here]
        · cases there : p b with
          | true => rw [inherited a b (before b later) there] at here; cases here
          | false => rfl
      rw [List.dropWhile_cons_of_neg (by simp [here]), List.filter_eq_self.mpr all]

namespace Multimap
variable {Key Value : Type*} [LinearOrder Key]

def empty : Multimap Key Value := ⟨[], List.Pairwise.nil⟩

section
variable (m : Multimap Key Value) (key : Key)

/-- The entries before the lower bound of the key. -/
def below : List (Key × Value) := m.entries.takeWhile fun entry => entry.1 < key

def eraseBelow : Multimap Key Value where
  entries := m.entries.dropWhile fun entry => entry.1 < key
  sorted := m.sorted.sublist (List.dropWhile_sublist _)

theorem lt_inherited (a b : Key × Value) (ordered : a.1 ≤ b.1) (small : decide (b.1 < key) = true) :
    decide (a.1 < key) = true :=
  decide_eq_true (lt_of_le_of_lt ordered (of_decide_eq_true small))

theorem below_eq_filter : m.below key = m.entries.filter fun entry => entry.1 < key :=
  takeWhile_eq_filter m.sorted (lt_inherited key)

theorem mem_below {entry : Key × Value} :
    entry ∈ m.below key ↔ entry ∈ m.entries ∧ entry.1 < key := by
  rw [below_eq_filter, List.mem_filter, decide_eq_true_eq]

theorem eraseBelow_eq_filter :
    (m.eraseBelow key).entries = m.entries.filter fun entry => key ≤ entry.1 := by
  have rest : (m.eraseBelow key).entries =
      m.entries.filter fun entry => !decide (entry.1 < key) :=
    dropWhile_eq_filter m.sorted (lt_inherited key)
  simpa only [← decide_not, not_lt] using rest

theorem mem_eraseBelow {entry : Key × Value} :
    entry ∈ (m.eraseBelow key).entries ↔ entry ∈ m.entries ∧ key ≤ entry.1 := by
  rw [eraseBelow_eq_filter, List.mem_filter, decide_eq_true_eq]

theorem le_inherited (a b : Key × Value) (ordered : a.1 ≤ b.1) (small : decide (b.1 ≤ key) = true) :
    decide (a.1 ≤ key) = true :=
  decide_eq_true (le_trans ordered (of_decide_eq_true small))

/-- What is not before the place of a new entry has a greater key. -/
theorem lt_of_behind {entry : Key × Value}
    (behind : entry ∈ m.entries.dropWhile fun entry => entry.1 ≤ key) : key < entry.1 := by
  rw [dropWhile_eq_filter m.sorted (le_inherited key)] at behind
  have greater := (List.mem_filter.mp behind).2
  rwa [Bool.not_eq_true', decide_eq_false_iff_not, not_le] at greater

/-- A new entry stands behind those with its key. -/
def insert (value : Value) : Multimap Key Value where
  entries := (m.entries.takeWhile fun entry => entry.1 ≤ key) ++
    (key, value) :: m.entries.dropWhile fun entry => entry.1 ≤ key
  sorted := by
    have small : ∀ a ∈ m.entries.takeWhile fun entry => entry.1 ≤ key, a.1 ≤ key := by
      intro a member
      rw [takeWhile_eq_filter m.sorted (le_inherited key)] at member
      exact of_decide_eq_true (List.mem_filter.mp member).2
    have large : ∀ b ∈ m.entries.dropWhile fun entry => entry.1 ≤ key, key ≤ b.1 :=
      fun b member => le_of_lt (m.lt_of_behind key member)
    rw [List.pairwise_append]
    refine ⟨m.sorted.sublist (List.takeWhile_sublist _), ?_, ?_⟩
    · exact List.pairwise_cons.mpr ⟨large, m.sorted.sublist (List.dropWhile_sublist _)⟩
    · intro a before b behind
      rcases List.mem_cons.mp behind with rfl | later
      · exact small a before
      · exact le_trans (small a before) (large b later)

theorem insert_perm (value : Value) :
    List.Perm (m.insert key value).entries ((key, value) :: m.entries) := by
  refine List.perm_middle.trans (List.Perm.cons _ ?_)
  rw [List.takeWhile_append_dropWhile]

theorem mem_insert {value : Value} {entry : Key × Value} :
    entry ∈ (m.insert key value).entries ↔ entry = (key, value) ∨ entry ∈ m.entries := by
  rw [(m.insert_perm key value).mem_iff, List.mem_cons]

/-- The entries with the key. -/
def group : List (Key × Value) := m.entries.filter fun entry => entry.1 = key

theorem group_insert_self (value : Value) :
    (m.insert key value).group key = m.group key ++ [(key, value)] := by
  have none : (m.entries.dropWhile fun entry => entry.1 ≤ key).filter
      (fun entry => entry.1 = key) = [] := by
    rw [List.filter_eq_nil_iff]
    intro entry behind
    simpa using ne_of_gt (m.lt_of_behind key behind)
  have whole : m.group key = (m.entries.takeWhile fun entry => entry.1 ≤ key).filter
      fun entry => entry.1 = key := by
    rw [group, ← List.takeWhile_append_dropWhile (p := fun entry => entry.1 ≤ key) (l := m.entries),
      List.filter_append, none, List.append_nil]
    simp
  rw [whole, group, insert, List.filter_append, List.filter_cons_of_pos (by simp), none]

theorem group_insert_ne {other : Key} (value : Value) (different : key ≠ other) :
    (m.insert key value).group other = m.group other := by
  rw [group, insert, List.filter_append, List.filter_cons_of_neg (by simpa using different),
    ← List.filter_append, List.takeWhile_append_dropWhile, group]

theorem group_eraseBelow {other : Key} (above : key ≤ other) :
    (m.eraseBelow key).group other = m.group other := by
  rw [group, eraseBelow_eq_filter, List.filter_filter, group]
  apply List.filter_congr
  intro entry _
  by_cases same : entry.1 = other
  · simp [same, above]
  · simp [same]

end

section
variable [DecidableEq Value] (m : Multimap Key Value)

/-- The entries with the value. -/
def of (value : Value) : List (Key × Value) := m.entries.filter fun entry => entry.2 = value

theorem of_insert_ne {key : Key} {value other : Value} (different : value ≠ other) :
    (m.insert key value).of other = m.of other := by
  unfold of insert
  rw [List.filter_append, List.filter_cons_of_neg (by simpa using different), ← List.filter_append,
    List.takeWhile_append_dropWhile]

theorem of_insert_self {key : Key} {value : Value} (absent : m.of value = []) :
    (m.insert key value).of value = [(key, value)] := by
  have perm := (m.insert_perm key value).filter fun entry => entry.2 = value
  rw [List.filter_cons_of_pos (by simp)] at perm
  unfold of at absent ⊢
  rw [absent] at perm
  exact List.perm_singleton.mp perm

theorem filter_swap {α : Type*} (p q : α → Bool) (l : List α) :
    (l.filter p).filter q = (l.filter q).filter p := by
  rw [List.filter_filter, List.filter_filter]
  congr 1
  funext a
  exact Bool.and_comm (q a) (p a)

theorem of_eraseBelow (key : Key) (value : Value) :
    (m.eraseBelow key).of value = (m.of value).filter fun entry => key ≤ entry.1 := by
  rw [of, of, eraseBelow_eq_filter, filter_swap]

theorem below_of (key : Key) (value : Value) :
    ((m.below key).filter fun entry => entry.2 = value) =
      (m.of value).filter fun entry => entry.1 < key := by
  rw [of, below_eq_filter, filter_swap]

end

end Multimap

end Library
