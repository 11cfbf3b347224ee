import RabbitServer.Library.Lines

/-! A block of lines, which an empty line ends, and the text behind it. -/

namespace Library.Lines

variable {Symbol : Type*} [DecidableEq Symbol]

/-- The text before the first two terminators in a row, and the text behind them. -/
def cutBlank (first second : Symbol) : List Symbol → Option (List Symbol × List Symbol)
  | x :: y :: z :: w :: rest =>
    if x = first ∧ y = second ∧ z = first ∧ w = second then some ([], rest)
    else (cutBlank first second (y :: z :: w :: rest)).map fun cut => (x :: cut.1, cut.2)
  | _ => none

/-- The text between the terminators. -/
def split (first second : Symbol) : List Symbol → List (List Symbol)
  | x :: y :: rest =>
    if x = first ∧ y = second then [] :: split first second rest
    else
      match split first second (y :: rest) with
      | line :: lines => (x :: line) :: lines
      | [] => [[x]]
  | text => [text]

section
variable {first second : Symbol}

theorem cutBlank_cons {x : Symbol} (other : x ≠ first) (rest : List Symbol) :
    cutBlank first second (x :: rest) =
      (cutBlank first second rest).map fun cut => (x :: cut.1, cut.2) := by
  match rest with
  | [] => rfl
  | [y] => rfl
  | [y, z] => rfl
  | y :: z :: w :: rest => rw [cutBlank, if_neg (fun all => other all.1)]

theorem cutBlank_line {line : List Symbol} (plain : first ∉ line) (rest : List Symbol) :
    cutBlank first second (line ++ rest) =
      (cutBlank first second rest).map fun cut => (line ++ cut.1, cut.2) := by
  induction line with
  | nil => simp
  | cons x line ih =>
    have other : x ≠ first := fun same => plain (same ▸ List.mem_cons_self ..)
    have tail := ih fun member => plain (List.mem_cons_of_mem _ member)
    rw [List.cons_append, cutBlank_cons other, tail, Option.map_map]
    rfl

theorem split_cons {x : Symbol} (other : x ≠ first) {rest line : List Symbol}
    {lines : List (List Symbol)} (cut : split first second rest = line :: lines) :
    split first second (x :: rest) = (x :: line) :: lines := by
  cases rest with
  | nil =>
    cases cut
    rfl
  | cons y rest => rw [split, if_neg (fun both => other both.1), cut]

theorem split_line {line : List Symbol} (plain : first ∉ line) :
    split first second line = [line] := by
  induction line with
  | nil => rfl
  | cons x line ih =>
    have other : x ≠ first := fun same => plain (same ▸ List.mem_cons_self ..)
    exact split_cons other (ih fun member => plain (List.mem_cons_of_mem _ member))

theorem split_terminated {line : List Symbol} (plain : first ∉ line) (rest : List Symbol) :
    split first second (line ++ first :: second :: rest) =
      line :: split first second rest := by
  induction line with
  | nil => simp [split]
  | cons x line ih =>
    have other : x ≠ first := fun same => plain (same ▸ List.mem_cons_self ..)
    exact split_cons other (ih fun member => plain (List.mem_cons_of_mem _ member))

variable (distinct : first ≠ second)
include distinct

/-- A terminator that a further line follows is not the end of the block. -/
theorem cutBlank_terminated {x : Symbol} (other : x ≠ first) (rest : List Symbol) :
    cutBlank first second (first :: second :: x :: rest) =
      (cutBlank first second (x :: rest)).map fun cut => (first :: second :: cut.1, cut.2) := by
  have second_skipped : cutBlank first second (second :: x :: rest) =
      (cutBlank first second (x :: rest)).map fun cut => (second :: cut.1, cut.2) :=
    cutBlank_cons distinct.symm _
  cases rest with
  | nil => rfl
  | cons y rest =>
    rw [cutBlank, if_neg (fun all => other all.2.2.1), second_skipped, Option.map_map]
    rfl

/-- The first empty line behind lines that are not empty is the one that was put there. -/
theorem cutBlank_encode {lines : List (List Symbol)} (some_ : lines ≠ [])
    (plain : ∀ line ∈ lines, line ≠ [] ∧ first ∉ line) (rest : List Symbol) :
    ∃ head, cutBlank first second (encode first second lines ++ first :: second :: rest) =
        some (head, rest) ∧
      split first second head = lines := by
  induction lines with
  | nil => exact absurd rfl some_
  | cons line lines ih =>
    have here := (plain line (List.mem_cons_self ..)).2
    rw [encode_cons, List.append_assoc, cutBlank_line here]
    cases lines with
    | nil => exact ⟨line, by simp [cutBlank], split_line here⟩
    | cons next lines =>
      have later := fun line member => plain line (List.mem_cons_of_mem _ member)
      obtain ⟨head, cut, whole⟩ := ih (List.cons_ne_nil _ _) later
      obtain ⟨nonempty, plainNext⟩ := later next (List.mem_cons_self ..)
      obtain ⟨x, tail, rfl⟩ := List.exists_cons_of_ne_nil nonempty
      have other : x ≠ first := fun same => plainNext (same ▸ List.mem_cons_self ..)
      obtain ⟨more, begins⟩ : ∃ more,
          encode first second ((x :: tail) :: lines) ++ first :: second :: rest = x :: more :=
        ⟨_, rfl⟩
      rw [begins] at cut
      rw [List.cons_append, List.cons_append, begins, cutBlank_terminated distinct other, cut]
      refine ⟨line ++ first :: second :: head, rfl, ?_⟩
      rw [split_terminated here, whole]

end

end Library.Lines
