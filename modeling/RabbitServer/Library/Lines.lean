import Mathlib.Data.List.Infix

/-! Text cut into lines by a terminator of two different symbols. -/

namespace Library.Lines

variable {Symbol : Type*}

/-- The lines, each followed by the terminator. -/
def encode (first second : Symbol) (lines : List (List Symbol)) : List Symbol :=
  lines.flatMap fun line => line ++ [first, second]

@[simp] theorem encode_nil (first second : Symbol) : encode first second [] = [] := rfl

theorem encode_cons (first second : Symbol) (line : List Symbol) (lines : List (List Symbol)) :
    encode first second (line :: lines) =
      line ++ first :: second :: encode first second lines := by
  simp [encode]

theorem encode_append (first second : Symbol) (lines others : List (List Symbol)) :
    encode first second (lines ++ others) =
      encode first second lines ++ encode first second others := List.flatMap_append

variable [DecidableEq Symbol]

/-- Where the first `first second` begins. -/
def find (first second : Symbol) : List Symbol → Option Nat
  | x :: y :: rest =>
    if x = first ∧ y = second then some 0 else (find first second (y :: rest)).map (· + 1)
  | _ => none

/-- No terminator occurs in the text. -/
def Free (first second : Symbol) (text : List Symbol) : Prop := find first second text = none

section
variable {first second : Symbol}

@[simp] theorem find_nil : find first second [] = none := rfl

@[simp] theorem find_single (x : Symbol) : find first second [x] = none := rfl

theorem find_cons (x y : Symbol) (rest : List Symbol) :
    find first second (x :: y :: rest) =
      if x = first ∧ y = second then some 0 else (find first second (y :: rest)).map (· + 1) := rfl

/-- The text before the first terminator, and where it stands. -/
theorem find_some {text : List Symbol} {i : Nat} (found : find first second text = some i) :
    text = text.take i ++ first :: second :: text.drop (i + 2) := by
  induction text generalizing i with
  | nil => simp at found
  | cons x rest ih =>
    cases rest with
    | nil => simp at found
    | cons y rest =>
      rw [find_cons] at found
      split at found
      next here =>
        cases found
        simp [here.1, here.2]
      next other =>
        obtain ⟨j, later, rfl⟩ := Option.map_eq_some_iff.mp found
        have split := ih later
        rw [List.take_succ_cons, List.cons_append]
        exact congrArg (x :: ·) split

/-- Nothing before the first terminator holds another. -/
theorem free_take {text : List Symbol} {i : Nat} (found : find first second text = some i) :
    Free first second (text.take i) := by
  unfold Free
  induction text generalizing i with
  | nil => simp
  | cons x rest ih =>
    cases rest with
    | nil => simp at found
    | cons y rest =>
      rw [find_cons] at found
      split at found
      next here =>
        cases found
        rfl
      next other =>
        obtain ⟨j, later, rfl⟩ := Option.map_eq_some_iff.mp found
        have tail := ih later
        rw [List.take_succ_cons]
        cases j with
        | zero => rfl
        | succ j =>
          rw [List.take_succ_cons] at tail ⊢
          rw [find_cons, if_neg other, tail]
          rfl

/-- More text does not move the first terminator. -/
theorem find_append {text : List Symbol} {i : Nat} (found : find first second text = some i)
    (more : List Symbol) : find first second (text ++ more) = some i := by
  induction text generalizing i with
  | nil => simp at found
  | cons x rest ih =>
    cases rest with
    | nil => simp at found
    | cons y rest =>
      rw [find_cons] at found
      rw [List.cons_append, List.cons_append, find_cons]
      split at found
      next here => rwa [if_pos here]
      next other =>
        obtain ⟨j, later, rfl⟩ := Option.map_eq_some_iff.mp found
        rw [if_neg other, ← List.cons_append, ih later]
        rfl

theorem find_lt {text : List Symbol} {i : Nat} (found : find first second text = some i) :
    i + 2 ≤ text.length := by
  have length := congrArg List.length (find_some found)
  simp only [List.length_append, List.length_take, List.length_cons, List.length_drop] at length
  omega

theorem Free.initial {text before : List Symbol} (free : Free first second text)
    (begins : before <+: text) : Free first second before := by
  obtain ⟨more, rfl⟩ := begins
  unfold Free at free ⊢
  cases found : find first second before with
  | none => rfl
  | some i => rw [find_append found] at free; cases free

/-- Without the first symbol of the terminator there is no terminator. -/
theorem free_of_absent {text : List Symbol} (absent : first ∉ text) : Free first second text := by
  unfold Free
  induction text with
  | nil => rfl
  | cons x rest ih =>
    obtain ⟨other, later⟩ := List.ne_and_not_mem_of_not_mem_cons absent
    cases rest with
    | nil => rfl
    | cons y rest => rw [find_cons, if_neg (fun both => other both.1.symm), ih later, Option.map_none]

/-- Two texts without a terminator, where none arises between them. -/
theorem Free.append {text more : List Symbol} (free : Free first second text)
    (moreFree : Free first second more)
    (apart : text.getLast? ≠ some first ∨ more.head? ≠ some second) :
    Free first second (text ++ more) := by
  unfold Free at free moreFree ⊢
  induction text with
  | nil => exact moreFree
  | cons x rest ih =>
    cases rest with
    | nil =>
      cases more with
      | nil => rfl
      | cons y more =>
        rw [List.cons_append, List.nil_append, find_cons, moreFree, if_neg, Option.map_none]
        rintro ⟨rfl, rfl⟩
        rcases apart with ends | begins
        · exact ends rfl
        · exact begins rfl
    | cons y rest =>
      rw [find_cons] at free
      split at free
      next => cases free
      next other =>
        rw [List.getLast?_cons_cons] at apart
        rw [List.cons_append, List.cons_append, find_cons, if_neg other, ← List.cons_append,
          ih (Option.map_eq_none_iff.mp free) apart, Option.map_none]

/-- A text that ends in the terminator is not free of it. -/
theorem not_free_of_suffix (text : List Symbol) :
    ¬ Free first second (text ++ [first, second]) := by
  unfold Free
  induction text with
  | nil => simp [find_cons]
  | cons x rest ih =>
    cases rest with
    | nil =>
      rw [List.cons_append, List.nil_append, find_cons]
      split <;> simp [find_cons]
    | cons y rest =>
      rw [List.cons_append, List.cons_append, find_cons]
      split
      · simp
      · rw [← List.cons_append]
        simpa using ih

variable (distinct : first ≠ second)
include distinct

theorem Free.concat {line : List Symbol} (free : Free first second line) :
    Free first second (line ++ [first]) :=
  free.append rfl (Or.inr fun same => distinct (Option.some.inj same))

/-- The first terminator after a free line is the line's own. -/
theorem find_line {line : List Symbol} (free : Free first second line) (rest : List Symbol) :
    find first second (line ++ first :: second :: rest) = some line.length := by
  unfold Free at free
  induction line with
  | nil => simp [find_cons]
  | cons x tail ih =>
    cases tail with
    | nil =>
      rw [List.cons_append, List.nil_append, find_cons, if_neg (by simp [distinct])]
      simp [find_cons]
    | cons y tail =>
      rw [find_cons] at free
      split at free
      next => cases free
      next other =>
        rw [List.cons_append, List.cons_append, find_cons, if_neg other, ← List.cons_append,
          ih (Option.map_eq_none_iff.mp free)]
        rfl

/-- A prefix of encoded lines that ends in a terminator holds whole lines. -/
theorem prefix_encode {lines : List (List Symbol)}
    (free : ∀ line ∈ lines, Free first second line) {text : List Symbol}
    (begins : text ++ [first, second] <+: encode first second lines) :
    ∃ count, count ≤ lines.length ∧
      text ++ [first, second] = encode first second (lines.take count) := by
  induction lines generalizing text with
  | nil => simp at begins
  | cons line lines ih =>
    have lineFree := free line (List.mem_cons_self ..)
    rw [encode_cons] at begins
    have lineEnd : line ++ first :: second :: encode first second lines =
        (line ++ [first]) ++ second :: encode first second lines := by simp
    by_cases short : (text ++ [first, second]).length ≤ (line ++ [first]).length
    · -- the terminator would stand inside the line
      rw [lineEnd] at begins
      have inside := List.prefix_of_prefix_length_le begins (List.prefix_append _ _) short
      exact absurd ((lineFree.concat distinct).initial inside) (not_free_of_suffix text)
    · have whole : line ++ [first, second] <+: text ++ [first, second] := by
        have lineBegins : line ++ [first, second] <+:
            line ++ first :: second :: encode first second lines :=
          ⟨encode first second lines, by simp⟩
        apply List.prefix_of_prefix_length_le lineBegins begins
        simp only [List.length_append, List.length_cons, List.length_nil] at short ⊢
        omega
      obtain ⟨tail, split⟩ := whole
      rw [← split, List.append_assoc, List.prefix_append_right_inj] at begins
      have later : tail <+: encode first second lines := by simpa using begins
      rcases List.eq_nil_or_concat tail with rfl | ⟨before, last, rfl⟩
      · exact ⟨1, by simp, by rw [← split]; simp [encode]⟩
      · rcases List.eq_nil_or_concat before with rfl | ⟨body, previous, rfl⟩
        · -- one symbol past the line: it would have to be both of the terminator's
          have ends := congrArg List.reverse split
          simp only [List.reverse_append, List.nil_append, List.concat_eq_append,
            List.reverse_cons, List.reverse_nil, List.cons_append, List.cons.injEq] at ends
          exact absurd ends.2.1.symm distinct
        · have ends := congrArg List.reverse split
          simp only [List.reverse_append, List.concat_eq_append,
            List.reverse_cons, List.reverse_nil, List.cons_append, List.nil_append,
            List.cons.injEq] at ends
          obtain ⟨rfl, rfl, -⟩ := ends
          have tail_eq : (body.concat previous).concat last = body ++ [previous, last] := by simp
          rw [tail_eq] at later split
          obtain ⟨count, bound, same⟩ :=
            ih (fun other member => free other (List.mem_cons_of_mem _ member)) later
          refine ⟨count + 1, by simpa using bound, ?_⟩
          rw [← split, same, List.take_succ_cons, encode_cons]
          simp

/-- A prefix that ends in two terminators ends in an empty line. -/
theorem prefix_encode_blank {lines : List (List Symbol)}
    (free : ∀ line ∈ lines, Free first second line) {text : List Symbol}
    (begins : text ++ [first, second, first, second] <+: encode first second lines) :
    ∃ count, lines[count]? = some [] ∧
      text ++ [first, second, first, second] = encode first second (lines.take (count + 1)) := by
  have outer : (text ++ [first, second]) ++ [first, second] <+: encode first second lines := by
    simpa using begins
  obtain ⟨count, bound, whole⟩ := prefix_encode distinct free outer
  have inner : text ++ [first, second] <+: encode first second (lines.take count) := by
    rw [← whole]
    exact List.prefix_append _ _
  obtain ⟨before, before_le, head⟩ := prefix_encode distinct
    (fun line member => free line (List.mem_of_mem_take member)) inner
  rw [List.take_take] at head
  rw [List.length_take] at before_le
  have before_eq : min before count = before := by omega
  rw [before_eq] at head
  have cut : lines.take count = lines.take before ++ (lines.drop before).take (count - before) := by
    rw [← List.take_add]
    congr 1
    omega
  rw [cut, encode_append, ← head, List.append_cancel_left_eq] at whole
  cases rest : (lines.drop before).take (count - before) with
  | nil => simp [rest] at whole
  | cons line others =>
    rw [rest, encode_cons] at whole
    have lengths := congrArg List.length whole
    simp only [List.length_cons, List.length_nil, List.length_append] at lengths
    have lineNil : line = [] := List.eq_nil_of_length_eq_zero (by omega)
    have othersNil : others = [] := by
      cases others with
      | nil => rfl
      | cons other others =>
        rw [encode_cons] at lengths
        simp only [List.length_append, List.length_cons] at lengths
        omega
    subst lineNil othersNil
    have one : count - before = 1 := by
      have length := congrArg List.length rest
      simp only [List.length_take, List.length_drop, List.length_cons, List.length_nil] at length
      omega
    have at_before : lines[before]? = some [] := by
      have head_eq := congrArg List.head? rest
      rw [one] at head_eq
      simpa [List.head?_take, List.head?_drop] using head_eq
    have count_eq : count = before + 1 := by omega
    refine ⟨before, at_before, ?_⟩
    rw [← count_eq, cut, rest, encode_append, ← head]
    simp [encode]

end

end Library.Lines
