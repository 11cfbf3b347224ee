import Mathlib.Algebra.GroupWithZero.Nat
import RabbitServer.Net.Buffer

/-! The content of a `Buffer` taken out in pieces by `retrieveAsString`. Where `retrieve` moves
the read index, `retrieveAsString` sets both indices back. -/

namespace RabbitServer.Net.Buffer
open Library

/-- The bytes at `peek()`, as many of them as are readable and asked for. -/
def peekBytes (b : Buffer) (len : Nat) : Bytes := b.readable.take len

/-- The strings that one `retrieveAsString` after the other returns, and the buffer left. -/
def retrieveAsStrings (b : Buffer) : List Nat → List Bytes × Buffer
  | [] => ([], b)
  | len :: rest =>
    let first := b.retrieveAsString len
    let later := first.2.retrieveAsStrings rest
    (first.1 :: later.1, later.2)

/-- The pieces are the content, one after the other, and each call is a read at `peek()`
followed by `retrieve`. -/
structure ReadsContent (b : Buffer) (lens : List Nat) : Prop where
  pieces : (b.retrieveAsStrings lens).1.flatten = b.readable.take (min b.readable.length lens.sum)
  rest : (b.retrieveAsStrings lens).2.readable = b.readable.drop lens.sum
  retrieves : ∀ (before : List Nat) (len : Nat), before ++ [len] <+: lens →
    ((b.retrieveAsStrings before).2.retrieveAsString len).1 =
        (b.retrieveAsStrings before).2.peekBytes len ∧
      ((b.retrieveAsStrings before).2.retrieveAsString len).2.readable =
        ((b.retrieveAsStrings before).2.retrieve len).2.readable

section
variable {b : Buffer}

theorem retrieveAsString_fst (b : Buffer) (len : Nat) :
    (b.retrieveAsString len).1 = b.peekBytes len := by
  simp only [retrieveAsString, peekBytes, readable, readbleBytes]
  rw [Storage.read_take]
  congr 1
  split <;> omega

/-- Whatever is asked for, nothing is readable afterwards. -/
theorem retrieveAsString_readable (b : Buffer) (len : Int) :
    (b.retrieveAsString len).2.readable = [] := rfl

/-- An empty buffer has nothing to give and stays empty. -/
theorem retrieveAsStrings_empty (valid : b.Valid) (empty : b.readable = []) (lens : List Nat) :
    (b.retrieveAsStrings lens).1.flatten = [] ∧ (b.retrieveAsStrings lens).2.Valid ∧
      (b.retrieveAsStrings lens).2.readable = [] := by
  induction lens generalizing b with
  | nil => exact ⟨rfl, valid, empty⟩
  | cons len rest ih =>
    obtain ⟨nothing, still, left⟩ := ih (reset_valid b) rfl
    refine ⟨?_, still, left⟩
    rw [retrieveAsStrings, List.flatten_cons, retrieveAsString_fst, peekBytes, empty,
      List.take_nil, List.nil_append]
    exact nothing

/-- A first call that takes everything leaves nothing for the later ones to lose. -/
theorem readsContent_of_whole (valid : b.Valid) {len : Nat} (rest : List Nat)
    (whole : b.readable.length ≤ len) : b.ReadsContent (len :: rest) := by
  have emptied := retrieveAsStrings_empty (reset_valid b) rfl
  have total : b.readable.length ≤ (len :: rest).sum := by
    rw [List.sum_cons]
    omega
  constructor
  · rw [retrieveAsStrings, List.flatten_cons, retrieveAsString_fst, peekBytes,
      List.take_of_length_le whole, Nat.min_eq_left total, List.take_length]
    exact (congrArg (b.readable ++ ·) (emptied rest).1).trans (List.append_nil _)
  · rw [List.drop_eq_nil_of_le total]
    exact (emptied rest).2.2
  · intro before asked begins
    refine ⟨retrieveAsString_fst _ asked, ?_⟩
    cases before with
    | nil =>
      obtain ⟨rfl, -⟩ := List.cons_prefix_cons.mp begins
      have retrieved := retrieve_readable valid asked (Int.natCast_nonneg asked)
      exact (retrieved.trans (List.drop_eq_nil_of_le whole)).symm
    | cons first before =>
      obtain ⟨rfl, -⟩ := List.cons_prefix_cons.mp begins
      obtain ⟨-, still, left⟩ := emptied before
      have retrieved := retrieve_readable still asked (Int.natCast_nonneg asked)
      rw [left, List.drop_nil] at retrieved
      exact retrieved.symm

end

/-- The pieces are the content exactly when there are none or the first takes all of it. -/
theorem readsContent_iff (b : Buffer) (valid : b.Valid) (lens : List Nat) :
    b.ReadsContent lens ↔ ∀ len ∈ lens.head?, b.readable.length ≤ len := by
  cases lens with
  | nil =>
    apply iff_of_true
    · constructor
      · simp [retrieveAsStrings]
      · rfl
      · intro before len begins
        exact absurd (List.prefix_nil.mp begins) (by simp)
    · nofun
  | cons len rest =>
    simp only [List.head?_cons, Option.mem_some_iff, forall_eq']
    constructor
    · intro reads
      have kept := (reads.retrieves [] len (by simp)).2
      have retrieved := retrieve_readable valid len (Int.natCast_nonneg len)
      have nothing := retrieved.symm.trans (kept.symm.trans (retrieveAsString_readable b len))
      simpa using nothing
    · exact readsContent_of_whole valid rest

theorem readsContent_iff_abc :
    ((new 1024 fun _ => 0).append (ascii "abc") fun _ => 0).ReadsContent [3, 2] := by
  have valid := append_valid (new_valid 1024 fun _ => 0) (fun _ => 0) (ascii "abc")
  exact (readsContent_iff _ valid [3, 2]).mpr (by decide +kernel)

/-- Of three bytes the first call returns one; the second finds nothing. -/
theorem readsContent_fails :
    ¬ ((new 1024 fun _ => 0).append (ascii "abc") fun _ => 0).ReadsContent [1, 2] := by
  intro reads
  have pieces := reads.pieces
  revert pieces
  decide +kernel

end RabbitServer.Net.Buffer
