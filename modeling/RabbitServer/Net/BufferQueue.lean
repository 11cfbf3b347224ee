import RabbitServer.Library.Runs
import RabbitServer.Net.Buffer

/-! A `Buffer` used through `append` and the `retrieve` family, against a FIFO byte queue. -/

namespace RabbitServer.Net.Buffer
open Library Library.Runs

/-- The calls of a run. `retrieveUntill len` passes the pointer `peek() + len`. -/
inductive Call where
  | append (source : Bytes) (fresh : Nat → Byte)
  | appendString (str : Bytes) (fresh : Nat → Byte)
  | appendBuffer (other : Buffer) (valid : other.Valid) (fresh : Nat → Byte)
  | retrieve (len : Nat)
  | retrieveUntill (len : Int)
  | retrieveAll
  | retrieveAllAsString

/-- A failed assertion ends the process: no later call sees the buffer. -/
def call (b : Buffer) : Call → Buffer
  | .append source fresh => b.append source fresh
  | .appendString str fresh => b.appendString str fresh
  | .appendBuffer other _ fresh => b.appendBuffer other fresh
  | .retrieve len => (b.retrieve len).2
  | .retrieveUntill len =>
    match b.retrieveUntill (b.readIndex + len) with
    | some (_, after) => after
    | none => b
  | .retrieveAll => b.retrieveAll.2
  | .retrieveAllAsString => b.retrieveAllAsString.2

/-- The bytes a call appends. -/
def Call.appended : Call → Option Bytes
  | .append source _ => some source
  | .appendString str _ => some str
  | .appendBuffer other _ _ => some other.readable
  | _ => none

/-- What a FIFO byte queue does on the same call. -/
def queueCall (queue : Bytes) : Call → Bytes
  | .append source _ => queue ++ source
  | .appendString str _ => queue ++ str
  | .appendBuffer other _ _ => queue ++ other.readable
  | .retrieve len => queue.drop len
  | .retrieveUntill len => if 0 ≤ len ∧ len ≤ queue.length then queue.drop len.toNat else queue
  | .retrieveAll => []
  | .retrieveAllAsString => []

/-- After every prefix of the calls the readable bytes are the bytes appended so
far, in order, without the prefix retrieved so far. -/
def RefinesQueue (initSize : Int) (fresh : Nat → Byte) (calls : List Call) : Prop :=
  ∀ done, done <+: calls → (run call (new initSize fresh) done).readable = run queueCall [] done

/-- An append that moves to new storage finds no unread byte past the live
elements of the vector, or only zero ones. -/
def GrowthKeeps (b : Buffer) (c : Call) : Prop :=
  ∀ source, c.appended = some source → b.Grows source.length → b.TailBlank

theorem call_valid {b : Buffer} (valid : b.Valid) (c : Call) : (b.call c).Valid := by
  cases c with
  | append source fresh => exact append_valid valid fresh source
  | appendString str fresh => exact append_valid valid fresh str
  | appendBuffer other otherValid fresh => exact append_valid valid fresh other.readable
  | retrieve len => exact retrieve_valid valid len (Int.natCast_nonneg len)
  | retrieveUntill len =>
    simp only [call, retrieveUntill]
    split
    next after found =>
      obtain ⟨inside, same⟩ := Option.ite_none_right_eq_some.mp found
      have retrieved := retrieve_valid valid (b.readIndex + len - b.readIndex) (by omega)
      rwa [Option.some.inj same] at retrieved
    next => exact valid
  | retrieveAll =>
    have := valid.read_le_write
    exact retrieve_valid valid _ (by omega)
  | retrieveAllAsString => exact reset_valid b

/-- One call does what the queue does exactly when its growth, if any, keeps the unread bytes. -/
theorem call_queue_iff {b : Buffer} (valid : b.Valid) (c : Call) :
    (b.call c).readable = queueCall b.readable c ↔ b.GrowthKeeps c := by
  have appends : ∀ source fresh, ((b.append source fresh).readable = b.readable ++ source ↔
      ∀ other, some source = some other → b.Grows other.length → b.TailBlank) := by
    intro source fresh
    rw [(append_spec valid fresh source).2]
    simp only [Option.some.injEq, forall_eq']
  have removes : (b.call c).readable = queueCall b.readable c → c.appended = none →
      ((b.call c).readable = queueCall b.readable c ↔ b.GrowthKeeps c) := by
    intro same quiet
    apply iff_of_true same
    intro source appended
    rw [quiet] at appended
    cases appended
  cases c with
  | append source fresh => exact appends source fresh
  | appendString str fresh => exact appends str fresh
  | appendBuffer other otherValid fresh => exact appends other.readable fresh
  | retrieve len => exact removes (retrieve_readable valid len (Int.natCast_nonneg len)) rfl
  | retrieveUntill len =>
    apply removes _ rfl
    have length := readable_length b
    have order := valid.read_le_write
    unfold readbleBytes at length
    simp only [call, queueCall, retrieveUntill]
    by_cases inside : 0 ≤ len ∧ len ≤ b.readable.length
    · rw [if_pos (by omega), if_pos inside]
      have offset : b.readIndex + len - b.readIndex = len := by omega
      simpa only [offset] using retrieve_readable valid len inside.1
    · rw [if_neg (by omega), if_neg inside]
  | retrieveAll =>
    apply removes _ rfl
    have order := valid.read_le_write
    have all := retrieve_readable valid (b.writeIndex - b.readIndex) (by omega)
    exact all.trans (List.drop_eq_nil_of_le (Nat.le_of_eq (readable_length b)))
  | retrieveAllAsString => exact removes rfl rfl

/-- A buffer refines a byte queue over a run exactly when no reallocation of the run
finds unread, non-zero bytes past the live elements of the vector. -/
theorem refinesQueue_iff (initSize : Int) (fresh : Nat → Byte) (calls : List Call) :
    RefinesQueue initSize fresh calls ↔ Along call GrowthKeeps (new initSize fresh) calls := by
  apply related_iff_along Valid fun b queue => b.readable = queue
  · exact new_valid initSize fresh
  · exact new_readable initSize fresh
  · intro b c valid
    exact call_valid valid c
  · intro b queue c valid same
    subst same
    exact call_queue_iff valid c

/-- 1024 bytes fill the vector, one more byte doubles the capacity but not the size,
one is stored past the size, and growing for 1023 more leaves it behind. -/
theorem refinesQueue_fails :
    ¬ RefinesQueue 1024 (fun _ => 0) [.append (List.replicate 1024 1) fun _ => 0,
      .append [1] fun _ => 0, .append [1] fun _ => 0,
      .append (List.replicate 1023 1) fun _ => 0] := by
  intro refines
  have last := congrArg (fun bytes => bytes[1025]?) (refines _ (List.prefix_refl _))
  revert last
  decide +kernel

end RabbitServer.Net.Buffer
