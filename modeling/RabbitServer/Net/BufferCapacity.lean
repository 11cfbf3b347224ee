import RabbitServer.Net.BufferQueue

/-! The memory of a `Buffer` that reads from no descriptor: what a run has had to hold at one
time bounds the capacity, however much has passed through. -/

namespace RabbitServer.Net.Buffer
open Library Library.Runs

/-- The calls of a run without `readFd`. -/
inductive OutCall where
  | call (c : Call)
  | retrieveAsString (len : Nat)

def outCall (b : Buffer) : OutCall → Buffer
  | .call c => b.call c
  | .retrieveAsString len => (b.retrieveAsString len).2

def OutCall.appended : OutCall → Option Bytes
  | .call c => c.appended
  | .retrieveAsString _ => none

/-- The largest backlog so far: the readable bytes before an append and the appended ones. -/
def peak (b : Buffer) (c : OutCall) (p : Int) : Int :=
  match c.appended with
  | some source => max p (b.readbleBytes + source.length)
  | none => p

/-- The guard of `append` behind `ensureWritebale`, whatever new storage holds. -/
def Guarded (s : Buffer × Int) (c : OutCall) : Prop :=
  ∀ source fresh, c.appended = some source →
    (s.1.ensureWritebale source.length fresh).writeableBytes ≥ source.length

/-- The indices of a buffer of initial size `initSize`, and its capacity against the peak. -/
structure Bounded (initSize : Int) (s : Buffer × Int) : Prop where
  valid : s.1.Valid
  capacity : (s.1.buffer.capacity : Int) ≤ max DEFAULTINITSIZE (max initSize (2 * s.2))

theorem new_bounded (initSize : Int) (fresh : Nat → Byte) :
    Bounded initSize (new initSize fresh, 0) where
  valid := new_valid initSize fresh
  capacity := by
    have size : (new initSize fresh).buffer.capacity = (max initSize DEFAULTINITSIZE).toNat := by
      have whole : (if initSize < DEFAULTINITSIZE then DEFAULTINITSIZE else initSize) =
          max initSize DEFAULTINITSIZE := by
        unfold DEFAULTINITSIZE
        omega
      have positive : 0 < (max initSize DEFAULTINITSIZE).toNat := by
        unfold DEFAULTINITSIZE
        omega
      simp only [new, whole]
      rw [Storage.resize_capacity_of_gt _ _ _ positive]
      exact Nat.max_eq_right (Nat.zero_le _)
    simp only [size]
    unfold DEFAULTINITSIZE
    omega

section
variable {b : Buffer}

theorem append_capacity (b : Buffer) (source : Bytes) (fresh : Nat → Byte) :
    (b.append source fresh).buffer.capacity =
      (b.ensureWritebale source.length fresh).buffer.capacity := by
  simp only [append]
  split_ifs <;> rfl

theorem retrieve_capacity (b : Buffer) (len : Int) :
    (b.retrieve len).2.buffer.capacity = b.buffer.capacity := by
  simp only [retrieve]
  split_ifs <;> rfl

/-- Growth is chosen only where the bytes to hold would fill all of the storage, so that twice
the storage is no more than twice those bytes. -/
theorem ensureWritebale_capacity (valid : b.Valid) (fresh : Nat → Byte) (len : Int) :
    ((b.ensureWritebale len fresh).buffer.capacity : Int) ≤
      max (b.buffer.capacity : Int) (2 * (b.readbleBytes + len)) := by
  obtain ⟨low, mid, high⟩ := valid
  have live := b.buffer.size_le_capacity
  by_cases tight : len > b.writeableBytes
  · by_cases compacts : len - b.writeableBytes < b.readIndex
    · simp only [ensureWritebale, if_pos tight, if_pos compacts, Storage.copyFront_capacity]
      omega
    · have past : b.buffer.capacity < (b.writeIndex + len).toNat := by
        unfold writeableBytes at tight
        omega
      simp only [ensureWritebale, if_pos tight, if_neg compacts,
        Storage.resize_capacity_of_gt _ _ _ past]
      have backlog : (b.buffer.capacity : Int) ≤ b.readbleBytes + len := by
        unfold writeableBytes at compacts
        unfold readbleBytes
        omega
      have behind : b.writeIndex + len ≤ 2 * (b.readbleBytes + len) := by
        unfold readbleBytes at backlog ⊢
        omega
      omega
  · rw [ensureWritebale_room fresh len tight]
    omega

theorem outCall_valid (valid : b.Valid) (c : OutCall) : (b.outCall c).Valid := by
  cases c with
  | call c => exact call_valid valid c
  | retrieveAsString len => exact reset_valid b

/-- Only an append changes the capacity. -/
theorem outCall_capacity (valid : b.Valid) (c : OutCall) :
    match c.appended with
    | some source => ((b.outCall c).buffer.capacity : Int) ≤
        max (b.buffer.capacity : Int) (2 * (b.readbleBytes + source.length))
    | none => (b.outCall c).buffer.capacity = b.buffer.capacity := by
  have appends : ∀ source fresh, ((b.append source fresh).buffer.capacity : Int) ≤
      max (b.buffer.capacity : Int) (2 * (b.readbleBytes + source.length)) := by
    intro source fresh
    rw [append_capacity]
    exact ensureWritebale_capacity valid fresh source.length
  cases c with
  | retrieveAsString len => rfl
  | call c =>
    cases c with
    | append source fresh => exact appends source fresh
    | appendString str fresh => exact appends str fresh
    | appendBuffer other otherValid fresh => exact appends other.readable fresh
    | retrieve len => exact retrieve_capacity b len
    | retrieveUntill len =>
      simp only [outCall, call, retrieveUntill, OutCall.appended, Call.appended]
      split
      next after found =>
        obtain ⟨-, same⟩ := Option.ite_none_right_eq_some.mp found
        have kept := retrieve_capacity b (b.readIndex + len - b.readIndex)
        rwa [Option.some.inj same] at kept
      next => rfl
    | retrieveAll => exact retrieve_capacity b _
    | retrieveAllAsString => rfl

theorem Bounded.step {initSize : Int} {s : Buffer × Int} (bounded : Bounded initSize s)
    (c : OutCall) : Bounded initSize (recorded outCall peak s c) where
  valid := outCall_valid bounded.valid c
  capacity := by
    have before := bounded.capacity
    have now := outCall_capacity bounded.valid c
    simp only [recorded, peak]
    cases appended : c.appended with
    | none =>
      rw [appended] at now
      simp only at now ⊢
      rw [now]
      exact before
    | some source =>
      rw [appended] at now
      simp only at now ⊢
      omega

end

/-- Between its calls a buffer that reads from no descriptor has valid indices and at most
twice the storage its largest backlog took, and none of its appends drops anything. -/
theorem capacity_bounded (initSize : Int) (fresh : Nat → Byte) (calls : List OutCall) :
    Along (recorded outCall peak) Guarded (new initSize fresh, 0) calls ∧
      ∀ made, made <+: calls →
        Bounded initSize (run (recorded outCall peak) (new initSize fresh, 0) made) := by
  constructor
  · apply along_of_invariant (Bounded initSize) _ _ (new_bounded initSize fresh)
    · exact fun s c bounded => bounded.step c
    · exact fun s c bounded source fresh _ =>
        (ensureWritebale_spec bounded.valid fresh source.length).2.1
  · intro made _
    exact run_invariant (Bounded initSize) _ made (new_bounded initSize fresh)
      fun s c bounded => bounded.step c

end RabbitServer.Net.Buffer
