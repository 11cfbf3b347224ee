import RabbitServer.Net.BufferQueue

/-! `Buffer::readFd` on every buffer that reads, appends and retrieves can produce.
The overflow path takes `size()` for the end of the first vector, which ends at
`capacity()`. -/

namespace RabbitServer.Net.Buffer
open Library Library.Runs

/-- The calls of a run that also reads from a descriptor. -/
inductive IoCall where
  | call (c : Call)
  | retrieveAsString (len : Nat)
  | readFd (result : Readv) (fresh : Nat → Byte)

/-- The kernel never delivers more than the two vectors hold. -/
def ioCall (b : Buffer) : IoCall → Buffer
  | .call c => b.call c
  | .retrieveAsString len => (b.retrieveAsString len).2
  | .readFd result fresh => if b.Fits result then (b.readFd result fresh).buffer else b

/-- `readFd` returns the number of delivered bytes and appends exactly those. -/
def ReadsExactly (b : Buffer) (result : Readv) (fresh : Nat → Byte) : Prop :=
  b.Fits result →
    match result with
    | .failed _ => (b.readFd result fresh).n < 0 ∧ (b.readFd result fresh).buffer = b
    | .delivered data => (b.readFd result fresh).n = data.length ∧
        (b.readFd result fresh).buffer.Valid ∧
        (b.readFd result fresh).buffer.readable = b.readable ++ data

/-- The read at this point of a run, if it is one, loses and overwrites nothing. -/
def ReadExact (b : Buffer) : IoCall → Prop
  | .readFd result fresh => b.ReadsExactly result fresh
  | _ => True

/-- A read that overflows into `extrabuf` finds no spare capacity past the live elements. -/
def OverflowFull (b : Buffer) : IoCall → Prop
  | .readFd (.delivered data) _ => b.Fits (.delivered data) →
      (data.length : Int) > b.writeableBytes → b.buffer.size = b.buffer.capacity
  | _ => True

/-- `ensureWritebale` compacts, and the range it copies ends before it begins. -/
def Backwards (b : Buffer) (len : Int) : Prop :=
  len > b.writeableBytes ∧ len - b.writeableBytes < b.readIndex ∧ b.writeIndex < b.readIndex

instance (b : Buffer) (len : Int) : Decidable (b.Backwards len) := by
  unfold Backwards; infer_instance

/-- The overflow path appends to a buffer that ends at `size()`; where that is behind the read
index, the append must not compact. -/
def Copies (b : Buffer) (data : Bytes) : Prop :=
  data.length > b.writeableBytes →
    ¬ Backwards { b with writeIndex := b.buffer.size } (data.length - b.writeableBytes)

instance (b : Buffer) (data : Bytes) : Decidable (b.Copies data) := by
  unfold Copies; infer_instance

/-- Both indices stand in the storage, in whatever order. -/
structure Loose (b : Buffer) : Prop where
  read_nonneg : 0 ≤ b.readIndex
  write_nonneg : 0 ≤ b.writeIndex
  write_le_capacity : b.writeIndex ≤ b.buffer.capacity

theorem Valid.loose {b : Buffer} (valid : b.Valid) : b.Loose where
  read_nonneg := valid.read_nonneg
  write_nonneg := Int.le_trans valid.read_nonneg valid.read_le_write
  write_le_capacity := valid.write_le_capacity

theorem Loose.valid {b : Buffer} (loose : b.Loose) (order : b.readIndex ≤ b.writeIndex) : b.Valid :=
  ⟨loose.read_nonneg, order, loose.write_le_capacity⟩

theorem append_loose {b : Buffer} (loose : b.Loose) (source : Bytes) (fresh : Nat → Byte)
    (forwards : ¬ b.Backwards source.length) : (b.append source fresh).Loose := by
  obtain ⟨low, start, high⟩ := loose
  have ensured : (b.ensureWritebale source.length fresh).Loose := by
    unfold Backwards at forwards
    simp only [ensureWritebale]
    split_ifs with tight compacts
    · exact ⟨Int.le_refl 0, by simp only; omega, by simp only [Storage.copyFront_capacity]; omega⟩
    · have past : b.buffer.capacity < (b.writeIndex + source.length).toNat := by
        unfold writeableBytes at tight
        omega
      refine ⟨low, start, ?_⟩
      simp only [Storage.resize_capacity_of_gt _ _ _ past]
      omega
    · exact ⟨low, start, high⟩
  obtain ⟨low, start, high⟩ := ensured
  simp only [append]
  split_ifs with room
  · unfold writeableBytes at room
    exact ⟨low, by simp only; omega, by simp only [Storage.write_capacity]; omega⟩
  · exact ⟨low, start, high⟩

section
variable {b : Buffer} (loose : b.Loose)
include loose

/-- What is left for `extrabuf`. -/
theorem overflow_length {data : Bytes} (overflow : ¬ (data.length : Int) ≤ b.writeableBytes) :
    ((data.drop b.writeableBytes.toNat).length : Int) = data.length - b.writeableBytes := by
  have high := loose.write_le_capacity
  rw [List.length_drop]
  unfold writeableBytes at overflow ⊢
  omega

theorem overflow_loose (data : Bytes) :
    Loose { b with
      buffer := b.buffer.write b.writeIndex.toNat (data.take b.writeableBytes.toNat)
      writeIndex := b.buffer.size } := by
  have live := b.buffer.size_le_capacity
  refine ⟨loose.read_nonneg, ?_, ?_⟩
  · simp only
    omega
  · simp only [Storage.write_capacity]
    omega

end

/-- Even a read that loses bytes leaves both indices in the storage. -/
theorem readFd_loose {b : Buffer} (loose : b.Loose) {data : Bytes} (fresh : Nat → Byte)
    (copies : b.Copies data) : (b.readFd (.delivered data) fresh).buffer.Loose := by
  by_cases room : (data.length : Int) ≤ b.writeableBytes
  · obtain ⟨low, start, high⟩ := loose
    simp only [readFd, if_pos room]
    unfold writeableBytes at room
    exact ⟨low, by simp only; omega, by simp only [Storage.write_capacity]; omega⟩
  · have forwards := copies (by omega)
    rw [← overflow_length loose room] at forwards
    simp only [readFd, if_neg room]
    exact append_loose (overflow_loose loose data) _ fresh forwards

/-- Behind an append the indices are in order exactly when its bytes reach the read index,
whether the storage is compacted, grows or has room. -/
theorem append_ordered_iff {b : Buffer} (loose : b.Loose) (source : Bytes) (fresh : Nat → Byte) :
    (b.append source fresh).readIndex ≤ (b.append source fresh).writeIndex ↔
      b.readIndex ≤ b.writeIndex + source.length := by
  obtain ⟨low, start, high⟩ := loose
  have ensured : (b.ensureWritebale source.length fresh).writeableBytes ≥ source.length ∧
      ((b.ensureWritebale source.length fresh).readIndex ≤
        (b.ensureWritebale source.length fresh).writeIndex + source.length ↔
          b.readIndex ≤ b.writeIndex + source.length) := by
    simp only [ensureWritebale]
    split_ifs with tight compacts
    · unfold writeableBytes at *
      simp only [Storage.copyFront_capacity]
      omega
    · have past : b.buffer.capacity < (b.writeIndex + source.length).toNat := by
        unfold writeableBytes at tight
        omega
      refine ⟨?_, Iff.rfl⟩
      simp only [writeableBytes, Storage.resize_capacity_of_gt _ _ _ past]
      omega
    · exact ⟨by omega, Iff.rfl⟩
  simp only [append, if_pos ensured.1]
  exact ensured.2

/-- Where the bytes of a read end: behind `size()` where it overflows into `extrabuf`. -/
def readEnd (b : Buffer) (data : Bytes) : Int :=
  if data.length ≤ b.writeableBytes then b.writeIndex + data.length
  else b.buffer.size + (data.length - b.writeableBytes)

/-- A read leaves the indices in order exactly when its bytes reach the read index. -/
theorem readFd_ordered_iff {b : Buffer} (loose : b.Loose) (data : Bytes) (fresh : Nat → Byte) :
    (b.readFd (.delivered data) fresh).buffer.readIndex ≤
        (b.readFd (.delivered data) fresh).buffer.writeIndex ↔
      b.readIndex ≤ b.readEnd data := by
  by_cases room : (data.length : Int) ≤ b.writeableBytes
  · simp only [readFd, readEnd, if_pos room]
  · simp only [readFd, readEnd, if_neg room, ← overflow_length loose room]
    exact append_ordered_iff (overflow_loose loose data) _ fresh

/-- Whatever the indices are, `append` adds at most its argument. -/
theorem append_readbleBytes_le (b : Buffer) (source : Bytes) (fresh : Nat → Byte) :
    (b.append source fresh).readbleBytes ≤ b.readbleBytes + source.length := by
  have ensured : (b.ensureWritebale source.length fresh).readbleBytes = b.readbleBytes := by
    simp only [ensureWritebale, readbleBytes]
    split_ifs <;> simp only; omega
  simp only [append]
  split_ifs
  · simp only [readbleBytes] at ensured ⊢
    omega
  · omega

/-- Without overflow the delivered bytes are stored in place. -/
theorem readFd_in_place {b : Buffer} (valid : b.Valid) (data : Bytes) (fresh : Nat → Byte)
    (room : (data.length : Int) ≤ b.writeableBytes) :
    b.ReadsExactly (.delivered data) fresh := by
  intro _
  have whole : data.take b.writeableBytes.toNat = data := List.take_of_length_le (by omega)
  obtain ⟨stored, appended⟩ := readable_store valid data room
  simp only [readFd, if_pos room, whole]
  exact ⟨trivial, stored, appended⟩

/-- With the whole storage live, the overflow path appends both vectors. -/
theorem readFd_overflow_full {b : Buffer} (valid : b.Valid) (data : Bytes) (fresh : Nat → Byte)
    (overflow : (data.length : Int) > b.writeableBytes)
    (full : b.buffer.size = b.buffer.capacity) :
    b.ReadsExactly (.delivered data) fresh := by
  intro _
  have space := writeable_nonneg valid
  have length : (data.take b.writeableBytes.toNat).length = b.writeableBytes.toNat := by
    rw [List.length_take]
    omega
  obtain ⟨stored, appended⟩ := readable_store valid (data.take b.writeableBytes.toNat)
    (by rw [length]; omega)
  have atEnd : b.writeIndex + (data.take b.writeableBytes.toNat).length = b.buffer.size := by
    rw [length, full]
    unfold writeableBytes
    have := valid.write_le_capacity
    omega
  rw [atEnd] at stored appended
  simp only [readFd, if_neg (show ¬ (data.length : Int) ≤ b.writeableBytes by omega)]
  obtain ⟨after, grown⟩ := append_spec stored fresh (data.drop b.writeableBytes.toNat)
  have blank := grown.mpr (fun _ i dead _ written => by
    simp only [Storage.write_size] at dead written
    omega)
  refine ⟨trivial, after, ?_⟩
  calc
    _ = _ ++ data.drop b.writeableBytes.toNat := blank
    _ = b.readable ++ data.take b.writeableBytes.toNat ++ data.drop b.writeableBytes.toNat := by
      rw [appended]
    _ = b.readable ++ data := by rw [List.append_assoc, List.take_append_drop]

/-- With spare capacity past the live elements, the overflow path ends short. -/
theorem readFd_overflow_short {b : Buffer} (valid : b.Valid) (data : Bytes) (fresh : Nat → Byte)
    (fits : b.Fits (.delivered data)) (overflow : (data.length : Int) > b.writeableBytes)
    (spare : b.buffer.size ≠ b.buffer.capacity) :
    ¬ b.ReadsExactly (.delivered data) fresh := by
  intro exactly
  have space := writeable_nonneg valid
  have order := valid.read_le_write
  obtain ⟨-, after, same⟩ := exactly fits
  simp only [readFd, if_neg (show ¬ (data.length : Int) ≤ b.writeableBytes by omega)] at after same
  have bound := append_readbleBytes_le { b with
    buffer := b.buffer.write b.writeIndex.toNat (data.take b.writeableBytes.toNat)
    writeIndex := b.buffer.size } (data.drop b.writeableBytes.toNat) fresh
  have length := congrArg List.length same
  have nonneg := after.read_le_write
  have small := b.buffer.size_le_capacity
  rw [readable_length, List.length_append, readable_length] at length
  rw [List.length_drop] at bound
  simp only [readbleBytes, writeableBytes, Storage.write_size] at *
  omega

theorem readsExactly_failed (b : Buffer) (errno : Int) (fresh : Nat → Byte) :
    b.ReadsExactly (.failed errno) fresh := fun _ => ⟨by simp [readFd], rfl⟩

theorem readExact_iff {b : Buffer} (valid : b.Valid) (c : IoCall) :
    b.ReadExact c ↔ b.OverflowFull c := by
  cases c with
  | call c => exact Iff.rfl
  | retrieveAsString len => exact Iff.rfl
  | readFd result fresh =>
    cases result with
    | failed errno => exact iff_of_true (readsExactly_failed b errno fresh) trivial
    | delivered data =>
      simp only [ReadExact, OverflowFull]
      constructor
      · intro exactly fits overflow
        by_contra spare
        exact readFd_overflow_short valid data fresh fits overflow spare exactly
      · intro full fits
        by_cases room : (data.length : Int) ≤ b.writeableBytes
        · exact readFd_in_place valid data fresh room fits
        · have overflow : (data.length : Int) > b.writeableBytes := by omega
          exact readFd_overflow_full valid data fresh overflow (full fits overflow) fits

theorem ioCall_valid {b : Buffer} (valid : b.Valid) (c : IoCall) (full : b.OverflowFull c) :
    (b.ioCall c).Valid := by
  cases c with
  | call c => exact call_valid valid c
  | retrieveAsString len => exact reset_valid b
  | readFd result fresh =>
    have exactly := (readExact_iff valid (.readFd result fresh)).mpr full
    simp only [ioCall]
    split_ifs with fits
    · cases result with
      | failed errno => exact valid
      | delivered data => exact (exactly fits).2.1
    · exact valid

/-- In a run of reads, appends and retrieves every `readFd` loses and overwrites
nothing exactly when none overflows a vector with spare capacity. -/
theorem readFd_exact_iff (initSize : Int) (fresh : Nat → Byte) (calls : List IoCall) :
    Along ioCall ReadExact (new initSize fresh) calls ↔
      Along ioCall OverflowFull (new initSize fresh) calls := by
  apply along_iff_of_exact fun b _ => b.Valid
  · exact new_valid initSize fresh
  · intro b c _ valid full
    exact ioCall_valid valid c full
  · intro b c _ valid
    exact readExact_iff valid c

/-- 1025 bytes into a fresh buffer double the capacity but not the size; the next
read of 1024 bytes keeps one byte of them. -/
theorem readFd_exact_fails :
    ¬ Along ioCall ReadExact (new 1024 fun _ => 0)
      [.readFd (.delivered (List.replicate 1025 1)) fun _ => 0,
        .readFd (.delivered (List.replicate 1024 1)) fun _ => 0] := by
  intro along
  have second := along.2.1
  have fits : (ioCall (new 1024 fun _ => 0) (.readFd (.delivered (List.replicate 1025 1))
      fun _ => 0)).Fits (.delivered (List.replicate 1024 1)) := by decide +kernel
  have length := congrArg List.length (second fits).2.2
  revert length
  decide +kernel

end RabbitServer.Net.Buffer
