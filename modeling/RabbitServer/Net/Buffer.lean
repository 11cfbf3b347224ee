import RabbitServer.Library.Storage
import RabbitServer.Net.Bytes

/-! `net/Buffer.cpp`: a byte vector with a read and a write index. Indices are `int`
in the source and integers here (all sizes stay below 2^31), pointers into the
vector are offsets from `begin()`. The vector grows as in libstdc++; `fresh` is what
new storage holds where nothing has been stored yet. -/

namespace RabbitServer.Net
open Library

structure Buffer where
  buffer : Storage Byte
  readIndex : Int
  writeIndex : Int

namespace Buffer

def DEFAULTINITSIZE : Int := 1024

/-- `Buffer::Buffer(int initSize)` -/
def new (initSize : Int) (fresh : Nat → Byte) : Buffer :=
  let initSize := if initSize < DEFAULTINITSIZE then DEFAULTINITSIZE else initSize
  { buffer := (Storage.empty fresh).resize 0 fresh initSize.toNat
    readIndex := 0
    writeIndex := 0 }

/-- `capacity()`, not `size()`, bounds what is writeable. -/
def writeableBytes (b : Buffer) : Int := b.buffer.capacity - b.writeIndex

def readbleBytes (b : Buffer) : Int := b.writeIndex - b.readIndex

def ensureWritebale (b : Buffer) (len : Int) (fresh : Nat → Byte) : Buffer :=
  let writeAble := b.writeableBytes
  if len > writeAble then
    if len - writeAble < b.readIndex then
      -- the unread bytes are copied to the front
      { buffer := b.buffer.copyFront b.readIndex.toNat (b.writeIndex - b.readIndex).toNat
        writeIndex := b.writeIndex - b.readIndex
        readIndex := 0 }
    else
      { b with buffer := b.buffer.resize 0 fresh (b.writeIndex + len).toNat }
  else b

/-- `append(const char * source, int len)` on the `len` bytes at `source`. -/
def append (b : Buffer) (source : Bytes) (fresh : Nat → Byte) : Buffer :=
  let b := b.ensureWritebale source.length fresh
  if b.writeableBytes ≥ source.length then
    { b with
      buffer := b.buffer.write b.writeIndex.toNat source
      writeIndex := b.writeIndex + source.length }
  else b

/-- The bytes in `[peek(), peek() + readbleBytes())`. -/
def readable (b : Buffer) : Bytes := b.buffer.read b.readIndex.toNat b.readbleBytes.toNat

/-- `append(const std::string & str)` -/
def appendString (b : Buffer) (str : Bytes) (fresh : Nat → Byte) : Buffer := b.append str fresh

/-- `append(Buffer * buffer)` with another buffer. -/
def appendBuffer (b other : Buffer) (fresh : Nat → Byte) : Buffer := b.append other.readable fresh

def retrieve (b : Buffer) (len : Int) : Int × Buffer :=
  if len ≥ b.writeIndex - b.readIndex then
    (b.writeIndex - b.readIndex, { b with writeIndex := 0, readIndex := 0 })
  else (len, { b with readIndex := b.readIndex + len })

/-- `retrieveUntill(const char * end)`; `none` when one of its assertions fails. -/
def retrieveUntill (b : Buffer) (stop : Int) : Option (Int × Buffer) :=
  if b.readIndex ≤ stop ∧ stop ≤ b.writeIndex then some (b.retrieve (stop - b.readIndex)) else none

def retrieveAll (b : Buffer) : Int × Buffer := b.retrieve (b.writeIndex - b.readIndex)

def retrieveAsString (b : Buffer) (len : Int) : Bytes × Buffer :=
  let len := if len ≥ b.writeIndex - b.readIndex then b.writeIndex - b.readIndex else len
  (b.buffer.read b.readIndex.toNat len.toNat, { b with writeIndex := 0, readIndex := 0 })

def retrieveAllAsString (b : Buffer) : Bytes × Buffer :=
  (b.buffer.read b.readIndex.toNat (b.writeIndex - b.readIndex).toNat,
    { b with writeIndex := 0, readIndex := 0 })

/-- `sizeof extrabuf` -/
def extrabufSize : Nat := 65536

/-- What `readv` does: fail with an `errno`, or deliver bytes into the two vectors. -/
inductive Readv where
  | failed (errno : Int)
  | delivered (data : Bytes)

/-- The return value of `readFd` and what it leaves in `*savedErrno`. -/
structure ReadFd where
  n : Int
  savedErrno : Option Int
  buffer : Buffer

/-- The first vector is the writeable part of the storage and is filled before `extrabuf`. -/
def readFd (b : Buffer) (result : Readv) (fresh : Nat → Byte) : ReadFd :=
  let writeAble := b.writeableBytes
  match result with
  | .failed errno => ⟨-1, some errno, b⟩
  | .delivered data =>
    let stored := b.buffer.write b.writeIndex.toNat (data.take writeAble.toNat)
    let n : Int := data.length
    if n ≤ writeAble then
      ⟨n, none, { b with buffer := stored, writeIndex := b.writeIndex + n }⟩
    else
      -- `writeIndex_ = buffer_.size()`, though the first vector ended at `capacity()`
      ⟨n, none, append { b with buffer := stored, writeIndex := stored.size }
        (data.drop writeAble.toNat) fresh⟩

/-- What the kernel may deliver into the two vectors. -/
def Fits (b : Buffer) (result : Readv) : Prop :=
  match result with
  | .failed _ => True
  | .delivered data => (data.length : Int) ≤ b.writeableBytes + extrabufSize

instance (b : Buffer) (result : Readv) : Decidable (b.Fits result) :=
  match result with
  | .failed _ => isTrue trivial
  | .delivered data => inferInstanceAs (Decidable ((data.length : Int) ≤ _))

/-- `0 <= readIndex_ <= writeIndex_ <= capacity` -/
structure Valid (b : Buffer) : Prop where
  read_nonneg : 0 ≤ b.readIndex
  read_le_write : b.readIndex ≤ b.writeIndex
  write_le_capacity : b.writeIndex ≤ b.buffer.capacity

/-- The append moves to new storage: there is no room and compaction is not chosen. -/
def Grows (b : Buffer) (len : Int) : Prop :=
  len > b.writeableBytes ∧ ¬ len - b.writeableBytes < b.readIndex

instance (b : Buffer) (len : Int) : Decidable (Grows b len) := by unfold Grows; infer_instance

/-- The unread bytes that lie past the live elements of the vector are all zero;
in particular when there are none, `writeIndex_ <= size()`. -/
def TailBlank (b : Buffer) : Prop :=
  ∀ i : Nat, b.buffer.size ≤ i → b.readIndex ≤ i → (i : Int) < b.writeIndex → b.buffer.cells i = 0

theorem new_valid (initSize : Int) (fresh : Nat → Byte) : (new initSize fresh).Valid :=
  ⟨Int.le_refl 0, Int.le_refl 0, by simp [new]⟩

theorem new_readable (initSize : Int) (fresh : Nat → Byte) :
    (new initSize fresh).readable = [] := rfl

theorem readable_length (b : Buffer) : b.readable.length = b.readbleBytes.toNat := by
  simp [readable]

theorem reset_valid (b : Buffer) : Valid { b with writeIndex := 0, readIndex := 0 } :=
  ⟨Int.le_refl 0, Int.le_refl 0, by simp⟩

theorem ensureWritebale_room {b : Buffer} (fresh : Nat → Byte) (len : Int)
    (room : ¬ len > b.writeableBytes) : b.ensureWritebale len fresh = b := by
  simp only [ensureWritebale, if_neg room]

section
variable {b : Buffer} (valid : b.Valid) (fresh : Nat → Byte)
include valid

theorem writeable_nonneg : 0 ≤ b.writeableBytes := by
  have := valid.write_le_capacity
  unfold writeableBytes
  omega

/-- Storing at the write index, with room, appends to the readable bytes. -/
theorem readable_store (source : Bytes) (room : (source.length : Int) ≤ b.writeableBytes) :
    let stored : Buffer := { b with
      buffer := b.buffer.write b.writeIndex.toNat source
      writeIndex := b.writeIndex + source.length }
    stored.Valid ∧ stored.readable = b.readable ++ source := by
  obtain ⟨low, mid, high⟩ := valid
  unfold writeableBytes at room
  have count : (b.writeIndex + source.length - b.readIndex).toNat =
      (b.writeIndex - b.readIndex).toNat + source.length := by omega
  have position : b.readIndex.toNat + (b.writeIndex - b.readIndex).toNat = b.writeIndex.toNat := by
    omega
  constructor
  · exact ⟨low, by simp only; omega, by simp only [Storage.write_capacity]; omega⟩
  · simp only [readable, readbleBytes]
    rw [count]
    calc
      _ = (b.buffer.write b.writeIndex.toNat source).read b.readIndex.toNat
            (b.writeIndex - b.readIndex).toNat ++
          (b.buffer.write b.writeIndex.toNat source).read b.writeIndex.toNat source.length := by
        rw [Storage.read_add, position]
      _ = _ := by
        rw [Storage.read_write_self,
          Storage.read_write_before _ _ _ _ _ (Nat.le_of_eq position)]

/-- Compaction keeps the readable bytes and makes room. -/
theorem ensureWritebale_compact (len : Int) (tight : len > b.writeableBytes)
    (compacts : len - b.writeableBytes < b.readIndex) :
    (b.ensureWritebale len fresh).Valid ∧ len ≤ (b.ensureWritebale len fresh).writeableBytes ∧
      (b.ensureWritebale len fresh).readable = b.readable := by
  obtain ⟨low, mid, high⟩ := valid
  simp only [ensureWritebale, if_pos tight, if_pos compacts]
  unfold writeableBytes at tight compacts ⊢
  refine ⟨⟨Int.le_refl 0, ?_, ?_⟩, ?_, ?_⟩
  · simp only
    omega
  · simp only [Storage.copyFront_capacity]
    omega
  · simp only [Storage.copyFront_capacity]
    omega
  · simp only [readable, readbleBytes, Int.sub_zero]
    exact Storage.read_copyFront _ _ _

/-- Growth makes room, and keeps the readable bytes exactly when those past the
live elements are zero. -/
theorem ensureWritebale_grow (len : Int) (grows : b.Grows len) :
    (b.ensureWritebale len fresh).Valid ∧ len ≤ (b.ensureWritebale len fresh).writeableBytes ∧
      ((b.ensureWritebale len fresh).readable = b.readable ↔ b.TailBlank) := by
  obtain ⟨low, mid, high⟩ := valid
  obtain ⟨tight, noCompaction⟩ := grows
  simp only [ensureWritebale, if_pos tight, if_neg noCompaction]
  unfold writeableBytes at tight noCompaction ⊢
  have past : b.buffer.capacity < (b.writeIndex + len).toNat := by omega
  have capacity := Storage.resize_capacity_of_gt b.buffer 0 fresh past
  refine ⟨⟨low, mid, ?_⟩, ?_, ?_⟩
  · simp only [capacity]
    omega
  · simp only [capacity]
    omega
  · simp only [readable, readbleBytes]
    rw [Storage.read_resize_iff _ _ _ past _ _ (by omega)]
    unfold TailBlank
    constructor
    · intro zeroes i dead unread written
      exact zeroes i dead (by omega) (by omega)
    · intro zeroes i dead unread written
      exact zeroes i dead (by omega) (by omega)

/-- There is room afterwards, and the readable bytes are kept unless growth loses some. -/
theorem ensureWritebale_spec (len : Int) :
    (b.ensureWritebale len fresh).Valid ∧ len ≤ (b.ensureWritebale len fresh).writeableBytes ∧
      ((b.ensureWritebale len fresh).readable = b.readable ↔ (b.Grows len → b.TailBlank)) := by
  by_cases tight : len > b.writeableBytes
  · by_cases compacts : len - b.writeableBytes < b.readIndex
    · obtain ⟨ensured, room, same⟩ := ensureWritebale_compact valid fresh len tight compacts
      exact ⟨ensured, room, iff_of_true same (fun grows => absurd compacts grows.2)⟩
    · have grows : b.Grows len := ⟨tight, compacts⟩
      obtain ⟨ensured, room, same⟩ := ensureWritebale_grow valid fresh len grows
      exact ⟨ensured, room, same.trans ⟨fun blank _ => blank, fun blank => blank grows⟩⟩
  · rw [ensureWritebale_room fresh len tight]
    exact ⟨valid, by omega, iff_of_true rfl (fun grows => absurd grows.1 tight)⟩

/-- `append` always finds room, and appends its bytes unless growth loses some. -/
theorem append_spec (source : Bytes) :
    (b.append source fresh).Valid ∧
      ((b.append source fresh).readable = b.readable ++ source ↔
        (b.Grows source.length → b.TailBlank)) := by
  obtain ⟨ensured, room, same⟩ := ensureWritebale_spec valid fresh source.length
  obtain ⟨stored, appended⟩ := readable_store ensured source room
  simp only [append, ge_iff_le, if_pos room]
  rw [appended, List.append_left_inj]
  exact ⟨stored, same⟩

theorem append_valid (source : Bytes) : (b.append source fresh).Valid :=
  (append_spec valid fresh source).1

theorem retrieve_valid (len : Int) (nonneg : 0 ≤ len) : (b.retrieve len).2.Valid := by
  obtain ⟨low, mid, high⟩ := valid
  unfold retrieve
  split
  · exact ⟨Int.le_refl 0, Int.le_refl 0, by simp only; omega⟩
  · exact ⟨by simp only; omega, by simp only; omega, high⟩

theorem retrieve_readable (len : Int) (nonneg : 0 ≤ len) :
    (b.retrieve len).2.readable = b.readable.drop len.toNat := by
  obtain ⟨low, mid, high⟩ := valid
  unfold retrieve
  split
  next all =>
    rw [List.drop_eq_nil_of_le]
    · rfl
    · rw [readable_length]
      unfold readbleBytes
      omega
  next part =>
    simp only [readable, readbleBytes]
    rw [Storage.read_drop]
    congr 1 <;> omega

end

end Buffer

end RabbitServer.Net
