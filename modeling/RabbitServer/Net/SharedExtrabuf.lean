import Mathlib.Logic.Function.Basic
import RabbitServer.Library.Simulation
import RabbitServer.Net.BufferReadFd

/-! `static char extrabuf[65536]` of `net/Buffer.cpp` is one for all threads. `Buffer::readFd` fills
it with `readv` and appends from it afterwards, and other loops can read in between. -/

namespace RabbitServer.Net

namespace Buffer
open Library Library.Runs

/-- The storage behind `readv`: its first vector is filled. -/
def received (b : Buffer) (data : Bytes) : Storage Byte :=
  b.buffer.write b.writeIndex.toNat (data.take b.writeableBytes.toNat)

theorem readFd_failed (b : Buffer) (errno : Int) (fresh : Nat → Byte) :
    (b.readFd (.failed errno) fresh).buffer = b := rfl

theorem readFd_room {b : Buffer} {data : Bytes} (room : (data.length : Int) ≤ b.writeableBytes)
    (fresh : Nat → Byte) : (b.readFd (.delivered data) fresh).buffer =
      { b with buffer := b.received data, writeIndex := b.writeIndex + data.length } := by
  simp only [readFd, if_pos room]
  rfl

theorem readFd_overflow {b : Buffer} {data : Bytes}
    (overflow : ¬ (data.length : Int) ≤ b.writeableBytes) (fresh : Nat → Byte) :
    (b.readFd (.delivered data) fresh).buffer =
      append { b with buffer := b.received data, writeIndex := b.buffer.size }
        (data.drop b.writeableBytes.toNat) fresh := by
  simp only [readFd, if_neg overflow]
  rfl

/-- `ensureWritebale` makes the room it is asked for, whatever the indices are. -/
theorem ensureWritebale_writeable (b : Buffer) (len : Nat) (fresh : Nat → Byte) :
    (b.ensureWritebale len fresh).writeableBytes ≥ len := by
  simp only [ensureWritebale]
  split_ifs with tight compacts
  · unfold writeableBytes at *
    simp only [Storage.copyFront_capacity]
    omega
  · have past : b.buffer.capacity < (b.writeIndex + len).toNat := by
      unfold writeableBytes at tight
      omega
    simp only [writeableBytes, Storage.resize_capacity_of_gt _ _ _ past]
    omega
  · omega

/-- What is appended can be told from the buffer. -/
theorem append_inj {b : Buffer} {first second : Bytes} (same : first.length = second.length)
    {fresh : Nat → Byte} (equal : b.append first fresh = b.append second fresh) :
    first = second := by
  have room := b.ensureWritebale_writeable first.length fresh
  simp only [append, ← same, if_pos room, mk.injEq] at equal
  have stored := congrArg
    (fun s => s.read (b.ensureWritebale first.length fresh).writeIndex.toNat first.length) equal.1
  simp only [Storage.read_write_self] at stored
  rw [stored, same, Storage.read_write_self]

end Buffer

open Library Library.Runs

/-- A thread that reads into its buffers, one at a time. Between `readv` and `append` its `readFd`
has the data in two places and knows how many bytes were writeable. -/
structure Reader where
  buffer : Buffer
  reading : Option (Bytes × Nat) := none

structure SharedExtrabuf (Thread : Type) where
  extrabuf : Storage Byte
  readers : Thread → Reader

namespace SharedExtrabuf
variable {Thread : Type} [DecidableEq Thread]

inductive Event (Thread : Type) where
  | call (thread : Thread) (c : Buffer.Call)
  | retrieveAsString (thread : Thread) (len : Nat)
  | readv (thread : Thread) (result : Buffer.Readv)
  | append (thread : Thread) (fresh : Nat → Byte)

def set (s : SharedExtrabuf Thread) (thread : Thread) (reader : Reader) : SharedExtrabuf Thread :=
  { s with readers := Function.update s.readers thread reader }

/-- `readFd` up to `append(extrabuf, n-writeAble)`. -/
def readv (s : SharedExtrabuf Thread) (thread : Thread) (result : Buffer.Readv) :
    SharedExtrabuf Thread :=
  let b := (s.readers thread).buffer
  match result with
  | .failed _ => s
  | .delivered data =>
    if data.length ≤ b.writeableBytes then
      s.set thread { buffer :=
        { b with buffer := b.received data, writeIndex := b.writeIndex + data.length } }
    else
      let overflow := data.drop b.writeableBytes.toNat
      { s.set thread {
          buffer := { b with buffer := b.received data, writeIndex := b.buffer.size }
          reading := some (data, b.writeableBytes.toNat) } with
        extrabuf := s.extrabuf.write 0 overflow }

def step (s : SharedExtrabuf Thread) (event : Event Thread) : SharedExtrabuf Thread :=
  match event with
  | .call thread c =>
    match s.readers thread with
    | ⟨b, none⟩ => s.set thread { buffer := b.call c }
    | _ => s
  | .retrieveAsString thread len =>
    match s.readers thread with
    | ⟨b, none⟩ => s.set thread { buffer := (b.retrieveAsString len).2 }
    | _ => s
  | .readv thread result =>
    match s.readers thread with
    | ⟨b, none⟩ => if b.Fits result then s.readv thread result else s
    | _ => s
  | .append thread fresh =>
    match s.readers thread with
    | ⟨b, some (data, writeAble)⟩ =>
      s.set thread { buffer := b.append (s.extrabuf.read 0 (data.length - writeAble)) fresh }
    | _ => s

/-- The calls a thread has come to the end of, each as one. -/
def recordCalls (s : SharedExtrabuf Thread) (event : Event Thread)
    (calls : Thread → List Buffer.IoCall) : Thread → List Buffer.IoCall :=
  let ended (thread : Thread) (c : Buffer.IoCall) := Function.update calls thread (calls thread ++ [c])
  match event with
  | .call thread c => if (s.readers thread).reading.isNone then ended thread (.call c) else calls
  | .retrieveAsString thread len =>
    if (s.readers thread).reading.isNone then ended thread (.retrieveAsString len) else calls
  | .readv thread result =>
    if (s.readers thread).reading.isNone ∧ ((s.step event).readers thread).reading.isNone then
      ended thread (.readFd result fun _ => 0)
    else calls
  | .append thread fresh =>
    match (s.readers thread).reading with
    | some (data, _) => ended thread (.readFd (.delivered data) fresh)
    | none => calls

/-- The reader is where one is that has `extrabuf` for itself. -/
def Alone (r : Reader) (b : Buffer) : Prop :=
  match r.reading with
  | none => r.buffer = b
  | some (data, writeAble) => b.Fits (.delivered data) ∧ ¬ (data.length : Int) ≤ b.writeableBytes ∧
      writeAble = b.writeableBytes.toNat ∧
      r.buffer = { b with buffer := b.received data, writeIndex := b.buffer.size }

/-- What a thread appends from `extrabuf` is what its own `readv` has put there. -/
def OwnBytes (s : SharedExtrabuf Thread × (Thread → List Buffer.IoCall)) : Event Thread → Prop
  | .append thread _ => ∀ data writeAble, (s.1.readers thread).reading = some (data, writeAble) →
      s.1.extrabuf.read 0 (data.length - writeAble) = data.drop writeAble
  | _ => True

section
variable {first : Thread → Buffer} {s : SharedExtrabuf Thread × (Thread → List Buffer.IoCall)}

/-- Every thread is where one is alone that has made the same calls. -/
def AsAlone (first : Thread → Buffer)
    (s : SharedExtrabuf Thread × (Thread → List Buffer.IoCall)) : Prop :=
  ∀ thread, Alone (s.1.readers thread) (run Buffer.ioCall (first thread) (s.2 thread))

omit [DecidableEq Thread] in
theorem alone_idle {b c : Buffer} : Alone { buffer := b } c ↔ b = c := Iff.rfl

variable (alone : AsAlone first s)
include alone

/-- A thread comes to the end of a call; the others stay where they are. -/
theorem asAlone_ended (thread : Thread) (r : Reader) (c : Buffer.IoCall)
    (extrabuf : Storage Byte) :
    AsAlone first (⟨extrabuf, Function.update s.1.readers thread r⟩,
        Function.update s.2 thread (s.2 thread ++ [c])) ↔
      Alone r ((run Buffer.ioCall (first thread) (s.2 thread)).ioCall c) := by
  constructor
  · intro after
    have here := after thread
    simpa [run_append] using here
  · intro here other
    by_cases same : other = thread
    · subst same
      simpa [run_append] using here
    · simpa [same] using alone other

theorem asAlone_begun (thread : Thread) (r : Reader) (extrabuf : Storage Byte)
    (here : Alone r (run Buffer.ioCall (first thread) (s.2 thread))) :
    AsAlone first (⟨extrabuf, Function.update s.1.readers thread r⟩, s.2) := by
  intro other
  by_cases same : other = thread
  · subst same
    simpa using here
  · simpa [same] using alone other

omit [DecidableEq Thread] in
theorem asAlone_idle {thread : Thread} {b : Buffer} (idle : s.1.readers thread = ⟨b, none⟩) :
    b = run Buffer.ioCall (first thread) (s.2 thread) := by
  have here := alone thread
  rwa [idle, alone_idle] at here

theorem asAlone_readv (thread : Thread) (result : Buffer.Readv) :
    AsAlone first (recorded step recordCalls s (.readv thread result)) := by
  cases reader : s.1.readers thread with
  | mk b reading =>
    cases reading with
    | some begun => simpa [recorded, step, recordCalls, reader] using alone
    | none =>
      have same := asAlone_idle alone reader
      by_cases fits : b.Fits result
      · cases result with
        | failed errno =>
          have ended := (asAlone_ended alone thread (s.1.readers thread)
            (.readFd (.failed errno) fun _ => 0) s.1.extrabuf).mpr (by rw [reader, ← same]; rfl)
          rw [Function.update_eq_self] at ended
          simpa [recorded, step, recordCalls, reader, fits, readv] using ended
        | delivered data =>
          by_cases room : (data.length : Int) ≤ b.writeableBytes
          · simp only [recorded, step, recordCalls, reader, if_pos fits, readv, if_pos room, set,
              Function.update_self, Option.isNone_none, and_self, if_true]
            apply (asAlone_ended alone thread _ _ _).mpr
            rw [← same, alone_idle, Buffer.ioCall, if_pos fits, Buffer.readFd_room room]
          · simp only [recorded, step, recordCalls, reader, if_pos fits, readv, if_neg room, set,
              Function.update_self, Option.isNone_none, Option.isNone_some, Bool.false_eq_true,
              and_false, if_false]
            apply asAlone_begun alone
            rw [← same]
            exact ⟨fits, room, rfl, rfl⟩
      · have ended := (asAlone_ended alone thread (s.1.readers thread)
          (.readFd result fun _ => 0) s.1.extrabuf).mpr (by
            rw [reader, ← same, alone_idle, Buffer.ioCall, if_neg fits])
        rw [Function.update_eq_self] at ended
        simpa [recorded, step, recordCalls, reader, fits] using ended

/-- One step keeps every thread where it is alone, exactly when an append finds its own bytes. -/
theorem asAlone_step_iff (event : Event Thread) :
    AsAlone first (recorded step recordCalls s event) ↔ OwnBytes s event := by
  cases event with
  | call thread c =>
    apply iff_of_true _ trivial
    cases reader : s.1.readers thread with
    | mk b reading =>
      cases reading with
      | some begun => simpa [recorded, step, recordCalls, reader] using alone
      | none =>
        simp only [recorded, step, recordCalls, reader, Option.isNone_none, if_true]
        apply (asAlone_ended alone thread _ _ _).mpr
        rw [← asAlone_idle alone reader]
        rfl
  | retrieveAsString thread len =>
    apply iff_of_true _ trivial
    cases reader : s.1.readers thread with
    | mk b reading =>
      cases reading with
      | some begun => simpa [recorded, step, recordCalls, reader] using alone
      | none =>
        simp only [recorded, step, recordCalls, reader, Option.isNone_none, if_true]
        apply (asAlone_ended alone thread _ _ _).mpr
        rw [← asAlone_idle alone reader]
        rfl
  | readv thread result => exact iff_of_true (asAlone_readv alone thread result) trivial
  | append thread fresh =>
    cases reader : s.1.readers thread with
    | mk b reading =>
      cases reading with
      | none =>
        apply iff_of_true
        · simpa [recorded, step, recordCalls, reader] using alone
        · intro data writeAble begun
          rw [reader] at begun
          cases begun
      | some begun =>
        obtain ⟨data, writeAble⟩ := begun
        have here := alone thread
        rw [reader] at here
        obtain ⟨fits, overflow, rfl, rfl⟩ := here
        have length : (data.drop (run Buffer.ioCall (first thread)
            (s.2 thread)).writeableBytes.toNat).length =
            data.length - (run Buffer.ioCall (first thread) (s.2 thread)).writeableBytes.toNat :=
          List.length_drop
        have appends : AsAlone first (recorded step recordCalls s (.append thread fresh)) ↔
            s.1.extrabuf.read 0 (data.length -
              (run Buffer.ioCall (first thread) (s.2 thread)).writeableBytes.toNat) =
            data.drop (run Buffer.ioCall (first thread) (s.2 thread)).writeableBytes.toNat := by
          simp only [recorded, step, recordCalls, reader]
          refine (asAlone_ended alone thread _ _ _).trans ?_
          rw [alone_idle, Buffer.ioCall, if_pos fits, Buffer.readFd_overflow overflow]
          constructor
          · exact Buffer.append_inj (by rw [Storage.read_length, length])
          · intro same
            rw [same]
        rw [appends]
        constructor
        · intro own data writeAble begun
          rw [reader] at begun
          cases begun
          exact own
        · intro own
          exact own data _ (by rw [reader])

end

/-- No thread puts bytes into `extrabuf` while there are some that are not appended yet. -/
def Apart (s : SharedExtrabuf Thread × (Thread → List Buffer.IoCall)) : Event Thread → Prop
  | .readv thread (.delivered data) =>
    data.length ≤ (s.1.readers thread).buffer.writeableBytes ∨
      ∀ other, (s.1.readers other).reading = none
  | _ => True

/-- What has been read and not appended yet is in `extrabuf`. -/
def Kept (s : SharedExtrabuf Thread) : Prop :=
  ∀ thread data writeAble, (s.readers thread).reading = some (data, writeAble) →
    s.extrabuf.read 0 (data.length - writeAble) = data.drop writeAble

theorem Kept.idle {s : SharedExtrabuf Thread} (kept : Kept s) (thread : Thread) (b : Buffer) :
    Kept (s.set thread { buffer := b }) := by
  intro other data writeAble begun
  by_cases same : other = thread
  · subst same
    simp [set] at begun
  · exact kept other data writeAble (by simpa [set, same] using begun)

theorem Kept.readv {s : SharedExtrabuf Thread} (kept : Kept s) (thread : Thread) {data : Bytes}
    (apart : data.length ≤ (s.readers thread).buffer.writeableBytes ∨
      ∀ other, (s.readers other).reading = none) : Kept (s.readv thread (.delivered data)) := by
  simp only [SharedExtrabuf.readv]
  split
  next => exact kept.idle thread _
  next overflow =>
    have free := apart.resolve_left overflow
    intro other received writeAble begun
    by_cases same : other = thread
    · subst same
      simp only [set, Function.update_self, Option.some.injEq, Prod.mk.injEq] at begun
      obtain ⟨rfl, rfl⟩ := begun
      rw [← List.length_drop]
      exact Storage.read_write_self _ _ _
    · simp [set, same, free other] at begun

theorem Kept.step {s : SharedExtrabuf Thread × (Thread → List Buffer.IoCall)} (kept : Kept s.1)
    (event : Event Thread) (apart : Apart s event) : Kept (s.1.step event) := by
  cases event with
  | call thread c =>
    simp only [SharedExtrabuf.step]
    split
    · exact kept.idle thread _
    · exact kept
  | retrieveAsString thread len =>
    simp only [SharedExtrabuf.step]
    split
    · exact kept.idle thread _
    · exact kept
  | readv thread result =>
    simp only [SharedExtrabuf.step]
    split
    · split
      · cases result with
        | failed errno => exact kept
        | delivered data => exact kept.readv thread apart
      · exact kept
    · exact kept
  | append thread fresh =>
    simp only [SharedExtrabuf.step]
    split
    · exact kept.idle thread _
    · exact kept

/-- However the threads interleave: every buffer is at all times as if its thread had `extrabuf` for
itself, exactly when each append finds the bytes of its own `readv` there; which it does where no
other thread overflows between the two. -/
theorem extrabuf_exact (first : Thread → Buffer) (extrabuf : Storage Byte)
    (events : List (Event Thread)) :
    let start := (⟨extrabuf, fun thread => { buffer := first thread }⟩, fun _ => [])
    ((∀ done, done <+: events → AsAlone first (run (recorded step recordCalls) start done)) ↔
        Along (recorded step recordCalls) OwnBytes start events) ∧
      (Along (recorded step recordCalls) Apart start events →
        Along (recorded step recordCalls) OwnBytes start events) := by
  intro start
  constructor
  · -- the calls are recorded in the state, so there is no second machine to run
    exact @related_iff_along _ _ (recorded step recordCalls) OwnBytes Unit (fun _ _ => ())
      (fun _ => True) (fun s _ => AsAlone first s) start () events trivial (fun _ => rfl)
      (fun _ _ _ => trivial) fun s _ event _ alone => asAlone_step_iff alone event
  · intro apart
    apply apart.imp_of_invariant (fun s => Kept s.1)
    · intro thread data writeAble begun
      cases begun
    · exact fun s event kept apart => kept.step event apart
    · intro s event kept _
      cases event with
      | append thread fresh => exact kept thread
      | _ => exact trivial

-- Two loops read at once: the one appends a byte that the other's peer has sent.
example :
    let first : Reader := { buffer := .new 0 fun _ => 0 }
    let s := run step { extrabuf := .empty fun _ => 0, readers := fun _ => first }
      [.readv true (.delivered (List.replicate 1025 1)),
        .readv false (.delivered (List.replicate 1025 2)), .append true fun _ => 0]
    (s.readers true).buffer.buffer.cells 1024 = 2 := by
  decide +kernel

end SharedExtrabuf

end RabbitServer.Net
