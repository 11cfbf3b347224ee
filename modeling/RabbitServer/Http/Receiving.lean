import RabbitServer.Http.BufferParse
import RabbitServer.Http.HttpServer
import RabbitServer.Net.BufferReadFd

/-! `TcpConnection::handleRead` and `HttpServer::onMessage` on the receive buffer itself: what
the tail comparison reads, and what each call of the parser finds. -/

namespace RabbitServer.Http
open RabbitServer.Net Library Library.Loop Library.Runs

/-- What one read delivers, and what the call of `onMessage` behind it depends on: what new
storage holds, the memory around the storage, the receive time and the callback. -/
structure Arrival where
  data : Bytes
  fresh : Nat → Byte := fun _ => 0
  outside : Int → Byte := fun _ => 0
  receiveTime : Timestamp := 0
  httpCallback : HttpCallback := defaultHttpCallback

/-- The byte at `begin() + i`. -/
def byteAt (b : Buffer) (outside : Int → Byte) (i : Int) : Byte :=
  if 0 ≤ i ∧ i < b.buffer.capacity then b.buffer.cells i.toNat else outside i

def spaceLine (b : Buffer) : Int := b.readIndex + b.readbleBytes - 4

/-- `strncmp(spaceLine, "\r\n\r\n", 4) == 0` -/
def tailCompleteAt (b : Buffer) (outside : Int → Byte) : Bool :=
  (List.range 4).map (fun i : Nat => byteAt b outside (spaceLine b + i)) = kCLRF ++ kCLRF

structure HandledAt where
  context : HttpContext
  buf : Buffer
  refused : Bool := false
  request : Option HttpRequest := none
  calls : List ConnCall := []

/-- `onMessage` on the buffer. -/
def onMessageAt (context : HttpContext) (b : Buffer) (a : Arrival) : Except Fault HandledAt :=
  if tailCompleteAt b a.outside then
    match parseRequestAt context b a.receiveTime with
    | .error fault => .error fault
    | .ok parsed =>
      let refused := !parsed.ok
      let answer := if refused then [.send badRequest, .closeConnection] else []
      if parsed.context.gotAll then
        .ok {
          context := parsed.context.reset
          buf := parsed.buf
          refused
          request := some parsed.context.request
          calls := answer ++ onRequest a.httpCallback parsed.context.request }
      else .ok { context := parsed.context, buf := parsed.buf, refused, calls := answer }
  else .ok { context, buf := b }

/-- A connection as its reads see it. A failed assertion ends the process. -/
structure Receiver where
  context : HttpContext := {}
  inBuffer : Buffer
  aborted : Option Fault := none

namespace Receiver

def connected (fresh : Nat → Byte) : Receiver :=
  { inBuffer := Buffer.new Buffer.DEFAULTINITSIZE fresh }

/-- The read ends in a call of `onMessage`: it delivers a byte, and is one the kernel can make.
What a copy backwards does is undefined, and such a read is left out of the runs. -/
def Calls (s : Receiver) (a : Arrival) : Prop :=
  s.aborted = none ∧ a.data ≠ [] ∧ s.inBuffer.Fits (.delivered a.data) ∧
    s.inBuffer.Copies a.data

instance (s : Receiver) (a : Arrival) : Decidable (s.Calls a) := by unfold Calls; infer_instance

/-- The buffer that `onMessage` finds. -/
def found (s : Receiver) (a : Arrival) : Buffer :=
  (s.inBuffer.readFd (.delivered a.data) a.fresh).buffer

def handleRead (s : Receiver) (a : Arrival) : Receiver :=
  if s.Calls a then
    match onMessageAt s.context (s.found a) a with
    | .ok handled => { s with context := handled.context, inBuffer := handled.buf }
    | .error fault => { s with inBuffer := s.found a, aborted := some fault }
  else s

end Receiver

/-- What is parsed is what was expected: the loop ends in one of its two states, no assertion
fails but that of `setMethod`, no pointer leaves the unread bytes, and what is taken off them is
nothing, or ends in a line end. -/
def Receiver.Parses (s : Receiver) (a : Arrival) : Prop :=
  s.Calls a → tailCompleteAt (s.found a) a.outside →
    s.context.Expects ∧
      match parseRequestAt s.context (s.found a) a.receiveTime with
      | .error fault => fault = .setMethod
      | .ok parsed => ∃ removed, (s.found a).readable = removed ++ parsed.buf.readable ∧
          (removed = [] ∨ kCLRF <:+ removed)

/-- The bytes of a read that is parsed reach the read index. -/
def Receiver.InOrder (s : Receiver) (a : Arrival) : Prop :=
  s.Calls a → tailCompleteAt (s.found a) a.outside →
    s.inBuffer.readIndex ≤ s.inBuffer.readEnd a.data

/-- The four bytes that are compared are unread ones, and whatever else was read and consumed
before, they decide alike for the same context and the same unread bytes. -/
def Receiver.Decides (s : Receiver) (a : Arrival) : Prop :=
  s.Calls a →
    (∀ i : Nat, i < 4 → (s.found a).readIndex ≤ spaceLine (s.found a) + i ∧
      spaceLine (s.found a) + i < (s.found a).readIndex + (s.found a).readbleBytes) ∧
    ∀ fresh arrivals other,
      let t := run handleRead (connected fresh) arrivals
      t.Calls other → t.context = s.context → (t.found other).readable = (s.found a).readable →
        tailCompleteAt (t.found other) other.outside = tailCompleteAt (s.found a) a.outside

/-- Four bytes are unread when `onMessage` is called. -/
def Receiver.FourUnread (s : Receiver) (a : Arrival) : Prop :=
  s.Calls a → 4 ≤ (s.found a).readbleBytes

structure HandledAt.Reads (handled : HandledAt) (other : Handled) : Prop where
  valid : handled.buf.Valid
  context : handled.context = other.context
  buf : handled.buf.readable = other.buf
  refused : handled.refused = other.refused
  request : handled.request = other.request
  calls : handled.calls = other.calls

/-- The four bytes before `peek()`. -/
def standing (b : Buffer) (outside : Int → Byte) : Bytes :=
  (List.range 4).map fun i : Nat => byteAt b outside (b.readIndex - 4 + i)

/-- The call of `onMessage` on the unread bytes. -/
def Arrival.message (a : Arrival) (b : Buffer) : Message where
  stale := standing b a.outside
  receiveTime := a.receiveTime
  httpCallback := a.httpCallback

section
variable {b : Buffer} (valid : b.Valid)
include valid

/-- The comparison is one of the unread bytes behind the four before them. -/
theorem tailCompleteAt_eq (outside : Int → Byte) :
    tailCompleteAt b outside = tailComplete (standing b outside) b.readable := by
  obtain ⟨low, mid, high⟩ := valid
  have unread : b.readable = (List.range b.readbleBytes.toNat).map
      fun i : Nat => byteAt b outside (b.readIndex - 4 + (4 + i : Nat)) := by
    apply List.map_congr_left
    intro i member
    have bound := List.mem_range.mp member
    unfold Buffer.readbleBytes at bound
    rw [byteAt, if_pos (by omega)]
    congr 1
    omega
  have whole : standing b outside ++ b.readable = (List.range (4 + b.readbleBytes.toNat)).map
      fun i : Nat => byteAt b outside (b.readIndex - 4 + i) := by
    rw [List.range_add, List.map_append, List.map_map, unread]
    rfl
  have tail : (standing b outside ++ b.readable).drop
      ((standing b outside ++ b.readable).length - 4) =
        (List.range 4).map fun i : Nat => byteAt b outside (spaceLine b + i) := by
    rw [whole, List.length_map, List.length_range, Nat.add_comm, Nat.add_sub_cancel, List.range_add,
      List.map_append, List.drop_left' (by rw [List.length_map, List.length_range]), List.map_map]
    apply List.map_congr_left
    intro i _
    simp only [Function.comp_apply, spaceLine]
    unfold Buffer.readbleBytes
    congr 1
    omega
  rw [tailCompleteAt, tailComplete, tail]

/-- With valid indices a call on the buffer is the call on its unread bytes. -/
theorem onMessageAt_reads (context : HttpContext) (a : Arrival) :
    Ends HandledAt.Reads Fault.Reads (onMessageAt context b a)
      (onMessage context b.readable (a.message b)) := by
  have parse := parseRequestAt_reads context valid a.receiveTime
  have same : tailCompleteAt b a.outside = tailComplete (a.message b).stale b.readable :=
    tailCompleteAt_eq valid a.outside
  by_cases complete : tailCompleteAt b a.outside = true
  · simp only [onMessageAt, onMessage, if_pos complete, if_pos (same ▸ complete)]
    simp only [Arrival.message]
    obtain ⟨parsedAt, ⟨ok, next, left⟩, first, second, still, rfl, rfl, rfl⟩ |
      ⟨fault, halt, first, second, reads⟩ := parse.cases
    · simp only [first, second]
      split_ifs <;> exact ⟨still, rfl, rfl, rfl, rfl, rfl⟩
    · simp only [first, second]
      exact reads
  · simp only [onMessageAt, onMessage, if_neg complete, if_neg (same ▸ complete)]
    exact ⟨valid, rfl, rfl, rfl, rfl, rfl⟩

end

/-- Where the read index is past the write index, a passed comparison ends in an assertion. -/
theorem onMessageAt_disordered {context : HttpContext} (expects : context.Expects) {b : Buffer}
    (disordered : b.writeIndex < b.readIndex) {a : Arrival}
    (complete : tailCompleteAt b a.outside = true) :
    onMessageAt context b a = .error .findCLRF := by
  simp only [onMessageAt, if_pos complete, parseRequestAt_disordered expects disordered]

namespace Receiver

/-- What every run keeps: until the process ends, a request line is expected, and both indices
stand in the storage. -/
def Ready (s : Receiver) : Prop :=
  s.aborted = none → s.context.state = .kExpectRequestLine ∧ s.inBuffer.Loose

theorem connected_ready (fresh : Nat → Byte) : (connected fresh).Ready :=
  fun _ => ⟨rfl, (Buffer.new_valid Buffer.DEFAULTINITSIZE fresh).loose⟩

section
variable {s : Receiver} (ready : s.Ready) {a : Arrival}
include ready

theorem Ready.expects (calls : s.Calls a) : s.context.Expects := Or.inl (ready calls.1).1

theorem Ready.found (calls : s.Calls a) : (s.found a).Loose :=
  Buffer.readFd_loose (ready calls.1).2 a.fresh calls.2.2.2

/-- A call of `onMessage` that comes back expects a request line again. -/
theorem onMessageAt_ready (calls : s.Calls a) {handled : HandledAt}
    (returns : onMessageAt s.context (s.found a) a = .ok handled) :
    handled.context.state = .kExpectRequestLine ∧ handled.buf.Loose := by
  have loose := ready.found calls
  by_cases order : (s.found a).readIndex ≤ (s.found a).writeIndex
  · have reads := onMessageAt_reads (loose.valid order) s.context a
    obtain ⟨_, other, same, unread, reads⟩ | ⟨fault, _, stops, -, -⟩ := reads.cases
    · cases returns.symm.trans same
      have start : s.context = ⟨.kExpectRequestLine, s.context.request⟩ := by
        rw [← (ready calls.1).1]
      rw [start] at unread
      rw [reads.context]
      exact ⟨onMessage_state unread, reads.valid.loose⟩
    · cases returns.symm.trans stops
  · by_cases complete : tailCompleteAt (s.found a) a.outside = true
    · rw [onMessageAt_disordered (ready.expects calls) (by omega) complete] at returns
      cases returns
    · simp only [onMessageAt, if_neg complete] at returns
      cases returns
      exact ⟨(ready calls.1).1, loose⟩

theorem Ready.step (a : Arrival) : (s.handleRead a).Ready := by
  unfold handleRead
  split_ifs with calls
  · split
    next handled returns => exact fun _ => onMessageAt_ready ready calls returns
    next fault stops =>
      intro going
      cases going
  · exact ready

/-- The four bytes are unread exactly when there are four. -/
theorem decides_iff : s.Decides a ↔ s.FourUnread a := by
  constructor
  · intro decides calls
    have first := ((decides calls).1 0 (by decide)).1
    unfold spaceLine at first
    omega
  · intro four calls
    have long := four calls
    have valid : (s.found a).Valid := by
      apply (ready.found calls).valid
      unfold Buffer.readbleBytes at long
      omega
    constructor
    · intro i below
      unfold spaceLine
      omega
    · intro fresh arrivals other t otherCalls _ same
      have otherReady : t.Ready :=
        run_invariant Ready _ arrivals (connected_ready fresh) fun s a ready => ready.step a
      have length := congrArg List.length same
      rw [Buffer.readable_length, Buffer.readable_length] at length
      have otherValid : (t.found other).Valid := by
        apply (otherReady.found otherCalls).valid
        unfold Buffer.readbleBytes at long length
        omega
      rw [tailCompleteAt_eq valid, tailCompleteAt_eq otherValid, same]
      apply tailComplete_unread
      rw [Buffer.readable_length]
      omega

/-- The indices are in order behind the reads that reach the read index. -/
theorem Ready.found_ordered_iff (calls : s.Calls a) :
    (s.found a).readIndex ≤ (s.found a).writeIndex ↔
      s.inBuffer.readIndex ≤ s.inBuffer.readEnd a.data :=
  Buffer.readFd_ordered_iff (ready calls.1).2 a.data a.fresh

/-- A parse keeps to its buffer exactly when it finds the indices in order. -/
theorem parses_iff : s.Parses a ↔ s.InOrder a := by
  constructor
  · intro parses calls complete
    rw [← ready.found_ordered_iff calls]
    by_contra disordered
    have outcome := (parses calls complete).2
    rw [parseRequestAt_disordered (ready.expects calls) (by omega)] at outcome
    cases outcome
  · intro order calls complete
    have expects := ready.expects calls
    have ordered := (ready.found_ordered_iff calls).mpr (order calls complete)
    have valid := (ready.found calls).valid ordered
    refine ⟨expects, ?_⟩
    obtain ⟨parsed, other, result, unread, reads⟩ | ⟨fault, halt, result, unread, same⟩ :=
      (parseRequestAt_reads s.context valid a.receiveTime).cases
    · simp only [result, reads.buf]
      exact parseRequest_consumes unread
    · simp only [result]
      cases halt with
      | assertFailed => exact same
      | spins => exact absurd expects ((parseRequest_spins_iff _ _ _).mp unread)

end

/-- A parse that keeps to its buffer ends the process in `setMethod`, if at all. -/
theorem Parses.aborts {s : Receiver} {a : Arrival} (parses : s.Parses a)
    (before : s.aborted = none ∨ s.aborted = some .setMethod) :
    (s.handleRead a).aborted = none ∨ (s.handleRead a).aborted = some .setMethod := by
  unfold handleRead
  split_ifs with calls
  · split
    next => exact before
    next fault stops =>
      by_cases complete : tailCompleteAt (s.found a) a.outside = true
      · have outcome := (parses calls complete).2
        simp only [onMessageAt, if_pos complete] at stops
        split at stops
        next other result =>
          cases stops
          rw [result] at outcome
          exact Or.inr (congrArg some outcome)
        next => split_ifs at stops
      · simp only [onMessageAt, if_neg complete] at stops
        cases stops
  · exact before

end Receiver

/-- Over the reads of a connection, every parse keeps to its buffer and ends exactly when each
begins behind a read that reaches the read index. -/
theorem parses_contained_iff (fresh : Nat → Byte) (arrivals : List Arrival) :
    Along Receiver.handleRead Receiver.Parses (.connected fresh) arrivals ↔
      Along Receiver.handleRead Receiver.InOrder (.connected fresh) arrivals := by
  apply along_iff_of_exact fun s _ => s.Ready
  · exact Receiver.connected_ready fresh
  · exact fun s a _ ready _ => ready.step a
  · exact fun s a _ ready => Receiver.parses_iff ready

/-- A request of 1042 bytes and an empty line too many grow the storage to 2048 cells, 1029 of
them live, and the request is taken off. The next read overflows by four bytes: it leaves the
write index at 1033. -/
theorem parses_contained_fails :
    ¬ Along Receiver.handleRead Receiver.Parses (.connected fun _ => 0)
      ({ data := [71, 69, 84, 32, 47] } :: List.replicate 16 { data := List.replicate 64 97 } ++
        [{ data := [32, 72, 84, 84, 80, 47, 49, 46, 49, 13, 10, 13, 10, 13, 10]
           httpCallback := fun _ response => response },
          { data := List.replicate 1004 97 ++ kCLRF ++ kCLRF }]) := by
  intro along
  have aborts := along.invariant (fun s => s.aborted = none ∨ s.aborted = some .setMethod)
    (Or.inl rfl) fun s a before parses => parses.aborts before
  revert aborts
  decide +kernel

/-- Over the reads of a connection, every call of `onMessage` decides on unread bytes exactly
when each finds four of them. -/
theorem decides_unread_iff (fresh : Nat → Byte) (arrivals : List Arrival) :
    Along Receiver.handleRead Receiver.Decides (.connected fresh) arrivals ↔
      Along Receiver.handleRead Receiver.FourUnread (.connected fresh) arrivals := by
  apply along_iff_of_exact fun s _ => s.Ready
  · exact Receiver.connected_ready fresh
  · exact fun s a _ ready _ => ready.step a
  · exact fun s a _ ready => Receiver.decides_iff ready

/-- A first read of one byte is compared with the three bytes before the storage. -/
theorem decides_unread_fails :
    ¬ Along Receiver.handleRead Receiver.Decides (.connected fun _ => 0) [{ data := [71] }] := by
  intro along
  have calls : (Receiver.connected fun _ => 0).Calls { data := [71] } := by decide +kernel
  have first := ((along.1 calls).1 0 (by decide)).1
  revert first
  decide +kernel

end RabbitServer.Http
