import RabbitServer.Http.HttpContext
import RabbitServer.Http.LinePointers
import RabbitServer.Net.Buffer

/-! `parseRequest` on the `Buffer` itself: a pointer is an offset from `begin()`, the assertions
of the buffer are checked, and so is every pointer that is handed on. -/

namespace RabbitServer.Http
open RabbitServer.Net Library Library.Loop

/-- The bytes in `[first, last)`. -/
def bytesBetween (b : Buffer) (first last : Int) : Bytes :=
  b.buffer.read first.toNat (last - first).toNat

/-- `Buffer::findCLRF`; where the search comes to the end there is no line end. -/
def findCLRFAt (b : Buffer) (start : Int) : Except Fault (Option Int) :=
  if 0 ≤ start ∧ start ≤ b.writeIndex then
    .ok ((Lines.find CR LF (bytesBetween b start b.writeIndex)).map
      fun i : Nat => start + (i : Int))
  else .error .findCLRF

def retrieveUntillAt (b : Buffer) (stop : Int) : Except Fault Buffer :=
  match b.retrieveUntill stop with
  | some (_, after) => .ok after
  | none => .error .retrieveUntill

/-- Pointers that are handed on belong between `peek()` and the write index. -/
def handOver (b : Buffer) (pointers : List Int) : Except Fault Unit :=
  if ∀ p ∈ pointers, b.readIndex ≤ p ∧ p ≤ b.writeIndex then .ok () else .error .outside

structure ParseAt where
  ok : Bool := true
  hasMore : Bool := true
  context : HttpContext
  buf : Buffer

def parsePassAt (receiveTime : Timestamp) (s : ParseAt) : Except Fault ParseAt := do
  let peek := s.buf.readIndex
  match s.context.state with
  | .kExpectRequestLine =>
    match ← findCLRFAt s.buf peek with
    | some crlf =>
      handOver s.buf [peek, crlf]
      let (ok, request) ← processRequestLineAt s.context.request (bytesBetween s.buf peek crlf)
      if ok then
        let buf ← retrieveUntillAt s.buf (crlf + 2)
        pure { s with
          ok := true
          context := ⟨.kExpectHeaders, request.setReceiveTime receiveTime⟩
          buf }
      else pure { s with ok := false, hasMore := false, context := { s.context with request } }
    | none => pure { s with hasMore := false }
  | .kExpectHeaders =>
    match ← findCLRFAt s.buf peek with
    | some crlf =>
      let line := bytesBetween s.buf peek crlf
      let colon := peek + line.idxOf COLON
      if colon ≠ crlf then
        handOver s.buf [peek, colon, crlf]
        let request := s.context.request.addHeader line (line.idxOf COLON)
        let buf ← retrieveUntillAt s.buf (crlf + 2)
        pure { s with context := { s.context with request }, buf }
      else
        let buf ← retrieveUntillAt s.buf (crlf + 2)
        pure { s with hasMore := false, context := { s.context with state := .kGotAll }, buf }
    | none => pure { s with hasMore := false }
  | .kExpectBody => pure s
  | .kGotAll => pure s

structure ParsedAt where
  ok : Bool
  context : HttpContext
  buf : Buffer

def parseRequestAt (context : HttpContext) (b : Buffer) (receiveTime : Timestamp) :
    Except Fault ParsedAt :=
  match whileLoop ParseAt.hasMore (parsePassAt receiveTime) .spins (b.readable.length + 2)
      { context, buf := b } with
  | .error fault => .error fault
  | .ok s => .ok ⟨s.ok, s.context, s.buf⟩

/-- The locals on the buffer and on its unread bytes. -/
structure ParseAt.Reads (s : ParseAt) (t : Parse) : Prop where
  valid : s.buf.Valid
  ok : s.ok = t.ok
  hasMore : s.hasMore = t.hasMore
  context : s.context = t.context
  buf : s.buf.readable = t.buf

structure ParsedAt.Reads (parsed : ParsedAt) (other : Parsed) : Prop where
  valid : parsed.buf.Valid
  ok : parsed.ok = other.ok
  context : parsed.context = other.context
  buf : parsed.buf.readable = other.buf

def Fault.Reads (fault : Fault) (halt : Halt) : Prop := fault = .ofHalt halt

theorem bytesBetween_peek {b : Buffer} {i : Nat} (bound : b.readIndex + i ≤ b.writeIndex) :
    bytesBetween b b.readIndex (b.readIndex + i) = b.readable.take i := by
  rw [bytesBetween, Buffer.readable, Storage.read_take, Buffer.readbleBytes]
  congr 1
  omega

section
variable {b : Buffer} (valid : b.Valid)
include valid

theorem findCLRFAt_peek :
    findCLRFAt b b.readIndex =
      .ok ((findCLRF b.readable).map fun i : Nat => b.readIndex + (i : Int)) := by
  rw [findCLRFAt, if_pos ⟨valid.read_nonneg, valid.read_le_write⟩]
  rfl

theorem findCLRF_bound {i : Nat} (found : findCLRF b.readable = some i) :
    b.readIndex + i + 2 ≤ b.writeIndex := by
  have bound := Lines.find_lt found
  have order := valid.read_le_write
  rw [Buffer.readable_length, Buffer.readbleBytes] at bound
  omega

/-- `retrieveUntill` keeps its assertions, and takes off what stands before the pointer. -/
theorem retrieveUntillAt_peek {i : Nat} (bound : b.readIndex + i + 2 ≤ b.writeIndex) :
    ∃ after, retrieveUntillAt b (b.readIndex + i + 2) = .ok after ∧ after.Valid ∧
      after.readable = retrieveUntill b.readable (i + 2) := by
  have offset : b.readIndex + i + 2 - b.readIndex = (i + 2 : Nat) := by omega
  have nonneg := Int.natCast_nonneg (i + 2)
  refine ⟨(b.retrieve (i + 2 : Nat)).2, ?_, Buffer.retrieve_valid valid _ nonneg,
    Buffer.retrieve_readable valid _ nonneg⟩
  rw [retrieveUntillAt, Buffer.retrieveUntill, if_pos ⟨by omega, bound⟩, offset]

end

theorem handOver_inside {b : Buffer} {pointers : List Int}
    (inside : ∀ p ∈ pointers, b.readIndex ≤ p ∧ p ≤ b.writeIndex) :
    handOver b pointers = .ok () := if_pos inside

/-- A pass on the buffer is the pass on its unread bytes. -/
theorem parsePassAt_reads (receiveTime : Timestamp) {s : ParseAt} {t : Parse} (reads : s.Reads t) :
    Ends ParseAt.Reads Fault.Reads (parsePassAt receiveTime s) (parsePass receiveTime t) := by
  obtain ⟨ok, hasMore, ⟨state, request⟩, b⟩ := s
  obtain ⟨_, _, _, _⟩ := t
  obtain ⟨valid, rfl, rfl, rfl, rfl⟩ := reads
  simp only at valid
  cases state with
  | kExpectBody => exact ⟨valid, rfl, rfl, rfl, rfl⟩
  | kGotAll => exact ⟨valid, rfl, rfl, rfl, rfl⟩
  | kExpectRequestLine =>
    simp only [parsePassAt, parsePass, findCLRFAt_peek valid, ok_bind]
    cases found : findCLRF b.readable with
    | none => exact ⟨valid, rfl, rfl, rfl, rfl⟩
    | some i =>
      have bound := findCLRF_bound valid found
      have inside : handOver b [b.readIndex, b.readIndex + i] = .ok () := by
        apply handOver_inside
        simp only [List.forall_mem_cons, List.not_mem_nil, false_implies, implies_true, and_true]
        omega
      simp only [Option.map_some, inside, ok_bind, processRequestLineAt_eq,
        bytesBetween_peek (show b.readIndex + i ≤ b.writeIndex by omega)]
      cases processRequestLine request (b.readable.take i) with
      | error halt => exact rfl
      | ok result =>
        obtain ⟨accepted, next⟩ := result
        cases accepted with
        | false => exact ⟨valid, rfl, rfl, rfl, rfl⟩
        | true =>
          obtain ⟨after, retrieved, still, left⟩ := retrieveUntillAt_peek valid bound
          simp only [Except.mapError, ok_bind, if_true, retrieved]
          exact ⟨still, rfl, rfl, rfl, left⟩
  | kExpectHeaders =>
    simp only [parsePassAt, parsePass, findCLRFAt_peek valid, ok_bind]
    cases found : findCLRF b.readable with
    | none => exact ⟨valid, rfl, rfl, rfl, rfl⟩
    | some i =>
      have bound := findCLRF_bound valid found
      obtain ⟨after, retrieved, still, left⟩ := retrieveUntillAt_peek valid bound
      have length : (b.readable.take i).length = i := by
        rw [List.length_take, Nat.min_eq_left (by have := Lines.find_lt found; omega)]
      have within := List.idxOf_le_length (a := COLON) (l := b.readable.take i)
      rw [length] at within
      simp only [Option.map_some,
        bytesBetween_peek (show b.readIndex + i ≤ b.writeIndex by omega)]
      by_cases colon : (b.readable.take i).idxOf COLON ≠ i
      · have inside : handOver b [b.readIndex, b.readIndex + (b.readable.take i).idxOf COLON,
            b.readIndex + i] = .ok () := by
          apply handOver_inside
          simp only [List.forall_mem_cons, List.not_mem_nil, false_implies, implies_true, and_true]
          omega
        rw [if_pos (by omega), if_pos colon, inside, retrieved]
        exact ⟨still, rfl, rfl, rfl, left⟩
      · rw [if_neg (by omega), if_neg colon, retrieved]
        exact ⟨still, rfl, rfl, rfl, left⟩

/-- With valid indices the buffer is parsed as its unread bytes are: no assertion of the buffer
fails, and no pointer leaves them. -/
theorem parseRequestAt_reads (context : HttpContext) {b : Buffer} (valid : b.Valid)
    (receiveTime : Timestamp) :
    Ends ParsedAt.Reads Fault.Reads (parseRequestAt context b receiveTime)
      (parseRequest context b.readable receiveTime) := by
  have loops : Ends ParseAt.Reads Fault.Reads
      (whileLoop ParseAt.hasMore (parsePassAt receiveTime) .spins (b.readable.length + 2)
        { context, buf := b })
      (parseLoop receiveTime (b.readable.length + 2) { context, buf := b.readable }) := by
    apply whileLoop_ends_alike
    · exact rfl
    · exact fun s t reads => reads.hasMore
    · exact fun s t reads _ => parsePassAt_reads receiveTime reads
    · exact ⟨valid, rfl, rfl, rfl, rfl⟩
  obtain ⟨s, t, first, second, reads⟩ | ⟨fault, halt, first, second, reads⟩ := loops.cases
  · rw [parseRequestAt, parseRequest, first, second]
    exact ⟨reads.valid, reads.ok, reads.context, reads.buf⟩
  · rw [parseRequestAt, parseRequest, first, second]
    exact reads

/-- Where the read index has got past the write index, the first assertion fails. -/
theorem parseRequestAt_disordered {context : HttpContext} (expects : context.Expects) {b : Buffer}
    (disordered : b.writeIndex < b.readIndex) (receiveTime : Timestamp) :
    parseRequestAt context b receiveTime = .error .findCLRF := by
  have fails : findCLRFAt b b.readIndex = .error .findCLRF := if_neg fun both => by omega
  have pass : parsePassAt receiveTime { context, buf := b } = .error .findCLRF := by
    rcases expects with state | state <;> simp only [parsePassAt, state, fails, error_bind]
  unfold parseRequestAt
  rw [whileLoop_stop (b.readable.length + 1) rfl pass]

end RabbitServer.Http
