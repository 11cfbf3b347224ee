import RabbitServer.Http.RequestLine
import RabbitServer.Library.Lines
import RabbitServer.Library.Loop

/-! `HTTP/HttpContext.cpp` on a FIFO byte queue: the buffer is the list of its unread
bytes, `peek()` its head, and a pointer into it an index from there. -/

namespace RabbitServer.Http
open RabbitServer.Net Library

inductive HttpRequestParseState where
  | kExpectRequestLine | kExpectHeaders | kExpectBody | kGotAll
  deriving DecidableEq

structure HttpContext where
  state : HttpRequestParseState := .kExpectRequestLine
  request : HttpRequest := {}
  deriving DecidableEq

/-- `Buffer::findCLRF(peek())` -/
def findCLRF (buf : Bytes) : Option Nat := Lines.find CR LF buf

/-- `Buffer::retrieveUntill(crlf + 2)` -/
def retrieveUntill (buf : Bytes) (stop : Nat) : Bytes := buf.drop stop

/-- The locals of `parseRequest`, with the context and the buffer it works on. -/
structure Parse where
  ok : Bool := true
  hasMore : Bool := true
  context : HttpContext
  buf : Bytes

/-- One pass of the loop. In `kExpectBody` and `kGotAll` it does nothing. -/
def parsePass (receiveTime : Timestamp) (s : Parse) : Except Halt Parse :=
  match s.context.state with
  | .kExpectRequestLine =>
    match findCLRF s.buf with
    | some crlf =>
      match processRequestLine s.context.request (s.buf.take crlf) with
      | .error halt => .error halt
      | .ok (true, request) =>
        .ok { s with
          ok := true
          context := ⟨.kExpectHeaders, request.setReceiveTime receiveTime⟩
          buf := retrieveUntill s.buf (crlf + 2) }
      | .ok (false, request) =>
        .ok { s with ok := false, hasMore := false, context := { s.context with request } }
    | none => .ok { s with hasMore := false }
  | .kExpectHeaders =>
    match findCLRF s.buf with
    | some crlf =>
      let colon := (s.buf.take crlf).idxOf COLON
      if colon ≠ crlf then
        .ok { s with
          context := { s.context with
            request := s.context.request.addHeader (s.buf.take crlf) colon }
          buf := retrieveUntill s.buf (crlf + 2) }
      else
        .ok { s with
          hasMore := false
          context := { s.context with state := .kGotAll }
          buf := retrieveUntill s.buf (crlf + 2) }
    | none => .ok { s with hasMore := false }
  | .kExpectBody => .ok s
  | .kGotAll => .ok s

/-- What `parseRequest` returns, and the context and the unread bytes after it. -/
structure Parsed where
  ok : Bool
  context : HttpContext
  buf : Bytes
  deriving DecidableEq

def parseLoop (receiveTime : Timestamp) (fuel : Nat) (s : Parse) : Except Halt Parse :=
  Loop.whileLoop Parse.hasMore (parsePass receiveTime) .spins fuel s

/-- The fuel covers every loop that ends: each pass but the last takes a line away. -/
def parseRequest (context : HttpContext) (buf : Bytes) (receiveTime : Timestamp) :
    Except Halt Parsed :=
  match parseLoop receiveTime (buf.length + 2) { context, buf } with
  | .error halt => .error halt
  | .ok s => .ok ⟨s.ok, s.context, s.buf⟩

def HttpContext.gotAll (context : HttpContext) : Bool := context.state = .kGotAll

def HttpContext.reset (context : HttpContext) : HttpContext :=
  ⟨.kExpectRequestLine, context.request.swap {}⟩

/-- The states `parseRequest` can make progress in. -/
def HttpContext.Expects (context : HttpContext) : Prop :=
  context.state = .kExpectRequestLine ∨ context.state = .kExpectHeaders

/-- Every pass either leaves the loop or takes at least the line end away. -/
theorem parsePass_decreases (receiveTime : Timestamp) (s next : Parse)
    (expects : s.hasMore = true → s.context.Expects) (more : s.hasMore = true)
    (pass : parsePass receiveTime s = .ok next) :
    (next.hasMore = true → next.context.Expects) ∧
      (if next.hasMore then next.buf.length + 1 else 0) <
        (if s.hasMore then s.buf.length + 1 else 0) := by
  have shorter : ∀ crlf, findCLRF s.buf = some crlf →
      (retrieveUntill s.buf (crlf + 2)).length + 1 < s.buf.length + 1 := by
    intro crlf found
    have := Lines.find_lt found
    simp only [retrieveUntill, List.length_drop]
    omega
  rw [if_pos more]
  rcases expects more with state | state <;> simp only [parsePass, state] at pass
  · cases found : findCLRF s.buf with
    | none =>
      rw [found] at pass
      cases pass
      simp
    | some crlf =>
      rw [found] at pass
      simp only at pass
      split at pass
      · cases pass
      · cases pass
        refine ⟨fun _ => Or.inr rfl, ?_⟩
        simpa [more] using shorter crlf found
      · cases pass
        simp
  · cases found : findCLRF s.buf with
    | none =>
      rw [found] at pass
      cases pass
      simp
    | some crlf =>
      rw [found] at pass
      simp only at pass
      split at pass
      · cases pass
        refine ⟨fun _ => Or.inr rfl, ?_⟩
        simpa [more] using shorter crlf found
      · cases pass
        simp

/-- In the states it expects anything in, the loop does not depend on its fuel. -/
theorem parseLoop_fuel (receiveTime : Timestamp) (s : Parse)
    (expects : s.hasMore = true → s.context.Expects) (fuel other : Nat)
    (enough : s.buf.length + 1 < fuel) (otherEnough : s.buf.length + 1 < other) :
    parseLoop receiveTime fuel s = parseLoop receiveTime other s := by
  have bound : (if s.hasMore then s.buf.length + 1 else 0) ≤ s.buf.length + 1 := by
    split <;> omega
  exact Loop.whileLoop_fuel (fun s => s.hasMore = true → s.context.Expects)
    (fun s => if s.hasMore then s.buf.length + 1 else 0)
    (fun s next expects more pass => parsePass_decreases receiveTime s next expects more pass)
    s expects fuel other (by omega) (by omega)

/-- A pass itself never spins: it stops on an assertion, if at all. -/
theorem parsePass_ne_spins (receiveTime : Timestamp) (s : Parse) :
    parsePass receiveTime s ≠ .error .spins := by
  intro spins
  cases state : s.context.state <;> simp only [parsePass, state] at spins
  case kExpectRequestLine =>
    split at spins
    next =>
      split at spins
      next stops =>
        rw [(processRequestLine_error stops).2] at spins
        cases spins
      next => cases spins
      next => cases spins
    next => cases spins
  case kExpectHeaders =>
    split at spins
    next => split_ifs at spins
    next => cases spins
  all_goals cases spins

/-- The loop never ends exactly where it is entered with nothing left to expect. -/
theorem parseRequest_spins_iff (context : HttpContext) (buf : Bytes) (receiveTime : Timestamp) :
    parseRequest context buf receiveTime = .error .spins ↔ ¬ context.Expects := by
  constructor
  · intro spins expects
    have ends : parseLoop receiveTime (buf.length + 2) { context, buf } ≠ .error .spins := by
      apply Loop.whileLoop_ends (fun s => s.hasMore = true → s.context.Expects)
        (fun s => if s.hasMore then s.buf.length + 1 else 0)
        (fun s next expects more pass => parsePass_decreases receiveTime s next expects more pass)
        (parsePass_ne_spins receiveTime)
      · exact fun _ => expects
      · exact Nat.lt_succ_self (buf.length + 1)
    unfold parseRequest at spins
    split at spins
    next halt stops =>
      cases spins
      exact ends stops
    next => cases spins
  · intro idle
    have pass : parsePass receiveTime { context, buf } = .ok { context, buf } := by
      cases state : context.state with
      | kExpectRequestLine => exact absurd (Or.inl state) idle
      | kExpectHeaders => exact absurd (Or.inr state) idle
      | kExpectBody => simp only [parsePass, state]
      | kGotAll => simp only [parsePass, state]
    simp only [parseRequest, parseLoop]
    rw [Loop.whileLoop_spins _ rfl pass]

/-- A pass that goes on leaves the rest to a call on what it left. -/
theorem parseRequest_pass (context next : HttpContext) (buf rest : Bytes) (receiveTime : Timestamp)
    (expects : next.Expects) (shorter : rest.length < buf.length)
    (pass : parsePass receiveTime { context, buf } = .ok { context := next, buf := rest }) :
    parseRequest context buf receiveTime = parseRequest next rest receiveTime := by
  have loop : parseLoop receiveTime (buf.length + 2) { context, buf } =
      parseLoop receiveTime (rest.length + 2) { context := next, buf := rest } := by
    unfold parseLoop
    rw [Loop.whileLoop_pass _ rfl pass]
    exact parseLoop_fuel receiveTime _ (fun _ => expects) _ _ (by simp only; omega)
      (by simp only; omega)
  simp only [parseRequest, loop]

/-- A pass that leaves the loop gives the result. -/
theorem parseRequest_last (context : HttpContext) (buf : Bytes) (receiveTime : Timestamp)
    (s : Parse) (done : s.hasMore = false)
    (pass : parsePass receiveTime { context, buf } = .ok s) :
    parseRequest context buf receiveTime = .ok ⟨s.ok, s.context, s.buf⟩ := by
  simp only [parseRequest, parseLoop]
  rw [Loop.whileLoop_pass _ rfl pass, Loop.whileLoop_done _ done]

abbrev LineFree (text : Bytes) : Prop := Lines.Free CR LF text

/-- Unread bytes either hold no line end or begin with a line. -/
theorem line_cases (buf : Bytes) :
    LineFree buf ∨ ∃ line rest, LineFree line ∧ buf = line ++ CR :: LF :: rest := by
  cases found : findCLRF buf with
  | none => exact Or.inl found
  | some crlf =>
    have free : LineFree (buf.take crlf) := Lines.free_take found
    exact Or.inr ⟨buf.take crlf, buf.drop (crlf + 2), free, Lines.find_some found⟩

theorem retrieveUntill_line (line rest : Bytes) :
    retrieveUntill (line ++ CR :: LF :: rest) (line.length + 2) = rest := by
  simp [retrieveUntill, List.drop_append]

section
variable {line : Bytes} (free : LineFree line) (rest : Bytes)
include free

theorem findCLRF_line : findCLRF (line ++ CR :: LF :: rest) = some line.length :=
  Lines.find_line (by decide) free rest

variable (request : HttpRequest) (receiveTime : Timestamp)

theorem parseRequest_requestLine (next : HttpRequest)
    (accepted : processRequestLine request line = .ok (true, next)) :
    parseRequest ⟨.kExpectRequestLine, request⟩ (line ++ CR :: LF :: rest) receiveTime =
      parseRequest ⟨.kExpectHeaders, next.setReceiveTime receiveTime⟩ rest receiveTime := by
  apply parseRequest_pass
  · exact Or.inr rfl
  · simp only [List.length_append, List.length_cons]
    omega
  · simp [parsePass, findCLRF_line free, retrieveUntill_line, accepted]

theorem parseRequest_rejected (next : HttpRequest)
    (rejected : processRequestLine request line = .ok (false, next)) :
    parseRequest ⟨.kExpectRequestLine, request⟩ (line ++ CR :: LF :: rest) receiveTime =
      .ok ⟨false, ⟨.kExpectRequestLine, next⟩, line ++ CR :: LF :: rest⟩ := by
  apply parseRequest_last (s := { ok := false, hasMore := false, context := ⟨_, next⟩, buf := _ })
  · rfl
  · simp [parsePass, findCLRF_line free, rejected]

theorem parseRequest_halted (halt : Halt)
    (stops : processRequestLine request line = .error halt) :
    parseRequest ⟨.kExpectRequestLine, request⟩ (line ++ CR :: LF :: rest) receiveTime =
      .error halt := by
  simp only [parseRequest, parseLoop]
  rw [Loop.whileLoop_stop]
  · rfl
  · simp [parsePass, findCLRF_line free, stops]

theorem parseRequest_header (named : COLON ∈ line) :
    parseRequest ⟨.kExpectHeaders, request⟩ (line ++ CR :: LF :: rest) receiveTime =
      parseRequest ⟨.kExpectHeaders, request.addHeader line (line.idxOf COLON)⟩ rest
        receiveTime := by
  have colon : line.idxOf COLON ≠ line.length := by
    have := List.idxOf_lt_length_of_mem named
    omega
  apply parseRequest_pass
  · exact Or.inr rfl
  · simp only [List.length_append, List.length_cons]
    omega
  · simp [parsePass, findCLRF_line free, retrieveUntill_line, colon]

/-- A line without a colon, empty or not, ends the header section. -/
theorem parseRequest_blank (unnamed : COLON ∉ line) :
    parseRequest ⟨.kExpectHeaders, request⟩ (line ++ CR :: LF :: rest) receiveTime =
      .ok ⟨true, ⟨.kGotAll, request⟩, rest⟩ := by
  apply parseRequest_last (s := { hasMore := false, context := ⟨.kGotAll, request⟩, buf := rest })
  · rfl
  · simp [parsePass, findCLRF_line free, retrieveUntill_line, List.idxOf_eq_length unnamed]

end

theorem parseRequest_noLine (context : HttpContext) (expects : context.Expects) {buf : Bytes}
    (free : LineFree buf) (receiveTime : Timestamp) :
    parseRequest context buf receiveTime = .ok ⟨true, context, buf⟩ := by
  have none : findCLRF buf = none := free
  apply parseRequest_last (s := { hasMore := false, context, buf })
  · rfl
  · rcases expects with state | state <;> simp [parsePass, state, none]

/-- What a call consumes is whole lines. -/
theorem parseRequest_consumes {context : HttpContext} {buf : Bytes} {receiveTime : Timestamp}
    {parsed : Parsed} (call : parseRequest context buf receiveTime = .ok parsed) :
    ∃ removed, buf = removed ++ parsed.buf ∧ (removed = [] ∨ kCLRF <:+ removed) := by
  have first : ∀ line rest left : Bytes,
      (∃ removed, rest = removed ++ left ∧ (removed = [] ∨ kCLRF <:+ removed)) →
        ∃ removed, line ++ CR :: LF :: rest = removed ++ left ∧
          (removed = [] ∨ kCLRF <:+ removed) := by
    rintro line rest left ⟨removed, rfl, whole⟩
    refine ⟨line ++ (kCLRF ++ removed), by simp [kCLRF], Or.inr ?_⟩
    apply List.IsSuffix.trans _ (List.suffix_append _ _)
    rcases whole with rfl | ends
    · simp
    · exact ends.trans (List.suffix_append _ _)
  induction size : buf.length using Nat.strong_induction_on generalizing buf context with
  | _ n ih =>
    have expects : context.Expects := by
      by_contra idle
      rw [(parseRequest_spins_iff context buf receiveTime).mpr idle] at call
      cases call
    rcases line_cases buf with free | ⟨line, rest, free, rfl⟩
    · rw [parseRequest_noLine context expects free] at call
      cases call
      exact ⟨[], rfl, Or.inl rfl⟩
    have shorter : rest.length < n := by
      simp only [← size, List.length_append, List.length_cons]
      omega
    obtain ⟨state, request⟩ := context
    rcases expects with rfl | rfl
    · cases evaluated : processRequestLine request line with
      | error halt =>
        rw [parseRequest_halted free rest request receiveTime halt evaluated] at call
        cases call
      | ok result =>
        obtain ⟨ok, next⟩ := result
        cases ok with
        | false =>
          rw [parseRequest_rejected free rest request receiveTime next evaluated] at call
          cases call
          exact ⟨[], rfl, Or.inl rfl⟩
        | true =>
          rw [parseRequest_requestLine free rest request receiveTime next evaluated] at call
          exact first line rest _ (ih rest.length shorter call rfl)
    · by_cases named : COLON ∈ line
      · rw [parseRequest_header free rest request receiveTime named] at call
        exact first line rest _ (ih rest.length shorter call rfl)
      · rw [parseRequest_blank free rest request receiveTime named] at call
        cases call
        exact first line rest rest ⟨[], rfl, Or.inl rfl⟩

/-- The bytes begin with an empty line, or end with one after a line. -/
def BlankAhead (buf : Bytes) : Prop := kCLRF <+: buf ∨ kCLRF ++ kCLRF <:+ buf

/-- Bytes that end in an empty line have one ahead after each of their lines. -/
theorem blankAhead_rest {line rest : Bytes} (free : LineFree line)
    (ends : kCLRF ++ kCLRF <:+ line ++ CR :: LF :: rest) : BlankAhead rest := by
  obtain ⟨before, same⟩ := ends
  have apart : LF ≠ CR := by decide
  rcases List.append_eq_append_iff.mp same with ⟨cut, longer, split⟩ | ⟨cut, shorter, split⟩
  · match cut with
    | [] =>
      simp only [kCLRF, List.cons_append, List.nil_append, List.cons.injEq, true_and] at split
      exact Or.inl ⟨[], by rw [← split]; rfl⟩
    | [x] =>
      simp only [kCLRF, List.cons_append, List.nil_append, List.cons.injEq] at split
      exact absurd split.2.1 apart
    | [x, y] =>
      simp only [kCLRF, List.cons_append, List.nil_append, List.cons.injEq] at split
      obtain ⟨rfl, rfl, -⟩ := split
      rw [longer] at free
      exact absurd free (Lines.not_free_of_suffix before)
    | x :: y :: z :: cut =>
      have length := congrArg List.length split
      simp only [kCLRF, List.length_append, List.length_cons, List.length_nil] at length
      omega
  · match cut with
    | [] =>
      simp only [kCLRF, List.cons_append, List.nil_append, List.cons.injEq, true_and] at split
      exact Or.inl ⟨[], by rw [split]; rfl⟩
    | [x] =>
      simp only [kCLRF, List.cons_append, List.nil_append, List.cons.injEq] at split
      exact absurd split.2.1 apart
    | x :: y :: cut =>
      simp only [List.cons_append, List.cons.injEq] at split
      exact Or.inr ⟨cut, split.2.2.symm⟩

theorem not_lineFree_of_blankAhead {buf : Bytes} (ahead : BlankAhead buf) : ¬ LineFree buf := by
  intro free
  rcases ahead with ⟨rest, rfl⟩ | ⟨before, rfl⟩
  · have found := findCLRF_line (show LineFree [] from rfl) rest
    rw [List.nil_append] at found
    rw [show findCLRF (CR :: LF :: rest) = none from free] at found
    cases found
  · rw [← List.append_assoc] at free
    exact Lines.not_free_of_suffix _ free

/-- With an empty line ahead the header section always ends. -/
theorem parseRequest_ends (request : HttpRequest) (buf : Bytes) (receiveTime : Timestamp)
    (ahead : BlankAhead buf) :
    ∃ got rest, parseRequest ⟨.kExpectHeaders, request⟩ buf receiveTime =
      .ok ⟨true, ⟨.kGotAll, got⟩, rest⟩ := by
  induction size : buf.length using Nat.strong_induction_on generalizing buf request with
  | _ n ih =>
    rcases line_cases buf with free | ⟨line, rest, free, rfl⟩
    · exact absurd free (not_lineFree_of_blankAhead ahead)
    · by_cases named : COLON ∈ line
      · rw [parseRequest_header free rest request receiveTime named]
        have later : BlankAhead rest := by
          rcases ahead with ⟨more, same⟩ | ends
          · have found := findCLRF_line free rest
            have atOnce := findCLRF_line (show LineFree [] from rfl) more
            rw [← same] at found
            rw [List.nil_append] at atOnce
            have empty : line.length = 0 := Option.some.inj (found.symm.trans atOnce)
            rw [List.eq_nil_of_length_eq_zero empty] at named
            cases named
          · exact blankAhead_rest free ends
        apply ih rest.length _ _ rest later rfl
        simp only [← size, List.length_append, List.length_cons]
        omega
      · exact ⟨request, rest, parseRequest_blank free rest request receiveTime named⟩

end RabbitServer.Http
