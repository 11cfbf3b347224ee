import RabbitServer.Http.Incremental
import RabbitServer.Library.Runs

/-! Two parsers on the same bytes. `reset` leaves the version of the last request behind, and
nothing can be seen of it in the next one. -/

namespace RabbitServer.Http
open RabbitServer.Net Library.Runs Library.Loop

/-- The contexts a connection can have come to. -/
inductive Reached : HttpContext → Prop where
  | fresh : Reached {}
  | parsed {context : HttpContext} (reached : Reached context) {buf : Bytes}
      {receiveTime : Timestamp} {parsed : Parsed}
      (call : parseRequest context buf receiveTime = .ok parsed) : Reached parsed.context
  | reset {context : HttpContext} (reached : Reached context) (got : context.gotAll = true) :
      Reached context.reset

/-- A context for the next request: a fresh one, or one that was reset after a request. -/
def Renewed (context : HttpContext) : Prop :=
  context = {} ∨ ∃ before, Reached before ∧ before.gotAll = true ∧ context = before.reset

/-- A parser with its unread bytes, and what its last call came to. -/
structure Parser where
  returned : Except Halt Bool := .ok true
  context : HttpContext
  buf : Bytes

/-- More bytes arrive and `parseRequest` is called, or a request is taken out. -/
inductive Feeding where
  | chunk (c : Chunk)
  | reset

/-- After a call that did not return nothing happens any more. -/
def Parser.step (p : Parser) (feeding : Feeding) : Parser :=
  match p.returned with
  | .error _ => p
  | .ok _ =>
    match feeding with
    | .chunk c =>
      match parseRequest p.context (p.buf ++ c.data) c.receiveTime with
      | .error halt => { p with returned := .error halt }
      | .ok parsed => ⟨.ok parsed.ok, parsed.context, parsed.buf⟩
    | .reset => if p.context.gotAll then { p with context := p.context.reset } else p

/-- Equal but for the version, and that only while a request line is expected. -/
structure HttpContext.Alike (context other : HttpContext) : Prop where
  state : other.state = context.state
  request : other.request = context.request.setVersion other.request.version
  version : context.state ≠ .kExpectRequestLine →
    other.request.version = context.request.version

structure Parser.Alike (p q : Parser) : Prop where
  returned : q.returned = p.returned
  buf : q.buf = p.buf
  context : p.context.Alike q.context

section
variable {context other : HttpContext}

theorem HttpContext.Alike.eq (alike : context.Alike other)
    (behind : context.state ≠ .kExpectRequestLine) : other = context := by
  obtain ⟨state, request⟩ := context
  obtain ⟨_, others⟩ := other
  obtain ⟨rfl, same, version⟩ := alike
  simp only at same version
  rw [same, version behind]
  rfl

theorem HttpContext.Alike.refl (context : HttpContext) : context.Alike context :=
  ⟨rfl, rfl, fun _ => rfl⟩

/-- Nothing but the version survives a reset. -/
theorem renewed_eq (renewed : Renewed context) :
    context = ⟨.kExpectRequestLine, { version := context.request.version }⟩ := by
  rcases renewed with rfl | ⟨before, -, -, rfl⟩
  · rfl
  · rfl

theorem alike_renewed (renewed : Renewed context) (otherRenewed : Renewed other) :
    context.Alike other := by
  rw [renewed_eq renewed, renewed_eq otherRenewed]
  exact ⟨rfl, rfl, fun behind => absurd rfl behind⟩

/-- What one call and the other return and leave. -/
structure Parsed.Alike (parsed other : Parsed) : Prop where
  ok : other.ok = parsed.ok
  buf : other.buf = parsed.buf
  context : parsed.context.Alike other.context

theorem ends_alike_refl (result : Except Halt Parsed) : Ends Parsed.Alike Eq result result := by
  cases result with
  | error halt => rfl
  | ok parsed => exact ⟨rfl, rfl, .refl _⟩

/-- Where the version may differ, the line that is read next either is accepted and sets it,
or leaves both contexts where they are. -/
theorem parseRequest_alike (alike : context.Alike other) (buf : Bytes) (receiveTime : Timestamp) :
    Ends Parsed.Alike Eq (parseRequest context buf receiveTime)
      (parseRequest other buf receiveTime) := by
  by_cases expecting : context.state = .kExpectRequestLine
  · obtain ⟨state, request⟩ := context
    obtain ⟨otherState, otherRequest⟩ := other
    obtain ⟨rfl, same, -⟩ := alike
    simp only at expecting same
    generalize otherRequest.version = version at same
    subst expecting same
    rcases line_cases buf with free | ⟨line, rest, free, rfl⟩
    · rw [parseRequest_noLine _ (Or.inl rfl) free, parseRequest_noLine _ (Or.inl rfl) free]
      exact ⟨rfl, rfl, rfl, rfl, fun behind => absurd rfl behind⟩
    · have evaluated := processRequestLine_setVersion request line version
      cases result : processRequestLine request line with
      | error halt =>
        rw [result] at evaluated
        rw [parseRequest_halted free rest request receiveTime halt result,
          parseRequest_halted free rest _ receiveTime halt evaluated]
        rfl
      | ok outcome =>
        rw [result] at evaluated
        obtain ⟨ok, next⟩ := outcome
        cases ok with
        | false =>
          rw [parseRequest_rejected free rest request receiveTime next result,
            parseRequest_rejected free rest _ receiveTime _ evaluated]
          exact ⟨rfl, rfl, rfl, rfl, fun behind => absurd rfl behind⟩
        | true =>
          rw [parseRequest_requestLine free rest request receiveTime next result,
            parseRequest_requestLine free rest _ receiveTime next evaluated]
          exact ends_alike_refl _
  · rw [alike.eq expecting]
    exact ends_alike_refl _

end

theorem Parser.Alike.step {p q : Parser} (alike : p.Alike q) (feeding : Feeding) :
    (p.step feeding).Alike (q.step feeding) := by
  obtain ⟨_, context, _⟩ := p
  obtain ⟨last, other, buf⟩ := q
  obtain ⟨rfl, rfl, same⟩ := alike
  simp only at same
  cases last with
  | error halt => exact ⟨rfl, rfl, same⟩
  | ok ok =>
    cases feeding with
    | chunk c =>
      have parsed := parseRequest_alike same (buf ++ c.data) c.receiveTime
      obtain ⟨result, result', first, second, ok', left, contexts⟩ |
        ⟨halt, _, first, second, rfl⟩ := parsed.cases
      · simp only [Parser.step, first, second]
        exact ⟨congrArg Except.ok ok', left, contexts⟩
      · simp only [Parser.step, first, second]
        exact ⟨rfl, rfl, same⟩
    | reset =>
      simp only [Parser.step]
      have got : other.gotAll = context.gotAll := by simp [HttpContext.gotAll, same.state]
      rw [got]
      split
      next => exact ⟨rfl, rfl, rfl, rfl, fun behind => absurd rfl behind⟩
      next => exact ⟨rfl, rfl, same⟩

/-- Requests on a connection are parsed as they would be on any other: what came before them
can be seen neither in what the calls return and leave unread nor in the requests. -/
theorem requests_isolated (first second : HttpContext) (renewed : Renewed first)
    (otherRenewed : Renewed second) (unread : Bytes) (feedings : List Feeding) :
    let p := run Parser.step { context := first, buf := unread } feedings
    let q := run Parser.step { context := second, buf := unread } feedings
    p.returned = q.returned ∧ p.context.state = q.context.state ∧ p.buf = q.buf ∧
      (p.context.gotAll = true → p.context.request = q.context.request) := by
  have alike : ∀ p q : Parser, p.Alike q →
      (run Parser.step p feedings).Alike (run Parser.step q feedings) := by
    induction feedings with
    | nil => exact fun p q alike => alike
    | cons feeding rest ih => exact fun p q alike => ih _ _ (alike.step feeding)
  obtain ⟨returned, buf, contexts⟩ := alike { context := first, buf := unread }
    { context := second, buf := unread } ⟨rfl, rfl, alike_renewed renewed otherRenewed⟩
  refine ⟨returned.symm, contexts.state.symm, buf.symm, ?_⟩
  intro got
  have behind : (run Parser.step { context := first, buf := unread } feedings).context.state ≠
      .kExpectRequestLine := by
    rw [of_decide_eq_true got]
    decide
  rw [contexts.eq behind]

/-- The second context has been reset after a request with version 1.0. -/
theorem requests_isolated_http10 :
    let p := run Parser.step { context := {}, buf := [] } [.chunk ⟨ascii "GET", 7⟩]
    let q := run Parser.step
      { context := ⟨.kExpectRequestLine, { version := .kHttp10 }⟩, buf := [] }
      [.chunk ⟨ascii "GET", 7⟩]
    p.returned = q.returned ∧ p.context.state = q.context.state ∧ p.buf = q.buf ∧
      (p.context.gotAll = true → p.context.request = q.context.request) := by
  apply requests_isolated {} ⟨.kExpectRequestLine, { version := .kHttp10 }⟩ (Or.inl rfl)
  have call : parseRequest {} (ascii "GET / HTTP/1.0\r\n\r\n") 0 =
      .ok ⟨true, ⟨.kGotAll, { method := .kGet, version := .kHttp10, path := ascii "/" }⟩, []⟩ := by
    decide +kernel
  exact Or.inr ⟨_, .parsed .fresh call, rfl, rfl⟩

end RabbitServer.Http
