import RabbitServer.Http.HttpContext

/-! A parse taken up again where the bytes ran out: how a message is divided into chunks
makes no difference. -/

namespace RabbitServer.Http
open RabbitServer.Net

/-- A call of `parseRequest` that returned true and still waits for bytes. -/
def Parsed.goesOn (parsed : Parsed) : Bool := parsed.ok && !parsed.context.gotAll

/-- What a call determines but for the receive time. -/
def Parsed.outcome (parsed : Parsed) :
    Bool × HttpRequestParseState × (Method × Version × Bytes × Bytes × HeaderMap) × Bytes :=
  (parsed.ok, parsed.context.state, parsed.context.request.content, parsed.buf)

/-- Two calls differ in the receive time at most. -/
def Agree (first second : Except Halt Parsed) : Prop :=
  first.map Parsed.outcome = second.map Parsed.outcome

theorem Agree.trans {first second third : Except Halt Parsed} (one : Agree first second)
    (two : Agree second third) : Agree first third := Eq.trans one two

/-- The bytes that arrive later, after a call that needed none of them. -/
def Parsed.append (parsed : Parsed) (more : Bytes) : Parsed :=
  { parsed with buf := parsed.buf ++ more }

/-- The contexts a message is parsed from: nothing of the request line is set yet, or all
of it is. -/
def HttpContext.Ready (context : HttpContext) : Prop :=
  context.state = .kExpectRequestLine ∧ context.request.method = .kInvalid ∨
    context.state = .kExpectHeaders

theorem HttpContext.Ready.expects {context : HttpContext} (ready : context.Ready) :
    context.Expects := ready.imp_left And.left

theorem eq_of_content {request other : HttpRequest} (same : request.content = other.content) :
    other = request.setReceiveTime other.receiveTime := by
  cases request
  cases other
  simp only [HttpRequest.content, Prod.mk.injEq] at same
  obtain ⟨rfl, rfl, rfl, rfl, rfl⟩ := same
  rfl

theorem setTarget_setReceiveTime (request : HttpRequest) (target : Bytes) (time : Timestamp) :
    setTarget (request.setReceiveTime time) target =
      (setTarget request target).setReceiveTime time := by
  simp only [setTarget]
  split <;> rfl

theorem setVersionOf_setReceiveTime (request : HttpRequest) (version : Bytes) (time : Timestamp) :
    setVersionOf (request.setReceiveTime time) version =
      ((setVersionOf request version).1,
        (setVersionOf request version).2.setReceiveTime time) := by
  simp only [setVersionOf]
  split_ifs <;> rfl

theorem setMethod_setReceiveTime (request : HttpRequest) (token : Bytes) (time : Timestamp) :
    (request.setReceiveTime time).setMethod token =
      (request.setMethod token).map fun result => (result.1, result.2.setReceiveTime time) := by
  by_cases unset : request.method = .kInvalid
  · simp [HttpRequest.setMethod, HttpRequest.setReceiveTime, unset, Except.map]
  · simp [HttpRequest.setMethod, HttpRequest.setReceiveTime, unset, Except.map]

/-- The request line is evaluated without a look at the receive time. -/
theorem processRequestLine_setReceiveTime (request : HttpRequest) (line : Bytes)
    (time : Timestamp) :
    processRequestLine (request.setReceiveTime time) line =
      (processRequestLine request line).map fun result =>
        (result.1, result.2.setReceiveTime time) := by
  simp only [processRequestLine, setMethod_setReceiveTime]
  split
  next =>
    cases request.setMethod (line.take (line.idxOf SP)) with
    | error halt => rfl
    | ok result =>
      obtain ⟨known, next⟩ := result
      cases known with
      | false => rfl
      | true =>
        simp only [Except.map, setTarget_setReceiveTime, setVersionOf_setReceiveTime]
        split <;> rfl
  next => rfl

theorem addHeader_setReceiveTime (request : HttpRequest) (line : Bytes) (colon : Nat)
    (time : Timestamp) :
    (request.setReceiveTime time).addHeader line colon =
      (request.addHeader line colon).setReceiveTime time := rfl

/-- The header section is parsed the same at any time. -/
theorem parseRequest_headers_agree (request : HttpRequest) (buf : Bytes)
    (first second time : Timestamp) :
    Agree (parseRequest ⟨.kExpectHeaders, request⟩ buf first)
      (parseRequest ⟨.kExpectHeaders, request.setReceiveTime time⟩ buf second) := by
  induction size : buf.length using Nat.strong_induction_on generalizing buf request with
  | _ n ih =>
    rcases line_cases buf with free | ⟨line, rest, free, rfl⟩
    · rw [parseRequest_noLine _ (Or.inr rfl) free, parseRequest_noLine _ (Or.inr rfl) free]
      rfl
    · by_cases named : COLON ∈ line
      · rw [parseRequest_header free rest request first named,
          parseRequest_header free rest _ second named, addHeader_setReceiveTime]
        apply ih rest.length _ _ rest rfl
        simp only [← size, List.length_append, List.length_cons]
        omega
      · rw [parseRequest_blank free rest request first named,
          parseRequest_blank free rest _ second named]
        rfl

/-- A parse does not depend on any receive time. -/
theorem parseRequest_agree {context other : HttpContext} (state : context.state = other.state)
    (content : context.request.content = other.request.content) (buf : Bytes)
    (first second : Timestamp) :
    Agree (parseRequest context buf first) (parseRequest other buf second) := by
  obtain ⟨state', request⟩ := context
  obtain ⟨_, other⟩ := other
  cases state
  have same := eq_of_content content
  generalize other.receiveTime = time at same
  subst same
  cases state' with
  | kExpectHeaders => exact parseRequest_headers_agree request buf first second time
  | kExpectBody =>
    rw [(parseRequest_spins_iff _ buf first).mpr (by simp [HttpContext.Expects]),
      (parseRequest_spins_iff _ buf second).mpr (by simp [HttpContext.Expects])]
    rfl
  | kGotAll =>
    rw [(parseRequest_spins_iff _ buf first).mpr (by simp [HttpContext.Expects]),
      (parseRequest_spins_iff _ buf second).mpr (by simp [HttpContext.Expects])]
    rfl
  | kExpectRequestLine =>
    rcases line_cases buf with free | ⟨line, rest, free, rfl⟩
    · rw [parseRequest_noLine _ (Or.inl rfl) free, parseRequest_noLine _ (Or.inl rfl) free]
      rfl
    · have timed := processRequestLine_setReceiveTime request line time
      cases evaluated : processRequestLine request line with
      | error halt =>
        rw [evaluated] at timed
        rw [parseRequest_halted free rest request first halt evaluated,
          parseRequest_halted free rest _ second halt timed]
        rfl
      | ok result =>
        rw [evaluated] at timed
        obtain ⟨ok, next⟩ := result
        cases ok with
        | false =>
          rw [parseRequest_rejected free rest request first next evaluated,
            parseRequest_rejected free rest _ second _ timed]
          rfl
        | true =>
          rw [parseRequest_requestLine free rest request first next evaluated,
            parseRequest_requestLine free rest _ second _ timed]
          exact parseRequest_headers_agree _ rest first second second

/-- What a first call makes of some of the bytes: it stops for good, or leaves a context
the message goes on from. -/
structure Parsed.Splits (parsed : Parsed) (context : HttpContext) (buf more : Bytes)
    (time : Timestamp) : Prop where
  result : parseRequest context buf time = .ok parsed
  resumes : parsed.goesOn = true → parsed.context.Ready ∧
    parseRequest parsed.context (parsed.buf ++ more) time = parseRequest context (buf ++ more) time
  stops : parsed.goesOn = false →
    parseRequest context (buf ++ more) time = .ok (parsed.append more)

/-- Without a line end nothing is taken. -/
theorem parseRequest_waits {context : HttpContext} (ready : context.Ready) {buf : Bytes}
    (free : LineFree buf) (more : Bytes) (time : Timestamp) :
    Parsed.Splits ⟨true, context, buf⟩ context buf more time where
  result := parseRequest_noLine context ready.expects free time
  resumes _ := ⟨ready, rfl⟩
  stops stopped := by
    rcases ready.expects with state | state <;>
      simp [Parsed.goesOn, HttpContext.gotAll, state] at stopped

/-- A line that is taken leaves the rest to split. -/
theorem Parsed.Splits.of_rest {parsed : Parsed} {context next : HttpContext}
    {buf rest more : Bytes} {time : Timestamp} (splits : parsed.Splits next rest more time)
    (first : parseRequest context buf time = parseRequest next rest time)
    (all : parseRequest context (buf ++ more) time = parseRequest next (rest ++ more) time) :
    parsed.Splits context buf more time where
  result := first.trans splits.result
  resumes goesOn := by
    rw [all]
    exact splits.resumes goesOn
  stops stopped := all.trans (splits.stops stopped)

theorem parseRequest_split {context : HttpContext} (ready : context.Ready) (buf more : Bytes)
    (time : Timestamp) : ∃ parsed : Parsed, parsed.Splits context buf more time := by
  induction size : buf.length using Nat.strong_induction_on generalizing buf context with
  | _ n ih =>
    obtain ⟨state, request⟩ := context
    rcases line_cases buf with free | ⟨line, rest, free, rfl⟩
    · exact ⟨_, parseRequest_waits ready free more time⟩
    have shorter : rest.length < n := by
      simp only [← size, List.length_append, List.length_cons]
      omega
    have joined : line ++ CR :: LF :: rest ++ more = line ++ CR :: LF :: (rest ++ more) := by
      rw [List.append_assoc, List.cons_append, List.cons_append]
    rcases ready with ⟨rfl, unset⟩ | headers
    · obtain ⟨ok, next, evaluated, -⟩ := processRequestLine_method request unset line
      cases ok with
      | false =>
        refine ⟨_, parseRequest_rejected free rest request time next evaluated, nofun, ?_⟩
        intro _
        rw [joined, parseRequest_rejected free (rest ++ more) request time next evaluated,
          Parsed.append, joined]
      | true =>
        have later : HttpContext.Ready ⟨.kExpectHeaders, next.setReceiveTime time⟩ := Or.inr rfl
        obtain ⟨parsed, splits⟩ := ih rest.length shorter later rest rfl
        refine ⟨parsed, splits.of_rest ?_ ?_⟩
        · exact parseRequest_requestLine free rest request time next evaluated
        · rw [joined]
          exact parseRequest_requestLine free (rest ++ more) request time next evaluated
    · simp only at headers
      subst headers
      by_cases named : COLON ∈ line
      · have later : HttpContext.Ready
            ⟨.kExpectHeaders, request.addHeader line (line.idxOf COLON)⟩ := Or.inr rfl
        obtain ⟨parsed, splits⟩ := ih rest.length shorter later rest rfl
        refine ⟨parsed, splits.of_rest ?_ ?_⟩
        · exact parseRequest_header free rest request time named
        · rw [joined]
          exact parseRequest_header free (rest ++ more) request time named
      · refine ⟨_, parseRequest_blank free rest request time named, nofun, ?_⟩
        intro _
        rw [joined, parseRequest_blank free (rest ++ more) request time named]
        rfl

/-- A chunk, and when it was received. -/
structure Chunk where
  data : Bytes
  receiveTime : Timestamp

/-- One more chunk: it is parsed with what is unread while the message is not complete. -/
def Parsed.feed (parsed : Parsed) (chunk : Chunk) : Except Halt Parsed :=
  if parsed.goesOn then parseRequest parsed.context (parsed.buf ++ chunk.data) chunk.receiveTime
  else .ok (parsed.append chunk.data)

/-- All chunks, from before the first of them. -/
def parseChunks (context : HttpContext) (chunks : List Chunk) : Except Halt Parsed :=
  chunks.foldlM Parsed.feed ⟨true, context, []⟩

theorem agree_ok {parsed other : Parsed} (same : parsed.outcome = other.outcome) :
    Agree (.ok parsed) (.ok other) := congrArg Except.ok same

theorem agree_ok_iff {parsed other : Parsed} :
    Agree (.ok parsed) (.ok other) ↔ parsed.outcome = other.outcome :=
  ⟨Except.ok.inj, agree_ok⟩

theorem outcome_fields {parsed other : Parsed} (same : parsed.outcome = other.outcome) :
    parsed.goesOn = other.goesOn ∧ parsed.context.state = other.context.state ∧
      parsed.context.request.content = other.context.request.content ∧ parsed.buf = other.buf := by
  simp only [Parsed.outcome, Prod.mk.injEq] at same
  obtain ⟨ok, state, content, buf⟩ := same
  exact ⟨by simp [Parsed.goesOn, HttpContext.gotAll, ok, state], state, content, buf⟩

theorem outcome_append {parsed other : Parsed} (same : parsed.outcome = other.outcome)
    (more : Bytes) : (parsed.append more).outcome = (other.append more).outcome := by
  simp only [Parsed.outcome, Prod.mk.injEq] at same ⊢
  obtain ⟨ok, state, content, buf⟩ := same
  exact ⟨ok, state, content, congrArg (· ++ more) buf⟩

/-- What has been made of some bytes at one time and another, fed with one more chunk, is
what is made of them together. -/
theorem feed_agree {context : HttpContext} (ready : context.Ready) {parsed : Parsed} {buf : Bytes}
    {time : Timestamp} (agree : Agree (.ok parsed) (parseRequest context buf time))
    (chunk : Chunk) :
    Agree (parsed.feed chunk) (parseRequest context (buf ++ chunk.data) time) := by
  obtain ⟨whole, result, resumes, stops⟩ := parseRequest_split ready buf chunk.data time
  rw [result] at agree
  have same := agree_ok_iff.mp agree
  obtain ⟨goesOn, state, content, unread⟩ := outcome_fields same
  unfold Parsed.feed
  split
  next more =>
    rw [← (resumes (goesOn ▸ more)).2, unread]
    exact parseRequest_agree state content _ _ _
  next done =>
    rw [stops (by rw [← goesOn]; simpa using done)]
    exact agree_ok (outcome_append same chunk.data)

theorem chunks_agree {context : HttpContext} (ready : context.Ready) {parsed : Parsed}
    {buf : Bytes} {time : Timestamp} (agree : Agree (.ok parsed) (parseRequest context buf time))
    (chunks : List Chunk) :
    Agree (chunks.foldlM Parsed.feed parsed)
      (parseRequest context (buf ++ (chunks.map Chunk.data).flatten) time) := by
  induction chunks generalizing parsed buf with
  | nil =>
    rw [List.map_nil, List.flatten_nil, List.append_nil]
    exact agree
  | cons chunk rest ih =>
    have fed := feed_agree ready agree chunk
    obtain ⟨whole, result, -⟩ := parseRequest_split ready (buf ++ chunk.data) [] time
    rw [List.foldlM_cons, List.map_cons, List.flatten_cons, ← List.append_assoc]
    cases next : parsed.feed chunk with
    | error halt =>
      rw [next, result] at fed
      cases fed
    | ok after =>
      rw [next] at fed
      exact ih fed

/-- Incremental parsing is one-shot parsing: a call that needs more bytes is taken up by the
next one, a call that needs no more leaves them unread, and no division into chunks makes a
difference. -/
theorem parseRequest_incremental (context : HttpContext) (ready : context.Ready)
    (s1 s2 : Bytes) (first second once : Timestamp) :
    (∃ parsed whole, parseRequest context s1 first = .ok parsed ∧
      parseRequest context (s1 ++ s2) once = .ok whole ∧
      (parsed.ok = true ∧ parsed.context.state ≠ .kGotAll →
        ∃ resumed, parseRequest parsed.context (parsed.buf ++ s2) second = .ok resumed ∧
          resumed.outcome = whole.outcome) ∧
      (parsed.ok = false ∨ parsed.context.state = .kGotAll →
        whole.outcome = (parsed.append s2).outcome)) ∧
    ∀ chunks : List Chunk,
      Agree (parseChunks context chunks)
        (parseRequest context (chunks.map Chunk.data).flatten once) := by
  constructor
  · obtain ⟨parsed, result, resumes, stops⟩ := parseRequest_split ready s1 s2 first
    obtain ⟨whole, together, -⟩ := parseRequest_split ready (s1 ++ s2) [] once
    have anyTime : Agree (parseRequest context (s1 ++ s2) first)
        (parseRequest context (s1 ++ s2) once) := parseRequest_agree rfl rfl _ _ _
    refine ⟨parsed, whole, result, together, ?_, ?_⟩
    · intro waits
      have goesOn : parsed.goesOn = true := by
        simp [Parsed.goesOn, HttpContext.gotAll, waits.1, waits.2]
      obtain ⟨ready, resumed⟩ := resumes goesOn
      obtain ⟨next, continued, -⟩ := parseRequest_split ready (parsed.buf ++ s2) [] second
      refine ⟨next, continued, ?_⟩
      have later : Agree (parseRequest parsed.context (parsed.buf ++ s2) second)
          (parseRequest parsed.context (parsed.buf ++ s2) first) := parseRequest_agree rfl rfl _ _ _
      have agree := later.trans (resumed ▸ anyTime)
      rw [continued, together] at agree
      exact agree_ok_iff.mp agree
    · intro done
      have stopped : parsed.goesOn = false := by
        rcases done with refused | got
        · simp [Parsed.goesOn, refused]
        · simp [Parsed.goesOn, HttpContext.gotAll, got]
      rw [stops stopped, together] at anyTime
      exact (agree_ok_iff.mp anyTime).symm
  · intro chunks
    have start : parseRequest context [] once = .ok ⟨true, context, []⟩ :=
      parseRequest_noLine context ready.expects (show LineFree [] from rfl) once
    have agree : Agree (.ok ⟨true, context, []⟩) (parseRequest context [] once) := by
      rw [start]
      rfl
    exact chunks_agree ready agree chunks

/-- A request cut between CR and LF. -/
theorem parseRequest_incremental_cut :
    ∃ parsed whole, parseRequest {} (ascii "GET / HTTP/1.1
") 1 = .ok parsed ∧
      parseRequest {} (ascii "GET / HTTP/1.1
" ++ ascii "

") 3 = .ok whole ∧
      (parsed.ok = true ∧ parsed.context.state ≠ .kGotAll →
        ∃ resumed, parseRequest parsed.context (parsed.buf ++ ascii "

") 2 = .ok resumed ∧
          resumed.outcome = whole.outcome) ∧
      (parsed.ok = false ∨ parsed.context.state = .kGotAll →
        whole.outcome = (parsed.append (ascii "

")).outcome) :=
  (parseRequest_incremental {} (Or.inl ⟨rfl, rfl⟩) _ _ 1 2 3).1

end RabbitServer.Http
