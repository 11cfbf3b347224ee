import RabbitServer.Http.HttpContext
import RabbitServer.Http.HttpResponse
import RabbitServer.Net.TcpConnection

/-! `HTTP/HttpServer.cpp`: `onMessage` and `onRequest`. The connection is seen through
the calls made on it, in order; the buffer is a FIFO byte queue. -/

namespace RabbitServer.Http
open RabbitServer.Net

abbrev HttpCallback := HttpRequest → HttpResponse → HttpResponse

def defaultHttpCallback : HttpCallback := fun _ response =>
  { response with
    statusCode := .k404NotFound
    statusMessage := ascii "Not Found"
    closeConnection := true }

def badRequest : Bytes := ascii "HTTP/1.1 400 Bad Request\r\n\r\n"

/-- What a call of `onMessage` depends on besides the context and the buffer: the bytes
that stand before `peek()`, the receive time, and what the callback does this time. -/
structure Message where
  stale : Bytes := []
  receiveTime : Timestamp := 0
  httpCallback : HttpCallback := defaultHttpCallback

/-- `strncmp(peek() + readbleBytes() - 4, "\r\n\r\n", 4) == 0`: with less than four
unread bytes the comparison begins in the bytes before `peek()`. -/
def tailComplete (stale buf : Bytes) : Bool :=
  (stale ++ buf).drop ((stale ++ buf).length - 4) = kCLRF ++ kCLRF

/-- The response the callback fills in; it starts out closing as the request asks. -/
def responseTo (httpCallback : HttpCallback) (request : HttpRequest) : HttpResponse :=
  let connection := request.getHeader (ascii "Connection")
  let close := connection = ascii "close" ||
    (request.version = .kHttp10 && connection ≠ ascii "Keep-Alive")
  httpCallback request { closeConnection := close }

def onRequest (httpCallback : HttpCallback) (request : HttpRequest) : List ConnCall :=
  let response := responseTo httpCallback request
  .send (response.appendToBuffer []) ::
    if response.closeConnection then [.closeConnection] else []

/-- The context and the unread bytes after a call of `onMessage`, whether it answered
400, the request it passed to `httpCallback_`, and its calls on the connection. -/
structure Handled where
  context : HttpContext
  buf : Bytes
  refused : Bool := false
  request : Option HttpRequest := none
  calls : List ConnCall := []

def onMessage (context : HttpContext) (buf : Bytes) (message : Message) : Except Halt Handled :=
  if tailComplete message.stale buf then
    match parseRequest context buf message.receiveTime with
    | .error halt => .error halt
    | .ok parsed =>
      let refused := !parsed.ok
      let answer := if refused then [.send badRequest, .closeConnection] else []
      if parsed.context.gotAll then
        .ok {
          context := parsed.context.reset
          buf := parsed.buf
          refused
          request := some parsed.context.request
          calls := answer ++ onRequest message.httpCallback parsed.context.request }
      else .ok { context := parsed.context, buf := parsed.buf, refused, calls := answer }
  else .ok { context, buf }

theorem tailComplete_of_suffix (stale buf : Bytes) (ends : kCLRF ++ kCLRF <:+ buf) :
    tailComplete stale buf = true := by
  obtain ⟨before, rfl⟩ := ends
  have position : (stale ++ (before ++ (kCLRF ++ kCLRF))).length - 4 =
      (stale ++ before).length := by
    simp only [List.length_append, show (kCLRF ++ kCLRF).length = 4 from rfl]
    omega
  simp only [tailComplete, decide_eq_true_eq]
  rw [position, ← List.append_assoc, List.drop_left]

/-- With four unread bytes the comparison is about them. -/
theorem tailComplete_suffix {stale buf : Bytes} (complete : tailComplete stale buf = true)
    (long : 4 ≤ buf.length) : kCLRF ++ kCLRF <:+ buf := by
  have tail : (stale ++ buf).drop ((stale ++ buf).length - 4) = kCLRF ++ kCLRF := by
    simpa [tailComplete] using complete
  have own : (stale ++ buf).drop ((stale ++ buf).length - 4) = buf.drop (buf.length - 4) := by
    rw [List.drop_append, List.drop_eq_nil_of_le (by simp only [List.length_append]; omega),
      List.nil_append]
    congr 1
    simp only [List.length_append]
    omega
  rw [← tail, own]
  exact List.drop_suffix _ _

/-- With four unread bytes it does not matter what stands before them. -/
theorem tailComplete_unread (stale other : Bytes) {buf : Bytes} (long : 4 ≤ buf.length) :
    tailComplete stale buf = tailComplete other buf := by
  rw [Bool.eq_iff_iff]
  constructor
  · exact fun complete => tailComplete_of_suffix other buf (tailComplete_suffix complete long)
  · exact fun complete => tailComplete_of_suffix stale buf (tailComplete_suffix complete long)

/-- What a call of `onMessage` can do while a request line is expected: nothing, without a
complete tail or a line; stop in `setMethod`; answer 400 and leave the line unread; or
pass on one request. -/
theorem onMessage_cases (request : HttpRequest) (buf : Bytes) (message : Message) :
    ((tailComplete message.stale buf = false ∨ LineFree buf) ∧
      onMessage ⟨.kExpectRequestLine, request⟩ buf message =
        .ok { context := ⟨.kExpectRequestLine, request⟩, buf }) ∨
    (tailComplete message.stale buf = true ∧ ∃ line rest, LineFree line ∧
      buf = line ++ CR :: LF :: rest ∧
      ((∃ halt, processRequestLine request line = .error halt ∧
          onMessage ⟨.kExpectRequestLine, request⟩ buf message = .error halt) ∨
        (∃ next, processRequestLine request line = .ok (false, next) ∧
          onMessage ⟨.kExpectRequestLine, request⟩ buf message = .ok {
            context := ⟨.kExpectRequestLine, next⟩
            buf
            refused := true
            calls := [.send badRequest, .closeConnection] }) ∨
        (∃ next got left, processRequestLine request line = .ok (true, next) ∧
          onMessage ⟨.kExpectRequestLine, request⟩ buf message = .ok {
            context := ⟨.kExpectRequestLine, { version := got.version }⟩
            buf := left
            request := some got
            calls := onRequest message.httpCallback got }))) := by
  cases complete : tailComplete message.stale buf with
  | false => exact Or.inl ⟨Or.inl rfl, by simp [onMessage, complete]⟩
  | true =>
    rcases line_cases buf with free | ⟨line, rest, free, same⟩
    · have parsed := parseRequest_noLine ⟨.kExpectRequestLine, request⟩ (Or.inl rfl) free
        message.receiveTime
      exact Or.inl ⟨Or.inr free, by simp [onMessage, complete, parsed, HttpContext.gotAll]⟩
    · refine Or.inr ⟨rfl, line, rest, free, same, ?_⟩
      cases evaluated : processRequestLine request line with
      | error halt =>
        have parsed := parseRequest_halted free rest request message.receiveTime halt evaluated
        rw [← same] at parsed
        exact Or.inl ⟨halt, rfl, by simp [onMessage, complete, parsed]⟩
      | ok result =>
        obtain ⟨ok, next⟩ := result
        cases ok with
        | false =>
          have parsed := parseRequest_rejected free rest request message.receiveTime next evaluated
          rw [← same] at parsed
          exact Or.inr (Or.inl ⟨next, rfl, by
            simp [onMessage, complete, parsed, HttpContext.gotAll]⟩)
        | true =>
          have parsed :=
            parseRequest_requestLine free rest request message.receiveTime next evaluated
          rw [← same] at parsed
          have long : 4 ≤ buf.length := by
            have version := accepted_length (accepted_of_ok evaluated).2
            rw [same, List.length_append]
            omega
          have ends := tailComplete_suffix complete long
          rw [same] at ends
          obtain ⟨got, left, headers⟩ := parseRequest_ends (next.setReceiveTime message.receiveTime)
            rest message.receiveTime (blankAhead_rest free ends)
          rw [headers] at parsed
          exact Or.inr (Or.inr ⟨next, got, left, rfl, by
            simp [onMessage, complete, parsed, HttpContext.gotAll, HttpContext.reset,
              HttpRequest.swap]⟩)

/-- A call that comes back expects a request line again. -/
theorem onMessage_state {request : HttpRequest} {buf : Bytes} {message : Message}
    {handled : Handled}
    (returns : onMessage ⟨.kExpectRequestLine, request⟩ buf message = .ok handled) :
    handled.context.state = .kExpectRequestLine := by
  rcases onMessage_cases request buf message with ⟨-, result⟩ |
    ⟨-, _, _, -, -, ⟨halt, -, result⟩ | ⟨next, -, result⟩ | ⟨next, got, left, -, result⟩⟩
  all_goals
    rw [result] at returns
    cases returns
    try rfl

end RabbitServer.Http
