import RabbitServer.Http.HttpServer

/-! Well-formed requests without a body, as bytes on the wire, and how a stream of
them can be cut. -/

namespace RabbitServer.Http
open RabbitServer.Net Library

/-- A CRLF-free request line that is accepted, and CRLF-free header lines with a colon. -/
structure WireRequest where
  line : Bytes
  headers : List Bytes
  line_free : LineFree line
  line_accepted : Accepted line
  headers_free : ∀ header ∈ headers, LineFree header
  headers_named : ∀ header ∈ headers, COLON ∈ header

def addHeaderLine (request : HttpRequest) (header : Bytes) : HttpRequest :=
  request.addHeader header (header.idxOf COLON)

namespace WireRequest

/-- The lines of a request up to and including the empty one. -/
def lines (w : WireRequest) : List Bytes := w.line :: (w.headers ++ [[]])

def bytes (w : WireRequest) : Bytes := Lines.encode CR LF w.lines

/-- The request a fresh `HttpContext` makes of the bytes alone. -/
def alone (w : WireRequest) (receiveTime : Timestamp) : HttpRequest :=
  match parseRequest {} w.bytes receiveTime with
  | .ok parsed => parsed.context.request
  | .error _ => {}

end WireRequest

def stream (requests : List WireRequest) : Bytes := requests.flatMap WireRequest.bytes

/-- The header section goes on to its first line without a colon, empty or not. -/
theorem parseRequest_headers (headers : List Bytes)
    (free : ∀ header ∈ headers, LineFree header) (named : ∀ header ∈ headers, COLON ∈ header)
    {last : Bytes} (lastFree : LineFree last) (unnamed : COLON ∉ last)
    (request : HttpRequest) (rest : Bytes) (receiveTime : Timestamp) :
    parseRequest ⟨.kExpectHeaders, request⟩ (Lines.encode CR LF (headers ++ [last]) ++ rest)
      receiveTime = .ok ⟨true, ⟨.kGotAll, headers.foldl addHeaderLine request⟩, rest⟩ := by
  induction headers generalizing request with
  | nil =>
    rw [List.nil_append, Lines.encode_cons, Lines.encode_nil, List.append_assoc]
    exact parseRequest_blank lastFree rest request receiveTime unnamed
  | cons header headers ih =>
    rw [List.cons_append, Lines.encode_cons, List.append_assoc, List.cons_append,
      List.cons_append, parseRequest_header (free header (List.mem_cons_self ..)) _ _ _
        (named header (List.mem_cons_self ..))]
    exact ih (fun other member => free other (List.mem_cons_of_mem _ member))
      (fun other member => named other (List.mem_cons_of_mem _ member)) _

theorem foldl_addHeaderLine_time (headers : List Bytes) (request : HttpRequest)
    (receiveTime : Timestamp) :
    headers.foldl addHeaderLine (request.setReceiveTime receiveTime) =
      (headers.foldl addHeaderLine request).setReceiveTime receiveTime := by
  induction headers generalizing request with
  | nil => rfl
  | cons header headers ih => exact ih (addHeaderLine request header)

namespace WireRequest
variable (w : WireRequest)

/-- What one call makes of a request and whatever follows it, whatever version the
context was left with. -/
theorem parse_bytes (version : Version) (rest : Bytes) (receiveTime : Timestamp) :
    parseRequest ⟨.kExpectRequestLine, { version }⟩ (w.bytes ++ rest) receiveTime =
      .ok ⟨true, ⟨.kGotAll, w.alone receiveTime⟩, rest⟩ := by
  obtain ⟨next, accepted⟩ := w.line_accepted
  have whole : ∀ version rest,
      parseRequest ⟨.kExpectRequestLine, { version }⟩ (w.bytes ++ rest) receiveTime =
        .ok ⟨true, ⟨.kGotAll, w.headers.foldl addHeaderLine (next.setReceiveTime receiveTime)⟩,
          rest⟩ := by
    intro version rest
    have overwritten := processRequestLine_accepted version accepted
    rw [bytes, lines, Lines.encode_cons, List.append_assoc, List.cons_append, List.cons_append,
      parseRequest_requestLine w.line_free _ _ _ next overwritten]
    exact parseRequest_headers w.headers w.headers_free w.headers_named
      (show LineFree [] from rfl) List.not_mem_nil _ rest receiveTime
  have fresh := whole .kUnknown []
  rw [List.append_nil] at fresh
  have alone_eq : w.alone receiveTime =
      w.headers.foldl addHeaderLine (next.setReceiveTime receiveTime) := by
    unfold alone
    rw [show ({} : HttpContext) = ⟨.kExpectRequestLine, { version := .kUnknown }⟩ from rfl, fresh]
  rw [whole, alone_eq]

/-- Only the receive time depends on when the request was read. -/
theorem alone_content (receiveTime other : Timestamp) :
    (w.alone receiveTime).content = (w.alone other).content := by
  obtain ⟨next, accepted⟩ := w.line_accepted
  have timed : ∀ time, w.alone time = (w.headers.foldl addHeaderLine next).setReceiveTime time := by
    intro time
    unfold alone
    rw [bytes, lines, Lines.encode_cons]
    rw [show ({} : HttpContext) = ⟨.kExpectRequestLine, {}⟩ from rfl,
      parseRequest_requestLine w.line_free _ _ _ next accepted]
    have headers := parseRequest_headers w.headers w.headers_free w.headers_named
      (show LineFree [] from rfl) List.not_mem_nil (next.setReceiveTime time) [] time
    rw [List.append_nil] at headers
    rw [headers]
    exact foldl_addHeaderLine_time w.headers next time
  calc
    _ = (w.headers.foldl addHeaderLine next).content := by rw [timed]; rfl
    _ = (w.alone other).content := by rw [timed]; rfl

theorem bytes_head : ∃ head rest, w.bytes = head :: rest ∧ head ≠ CR ∧ head ≠ LF := by
  obtain ⟨head, rest, line_eq, notCR, notLF⟩ := accepted_head w.line_accepted
  refine ⟨head, rest ++ CR :: LF :: Lines.encode CR LF (w.headers ++ [[]]), ?_, notCR, notLF⟩
  rw [bytes, lines, Lines.encode_cons, line_eq, List.cons_append]

/-- A request ends in an empty line. -/
theorem bytes_tail : kCLRF ++ kCLRF <:+ w.bytes := by
  have last : w.bytes = (w.line :: w.headers).dropLast.flatMap (fun line => line ++ kCLRF) ++
      (w.line :: w.headers).getLast (List.cons_ne_nil _ _) ++ (kCLRF ++ kCLRF) := by
    have split := List.dropLast_concat_getLast (List.cons_ne_nil w.line w.headers)
    rw [bytes, lines, ← List.cons_append, Lines.encode_append]
    nth_rewrite 1 [← split]
    rw [Lines.encode_append]
    simp [Lines.encode, kCLRF]
  rw [last]
  exact List.suffix_append _ _

theorem lines_free : ∀ line ∈ w.lines, LineFree line := by
  intro line member
  rcases List.mem_cons.mp member with rfl | member
  · exact w.line_free
  · rcases List.mem_append.mp member with header | blank
    · exact w.headers_free line header
    · rw [List.mem_singleton.mp blank]
      rfl

/-- No line of a request but the last is empty. -/
theorem lines_ne_nil : ∀ line ∈ w.line :: w.headers, line ≠ [] := by
  intro line member
  rcases List.mem_cons.mp member with rfl | header
  · obtain ⟨head, rest, line_eq, -, -⟩ := accepted_head w.line_accepted
    rw [line_eq]
    exact List.cons_ne_nil _ _
  · exact List.ne_nil_of_mem (w.headers_named line header)

end WireRequest

@[simp] theorem stream_nil : stream [] = [] := rfl

theorem stream_cons (w : WireRequest) (requests : List WireRequest) :
    stream (w :: requests) = w.bytes ++ stream requests := rfl

theorem stream_append (first second : List WireRequest) :
    stream (first ++ second) = stream first ++ stream second := List.flatMap_append

theorem stream_lines (requests : List WireRequest) :
    stream requests = Lines.encode CR LF (requests.flatMap WireRequest.lines) := by
  induction requests with
  | nil => rfl
  | cons w requests ih =>
    calc
      _ = Lines.encode CR LF w.lines ++
          Lines.encode CR LF (requests.flatMap WireRequest.lines) := by
        rw [stream_cons, ih, WireRequest.bytes]
      _ = _ := by rw [List.flatMap_cons, Lines.encode_append]

/-- An empty line of a stream is the end of one of its requests. -/
theorem blank_line (requests : List WireRequest) (count : Nat)
    (blank : (requests.flatMap WireRequest.lines)[count]? = some []) :
    ∃ k, 0 < k ∧ k ≤ requests.length ∧ (requests.flatMap WireRequest.lines).take (count + 1) =
      (requests.take k).flatMap WireRequest.lines := by
  induction requests generalizing count with
  | nil => simp at blank
  | cons w requests ih =>
    have shape : w.lines = (w.line :: w.headers) ++ [[]] := rfl
    rw [List.flatMap_cons] at blank ⊢
    have length : w.lines.length = (w.line :: w.headers).length + 1 := by simp [shape]
    by_cases inside : count < (w.line :: w.headers).length
    · rw [List.getElem?_append_left (by omega), shape, List.getElem?_append_left inside] at blank
      exact absurd rfl (w.lines_ne_nil _ (List.mem_of_getElem? blank))
    · by_cases ending : count = (w.line :: w.headers).length
      · refine ⟨1, Nat.one_pos, by simp, ?_⟩
        rw [List.take_append_of_le_length (by omega), List.take_of_length_le (by omega)]
        simp
      · rw [List.getElem?_append_right (by omega)] at blank
        obtain ⟨k, positive, bound, cut⟩ := ih _ blank
        refine ⟨k + 1, Nat.succ_pos k, by simpa using bound, ?_⟩
        have position : count + 1 = w.lines.length + (count - w.lines.length + 1) := by omega
        rw [position, List.take_length_add_append, cut, List.take_succ_cons, List.flatMap_cons]

/-- The part of a stream received so far passes the tail test only at the end of a
request, whatever bytes stand before it. -/
theorem tailComplete_boundary (requests : List WireRequest) (stale buf : Bytes)
    (received : buf <+: stream requests) (nonempty : buf ≠ [])
    (complete : tailComplete stale buf = true) :
    ∃ k, 0 < k ∧ k ≤ requests.length ∧ buf = stream (requests.take k) := by
  by_cases long : 4 ≤ buf.length
  · obtain ⟨before, split⟩ := tailComplete_suffix complete long
    rw [stream_lines, ← split] at received
    obtain ⟨count, blank, whole⟩ := Lines.prefix_encode_blank (by decide)
      (fun line member => by
        obtain ⟨w, _, inside⟩ := List.mem_flatMap.mp member
        exact w.lines_free line inside) received
    obtain ⟨k, positive, bound, cut⟩ := blank_line requests count blank
    refine ⟨k, positive, bound, ?_⟩
    rw [stream_lines, ← cut, ← whole]
    exact split.symm
  · -- fewer than four bytes: the first would be a byte of the line end
    have tail : (stale ++ buf).drop ((stale ++ buf).length - 4) = kCLRF ++ kCLRF := by
      simpa [tailComplete] using complete
    cases requests with
    | nil => exact absurd (List.prefix_nil.mp received) nonempty
    | cons w requests =>
      obtain ⟨head, rest, bytes_eq, notCR, notLF⟩ := w.bytes_head
      rw [stream_cons, bytes_eq] at received
      cases buf with
      | nil => exact absurd rfl nonempty
      | cons first buf =>
        obtain ⟨rfl, -⟩ := List.cons_prefix_cons.mp received
        have position : (stale ++ first :: buf).length - 4 ≤ stale.length := by
          simp only [List.length_append]
          omega
        rw [List.drop_append_of_le_length position] at tail
        have member : first ∈ kCLRF ++ kCLRF := by
          rw [← tail]
          exact List.mem_append_right _ (List.mem_cons_self ..)
        simp only [kCLRF, List.cons_append, List.nil_append, List.mem_cons, List.not_mem_nil,
          or_false] at member
        rcases member with cr | lf | cr | lf
        · exact absurd cr notCR
        · exact absurd lf notLF
        · exact absurd cr notCR
        · exact absurd lf notLF

theorem stream_tail (requests : List WireRequest) (nonempty : requests ≠ []) :
    kCLRF ++ kCLRF <:+ stream requests := by
  rw [← List.dropLast_concat_getLast nonempty, stream_append, stream_cons, stream_nil,
    List.append_nil]
  exact (WireRequest.bytes_tail _).trans (List.suffix_append _ _)

end RabbitServer.Http
