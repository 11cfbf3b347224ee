import RabbitServer.Http.RequestGrammar
import RabbitServer.Http.WireRequest

/-! Requests written out, with white space around the header values, and read back. -/

namespace RabbitServer.Http
open RabbitServer.Net Library

def HT : Byte := 9

/-- `field:` white space `value` white space -/
structure HeaderText where
  field : Bytes
  before : Bytes
  value : Bytes
  after : Bytes
  field_unnamed : COLON ∉ field
  field_free : LineFree field
  before_blank : ∀ c ∈ before, c = SP ∨ c = HT
  value_free : LineFree value
  value_begins : ∀ c ∈ value.head?, isspace c = false
  value_ends : ∀ c ∈ value.getLast?, isspace c = false
  after_blank : ∀ c ∈ after, c = SP ∨ c = HT

def HeaderText.line (h : HeaderText) : Bytes :=
  h.field ++ COLON :: (h.before ++ h.value ++ h.after)

/-- A request as its parts; a query comes with its question mark. -/
structure RequestText where
  method : Method
  name : Bytes
  path : Bytes
  query : Bytes
  version : Version
  shown : Bytes
  headers : List HeaderText
  method_named : methodName method = some name
  path_plain : SP ∉ path
  path_unasked : QUESTION ∉ path
  path_free : LineFree path
  query_begins : query = [] ∨ ∃ rest, query = QUESTION :: rest
  query_plain : SP ∉ query
  query_free : LineFree query
  version_named : versionName version = some shown

/-- The value of the last header with the field. -/
def lastValue (headers : List HeaderText) (field : Bytes) : Option Bytes :=
  (headers.reverse.find? fun header => header.field = field).map HeaderText.value

section
variable {before value after : Bytes}

theorem isspace_blank {text : Bytes} (blank : ∀ c ∈ text, c = SP ∨ c = HT) :
    ∀ c ∈ text, isspace c = true := by
  intro c member
  rcases blank c member with rfl | rfl <;> decide

theorem dropWhile_of_head {text : Bytes} (begins : ∀ c ∈ text.head?, isspace c = false) :
    text.dropWhile isspace = text := by
  cases text with
  | nil => rfl
  | cons c rest =>
    have other : ¬ isspace c = true := by simp [begins c rfl]
    exact List.dropWhile_cons_of_neg other

/-- The two loops of `addHeader` take off the white space, and nothing of the value. -/
theorem trim_padded (beforeBlank : ∀ c ∈ before, c = SP ∨ c = HT)
    (begins : ∀ c ∈ value.head?, isspace c = false)
    (ends : ∀ c ∈ value.getLast?, isspace c = false)
    (afterBlank : ∀ c ∈ after, c = SP ∨ c = HT) :
    (((before ++ value ++ after).dropWhile isspace).reverse.dropWhile isspace).reverse = value := by
  have back : ∀ c ∈ after.reverse, isspace c = true := by
    intro c member
    exact isspace_blank afterBlank c (List.mem_reverse.mp member)
  rw [List.append_assoc, List.dropWhile_append_of_pos (isspace_blank beforeBlank)]
  cases value with
  | nil =>
    rw [List.nil_append, ← List.append_nil after,
      List.dropWhile_append_of_pos (isspace_blank afterBlank)]
    rfl
  | cons c rest =>
    have whole : (c :: rest ++ after).dropWhile isspace = c :: rest ++ after :=
      dropWhile_of_head begins
    have tail : ((c :: rest).reverse).dropWhile isspace = (c :: rest).reverse :=
      dropWhile_of_head (by rwa [List.head?_reverse])
    rw [whole, List.reverse_append, List.dropWhile_append_of_pos back, tail, List.reverse_reverse]

end

/-- White space and the bytes after it hold no line end that the value does not. -/
theorem lineFree_blank {text : Bytes} (blank : ∀ c ∈ text, c = SP ∨ c = HT) : LineFree text := by
  apply Lines.free_of_absent
  intro member
  rcases blank CR member with same | same <;> revert same <;> decide

namespace HeaderText
variable (h : HeaderText)

theorem line_free : LineFree h.line := by
  have noCR : CR ∉ COLON :: h.before := by
    intro member
    rcases List.mem_cons.mp member with same | member
    · revert same
      decide
    · rcases h.before_blank CR member with same | same <;> revert same <;> decide
  have value : LineFree (COLON :: h.before ++ h.value) := by
    apply (Lines.free_of_absent noCR).append h.value_free
    left
    exact fun ends => noCR (List.mem_of_getLast? ends)
  have whole : LineFree (COLON :: h.before ++ h.value ++ h.after) := by
    apply value.append (lineFree_blank h.after_blank)
    right
    intro begins
    rcases h.after_blank LF (List.mem_of_head? begins) with same | same <;> revert same <;> decide
  have line := h.field_free.append whole (Or.inr fun begins => by cases begins)
  rwa [List.cons_append, List.cons_append] at line

theorem line_named : COLON ∈ h.line := by simp [line]

/-- What `addHeader` makes of the line. -/
theorem addHeaderLine_line (request : HttpRequest) :
    addHeaderLine request h.line =
      { request with headers := request.headers.insert h.field h.value } := by
  have colon : h.line.idxOf COLON = h.field.length := idxOf_token h.field _ h.field_unnamed
  simp only [addHeaderLine, HttpRequest.addHeader, colon]
  rw [line, List.take_left, drop_token, trim_padded h.before_blank h.value_begins h.value_ends
    h.after_blank]

end HeaderText

/-- After all headers a field has the last value it was given. -/
theorem foldl_addHeaderLine (headers : List HeaderText) (request : HttpRequest) :
    ∃ map : HeaderMap,
      (headers.map HeaderText.line).foldl addHeaderLine request = { request with headers := map } ∧
      ∀ field : Bytes, map[field]? = (lastValue headers field).or request.headers[field]? := by
  induction headers generalizing request with
  | nil => exact ⟨request.headers, rfl, fun field => rfl⟩
  | cons h headers ih =>
    obtain ⟨map, result, lookup⟩ := ih (addHeaderLine request h.line)
    rw [h.addHeaderLine_line] at result lookup
    refine ⟨map, ?_, ?_⟩
    · rw [List.map_cons, List.foldl_cons, h.addHeaderLine_line, result]
    · intro field
      rw [lookup, Std.ExtTreeMap.getElem?_insert]
      simp only [lastValue, List.reverse_cons, List.find?_append, List.find?_singleton]
      by_cases same : h.field = field
      · cases headers.reverse.find? fun header => decide (header.field = field) <;> simp [same]
      · cases headers.reverse.find? fun header => decide (header.field = field) <;> simp [same]

theorem noCR_methodName {method : Method} {name : Bytes} (named : methodName method = some name) :
    CR ∉ name ++ [SP] := by
  obtain ⟨-, -, -, plain⟩ := methodOf_name named
  rw [List.mem_append, List.mem_singleton]
  rintro (member | same)
  · exact plain member
  · revert same
    decide

theorem noCR_versionName {version : Version} {shown : Bytes}
    (named : versionName version = some shown) : CR ∉ SP :: shown := by
  cases version with
  | kUnknown => cases named
  | kHttp10 => cases named; decide
  | kHttp11 => cases named; decide

namespace RequestText
variable (r : RequestText)

def line : Bytes := r.name ++ SP :: (r.path ++ r.query ++ SP :: r.shown)

/-- The request as bytes, each line with its line end, up to and including the empty line. -/
def bytes : Bytes := Lines.encode CR LF (r.line :: (r.headers.map HeaderText.line ++ [[]]))

theorem lineText : RequestLineText r.line r.method (r.path ++ r.query) r.version where
  plain := by
    rw [List.mem_append]
    rintro (path | query)
    · exact r.path_plain path
    · exact r.query_plain query
  text := ⟨r.name, r.shown, r.method_named, r.version_named, rfl⟩

theorem setTarget_eq (request : HttpRequest) (noQuery : request.query = []) :
    setTarget request (r.path ++ r.query) = { request with path := r.path, query := r.query } := by
  rcases r.query_begins with empty | ⟨rest, asked⟩
  · have whole : ¬ r.path.idxOf QUESTION ≠ r.path.length := fun h =>
      r.path_unasked (idxOf_ne_length_iff.mp h)
    rw [empty, List.append_nil, setTarget, if_neg whole, ← noQuery]
    rfl
  · have cut := idxOf_token r.path rest r.path_unasked
    have short : r.path.length ≠ (r.path ++ QUESTION :: rest).length := by simp
    rw [asked, setTarget]
    simp only [cut, if_pos short, List.take_left, List.drop_left]
    rfl

theorem line_free : LineFree r.line := by
  have name := noCR_methodName r.method_named
  have shown := noCR_versionName r.version_named
  have path : LineFree (r.name ++ [SP] ++ r.path) := by
    apply (Lines.free_of_absent name).append r.path_free
    left
    exact fun ends => name (List.mem_of_getLast? ends)
  have query : LineFree (r.name ++ [SP] ++ r.path ++ r.query) := by
    apply path.append r.query_free
    right
    rcases r.query_begins with empty | ⟨rest, asked⟩
    · rw [empty]
      nofun
    · rw [asked]
      exact fun begins => by cases begins
  have line := query.append (Lines.free_of_absent shown) (Or.inr fun begins => by cases begins)
  have same : r.line = r.name ++ [SP] ++ r.path ++ r.query ++ SP :: r.shown := by
    simp [RequestText.line]
  rwa [same]

end RequestText

/-- A request that is written out is read back: from a fresh context one call consumes it and
nothing of what follows, and finds the parts it was made of. -/
theorem parseRequest_bytes (r : RequestText) (rest : Bytes) (receiveTime : Timestamp) :
    ∃ request, parseRequest {} (r.bytes ++ rest) receiveTime =
        .ok ⟨true, ⟨.kGotAll, request⟩, rest⟩ ∧
      request.method = r.method ∧ request.version = r.version ∧ request.path = r.path ∧
      request.query = r.query ∧ request.receiveTime = receiveTime ∧
      ∀ field : Bytes, request.headers[field]? = lastValue r.headers field := by
  have accepted := r.lineText.result {} rfl
  rw [r.setTarget_eq _ rfl] at accepted
  generalize named : HttpRequest.setVersion _ r.version = next at accepted
  obtain ⟨map, result, lookup⟩ := foldl_addHeaderLine r.headers (next.setReceiveTime receiveTime)
  have free : ∀ header ∈ r.headers.map HeaderText.line, LineFree header :=
    List.forall_mem_map.mpr fun h _ => h.line_free
  have named' : ∀ header ∈ r.headers.map HeaderText.line, COLON ∈ header :=
    List.forall_mem_map.mpr fun h _ => h.line_named
  refine ⟨{ next.setReceiveTime receiveTime with headers := map }, ?_, ?_⟩
  · rw [RequestText.bytes, Lines.encode_cons, List.append_assoc, List.cons_append,
      List.cons_append, ← result]
    calc
      _ = parseRequest ⟨.kExpectHeaders, next.setReceiveTime receiveTime⟩
            (Lines.encode CR LF (r.headers.map HeaderText.line ++ [[]]) ++ rest) receiveTime :=
        parseRequest_requestLine r.line_free _ {} receiveTime next accepted
      _ = _ := parseRequest_headers _ free named' (show LineFree [] from rfl) List.not_mem_nil _
        rest receiveTime
  · subst named
    refine ⟨rfl, rfl, rfl, rfl, rfl, ?_⟩
    intro field
    rw [lookup]
    show (lastValue r.headers field).or (∅ : HeaderMap)[field]? = _
    simp

/-- A query, a field that comes twice, and white space around its values and inside one. -/
def repeatedField : RequestText where
  method := .kPost
  name := ascii "POST"
  path := ascii "/a"
  query := ascii "?b=1"
  version := .kHttp10
  shown := ascii "HTTP/1.0"
  headers := [
    { field := ascii "Host", before := [], value := ascii "c", after := []
      field_unnamed := by decide
      field_free := Lines.free_of_absent (by decide)
      before_blank := by simp
      value_free := Lines.free_of_absent (by decide)
      value_begins := by rintro c ⟨⟩; rfl
      value_ends := by rintro c ⟨⟩; rfl
      after_blank := by simp },
    { field := ascii "Host", before := [SP, HT], value := ascii "d e", after := [HT]
      field_unnamed := by decide
      field_free := Lines.free_of_absent (by decide)
      before_blank := by simp
      value_free := Lines.free_of_absent (by decide)
      value_begins := by rintro c ⟨⟩; rfl
      value_ends := by rintro c ⟨⟩; rfl
      after_blank := by simp }]
  method_named := rfl
  path_plain := by decide
  path_unasked := by decide
  path_free := Lines.free_of_absent (by decide)
  query_begins := Or.inr ⟨ascii "b=1", rfl⟩
  query_plain := by decide
  query_free := Lines.free_of_absent (by decide)
  version_named := rfl

theorem parseRequest_bytes_repeated :
    ∃ request, parseRequest {} (repeatedField.bytes ++ ascii "GET") 5 =
        .ok ⟨true, ⟨.kGotAll, request⟩, ascii "GET"⟩ ∧
      request.query = ascii "?b=1" ∧ request.headers[ascii "Host"]? = some (ascii "d e") := by
  obtain ⟨request, parsed, -, -, -, query, -, headers⟩ :=
    parseRequest_bytes repeatedField (ascii "GET") 5
  exact ⟨request, parsed, query, (headers _).trans (by decide)⟩

end RabbitServer.Http
