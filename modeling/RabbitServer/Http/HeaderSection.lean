import RabbitServer.Http.RequestGrammar
import RabbitServer.Http.WireRequest

/-! Where the header section ends: at its first line without a colon. -/

namespace RabbitServer.Http
open RabbitServer.Net Library

/-- The bytes begin with an accepted request line, header lines with a colon, and one line
without; `rest` follows. -/
structure Sectioned (s line : Bytes) (headers : List Bytes) (last rest : Bytes) : Prop where
  line_free : LineFree line
  line_accepted : Accepted line
  headers_free : ∀ header ∈ headers, LineFree header
  headers_named : ∀ header ∈ headers, COLON ∈ header
  last_free : LineFree last
  last_unnamed : COLON ∉ last
  bytes : s = Lines.encode CR LF (line :: (headers ++ [last])) ++ rest

/-- From a fresh context `parseRequest` returns true in `kGotAll` and leaves `rest` unread. -/
def Completes (s : Bytes) (receiveTime : Timestamp) (rest : Bytes) : Prop :=
  ∃ request, parseRequest {} s receiveTime = .ok ⟨true, ⟨.kGotAll, request⟩, rest⟩

/-- A request is complete exactly with its empty line, behind which nothing is consumed, and
never because of a line that is not empty. -/
structure EndsAtEmptyLine (s : Bytes) (receiveTime : Timestamp) : Prop where
  exactly : (∃ rest, Completes s receiveTime rest) ↔
    ∃ line headers rest, Sectioned s line headers [] rest
  consumes : ∀ line headers rest, Sectioned s line headers [] rest → Completes s receiveTime rest
  never : ∀ line headers last rest, Sectioned s line headers last rest → last ≠ [] →
    ∀ left, ¬ Completes s receiveTime left

/-- The first header line without a colon, if there is one, is empty. -/
def FirstUnnamedEmpty (s : Bytes) : Prop :=
  ∀ line headers last rest, Sectioned s line headers last rest → last = []

theorem Sectioned.completes {s line last rest : Bytes} {headers : List Bytes}
    (sectioned : Sectioned s line headers last rest) (receiveTime : Timestamp) :
    Completes s receiveTime rest := by
  obtain ⟨next, accepted⟩ := sectioned.line_accepted
  refine ⟨headers.foldl addHeaderLine (next.setReceiveTime receiveTime), ?_⟩
  rw [sectioned.bytes, Lines.encode_cons, List.append_assoc, List.cons_append, List.cons_append]
  calc
    _ = parseRequest ⟨.kExpectHeaders, next.setReceiveTime receiveTime⟩
          (Lines.encode CR LF (headers ++ [last]) ++ rest) receiveTime :=
      parseRequest_requestLine sectioned.line_free _ {} receiveTime next accepted
    _ = _ := parseRequest_headers headers sectioned.headers_free sectioned.headers_named
      sectioned.last_free sectioned.last_unnamed _ rest receiveTime

/-- A header section that has ended, as the lines it was made of. -/
theorem headers_of_gotAll (request : HttpRequest) (buf : Bytes) (receiveTime : Timestamp)
    (ok : Bool) (got : HttpRequest) (rest : Bytes)
    (parsed : parseRequest ⟨.kExpectHeaders, request⟩ buf receiveTime =
      .ok ⟨ok, ⟨.kGotAll, got⟩, rest⟩) :
    ∃ headers last, (∀ header ∈ headers, LineFree header) ∧ (∀ header ∈ headers, COLON ∈ header) ∧
      LineFree last ∧ COLON ∉ last ∧ buf = Lines.encode CR LF (headers ++ [last]) ++ rest := by
  induction size : buf.length using Nat.strong_induction_on generalizing buf request with
  | _ n ih =>
    rcases line_cases buf with free | ⟨line, more, free, rfl⟩
    · rw [parseRequest_noLine _ (Or.inr rfl) free] at parsed
      cases parsed
    · by_cases named : COLON ∈ line
      · rw [parseRequest_header free more request receiveTime named] at parsed
        have shorter : more.length < n := by
          simp only [← size, List.length_append, List.length_cons]
          omega
        obtain ⟨headers, last, headersFree, headersNamed, lastFree, unnamed, split⟩ :=
          ih more.length shorter _ more parsed rfl
        refine ⟨line :: headers, last, ?_, ?_, lastFree, unnamed, ?_⟩
        · exact List.forall_mem_cons.mpr ⟨free, headersFree⟩
        · exact List.forall_mem_cons.mpr ⟨named, headersNamed⟩
        · rw [List.cons_append, Lines.encode_cons, List.append_assoc, List.cons_append,
            List.cons_append, ← split]
      · rw [parseRequest_blank free more request receiveTime named] at parsed
        cases parsed
        exact ⟨[], line, nofun, nofun, free, named, by simp [Lines.encode]⟩

/-- A request that is complete ended with a line without a colon. -/
theorem Completes.sectioned {s rest : Bytes} {receiveTime : Timestamp}
    (completes : Completes s receiveTime rest) :
    ∃ line headers last, Sectioned s line headers last rest := by
  obtain ⟨got, parsed⟩ := completes
  rcases line_cases s with free | ⟨line, more, free, rfl⟩
  · rw [parseRequest_noLine _ (Or.inl rfl) free] at parsed
    cases parsed
  · obtain ⟨ok, next, evaluated, -⟩ := processRequestLine_method {} rfl line
    cases ok with
    | false =>
      rw [parseRequest_rejected free more {} receiveTime next evaluated] at parsed
      cases parsed
    | true =>
      rw [parseRequest_requestLine free more {} receiveTime next evaluated] at parsed
      obtain ⟨headers, last, headersFree, named, lastFree, unnamed, split⟩ :=
        headers_of_gotAll _ more receiveTime true got rest parsed
      refine ⟨line, headers, last, free, ⟨next, evaluated⟩, headersFree, named, lastFree, unnamed,
        ?_⟩
      rw [Lines.encode_cons, List.append_assoc, List.cons_append, List.cons_append, ← split]

/-- The header section ends at an empty line only, exactly where no other line without a colon
comes before. -/
theorem endsAtEmptyLine_iff (s : Bytes) (receiveTime : Timestamp) :
    EndsAtEmptyLine s receiveTime ↔ FirstUnnamedEmpty s := by
  constructor
  · intro ends line headers last rest sectioned
    by_contra other
    exact ends.never line headers last rest sectioned other rest (sectioned.completes receiveTime)
  · intro empty
    constructor
    · constructor
      · rintro ⟨rest, completes⟩
        obtain ⟨line, headers, last, sectioned⟩ := completes.sectioned
        obtain rfl := empty line headers last rest sectioned
        exact ⟨line, headers, rest, sectioned⟩
      · rintro ⟨line, headers, rest, sectioned⟩
        exact ⟨rest, sectioned.completes receiveTime⟩
    · exact fun line headers rest sectioned => sectioned.completes receiveTime
    · exact fun line headers last rest sectioned other =>
        absurd (empty line headers last rest sectioned) other

/-- `x` ends the header section, and the header line behind it is left for the next request. -/
theorem endsAtEmptyLine_fails :
    ¬ EndsAtEmptyLine (ascii "GET / HTTP/1.1\r\nx\r\nHost: a\r\n\r\n") 0 := by
  intro ends
  have text : RequestLineText (ascii "GET / HTTP/1.1") .kGet (ascii "/") .kHttp11 :=
    ⟨by decide, _, _, rfl, rfl, by decide⟩
  have sectioned : Sectioned (ascii "GET / HTTP/1.1\r\nx\r\nHost: a\r\n\r\n")
      (ascii "GET / HTTP/1.1") [] (ascii "x") (ascii "Host: a\r\n\r\n") := by
    refine ⟨by unfold LineFree Lines.Free; decide, ⟨_, text.result {} rfl⟩, nofun, nofun, rfl,
      by decide, by decide⟩
  exact ends.never _ _ _ _ sectioned (by decide) _ (sectioned.completes 0)

end RabbitServer.Http
