import RabbitServer.Http.LinePointers

/-! The request lines `processRequestLine` accepts, as a grammar. -/

namespace RabbitServer.Http
open RabbitServer.Net

def methodName : Method → Option Bytes
  | .kInvalid => none
  | .kGet => some (ascii "GET")
  | .kPost => some (ascii "POST")
  | .kHead => some (ascii "HEAD")
  | .kPut => some (ascii "PUT")
  | .kDelete => some (ascii "DELETE")

def versionName : Version → Option Bytes
  | .kUnknown => none
  | .kHttp10 => some (ascii "HTTP/1.0")
  | .kHttp11 => some (ascii "HTTP/1.1")

/-- `METHOD SP target SP HTTP/1.x` -/
structure RequestLineText (line : Bytes) (method : Method) (target : Bytes) (version : Version) :
    Prop where
  plain : SP ∉ target
  text : ∃ name shown, methodName method = some name ∧ versionName version = some shown ∧
    line = name ++ SP :: (target ++ SP :: shown)

theorem methodOf_name {method : Method} {name : Bytes} (named : methodName method = some name) :
    methodOf name = method ∧ method ≠ .kInvalid ∧ SP ∉ name ∧ CR ∉ name := by
  cases method with
  | kInvalid => cases named
  | kGet => cases named; decide
  | kPost => cases named; decide
  | kHead => cases named; decide
  | kPut => cases named; decide
  | kDelete => cases named; decide

theorem methodName_of {token : Bytes} (known : methodOf token ≠ .kInvalid) :
    methodName (methodOf token) = some token := by
  unfold methodOf at known ⊢
  split_ifs at known ⊢ with get post head put delete
  · rw [get]; rfl
  · rw [post]; rfl
  · rw [head]; rfl
  · rw [put]; rfl
  · rw [delete]; rfl
  · exact absurd rfl known

theorem setVersionOf_name {version : Version} {shown : Bytes}
    (named : versionName version = some shown) (request : HttpRequest) :
    setVersionOf request shown = (true, request.setVersion version) := by
  have fixed : (ascii "HTTP/1.0").length = 8 ∧ (ascii "HTTP/1.0").take 7 = ascii "HTTP/1." ∧
      (ascii "HTTP/1.1").length = 8 ∧ (ascii "HTTP/1.1").take 7 = ascii "HTTP/1." ∧
      (ascii "HTTP/1.0").getLast? = some 48 ∧ (ascii "HTTP/1.1").getLast? = some 49 := by decide
  obtain ⟨length0, take0, length1, take1, last0, last1⟩ := fixed
  cases version with
  | kUnknown => cases named
  | kHttp10 =>
    cases named
    rw [setVersionOf, if_pos ⟨length0, take0⟩, last0]
    rfl
  | kHttp11 =>
    cases named
    rw [setVersionOf, if_pos ⟨length1, take1⟩, last1]
    rfl

theorem versionName_of {request : HttpRequest} {shown : Bytes}
    (accepted : (setVersionOf request shown).1 = true) :
    ∃ version, versionName version = some shown := by
  unfold setVersionOf at accepted
  split at accepted
  next fixed =>
    have nonempty : shown ≠ [] := by
      rintro rfl
      cases fixed.1
    have whole : shown = ascii "HTTP/1." ++ [shown.getLast nonempty] := by
      have seven : shown.dropLast = shown.take 7 := by rw [List.dropLast_eq_take, fixed.1]
      rw [← fixed.2, ← seven, List.dropLast_append_getLast]
    have last := List.getLast?_eq_some_getLast nonempty
    split_ifs at accepted with one zero
    · rw [one] at last
      rw [← Option.some.inj last] at whole
      exact ⟨.kHttp11, by rw [whole]; decide⟩
    · rw [zero] at last
      rw [← Option.some.inj last] at whole
      exact ⟨.kHttp10, by rw [whole]; decide⟩
  next => cases accepted

/-- A target is cut at its first question mark. -/
theorem setTarget_spec (request : HttpRequest) (noQuery : request.query = []) (target : Bytes) :
    QUESTION ∉ (setTarget request target).path ∧
      (setTarget request target).path ++ (setTarget request target).query = target ∧
      ((setTarget request target).query = [] ∨
        ∃ rest, (setTarget request target).query = QUESTION :: rest) := by
  by_cases asked : QUESTION ∈ target
  · obtain ⟨split, plain⟩ := idxOf_split asked
    have bound := List.idxOf_lt_length_of_mem asked
    have query : target.drop (target.idxOf QUESTION) =
        QUESTION :: target.drop (target.idxOf QUESTION + 1) := by
      rw [List.drop_eq_getElem_cons bound, List.getElem_idxOf]
    simp only [setTarget, if_pos (idxOf_ne_length_iff.mpr asked)]
    exact ⟨plain, List.take_append_drop _ target, Or.inr ⟨_, query⟩⟩
  · have whole : ¬ target.idxOf QUESTION ≠ target.length := fun h =>
      asked (idxOf_ne_length_iff.mp h)
    simp only [setTarget, if_neg whole]
    refine ⟨asked, ?_, Or.inl noQuery⟩
    show target ++ request.query = target
    rw [noQuery, List.append_nil]

/-- A line of the grammar sets its method, its version, and a path and a query that together
are its target. -/
theorem RequestLineText.result {line target : Bytes} {method : Method} {version : Version}
    (text : RequestLineText line method target version) (request : HttpRequest)
    (unset : request.method = .kInvalid) :
    processRequestLine request line =
      .ok (true, (setTarget { request with method } target).setVersion version) := by
  obtain ⟨name, shown, named, versioned, rfl⟩ := text.text
  obtain ⟨rfl, known, plain, -⟩ := methodOf_name named
  rw [processRequestLine_parts request unset shown plain text.plain known,
    setVersionOf_name versioned]

/-- Every other line is rejected. -/
theorem RequestLineText.of_accepted {request next : HttpRequest} {line : Bytes}
    (unset : request.method = .kInvalid)
    (accepted : processRequestLine request line = .ok (true, next)) :
    ∃ method target version, RequestLineText line method target version := by
  rcases processRequestLine_cases request unset line with ⟨_, result⟩ | ⟨_, _, _, _, _, result⟩ |
    ⟨_, _, _, _, _, _, result⟩ | ⟨name, target, shown, rfl, _, plain, known, result⟩
  · rw [result] at accepted
    cases accepted
  · rw [result] at accepted
    cases accepted
  · rw [result] at accepted
    cases accepted
  · rw [result] at accepted
    obtain ⟨version, versioned⟩ := versionName_of (congrArg Prod.fst (Except.ok.inj accepted))
    exact ⟨methodOf name, target, version, plain, name, shown, methodName_of known, versioned, rfl⟩

/-- Pointer by pointer, `processRequestLine` reaches its end without leaving the line, and
accepts exactly the lines of the grammar. -/
theorem processRequestLine_grammar (request : HttpRequest) (unset : request.method = .kInvalid)
    (noQuery : request.query = []) (line : Bytes) :
    ∃ ok next, processRequestLineAt request line = .ok (ok, next) ∧
      (ok = true ↔ ∃ method target version, RequestLineText line method target version) ∧
      ∀ method target version, RequestLineText line method target version →
        next.method = method ∧ next.version = version ∧ QUESTION ∉ next.path ∧
          next.path ++ next.query = target ∧
          (next.query = [] ∨ ∃ rest, next.query = QUESTION :: rest) := by
  obtain ⟨ok, next, result, -⟩ := processRequestLine_method request unset line
  refine ⟨ok, next, ?_, ?_, ?_⟩
  · rw [processRequestLineAt_eq, result]
    rfl
  · constructor
    · rintro rfl
      exact RequestLineText.of_accepted unset result
    · rintro ⟨method, target, version, text⟩
      rw [text.result request unset] at result
      exact (congrArg Prod.fst (Except.ok.inj result)).symm
  · intro method target version text
    rw [text.result request unset] at result
    cases result
    obtain ⟨plain, whole, query⟩ := setTarget_spec { request with method } noQuery target
    exact ⟨setTarget_method _ target, rfl, plain, whole, query⟩

theorem processRequestLine_grammar_get :
    ∃ ok next, processRequestLineAt {} (ascii "GET /a?b HTTP/1.1") = .ok (ok, next) ∧
      (ok = true ↔ ∃ method target version,
        RequestLineText (ascii "GET /a?b HTTP/1.1") method target version) ∧
      ∀ method target version,
        RequestLineText (ascii "GET /a?b HTTP/1.1") method target version →
          next.method = method ∧ next.version = version ∧ QUESTION ∉ next.path ∧
            next.path ++ next.query = target ∧
            (next.query = [] ∨ ∃ rest, next.query = QUESTION :: rest) :=
  processRequestLine_grammar {} rfl rfl (ascii "GET /a?b HTTP/1.1")

end RabbitServer.Http
