import RabbitServer.Http.HttpRequest

/-! `HttpContext::processRequestLine`: what it accepts and what it leaves in the request. -/

namespace RabbitServer.Http
open RabbitServer.Net

/-- The target of a request line: a query starts at the first question mark. -/
def setTarget (request : HttpRequest) (target : Bytes) : HttpRequest :=
  let question := target.idxOf QUESTION
  if question ≠ target.length then
    (request.setPath (target.take question)).setQuery (target.drop question)
  else request.setPath target

/-- The version of a request line: eight bytes, all but the last of them fixed. -/
def setVersionOf (request : HttpRequest) (version : Bytes) : Bool × HttpRequest :=
  if version.length = 8 ∧ version.take 7 = ascii "HTTP/1." then
    if version.getLast? = some 49 then (true, request.setVersion .kHttp11)
    else if version.getLast? = some 48 then (true, request.setVersion .kHttp10)
    else (false, request)
  else (false, request)

/-- `processRequestLine` on the bytes `[begin, end)`. -/
def processRequestLine (request : HttpRequest) (line : Bytes) : Except Halt (Bool × HttpRequest) :=
  let space := line.idxOf SP
  if space ≠ line.length then
    match request.setMethod (line.take space) with
    | .error halt => .error halt
    | .ok (false, request) => .ok (false, request)
    | .ok (true, request) =>
      let rest := line.drop (space + 1)
      let space := rest.idxOf SP
      if space ≠ rest.length then
        .ok (setVersionOf (setTarget request (rest.take space)) (rest.drop (space + 1)))
      else .ok (false, request)
  else .ok (false, request)

/-- The method named by the first token of a line, if a space follows it. -/
def lineMethod (line : Bytes) : Method :=
  if SP ∈ line then methodOf (line.take (line.idxOf SP)) else .kInvalid

/-- The line is accepted on a request nothing has been set in. -/
def Accepted (line : Bytes) : Prop := ∃ next, processRequestLine {} line = .ok (true, next)

/-- The first occurrence cuts a list in two. -/
theorem idxOf_split {b : Byte} {l : Bytes} (present : b ∈ l) :
    l = l.take (l.idxOf b) ++ b :: l.drop (l.idxOf b + 1) ∧ b ∉ l.take (l.idxOf b) := by
  have bound := List.idxOf_lt_length_of_mem present
  constructor
  · have cut := List.take_append_drop (l.idxOf b) l
    rw [List.drop_eq_getElem_cons bound, List.getElem_idxOf] at cut
    exact cut.symm
  · intro early
    have before := List.idxOf_lt_length_of_mem early
    rw [List.length_take] at before
    have whole : (l.take (l.idxOf b) ++ l.drop (l.idxOf b)).idxOf b =
        (l.take (l.idxOf b)).idxOf b :=
      List.idxOf_append_of_mem early
    rw [List.take_append_drop] at whole
    omega

theorem idxOf_ne_length_iff {b : Byte} {l : Bytes} : l.idxOf b ≠ l.length ↔ b ∈ l := by
  rw [Ne, List.idxOf_eq_length_iff, not_not]

theorem idxOf_token {b : Byte} (token rest : Bytes) (plain : b ∉ token) :
    (token ++ b :: rest).idxOf b = token.length := by
  rw [List.idxOf_append_of_notMem plain, List.idxOf_cons_self]
  rfl

theorem drop_token {b : Byte} (token rest : Bytes) :
    (token ++ b :: rest).drop (token.length + 1) = rest := by
  rw [← List.drop_drop, List.drop_left]
  rfl

theorem lineMethod_token (token rest : Bytes) (plain : SP ∉ token) :
    lineMethod (token ++ SP :: rest) = methodOf token := by
  unfold lineMethod
  rw [if_pos (by simp), idxOf_token token rest plain, List.take_left]

section
variable (request : HttpRequest)

/-- A line with a space whose method is set already trips the assertion. -/
theorem processRequestLine_set (isSet : request.method ≠ .kInvalid) {line : Bytes}
    (spaced : SP ∈ line) : processRequestLine request line = .error .assertFailed := by
  simp only [processRequestLine, if_pos (idxOf_ne_length_iff.mpr spaced), HttpRequest.setMethod,
    if_neg isSet]

theorem processRequestLine_unspaced {line : Bytes} (unspaced : SP ∉ line) :
    processRequestLine request line = .ok (false, request) := by
  have absent : ¬ line.idxOf SP ≠ line.length := fun h => unspaced (idxOf_ne_length_iff.mp h)
  simp only [processRequestLine, if_neg absent]

variable (unset : request.method = .kInvalid)
include unset

theorem processRequestLine_token {method : Bytes} (rest : Bytes) (plain : SP ∉ method) :
    processRequestLine request (method ++ SP :: rest) =
      if methodOf method = .kInvalid then .ok (false, request)
      else if SP ∈ rest then
        .ok (setVersionOf (setTarget { request with method := methodOf method }
          (rest.take (rest.idxOf SP))) (rest.drop (rest.idxOf SP + 1)))
      else .ok (false, { request with method := methodOf method }) := by
  have first : method.length ≠ (method ++ SP :: rest).length := by simp
  simp only [processRequestLine, idxOf_token method _ plain, if_pos first, List.take_left,
    HttpRequest.setMethod, if_pos unset, drop_token]
  by_cases known : methodOf method = .kInvalid
  · have same : { request with method := Method.kInvalid } = request := by rw [← unset]
    simp [known, same]
  · rw [if_neg known, decide_eq_true known]
    simp only [idxOf_ne_length_iff]

/-- A line of two spaces or more whose first token is a known method. -/
theorem processRequestLine_parts {method target : Bytes} (version : Bytes)
    (plainMethod : SP ∉ method) (plainTarget : SP ∉ target)
    (known : methodOf method ≠ .kInvalid) :
    processRequestLine request (method ++ SP :: (target ++ SP :: version)) =
      .ok (setVersionOf (setTarget { request with method := methodOf method } target)
        version) := by
  rw [processRequestLine_token request unset _ plainMethod, if_neg known, if_pos (by simp),
    idxOf_token target _ plainTarget, List.take_left, drop_token]

/-- The shapes a line can have, by its spaces and its first token. -/
theorem processRequestLine_cases (line : Bytes) :
    (SP ∉ line ∧ processRequestLine request line = .ok (false, request)) ∨
    (∃ method rest, line = method ++ SP :: rest ∧ SP ∉ method ∧ methodOf method = .kInvalid ∧
      processRequestLine request line = .ok (false, request)) ∨
    (∃ method rest, line = method ++ SP :: rest ∧ SP ∉ method ∧ methodOf method ≠ .kInvalid ∧
      SP ∉ rest ∧
      processRequestLine request line = .ok (false, { request with method := methodOf method })) ∨
    (∃ method target version, line = method ++ SP :: (target ++ SP :: version) ∧ SP ∉ method ∧
      SP ∉ target ∧ methodOf method ≠ .kInvalid ∧
      processRequestLine request line =
        .ok (setVersionOf (setTarget { request with method := methodOf method } target)
          version)) := by
  by_cases spaced : SP ∈ line
  · obtain ⟨split, plain⟩ := idxOf_split spaced
    generalize line.take (line.idxOf SP) = method at split plain
    generalize line.drop (line.idxOf SP + 1) = rest at split
    subst split
    by_cases known : methodOf method = .kInvalid
    · exact Or.inr (Or.inl ⟨method, rest, rfl, plain, known,
        (processRequestLine_token request unset rest plain).trans (if_pos known)⟩)
    · by_cases second : SP ∈ rest
      · obtain ⟨split, plainTarget⟩ := idxOf_split second
        generalize rest.take (rest.idxOf SP) = target at split plainTarget
        generalize rest.drop (rest.idxOf SP + 1) = version at split
        subst split
        exact Or.inr (Or.inr (Or.inr ⟨method, target, version, rfl, plain, plainTarget, known,
          processRequestLine_parts request unset version plain plainTarget known⟩))
      · exact Or.inr (Or.inr (Or.inl ⟨method, rest, rfl, plain, known, second,
          (processRequestLine_token request unset rest plain).trans
            ((if_neg known).trans (if_neg second))⟩))
  · exact Or.inl ⟨spaced, processRequestLine_unspaced request spaced⟩

end

theorem setTarget_method (request : HttpRequest) (target : Bytes) :
    (setTarget request target).method = request.method := by
  simp only [setTarget]
  split <;> rfl

theorem setVersionOf_method (request : HttpRequest) (version : Bytes) :
    (setVersionOf request version).2.method = request.method := by
  simp only [setVersionOf]
  split_ifs <;> rfl

/-- Where no method is set yet, the line is evaluated and leaves its own method behind. -/
theorem processRequestLine_method (request : HttpRequest) (unset : request.method = .kInvalid)
    (line : Bytes) :
    ∃ ok next, processRequestLine request line = .ok (ok, next) ∧
      next.method = lineMethod line := by
  rcases processRequestLine_cases request unset line with ⟨unspaced, result⟩ |
    ⟨method, rest, rfl, plain, unknown, result⟩ |
    ⟨method, rest, rfl, plain, known, single, result⟩ |
    ⟨method, target, version, rfl, plain, plainTarget, known, result⟩
  · exact ⟨false, request, result, by rw [unset, lineMethod, if_neg unspaced]⟩
  · exact ⟨false, request, result, by rw [unset, lineMethod_token method rest plain, unknown]⟩
  · exact ⟨false, _, result, by rw [lineMethod_token method rest plain]⟩
  · have kept := setVersionOf_method
      (setTarget { request with method := methodOf method } target) version
    rw [setTarget_method] at kept
    exact ⟨_, _, result, kept.trans (lineMethod_token method _ plain).symm⟩

/-- A known method is a word, and starts with none of the line end's bytes. -/
theorem methodOf_head {token : Bytes} (known : methodOf token ≠ .kInvalid) :
    ∃ head rest, token = head :: rest ∧ head ≠ CR ∧ head ≠ LF := by
  unfold methodOf at known
  split_ifs at known with get post head put delete
  · exact ⟨71, [69, 84], get, by decide, by decide⟩
  · exact ⟨80, [79, 83, 84], post, by decide, by decide⟩
  · exact ⟨72, [69, 65, 68], head, by decide, by decide⟩
  · exact ⟨80, [85, 84], put, by decide, by decide⟩
  · exact ⟨68, [69, 76, 69, 84, 69], delete, by decide, by decide⟩
  · exact absurd rfl known

theorem setTarget_setVersion (request : HttpRequest) (target : Bytes) (version : Version) :
    setTarget (request.setVersion version) target =
      (setTarget request target).setVersion version := by
  simp only [setTarget]
  split <;> rfl

/-- What becomes of a version that stood there before: a line that is accepted overwrites it. -/
def keepVersion (version : Version) (result : Bool × HttpRequest) : Bool × HttpRequest :=
  if result.1 then result else (false, result.2.setVersion version)

theorem setVersionOf_setVersion (request : HttpRequest) (shown : Bytes) (version : Version) :
    setVersionOf (request.setVersion version) shown =
      keepVersion version (setVersionOf request shown) := by
  simp only [setVersionOf]
  split_ifs <;> rfl

theorem setMethod_setVersion (request : HttpRequest) (token : Bytes) (version : Version) :
    (request.setVersion version).setMethod token =
      (request.setMethod token).map fun result => (result.1, result.2.setVersion version) := by
  by_cases unset : request.method = .kInvalid
  · simp [HttpRequest.setMethod, HttpRequest.setVersion, unset, Except.map]
  · simp [HttpRequest.setMethod, HttpRequest.setVersion, unset, Except.map]

/-- The request line is evaluated without a look at the version that stands there. -/
theorem processRequestLine_setVersion (request : HttpRequest) (line : Bytes) (version : Version) :
    processRequestLine (request.setVersion version) line =
      (processRequestLine request line).map (keepVersion version) := by
  simp only [processRequestLine, setMethod_setVersion]
  split
  next =>
    cases request.setMethod (line.take (line.idxOf SP)) with
    | error halt => rfl
    | ok result =>
      obtain ⟨known, next⟩ := result
      cases known with
      | false => rfl
      | true =>
        simp only [Except.map, setTarget_setVersion, setVersionOf_setVersion]
        split <;> rfl
  next => rfl

/-- An accepted line, with the version a reset leaves behind out of the way. -/
theorem processRequestLine_accepted {line : Bytes} {next : HttpRequest} (version : Version)
    (accepted : processRequestLine {} line = .ok (true, next)) :
    processRequestLine { version } line = .ok (true, next) := by
  have kept := processRequestLine_setVersion {} line version
  rwa [accepted] at kept

/-- An accepted line begins with a method. -/
theorem accepted_head {line : Bytes} (accepted : Accepted line) :
    ∃ head rest, line = head :: rest ∧ head ≠ CR ∧ head ≠ LF := by
  obtain ⟨next, accepted⟩ := accepted
  rcases processRequestLine_cases {} rfl line with ⟨_, result⟩ | ⟨_, _, _, _, _, result⟩ |
    ⟨_, _, _, _, _, _, result⟩ | ⟨method, target, shown, rfl, plain, plainTarget, known, result⟩
  · rw [result] at accepted
    cases accepted
  · rw [result] at accepted
    cases accepted
  · rw [result] at accepted
    cases accepted
  · obtain ⟨head, rest, rfl, notCR, notLF⟩ := methodOf_head known
    exact ⟨head, _, rfl, notCR, notLF⟩

theorem setVersionOf_fst (request other : HttpRequest) (version : Bytes) :
    (setVersionOf request version).1 = (setVersionOf other version).1 := by
  simp only [setVersionOf]
  split_ifs <;> rfl

/-- What is accepted does not depend on what else the request holds. -/
theorem accepted_iff (request : HttpRequest) (unset : request.method = .kInvalid) (line : Bytes) :
    (∃ next, processRequestLine request line = .ok (true, next)) ↔ Accepted line := by
  unfold Accepted
  rcases processRequestLine_cases request unset line with ⟨unspaced, result⟩ |
    ⟨method, rest, rfl, plain, unknown, result⟩ |
    ⟨method, rest, rfl, plain, known, single, result⟩ |
    ⟨method, target, version, rfl, plain, plainTarget, known, result⟩
  · rw [result, processRequestLine_unspaced _ unspaced]
    simp
  · rw [result, processRequestLine_token _ rfl _ plain, if_pos unknown]
    simp
  · rw [result, processRequestLine_token _ rfl _ plain, if_neg known, if_neg single]
    simp
  · rw [result, processRequestLine_parts _ rfl _ plain plainTarget known]
    simp only [Except.ok.injEq, Prod.ext_iff, exists_and_left, exists_eq', and_true]
    rw [setVersionOf_fst]

theorem accepted_of_ok {request next : HttpRequest} {line : Bytes}
    (accepted : processRequestLine request line = .ok (true, next)) :
    request.method = .kInvalid ∧ Accepted line := by
  by_cases unset : request.method = .kInvalid
  · exact ⟨unset, (accepted_iff request unset line).mp ⟨next, accepted⟩⟩
  · exfalso
    by_cases spaced : SP ∈ line
    · rw [processRequestLine_set request unset spaced] at accepted
      cases accepted
    · rw [processRequestLine_unspaced request spaced] at accepted
      cases accepted

/-- An accepted line ends in a version. -/
theorem accepted_length {line : Bytes} (accepted : Accepted line) : 8 ≤ line.length := by
  obtain ⟨next, accepted⟩ := accepted
  rcases processRequestLine_cases {} rfl line with ⟨_, result⟩ | ⟨_, _, _, _, _, result⟩ |
    ⟨_, _, _, _, _, _, result⟩ | ⟨method, target, version, rfl, _, _, _, result⟩
  · rw [result] at accepted
    cases accepted
  · rw [result] at accepted
    cases accepted
  · rw [result] at accepted
    cases accepted
  · rw [result] at accepted
    have shown := congrArg Prod.fst (Except.ok.inj accepted)
    simp only [setVersionOf] at shown
    split at shown
    next fixed =>
      have length := fixed.1
      simp only [List.length_append, List.length_cons]
      omega
    next => cases shown

/-- Only `setMethod` stops a request line, on a method that is set already. -/
theorem processRequestLine_error {request : HttpRequest} {line : Bytes} {halt : Halt}
    (stops : processRequestLine request line = .error halt) :
    request.method ≠ .kInvalid ∧ halt = .assertFailed := by
  by_cases unset : request.method = .kInvalid
  · obtain ⟨ok, next, result, _⟩ := processRequestLine_method request unset line
    rw [result] at stops
    cases stops
  · by_cases spaced : SP ∈ line
    · rw [processRequestLine_set request unset spaced] at stops
      exact ⟨unset, (Except.error.inj stops).symm⟩
    · rw [processRequestLine_unspaced request spaced] at stops
      cases stops

theorem spaced_of_named {line : Bytes} (named : lineMethod line ≠ .kInvalid) : SP ∈ line := by
  unfold lineMethod at named
  split at named
  next spaced => exact spaced
  next => exact absurd rfl named

end RabbitServer.Http
