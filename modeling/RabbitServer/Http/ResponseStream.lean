import Mathlib.Data.List.Basic
import RabbitServer.Http.HttpResponse
import RabbitServer.Library.Blocks

/-! The responses of a connection that is kept alive, as their reader tells them apart. -/

namespace RabbitServer.Http
open RabbitServer.Net Library

/-- What a reader gets of one response. -/
structure ReadResponse where
  statusCode : Nat
  statusMessage : Bytes
  headers : List (Bytes × Bytes)
  body : Bytes
  deriving DecidableEq

def isdigit (c : Byte) : Bool := 48 ≤ c && c ≤ 57

/-- The number a text of digits stands for. -/
def number (text : Bytes) : Option Nat :=
  if text ≠ [] ∧ text.all isdigit then
    some (text.foldl (fun n digit => n * 10 + (digit.toNat - 48)) 0)
  else none

/-- The code and the message of a status line. -/
def readStatus (line : Bytes) : Option (Nat × Bytes) :=
  if ascii "HTTP/1.1 " <+: line then
    let rest := line.drop (ascii "HTTP/1.1 ").length
    if SP ∈ rest then
      (number (rest.take (rest.idxOf SP))).map fun code => (code, rest.drop (rest.idxOf SP + 1))
    else none
  else none

/-- The name of a header line ends at its first colon, which a space follows. -/
def readField (line : Bytes) : Option (Bytes × Bytes) :=
  match line.drop (line.idxOf COLON) with
  | colon :: space :: value =>
    if colon = COLON ∧ space = SP then some (line.take (line.idxOf COLON), value) else none
  | _ => none

/-- One response and what follows it: its head ends at the first empty line, and the body
has the length the head gives. The headers are those that were added to the response. -/
def readResponse (stream : Bytes) : Option (ReadResponse × Bytes) := do
  let (head, rest) ← Lines.cutBlank CR LF stream
  let (statusCode, statusMessage) ← readStatus ((Lines.split CR LF head).headD [])
  let fields ← (Lines.split CR LF head).tail.mapM readField
  let length ← (fields.lookup (ascii "Content-Length")).bind number
  if length ≤ rest.length then
    let own := fields.filter fun field => field.1 ≠ ascii "Content-Length"
    some ({
      statusCode
      statusMessage
      headers := own.erase (ascii "Connection", ascii "Keep-Alive")
      body := rest.take length }, rest.drop length)
  else none

/-- As many responses as the fuel allows. -/
def readResponses : Nat → Bytes → Option (List ReadResponse)
  | _, [] => some []
  | 0, _ => none
  | fuel + 1, stream => do
    let (response, rest) ← readResponse stream
    let later ← readResponses fuel rest
    return response :: later

/-- All responses of a stream; each takes at least a byte of it. -/
def readStream (stream : Bytes) : Option (List ReadResponse) := readResponses stream.length stream

namespace HttpResponse

/-- What the reader is to get. -/
def reading (response : HttpResponse) : ReadResponse where
  statusCode := response.statusCode.value
  statusMessage := response.statusMessage
  headers := response.headers.toList
  body := response.body

/-- A response that leaves the connection open, with the texts of its head in lines of
their own. -/
structure KeepAlive (response : HttpResponse) : Prop where
  open_ : response.closeConnection = false
  size : response.body.length < 2147483648
  message : CR ∉ response.statusMessage ∧ LF ∉ response.statusMessage
  names : ∀ header ∈ response.headers.toList,
    CR ∉ header.1 ∧ LF ∉ header.1 ∧ COLON ∉ header.1 ∧ header.1 ≠ ascii "Content-Length"
  values : ∀ header ∈ response.headers.toList, CR ∉ header.2 ∧ LF ∉ header.2

def statusText (response : HttpResponse) : Bytes :=
  ascii "HTTP/1.1 " ++ decimal response.statusCode.value ++ ascii " "

def lengthText (response : HttpResponse) : Bytes :=
  ascii "Content-Length: " ++ decimal response.body.length ++ ascii "\r\n"

def fieldLine (header : Bytes × Bytes) : Bytes := header.1 ++ COLON :: SP :: header.2

/-- The lines of the head. -/
def headLines (response : HttpResponse) : List Bytes :=
  (response.statusText ++ response.statusMessage) ::
    fieldLine (ascii "Content-Length", decimal response.body.length) ::
      fieldLine (ascii "Connection", ascii "Keep-Alive") ::
        response.headers.toList.map fieldLine

end HttpResponse

theorem snprintf_whole {size : Nat} {text : Bytes} (fits : text.length < size) :
    snprintf size text = text := List.take_of_length_le (by omega)

theorem decimal_length_le {n count : Nat} (some_ : 0 < count) (bound : n < Nat.pow 10 count) :
    (decimal n).length ≤ count := by
  rw [decimal, List.length_map]
  exact (Nat.length_toDigits_le_iff (by decide) some_).mpr bound

theorem digit_value {digit : Char} (isDigit : digit.isDigit) :
    isdigit digit.toNat.toUInt8 = true ∧ digit.toNat.toUInt8.toNat = digit.toNat := by
  have range : 48 ≤ digit.toNat ∧ digit.toNat ≤ 57 := by
    simpa [Char.isDigit, UInt32.le_iff_toNat_le] using isDigit
  have same : digit.toNat.toUInt8.toNat = digit.toNat := by
    simp only [Nat.toUInt8, UInt8.toNat_ofNat']
    omega
  refine ⟨?_, same⟩
  simp only [isdigit, Bool.and_eq_true, decide_eq_true_eq, UInt8.le_iff_toNat_le, same]
  exact range

theorem decimal_isdigit (n : Nat) : ∀ digit ∈ decimal n, isdigit digit = true := by
  intro digit member
  obtain ⟨char, isChar, rfl⟩ := List.mem_map.mp member
  exact (digit_value (Nat.isDigit_of_mem_toDigits (by decide) (by decide) isChar)).1

theorem not_mem_decimal {byte : UInt8} (other : isdigit byte = false) (n : Nat) :
    byte ∉ decimal n := by
  intro member
  rw [decimal_isdigit n byte member] at other
  cases other

/-- A printed number is read back. -/
theorem number_decimal (n : Nat) : number (decimal n) = some n := by
  have nonempty : decimal n ≠ [] := by
    simp [decimal, Nat.toDigits_ne_nil]
  rw [number, if_pos ⟨nonempty, List.all_eq_true.mpr (decimal_isdigit n)⟩]
  congr 1
  calc
    _ = Nat.ofDigitChars 10 (Nat.toDigits 10 n) 0 := by
      rw [Nat.ofDigitChars_eq_foldl, decimal, List.foldl_map]
      apply List.foldl_ext
      intro value digit member
      have isDigit := Nat.isDigit_of_mem_toDigits (by decide) (by decide) member
      rw [(digit_value isDigit).2, Nat.mul_comm]
      rfl
    _ = n := Nat.ofDigitChars_ten_toDigits

theorem readField_fieldLine {header : Bytes × Bytes} (plain : COLON ∉ header.1) :
    readField (HttpResponse.fieldLine header) = some header := by
  have colon : (HttpResponse.fieldLine header).idxOf COLON = header.1.length := by
    rw [HttpResponse.fieldLine, List.idxOf_append_of_notMem plain, List.idxOf_cons_self]
    rfl
  rw [readField, colon, HttpResponse.fieldLine, List.drop_left, List.take_left]
  exact if_pos ⟨rfl, rfl⟩

theorem readStatus_statusText (response : HttpResponse) (message : Bytes) :
    readStatus (response.statusText ++ message) = some (response.statusCode.value, message) := by
  have code : SP ∉ decimal response.statusCode.value := not_mem_decimal (by decide) _
  have whole : response.statusText ++ message =
      ascii "HTTP/1.1 " ++ (decimal response.statusCode.value ++ SP :: message) := by
    simp [HttpResponse.statusText, show ascii " " = [SP] from rfl]
  have space : (decimal response.statusCode.value ++ SP :: message).idxOf SP =
      (decimal response.statusCode.value).length := by
    rw [List.idxOf_append_of_notMem code, List.idxOf_cons_self]
    rfl
  rw [whole, readStatus, if_pos (List.prefix_append _ _), List.drop_left]
  simp only
  rw [if_pos (by simp), space, List.take_left, number_decimal, ← List.drop_drop, List.drop_left]
  rfl

namespace HttpResponse
variable {response : HttpResponse}

theorem statusText_fits (response : HttpResponse) : response.statusText.length < 32 := by
  have digits : (decimal response.statusCode.value).length ≤ 3 := by
    apply decimal_length_le (by decide)
    cases response.statusCode <;> decide
  have before : (ascii "HTTP/1.1 ").length = 9 := rfl
  have behind : (ascii " ").length = 1 := rfl
  simp only [statusText, List.length_append]
  omega

theorem KeepAlive.lengthText_fits (keepAlive : response.KeepAlive) :
    response.lengthText.length < 32 := by
  have digits : (decimal response.body.length).length ≤ 10 := by
    apply decimal_length_le (by decide)
    have size := keepAlive.size
    have power : Nat.pow 10 10 = 10000000000 := rfl
    omega
  have before : (ascii "Content-Length: ").length = 16 := rfl
  have behind : (ascii "\r\n").length = 2 := rfl
  simp only [lengthText, List.length_append]
  omega

/-- The headers that are appended are lines. -/
theorem flatten_headers (headers : List (Bytes × Bytes)) :
    (headers.flatMap fun header =>
      [header.1, ascii ": ", header.2, ascii "\r\n"]).flatten =
        Lines.encode CR LF (headers.map fieldLine) := by
  have crlf : ascii "\r\n" = [CR, LF] := rfl
  have colon : ascii ": " = [COLON, SP] := rfl
  induction headers with
  | nil => rfl
  | cons header rest ih =>
    rw [List.flatMap_cons, List.flatten_append, ih, List.map_cons, Lines.encode_cons]
    simp [fieldLine, crlf, colon]

/-- What is appended is a block of lines, an empty line and the body. -/
theorem KeepAlive.bytes (keepAlive : response.KeepAlive) :
    response.appendToBuffer [] =
      Lines.encode CR LF response.headLines ++ CR :: LF :: response.body := by
  have crlf : ascii "\r\n" = [CR, LF] := rfl
  have size : ascii "Content-Length: " = ascii "Content-Length" ++ [COLON, SP] := rfl
  have connection : ascii "Connection: Keep-Alive\r\n" =
      fieldLine (ascii "Connection", ascii "Keep-Alive") ++ [CR, LF] := rfl
  have status : snprintf 32 (ascii "HTTP/1.1 " ++ decimal response.statusCode.value ++ ascii " ") =
      response.statusText := snprintf_whole response.statusText_fits
  have length : snprintf 32 (ascii "Content-Length: " ++ decimal response.body.length ++
      ascii "\r\n") = response.lengthText := snprintf_whole keepAlive.lengthText_fits
  rw [appendToBuffer, appended, status, length, keepAlive.open_]
  simp only [List.flatten_append, flatten_headers, headLines, Lines.encode_cons]
  simp [lengthText, fieldLine, crlf, size, connection]

theorem not_mem_fieldLine {header : Bytes × Bytes} (name : CR ∉ header.1) (value : CR ∉ header.2) :
    fieldLine header ≠ [] ∧ CR ∉ fieldLine header := by
  constructor
  · simp [fieldLine]
  · simp only [fieldLine, List.mem_append, List.mem_cons, not_or]
    exact ⟨name, by decide, by decide, value⟩

theorem statusText_plain (response : HttpResponse) {message : Bytes} (texts : CR ∉ message) :
    response.statusText ++ message ≠ [] ∧ CR ∉ response.statusText ++ message := by
  have digits : CR ∉ decimal response.statusCode.value := not_mem_decimal (by decide) _
  constructor
  · simp [statusText, show ascii " " = [SP] from rfl]
  · simp only [statusText, List.mem_append, not_or]
    exact ⟨⟨⟨by decide, digits⟩, by decide⟩, texts⟩

/-- No line of the head is empty or holds a line end. -/
theorem KeepAlive.headLines_plain (keepAlive : response.KeepAlive) :
    ∀ line ∈ response.headLines, line ≠ [] ∧ CR ∉ line := by
  intro line member
  simp only [headLines, List.mem_cons, List.mem_map] at member
  rcases member with rfl | rfl | rfl | ⟨header, own, rfl⟩
  · exact statusText_plain response keepAlive.message.1
  · exact not_mem_fieldLine (show CR ∉ ascii "Content-Length" by decide)
      (not_mem_decimal (by decide) _)
  · decide
  · exact not_mem_fieldLine (keepAlive.names header own).1 (keepAlive.values header own).1

/-- The added headers are the fields of the head but the two that always stand there. -/
theorem KeepAlive.own_headers (keepAlive : response.KeepAlive) (length : Bytes) :
    (((ascii "Content-Length", length) :: (ascii "Connection", ascii "Keep-Alive") ::
      response.headers.toList).filter fun field => field.1 ≠ ascii "Content-Length").erase
        (ascii "Connection", ascii "Keep-Alive") = response.headers.toList := by
  have kept : response.headers.toList.filter (fun field => field.1 ≠ ascii "Content-Length") =
      response.headers.toList := by
    apply List.filter_eq_self.mpr
    intro header own
    exact decide_eq_true (keepAlive.names header own).2.2.2
  rw [List.filter_cons_of_neg (by simp), List.filter_cons_of_pos (by decide), kept,
    List.erase_cons_head]

end HttpResponse

theorem mapM_readField (headers : List (Bytes × Bytes))
    (plain : ∀ header ∈ headers, COLON ∉ header.1) :
    (headers.map HttpResponse.fieldLine).mapM readField = some headers := by
  induction headers with
  | nil => rfl
  | cons header rest ih =>
    rw [List.map_cons, List.mapM_cons, readField_fieldLine (plain header (List.mem_cons_self ..)),
      ih fun other member => plain other (List.mem_cons_of_mem _ member)]
    rfl

/-- The reader gets back the first response and leaves the bytes behind it. -/
theorem readResponse_appendToBuffer {response : HttpResponse} (keepAlive : response.KeepAlive)
    (rest : Bytes) :
    readResponse (response.appendToBuffer [] ++ rest) = some (response.reading, rest) := by
  have distinct : CR ≠ LF := by decide
  have some_ : response.headLines ≠ [] := List.cons_ne_nil _ _
  obtain ⟨head, cut, lines⟩ :=
    Lines.cutBlank_encode distinct some_ keepAlive.headLines_plain (response.body ++ rest)
  have stream : response.appendToBuffer [] ++ rest =
      Lines.encode CR LF response.headLines ++ CR :: LF :: (response.body ++ rest) := by
    rw [keepAlive.bytes]
    simp
  have status : readStatus (response.headLines.headD []) =
      some (response.statusCode.value, response.statusMessage) :=
    readStatus_statusText response response.statusMessage
  have fields : response.headLines.tail.mapM readField =
      some ((ascii "Content-Length", decimal response.body.length) ::
        (ascii "Connection", ascii "Keep-Alive") :: response.headers.toList) := by
    apply mapM_readField ((ascii "Content-Length", decimal response.body.length) ::
      (ascii "Connection", ascii "Keep-Alive") :: response.headers.toList)
    intro header member
    rcases List.mem_cons.mp member with rfl | member
    · exact show COLON ∉ ascii "Content-Length" by decide
    rcases List.mem_cons.mp member with rfl | own
    · decide
    · exact (keepAlive.names header own).2.2.1
  rw [stream, readResponse, cut]
  simp only [Option.bind_eq_bind, Option.bind_some, lines, status, fields, List.lookup_cons_self,
    number_decimal]
  rw [if_pos (by simp), keepAlive.own_headers, List.take_left, List.drop_left]
  rfl

/-- The responses are appended one behind the other. -/
theorem foldl_appendToBuffer (responses : List HttpResponse) (output : Bytes) :
    responses.foldl (fun output response => response.appendToBuffer output) output =
      output ++ responses.flatMap fun response => response.appendToBuffer [] := by
  induction responses generalizing output with
  | nil => simp
  | cons response rest ih =>
    calc
      _ = response.appendToBuffer output ++
          rest.flatMap (fun response => response.appendToBuffer []) := ih _
      _ = _ := by simp [HttpResponse.appendToBuffer]

/-- Every response is at least a byte long. -/
theorem length_le_flatMap (responses : List HttpResponse)
    (keepAlive : ∀ response ∈ responses, response.KeepAlive) :
    responses.length ≤
      (responses.flatMap fun response => response.appendToBuffer []).length := by
  induction responses with
  | nil => exact Nat.le_refl 0
  | cons response rest ih =>
    have later := ih fun response member => keepAlive response (List.mem_cons_of_mem _ member)
    have here := congrArg List.length (keepAlive response (List.mem_cons_self ..)).bytes
    simp only [List.length_append, List.length_cons] at here
    rw [List.flatMap_cons, List.length_append, List.length_cons]
    omega

theorem readResponses_flatMap (responses : List HttpResponse)
    (keepAlive : ∀ response ∈ responses, response.KeepAlive) (fuel : Nat)
    (enough : responses.length ≤ fuel) :
    readResponses fuel (responses.flatMap fun response => response.appendToBuffer []) =
      some (responses.map HttpResponse.reading) := by
  induction responses generalizing fuel with
  | nil => cases fuel <;> rfl
  | cons response rest ih =>
    have here := keepAlive response (List.mem_cons_self ..)
    have later : ∀ response ∈ rest, response.KeepAlive := fun response member =>
      keepAlive response (List.mem_cons_of_mem _ member)
    cases fuel with
    | zero => cases enough
    | succ fuel =>
      have read := readResponse_appendToBuffer here
        (rest.flatMap fun response => response.appendToBuffer [])
      rw [List.flatMap_cons]
      generalize same : response.appendToBuffer [] ++
        rest.flatMap (fun response => response.appendToBuffer []) = stream at read ⊢
      cases stream with
      | nil => cases read
      | cons byte stream =>
        simp only [readResponses, read, Option.bind_eq_bind, Option.bind_some,
          ih later fuel (Nat.le_of_succ_le_succ enough)]
        rfl

/-- Any sequence of responses that keep the connection alive is read back as it was, and
neither text printed for the head is cut short. -/
theorem responses_delimited (responses : List HttpResponse)
    (keepAlive : ∀ response ∈ responses, response.KeepAlive) :
    readStream (responses.foldl (fun output response => response.appendToBuffer output) []) =
        some (responses.map HttpResponse.reading) ∧
      ∀ response ∈ responses,
        snprintf 32 response.statusText = response.statusText ∧
          snprintf 32 response.lengthText = response.lengthText := by
  constructor
  · rw [foldl_appendToBuffer, List.nil_append]
    exact readResponses_flatMap responses keepAlive _ (length_le_flatMap responses keepAlive)
  · intro response member
    exact ⟨snprintf_whole response.statusText_fits,
      snprintf_whole (keepAlive response member).lengthText_fits⟩

/-- A body that looks like the end of a head and a further response. -/
def nested : HttpResponse where
  statusCode := .k200Ok
  closeConnection := false
  body := ascii "\r\n\r\nHTTP/1.1 404 Not Found\r\n\r\n"

theorem responses_delimited_nested :
    readStream ([nested, nested].foldl (fun output r => r.appendToBuffer output) []) =
        some ([nested, nested].map HttpResponse.reading) ∧
      ∀ response ∈ [nested, nested],
        snprintf 32 response.statusText = response.statusText ∧
          snprintf 32 response.lengthText = response.lengthText := by
  apply responses_delimited
  intro response member
  have headers : nested.headers.toList = [] := by decide
  have same : response = nested := by simpa using member
  subst same
  constructor
  · rfl
  · decide
  · decide
  · rw [headers]
    intro header own
    cases own
  · rw [headers]
    intro header own
    cases own

end RabbitServer.Http
