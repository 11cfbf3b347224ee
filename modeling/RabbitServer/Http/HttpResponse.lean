import RabbitServer.Http.HttpRequest

/-! `HTTP/HttpResponse.cpp` -/

namespace RabbitServer.Http
open RabbitServer.Net

inductive HttpStatusCode where
  | kUnknown | k200Ok | k301MovedPermanently | k400BadRequest | k404NotFound
  deriving DecidableEq

def HttpStatusCode.value : HttpStatusCode → Nat
  | .kUnknown => 0
  | .k200Ok => 200
  | .k301MovedPermanently => 301
  | .k400BadRequest => 400
  | .k404NotFound => 404

structure HttpResponse where
  headers : HeaderMap := ∅
  statusCode : HttpStatusCode := .kUnknown
  statusMessage : Bytes := []
  closeConnection : Bool
  body : Bytes := []

/-- `%d` and `%zd` of a number that is not negative. -/
def decimal (n : Nat) : Bytes := (Nat.toDigits 10 n).map fun digit => digit.toNat.toUInt8

/-- `snprintf` into `size` bytes, the last of them the terminating zero. -/
def snprintf (size : Nat) (text : Bytes) : Bytes := text.take (size - 1)

namespace HttpResponse

/-- The arguments of the calls of `append`, in order. -/
def appended (response : HttpResponse) : List Bytes :=
  [snprintf 32 (ascii "HTTP/1.1 " ++ decimal response.statusCode.value ++ ascii " "),
    response.statusMessage, ascii "\r\n"] ++
  (if response.closeConnection then [ascii "Connection: close\r\n"]
    else [snprintf 32 (ascii "Content-Length: " ++ decimal response.body.length ++ ascii "\r\n"),
      ascii "Connection: Keep-Alive\r\n"]) ++
  (response.headers.toList.flatMap fun header => [header.1, ascii ": ", header.2, ascii "\r\n"]) ++
  [ascii "\r\n", response.body]

def appendToBuffer (response : HttpResponse) (output : Bytes) : Bytes :=
  output ++ response.appended.flatten

end HttpResponse

end RabbitServer.Http
