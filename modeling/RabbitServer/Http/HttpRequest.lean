import Mathlib.Data.List.Infix
import RabbitServer.Net.Bytes

/-! `HTTP/HttpRequest.h` -/

namespace RabbitServer.Http
open RabbitServer.Net

/-- How a call can end other than by returning: a failed assertion aborts the
process, and a loop may never end. -/
inductive Halt where
  | assertFailed
  | spins
  deriving DecidableEq

/-- `Timestamp`: microseconds since the epoch. -/
abbrev Timestamp := Int

/-- `std::map<std::string, std::string>` -/
abbrev HeaderMap := Std.ExtTreeMap Bytes Bytes

inductive Method where
  | kInvalid | kGet | kPost | kHead | kPut | kDelete
  deriving DecidableEq

inductive Version where
  | kUnknown | kHttp10 | kHttp11
  deriving DecidableEq

structure HttpRequest where
  method : Method := .kInvalid
  version : Version := .kUnknown
  path : Bytes := []
  query : Bytes := []
  receiveTime : Timestamp := 0
  headers : HeaderMap := ∅
  deriving DecidableEq

def SP : Byte := 32

def QUESTION : Byte := 63

def COLON : Byte := 58

/-- `isspace` in the "C" locale. -/
def isspace (c : Byte) : Bool := c = 32 || (9 ≤ c && c ≤ 13)

/-- The method a token names, `kInvalid` for any other token. -/
def methodOf (token : Bytes) : Method :=
  if token = ascii "GET" then .kGet
  else if token = ascii "POST" then .kPost
  else if token = ascii "HEAD" then .kHead
  else if token = ascii "PUT" then .kPut
  else if token = ascii "DELETE" then .kDelete
  else .kInvalid

namespace HttpRequest

/-- `setMethod` asserts `method_ == kInvalid` before it looks at the token. -/
def setMethod (request : HttpRequest) (token : Bytes) : Except Halt (Bool × HttpRequest) :=
  if request.method = .kInvalid then
    .ok (methodOf token ≠ .kInvalid, { request with method := methodOf token })
  else .error .assertFailed

def setVersion (request : HttpRequest) (version : Version) : HttpRequest :=
  { request with version }

def setPath (request : HttpRequest) (path : Bytes) : HttpRequest := { request with path }

def setQuery (request : HttpRequest) (query : Bytes) : HttpRequest := { request with query }

def setReceiveTime (request : HttpRequest) (receiveTime : Timestamp) : HttpRequest :=
  { request with receiveTime }

/-- `addHeader` on the line `[start, end)` with its first colon at `colon`. -/
def addHeader (request : HttpRequest) (line : Bytes) (colon : Nat) : HttpRequest :=
  let field := line.take colon
  let value := (line.drop (colon + 1)).dropWhile isspace
  let value := (value.reverse.dropWhile isspace).reverse
  { request with headers := request.headers.insert field value }

def getHeader (request : HttpRequest) (field : Bytes) : Bytes := (request.headers[field]?).getD []

/-- What `swap` leaves in `this`: the version is not exchanged. -/
def swap (request that : HttpRequest) : HttpRequest :=
  { request with
    method := that.method
    path := that.path
    query := that.query
    receiveTime := that.receiveTime
    headers := that.headers }

/-- The parts of a request the peer determines. -/
def content (request : HttpRequest) : Method × Version × Bytes × Bytes × HeaderMap :=
  (request.method, request.version, request.path, request.query, request.headers)

end HttpRequest

end RabbitServer.Http
