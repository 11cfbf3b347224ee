import RabbitServer.Http.Dialogue
import RabbitServer.Http.ResponseStream

/-! The whole stream a peer reads of its connection, the last answer included: a response that
closes gives no length and ends where the stream ends. -/

namespace RabbitServer.Http
open RabbitServer.Net Library Library.Runs

/-- The texts of the head stand in lines of their own, and the length is printed whole. -/
structure HttpResponse.Legible (response : HttpResponse) : Prop where
  size : response.closeConnection = false → response.body.length < 2147483648
  message : CR ∉ response.statusMessage ∧ LF ∉ response.statusMessage
  names : ∀ header ∈ response.headers.toList,
    CR ∉ header.1 ∧ LF ∉ header.1 ∧ COLON ∉ header.1 ∧ header.1 ≠ ascii "Content-Length"
  values : ∀ header ∈ response.headers.toList, CR ∉ header.2 ∧ LF ∉ header.2

instance (response : HttpResponse) : Decidable response.Legible :=
  decidable_of_iff
    ((response.closeConnection = false → response.body.length < 2147483648) ∧
      (CR ∉ response.statusMessage ∧ LF ∉ response.statusMessage) ∧
      (∀ header ∈ response.headers.toList,
        CR ∉ header.1 ∧ LF ∉ header.1 ∧ COLON ∉ header.1 ∧ header.1 ≠ ascii "Content-Length") ∧
      ∀ header ∈ response.headers.toList, CR ∉ header.2 ∧ LF ∉ header.2)
    (Iff.intro (fun all => ⟨all.1, all.2.1, all.2.2.1, all.2.2.2⟩)
      fun legible => ⟨legible.size, legible.message, legible.names, legible.values⟩)

namespace Answer

def Legible : Answer → Prop
  | .badRequest => True
  | .response request httpCallback => (responseTo httpCallback request).Legible

instance : DecidablePred Legible
  | .badRequest => inferInstanceAs (Decidable True)
  | .response request httpCallback =>
    inferInstanceAs (Decidable (responseTo httpCallback request).Legible)

/-- What the peer is to get. -/
def reading : Answer → ReadResponse
  | .badRequest => {
      statusCode := HttpStatusCode.k400BadRequest.value
      statusMessage := ascii "Bad Request"
      headers := []
      body := [] }
  | .response request httpCallback => (responseTo httpCallback request).reading

end Answer

namespace HttpResponse
variable {response : HttpResponse}

theorem Legible.keepAlive (legible : response.Legible) (open_ : response.closeConnection = false) :
    response.KeepAlive where
  open_ := open_
  size := legible.size open_
  message := legible.message
  names := legible.names
  values := legible.values

end HttpResponse

namespace Answer

end Answer

theorem LastCloses.tail {answer : Answer} {answers : List Answer}
    (last : LastCloses (answer :: answers)) : LastCloses answers := by
  intro before other after split
  exact last (answer :: before) other after (by rw [split, List.cons_append])

variable {LoopId : Type} [DecidableEq LoopId]

end RabbitServer.Http
