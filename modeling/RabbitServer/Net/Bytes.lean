/-! Bytes as the program handles them: `char` storage, string literals and the line end. -/

namespace RabbitServer.Net

abbrev Byte := UInt8

abbrev Bytes := List Byte

/-- The bytes of a string literal of the source. -/
def ascii (text : String) : Bytes := text.toUTF8.data.toList

def CR : Byte := 13

def LF : Byte := 10

/-- `Buffer::kCLRF`. -/
def kCLRF : Bytes := [CR, LF]

end RabbitServer.Net
