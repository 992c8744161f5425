import Pseudocode.Json.Token

/-!
# Writing JSON

A value is written as its tokens without blanks, the fields of objects in their order.  The tokens
are put in front of those that follow, so that writing takes time in proportion to its result and
no list of tokens is ever joined to another.
-/

namespace Pseudocode.Json

mutual

/-- The tokens of a value, and after them `rest`. -/
def tokensThen : Json → List Token → List Token
  | .null, rest => .null :: rest
  | .bool b, rest => .bool b :: rest
  | .number n, rest => .number n :: rest
  | .string s, rest => .string s :: rest
  | .array items, rest => .openArray :: itemTokensThen items (.closeArray :: rest)
  | .object fields, rest => .openObject :: fieldTokensThen fields (.closeObject :: rest)

/-- The tokens between the brackets of an array, and after them `rest`. -/
def itemTokensThen : List Json → List Token → List Token
  | [], rest => rest
  | [j], rest => j.tokensThen rest
  | j :: js, rest => j.tokensThen (.comma :: itemTokensThen js rest)

/-- The tokens between the braces of an object, and after them `rest`. -/
def fieldTokensThen : List (Option String × Json) → List Token → List Token
  | [], rest => rest
  | [(name, j)], rest => .string name :: .colon :: j.tokensThen rest
  | (name, j) :: fields, rest =>
    .string name :: .colon :: j.tokensThen (.comma :: fieldTokensThen fields rest)

end

/-- The tokens of a value. -/
def tokens (j : Json) : List Token := j.tokensThen []

/-- A value as text. -/
def write (j : Json) : String := String.join (j.tokens.map Token.text)

end Pseudocode.Json
