import Pseudocode.Json.Token

/-!
# Reading JSON

A value is read by a machine that is fed one token at a time and keeps the arrays and objects that
are still open on a stack.  There is no limit on nesting, and the machine has no recursion of its
own: reading is a fold over the tokens.  Its one law is that the tokens of a value take the machine
from wanting a value to having it, whatever is open around it.
-/

namespace Pseudocode.Json

/-- An array or object that is still open.  Finished parts are kept in reverse. -/
inductive Frame where
  | items (done : List Json)
  | fields (done : List (Option String × Json)) (name : Option String)

/-- What the machine is about to see. -/
inductive Mode where
  /-- A value. -/
  | value
  /-- A value, or the end of an array that was just opened. -/
  | firstItem
  /-- A name, or the end of an object that was just opened. -/
  | firstName
  /-- A name, after the fields already finished. -/
  | name (done : List (Option String × Json))
  /-- The colon after a name. -/
  | colon (done : List (Option String × Json)) (name : Option String)
  /-- Whatever follows the value `j`. -/
  | after (j : Json)

/-- The state of the machine. -/
structure Reader where
  stack : List Frame
  mode : Mode

namespace Reader

/-- The machine before the first token. -/
def start : Reader := ⟨[], .value⟩

/-- The token starts a value. -/
def openValue (stack : List Frame) : Token → Option Reader
  | .null => some ⟨stack, .after .null⟩
  | .bool b => some ⟨stack, .after (.bool b)⟩
  | .number n => some ⟨stack, .after (.number n)⟩
  | .string s => some ⟨stack, .after (.string s)⟩
  | .openArray => some ⟨.items [] :: stack, .firstItem⟩
  | .openObject => some ⟨stack, .firstName⟩
  | _ => none

/-- The token follows the value `j`. -/
def closeValue (j : Json) : List Frame → Token → Option Reader
  | .items done :: stack, .comma => some ⟨.items (j :: done) :: stack, .value⟩
  | .items done :: stack, .closeArray => some ⟨stack, .after (.array (j :: done).reverse)⟩
  | .fields done name :: stack, .comma => some ⟨stack, .name ((name, j) :: done)⟩
  | .fields done name :: stack, .closeObject =>
    some ⟨stack, .after (.object ((name, j) :: done).reverse)⟩
  | _, _ => none

/-- The effect of one token. -/
def step (r : Reader) (t : Token) : Option Reader :=
  match r.mode with
  | .value => openValue r.stack t
  | .firstItem =>
    match t, r.stack with
    | .closeArray, .items _ :: stack => some ⟨stack, .after (.array [])⟩
    | t, stack => openValue stack t
  | .firstName =>
    match t with
    | .closeObject => some ⟨r.stack, .after (.object [])⟩
    | .string s => some ⟨r.stack, .colon [] s⟩
    | _ => none
  | .name done =>
    match t with
    | .string s => some ⟨r.stack, .colon done s⟩
    | _ => none
  | .colon done name =>
    match t with
    | .colon => some ⟨.fields done name :: r.stack, .value⟩
    | _ => none
  | .after j => closeValue j r.stack t

/-- The value that the machine has read, if it is complete and nothing is open. -/
def result? (r : Reader) : Option Json :=
  match r.stack, r.mode with
  | [], .after j => some j
  | _, _ => none

end Reader

/-- The value that a sequence of tokens is. -/
def ofTokens? (ts : List Token) : Option Json :=
  (ts.foldlM Reader.step Reader.start).bind Reader.result?

/-- The value that a text is. -/
def parse? (s : String) : Option Json := (Token.lex s).bind ofTokens?

end Pseudocode.Json
