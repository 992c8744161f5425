import Pseudocode.Decimal.Numeral

/-!
# JSON values

The values that snapshots are written in.  Three things are kept that most readers drop, because a
snapshot is accepted or refused by them: the numeral by which a number is written, the order of the
fields of an object with every repetition, and whether a string literal denotes a text at all.  A
literal whose escapes name half a surrogate pair is well formed but denotes no text; it may stand
only where nobody looks at it.
-/

namespace Pseudocode

/-- The content of a string literal: the text it denotes, or `none` if it denotes none. -/
abbrev Json.Text := Option String

/-- A JSON value. -/
inductive Json where
  | null
  | bool (value : Bool)
  | number (value : Numeral)
  | string (value : Option String)
  | array (items : List Json)
  | object (fields : List (Option String × Json))
  deriving Repr

namespace Json

/-- The JSON string of a text. -/
def text (s : String) : Json := .string (some s)

/-- The JSON number of an integer. -/
def int (n : Int) : Json := .number (.ofInt n)

/-- The JSON number of a natural number. -/
def nat (n : Nat) : Json := .number (.ofNat n)

/-- An object with the given fields. -/
def record (fields : List (String × Json)) : Json :=
  .object (fields.map fun f => (some f.1, f.2))

/-- `null`, or the value of something present. -/
def optional (f : α → Json) : Option α → Json
  | none => .null
  | some a => f a

/-! ### Reading scalars -/

/-- The text that a value is. -/
def text? : Json → Option String
  | .string s => s
  | _ => none

/-- The truth value that a value is. -/
def bool? : Json → Option Bool
  | .bool b => some b
  | _ => none

/-- The integer that a value is. -/
def int? : Json → Option Int
  | .number n => n.toInt?
  | _ => none

/-- The natural number below `bound` that a value is. -/
def natBelow? (bound : Nat) (j : Json) : Option Nat :=
  match j.int? with
  | some n => if 0 ≤ n ∧ n < bound then some n.toNat else none
  | none => none

/-- The 64-bit word that a value is. -/
def word64? (j : Json) : Option UInt64 := (j.natBelow? 0x10000000000000000).map UInt64.ofNat

/-- The 32-bit word that a value is. -/
def word32? (j : Json) : Option UInt32 := (j.natBelow? 0x100000000).map UInt32.ofNat

/-- The signed 32-bit word that a value is. -/
def signed32? (j : Json) : Option Int32 :=
  match j.int? with
  | some n => if -0x80000000 ≤ n ∧ n < 0x80000000 then some (Int32.ofInt n) else none
  | none => none

/-- The floating point number that a value is, rounded to the nearest. -/
def binary64? : Json → Option Binary64
  | .number n => n.toBinary64?
  | _ => none

/-- The items of an array. -/
def items? : Json → Option (List Json)
  | .array items => some items
  | _ => none

/-- The first field with a given name. -/
def field? (name : String) : Json → Option Json
  | .object fields => (fields.find? fun f => f.1 == some name).map Prod.snd
  | _ => none

/-! ### One value per name -/

/-- Whether `name` is the name of one of the fields. -/
def isName (name : Option String) (fields : List (Option String × Json)) : Bool :=
  fields.any fun f => f.1 == name

mutual

/-- The value in which every object keeps only the last of the fields with one name. -/
def lastWins : Json → Json
  | .array items => .array (lastWinsItems items)
  | .object fields => .object (lastWinsFields fields)
  | j => j

/-- `lastWins` on the items of an array. -/
def lastWinsItems : List Json → List Json
  | [] => []
  | j :: js => j.lastWins :: lastWinsItems js

/-- `lastWins` on the fields of an object. -/
def lastWinsFields : List (Option String × Json) → List (Option String × Json)
  | [] => []
  | (name, j) :: rest =>
    if isName name rest then lastWinsFields rest else (name, j.lastWins) :: lastWinsFields rest

end

end Json

end Pseudocode
