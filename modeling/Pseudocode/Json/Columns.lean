import Pseudocode.Json

/-!
# Records and variants in JSON

Two shapes carry structured data.  A record is an object with named fields, or an array of all its
fields in their declared order.  In an object the order is free, names that are not declared are
ignored, a declared name may stand once, and it may be left out only if its column is optional.  A
variant is either a bare name or an object with a single field.

Readers built on these shapes recurse into the parts they find.  A part is handed out with the proof
that it is smaller than the whole, which is all that such a reader needs to be total.
-/

namespace Pseudocode.Json

/-- A value inside another. -/
abbrev Part (j : Json) := { p : Json // sizeOf p < sizeOf j }

theorem sizeOf_part {j : Json} (p : j.Part) : sizeOf p.1 < sizeOf j := p.2

theorem sizeOf_lt_array {p : Json} {items : List Json} (h : p ∈ items) :
    sizeOf p < sizeOf (Json.array items) := by
  have := List.sizeOf_lt_of_mem h
  simp only [Json.array.sizeOf_spec]
  omega

theorem sizeOf_lt_object {f : Option String × Json} {fields : List (Option String × Json)}
    (h : f ∈ fields) : sizeOf f.2 < sizeOf (Json.object fields) := by
  have := List.sizeOf_lt_of_mem h
  obtain ⟨name, p⟩ := f
  simp only [Json.object.sizeOf_spec, Prod.mk.sizeOf_spec] at *
  omega

/-- The items of an array as parts of it. -/
def parts? : (j : Json) → Option (List j.Part)
  | .array items => some (items.attach.map fun p => ⟨p.1, sizeOf_lt_array p.2⟩)
  | _ => none

/-- The values of the fields with a given name as parts of the object. -/
def named (fields : List (Option String × Json)) (name : String) :
    List (Json.object fields).Part :=
  (fields.attach.filter fun f => f.1.1 == some name).map fun f => ⟨f.1.2, sizeOf_lt_object f.2⟩

/-- A declared field of a record. -/
structure Column where
  name : String
  optional : Bool
  deriving DecidableEq, Repr

namespace Column

/-- A field that must be there. -/
def required (name : String) : Column := ⟨name, false⟩

/-- A field that may be left out. -/
def maybe (name : String) : Column := ⟨name, true⟩

/-- The value of a column in an object: `some none` if it may be left out and is, `none` if the
object is refused. -/
def find? (fields : List (Option String × Json)) (c : Column) :
    Option (Option (Json.object fields).Part) :=
  match named fields c.name with
  | [] => if c.optional then some none else none
  | [p] => some (some p)
  | _ => none

end Column

/-- The values of the columns of a record, in the order of the columns.  `positional` says whether
the array form is admitted. -/
def columns? (positional : Bool) (columns : List Column) :
    (j : Json) → Option (List (Option j.Part))
  | .array items =>
    if positional && items.length == columns.length then
      some (items.attach.map fun p => some ⟨p.1, sizeOf_lt_array p.2⟩)
    else none
  | .object fields =>
    if fields.all fun f => f.1.isSome then columns.mapM (Column.find? fields) else none
  | _ => none

/-- The name of a variant, and its content if there is one. -/
def variant? : (j : Json) → Option (String × Option j.Part)
  | .string (some name) => some (name, none)
  | .object [(some name, p)] =>
    some (name, some ⟨p, sizeOf_lt_object (f := (some name, p)) List.mem_cons_self⟩)
  | _ => none

/-- Whether a value is `null`. -/
def isNull : Json → Bool
  | .null => true
  | _ => false

end Pseudocode.Json
