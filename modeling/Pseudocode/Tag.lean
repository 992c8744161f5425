import Pseudocode.NodeType

/-!
# Tags

A tree node reports what it is through a 32-bit number.  A tag need not be the number of a node
type: a newer decompiler may report constructs that are not on the list.  Numbers up to the last
expression denote expressions, all others statements, whether they are on the list or not.
-/

namespace Pseudocode

/-- The number by which a node reports its type. -/
structure Tag where
  code : Int32
  deriving DecidableEq, Repr

namespace Tag

/-- The reserved tag of something that has no node type. -/
def absent : Tag := ⟨-1⟩

/-- The greatest tag of an expression. -/
def lastExpression : Int32 := 69

/-- Whether a tag denotes an expression. -/
def isExpr (t : Tag) : Bool := t.code ≤ lastExpression

/-- Whether a tag denotes a statement. -/
def isStmt (t : Tag) : Bool := !t.isExpr

/-- The class that a tag denotes. -/
def cls (t : Tag) : Class := if t.isExpr then .expression else .statement

/-- The place of a tag in the list of node types, if it is on the list. -/
def index? (t : Tag) : Option (Fin NodeType.count) :=
  if h : 0 ≤ t.code.toInt ∧ t.code.toInt.toNat < NodeType.count then
    some ⟨t.code.toInt.toNat, h.2⟩
  else
    none

/-- The node type that a tag denotes, if it is on the list. -/
def type? (t : Tag) : Option NodeType := t.index?.map NodeType.ofIndex

/-- A tag's number in decimal. -/
def number (t : Tag) : String := toString t.code.toInt

/-- A tag as messages show it: the name of its node type and its number, or the number alone. -/
def text (t : Tag) : String :=
  match t.type? with
  | some type => type.name ++ " (" ++ t.number ++ ")"
  | none => t.number

/-- A tag as dumps show it. -/
def dump (t : Tag) : String := "Tag(" ++ t.number ++ ")"

/-- Tags compare as their numbers do. -/
instance : Ord Tag where
  compare s t := compare s.code t.code

/-- Whether a kind whose own tag is `own` answers for the tag `t`: a kind with the reserved tag
answers for nothing, any other for exactly its own tag. -/
def claims (own t : Tag) : Bool := own != absent && own == t

end Tag

namespace NodeType

/-- The tag by which nodes report a node type. -/
def tag (t : NodeType) : Tag := ⟨Int32.ofNat t.index⟩

/-- The number of a node type survives the narrowing to a tag. -/
theorem code_tag (t : NodeType) : t.tag.code.toInt = t.index := by
  have h : t.index < 83 := t.index_lt
  rw [tag, Int32.toInt_ofNat_of_lt]
  omega

theorem index?_tag (t : NodeType) : t.tag.index? = some ⟨t.index, t.index_lt⟩ := by
  have h := t.index_lt
  simp [Tag.index?, t.code_tag, h]

/-- A node type is recovered from its tag. -/
@[simp] theorem type?_tag (t : NodeType) : t.tag.type? = some t := by
  simp [Tag.type?, index?_tag, ofIndex_index]

end NodeType

end Pseudocode
