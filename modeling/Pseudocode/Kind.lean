import Pseudocode.Handle

/-!
# Kinds

A kind says how nodes of one type are wrapped: under which name, of which class, which accessors of
a handle hold its children and in which order, and what short summary of its scalars it shows.

Children are described by positions.  A position names an accessor and says whether an answer is
required; the class that the answers must have is the class of the list in which the position
stands.  An expression has one such list, its operands.  A statement has two, the expressions it
owns and the statements nested in it.

Kinds are open: besides the standard ones, which `Pseudocode.Kind.Standard` gives for every node
type, a program may define its own.  Such a kind may have any name, tag and class, any accessors for
its children, in any order and each required or not, and any summary of the handle.  Its children
are always answers of these accessors of the wrapped handle: kinds that make up children, or choose
the accessors by what the handle holds, are left out.
-/

namespace Pseudocode

/-- A place where a kind looks for children. -/
structure Position where
  accessor : Accessor
  required : Bool
  deriving DecidableEq, Repr

namespace Position

/-- A child that must be there. -/
def one (a : Accessor) : Position := ⟨a, true⟩

/-- A child that may be absent, or any number of children. -/
def any (a : Accessor) : Position := ⟨a, false⟩

end Position

/-- The class of a kind and the places of its children. -/
inductive Shape where
  | expression (operands : List Position)
  | statement (expressions statements : List Position)
  deriving DecidableEq, Repr

namespace Shape

/-- The class of a shape. -/
def cls : Shape → Class
  | expression _ => .expression
  | statement _ _ => .statement

/-- The places of the children of one class. -/
def positions : Shape → Class → List Position
  | expression operands, .expression => operands
  | expression _, .statement => []
  | statement expressions _, .expression => expressions
  | statement _ statements, .statement => statements

end Shape

/-- A way of wrapping nodes, standard or a program's own.  The kinds covered are those whose children
are what fixed accessors of the wrapped handle answer, in an order that the kind defines, each of
them required or not. -/
structure Kind where
  /-- Name of the kind. -/
  name : String
  /-- The tag that the kind is made for. -/
  tag : Tag
  /-- Class and children of the kind. -/
  shape : Shape
  /-- What the kind shows of the scalars of a node. -/
  summary : Handle → Option String := fun _ => none
  /-- Whether the children are part of the rendering. -/
  listsChildren : Bool := true
  /-- Whether items of the kind can resolve further handles. -/
  dispatches : Bool := true

namespace Kind

/-- The class of a kind. -/
def cls (k : Kind) : Class := k.shape.cls

/-- Whether a kind wraps expressions. -/
def isExpr (k : Kind) : Bool := k.cls == .expression

/-- Whether a kind answers for a tag. -/
def handles (k : Kind) (t : Tag) : Bool := k.tag.claims t

end Kind

end Pseudocode
