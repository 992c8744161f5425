import Pseudocode.Item

/-!
# Typed access

The parts of an item under the names they have in C.  Each family of accessors is meant for items
that are seen as one of the standard kinds it is named after (`Item.as?`); an accessor reads its own
part alone, so it may succeed although another part of the same item is missing.
-/

namespace Pseudocode

namespace Item

/-- A child that must be there. -/
def required (i : Item) (c : Class) (a : Accessor) : Traced Item :=
  match i.handle.answers a with
  | [] => Traced.error (i.missing a.name)
  | h :: _ => i.registry.resolveAs c h

/-- A child that may be absent. -/
def optional (i : Item) (c : Class) (a : Accessor) : Traced (Option Item) :=
  match i.handle.answers a with
  | [] => Traced.ok none
  | h :: _ => (i.registry.resolveAs c h).andThen fun j => Traced.ok (some j)

/-- All children that an accessor answers. -/
def every (i : Item) (c : Class) (a : Accessor) : Traced (List Item) :=
  (i.handle.answers a).mapM (i.registry.resolveAs c)

/-- A scalar that must be there. -/
def scalar (i : Item) (field : String) : Option α → Except Error α
  | some a => .ok a
  | none => .error (i.missing field)

end Item

/-! ### Expressions -/

namespace Unary

/-- The operand of an operator with one operand. -/
def operand (i : Item) : Traced Item := i.required .expression .x

end Unary

namespace Binary

/-- The left operand. -/
def left (i : Item) : Traced Item := i.required .expression .x

/-- The right operand. -/
def right (i : Item) : Traced Item := i.required .expression .y

end Binary

namespace Member

/-- The object whose member is accessed. -/
def object (i : Item) : Traced Item := i.required .expression .x

/-- The offset of the member. -/
def offset (i : Item) : Except Error UInt32 := i.scalar "m" i.handle.data.member

end Member

namespace Ternary

/-- The condition of a choice between two values. -/
def condition (i : Item) : Traced Item := i.required .expression .x

/-- The value if the condition holds. -/
def thenValue (i : Item) : Traced Item := i.required .expression .y

/-- The value otherwise. -/
def elseValue (i : Item) : Traced Item := i.required .expression .z

end Ternary

namespace Call

/-- The expression that is called. -/
def callee (i : Item) : Traced Item := i.required .expression .x

/-- The arguments, in order. -/
def arguments (i : Item) : Traced (List Item) := i.every .expression .args

/-- Number of arguments. -/
def argumentCount (i : Item) : Nat := i.handle.args.length

end Call

namespace Literal

/-- Value of an integer literal. -/
def number (i : Item) : Except Error UInt64 := i.scalar "numval" i.handle.data.number

/-- Value of a floating point literal. -/
def float (i : Item) : Except Error Binary64 := i.scalar "fpc" i.handle.data.float

/-- Content of a string literal. -/
def text (i : Item) : Except Error String := i.scalar "string" i.handle.data.text

/-- Address of a global object. -/
def object (i : Item) : Except Error Address := i.scalar "obj_ea" i.handle.data.object

/-- Index of a local variable. -/
def variableIndex (i : Item) : Except Error UInt32 :=
  i.scalar "var_idx" i.handle.data.variableIndex

/-- Name of a helper or of a type. -/
def name (i : Item) : Except Error String := i.scalar "helper" i.handle.data.name

end Literal

namespace Embedded

/-- The statement inside an expression.  It is not one of the operands. -/
def statement (i : Item) : Traced Item := i.required .statement .insn

end Embedded

/-! ### Statements -/

namespace ExprStatement

/-- The expression that is evaluated. -/
def expression (i : Item) : Traced Item := i.required .expression .cexpr

end ExprStatement

namespace Return

/-- The returned value, if there is one. -/
def value (i : Item) : Traced (Option Item) := i.optional .expression .cexpr

end Return

namespace Goto

/-- Number of the label that is jumped to. -/
def label (i : Item) : Except Error Int32 := i.scalar "label_num" i.handle.data.label

end Goto

namespace Assembly

/-- Addresses of the instructions. -/
def instructions (i : Item) : List Address := i.handle.data.instructions

end Assembly

namespace Block

/-- Number of statements of a block. -/
def length (i : Item) : Nat := i.handle.block.length

/-- Whether a block has no statements. -/
def isEmpty (i : Item) : Bool := i.handle.block.isEmpty

/-- The statement at an index, if the block is that long. -/
def get? (i : Item) (n : Nat) : Option (Traced Item) :=
  i.handle.block[n]?.map (i.registry.resolveAs .statement)

end Block

namespace If

/-- The condition. -/
def condition (i : Item) : Traced Item := i.required .expression .cexpr

/-- The statement that runs if the condition holds. -/
def thenBranch (i : Item) : Traced Item := i.required .statement .ithen

/-- The statement that runs otherwise, if there is one. -/
def elseBranch (i : Item) : Traced (Option Item) := i.optional .statement .ielse

/-- Whether there is a statement that runs otherwise. -/
def hasElse (i : Item) : Bool := i.handle.ielse.isSome

end If

namespace For

/-- The initialisation. -/
def init (i : Item) : Traced Item := i.required .expression .init

/-- The condition. -/
def condition (i : Item) : Traced Item := i.required .expression .cexpr

/-- The step. -/
def step (i : Item) : Traced Item := i.required .expression .step

/-- The body. -/
def body (i : Item) : Traced Item := i.required .statement .body

end For

namespace Loop

/-- The condition, tested before or after the body. -/
def condition (i : Item) : Traced Item := i.required .expression .cexpr

/-- The body. -/
def body (i : Item) : Traced Item := i.required .statement .body

end Loop

namespace Switch

/-- One case of a switch. -/
structure Case where
  /-- The values that select the case, none for the default. -/
  values : List UInt64
  body : Item

/-- Whether a case is the default. -/
def Case.isDefault (c : Case) : Bool := c.values.isEmpty

/-- The expression that selects a case. -/
def selector (i : Item) : Traced Item := i.required .expression .cexpr

/-- The cases, in order. -/
def cases (i : Item) : Traced (List Case) :=
  i.handle.cases.mapM fun c => do
    let body ← i.registry.resolveAs .statement c.2
    return ⟨c.1, body⟩

end Switch

end Pseudocode
