import Pseudocode.Tree

/-!
# Building trees

One constructor per C construct.  Each gives its node the tag and the payload that belong together
but checks nothing about the sub-trees, nor that an operator has the operands its type wants.
-/

namespace Pseudocode

namespace Tree

/-- A node without payload. -/
def leaf (op : Tag) (ea : Address) : Tree := .node ea op .none

/-- An integer literal. -/
def num (ea : Address) (value : UInt64) : Tree := .node ea (NodeType.expr .num).tag (.num value)

/-- A floating point literal. -/
def fnum (ea : Address) (value : Binary64) : Tree :=
  .node ea (NodeType.expr .fNum).tag (.fnum value)

/-- A string literal. -/
def str (ea : Address) (value : String) : Tree := .node ea (NodeType.expr .str).tag (.str value)

/-- A global object. -/
def obj (ea object : Address) : Tree := .node ea (NodeType.expr .obj).tag (.obj object)

/-- A local variable. -/
def var (ea : Address) (index : UInt32) : Tree := .node ea (NodeType.expr .var).tag (.var index)

/-- A helper name. -/
def helper (ea : Address) (name : String) : Tree :=
  .node ea (NodeType.expr .helper).tag (.helper name)

/-- A type name. -/
def typeName (ea : Address) (name : String) : Tree :=
  .node ea (NodeType.expr .type).tag (.helper name)

/-- A statement inside an expression. -/
def insn (ea : Address) (stmt : Tree) : Tree := .node ea (NodeType.expr .insn).tag (.insn stmt)

/-- An operator with one operand. -/
def unary (type : NodeType) (ea : Address) (x : Tree) : Tree :=
  .node ea type.tag (.operands x none none)

/-- An operator with two operands. -/
def binary (type : NodeType) (ea : Address) (x y : Tree) : Tree :=
  .node ea type.tag (.operands x (some y) none)

/-- A choice between two values. -/
def ternary (ea : Address) (x y z : Tree) : Tree :=
  .node ea (NodeType.expr .tern).tag (.operands x (some y) (some z))

/-- A call. -/
def call (ea : Address) (callee : Tree) (args : List Tree) : Tree :=
  .node ea (NodeType.expr .call).tag (.call callee args)

/-- A member of an object, or of the object behind a pointer. -/
def member (type : NodeType) (ea : Address) (x : Tree) (m : UInt32) : Tree :=
  .node ea type.tag (.member x m)

/-- A block. -/
def block (ea : Address) (stmts : List Tree) : Tree :=
  .node ea (NodeType.stmt .block).tag (.block stmts)

/-- An expression as a statement, at the address of the expression. -/
def exprStmt (e : Tree) : Tree := .node e.ea (NodeType.stmt .exprStmt).tag (.expr e)

/-- A conditional statement. -/
def ifStmt (ea : Address) (cond thenBranch : Tree) (otherwise : Option Tree) : Tree :=
  .node ea (NodeType.stmt .ifStmt).tag (.branch cond thenBranch otherwise)

/-- A counting loop. -/
def forStmt (ea : Address) (init cond step body : Tree) : Tree :=
  .node ea (NodeType.stmt .forStmt).tag (.counting init cond step body)

/-- A loop that tests before each turn. -/
def whileStmt (ea : Address) (cond body : Tree) : Tree :=
  .node ea (NodeType.stmt .whileStmt).tag (.loop cond body)

/-- A loop that tests after each turn. -/
def doStmt (ea : Address) (body cond : Tree) : Tree :=
  .node ea (NodeType.stmt .doStmt).tag (.loop cond body)

/-- A switch. -/
def switchStmt (ea : Address) (selector : Tree) (cases : List Case) : Tree :=
  .node ea (NodeType.stmt .switchStmt).tag (.switch selector cases)

/-- A return with or without a value. -/
def returnStmt (ea : Address) (value : Option Tree) : Tree :=
  .node ea (NodeType.stmt .returnStmt).tag (.returned value)

/-- A jump to a label. -/
def gotoStmt (ea : Address) (label : Int32) : Tree :=
  .node ea (NodeType.stmt .gotoStmt).tag (.goto label)

/-- Inline assembly. -/
def asmStmt (ea : Address) (instructions : List Address) : Tree :=
  .node ea (NodeType.stmt .asmStmt).tag (.asm instructions)

end Tree

end Pseudocode
