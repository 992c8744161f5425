/-!
# Node types

A decompiled function is a tree of C constructs.  The constructs form a closed, numbered list:
seventy kinds of expression come first, thirteen kinds of statement follow them.  This file fixes
the list, the name and the C form of each entry, and the correspondence with positions.

The split into `ExprOp` and `StmtOp` carries the class of a node type in its constructor, so
nothing has to be remembered about where the expressions end.
-/

namespace Pseudocode

/-- The class of a tree node: it either has a value or is executed. -/
inductive Class where
  | expression
  | statement
  deriving DecidableEq, Repr

namespace Class

/-- The word for a class in error messages. -/
def word : Class → String
  | .expression => "expression"
  | .statement => "statement"

end Class

/-- The C expressions, in the order of their numbers. -/
inductive ExprOp where
  | empty | comma | asg | asgBOr | asgXor | asgBAnd | asgAdd | asgSub | asgMul | asgSShr
  | asgUShr | asgShl | asgSDiv | asgUDiv | asgSMod | asgUMod | tern | lOr | lAnd | bOr | xor
  | bAnd | eq | ne | sGe | uGe | sLe | uLe | sGt | uGt | sLt | uLt | sShr | uShr | shl | add
  | sub | mul | sDiv | uDiv | sMod | uMod | fAdd | fSub | fMul | fDiv | fNeg | neg | cast
  | lNot | bNot | ptr | ref | postInc | postDec | preInc | preDec | call | idx | memRef
  | memPtr | num | fNum | str | obj | var | insn | sizeof | helper | type
  deriving DecidableEq, Repr

/-- The C statements, in the order of their numbers. -/
inductive StmtOp where
  | empty | block | exprStmt | ifStmt | forStmt | whileStmt | doStmt | switchStmt | breakStmt
  | continueStmt | returnStmt | gotoStmt | asmStmt
  deriving DecidableEq, Repr

namespace ExprOp

/-- Every expression, in the order of the numbers. -/
def all : List ExprOp :=
  [.empty, .comma, .asg, .asgBOr, .asgXor, .asgBAnd, .asgAdd, .asgSub, .asgMul, .asgSShr,
   .asgUShr, .asgShl, .asgSDiv, .asgUDiv, .asgSMod, .asgUMod, .tern, .lOr, .lAnd, .bOr, .xor,
   .bAnd, .eq, .ne, .sGe, .uGe, .sLe, .uLe, .sGt, .uGt, .sLt, .uLt, .sShr, .uShr, .shl, .add,
   .sub, .mul, .sDiv, .uDiv, .sMod, .uMod, .fAdd, .fSub, .fMul, .fDiv, .fNeg, .neg, .cast,
   .lNot, .bNot, .ptr, .ref, .postInc, .postDec, .preInc, .preDec, .call, .idx, .memRef,
   .memPtr, .num, .fNum, .str, .obj, .var, .insn, .sizeof, .helper, .type]

/-- Number of an expression in the list. -/
def index (op : ExprOp) : Nat := op.ctorIdx

/-- The word that the names of an expression and of its kind share. -/
def stem : ExprOp → String
  | .empty => "Empty"
  | .comma => "Comma"
  | .asg => "Asg"
  | .asgBOr => "AsgBOr"
  | .asgXor => "AsgXor"
  | .asgBAnd => "AsgBAnd"
  | .asgAdd => "AsgAdd"
  | .asgSub => "AsgSub"
  | .asgMul => "AsgMul"
  | .asgSShr => "AsgSShr"
  | .asgUShr => "AsgUShr"
  | .asgShl => "AsgShl"
  | .asgSDiv => "AsgSDiv"
  | .asgUDiv => "AsgUDiv"
  | .asgSMod => "AsgSMod"
  | .asgUMod => "AsgUMod"
  | .tern => "Tern"
  | .lOr => "LOr"
  | .lAnd => "LAnd"
  | .bOr => "BOr"
  | .xor => "Xor"
  | .bAnd => "BAnd"
  | .eq => "Eq"
  | .ne => "Ne"
  | .sGe => "SGe"
  | .uGe => "UGe"
  | .sLe => "SLe"
  | .uLe => "ULe"
  | .sGt => "SGt"
  | .uGt => "UGt"
  | .sLt => "SLt"
  | .uLt => "ULt"
  | .sShr => "SShr"
  | .uShr => "UShr"
  | .shl => "Shl"
  | .add => "Add"
  | .sub => "Sub"
  | .mul => "Mul"
  | .sDiv => "SDiv"
  | .uDiv => "UDiv"
  | .sMod => "SMod"
  | .uMod => "UMod"
  | .fAdd => "FAdd"
  | .fSub => "FSub"
  | .fMul => "FMul"
  | .fDiv => "FDiv"
  | .fNeg => "FNeg"
  | .neg => "Neg"
  | .cast => "Cast"
  | .lNot => "LNot"
  | .bNot => "BNot"
  | .ptr => "Ptr"
  | .ref => "Ref"
  | .postInc => "PostInc"
  | .postDec => "PostDec"
  | .preInc => "PreInc"
  | .preDec => "PreDec"
  | .call => "Call"
  | .idx => "Idx"
  | .memRef => "MemRef"
  | .memPtr => "MemPtr"
  | .num => "Num"
  | .fNum => "FNum"
  | .str => "Str"
  | .obj => "Obj"
  | .var => "Var"
  | .insn => "Insn"
  | .sizeof => "Sizeof"
  | .helper => "Helper"
  | .type => "Type"

/-- The C form of an expression over its operands `x`, `y` and `z`. -/
def form : ExprOp → String
  | .empty => "empty expression"
  | .comma => "x, y"
  | .asg => "x = y"
  | .asgBOr => "x |= y"
  | .asgXor => "x ^= y"
  | .asgBAnd => "x &= y"
  | .asgAdd => "x += y"
  | .asgSub => "x -= y"
  | .asgMul => "x *= y"
  | .asgSShr => "x >>= y signed"
  | .asgUShr => "x >>= y unsigned"
  | .asgShl => "x <<= y"
  | .asgSDiv => "x /= y signed"
  | .asgUDiv => "x /= y unsigned"
  | .asgSMod => "x %= y signed"
  | .asgUMod => "x %= y unsigned"
  | .tern => "x ? y : z"
  | .lOr => "x || y"
  | .lAnd => "x && y"
  | .bOr => "x | y"
  | .xor => "x ^ y"
  | .bAnd => "x & y"
  | .eq => "x == y int or fpu"
  | .ne => "x != y int or fpu"
  | .sGe => "x >= y signed or fpu"
  | .uGe => "x >= y unsigned"
  | .sLe => "x <= y signed or fpu"
  | .uLe => "x <= y unsigned"
  | .sGt => "x > y signed or fpu"
  | .uGt => "x > y unsigned"
  | .sLt => "x < y signed or fpu"
  | .uLt => "x < y unsigned"
  | .sShr => "x >> y signed"
  | .uShr => "x >> y unsigned"
  | .shl => "x << y"
  | .add => "x + y"
  | .sub => "x - y"
  | .mul => "x * y"
  | .sDiv => "x / y signed"
  | .uDiv => "x / y unsigned"
  | .sMod => "x % y signed"
  | .uMod => "x % y unsigned"
  | .fAdd => "x + y fp"
  | .fSub => "x - y fp"
  | .fMul => "x * y fp"
  | .fDiv => "x / y fp"
  | .fNeg => "-x fp"
  | .neg => "-x"
  | .cast => "(type)x"
  | .lNot => "!x"
  | .bNot => "~x"
  | .ptr => "*x"
  | .ref => "&x"
  | .postInc => "x++"
  | .postDec => "x--"
  | .preInc => "++x"
  | .preDec => "--x"
  | .call => "x(...)"
  | .idx => "x[y]"
  | .memRef => "x.m"
  | .memPtr => "x->m"
  | .num => "n"
  | .fNum => "fpc"
  | .str => "string constant"
  | .obj => "obj_ea"
  | .var => "v"
  | .insn => "instruction in expression"
  | .sizeof => "sizeof(x)"
  | .helper => "arbitrary name"
  | .type => "arbitrary type"

theorem length_all : all.length = 70 := rfl

/-- The list of expressions holds each one at its own number. -/
theorem all_getElem?_index (op : ExprOp) : all[op.index]? = some op := by
  cases op <;> rfl

theorem index_lt (op : ExprOp) : op.index < 70 := by
  cases op <;> decide

end ExprOp

namespace StmtOp

/-- Every statement, in the order of the numbers. -/
def all : List StmtOp :=
  [.empty, .block, .exprStmt, .ifStmt, .forStmt, .whileStmt, .doStmt, .switchStmt, .breakStmt,
   .continueStmt, .returnStmt, .gotoStmt, .asmStmt]

/-- Number of a statement among the statements. -/
def index (op : StmtOp) : Nat := op.ctorIdx

/-- The word that the names of a statement and of its kind share. -/
def stem : StmtOp → String
  | .empty => "Empty"
  | .block => "Block"
  | .exprStmt => "Expr"
  | .ifStmt => "If"
  | .forStmt => "For"
  | .whileStmt => "While"
  | .doStmt => "Do"
  | .switchStmt => "Switch"
  | .breakStmt => "Break"
  | .continueStmt => "Continue"
  | .returnStmt => "Return"
  | .gotoStmt => "Goto"
  | .asmStmt => "Asm"

/-- What a statement is called. -/
def form : StmtOp → String
  | .empty => "empty statement"
  | .block => "block-statement: \x7b ... \x7d"
  | .exprStmt => "expression-statement: expr;"
  | .ifStmt => "if-statement"
  | .forStmt => "for-statement"
  | .whileStmt => "while-statement"
  | .doStmt => "do-statement"
  | .switchStmt => "switch-statement"
  | .breakStmt => "break-statement"
  | .continueStmt => "continue-statement"
  | .returnStmt => "return-statement"
  | .gotoStmt => "goto-statement"
  | .asmStmt => "asm-statement"

theorem length_all : all.length = 13 := rfl

/-- The list of statements holds each one at its own number. -/
theorem all_getElem?_index (op : StmtOp) : all[op.index]? = some op := by
  cases op <;> rfl

theorem index_lt (op : StmtOp) : op.index < 13 := by
  cases op <;> decide

end StmtOp

/-- The type of a tree node. -/
inductive NodeType where
  | expr (op : ExprOp)
  | stmt (op : StmtOp)
  deriving DecidableEq, Repr

namespace NodeType

/-- Number of node types. -/
def count : Nat := 83

/-- Every node type, in the order of the numbers. -/
def all : List NodeType := ExprOp.all.map expr ++ StmtOp.all.map stmt

/-- Number of a node type: the statements follow the expressions. -/
def index : NodeType → Nat
  | expr op => op.index
  | stmt op => ExprOp.all.length + op.index

/-- Class of a node type. -/
def cls : NodeType → Class
  | expr _ => .expression
  | stmt _ => .statement

/-- Symbolic name of a node type. -/
def name : NodeType → String
  | expr op => "Cot" ++ op.stem
  | stmt op => "Cit" ++ op.stem

/-- The C construct that a node type stands for. -/
def description : NodeType → String
  | expr op => op.form
  | stmt op => op.form

theorem length_all : all.length = count := rfl

/-- The node type with a given number. -/
def ofIndex (i : Fin count) : NodeType := all.get (i.cast length_all.symm)

/-- The node type with a given name. -/
def ofName? (s : String) : Option NodeType := all.find? fun t => t.name == s

/-- Node types compare as their numbers do. -/
instance : Ord NodeType where
  compare s t := compare s.index t.index

theorem index_lt (t : NodeType) : t.index < count := by
  cases t with
  | expr op => exact Nat.lt_trans op.index_lt (by decide)
  | stmt op =>
    have := op.index_lt
    simp only [index, ExprOp.length_all, count]
    omega

/-- The list of node types holds each one at its own number. -/
theorem all_getElem?_index (t : NodeType) : all[t.index]? = some t := by
  cases t with
  | expr op =>
    have h := op.index_lt
    rw [index, all, List.getElem?_append_left (by simpa [ExprOp.length_all] using h),
      List.getElem?_map, op.all_getElem?_index]
    rfl
  | stmt op =>
    rw [index, all, List.getElem?_append_right (by simp), List.length_map, Nat.add_sub_cancel_left,
      List.getElem?_map, op.all_getElem?_index]
    rfl

/-- Reading a number gives back the node type that has it. -/
theorem ofIndex_index (t : NodeType) (h : t.index < count) : ofIndex ⟨t.index, h⟩ = t := by
  have := t.all_getElem?_index
  rw [List.getElem?_eq_some_iff] at this
  obtain ⟨_, ht⟩ := this
  simpa [ofIndex] using ht

end NodeType

end Pseudocode
