import Pseudocode.Kind.Standard

/-!
# Tables of the standard kinds

`Kind.standard` finds the kind of a node type.  This file lists the same kinds by their shapes, in
five tables of expressions and two of statements.  A row pairs the name of a kind with the node type
that it wraps and with the places of its children; operators that take the same operands share a
table that gives the operands once.

A table may leave a node type out, list it twice, or give it a wrong name or wrong children.  That
`Kind.rows` does none of this is shown in `Pseudocode.Proofs.Registry.Standard`: its rows describe
the standard kinds, and list each node type exactly once.
-/

namespace Pseudocode

namespace Kind

/-- A row of a table of kinds. -/
structure Row where
  /-- Name of the kind. -/
  name : String
  /-- The node type that the kind wraps. -/
  type : NodeType
  /-- Class and children of the kind. -/
  shape : Shape
  deriving DecidableEq, Repr

namespace Row

/-- The kind that a row describes.  What it shows of a node is settled by the node type. -/
def kind (row : Row) : Kind where
  name := row.name
  tag := row.type.tag
  shape := row.shape
  summary := (standard row.type).summary

/-- The rows of expressions that take the same operands. -/
def family (operands : List Position) (ops : List (String × ExprOp)) : List Row :=
  ops.map fun (name, op) => ⟨name, .expr op, .expression operands⟩

/-- Literals, names and the other expressions without operands. -/
def leaves : List Row := family []
  [("CExprEmpty", .empty), ("CExprNum", .num), ("CExprFNum", .fNum), ("CExprStr", .str),
   ("CExprObj", .obj), ("CExprVar", .var), ("CExprInsn", .insn), ("CExprHelper", .helper),
   ("CExprType", .type)]

/-- Operators with one operand. -/
def unary : List Row := family [.one .x]
  [("CExprFNeg", .fNeg), ("CExprNeg", .neg), ("CExprCast", .cast), ("CExprLNot", .lNot),
   ("CExprBNot", .bNot), ("CExprPtr", .ptr), ("CExprRef", .ref), ("CExprPostInc", .postInc),
   ("CExprPostDec", .postDec), ("CExprPreInc", .preInc), ("CExprPreDec", .preDec),
   ("CExprSizeof", .sizeof)]

/-- Operators with a left and a right operand. -/
def binary : List Row := family [.one .x, .one .y]
  [("CExprComma", .comma), ("CExprAsg", .asg), ("CExprAsgBOr", .asgBOr),
   ("CExprAsgXor", .asgXor), ("CExprAsgBAnd", .asgBAnd), ("CExprAsgAdd", .asgAdd),
   ("CExprAsgSub", .asgSub), ("CExprAsgMul", .asgMul), ("CExprAsgSShr", .asgSShr),
   ("CExprAsgUShr", .asgUShr), ("CExprAsgShl", .asgShl), ("CExprAsgSDiv", .asgSDiv),
   ("CExprAsgUDiv", .asgUDiv), ("CExprAsgSMod", .asgSMod), ("CExprAsgUMod", .asgUMod),
   ("CExprLOr", .lOr), ("CExprLAnd", .lAnd), ("CExprBOr", .bOr), ("CExprXor", .xor),
   ("CExprBAnd", .bAnd), ("CExprEq", .eq), ("CExprNe", .ne), ("CExprSGe", .sGe),
   ("CExprUGe", .uGe), ("CExprSLe", .sLe), ("CExprULe", .uLe), ("CExprSGt", .sGt),
   ("CExprUGt", .uGt), ("CExprSLt", .sLt), ("CExprULt", .uLt), ("CExprSShr", .sShr),
   ("CExprUShr", .uShr), ("CExprShl", .shl), ("CExprAdd", .add), ("CExprSub", .sub),
   ("CExprMul", .mul), ("CExprSDiv", .sDiv), ("CExprUDiv", .uDiv), ("CExprSMod", .sMod),
   ("CExprUMod", .uMod), ("CExprFAdd", .fAdd), ("CExprFSub", .fSub), ("CExprFMul", .fMul),
   ("CExprFDiv", .fDiv), ("CExprIdx", .idx)]

/-- Accesses to a member of the operand. -/
def members : List Row := family [.one .x]
  [("CExprMemRef", .memRef), ("CExprMemPtr", .memPtr)]

/-- The choice between two expressions, and calls. -/
def others : List Row :=
  [⟨"CExprTern", .expr .tern, .expression [.one .x, .one .y, .one .z]⟩,
   ⟨"CExprCall", .expr .call, .expression [.one .x, .any .args]⟩]

/-- Statements in which no statement is nested. -/
def simple : List Row :=
  [⟨"CStmtEmpty", .stmt .empty, .statement [] []⟩,
   ⟨"CStmtBreak", .stmt .breakStmt, .statement [] []⟩,
   ⟨"CStmtContinue", .stmt .continueStmt, .statement [] []⟩,
   ⟨"CStmtExpr", .stmt .exprStmt, .statement [.one .cexpr] []⟩,
   ⟨"CStmtReturn", .stmt .returnStmt, .statement [.any .cexpr] []⟩,
   ⟨"CStmtGoto", .stmt .gotoStmt, .statement [] []⟩,
   ⟨"CStmtAsm", .stmt .asmStmt, .statement [] []⟩]

/-- Blocks, branches and loops. -/
def control : List Row :=
  [⟨"CStmtBlock", .stmt .block, .statement [] [.any .block]⟩,
   ⟨"CStmtIf", .stmt .ifStmt, .statement [.one .cexpr] [.one .ithen, .any .ielse]⟩,
   ⟨"CStmtFor", .stmt .forStmt, .statement [.one .init, .one .cexpr, .one .step] [.one .body]⟩,
   ⟨"CStmtWhile", .stmt .whileStmt, .statement [.one .cexpr] [.one .body]⟩,
   ⟨"CStmtDo", .stmt .doStmt, .statement [.one .cexpr] [.one .body]⟩,
   ⟨"CStmtSwitch", .stmt .switchStmt, .statement [.one .cexpr] [.any .cases]⟩]

end Row

/-- The rows of all tables: the expressions, then the statements. -/
def rows : List Row :=
  [Row.leaves, Row.unary, Row.binary, Row.members, Row.others].flatten ++
    [Row.simple, Row.control].flatten

end Kind

end Pseudocode
