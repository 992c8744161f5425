import Pseudocode.Decimal.Numeral
import Pseudocode.Kind
import Pseudocode.Text.Quoted

/-!
# Standard kinds

The kind of every node type.  Operators take their operands from `x`, `y` and `z`; a call takes its
callee from `x` and its arguments after it.  Literals, names and the embedded instruction have no
operands.  Statements own the expressions that control them and nest the statements they run; the
branch not taken and the returned value may be absent.
-/

namespace Pseudocode

namespace ExprOp

/-- The operands of an expression, in order. -/
def operands : ExprOp → List Position
  | .fNeg | .neg | .cast | .lNot | .bNot | .ptr | .ref | .postInc | .postDec | .preInc | .preDec
  | .sizeof | .memRef | .memPtr => [.one .x]
  | .tern => [.one .x, .one .y, .one .z]
  | .call => [.one .x, .any .args]
  | .empty | .num | .fNum | .str | .obj | .var | .insn | .helper | .type => []
  | _ => [.one .x, .one .y]

/-- Floating point literals are always written out in full, without a needless point. -/
def floatLayout : Layout where
  positional _ := true
  keepsPoint := false
  plus := false
  tie := .awayFromZero

/-- What an expression shows of the scalars of its node. -/
def summary (op : ExprOp) (d : Literals) : Option String :=
  match op with
  | .num => d.number.map fun v => "value=" ++ toString v.toNat
  | .fNum => d.float.map fun v => "value=" ++ floatLayout.text v
  | .str => d.text.map fun v => "value=" ++ Text.quoted v
  | .obj => d.object.map fun v => "obj_ea=" ++ Address.text v
  | .var => d.variableIndex.map fun v => "index=" ++ toString v.toNat
  | .helper => d.name.map fun v => "name=" ++ v
  | .type => d.name.map fun v => "type=" ++ v
  | .memRef | .memPtr => d.member.map fun v => "m=" ++ toString v.toNat
  | _ => none

end ExprOp

namespace StmtOp

/-- The expressions that a statement owns, in order. -/
def expressions : StmtOp → List Position
  | .exprStmt | .ifStmt | .whileStmt | .doStmt | .switchStmt => [.one .cexpr]
  | .forStmt => [.one .init, .one .cexpr, .one .step]
  | .returnStmt => [.any .cexpr]
  | _ => []

/-- The statements nested in a statement, in order. -/
def statements : StmtOp → List Position
  | .block => [.any .block]
  | .ifStmt => [.one .ithen, .any .ielse]
  | .forStmt | .whileStmt | .doStmt => [.one .body]
  | .switchStmt => [.any .cases]
  | _ => []

/-- What a statement shows of its node. -/
def summary (op : StmtOp) (h : Handle) : Option String :=
  match op with
  | .gotoStmt => h.data.label.map fun v => "label=" ++ toString v.toInt
  | .asmStmt => some ("instructions=" ++ toString h.data.instructions.length)
  | .switchStmt => some ("cases=" ++ toString h.cases.length)
  | _ => none

end StmtOp

namespace Kind

/-- The kind of a node type. -/
def standard : NodeType → Kind
  | .expr op =>
    { name := "CExpr" ++ op.stem
      tag := (NodeType.expr op).tag
      shape := .expression op.operands
      summary := fun h => op.summary h.data }
  | .stmt op =>
    { name := "CStmt" ++ op.stem
      tag := (NodeType.stmt op).tag
      shape := .statement op.expressions op.statements
      summary := op.summary }

@[simp] theorem tag_standard (t : NodeType) : (standard t).tag = t.tag := by
  cases t <;> rfl

@[simp] theorem cls_standard (t : NodeType) : (standard t).cls = t.cls := by
  cases t <;> rfl

end Kind

end Pseudocode
