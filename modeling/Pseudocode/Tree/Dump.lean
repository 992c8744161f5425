import Pseudocode.Decimal.Numeral
import Pseudocode.Text.Quoted
import Pseudocode.Tree

/-!
# Dumping trees

A dump spells a tree out part by part, with the name of every part, on one line.  Numbers are
decimal, texts are quoted, and what may be absent is marked as such.
-/

namespace Pseudocode

/-- In a dump a floating point number always has a point or a power of ten, and is written without
the power if it is zero or between `10 ^ (-4)` and `10 ^ 16`. -/
def dumpLayout : Layout where
  positional e := -4 ≤ e && e ≤ 15
  keepsPoint := true
  plus := false
  tie := .awayFromZero

/-- The dump of a named part. -/
def dumpWrapped (name content : String) : String := name ++ "(" ++ content ++ ")"

/-- The dump of something with named fields. -/
def dumpRecord (name : String) (fields : List (String × String)) : String :=
  name ++ " \x7b " ++ ", ".intercalate (fields.map fun f => f.1 ++ ": " ++ f.2) ++ " \x7d"

/-- The dump of a list. -/
def dumpList (items : List String) : String := "[" ++ ", ".intercalate items ++ "]"

/-- The dump of a list of words. -/
def dumpWords (words : List UInt64) : String := dumpList (words.map fun w => toString w.toNat)

mutual

/-- The dump of a tree. -/
def Tree.dump : Tree → String
  | .node ea op payload =>
    dumpRecord "CTreeItem"
      [("ea", toString ea.toNat), ("op", op.dump), ("payload", payload.dump)]

/-- The dump of a payload. -/
def Payload.dump : Payload → String
  | .none => "None"
  | .operands x y z =>
    dumpRecord "Operands" [("x", x.dump), ("y", Tree.dumpOption y), ("z", Tree.dumpOption z)]
  | .call callee args =>
    dumpRecord "Call" [("callee", callee.dump), ("args", dumpList (Tree.dumps args))]
  | .member x m => dumpRecord "Member" [("x", x.dump), ("m", toString m.toNat)]
  | .num value => dumpWrapped "Num" (toString value.toNat)
  | .fnum value => dumpWrapped "FNum" (dumpLayout.text value)
  | .str value => dumpWrapped "Str" (Text.quoted value)
  | .obj object => dumpWrapped "Obj" (toString object.toNat)
  | .var index => dumpWrapped "Var" (toString index.toNat)
  | .helper name => dumpWrapped "Helper" (Text.quoted name)
  | .insn stmt => dumpWrapped "Insn" stmt.dump
  | .block stmts => dumpWrapped "Block" (dumpList (Tree.dumps stmts))
  | .expr e => dumpWrapped "Expr" e.dump
  | .branch cond thenBranch otherwise =>
    dumpRecord "If"
      [("cond", cond.dump), ("then", thenBranch.dump), ("otherwise", Tree.dumpOption otherwise)]
  | .counting init cond step body =>
    dumpRecord "For"
      [("init", init.dump), ("cond", cond.dump), ("step", step.dump), ("body", body.dump)]
  | .loop cond body => dumpRecord "Loop" [("cond", cond.dump), ("body", body.dump)]
  | .switch e cases =>
    dumpRecord "Switch" [("expr", e.dump), ("cases", dumpList (Case.dumps cases))]
  | .returned value => dumpWrapped "Return" (Tree.dumpOption value)
  | .goto label => dumpWrapped "Goto" (toString label.toInt)
  | .asm instructions => dumpWrapped "Asm" (dumpWords instructions)

/-- The dump of a tree that may be absent. -/
def Tree.dumpOption : Option Tree → String
  | none => "None"
  | some t => dumpWrapped "Some" t.dump

/-- The dumps of a list of trees. -/
def Tree.dumps : List Tree → List String
  | [] => []
  | t :: ts => t.dump :: Tree.dumps ts

/-- The dumps of a list of cases. -/
def Case.dumps : List Case → List String
  | [] => []
  | .mk values body :: cs =>
    dumpRecord "CTreeCase" [("values", dumpWords values), ("body", body.dump)] :: Case.dumps cs

end

/-- The dump of a case. -/
def Case.dump (c : Case) : String :=
  dumpRecord "CTreeCase" [("values", dumpWords c.values), ("body", c.body.dump)]

/-- The dump of a function. -/
def Function.dump (f : Function Tree) : String :=
  dumpRecord "CTreeFunc"
    [("ea", toString f.ea.toNat), ("name", Text.quoted f.name), ("body", f.body.dump)]

end Pseudocode
