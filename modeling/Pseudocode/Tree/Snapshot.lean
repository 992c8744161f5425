import Pseudocode.Json.Columns
import Pseudocode.Json.Reader
import Pseudocode.Json.Writer
import Pseudocode.Tree

/-!
# Snapshots

A snapshot holds a tree as JSON.  Nodes, cases and functions are records, payloads are variants
named after what they hold, and tags are bare numbers.  `encode` writes every column in its declared
order, with `null` for what is absent; `decode?` also accepts what the shapes of
`Pseudocode.Json.Columns` leave open.

Integers must be written as integers and fit their width.  A floating point number may be any
numeral that is not too large, rounded to the nearest.  JSON has no numeral for infinities and for
what is not a number: both are written `null`, which no reader takes for a number, so a tree that
holds them cannot be restored.
-/

namespace Pseudocode

/-- In a snapshot a floating point number always has a point or a power of ten, is written without
the power if it is zero or between `10 ^ (-5)` and `10 ^ 16`, and shows the sign of the power. -/
def snapshotLayout : Layout where
  positional e := -5 ≤ e && e ≤ 15
  keepsPoint := true
  plus := true
  tie := .toEven

/-! ### Writing -/

namespace Json

/-- The JSON number of a word. -/
def word64 (w : UInt64) : Json := .nat w.toNat

/-- The JSON array of a list of words. -/
def words64 (ws : List UInt64) : Json := .array (ws.map word64)

/-- The JSON number of a floating point number, or `null`. -/
def binary64 (x : Binary64) : Json :=
  if x.isFinite then .number (snapshotLayout.numeral x) else .null

/-- A variant with content. -/
def variant (name : String) (content : Json) : Json := .record [(name, content)]

end Json

/-- The snapshot of a tag. -/
def Tag.encode (t : Tag) : Json := .int t.code.toInt

/-- The snapshot of a node type is its name. -/
def NodeType.encode (t : NodeType) : Json := .text t.name

mutual

/-- The snapshot of a tree. -/
def Tree.encode : Tree → Json
  | .node ea op payload =>
    .record [("ea", .word64 ea), ("op", op.encode), ("payload", payload.encode)]

/-- The snapshot of a payload. -/
def Payload.encode : Payload → Json
  | .none => .text "None"
  | .operands x y z =>
    .variant "Operands"
      (.record [("x", x.encode), ("y", Tree.encodeOption y), ("z", Tree.encodeOption z)])
  | .call callee args =>
    .variant "Call" (.record [("callee", callee.encode), ("args", .array (Tree.encodes args))])
  | .member x m => .variant "Member" (.record [("x", x.encode), ("m", .nat m.toNat)])
  | .num value => .variant "Num" (.word64 value)
  | .fnum value => .variant "FNum" (.binary64 value)
  | .str value => .variant "Str" (.text value)
  | .obj object => .variant "Obj" (.word64 object)
  | .var index => .variant "Var" (.nat index.toNat)
  | .helper name => .variant "Helper" (.text name)
  | .insn stmt => .variant "Insn" stmt.encode
  | .block stmts => .variant "Block" (.array (Tree.encodes stmts))
  | .expr e => .variant "Expr" e.encode
  | .branch cond thenBranch otherwise =>
    .variant "If"
      (.record [("cond", cond.encode), ("then", thenBranch.encode),
        ("otherwise", Tree.encodeOption otherwise)])
  | .counting init cond step body =>
    .variant "For"
      (.record [("init", init.encode), ("cond", cond.encode), ("step", step.encode),
        ("body", body.encode)])
  | .loop cond body => .variant "Loop" (.record [("cond", cond.encode), ("body", body.encode)])
  | .switch e cases =>
    .variant "Switch" (.record [("expr", e.encode), ("cases", .array (Case.encodes cases))])
  | .returned value => .variant "Return" (Tree.encodeOption value)
  | .goto label => .variant "Goto" (.int label.toInt)
  | .asm instructions => .variant "Asm" (.words64 instructions)

/-- The snapshot of a tree that may be absent. -/
def Tree.encodeOption : Option Tree → Json
  | none => .null
  | some t => t.encode

/-- The snapshots of a list of trees. -/
def Tree.encodes : List Tree → List Json
  | [] => []
  | t :: ts => t.encode :: Tree.encodes ts

/-- The snapshots of a list of cases. -/
def Case.encodes : List Case → List Json
  | [] => []
  | .mk values body :: cs =>
    .record [("values", .words64 values), ("body", body.encode)] :: Case.encodes cs

end

/-- The snapshot of a case. -/
def Case.encode (c : Case) : Json :=
  .record [("values", .words64 c.values), ("body", c.body.encode)]

/-- The snapshot of a function. -/
def Function.encode (f : Function Tree) : Json :=
  .record [("ea", .word64 f.ea), ("name", .text f.name), ("body", f.body.encode)]

/-! ### Reading -/

/-- Where a snapshot comes from.  The columns of a payload may be given by position only in a text
that is read directly, not in a value that was already taken apart. -/
inductive Origin where
  | text
  | value
  deriving DecidableEq, Repr

namespace Origin

/-- Whether the columns of a payload may be given by position. -/
def positional : Origin → Bool
  | text => true
  | value => false

end Origin

/-- The columns of a node. -/
def Tree.columns : List Json.Column := [.required "ea", .required "op", .required "payload"]

/-- The columns of a case. -/
def Case.columns : List Json.Column := [.required "values", .required "body"]

/-- The columns of a function. -/
def Function.columns : List Json.Column := [.required "ea", .required "name", .required "body"]

/-- The tag of which a value is the snapshot. -/
def Tag.decode? (j : Json) : Option Tag := j.signed32?.map Tag.mk

/-- The node type of which a value is the snapshot. -/
def NodeType.decode? (j : Json) : Option NodeType :=
  match j.variant? with
  | some (name, none) => NodeType.ofName? name
  | some (name, some p) => if p.1.isNull then NodeType.ofName? name else none
  | none => none

/-- The words of which a value is the snapshot. -/
def Json.words64? (j : Json) : Option (List UInt64) := j.items?.bind fun items => items.mapM word64?

mutual

/-- The tree of which a value is the snapshot. -/
def Tree.decode? (o : Origin) (j : Json) : Option Tree :=
  match j.columns? true Tree.columns with
  | some [some ea, some op, some payload] => do
    return .node (← ea.1.word64?) (← Tag.decode? op.1) (← Payload.decode? o payload.1)
  | _ => none
termination_by (sizeOf j, 0)
decreasing_by exact Prod.Lex.left _ _ payload.2

/-- The tree of which a value is the snapshot, or its absence. -/
def Tree.decodeOption? (o : Origin) (j : Json) : Option (Option Tree) :=
  if j.isNull then some none else (Tree.decode? o j).map some
termination_by (sizeOf j, 1)
decreasing_by exact Prod.Lex.right _ (by decide)

/-- The tree in a column that may be left out. -/
def Tree.decodePart? (o : Origin) {j : Json} (p : Option j.Part) : Option (Option Tree) :=
  match p with
  | none => some none
  | some p => Tree.decodeOption? o p.1
termination_by (sizeOf j, 1)
decreasing_by exact Prod.Lex.left _ _ p.2

/-- The trees of which an array is the snapshot. -/
def Tree.decodeAll? (o : Origin) (j : Json) : Option (List Tree) :=
  match j.parts? with
  | some ps => ps.mapM fun p => Tree.decode? o p.1
  | none => none
termination_by (sizeOf j, 1)
decreasing_by exact Prod.Lex.left _ _ p.2

/-- The case of which a value is the snapshot. -/
def Case.decode? (o : Origin) (j : Json) : Option Case :=
  match j.columns? true Case.columns with
  | some [some values, some body] => do
    return .mk (← values.1.words64?) (← Tree.decode? o body.1)
  | _ => none
termination_by (sizeOf j, 0)
decreasing_by exact Prod.Lex.left _ _ body.2

/-- The cases of which an array is the snapshot. -/
def Case.decodeAll? (o : Origin) (j : Json) : Option (List Case) :=
  match j.parts? with
  | some ps => ps.mapM fun p => Case.decode? o p.1
  | none => none
termination_by (sizeOf j, 1)
decreasing_by exact Prod.Lex.left _ _ p.2

/-- The payload with a given name of which a value is the content. -/
def Payload.decodeContent? (o : Origin) (name : String) (j : Json) : Option Payload :=
  match name with
  | "None" => if j.isNull then some .none else none
  | "Operands" =>
    match j.columns? o.positional [.required "x", .maybe "y", .maybe "z"] with
    | some [some x, y, z] => do
      return .operands (← Tree.decode? o x.1) (← Tree.decodePart? o y) (← Tree.decodePart? o z)
    | _ => none
  | "Call" =>
    match j.columns? o.positional [.required "callee", .required "args"] with
    | some [some callee, some args] => do
      return .call (← Tree.decode? o callee.1) (← Tree.decodeAll? o args.1)
    | _ => none
  | "Member" =>
    match j.columns? o.positional [.required "x", .required "m"] with
    | some [some x, some m] => do return .member (← Tree.decode? o x.1) (← m.1.word32?)
    | _ => none
  | "Num" => j.word64?.map .num
  | "FNum" => j.binary64?.map .fnum
  | "Str" => j.text?.map .str
  | "Obj" => j.word64?.map .obj
  | "Var" => j.word32?.map .var
  | "Helper" => j.text?.map .helper
  | "Insn" => (Tree.decode? o j).map .insn
  | "Block" => (Tree.decodeAll? o j).map .block
  | "Expr" => (Tree.decode? o j).map .expr
  | "If" =>
    match j.columns? o.positional [.required "cond", .required "then", .maybe "otherwise"] with
    | some [some cond, some thenBranch, otherwise] => do
      return .branch (← Tree.decode? o cond.1) (← Tree.decode? o thenBranch.1)
        (← Tree.decodePart? o otherwise)
    | _ => none
  | "For" =>
    match j.columns? o.positional
        [.required "init", .required "cond", .required "step", .required "body"] with
    | some [some init, some cond, some step, some body] => do
      return .counting (← Tree.decode? o init.1) (← Tree.decode? o cond.1)
        (← Tree.decode? o step.1) (← Tree.decode? o body.1)
    | _ => none
  | "Loop" =>
    match j.columns? o.positional [.required "cond", .required "body"] with
    | some [some cond, some body] => do
      return .loop (← Tree.decode? o cond.1) (← Tree.decode? o body.1)
    | _ => none
  | "Switch" =>
    match j.columns? o.positional [.required "expr", .required "cases"] with
    | some [some selector, some cases] => do
      return .switch (← Tree.decode? o selector.1) (← Case.decodeAll? o cases.1)
    | _ => none
  | "Return" => (Tree.decodeOption? o j).map .returned
  | "Goto" => j.signed32?.map .goto
  | "Asm" => j.words64?.map .asm
  | _ => none
termination_by (sizeOf j, 2)
decreasing_by
  all_goals first
    | exact Prod.Lex.right _ (by decide)
    | exact Prod.Lex.left _ _ (Json.sizeOf_part _)

/-- The payload of which a value is the snapshot. -/
def Payload.decode? (o : Origin) (j : Json) : Option Payload :=
  match j.variant? with
  | some (name, none) => if name = "None" then some .none else none
  | some (name, some p) => Payload.decodeContent? o name p.1
  | none => none
termination_by (sizeOf j, 0)
decreasing_by exact Prod.Lex.left _ _ p.2

end

/-- The function of which a value is the snapshot. -/
def Function.decode? (o : Origin) (j : Json) : Option (Function Tree) :=
  match j.columns? true Function.columns with
  | some [some ea, some name, some body] => do
    return ⟨← ea.1.word64?, ← name.1.text?, ← Tree.decode? o body.1⟩
  | _ => none

end Pseudocode
