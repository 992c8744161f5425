import Pseudocode.Handle

/-!
# Owned trees

A tree that is held in memory rather than by the decompiler: made up by a tool, restored from a
snapshot, or built by hand.  A node has an address, a tag and a payload.  The payload says by itself
which sub-trees and scalars there are; nothing ties it to the tag, so a tree may be ill formed.

`Tree.toHandle` is the view of a tree that the rest of the library works on.  Each sub-tree is
answered by exactly one accessor.  `Tree.equals` is equality with floating point literals compared
as numbers, so a tree that holds something which is not a number does not equal itself.
-/

namespace Pseudocode

mutual

/-- An owned tree. -/
inductive Tree where
  | node (ea : Address) (op : Tag) (payload : Payload)

/-- What a node of an owned tree holds. -/
inductive Payload where
  | none
  /-- One to three operands. -/
  | operands (x : Tree) (y z : Option Tree)
  | call (callee : Tree) (args : List Tree)
  | member (x : Tree) (m : UInt32)
  | num (value : UInt64)
  | fnum (value : Binary64)
  | str (value : String)
  | obj (ea : Address)
  | var (index : UInt32)
  /-- Name of a helper or of a type. -/
  | helper (name : String)
  | insn (stmt : Tree)
  | block (stmts : List Tree)
  | expr (expr : Tree)
  | branch (cond thenBranch : Tree) (otherwise : Option Tree)
  | counting (init cond step body : Tree)
  /-- A loop with its condition before or after the body. -/
  | loop (cond body : Tree)
  | switch (expr : Tree) (cases : List Case)
  | returned (value : Option Tree)
  | goto (label : Int32)
  | asm (instructions : List Address)

/-- One case of a switch: the values that select it, none for the default, and its body. -/
inductive Case where
  | mk (values : List UInt64) (body : Tree)

end

/-- A function: its entry address, its name and its body, in whatever form the body is held. -/
structure Function (β : Type u) where
  ea : Address
  name : String
  body : β

namespace Function

/-- The same function with its body in another form. -/
def map (f : β → γ) (g : Function β) : Function γ := ⟨g.ea, g.name, f g.body⟩

end Function

namespace Case

/-- The values that select a case. -/
def values : Case → List UInt64
  | mk values _ => values

/-- The body of a case. -/
def body : Case → Tree
  | mk _ body => body

end Case

namespace Tree

/-- Address of a tree. -/
def ea : Tree → Address
  | node ea _ _ => ea

/-- Tag of a tree. -/
def op : Tree → Tag
  | node _ op _ => op

/-- Payload of a tree. -/
def payload : Tree → Payload
  | node _ _ payload => payload

end Tree

/-- The direct sub-trees in a payload, in the order of its parts. -/
def Payload.subtrees : Payload → List Tree
  | .operands x y z => x :: (y.toList ++ z.toList)
  | .call callee args => callee :: args
  | .member x _ => [x]
  | .insn stmt => [stmt]
  | .block stmts => stmts
  | .expr e => [e]
  | .branch cond thenBranch otherwise => cond :: thenBranch :: otherwise.toList
  | .counting init cond step body => [init, cond, step, body]
  | .loop cond body => [cond, body]
  | .switch e cases => e :: cases.map Case.body
  | .returned value => value.toList
  | _ => []

/-! ### Size -/

mutual

/-- Number of nodes of a tree. -/
def Tree.size : Tree → Nat
  | .node _ _ payload => payload.size + 1

/-- Number of nodes in a payload. -/
def Payload.size : Payload → Nat
  | .operands x y z => x.size + Tree.sizeOption y + Tree.sizeOption z
  | .call callee args => callee.size + Tree.sizeList args
  | .member x _ => x.size
  | .insn stmt => stmt.size
  | .block stmts => Tree.sizeList stmts
  | .expr e => e.size
  | .branch cond thenBranch otherwise =>
    cond.size + thenBranch.size + Tree.sizeOption otherwise
  | .counting init cond step body => init.size + cond.size + step.size + body.size
  | .loop cond body => cond.size + body.size
  | .switch e cases => e.size + Case.sizeList cases
  | .returned value => Tree.sizeOption value
  | .none | .num _ | .fnum _ | .str _ | .obj _ | .var _ | .helper _ | .goto _ | .asm _ => 0

/-- Number of nodes of a tree that may be absent. -/
def Tree.sizeOption : Option Tree → Nat
  | none => 0
  | some t => t.size

/-- Number of nodes of a list of trees. -/
def Tree.sizeList : List Tree → Nat
  | [] => 0
  | t :: ts => t.size + Tree.sizeList ts

/-- Number of nodes of the bodies of a list of cases. -/
def Case.sizeList : List Case → Nat
  | [] => 0
  | .mk _ body :: cs => body.size + Case.sizeList cs

end

/-! ### The view of a tree -/

mutual

/-- The handle through which a tree is read. -/
def Tree.toHandle : Tree → Handle
  | .node ea op payload => payload.toHandle ea op

/-- The handle of a node with the given address, tag and payload. -/
def Payload.toHandle (ea : Address) (op : Tag) : Payload → Handle
  | .none => { ea, op }
  | .operands x y z =>
    { ea, op, x := some x.toHandle, y := Tree.toHandleOption y, z := Tree.toHandleOption z }
  | .call callee args => { ea, op, x := some callee.toHandle, args := Tree.toHandles args }
  | .member x m => { ea, op, x := some x.toHandle, data := { member := some m } }
  | .num value => { ea, op, data := { number := some value } }
  | .fnum value => { ea, op, data := { float := some value } }
  | .str value => { ea, op, data := { text := some value } }
  | .obj object => { ea, op, data := { object := some object } }
  | .var index => { ea, op, data := { variableIndex := some index } }
  | .helper name => { ea, op, data := { name := some name } }
  | .insn stmt => { ea, op, insn := some stmt.toHandle }
  | .block stmts => { ea, op, block := Tree.toHandles stmts }
  | .expr e => { ea, op, cexpr := some e.toHandle }
  | .branch cond thenBranch otherwise =>
    { ea, op, cexpr := some cond.toHandle, ithen := some thenBranch.toHandle,
      ielse := Tree.toHandleOption otherwise }
  | .counting init cond step body =>
    { ea, op, init := some init.toHandle, cexpr := some cond.toHandle,
      step := some step.toHandle, body := some body.toHandle }
  | .loop cond body => { ea, op, cexpr := some cond.toHandle, body := some body.toHandle }
  | .switch e cases => { ea, op, cexpr := some e.toHandle, cases := Case.toHandles cases }
  | .returned value => { ea, op, cexpr := Tree.toHandleOption value }
  | .goto label => { ea, op, data := { label := some label } }
  | .asm instructions => { ea, op, data := { instructions } }

/-- The handle of a tree that may be absent. -/
def Tree.toHandleOption : Option Tree → Option Handle
  | none => none
  | some t => some t.toHandle

/-- The handles of a list of trees. -/
def Tree.toHandles : List Tree → List Handle
  | [] => []
  | t :: ts => t.toHandle :: Tree.toHandles ts

/-- The values and body handles of a list of cases. -/
def Case.toHandles : List Case → List (List UInt64 × Handle)
  | [] => []
  | .mk values body :: cs => (values, body.toHandle) :: Case.toHandles cs

end

/-! ### Equality -/

mutual

/-- Whether two trees are equal, floating point literals compared as numbers. -/
def Tree.equals : Tree → Tree → Bool
  | .node ea op payload, .node ea' op' payload' =>
    ea == ea' && op == op' && payload.equals payload'

/-- Whether two payloads are equal, floating point literals compared as numbers. -/
def Payload.equals : Payload → Payload → Bool
  | .none, q => match q with
    | .none => true
    | _ => false
  | .operands x y z, q => match q with
    | .operands x' y' z' => x.equals x' && Tree.equalsOption y y' && Tree.equalsOption z z'
    | _ => false
  | .call callee args, q => match q with
    | .call callee' args' => callee.equals callee' && Tree.equalsList args args'
    | _ => false
  | .member x m, q => match q with
    | .member x' m' => x.equals x' && m == m'
    | _ => false
  | .num value, q => match q with
    | .num value' => value == value'
    | _ => false
  | .fnum value, q => match q with
    | .fnum value' => Binary64.equals value value'
    | _ => false
  | .str value, q => match q with
    | .str value' => value == value'
    | _ => false
  | .obj ea, q => match q with
    | .obj ea' => ea == ea'
    | _ => false
  | .var index, q => match q with
    | .var index' => index == index'
    | _ => false
  | .helper name, q => match q with
    | .helper name' => name == name'
    | _ => false
  | .insn stmt, q => match q with
    | .insn stmt' => stmt.equals stmt'
    | _ => false
  | .block stmts, q => match q with
    | .block stmts' => Tree.equalsList stmts stmts'
    | _ => false
  | .expr e, q => match q with
    | .expr e' => e.equals e'
    | _ => false
  | .branch cond thenBranch otherwise, q => match q with
    | .branch cond' thenBranch' otherwise' =>
      cond.equals cond' && thenBranch.equals thenBranch' && Tree.equalsOption otherwise otherwise'
    | _ => false
  | .counting init cond step body, q => match q with
    | .counting init' cond' step' body' =>
      init.equals init' && cond.equals cond' && step.equals step' && body.equals body'
    | _ => false
  | .loop cond body, q => match q with
    | .loop cond' body' => cond.equals cond' && body.equals body'
    | _ => false
  | .switch e cases, q => match q with
    | .switch e' cases' => e.equals e' && Case.equalsList cases cases'
    | _ => false
  | .returned value, q => match q with
    | .returned value' => Tree.equalsOption value value'
    | _ => false
  | .goto label, q => match q with
    | .goto label' => label == label'
    | _ => false
  | .asm instructions, q => match q with
    | .asm instructions' => instructions == instructions'
    | _ => false

/-- `Tree.equals` for trees that may be absent. -/
def Tree.equalsOption : Option Tree → Option Tree → Bool
  | none, none => true
  | some t, some t' => t.equals t'
  | _, _ => false

/-- `Tree.equals` for lists of trees. -/
def Tree.equalsList : List Tree → List Tree → Bool
  | [], [] => true
  | t :: ts, t' :: ts' => t.equals t' && Tree.equalsList ts ts'
  | _, _ => false

/-- `Tree.equals` for lists of cases, whose values must be the same. -/
def Case.equalsList : List Case → List Case → Bool
  | [], [] => true
  | .mk values body :: cs, .mk values' body' :: cs' =>
    values == values' && body.equals body' && Case.equalsList cs cs'
  | _, _ => false

end

end Pseudocode
