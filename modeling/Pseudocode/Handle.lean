import Pseudocode.Address
import Pseudocode.Binary64
import Pseudocode.Tag

/-!
# Handles

The decompiler hands out its nodes as handles.  A handle answers a fixed set of accessors, whatever
node it stands for: some answer a sub-node or nothing, three answer a list of sub-nodes, the rest
answer scalars.  Nothing forces the answers to fit the tag, and nothing forces the class that a
handle reports to be the class of its tag; the layers above check what they need.

Handles are finite: `Handle.size` counts the nodes below and including one, and everything that an
accessor answers is smaller than the handle that answers it.
-/

namespace Pseudocode

/-- The scalars that a handle may answer. -/
structure Literals where
  /-- Value of an integer literal. -/
  number : Option UInt64 := none
  /-- Value of a floating point literal. -/
  float : Option Binary64 := none
  /-- Content of a string literal. -/
  text : Option String := none
  /-- Address of a global object. -/
  object : Option Address := none
  /-- Index of a local variable. -/
  variableIndex : Option UInt32 := none
  /-- Name of a helper or of a type. -/
  name : Option String := none
  /-- Offset of a member. -/
  member : Option UInt32 := none
  /-- Number of the label that a jump goes to. -/
  label : Option Int32 := none
  /-- Addresses of inline assembly instructions. -/
  instructions : List Address := []
  deriving DecidableEq, Repr

/-- A finite view of one node of the decompiler's tree. -/
structure Handle where
  /-- Address of the node. -/
  ea : Address
  /-- Tag of the node. -/
  op : Tag
  /-- Whether the node says that it is an expression. -/
  isExpr : Bool := op.isExpr
  /-- First operand, or the callee of a call. -/
  x : Option Handle := none
  /-- Second operand. -/
  y : Option Handle := none
  /-- Third operand. -/
  z : Option Handle := none
  /-- Arguments of a call. -/
  args : List Handle := []
  /-- Statement inside an expression. -/
  insn : Option Handle := none
  /-- Expression of a statement: its value, condition or selector. -/
  cexpr : Option Handle := none
  /-- Initialisation of a counting loop. -/
  init : Option Handle := none
  /-- Step of a counting loop. -/
  step : Option Handle := none
  /-- Body of a loop. -/
  body : Option Handle := none
  /-- Branch taken if a condition holds. -/
  ithen : Option Handle := none
  /-- Branch taken otherwise. -/
  ielse : Option Handle := none
  /-- Statements of a block. -/
  block : List Handle := []
  /-- Cases of a switch: the values that select a case, and its body. -/
  cases : List (List UInt64 × Handle) := []
  /-- Scalars of the node. -/
  data : Literals := {}

/-- The accessors that answer sub-nodes. -/
inductive Accessor where
  | x | y | z | args | insn | cexpr | init | step | body | ithen | ielse | block | cases
  deriving DecidableEq, Repr

namespace Accessor

/-- Every accessor. -/
def all : List Accessor :=
  [.x, .y, .z, .args, .insn, .cexpr, .init, .step, .body, .ithen, .ielse, .block, .cases]

theorem mem_all (a : Accessor) : a ∈ all := by
  cases a <;> decide

/-- Name of an accessor in error messages. -/
def name : Accessor → String
  | .x => "x"
  | .y => "y"
  | .z => "z"
  | .args => "args"
  | .insn => "insn"
  | .cexpr => "cexpr"
  | .init => "init"
  | .step => "step"
  | .body => "body"
  | .ithen => "ithen"
  | .ielse => "ielse"
  | .block => "block"
  | .cases => "cases"

end Accessor

namespace Handle

/-- The sub-nodes that an accessor answers, in order.  An accessor for a single sub-node answers at
most one. -/
def answers (h : Handle) : Accessor → List Handle
  | .x => h.x.toList
  | .y => h.y.toList
  | .z => h.z.toList
  | .args => h.args
  | .insn => h.insn.toList
  | .cexpr => h.cexpr.toList
  | .init => h.init.toList
  | .step => h.step.toList
  | .body => h.body.toList
  | .ithen => h.ithen.toList
  | .ielse => h.ielse.toList
  | .block => h.block
  | .cases => h.cases.map Prod.snd

/-- Every sub-node, accessor by accessor. -/
def subnodes (h : Handle) : List Handle := Accessor.all.flatMap h.answers

/-! ### Size -/

mutual

/-- Number of nodes of a handle tree. -/
def size : Handle → Nat
  | ⟨_, _, _, x, y, z, args, insn, cexpr, init, step, body, ithen, ielse, block, cases, _⟩ =>
    sizeOption x + sizeOption y + sizeOption z + sizeList args + sizeOption insn
      + sizeOption cexpr + sizeOption init + sizeOption step + sizeOption body
      + sizeOption ithen + sizeOption ielse + sizeList block + sizeCases cases + 1

/-- Number of nodes of a sub-node that may be absent. -/
def sizeOption : Option Handle → Nat
  | none => 0
  | some h => h.size

/-- Number of nodes of a list of sub-nodes. -/
def sizeList : List Handle → Nat
  | [] => 0
  | h :: hs => h.size + sizeList hs

/-- Number of nodes of the bodies of a list of cases. -/
def sizeCases : List (List UInt64 × Handle) → Nat
  | [] => 0
  | (_, h) :: cs => h.size + sizeCases cs

end

theorem sizeOption_eq (o : Option Handle) : sizeOption o = sizeList o.toList := by
  cases o <;> simp [sizeOption, sizeList]

theorem sizeCases_eq (cs : List (List UInt64 × Handle)) :
    sizeCases cs = sizeList (cs.map Prod.snd) := by
  induction cs with
  | nil => rfl
  | cons c cs ih => simp [sizeCases, sizeList, ih]

theorem sizeList_append (hs ks : List Handle) :
    sizeList (hs ++ ks) = sizeList hs + sizeList ks := by
  induction hs with
  | nil => simp [sizeList]
  | cons h hs ih => simp [sizeList, ih, Nat.add_assoc]

/-- A handle has one node more than everything that its accessors answer. -/
theorem size_eq (h : Handle) : h.size = sizeList h.subnodes + 1 := by
  cases h
  simp [size, subnodes, Accessor.all, answers, sizeOption_eq, sizeCases_eq, sizeList_append,
    Nat.add_assoc]

theorem size_pos (h : Handle) : 0 < h.size := by
  rw [size_eq]
  exact Nat.succ_pos _

theorem mem_subnodes {h k : Handle} {a : Accessor} (hk : k ∈ h.answers a) : k ∈ h.subnodes :=
  List.mem_flatMap.2 ⟨a, a.mem_all, hk⟩

theorem size_le_sizeList {k : Handle} {hs : List Handle} (hk : k ∈ hs) :
    k.size ≤ sizeList hs := by
  induction hs with
  | nil => simp at hk
  | cons h hs ih =>
    rw [sizeList]
    rcases List.mem_cons.1 hk with rfl | hk
    · exact Nat.le_add_right _ _
    · exact Nat.le_trans (ih hk) (Nat.le_add_left _ _)

/-- What an accessor answers is smaller than the handle that answers it. -/
theorem size_lt_of_mem_answers {h k : Handle} {a : Accessor} (hk : k ∈ h.answers a) :
    k.size < h.size := by
  have := size_le_sizeList (mem_subnodes hk)
  rw [size_eq h]
  omega

end Handle

end Pseudocode
