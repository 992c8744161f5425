import Mathlib.Data.List.Basic
import Pseudocode.Proofs.Registry.Table

/-!
# The visible part of a handle tree

A handle answers every accessor, but the standard kind of its tag reads only some of them as
children.  This file lists, construct by construct, the places that are read, the class that is
wanted there and whether something must be there; a handle is visible in a tree if a chain of such
places leads to it.  `NodeType.slots` is written out from the constructs of C, and
`NodeType.slots_eq` says that the standard kinds read these places and no others, expressions
before statements.

`Handle.reached` lists the visible handles of a tree in pre-order.
-/

namespace Pseudocode

/-! ## Places for children -/

/-- A place where a construct has children of one class. -/
structure Slot where
  cls : Class
  position : Position
  deriving DecidableEq, Repr

/-- The expressions by the shape of their operands. -/
inductive Family where
  | leaf
  | unary
  | binary
  | ternary
  | member
  | call
  deriving DecidableEq, Repr

namespace Family

/-- The places of the operands, by shape. -/
def slots : Family → List Slot
  | leaf => []
  | unary | member => [⟨.expression, .one .x⟩]
  | binary => [⟨.expression, .one .x⟩, ⟨.expression, .one .y⟩]
  | ternary => [⟨.expression, .one .x⟩, ⟨.expression, .one .y⟩, ⟨.expression, .one .z⟩]
  | call => [⟨.expression, .one .x⟩, ⟨.expression, .any .args⟩]

end Family

namespace ExprOp

/-- The shape of an expression.  The embedded instruction counts as a leaf. -/
def family : ExprOp → Family
  | .empty | .num | .fNum | .str | .obj | .var | .insn | .helper | .type => .leaf
  | .fNeg | .neg | .cast | .lNot | .bNot | .ptr | .ref | .postInc | .postDec | .preInc | .preDec
  | .sizeof => .unary
  | .memRef | .memPtr => .member
  | .tern => .ternary
  | .call => .call
  | .comma | .asg | .asgBOr | .asgXor | .asgBAnd | .asgAdd | .asgSub | .asgMul | .asgSShr
  | .asgUShr | .asgShl | .asgSDiv | .asgUDiv | .asgSMod | .asgUMod | .lOr | .lAnd | .bOr | .xor
  | .bAnd | .eq | .ne | .sGe | .uGe | .sLe | .uLe | .sGt | .uGt | .sLt | .uLt | .sShr | .uShr
  | .shl | .add | .sub | .mul | .sDiv | .uDiv | .sMod | .uMod | .fAdd | .fSub | .fMul | .fDiv
  | .idx => .binary

end ExprOp

namespace StmtOp

/-- The places of the expressions and statements that a statement holds. -/
def slots : StmtOp → List Slot
  | .block => [⟨.statement, .any .block⟩]
  | .exprStmt => [⟨.expression, .one .cexpr⟩]
  | .ifStmt =>
    [⟨.expression, .one .cexpr⟩, ⟨.statement, .one .ithen⟩, ⟨.statement, .any .ielse⟩]
  | .forStmt =>
    [⟨.expression, .one .init⟩, ⟨.expression, .one .cexpr⟩, ⟨.expression, .one .step⟩,
      ⟨.statement, .one .body⟩]
  | .whileStmt | .doStmt => [⟨.expression, .one .cexpr⟩, ⟨.statement, .one .body⟩]
  | .switchStmt => [⟨.expression, .one .cexpr⟩, ⟨.statement, .any .cases⟩]
  | .returnStmt => [⟨.expression, .any .cexpr⟩]
  | .empty | .breakStmt | .continueStmt | .gotoStmt | .asmStmt => []

end StmtOp

namespace NodeType

/-- The places of the children of a construct. -/
def slots : NodeType → List Slot
  | expr op => op.family.slots
  | stmt op => op.slots

/-- The standard kinds read exactly the places of their constructs, expressions first. -/
theorem slots_eq (ty : NodeType) :
    ty.slots = ((Kind.standard ty).shape.positions .expression).map (Slot.mk .expression) ++
      ((Kind.standard ty).shape.positions .statement).map (Slot.mk .statement) := by
  cases ty with
  | expr op => cases op <;> rfl
  | stmt op => cases op <;> rfl

end NodeType

/-! ## Visible handles -/

namespace Handle

/-- The places of the children of a handle, by its tag.  A tag off the list has none. -/
def slots (h : Handle) : List Slot := (h.op.type?.map NodeType.slots).getD []

/-- The visible children of a handle: those at its places, in order. -/
def visible (h : Handle) : List Handle := h.slots.flatMap fun s => h.answers s.position.accessor

/-- A visible child is smaller than its parent. -/
lemma size_lt_of_mem_visible {h k : Handle} (hk : k ∈ h.visible) : k.size < h.size := by
  obtain ⟨s, _, hs⟩ := List.mem_flatMap.1 hk
  exact size_lt_of_mem_answers hs

/-- The handles that are reached through places, in pre-order: the handle itself, then what is
reached from each of its visible children. -/
def reached (h : Handle) : List Handle :=
  h :: h.visible.attach.flatMap fun k => k.1.reached
termination_by h.size
decreasing_by exact size_lt_of_mem_visible k.2

/-- The handles reached from a handle are the handle and those reached from its visible children. -/
lemma reached_eq (h : Handle) : h.reached = h :: h.visible.flatMap reached := by
  rw [reached, ← List.flatMap_map Subtype.val, List.attach_map_subtype_val]

/-- What holds of a handle whenever it holds of its visible children holds of every handle. -/
theorem visibleInduction {motive : Handle → Prop}
    (step : ∀ h, (∀ k ∈ h.visible, motive k) → motive h) (h : Handle) : motive h := by
  refine step h fun k hk => ?_
  have hlt : k.size < h.size := size_lt_of_mem_visible hk
  exact visibleInduction step k
termination_by h.size

end Handle

end Pseudocode
