import Pseudocode.Proofs.Defect
import Pseudocode.Proofs.Tree.Subtree
import Pseudocode.Tree.Build

/-!
# Well built trees

A tree is well built if it comes out of the builders with arguments of the right class.  Nothing
else is asked for, so a well built tree may be of any depth and width.  With the standard kinds such
a tree has no defects, and its visible nodes are those that are not inside the statement of an
embedded instruction.

The builders choose the payload, the tags choose the places that are read, and the size is counted
over payloads.  `Tree.WellBuilt.fits` brings the three together, once for each builder: the parts of
the tree at the places of its tag, and the statement of an embedded instruction, are all there is.
Everything after that is the same for all constructs.
-/

namespace Pseudocode

universe u

namespace Tree

/-! ## Trees from the builders -/

/-- The tree is made by the builders, and is of the given class: an operator has operands of its
shape, operands, conditions, selectors, callees, arguments and returned values are expressions, and
branches, bodies, elements of blocks and embedded instructions are statements. -/
inductive WellBuilt : Class → Tree → Prop where
  | leaf {ty : NodeType}
      (hty : ty ∈ [.expr .empty, .stmt .empty, .stmt .breakStmt, .stmt .continueStmt])
      (ea : Address) : WellBuilt ty.cls (leaf ty.tag ea)
  | num (ea : Address) (value : UInt64) : WellBuilt .expression (num ea value)
  | fnum (ea : Address) (value : Binary64) : WellBuilt .expression (fnum ea value)
  | str (ea : Address) (value : String) : WellBuilt .expression (str ea value)
  | obj (ea object : Address) : WellBuilt .expression (obj ea object)
  | var (ea : Address) (index : UInt32) : WellBuilt .expression (var ea index)
  | helper (ea : Address) (name : String) : WellBuilt .expression (helper ea name)
  | typeName (ea : Address) (name : String) : WellBuilt .expression (typeName ea name)
  | insn (ea : Address) {stmt : Tree} (hs : WellBuilt .statement stmt) :
      WellBuilt .expression (insn ea stmt)
  | unary {op : ExprOp} (hop : op.family = .unary) (ea : Address) {x : Tree}
      (hx : WellBuilt .expression x) : WellBuilt .expression (unary (.expr op) ea x)
  | binary {op : ExprOp} (hop : op.family = .binary) (ea : Address) {x y : Tree}
      (hx : WellBuilt .expression x) (hy : WellBuilt .expression y) :
      WellBuilt .expression (binary (.expr op) ea x y)
  | ternary (ea : Address) {x y z : Tree} (hx : WellBuilt .expression x)
      (hy : WellBuilt .expression y) (hz : WellBuilt .expression z) :
      WellBuilt .expression (ternary ea x y z)
  | call (ea : Address) {callee : Tree} {args : List Tree} (hcallee : WellBuilt .expression callee)
      (hargs : ∀ a ∈ args, WellBuilt .expression a) : WellBuilt .expression (call ea callee args)
  | member {op : ExprOp} (hop : op.family = .member) (ea : Address) {x : Tree} (m : UInt32)
      (hx : WellBuilt .expression x) : WellBuilt .expression (member (.expr op) ea x m)
  | block (ea : Address) {stmts : List Tree} (hstmts : ∀ s ∈ stmts, WellBuilt .statement s) :
      WellBuilt .statement (block ea stmts)
  | exprStmt {e : Tree} (he : WellBuilt .expression e) : WellBuilt .statement (exprStmt e)
  | ifStmt (ea : Address) {cond thenBranch : Tree} {otherwise : Option Tree}
      (hcond : WellBuilt .expression cond) (hthen : WellBuilt .statement thenBranch)
      (hotherwise : ∀ o ∈ otherwise.toList, WellBuilt .statement o) :
      WellBuilt .statement (ifStmt ea cond thenBranch otherwise)
  | forStmt (ea : Address) {init cond step body : Tree} (hinit : WellBuilt .expression init)
      (hcond : WellBuilt .expression cond) (hstep : WellBuilt .expression step)
      (hbody : WellBuilt .statement body) : WellBuilt .statement (forStmt ea init cond step body)
  | whileStmt (ea : Address) {cond body : Tree} (hcond : WellBuilt .expression cond)
      (hbody : WellBuilt .statement body) : WellBuilt .statement (whileStmt ea cond body)
  | doStmt (ea : Address) {body cond : Tree} (hbody : WellBuilt .statement body)
      (hcond : WellBuilt .expression cond) : WellBuilt .statement (doStmt ea body cond)
  | switchStmt (ea : Address) {selector : Tree} {cases : List Case}
      (hselector : WellBuilt .expression selector)
      (hcases : ∀ b ∈ cases.map Case.body, WellBuilt .statement b) :
      WellBuilt .statement (switchStmt ea selector cases)
  | returnStmt (ea : Address) {value : Option Tree}
      (hvalue : ∀ e ∈ value.toList, WellBuilt .expression e) :
      WellBuilt .statement (returnStmt ea value)
  | gotoStmt (ea : Address) (label : Int32) : WellBuilt .statement (gotoStmt ea label)
  | asmStmt (ea : Address) (instructions : List Address) :
      WellBuilt .statement (asmStmt ea instructions)

/-! ## One node -/

/-- A place has what it wants: something if that is required, and only well built trees of its
class. -/
def Supplies (t : Tree) (s : Slot) : Prop :=
  (s.position.required = true → t.part s.position.accessor ≠ []) ∧
    ∀ u ∈ t.part s.position.accessor, u.WellBuilt s.cls

/-- A place for one sub-tree has what it wants. -/
lemma supplies_one {t u : Tree} {c : Class} {a : Accessor} (ha : t.part a = [u])
    (hu : u.WellBuilt c) : t.Supplies ⟨c, .one a⟩ := by
  unfold Supplies Position.one
  dsimp only
  rw [ha]
  exact ⟨fun _ => List.cons_ne_nil u [], List.forall_mem_singleton.2 hu⟩

/-- A place for any number of sub-trees has what it wants. -/
lemma supplies_any {t : Tree} {c : Class} {a : Accessor} (h : ∀ u ∈ t.part a, u.WellBuilt c) :
    t.Supplies ⟨c, .any a⟩ :=
  ⟨nofun, h⟩

/-- A node is arranged as its type says: the type gives its tag, every place of the type has what it
wants, the sub-trees are those at the places and then the statement of an embedded instruction, and
only an embedded instruction has such a statement. -/
structure Fits (t : Tree) (ty : NodeType) : Prop where
  op_eq : t.op = ty.tag
  supplies : ty.slots.Forall t.Supplies
  subtrees_eq : t.subtrees = (ty.slots.flatMap fun s => t.part s.position.accessor) ++ t.part .insn
  insn_iff : t.part .insn = [] ↔ ty ≠ .expr .insn

/-- A node of another type than an embedded instruction is arranged as its type says if its
sub-trees are those at the places of the type. -/
lemma fits_of_slots {t : Tree} {ty : NodeType} (hty : ty ≠ .expr .insn) {ss : List Slot}
    (hop : t.op = ty.tag) (hslots : ty.slots = ss) (hs : ss.Forall t.Supplies)
    (ht : t.subtrees = ss.flatMap fun s => t.part s.position.accessor)
    (hinsn : t.part .insn = []) : t.Fits ty := by
  refine ⟨hop, ?_, ?_, iff_of_true hinsn hty⟩
  · rw [hslots]
    exact hs
  · rw [hslots, hinsn, List.append_nil, ht]

/-- An operator with operands is no embedded instruction. -/
lemma expr_ne_insn {op : ExprOp} {f : Family} (hop : op.family = f) (hf : f ≠ .leaf) :
    NodeType.expr op ≠ .expr .insn := by
  intro h
  cases h
  exact hf hop.symm

/-- Every builder arranges its node as the type of the node says. -/
theorem WellBuilt.fits {c : Class} {t : Tree} (ht : t.WellBuilt c) :
    ∃ ty, ty.cls = c ∧ t.Fits ty := by
  cases ht with
  | @leaf ty hty ea =>
    have hslots : ty.slots = [] := by
      revert ty
      decide
    have hne : ty ≠ .expr .insn := by
      rintro rfl
      exact absurd hty (by decide)
    exact ⟨ty, rfl, fits_of_slots hne rfl hslots trivial rfl rfl⟩
  | num => exact ⟨.expr .num, rfl, fits_of_slots nofun rfl rfl trivial rfl rfl⟩
  | fnum => exact ⟨.expr .fNum, rfl, fits_of_slots nofun rfl rfl trivial rfl rfl⟩
  | str => exact ⟨.expr .str, rfl, fits_of_slots nofun rfl rfl trivial rfl rfl⟩
  | obj => exact ⟨.expr .obj, rfl, fits_of_slots nofun rfl rfl trivial rfl rfl⟩
  | var => exact ⟨.expr .var, rfl, fits_of_slots nofun rfl rfl trivial rfl rfl⟩
  | helper => exact ⟨.expr .helper, rfl, fits_of_slots nofun rfl rfl trivial rfl rfl⟩
  | typeName => exact ⟨.expr .type, rfl, fits_of_slots nofun rfl rfl trivial rfl rfl⟩
  | insn => exact ⟨.expr .insn, rfl, rfl, trivial, rfl, nofun, fun h => absurd rfl h⟩
  | unary hop _ hx =>
    have hslots := congrArg Family.slots hop
    have hne := expr_ne_insn hop nofun
    exact ⟨_, rfl, fits_of_slots hne rfl hslots (supplies_one rfl hx) rfl rfl⟩
  | binary hop _ hx hy =>
    have hslots := congrArg Family.slots hop
    have hne := expr_ne_insn hop nofun
    exact ⟨_, rfl, fits_of_slots hne rfl hslots
      ⟨supplies_one rfl hx, supplies_one rfl hy⟩ rfl rfl⟩
  | ternary _ hx hy hz =>
    exact ⟨.expr .tern, rfl, fits_of_slots nofun rfl rfl
      ⟨supplies_one rfl hx, supplies_one rfl hy, supplies_one rfl hz⟩ rfl rfl⟩
  | @call _ callee args hcallee hargs =>
    have ht : callee :: args = callee :: (args ++ []) := by rw [List.append_nil]
    exact ⟨.expr .call, rfl, fits_of_slots nofun rfl rfl
      ⟨supplies_one rfl hcallee, supplies_any hargs⟩ ht rfl⟩
  | member hop _ _ hx =>
    have hslots := congrArg Family.slots hop
    have hne := expr_ne_insn hop nofun
    exact ⟨_, rfl, fits_of_slots hne rfl hslots (supplies_one rfl hx) rfl rfl⟩
  | @block _ stmts hstmts =>
    have ht : stmts = stmts ++ [] := by rw [List.append_nil]
    exact ⟨.stmt .block, rfl, fits_of_slots nofun rfl rfl (supplies_any hstmts) ht rfl⟩
  | exprStmt he =>
    exact ⟨.stmt .exprStmt, rfl, fits_of_slots nofun rfl rfl (supplies_one rfl he) rfl rfl⟩
  | @ifStmt _ cond thenBranch otherwise hcond hthen hotherwise =>
    have ht : cond :: thenBranch :: otherwise.toList =
        cond :: thenBranch :: (otherwise.toList ++ []) := by rw [List.append_nil]
    exact ⟨.stmt .ifStmt, rfl, fits_of_slots nofun rfl rfl
      ⟨supplies_one rfl hcond, supplies_one rfl hthen, supplies_any hotherwise⟩ ht rfl⟩
  | forStmt _ hinit hcond hstep hbody =>
    exact ⟨.stmt .forStmt, rfl, fits_of_slots nofun rfl rfl
      ⟨supplies_one rfl hinit, supplies_one rfl hcond, supplies_one rfl hstep,
        supplies_one rfl hbody⟩ rfl rfl⟩
  | whileStmt _ hcond hbody =>
    exact ⟨.stmt .whileStmt, rfl, fits_of_slots nofun rfl rfl
      ⟨supplies_one rfl hcond, supplies_one rfl hbody⟩ rfl rfl⟩
  | doStmt _ hbody hcond =>
    -- The builder takes the body first, the payload and the places have the condition first.
    exact ⟨.stmt .doStmt, rfl, fits_of_slots nofun rfl rfl
      ⟨supplies_one rfl hcond, supplies_one rfl hbody⟩ rfl rfl⟩
  | @switchStmt _ selector cases hselector hcases =>
    have ht : selector :: cases.map Case.body = selector :: (cases.map Case.body ++ []) := by
      rw [List.append_nil]
    exact ⟨.stmt .switchStmt, rfl, fits_of_slots nofun rfl rfl
      ⟨supplies_one rfl hselector, supplies_any hcases⟩ ht rfl⟩
  | @returnStmt _ value hvalue =>
    have ht : value.toList = value.toList ++ [] := by rw [List.append_nil]
    exact ⟨.stmt .returnStmt, rfl, fits_of_slots nofun rfl rfl (supplies_any hvalue) ht rfl⟩
  | gotoStmt => exact ⟨.stmt .gotoStmt, rfl, fits_of_slots nofun rfl rfl trivial rfl rfl⟩
  | asmStmt => exact ⟨.stmt .asmStmt, rfl, fits_of_slots nofun rfl rfl trivial rfl rfl⟩

namespace Fits

variable {t : Tree} {ty : NodeType}

/-- The view of a node has the places of its type. -/
lemma slots_toHandle (h : t.Fits ty) : t.toHandle.slots = ty.slots := by
  rw [Handle.slots, op_toHandle, h.op_eq, NodeType.type?_tag, Option.map_some, Option.getD_some]

/-- A node is an embedded instruction exactly if its type is that. -/
lemma isInsn_iff (h : t.Fits ty) : t.IsInsn ↔ ty = .expr .insn := by
  rw [IsInsn, h.op_eq]
  exact NodeType.tag_injective.eq_iff

/-- Exactly the embedded instructions have an embedded statement. -/
lemma part_insn_eq_nil_iff (h : t.Fits ty) : t.part .insn = [] ↔ ¬ t.IsInsn := by
  rw [h.insn_iff, h.isInsn_iff]

/-- The open sub-trees are those at the places. -/
lemma openSubtrees_eq (h : t.Fits ty) :
    t.openSubtrees = ty.slots.flatMap fun s => t.part s.position.accessor := by
  unfold openSubtrees
  split_ifs with hinsn
  · rw [h.isInsn_iff.1 hinsn]
    rfl
  · rw [h.subtrees_eq, h.part_insn_eq_nil_iff.2 hinsn, List.append_nil]

/-- The hidden sub-trees are the statement of an embedded instruction. -/
lemma hiddenSubtrees_eq (h : t.Fits ty) : t.hiddenSubtrees = t.part .insn := by
  unfold hiddenSubtrees
  split_ifs with hinsn
  · rw [h.subtrees_eq, h.isInsn_iff.1 hinsn]
    rfl
  · exact (h.part_insn_eq_nil_iff.2 hinsn).symm

/-- The visible children of the view are the views of the open sub-trees. -/
lemma visible_toHandle (h : t.Fits ty) : t.toHandle.visible = t.openSubtrees.map toHandle := by
  rw [Handle.visible, h.slots_toHandle, h.openSubtrees_eq, List.map_flatMap]
  simp only [answers_toHandle]

/-- The open sub-trees are well built. -/
lemma wellBuilt_of_mem_openSubtrees (h : t.Fits ty) {u : Tree} (hu : u ∈ t.openSubtrees) :
    ∃ c, u.WellBuilt c := by
  rw [h.openSubtrees_eq] at hu
  obtain ⟨s, hs, hu⟩ := List.mem_flatMap.1 hu
  exact ⟨s.cls, (List.forall_iff_forall_mem.1 h.supplies s hs).2 u hu⟩

end Fits

/-! ## Whole trees -/

namespace WellBuilt

variable {c : Class} {t : Tree}

/-- What holds of a well built tree whenever it holds of its open sub-trees holds of every well
built tree. -/
theorem openInduction {motive : Tree → Prop}
    (step : ∀ t ty, t.Fits ty → (∀ u ∈ t.openSubtrees, motive u) → motive t)
    (ht : t.WellBuilt c) : motive t := by
  induction t using subtreeInduction generalizing c with
  | step t ih =>
    obtain ⟨ty, _, hfits⟩ := ht.fits
    refine step t ty hfits fun u hu => ?_
    obtain ⟨d, hd⟩ := hfits.wellBuilt_of_mem_openSubtrees hu
    exact ih u (mem_subtrees_of_mem_openSubtrees hu) hd

/-- The view has a tag on the list, reports the class of its tag, and is of the class for which the
tree is built. -/
lemma toHandle_proper (ht : t.WellBuilt c) :
    t.toHandle.op.Listed ∧ t.toHandle.isExpr = t.toHandle.op.isExpr ∧ t.toHandle.op.cls = c := by
  obtain ⟨ty, rfl, hfits⟩ := ht.fits
  rw [isExpr_toHandle, op_toHandle, hfits.op_eq]
  exact ⟨Tag.listed_tag ty, rfl, ty.cls_tag⟩

end WellBuilt

/-- Nothing is wrong at the places of the view. -/
lemma Fits.slotDefects_toHandle {t : Tree} {ty : NodeType} (h : t.Fits ty) :
    t.toHandle.slotDefects = [] := by
  refine Handle.slotDefects_eq_nil_iff.2 fun s hs => ?_
  rw [h.slots_toHandle] at hs
  obtain ⟨hrequired, hbuilt⟩ := List.forall_iff_forall_mem.1 h.supplies s hs
  unfold Slot.Met
  rw [answers_toHandle]
  refine ⟨fun hr hnil => hrequired hr (List.map_eq_nil_iff.1 hnil), fun k hk => ?_⟩
  obtain ⟨u, hu, rfl⟩ := List.mem_map.1 hk
  exact (hbuilt u hu).toHandle_proper

/-- The children of the item over a node are the items over its open sub-trees. -/
lemma Fits.children_outcome {t : Tree} {ty : NodeType} (h : t.Fits ty) :
    t.toHandle.item.children.outcome = .ok (t.openSubtrees.map fun u => u.toHandle.item) := by
  rw [Handle.children_item_outcome, h.slotDefects_toHandle, h.visible_toHandle, List.map_map]
  rfl

namespace WellBuilt

variable {c : Class} {t : Tree}

/-- Nothing is wrong with the view by itself. -/
lemma ownDefect?_toHandle (ht : t.WellBuilt c) : t.toHandle.ownDefect? = none := by
  obtain ⟨hl, hf, _⟩ := ht.toHandle_proper
  exact Handle.ownDefect?_eq_none_iff.2 ⟨hl, hf⟩

/-- Nothing is wrong in the view of a well built tree. -/
theorem treeDefects_toHandle (ht : t.WellBuilt c) : t.toHandle.treeDefects = [] := by
  refine openInduction (motive := fun t => t.toHandle.treeDefects = []) (fun t ty h ih => ?_) ht
  rw [Handle.treeDefects_eq, h.slotDefects_toHandle, h.visible_toHandle, List.nil_append,
    List.flatMap_map, List.flatMap_eq_nil_iff]
  exact ih

/-- The handles reached from the view are the views of the exposed nodes. -/
theorem reached_toHandle (ht : t.WellBuilt c) :
    t.toHandle.reached = (t.exposed.map Prod.snd).map toHandle := by
  refine openInduction (motive := fun t => t.toHandle.reached =
    (t.exposed.map Prod.snd).map toHandle) (fun t ty h ih => ?_) ht
  rw [Handle.reached_eq, h.visible_toHandle, map_snd_exposed, List.map_cons, List.flatMap_map,
    List.map_flatMap]
  exact congrArg (t.toHandle :: ·) (List.flatMap_congr ih)

/-- Every exposed node is arranged as its type says. -/
lemma fits_of_mem_exposed (ht : t.WellBuilt c) :
    ∀ u ∈ t.exposed.map Prod.snd, ∃ ty, u.Fits ty := by
  refine openInduction (motive := fun t => ∀ u ∈ t.exposed.map Prod.snd, ∃ ty, u.Fits ty)
    (fun t ty h ih u hu => ?_) ht
  rw [map_snd_exposed] at hu
  rcases List.mem_cons.1 hu with rfl | hu
  · exact ⟨ty, h⟩
  · obtain ⟨v, hv, hu⟩ := List.mem_flatMap.1 hu
    exact ih v hv u hu

end WellBuilt

/-- Number of nodes of the statements that are embedded in exposed nodes. -/
def embeddedSize (t : Tree) : Nat :=
  sizeList ((t.exposed.map Prod.snd).flatMap fun u => u.part .insn)

namespace WellBuilt

variable {c : Class} {t : Tree}

/-- The nodes of a well built tree are the exposed ones and those of embedded statements. -/
lemma size_eq_add (ht : t.WellBuilt c) : t.size = t.exposed.length + t.embeddedSize := by
  have hparts : (t.exposed.map Prod.snd).flatMap hiddenSubtrees =
      (t.exposed.map Prod.snd).flatMap fun u => u.part .insn := by
    refine List.flatMap_congr fun u hu => ?_
    obtain ⟨ty, hfits⟩ := ht.fits_of_mem_exposed u hu
    exact hfits.hiddenSubtrees_eq
  rw [size_eq_exposed, hparts, List.length_map]
  rfl

/-- Nothing is embedded in a well built tree exactly if none of its nodes is an embedded
instruction. -/
lemma embeddedSize_eq_zero_iff (ht : t.WellBuilt c) :
    t.embeddedSize = 0 ↔ ∀ p u, t.nodeAt? p = some u → ¬ u.IsInsn := by
  rw [embeddedSize, sizeList_eq_zero_iff, List.flatMap_eq_nil_iff]
  constructor
  · intro h p u hu hinsn
    obtain ⟨v, hv, hvinsn⟩ := exists_isInsn_exposed hu hinsn
    have hmem : v.2 ∈ t.exposed.map Prod.snd := List.mem_map_of_mem hv
    obtain ⟨ty, hfits⟩ := ht.fits_of_mem_exposed v.2 hmem
    exact hfits.part_insn_eq_nil_iff.1 (h v.2 hmem) hvinsn
  · intro h u hu
    obtain ⟨ty, hfits⟩ := ht.fits_of_mem_exposed u hu
    obtain ⟨⟨p, u⟩, hv, rfl⟩ := List.mem_map.1 hu
    exact hfits.part_insn_eq_nil_iff.2 (h p u (mem_exposed_iff.1 hv).1)

/-- Every item below the item over a well built tree is the item over a node that is arranged as its
type says. -/
lemma exists_fits_of_reaches (ht : t.WellBuilt c) {i : Item} (hi : t.toHandle.item.Reaches i) :
    ∃ (u : Tree) (ty : NodeType), u.Fits ty ∧ i = u.toHandle.item := by
  induction hi with
  | refl =>
    obtain ⟨ty, _, hfits⟩ := ht.fits
    exact ⟨t, ty, hfits, rfl⟩
  | tail _ hchild ih =>
    obtain ⟨u, ty, hfits, rfl⟩ := ih
    obtain ⟨js, hjs, hmem⟩ := hchild
    rw [hfits.children_outcome] at hjs
    cases hjs
    obtain ⟨v, hv, rfl⟩ := List.mem_map.1 hmem
    obtain ⟨d, hd⟩ := hfits.wellBuilt_of_mem_openSubtrees hv
    obtain ⟨ty', _, hfits'⟩ := hd.fits
    exact ⟨v, ty', hfits', rfl⟩

/-- The view of a well built tree resolves. -/
lemma resolve_outcome (ht : t.WellBuilt c) :
    (Registry.standard.resolve t.toHandle).outcome = .ok t.toHandle.item := by
  rw [Registry.resolve_standard_outcome, ht.ownDefect?_toHandle]
  rfl

/-- Counting the items of a well built tree gives the number of its exposed nodes. -/
lemma count_outcome (ht : t.WellBuilt c) :
    t.toHandle.item.count.outcome = .ok (t.size - t.embeddedSize) := by
  have hsize := ht.size_eq_add
  have hlength : t.toHandle.reached.length = t.size - t.embeddedSize := by
    rw [ht.reached_toHandle, List.length_map, List.length_map]
    omega
  rw [Handle.count_item_outcome, ht.treeDefects_toHandle, hlength]
  rfl

/-- A full traversal of a well built tree visits the views of its exposed nodes. -/
lemma handles_of_visits {σ : Type u} (ht : t.WellBuilt c) {visitor : Visitor σ}
    (hv : visitor.Descends) (s : σ) :
    (t.toHandle.item.visits visitor s).map (fun v => v.item.handle) =
      t.exposed.map fun v => v.2.toHandle := by
  have hitems := Handle.preorder_item_items hv ht.treeDefects_toHandle 0 s
  have hhandles := congrArg (List.map Item.handle) hitems
  rw [ht.reached_toHandle, List.map_map, List.map_map, List.map_map, List.map_map] at hhandles
  rw [Item.visits_eq_calls]
  exact hhandles

end WellBuilt

end Tree

/-- **Traversals of well built trees.**  With the standard kinds a well built tree resolves, and no
item below has children that fail.  A traversal that always descends succeeds and visits the exposed
nodes, in the order of the list: these are exactly the nodes that are not inside the statement of an
embedded instruction, and no place is listed twice.  Counting gives the size of the tree without the
embedded statements of exposed nodes, which is the size of the tree exactly if it has no embedded
instruction at all. -/
theorem walk_well_built_visits_exposed {σ : Type u} {c : Class} {t : Tree} (ht : t.WellBuilt c)
    {visitor : Visitor σ} (hv : visitor.Descends) (s : σ) :
    ∃ root, (Registry.standard.resolve t.toHandle).outcome = .ok root ∧
      (∀ i, root.Reaches i → ∃ js, i.children.outcome = .ok js) ∧
      (root.walk visitor s).outcome = .ok () ∧
      (root.visits visitor s).map (fun v => v.item.handle) =
        t.exposed.map (fun v => v.2.toHandle) ∧
      (t.exposed.map Prod.fst).Nodup ∧
      (∀ p u, (p, u) ∈ t.exposed ↔ t.nodeAt? p = some u ∧ ¬ t.Enclosed p) ∧
      t.embeddedSize ≤ t.size ∧
      root.count.outcome = .ok (t.size - t.embeddedSize) ∧
      (root.count.outcome = .ok t.size ↔ ∀ p u, t.nodeAt? p = some u → ¬ u.IsInsn) := by
  have hsize := ht.size_eq_add
  have hcount := ht.count_outcome
  refine ⟨t.toHandle.item, ht.resolve_outcome, ?_, ?_, ht.handles_of_visits hv s, t.nodup_exposed,
    fun p u => Tree.mem_exposed_iff, by omega, hcount, ?_⟩
  · intro i hi
    obtain ⟨u, ty, hfits, rfl⟩ := ht.exists_fits_of_reaches hi
    exact ⟨_, hfits.children_outcome⟩
  · rw [Item.walk_eq_walked, Passage.walked, Handle.preorder_item_ending hv,
      ht.treeDefects_toHandle]
    rfl
  · rw [hcount, ← ht.embeddedSize_eq_zero_iff, Except.ok.injEq]
    have hpos := t.size_pos
    omega

/-- In a block whose first statement embeds a block, the five nodes outside that inner block are
visited and counted. -/
theorem walk_well_built_visits_exposed_embedded_block :
    let inner := Tree.block 0 [Tree.leaf (NodeType.stmt .breakStmt).tag 0]
    let t := Tree.block 0
      [Tree.exprStmt (Tree.insn 0 inner), Tree.returnStmt 0 (some (Tree.num 0 1))]
    t.WellBuilt .statement ∧ Visitor.counting.Descends ∧
      ∃ root, (Registry.standard.resolve t.toHandle).outcome = .ok root ∧
        (root.visits .counting 0).map (fun v => v.item.handle) =
          t.exposed.map (fun v => v.2.toHandle) ∧
        t.exposed.map Prod.fst = [[], [0], [0, 0], [1], [1, 0]] ∧ root.count.outcome = .ok 5 := by
  intro inner t
  have hinner : inner.WellBuilt .statement :=
    .block 0 (List.forall_mem_singleton.2 (@Tree.WellBuilt.leaf (.stmt .breakStmt) (by decide) 0))
  have hreturn : (Tree.returnStmt 0 (some (Tree.num 0 1))).WellBuilt .statement :=
    .returnStmt 0 (List.forall_mem_singleton.2 (.num 0 1))
  have ht : t.WellBuilt .statement :=
    .block 0 (List.forall_mem_cons.2
      ⟨.exprStmt (.insn 0 hinner), List.forall_mem_singleton.2 hreturn⟩)
  have hv : Visitor.counting.Descends := fun _ _ _ => rfl
  obtain ⟨root, hroot, _, _, hvisits, _, _, _, hcount, _⟩ := walk_well_built_visits_exposed ht hv 0
  have hnumber : t.size - t.embeddedSize = 5 := by decide +kernel
  rw [hnumber] at hcount
  exact ⟨ht, hv, root, hroot, hvisits, by decide +kernel, hcount⟩

end Pseudocode
