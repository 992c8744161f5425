import Mathlib.Data.List.Nodup
import Mathlib.Tactic.Lemma
import Mathlib.Tactic.SplitIfs
import Pseudocode.Tree

/-!
# Sub-trees and their places

What the size and the view of a tree are in terms of its direct sub-trees, said once for all
payloads: the size is one more than the sizes of the sub-trees (`Tree.size_eq`), and each accessor
of the view answers the views of the sub-trees that are its part (`Tree.answers_toHandle`).  The
parts make up the sub-trees, so a tree and its view have equally many nodes (`Tree.size_toHandle`).

Two nodes of a tree may look the same, so a node is told apart by its place: the numbers of the
sub-trees that lead to it from the root.  `Tree.exposed` lists the nodes with their places in
pre-order, without those inside the statement of an embedded instruction; the list is exactly what
its name says (`Tree.mem_exposed_iff`) and has no place twice (`Tree.nodup_exposed`).
-/

namespace Pseudocode

/-! ## Size and induction -/

/-- The direct sub-trees of a tree. -/
def Tree.subtrees (t : Tree) : List Tree := t.payload.subtrees

namespace Tree

/-- A tree that may be absent counts as a list of at most one. -/
lemma sizeOption_eq (o : Option Tree) : sizeOption o = sizeList o.toList := by
  cases o <;> simp [sizeOption, sizeList]

/-- Lists of trees have their nodes together. -/
lemma sizeList_append (ts us : List Tree) : sizeList (ts ++ us) = sizeList ts + sizeList us := by
  induction ts with
  | nil => simp [sizeList]
  | cons t ts ih => simp [sizeList, ih, Nat.add_assoc]

end Tree

/-- Cases have the nodes of their bodies. -/
lemma Case.sizeList_eq (cs : List Case) : Case.sizeList cs = Tree.sizeList (cs.map Case.body) := by
  induction cs with
  | nil => simp [Case.sizeList, Tree.sizeList]
  | cons c cs ih =>
    obtain ⟨values, body⟩ := c
    rw [Case.sizeList, ih, List.map_cons, Tree.sizeList]
    rfl

namespace Tree

/-- A tree has one node more than its direct sub-trees together. -/
theorem size_eq (t : Tree) : t.size = sizeList t.subtrees + 1 := by
  obtain ⟨ea, op, payload⟩ := t
  cases payload <;>
    simp [size, Payload.size, subtrees, Tree.payload, Payload.subtrees, sizeOption_eq, sizeList,
      sizeList_append, Case.sizeList_eq, Nat.add_assoc]

/-- A tree has at least one node. -/
lemma size_pos (t : Tree) : 0 < t.size := by
  rw [size_eq]
  exact Nat.succ_pos _

/-- Only the empty list of trees has no nodes. -/
lemma sizeList_eq_zero_iff {ts : List Tree} : sizeList ts = 0 ↔ ts = [] := by
  cases ts with
  | nil => simp [sizeList]
  | cons t ts =>
    have hpos := t.size_pos
    rw [sizeList]
    exact iff_of_false (by omega) (List.cons_ne_nil t ts)

/-- A tree of a list has at most as many nodes as the list. -/
lemma size_le_sizeList {t : Tree} {ts : List Tree} (ht : t ∈ ts) : t.size ≤ sizeList ts := by
  obtain ⟨us, vs, rfl⟩ := List.append_of_mem ht
  rw [sizeList_append, sizeList]
  omega

/-- A direct sub-tree is smaller than the tree. -/
lemma size_lt_of_mem_subtrees {t u : Tree} (hu : u ∈ t.subtrees) : u.size < t.size := by
  have hle := size_le_sizeList hu
  rw [size_eq t]
  omega

/-- What holds of a tree whenever it holds of its direct sub-trees holds of every tree. -/
theorem subtreeInduction {motive : Tree → Prop}
    (step : ∀ t, (∀ u ∈ t.subtrees, motive u) → motive t) (t : Tree) : motive t := by
  refine step t fun u hu => ?_
  have hlt : u.size < t.size := size_lt_of_mem_subtrees hu
  exact subtreeInduction step u
termination_by t.size

end Tree

/-! ## The view, part by part -/

/-- The sub-trees of a payload that an accessor answers. -/
def Payload.part : Payload → Accessor → List Tree
  | .operands x _ _, .x => [x]
  | .operands _ y _, .y => y.toList
  | .operands _ _ z, .z => z.toList
  | .call callee _, .x => [callee]
  | .call _ args, .args => args
  | .member x _, .x => [x]
  | .insn stmt, .insn => [stmt]
  | .block stmts, .block => stmts
  | .expr e, .cexpr => [e]
  | .branch cond _ _, .cexpr => [cond]
  | .branch _ thenBranch _, .ithen => [thenBranch]
  | .branch _ _ otherwise, .ielse => otherwise.toList
  | .counting init _ _ _, .init => [init]
  | .counting _ cond _ _, .cexpr => [cond]
  | .counting _ _ step _, .step => [step]
  | .counting _ _ _ body, .body => [body]
  | .loop cond _, .cexpr => [cond]
  | .loop _ body, .body => [body]
  | .switch e _, .cexpr => [e]
  | .switch _ cases, .cases => cases.map Case.body
  | .returned value, .cexpr => value.toList
  | _, _ => []

namespace Tree

/-- The direct sub-trees that an accessor answers. -/
def part (t : Tree) (a : Accessor) : List Tree := t.payload.part a

/-- The view of a tree that may be absent. -/
lemma toHandleOption_eq_map (o : Option Tree) : toHandleOption o = o.map toHandle := by
  cases o <;> rfl

/-- The views of a list of trees. -/
lemma toHandles_eq_map (ts : List Tree) : toHandles ts = ts.map toHandle := by
  induction ts with
  | nil => rfl
  | cons t ts ih => rw [toHandles, ih, List.map_cons]

end Tree

/-- The views of a list of cases. -/
lemma Case.toHandles_eq_map (cs : List Case) :
    Case.toHandles cs = cs.map fun c => (c.values, c.body.toHandle) := by
  induction cs with
  | nil => rfl
  | cons c cs ih =>
    obtain ⟨values, body⟩ := c
    rw [Case.toHandles, ih, List.map_cons]
    rfl

namespace Tree

/-- The view has the tag of the tree. -/
@[simp]
lemma op_toHandle (t : Tree) : t.toHandle.op = t.op := by
  obtain ⟨ea, op, payload⟩ := t
  cases payload <;> rfl

/-- The view reports the class of its tag. -/
@[simp]
lemma isExpr_toHandle (t : Tree) : t.toHandle.isExpr = t.op.isExpr := by
  obtain ⟨ea, op, payload⟩ := t
  cases payload <;> rfl

/-- An accessor of the view answers the views of its part of the sub-trees. -/
theorem answers_toHandle (t : Tree) (a : Accessor) :
    t.toHandle.answers a = (t.part a).map toHandle := by
  obtain ⟨ea, op, payload⟩ := t
  cases payload <;> cases a <;>
    simp [toHandle, Payload.toHandle, Handle.answers, part, Tree.payload, Payload.part,
      toHandleOption_eq_map, toHandles_eq_map, Case.toHandles_eq_map, Option.toList_map,
      Function.comp_def]

/-- The accessors together answer each direct sub-tree once. -/
theorem flatMap_part_perm (t : Tree) : (Accessor.all.flatMap t.part).Perm t.subtrees := by
  obtain ⟨ea, op, payload⟩ := t
  cases payload with
  | counting init cond step body => exact .swap init cond [step, body]
  | _ => simp [Accessor.all, part, Tree.payload, Payload.part, subtrees, Payload.subtrees]

/-- The nodes of a list of trees do not depend on its order. -/
lemma sizeList_perm {ts us : List Tree} (h : ts.Perm us) : sizeList ts = sizeList us := by
  induction h with
  | nil => rfl
  | cons t _ ih => rw [sizeList, sizeList, ih]
  | swap t u ts => simp only [sizeList, Nat.add_left_comm]
  | trans _ _ ih ih' => exact ih.trans ih'

/-- A list of views has as many nodes as the trees, if each view has. -/
lemma sizeList_map_toHandle {ts : List Tree} (h : ∀ t ∈ ts, t.toHandle.size = t.size) :
    Handle.sizeList (ts.map toHandle) = sizeList ts := by
  induction ts with
  | nil => rfl
  | cons t ts ih =>
    obtain ⟨ht, hts⟩ := List.forall_mem_cons.1 h
    rw [List.map_cons, Handle.sizeList, sizeList, ht, ih hts]

/-- The accessors of the view together answer the views of what they are parts of. -/
lemma subnodes_toHandle (t : Tree) :
    t.toHandle.subnodes = (Accessor.all.flatMap t.part).map toHandle := by
  rw [Handle.subnodes, List.map_flatMap]
  exact List.flatMap_congr fun a _ => t.answers_toHandle a

/-- The view of a tree has as many nodes as the tree. -/
theorem size_toHandle (t : Tree) : t.toHandle.size = t.size := by
  induction t using subtreeInduction with
  | step t ih =>
    have hperm := t.flatMap_part_perm
    rw [Handle.size_eq, subnodes_toHandle, size_eq, ← sizeList_perm hperm,
      sizeList_map_toHandle fun u hu => ih u (hperm.mem_iff.1 hu)]

end Tree

/-! ## Places of nodes -/

namespace Tree

/-- The node at a place.  The place gives the number of the sub-tree to go to, step by step. -/
def nodeAt? : Tree → List Nat → Option Tree
  | t, [] => some t
  | t, n :: p => t.subtrees[n]?.bind fun u => u.nodeAt? p

/-- The node is an embedded instruction. -/
def IsInsn (t : Tree) : Prop := t.op = (NodeType.expr .insn).tag

instance (t : Tree) : Decidable t.IsInsn := inferInstanceAs (Decidable (_ = _))

/-- A place is inside the statement of an embedded instruction: such an instruction is passed on the
way to it. -/
def Enclosed (t : Tree) (p : List Nat) : Prop :=
  ∃ q u, q <+: p ∧ q ≠ p ∧ t.nodeAt? q = some u ∧ u.IsInsn

/-- The direct sub-trees, unless the node is an embedded instruction. -/
def openSubtrees (t : Tree) : List Tree := if t.IsInsn then [] else t.subtrees

/-- The direct sub-trees of an embedded instruction. -/
def hiddenSubtrees (t : Tree) : List Tree := if t.IsInsn then t.subtrees else []

/-- An open sub-tree is a sub-tree. -/
lemma mem_subtrees_of_mem_openSubtrees {t u : Tree} (hu : u ∈ t.openSubtrees) : u ∈ t.subtrees := by
  unfold openSubtrees at hu
  split_ifs at hu
  · cases hu
  · exact hu

/-- The nodes that are not inside an embedded instruction, with their places, in pre-order. -/
def exposed (t : Tree) : List (List Nat × Tree) :=
  ([], t) :: t.openSubtrees.attach.zipIdx.flatMap fun v =>
    v.1.1.exposed.map fun w => (v.2 :: w.1, w.2)
termination_by t.size
decreasing_by exact size_lt_of_mem_subtrees (mem_subtrees_of_mem_openSubtrees v.1.2)

/-- The exposed nodes are the root and those of the open sub-trees, at places one longer. -/
lemma exposed_eq (t : Tree) :
    t.exposed = ([], t) :: t.openSubtrees.zipIdx.flatMap fun v =>
      v.1.exposed.map fun w => (v.2 :: w.1, w.2) := by
  have hzip : t.openSubtrees.zipIdx =
      t.openSubtrees.attach.zipIdx.map (Prod.map Subtype.val id) := by
    rw [← List.zipIdx_map, List.attach_map_subtype_val]
  rw [exposed, hzip, List.flatMap_map]
  rfl

/-- The exposed nodes without their places. -/
lemma map_snd_exposed (t : Tree) :
    t.exposed.map Prod.snd = t :: t.openSubtrees.flatMap fun u => u.exposed.map Prod.snd := by
  have hzip : t.openSubtrees = t.openSubtrees.zipIdx.map Prod.fst := by simp
  rw [exposed_eq, List.map_cons, List.map_flatMap]
  nth_rewrite 2 [hzip]
  rw [List.flatMap_map]
  simp only [List.map_map]
  rfl

/-- The root is not inside anything. -/
lemma not_enclosed_nil (t : Tree) : ¬ t.Enclosed [] := by
  rintro ⟨q, u, hq, hne, _, _⟩
  exact hne (List.prefix_nil.1 hq)

/-- A place below the root is inside an embedded instruction if the root is one, or if the place is
inside one in the sub-tree that it goes to. -/
lemma enclosed_cons_iff {t : Tree} {n : Nat} {p : List Nat} :
    t.Enclosed (n :: p) ↔ t.IsInsn ∨ ∃ u, t.subtrees[n]? = some u ∧ u.Enclosed p := by
  constructor
  · rintro ⟨q, v, hq, hne, hv, hinsn⟩
    cases q with
    | nil =>
      cases hv
      exact .inl hinsn
    | cons m q =>
      obtain ⟨rfl, hqp⟩ := List.cons_prefix_cons.1 hq
      obtain ⟨u, hu, hv⟩ := Option.bind_eq_some_iff.1 hv
      have hne' : q ≠ p := fun h => hne (congrArg (m :: ·) h)
      exact .inr ⟨u, hu, q, v, hqp, hne', hv, hinsn⟩
  · rintro (hinsn | ⟨u, hu, q, v, hq, hne, hv, hinsn⟩)
    · exact ⟨[], t, List.nil_prefix, (List.cons_ne_nil n p).symm, rfl, hinsn⟩
    · have hv' : t.nodeAt? (n :: q) = some v := Option.bind_eq_some_iff.2 ⟨u, hu, hv⟩
      have hne' : n :: q ≠ n :: p := fun h => hne (List.cons.inj h).2
      exact ⟨n :: q, v, List.cons_prefix_cons.2 ⟨rfl, hq⟩, hne', hv', hinsn⟩

/-- A node stands in the list of exposed nodes with a place exactly if it is the node at that place
and the place is not inside an embedded instruction. -/
theorem mem_exposed_iff {t u : Tree} {p : List Nat} :
    (p, u) ∈ t.exposed ↔ t.nodeAt? p = some u ∧ ¬ t.Enclosed p := by
  induction t using subtreeInduction generalizing p with
  | step t ih =>
    have hlist : (p, u) ∈ t.exposed ↔ (p = [] ∧ u = t) ∨
        ∃ v n, t.openSubtrees[n]? = some v ∧ ∃ q, p = n :: q ∧ (q, u) ∈ v.exposed := by
      rw [exposed_eq, List.mem_cons, List.mem_flatMap, Prod.mk.injEq]
      simp only [Prod.exists, List.mk_mem_zipIdx_iff_getElem?, List.mem_map, Prod.mk.injEq]
      grind
    rw [hlist]
    cases p with
    | nil => simp [nodeAt?, not_enclosed_nil, eq_comm]
    | cons n q =>
      rw [enclosed_cons_iff, nodeAt?, Option.bind_eq_some_iff]
      by_cases hinsn : t.IsInsn
      · simp [openSubtrees, hinsn]
      · simp only [openSubtrees, hinsn, if_false, false_or]
        constructor
        · rintro (⟨h, _⟩ | ⟨v, m, hv, r, hr, hu⟩)
          · cases h
          · cases hr
            obtain ⟨hat, hout⟩ := (ih v (List.mem_of_getElem? hv)).1 hu
            refine ⟨⟨v, hv, hat⟩, ?_⟩
            rintro ⟨w, hw, hin⟩
            rw [hv] at hw
            cases hw
            exact hout hin
        · rintro ⟨⟨v, hv, hat⟩, hout⟩
          have hu := (ih v (List.mem_of_getElem? hv)).2 ⟨hat, fun hin => hout ⟨v, hv, hin⟩⟩
          exact .inr ⟨v, n, hv, q, rfl, hu⟩

/-- A tree with an embedded instruction anywhere has one that is exposed: the first on the way. -/
lemma exists_isInsn_exposed {t u : Tree} {p : List Nat} (hu : t.nodeAt? p = some u)
    (hinsn : u.IsInsn) : ∃ v ∈ t.exposed, v.2.IsInsn := by
  by_cases hin : t.Enclosed p
  · obtain ⟨q, v, hq, hne, hv, hvinsn⟩ := hin
    have hlt : q.length < p.length :=
      Nat.lt_of_le_of_ne hq.length_le fun h => hne (hq.eq_of_length h)
    exact exists_isInsn_exposed hv hvinsn
  · exact ⟨(p, u), mem_exposed_iff.2 ⟨hu, hin⟩, hinsn⟩
termination_by p.length

/-- No place is listed twice. -/
theorem nodup_exposed (t : Tree) : (t.exposed.map Prod.fst).Nodup := by
  induction t using subtreeInduction with
  | step t ih =>
    rw [exposed_eq, List.map_cons, List.map_flatMap, List.nodup_cons]
    simp only [List.map_map]
    refine ⟨by simp, List.nodup_flatMap.2 ⟨?_, ?_⟩⟩
    · rintro ⟨u, n⟩ hu
      have hmem : u ∈ t.openSubtrees := List.mem_of_getElem? (List.mk_mem_zipIdx_iff_getElem?.1 hu)
      have hnodup := ih u (mem_subtrees_of_mem_openSubtrees hmem)
      have hmap := hnodup.map (List.cons_injective (a := n))
      rwa [List.map_map] at hmap
    · -- Places in different sub-trees differ in their first number.
      have hnumbers : t.openSubtrees.zipIdx.Pairwise fun v w => v.2 ≠ w.2 := by
        refine List.pairwise_map.1 ?_
        rw [List.zipIdx_map_snd]
        exact List.nodup_range'
      refine hnumbers.imp fun {v w} hne p hv hw => ?_
      obtain ⟨_, _, rfl⟩ := List.mem_map.1 hv
      obtain ⟨_, _, h⟩ := List.mem_map.1 hw
      exact hne (List.cons.inj h).1.symm

/-- The nodes of the sub-trees are those of the open and of the hidden ones. -/
lemma sizeList_subtrees (t : Tree) :
    sizeList t.subtrees = sizeList t.openSubtrees + sizeList t.hiddenSubtrees := by
  unfold openSubtrees hiddenSubtrees
  split_ifs <;> simp [sizeList]

/-- If every tree of a list has as many nodes as are listed for it and hidden below those, then so
have all trees of the list together. -/
lemma sizeList_of_forall {f : Tree → List Tree} {ts : List Tree}
    (h : ∀ t ∈ ts, t.size = (f t).length + sizeList ((f t).flatMap hiddenSubtrees)) :
    sizeList ts = (ts.flatMap f).length + sizeList ((ts.flatMap f).flatMap hiddenSubtrees) := by
  induction ts with
  | nil => rfl
  | cons t ts ih =>
    have hhead := h t List.mem_cons_self
    have htail := ih fun u hu => h u (List.mem_cons_of_mem t hu)
    rw [sizeList, List.flatMap_cons, List.flatMap_append, sizeList_append, List.length_append]
    omega

/-- The nodes of a tree are the exposed ones and those in the hidden sub-trees of exposed ones. -/
theorem size_eq_exposed (t : Tree) :
    t.size = (t.exposed.map Prod.snd).length +
      sizeList ((t.exposed.map Prod.snd).flatMap hiddenSubtrees) := by
  induction t using subtreeInduction with
  | step t ih =>
    have hopen := sizeList_of_forall fun u hu => ih u (mem_subtrees_of_mem_openSubtrees hu)
    have hparts := t.sizeList_subtrees
    rw [size_eq t, map_snd_exposed, List.length_cons, List.flatMap_cons, sizeList_append]
    omega

end Tree

end Pseudocode
