import Mathlib.Algebra.GroupWithZero.Nat
import Mathlib.Data.List.Perm.Basic
import Pseudocode.Proofs.Place
import Pseudocode.Proofs.Tree.Subtree

/-!
# Accessors and sub-trees

The view of a tree has thirteen accessors for sub-nodes, and a payload has one of twenty forms; each
form is read through a few of the accessors only.  `Payload.housed` lists the direct sub-trees of a
payload in their order, each with the accessor that answers it.  An accessor answers exactly the
sub-trees that are housed at it, in the order of the payload (`Payload.part_eq_housed`), so that no
sub-tree is lost, none is answered twice, and lists keep their order.
-/

namespace Pseudocode

/-! ## Where sub-trees are answered -/

/-- The direct sub-trees of a payload in their order, each with the accessor that answers it. -/
def Payload.housed : Payload → List (Accessor × Tree)
  | .operands x y z => (.x, x) :: (y.toList.map (.y, ·) ++ z.toList.map (.z, ·))
  | .call callee args => (.x, callee) :: args.map (.args, ·)
  | .member x _ => [(.x, x)]
  | .insn stmt => [(.insn, stmt)]
  | .block stmts => stmts.map (.block, ·)
  | .expr e => [(.cexpr, e)]
  | .branch cond thenBranch otherwise =>
    (.cexpr, cond) :: (.ithen, thenBranch) :: otherwise.toList.map (.ielse, ·)
  | .counting init cond step body => [(.init, init), (.cexpr, cond), (.step, step), (.body, body)]
  | .loop cond body => [(.cexpr, cond), (.body, body)]
  | .switch e cases => (.cexpr, e) :: cases.map fun c => (.cases, c.body)
  | .returned value => value.toList.map (.cexpr, ·)
  | _ => []

namespace Payload

/-- Without their accessors, what is housed are the direct sub-trees. -/
lemma map_snd_housed (p : Payload) : p.housed.map Prod.snd = p.subtrees := by
  cases p <;> simp [housed, subtrees, Function.comp_def]

/-- An accessor answers the sub-trees that are housed at it, in their order. -/
lemma part_eq_housed (p : Payload) (a : Accessor) :
    p.part a = (p.housed.filter (·.1 = a)).map Prod.snd := by
  cases p <;> cases a <;> simp [part, housed, List.filter_map, Function.comp_def]

end Payload

namespace Tree

/-- The accessors of a view together answer the views of the direct sub-trees, each once. -/
lemma subnodes_toHandle_perm (t : Tree) :
    t.toHandle.subnodes.Perm (t.subtrees.map toHandle) := by
  rw [subnodes_toHandle]
  exact t.flatMap_part_perm.map toHandle

/-- The steps from a view to its sub-nodes can be put in the order of the direct sub-trees. -/
lemma exists_steps_toHandle (t : Tree) :
    ∃ steps : List (Step × Handle), steps.Perm (t.toHandle.steps Accessor.all) ∧
      t.subtrees.map toHandle = steps.map Prod.snd := by
  have hperm : (t.subtrees.map toHandle).Perm ((t.toHandle.steps Accessor.all).map Prod.snd) := by
    rw [Handle.map_snd_steps]
    exact t.subnodes_toHandle_perm.symm
  have hcomp := (congrFun₂ (List.eq_map_comp_perm Prod.snd) _ _).mpr hperm
  obtain ⟨steps, hsteps, hperm⟩ := hcomp
  exact ⟨steps, hperm, hsteps⟩

/-- The direct sub-trees and the steps from the view to its sub-nodes are matched one to one, so
that each step leads to the view of its sub-tree. -/
lemma exists_places_subtrees (t : Tree) :
    ∃ places : List Step, places.Nodup ∧
      (∀ s, s ∈ places ↔ s.2 < (t.toHandle.answers s.1).length) ∧
      List.Forall₂ (fun u s => (t.toHandle.answers s.1)[s.2]? = some u.toHandle)
        t.subtrees places := by
  obtain ⟨steps, hperm, hsteps⟩ := t.exists_steps_toHandle
  have hnodup : (steps.map Prod.fst).Nodup :=
    (hperm.map Prod.fst).nodup_iff.2 (Handle.nodup_steps (by decide))
  have hleads : ∀ s ∈ steps, (t.toHandle.answers s.1.1)[s.1.2]? = some s.2 := fun s hs =>
    (Handle.mem_steps_iff.1 (hperm.mem_iff.1 hs)).2
  refine ⟨steps.map Prod.fst, hnodup, fun s => ?_, ?_⟩
  · constructor
    · intro hs
      obtain ⟨v, hv, rfl⟩ := List.mem_map.1 hs
      exact (List.getElem?_eq_some_iff.1 (hleads v hv)).1
    · intro hlt
      have hk := List.getElem?_eq_getElem hlt
      have hstep := Handle.mem_steps_iff.2 ⟨s.1.mem_all, hk⟩
      exact List.mem_map.2 ⟨_, hperm.mem_iff.2 hstep, rfl⟩
  · have hviews : List.Forall₂ (· = ·) (steps.map Prod.snd) (t.subtrees.map toHandle) := by
      rw [List.forall₂_eq_eq_eq, hsteps]
    rw [List.forall₂_map_left_iff, List.forall₂_map_right_iff] at hviews
    refine List.forall₂_map_right_iff.2 (List.Forall₂.flip ?_)
    refine ((List.forall₂_and_left _ _).2 ⟨hleads, hviews⟩).imp fun s u hsu => ?_
    exact hsu.1.trans (congrArg some hsu.2)

/-- The view loses and duplicates no sub-tree. -/
structure ShownBy (t : Tree) (h : Handle) : Prop where
  /-- All accessors together answer the views of the direct sub-trees, in some order. -/
  perm : h.subnodes.Perm (t.subtrees.map toHandle)
  /-- Each direct sub-tree is answered at a step of its own, that is by one accessor and under one
  number, and there are no other steps. -/
  placed : ∃ places : List Step, places.Nodup ∧
    (∀ s, s ∈ places ↔ s.2 < (h.answers s.1).length) ∧
    List.Forall₂ (fun u s => (h.answers s.1)[s.2]? = some u.toHandle) t.subtrees places
  /-- Each direct sub-tree is housed at one accessor, and an accessor answers what is housed at it
  in the order of the payload. -/
  housed : ∃ housed : List (Accessor × Tree), housed.map Prod.snd = t.subtrees ∧
    ∀ a, h.answers a = (housed.filter (·.1 = a)).map fun v => v.2.toHandle
  args : ∀ callee args, t.payload = .call callee args → h.args = args.map toHandle
  block : ∀ stmts, t.payload = .block stmts → h.block = stmts.map toHandle
  cases : ∀ e cs, t.payload = .switch e cs → h.cases = cs.map fun c => (c.values, c.body.toHandle)
  /-- The answers have as many nodes as the direct sub-trees, and there is one node more. -/
  sizes : (h.subnodes.map Handle.size).Perm (t.subtrees.map size)
  size_eq : t.size = 1 + (h.subnodes.map Handle.size).sum

end Tree

/-- The nodes of a list of handles are counted handle by handle. -/
lemma Handle.sum_map_size (hs : List Handle) : (hs.map Handle.size).sum = Handle.sizeList hs := by
  induction hs with
  | nil => rfl
  | cons h hs ih => rw [List.map_cons, List.sum_cons, ih, Handle.sizeList]

/-- **The view of a tree shows each direct sub-tree once.**  Whatever its tag and its payload, the
answers of all accessors together are the views of the direct sub-trees in some order, each of them
at one accessor and one position of its answers.  Every accessor answers its share in the order of
the payload, so arguments, statements of a block and cases keep their order, and each case its
values.  Hence a tree has one node more than all answers together. -/
theorem view_shows_each_subtree_once (t : Tree) : t.ShownBy t.toHandle where
  perm := t.subnodes_toHandle_perm
  placed := t.exists_places_subtrees
  housed := by
    refine ⟨t.payload.housed, t.payload.map_snd_housed, fun a => ?_⟩
    rw [t.answers_toHandle, Tree.part, t.payload.part_eq_housed, List.map_map]
    rfl
  args callee args hpayload := by
    have hargs : t.toHandle.args = (t.part .args).map Tree.toHandle := t.answers_toHandle .args
    rw [hargs, Tree.part, hpayload]
    rfl
  block stmts hpayload := by
    have hblock : t.toHandle.block = (t.part .block).map Tree.toHandle := t.answers_toHandle .block
    rw [hblock, Tree.part, hpayload]
    rfl
  cases e cs hpayload := by
    obtain ⟨ea, op, payload⟩ := t
    cases hpayload
    exact Case.toHandles_eq_map cs
  sizes := by
    have hsizes : t.subtrees.map Tree.size = (t.subtrees.map Tree.toHandle).map Handle.size := by
      rw [List.map_map]
      exact List.map_congr_left fun u _ => u.size_toHandle.symm
    rw [hsizes]
    exact t.subnodes_toHandle_perm.map Handle.size
  size_eq := by
    rw [Handle.sum_map_size, ← t.size_toHandle, Handle.size_eq, Nat.add_comm]

end Pseudocode
