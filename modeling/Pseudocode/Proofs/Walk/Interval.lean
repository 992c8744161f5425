import Mathlib.Data.List.TakeWhile
import Pseudocode.Proofs.Tree.WellBuilt
import Pseudocode.Proofs.Walk.Plan

/-!
# Subtrees as intervals

A full walk writes a tree down as a flat list of items with their depths.  In this list the tree
below an entry is an interval: what follows the entry up to the next one that is not deeper.  It is
what the full walk from the item of the entry visits below its root, so many levels deeper
(`Layered`).  Skipping the children of an item deletes its interval (`prune`), and stopping keeps a
beginning of the list.

All of this comes from one fact about two lists that are put together.  If no entry of the first is
above the entry with which the second begins, then the intervals of the first end before the second,
so taking and deleting intervals can be done in each list by itself (`interval_append`,
`beyond_append`).  The list of a tree is put together in this way from the lists of the children.
-/

namespace Pseudocode

/-! ## Intervals -/

namespace Visit

/-- The same item, so many levels deeper. -/
def deeper (levels : Nat) (v : Visit) : Visit := ⟨v.item, v.depth + levels⟩

/-- Of the later entries, those up to the first one that is not deeper. -/
def interval (v : Visit) (later : List Visit) : List Visit :=
  later.takeWhile fun w => v.depth < w.depth

/-- Of the later entries, those from the first one that is not deeper. -/
def beyond (v : Visit) (later : List Visit) : List Visit :=
  later.dropWhile fun w => v.depth < w.depth

variable {v : Visit} {vs ws : List Visit}

/-- The interval of an entry below which all later ones are. -/
lemma interval_eq_self (h : ∀ w ∈ vs, v.depth < w.depth) : v.interval vs = vs :=
  List.takeWhile_eq_self_iff.2 fun w hw => decide_eq_true (h w hw)

/-- Nothing is beyond an entry below which all later ones are. -/
lemma beyond_eq_nil (h : ∀ w ∈ vs, v.depth < w.depth) : v.beyond vs = [] :=
  List.dropWhile_eq_nil_iff.2 fun w hw => decide_eq_true (h w hw)

/-- An interval ends before a list that begins no deeper. -/
lemma interval_append (h : ∀ w ∈ ws.head?, w.depth ≤ v.depth) :
    v.interval (vs ++ ws) = v.interval vs := by
  have hws : ws.takeWhile (fun w => decide (v.depth < w.depth)) = [] := by
    cases ws with
    | nil => rfl
    | cons w ws => exact List.takeWhile_cons_of_neg (by simpa using h w rfl)
  rw [interval, interval, List.takeWhile_append, hws, List.append_nil]
  split
  · next hall => exact ((List.takeWhile_prefix _).eq_of_length hall).symm
  · rfl

/-- What is beyond an entry keeps a list that begins no deeper. -/
lemma beyond_append (h : ∀ w ∈ ws.head?, w.depth ≤ v.depth) :
    v.beyond (vs ++ ws) = v.beyond vs ++ ws := by
  have hws : ws.dropWhile (fun w => decide (v.depth < w.depth)) = ws := by
    cases ws with
    | nil => rfl
    | cons w ws => exact List.dropWhile_cons_of_neg (by simpa using h w rfl)
  rw [beyond, beyond, List.dropWhile_append, hws]
  split
  · next hempty => rw [List.isEmpty_iff.1 hempty, List.nil_append]
  · rfl

end Visit

/-- At each entry of the list, the interval is what the full traversal of its item visits below
it. -/
def Layered : List Visit → Prop
  | [] => True
  | v :: vs => v.interval vs = (v.item.entries v.depth).tail ∧ Layered vs

/-- The list without the interval of each entry that is chosen. -/
def prune (p : Visit → Bool) : List Visit → List Visit
  | [] => []
  | v :: vs => if p v then v :: prune p (v.beyond vs) else v :: prune p vs
termination_by vs => vs.length
decreasing_by
  · exact Nat.lt_succ_of_le (List.dropWhile_sublist _).length_le
  · exact Nat.lt_succ_self _

section Append

variable {depth : Nat} {vs ws : List Visit}

/-- Two lists can be put together if the second begins no deeper than any entry of the first. -/
lemma layered_append (hvs : ∀ v ∈ vs, depth ≤ v.depth) (hws : ∀ w ∈ ws.head?, w.depth ≤ depth)
    (h : Layered vs) (h' : Layered ws) : Layered (vs ++ ws) := by
  induction vs with
  | nil => exact h'
  | cons v vs ih =>
    obtain ⟨hv, hvs'⟩ := List.forall_mem_cons.1 hvs
    have hstart : ∀ w ∈ ws.head?, w.depth ≤ v.depth := fun w hw => (hws w hw).trans hv
    exact ⟨(Visit.interval_append hstart).trans h.1, ih hvs' h.2⟩

/-- Pruning a list that begins no deeper than any entry before it can be done by itself. -/
lemma prune_append (p : Visit → Bool) (hvs : ∀ v ∈ vs, depth ≤ v.depth)
    (hws : ∀ w ∈ ws.head?, w.depth ≤ depth) : prune p (vs ++ ws) = prune p vs ++ prune p ws := by
  fun_induction prune p vs with
  | case1 => rfl
  | case2 v vs hp ih =>
    obtain ⟨hv, hvs'⟩ := List.forall_mem_cons.1 hvs
    have hstart : ∀ w ∈ ws.head?, w.depth ≤ v.depth := fun w hw => (hws w hw).trans hv
    have hbeyond : ∀ w ∈ v.beyond vs, depth ≤ w.depth :=
      fun w hw => hvs' w ((List.dropWhile_sublist _).subset hw)
    rw [List.cons_append, prune, if_pos hp, Visit.beyond_append hstart, ih hbeyond,
      List.cons_append]
  | case3 v vs hp ih =>
    rw [List.cons_append, prune, if_neg hp, ih (List.forall_mem_cons.1 hvs).2, List.cons_append]

end Append

/-! ## The list of a full walk -/

namespace Item

variable {i : Item} {js : List Item}

/-- A list of children begins at the depth of the children. -/
lemma head?_entries_flatMap (hall : ∀ j ∈ js, j.Whole) (depth : Nat) :
    ∀ w ∈ (js.flatMap fun j => j.entries depth).head?, w.depth ≤ depth := by
  cases js with
  | nil => nofun
  | cons j js =>
    obtain ⟨hks, hall'⟩ := hall j List.mem_cons_self
    rw [List.flatMap_cons, entries_eq hks hall']
    rintro w ⟨⟩
    exact le_rfl

/-- No entry of a full traversal is above its root. -/
lemma Whole.le_depth (h : i.Whole) (depth : Nat) : ∀ v ∈ i.entries depth, depth ≤ v.depth := by
  induction h generalizing depth with
  | intro hjs hall ih =>
    rw [entries_eq hjs hall]
    refine List.forall_mem_cons.2 ⟨le_rfl, fun v hv => ?_⟩
    obtain ⟨j, hj, hv⟩ := List.mem_flatMap.1 hv
    exact (Nat.le_succ depth).trans (ih j hj (depth + 1) v hv)

/-- The entries of the children are below their parent. -/
lemma lt_depth_of_mem_flatMap (hall : ∀ j ∈ js, j.Whole) (depth : Nat) :
    ∀ v ∈ js.flatMap fun j => j.entries (depth + 1), depth < v.depth := by
  intro v hv
  obtain ⟨j, hj, hv⟩ := List.mem_flatMap.1 hv
  exact (hall j hj).le_depth (depth + 1) v hv

/-- The lists of the children, one after the other, are layered if each of them is. -/
lemma layered_flatMap {depth : Nat} (hall : ∀ j ∈ js, j.Whole)
    (h : ∀ j ∈ js, Layered (j.entries depth)) : Layered (js.flatMap fun j => j.entries depth) := by
  induction js with
  | nil => exact trivial
  | cons j js ih =>
    obtain ⟨hj, hall'⟩ := List.forall_mem_cons.1 hall
    obtain ⟨hlayered, h'⟩ := List.forall_mem_cons.1 h
    rw [List.flatMap_cons]
    exact layered_append (hj.le_depth depth) (head?_entries_flatMap hall' depth) hlayered
      (ih hall' h')

/-- The lists of the children, one after the other, are pruned each by itself. -/
lemma prune_flatMap (p : Visit → Bool) (hall : ∀ j ∈ js, j.Whole) (depth : Nat) :
    prune p (js.flatMap fun j => j.entries depth) =
      js.flatMap fun j => prune p (j.entries depth) := by
  induction js with
  | nil => rw [List.flatMap_nil, List.flatMap_nil, prune]
  | cons j js ih =>
    obtain ⟨hj, hall'⟩ := List.forall_mem_cons.1 hall
    rw [List.flatMap_cons, List.flatMap_cons, ← ih hall']
    exact prune_append p (hj.le_depth depth) (head?_entries_flatMap hall' depth)

/-- The list of a full traversal is layered. -/
theorem Whole.layered (h : i.Whole) (depth : Nat) : Layered (i.entries depth) := by
  induction h generalizing depth with
  | intro hjs hall ih =>
    have hentries := entries_eq hjs hall depth
    rw [hentries]
    refine ⟨?_, layered_flatMap hall fun j hj => ih j hj (depth + 1)⟩
    rw [hentries]
    exact Visit.interval_eq_self (lt_depth_of_mem_flatMap hall depth)

/-- A full traversal that starts deeper visits the same items, as much deeper. -/
lemma Whole.entries_add (h : i.Whole) (depth levels : Nat) :
    i.entries (depth + levels) = (i.entries depth).map (Visit.deeper levels) := by
  induction h generalizing depth with
  | intro hjs hall ih =>
    rw [entries_eq hjs hall, entries_eq hjs hall, List.map_cons, List.map_flatMap]
    refine congrArg (_ :: ·) (List.flatMap_congr fun j hj => ?_)
    rw [← ih j hj, Nat.add_right_comm]

/-- Everything below an item that a full traversal visits resolves. -/
lemma Whole.of_mem_entries (h : i.Whole) (depth : Nat) : ∀ v ∈ i.entries depth, v.item.Whole := by
  induction h generalizing depth with
  | intro hjs hall ih =>
    rw [entries_eq hjs hall]
    refine List.forall_mem_cons.2 ⟨.intro hjs hall, fun v hv => ?_⟩
    obtain ⟨j, hj, hv⟩ := List.mem_flatMap.1 hv
    exact ih j hj (depth + 1) v hv

end Item

/-- In a layered list, the interval of the entry at an index is what the full traversal of its item
visits below it. -/
lemma Layered.interval_drop {vs : List Visit} (h : Layered vs) {n : Nat} {v : Visit}
    (hv : vs[n]? = some v) : v.interval (vs.drop (n + 1)) = (v.item.entries v.depth).tail := by
  induction vs generalizing n with
  | nil => cases hv
  | cons w vs ih =>
    cases n with
    | zero =>
      cases hv
      exact h.1
    | succ n => exact ih h.2 hv

/-! ## Skipping and stopping -/

namespace Visitor

/-- The visitor that skips the children of the chosen items and descends elsewhere. -/
def skipping (p : Visit → Bool) : Visitor Unit := ofPlan fun v => if p v then .skip else .descend

/-- The visitor that skips the children of the chosen items, descends elsewhere, and stops at a
given call.  Its state is the number of calls made. -/
def stopping (p : Visit → Bool) (last : Nat) : Visitor Nat := fun n i depth =>
  (n + 1, .ok (if n + 1 = last then .stop else if p ⟨i, depth⟩ then .skip else .descend))

/-- The visitor stops at the given call and at no other. -/
lemma stopsAt_stopping (p : Visit → Bool) (last n : Nat) (v : Visit) :
    (stopping p last).stopsAt n v = decide (n + 1 = last) := by
  rw [stopsAt, stopping]
  by_cases hlast : n + 1 = last
  · simp [hlast]
  · cases p ⟨v.item, v.depth⟩ <;> simp [hlast]

/-- The visitor that stops at a given call makes so many calls, if there are as many. -/
lemma cut_stopping (p : Visit → Bool) {last n : Nat} (h : n < last) (vs : List Visit) :
    (stopping p last).cut n vs = vs.take (last - n) := by
  induction vs generalizing n with
  | nil => rw [cut, List.take_nil]
  | cons v vs ih =>
    have hleft : last - n = last - (n + 1) + 1 := by omega
    rw [cut, stopsAt_stopping, hleft, List.take_succ_cons]
    by_cases hlast : n + 1 = last
    · rw [if_pos (decide_eq_true hlast), hlast, Nat.sub_self, List.take_zero]
    · have hgo : ¬ decide (n + 1 = last) = true := by simpa using hlast
      rw [if_neg hgo, advance, stopping, ih (by omega)]

end Visitor

namespace Item

variable {i : Item}

/-- A traversal that skips passes, and visits the pruned list. -/
theorem Whole.preorder_skipping (h : i.Whole) (p : Visit → Bool) (depth : Nat) :
    (i.preorder (.skipping p) depth ()).ending = .passed ∧
      (i.preorder (.skipping p) depth ()).calls = prune p (i.entries depth) := by
  induction h generalizing depth with
  | intro hjs hall ih =>
    rename_i i js
    rw [entries_eq hjs hall, prune]
    by_cases hp : p ⟨i, depth⟩ = true
    · -- The item is chosen, and all later entries are below it.
      have hplan : (if p ⟨i, depth⟩ then Control.skip else .descend) = .skip := if_pos hp
      rw [if_pos hp, Visit.beyond_eq_nil (lt_depth_of_mem_flatMap hall depth), prune,
        Visitor.skipping, preorder_ofPlan_of_skip hplan]
      exact ⟨rfl, rfl⟩
    · have hplan : (if p ⟨i, depth⟩ then Control.skip else .descend) = .descend := if_neg hp
      obtain ⟨hending, hcalls⟩ :=
        Passage.forEach_of_passed fun j hj => (ih j hj (depth + 1)).1
      rw [if_neg hp, prune_flatMap p hall, Visitor.skipping, preorder_ofPlan_of_ok hplan hjs]
      refine ⟨hending, congrArg (_ :: ·) (hcalls.trans ?_)⟩
      exact List.flatMap_congr fun j hj => (ih j hj (depth + 1)).2

/-- A walk that skips succeeds and visits the pruned list. -/
lemma Whole.walk_skipping (h : i.Whole) (p : Visit → Bool) :
    (i.walk (.skipping p) ()).outcome = .ok () ∧
      i.visits (.skipping p) () = prune p (i.visits .descending ()) := by
  obtain ⟨hending, hcalls⟩ := h.preorder_skipping p 0
  rw [walk_eq_walked, Passage.walked, hending, visits_eq_calls, visits_descending]
  exact ⟨rfl, hcalls⟩

/-- A walk that skips and stops at a given call succeeds and visits as many entries of the list that
it would visit without stopping. -/
lemma Whole.walk_stopping (h : i.Whole) (p : Visit → Bool) {last : Nat} (hlast : 1 ≤ last) :
    (i.walk (.stopping p last) 0).outcome = .ok () ∧
      i.visits (.stopping p last) 0 = (i.visits (.skipping p) ()).take last := by
  have hfollows : (Visitor.stopping p last).Follows fun v => if p v then .skip else .descend := by
    intro n v
    by_cases hn : n + 1 = last
    · exact .inl (congrArg Except.ok (if_pos hn))
    · exact .inr (congrArg Except.ok (if_neg hn))
  obtain ⟨hvisits, _, houtcome⟩ := walk_of_follows hfollows i 0
  rw [Visitor.cut_stopping p hlast, Nat.sub_zero] at hvisits
  refine ⟨?_, hvisits⟩
  rw [houtcome]
  split
  · rfl
  · exact (h.walk_skipping p).1

end Item

/-- **Subtrees are intervals of the full walk.**  Let a full walk succeed.  Then the full walk from
the item of any entry succeeds too, and what it visits below its root is the interval of the entry:
what follows it up to the next entry that is not deeper.  The walk that skips the children of chosen
items succeeds and visits the list without their intervals.  If it stops at a given call, it
succeeds and visits as many entries of that list, or all of them if there are fewer. -/
theorem subtrees_are_intervals_of_full_walk {root : Item}
    (h : (root.walk .descending ()).outcome = .ok ()) :
    let entries := root.visits .descending ()
    (∀ (n : Nat) (v : Visit), entries[n]? = some v →
        (v.item.walk .descending ()).outcome = .ok () ∧
        v.interval (entries.drop (n + 1)) =
          (v.item.visits .descending ()).tail.map (Visit.deeper v.depth)) ∧
      ∀ p : Visit → Bool,
        (root.walk (.skipping p) ()).outcome = .ok () ∧
        root.visits (.skipping p) () = prune p entries ∧
        ∀ last, 1 ≤ last →
          (root.walk (.stopping p last) 0).outcome = .ok () ∧
          root.visits (.stopping p last) 0 =
            (prune p entries).take (min last (prune p entries).length) := by
  intro entries
  have hwhole : root.Whole := Item.walk_descending_eq_ok_iff.1 h
  have hentries : entries = root.entries 0 := root.visits_descending
  refine ⟨fun n v hv => ?_, fun p => ?_⟩
  · rw [hentries] at hv ⊢
    have hv' : v.item.Whole := hwhole.of_mem_entries 0 v (List.mem_of_getElem? hv)
    have hdeeper := hv'.entries_add 0 v.depth
    rw [Nat.zero_add] at hdeeper
    refine ⟨Item.walk_descending_eq_ok_iff.2 hv', ?_⟩
    rw [(hwhole.layered 0).interval_drop hv, hdeeper, List.map_tail, Item.visits_descending]
  · obtain ⟨houtcome, hvisits⟩ := hwhole.walk_skipping p
    refine ⟨houtcome, hvisits, fun last hlast => ?_⟩
    obtain ⟨houtcome', hvisits'⟩ := hwhole.walk_stopping p hlast
    rw [hvisits', hvisits, ← List.take_eq_take_min]
    exact ⟨houtcome', rfl⟩

/-- In a block of a block and a jump, the inner block has the statements of its own in its interval,
and a walk that does not look into it visits the list without them. -/
theorem subtrees_are_intervals_of_full_walk_nested_block :
    let jump := Tree.leaf (NodeType.stmt .breakStmt).tag 8
    let t := Tree.block 0 [Tree.block 4 [jump], jump]
    let root := t.toHandle.item
    let entries := root.visits .descending ()
    let inner : Visit → Bool := fun v => v.depth == 1
    (root.walk .descending ()).outcome = .ok () ∧
      (∀ v, entries[1]? = some v →
        v.interval (entries.drop 2) =
          (v.item.visits .descending ()).tail.map (Visit.deeper v.depth)) ∧
      root.visits (.skipping inner) () = prune inner entries ∧
      root.visits (.stopping inner 2) 0 =
        (prune inner entries).take (min 2 (prune inner entries).length) := by
  intro jump t root entries inner
  have hjump : jump.WellBuilt .statement := @Tree.WellBuilt.leaf (.stmt .breakStmt) (by decide) 8
  have ht : t.WellBuilt .statement :=
    .block 0 (List.forall_mem_cons.2
      ⟨.block 4 (List.forall_mem_singleton.2 hjump), List.forall_mem_singleton.2 hjump⟩)
  have hwalk : (root.walk .descending ()).outcome = .ok () := by
    have hdescends : Visitor.descending.Descends := fun _ _ _ => rfl
    rw [Item.walk_eq_walked, Passage.walked, Handle.preorder_item_ending hdescends,
      ht.treeDefects_toHandle]
    rfl
  obtain ⟨hintervals, hprune⟩ := subtrees_are_intervals_of_full_walk hwalk
  obtain ⟨_, hskipping, hstopping⟩ := hprune inner
  exact ⟨hwalk, fun v hv => (hintervals 1 v hv).2, hskipping, (hstopping 2 (by decide)).2⟩

end Pseudocode
