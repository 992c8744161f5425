import Pseudocode.Proofs.Access
import Pseudocode.Proofs.Place
import Pseudocode.Proofs.Tree.Subtree
import Pseudocode.Proofs.Walk.Turns

/-!
# The loops visit different nodes

Whatever a handle tree looks like, and whichever standard kinds wrap its nodes, no loop comes to a
node twice.  The reason is a property of the standard kinds: none of them reads an accessor twice
(`Kind.nodup_reads_standard`), so the children of an item wrap different sub-nodes, be the item what
its tag says or not.  Places below different children begin with different steps, and so a whole
traversal visits nodes at different places, however the visitor decides and wherever it ends
(`Item.IsStandard.spread_preorder`).

A tree has no more places than nodes, which bounds the number of turns of every loop.
-/

namespace Pseudocode

universe u

variable {σ : Type u}

/-! ## What kinds read -/

namespace Kind

/-- The accessors that a kind reads for children, those of expressions first. -/
def reads (k : Kind) : List Accessor :=
  (k.shape.positions .expression ++ k.shape.positions .statement).map Position.accessor

/-- No standard kind reads an accessor twice. -/
lemma nodup_reads_standard (ty : NodeType) : (standard ty).reads.Nodup := by
  cases ty with
  | expr op => cases op <;> decide
  | stmt op => cases op <;> decide

end Kind

namespace Item

variable {i j : Item} {c : Class} {js : List Item}

/-- The children at a position wrap what its accessor answers. -/
lemma handles_of_fill {p : Position} (hjs : (i.fill c p).outcome = .ok js) :
    js.map handle = i.handle.answers p.accessor := by
  unfold fill at hjs
  split at hjs
  · cases hjs
  · have hpairs := Traced.mapM_outcome_eq_ok_iff.1 hjs
    have hequal : List.Forall₂ (fun k j => j.handle = k) (i.handle.answers p.accessor) js :=
      hpairs.imp fun _ _ hj => Registry.handle_of_resolveAs hj
    have hmap : List.Forall₂ (· = ·) (js.map handle) (i.handle.answers p.accessor) :=
      List.forall₂_map_left_iff.2 hequal.flip
    rwa [List.forall₂_eq_eq_eq] at hmap

/-- The children at a list of positions wrap what their accessors answer. -/
lemma handles_of_fillAll {ps : List Position} (hjs : (i.fillAll c ps).outcome = .ok js) :
    js.map handle = (ps.map Position.accessor).flatMap i.handle.answers := by
  induction ps generalizing js with
  | nil =>
    cases hjs
    rfl
  | cons p ps ih =>
    obtain ⟨here, there, hhere, hthere, rfl⟩ := Traced.append_outcome_eq_ok_iff.1 hjs
    rw [List.map_append, handles_of_fill hhere, ih hthere, List.map_cons, List.flatMap_cons]

/-- The children of an item wrap what the accessors answer that its kind reads. -/
theorem handles_of_children (hjs : i.children.outcome = .ok js) :
    js.map handle = i.kind.reads.flatMap i.handle.answers := by
  obtain ⟨expressions, statements, hexpressions, hstatements, rfl⟩ :=
    Traced.append_outcome_eq_ok_iff.1 hjs
  rw [List.map_append, handles_of_fillAll hexpressions, handles_of_fillAll hstatements, Kind.reads,
    List.map_append, List.flatMap_append]

/-! ## Items of standard kinds -/

/-- An item of a standard kind, below which all items are of standard kinds. -/
structure IsStandard (i : Item) : Prop where
  kind : ∃ ty, i.kind = Kind.standard ty
  registry : ∀ t e, i.registry.lookup t = some e → ∃ ty, e.builds = Kind.standard ty

/-- Through a registry whose entries build standard kinds, items of standard kinds are resolved. -/
lemma isStandard_of_resolve {r : Registry} {h : Handle}
    (hr : ∀ t e, r.lookup t = some e → ∃ ty, e.builds = Kind.standard ty)
    (hi : (r.resolve h).outcome = .ok i) : i.IsStandard := by
  obtain ⟨e, hl, _, _, rfl⟩ := Registry.resolve_eq_ok_iff.1 hi
  exact ⟨hr h.op e hl, hr⟩

/-- The children of such an item are such items. -/
lemma IsStandard.of_isChild (hi : i.IsStandard) (hj : i.IsChild j) : j.IsStandard := by
  obtain ⟨c, p, _, k, _, hk⟩ := exists_resolveAs_of_children hj
  exact isStandard_of_resolve hi.registry (Registry.resolveAs_eq_ok_iff.1 hk).1

end Item

/-! ## Visits at different places -/

/-- A visit is of the node at a place, as much deeper than `depth` as the node is away from the
root. -/
def Visit.IsAt (h : Handle) (depth : Nat) (p : Place) (v : Visit) : Prop :=
  h.nodeAt? p = some v.item.handle ∧ v.depth = depth + p.length

/-- The visits are of nodes at different places of the tree of a handle, each as deep as its node is
away from the root. -/
def Spread (h : Handle) (depth : Nat) (visits : List Visit) : Prop :=
  ∃ places : List Place, places.Nodup ∧ List.Forall₂ (Visit.IsAt h depth) places visits

/-- The items wrap nodes at different places of the tree of a handle. -/
def Apart (h : Handle) (items : List Item) : Prop :=
  ∃ places : List Place, places.Nodup ∧
    List.Forall₂ (fun p i => h.nodeAt? p = some i.handle) places items

section Spread

variable {h : Handle} {depth : Nat} {visits : List Visit}

/-- Visits at different places are visits of items at different places. -/
lemma Spread.apart (hspread : Spread h depth visits) : Apart h (visits.map Visit.item) := by
  obtain ⟨places, hnodup, hat⟩ := hspread
  exact ⟨places, hnodup, List.forall₂_map_right_iff.2 (hat.imp fun _ _ hv => hv.1)⟩

/-- There are no more visits at different places than nodes. -/
lemma Spread.length_le (hspread : Spread h depth visits) : visits.length ≤ h.size := by
  obtain ⟨places, hnodup, hat⟩ := hspread
  rw [← hat.length_eq]
  refine Handle.length_le_size_of_nodup hnodup fun p hp => ?_
  obtain ⟨n, hn, rfl⟩ := List.mem_iff_getElem.1 hp
  exact ⟨_, (hat.get hn (hat.length_eq ▸ hn)).1⟩

/-- A visit below a sub-node is a visit below the node, after one more step. -/
lemma Visit.IsAt.cons {s : Step} {k : Handle} (hk : (h.answers s.1)[s.2]? = some k) {p : Place}
    {v : Visit} (hv : v.IsAt k (depth + 1) p) : v.IsAt h depth (s :: p) := by
  refine ⟨?_, ?_⟩
  · rw [Handle.nodeAt?, hk]
    exact hv.1
  · rw [hv.2, List.length_cons]
    omega

/-- Traversals of sub-nodes that are reached by different steps visit different places, if each of
them does.  Their places begin with these steps. -/
lemma exists_places_forEach {f : Item → σ → Passage σ} {steps : List (Step × Handle)}
    {js : List Item} (hpairs : List.Forall₂ (fun s j => j.handle = s.2) steps js)
    (hnodup : (steps.map Prod.fst).Nodup)
    (hsteps : ∀ s ∈ steps, (h.answers s.1.1)[s.1.2]? = some s.2)
    (hf : ∀ j ∈ js, ∀ t, Spread j.handle (depth + 1) (f j t).calls) (t : σ) :
    ∃ places : List Place, places.Nodup ∧ (∀ p ∈ places, ∃ s ∈ steps, ∃ q, p = s.1 :: q) ∧
      List.Forall₂ (Visit.IsAt h depth) places (Passage.forEach f js t).calls := by
  induction hpairs generalizing t with
  | nil => exact ⟨[], List.nodup_nil, by simp, .nil⟩
  | cons hj hpairs ih =>
    rename_i s j steps js
    obtain ⟨hfresh, hnodup'⟩ := List.nodup_cons.1 hnodup
    obtain ⟨hs, hsteps'⟩ := List.forall_mem_cons.1 hsteps
    obtain ⟨hfj, hf'⟩ := List.forall_mem_cons.1 hf
    obtain ⟨below, hbelow, hat⟩ := hfj t
    rw [hj] at hat
    -- The visits below the first sub-node, seen from the root.
    have hfirst : List.Forall₂ (Visit.IsAt h depth) (below.map (s.1 :: ·)) (f j t).calls :=
      List.forall₂_map_left_iff.2 (hat.imp fun _ _ hv => hv.cons hs)
    have hfirstNodup : (below.map (s.1 :: ·)).Nodup := hbelow.map List.cons_injective
    have hbegins : ∀ p ∈ below.map (s.1 :: ·), ∃ u ∈ s :: steps, ∃ q, p = u.1 :: q := by
      intro p hp
      obtain ⟨q, _, rfl⟩ := List.mem_map.1 hp
      exact ⟨s, List.mem_cons_self, q, rfl⟩
    rw [Passage.forEach, Passage.next]
    split
    · obtain ⟨later, hlater, hlaterBegins, hlaterAt⟩ := ih hnodup' hsteps' hf' (f j t).state
      refine ⟨below.map (s.1 :: ·) ++ later, ?_, ?_, List.rel_append hfirst hlaterAt⟩
      · refine hfirstNodup.append hlater fun p hp hp' => ?_
        obtain ⟨q, _, rfl⟩ := List.mem_map.1 hp
        obtain ⟨u, hu, q', heq⟩ := hlaterBegins _ hp'
        rw [(List.cons.inj heq).1] at hfresh
        exact hfresh (List.mem_map_of_mem hu)
      · intro p hp
        rcases List.mem_append.1 hp with hp | hp
        · exact hbegins p hp
        · obtain ⟨u, hu, hq⟩ := hlaterBegins p hp
          exact ⟨u, List.mem_cons_of_mem s hu, hq⟩
    · exact ⟨below.map (s.1 :: ·), hfirstNodup, hbegins, hfirst⟩

end Spread

namespace Item

variable {i : Item}

/-- The children of an item of a standard kind are reached by different steps. -/
lemma IsStandard.exists_steps (hi : i.IsStandard) {js : List Item}
    (hjs : i.children.outcome = .ok js) :
    ∃ steps : List (Step × Handle), List.Forall₂ (fun s j => j.handle = s.2) steps js ∧
      (steps.map Prod.fst).Nodup ∧ ∀ s ∈ steps, (i.handle.answers s.1.1)[s.1.2]? = some s.2 := by
  obtain ⟨ty, hty⟩ := hi.kind
  have hnodup : i.kind.reads.Nodup := hty ▸ Kind.nodup_reads_standard ty
  have hmap : js.map handle = (i.handle.steps i.kind.reads).map Prod.snd := by
    rw [handles_of_children hjs, Handle.map_snd_steps]
  refine ⟨i.handle.steps i.kind.reads, ?_, Handle.nodup_steps hnodup, fun s hs => ?_⟩
  · rw [← List.forall₂_eq_eq_eq] at hmap
    exact (List.forall₂_map_left_iff.1 (List.forall₂_map_right_iff.1 hmap)).flip
  · exact (Handle.mem_steps_iff.1 hs).2

/-- A traversal of an item of a standard kind visits nodes at different places. -/
theorem IsStandard.spread_preorder (hi : i.IsStandard) (visitor : Visitor σ) (depth : Nat) (s : σ) :
    Spread i.handle depth (i.preorder visitor depth s).calls := by
  induction i using childInduction generalizing depth s with
  | step i ih =>
    have hroot : Visit.IsAt i.handle depth [] ⟨i, depth⟩ := ⟨rfl, rfl⟩
    have hchildren : ∀ js, i.children.outcome = .ok js → ∀ j ∈ js, ∀ t,
        Spread j.handle (depth + 1) (j.preorder visitor (depth + 1) t).calls := by
      intro js hjs j hj t
      have hchild : i.IsChild j := ⟨js, hjs, hj⟩
      exact ih j hchild (hi.of_isChild hchild) (depth + 1) t
    rw [preorder_eq, Passage.next]
    split
    · -- The children that are entered are all children, or none.
      generalize hentered : (i.opening (visitor s i depth).2).entered = entered
      rcases entered with - | ⟨j, js⟩
      · exact ⟨[[]], List.nodup_singleton _, .cons hroot .nil⟩
      · have hjs : i.children.outcome = .ok (j :: js) := by
          rw [← hentered]
          exact children_of_entered (by rw [hentered]; exact List.cons_ne_nil j js)
        obtain ⟨steps, hpairs, hnodup, hsteps⟩ := hi.exists_steps hjs
        obtain ⟨places, hplaces, hbegins, hat⟩ := exists_places_forEach
          (f := fun j => j.preorder visitor (depth + 1)) hpairs hnodup hsteps
          (hchildren _ hjs) (visitor s i depth).1
        refine ⟨[] :: places, List.nodup_cons.2 ⟨fun hmem => ?_, hplaces⟩, .cons hroot hat⟩
        obtain ⟨_, _, q, hq⟩ := hbegins [] hmem
        cases hq
    · exact ⟨[[]], List.nodup_singleton _, .cons hroot .nil⟩

/-- A walk from an item of a standard kind visits nodes at different places, no more than there
are. -/
lemma IsStandard.spread_visits (hi : i.IsStandard) (visitor : Visitor σ) (s : σ) :
    Spread i.handle 0 (i.visits visitor s) := by
  rw [visits_eq_calls]
  exact hi.spread_preorder visitor 0 s

/-! ## The loops -/

/-- The loops from a root over the tree of a handle run to their ends, in at most so many turns.
The items that they take off the stack wrap nodes at different places of the tree, and a walk
reports for each the distance of its node from the root.  If counting succeeds, it counts the
turns. -/
structure LoopsRunApart (root : Item) (h : Handle) (bound : Nat) : Prop where
  walk : ∀ (σ : Type u) (visitor : Visitor σ) (s : σ), ∃ taken,
    (walkLoop visitor).Runs ⟨[], s, [⟨root, 0⟩]⟩ taken (root.walk visitor s) ∧ Spread h 0 taken ∧
      taken.length ≤ bound
  collect : ∀ (σ : Type u) (test : Test σ) (s : σ), ∃ taken,
    (collectLoop test).Runs ⟨[], [], s, [root]⟩ taken (root.collect test s) ∧ Apart h taken ∧
      taken.length ≤ bound
  find : ∀ (σ : Type u) (test : Test σ) (s : σ), ∃ taken,
    (findLoop test).Runs ⟨[], s, [root]⟩ taken (root.find test s) ∧ Apart h taken ∧
      taken.length ≤ bound
  count : ∃ taken,
    (walkLoop .counting).Runs ⟨[], 0, [⟨root, 0⟩]⟩ taken (root.walk .counting 0) ∧
      Spread h 0 taken ∧ taken.length ≤ bound ∧ ∀ n, root.count.outcome = .ok n → n = taken.length

/-- The loops from an item of a standard kind run over nodes at different places. -/
theorem IsStandard.loopsRunApart (hi : i.IsStandard) :
    LoopsRunApart.{u} i i.handle i.handle.size where
  walk σ visitor s := by
    have hspread := hi.spread_visits visitor s
    exact ⟨_, runs_walk i visitor s, hspread, hspread.length_le⟩
  collect σ test s := by
    have hspread := hi.spread_visits test.collecting (s, [])
    refine ⟨_, runs_collect i test s, hspread.apart, ?_⟩
    rw [List.length_map]
    exact hspread.length_le
  find σ test s := by
    have hspread := hi.spread_visits test.finding (s, none)
    refine ⟨_, runs_find i test s, hspread.apart, ?_⟩
    rw [List.length_map]
    exact hspread.length_le
  count := by
    have hspread := hi.spread_visits .counting 0
    refine ⟨_, runs_walk i .counting 0, hspread, hspread.length_le, fun n hn => ?_⟩
    rw [count_outcome, ← visits_eq_calls] at hn
    rcases hresult : (i.preorder .counting 0 0).ending.result with f | u
    · rw [hresult] at hn
      cases hn
    · rw [hresult] at hn
      exact (Except.ok.inj hn).symm

end Item

/-- **The loops end, and visit different nodes.**  Take any registry that was built by calls and
whose entries build standard kinds of the class of their tags, though not necessarily the kinds that
own the tags, and any handle that it resolves.  Then walking, collecting, finding and counting from
there run to their ends without a breach, whatever the visitor or the test.  The items that they
visit wrap nodes at different places of the handle tree, a walk reports the distance of each node
from the root, and there are at most as many visits as nodes; for the view of an owned tree that is
the size of the tree. -/
theorem loops_visit_different_nodes (cs : List Call) :
    let r := (runCalls Registry.perform .empty cs).2
    (∀ e ∈ r.registrations, e.builds.cls = e.tag.cls ∧ ∃ ty, e.builds = Kind.standard ty) →
      ∀ (h : Handle) (root : Item), (r.resolve h).outcome = .ok root →
        Item.Unbroken.{u} root ∧ Item.LoopsRunApart.{u} root h h.size ∧
          ∀ t : Tree, h = t.toHandle → Item.LoopsRunApart.{u} root h t.size := by
  intro r hbuilds h root hroot
  have hfaithful : r.Faithful :=
    Registry.faithful_of_registrations fun e he => (hbuilds e he).1
  have hstandard : ∀ t e, r.lookup t = some e → ∃ ty, e.builds = Kind.standard ty := by
    intro t e he
    exact (hbuilds e (Registry.mem_registrations_of_lookup he)).2
  obtain rfl : root.handle = h := Registry.handle_of_resolve hroot
  have hloops := (Item.isStandard_of_resolve hstandard hroot).loopsRunApart
  refine ⟨(Item.resolved_of_resolve .refl hroot).unbroken hfaithful, hloops, fun t ht => ?_⟩
  have hsize : root.handle.size = t.size := by rw [ht, t.size_toHandle]
  rw [← hsize]
  exact hloops

/-- Through a registry that wraps blocks as conditional statements and variables as numbers, the
loops over a block with a condition and a branch make at most three turns. -/
theorem loops_visit_different_nodes_foreign_kinds :
    let block := (NodeType.stmt .block).tag
    let var := (NodeType.expr .var).tag
    let entry (t : Tag) (ty : NodeType) : Registration :=
      ⟨t, "Foreign", Kind.standard ty, t.claims⟩
    let cs : List Call :=
      [.register (entry block (.stmt .ifStmt)), .register (entry var (.expr .num))]
    let r := (runCalls Registry.perform .empty cs).2
    let leaf : Handle := { ea := 8, op := var }
    let inner : Handle := { ea := 4, op := block }
    let h : Handle := { ea := 0, op := block, cexpr := some leaf, ithen := some inner }
    let root : Item := ⟨Kind.standard (.stmt .ifStmt), h, r⟩
    (∀ e ∈ r.registrations, e.builds.cls = e.tag.cls ∧ ∃ ty, e.builds = Kind.standard ty) ∧
      (r.resolve h).outcome = .ok root ∧ Item.LoopsRunApart.{0} root h 3 := by
  intro block var entry cs r leaf inner h root
  have hblock : (entry block (.stmt .ifStmt)).Valid := by
    refine ⟨Tag.listed_tag _, ?_⟩
    decide +kernel
  have hvar : (entry var (.expr .num)).Valid := by
    refine ⟨Tag.listed_tag _, ?_⟩
    decide +kernel
  have hother : var ≠ block := by decide
  have hr : r = (Registry.empty.insert (entry block (.stmt .ifStmt))).insert
      (entry var (.expr .num)) := by
    have hfree : (Registry.empty.insert (entry block (.stmt .ifStmt))).lookup var = none := by
      rw [Registry.lookup_insert hblock.listed, if_neg hother, Registry.lookup_empty]
    simp only [r, cs, runCalls, Registry.perform,
      Registry.register_of_none hblock Registry.lookup_empty, Registry.register_of_none hvar hfree]
  have hlookup : ∀ t, r.lookup t = if t = var then some (entry var (.expr .num))
      else if t = block then some (entry block (.stmt .ifStmt)) else none := by
    intro t
    rw [hr, Registry.lookup_insert hvar.listed, Registry.lookup_insert hblock.listed,
      Registry.lookup_empty]
  have hbuilds : ∀ e ∈ r.registrations,
      e.builds.cls = e.tag.cls ∧ ∃ ty, e.builds = Kind.standard ty := by
    intro e he
    have hl := Registry.lookup_of_mem_registrations he
    rw [hlookup] at hl
    split_ifs at hl
    · cases hl
      exact ⟨by decide, .expr .num, rfl⟩
    · cases hl
      exact ⟨by decide, .stmt .ifStmt, rfl⟩
  have hroot : (r.resolve h).outcome = .ok root := by
    have hl : r.lookup h.op = some (entry block (.stmt .ifStmt)) := by
      rw [hlookup, if_neg hother.symm, if_pos rfl]
    exact Registry.resolve_of_agree hl rfl (by decide)
  have hsize : h.size = 3 := rfl
  obtain ⟨_, hloops, _⟩ := loops_visit_different_nodes cs hbuilds h root hroot
  rw [hsize] at hloops
  exact ⟨hbuilds, hroot, hloops⟩

end Pseudocode
