import Mathlib.Data.List.Nodup
import Mathlib.Data.List.Perm.Subperm
import Mathlib.Data.Prod.Basic
import Mathlib.Tactic.Lemma
import Pseudocode.Handle

/-!
# Places of a handle tree

Two nodes of a handle tree may look the same, so a node is told apart by its place: the way that
leads to it from the root.  A step of the way names an accessor and the number of one of its
answers.  The length of a place is the distance of its node from the root.

A kind reads some of the accessors of a handle, and `Handle.steps` lists the steps to what they
answer.  If no accessor is read twice, no step is listed twice (`nodup_steps`).  Reading all of them
gives every node of the tree: `Handle.places` lists the places in the tree, which are as many as the
tree has nodes (`length_places`).  Hence different places cannot be more than that
(`length_le_size_of_nodup`).
-/

namespace Pseudocode

/-- A step from a handle to a sub-node: an accessor and the number of one of its answers. -/
abbrev Step := Accessor × Nat

/-- The way to a node from the root of a handle tree. -/
abbrev Place := List Step

namespace Handle

variable {h k : Handle}

/-- The node at a place. -/
def nodeAt? : Handle → Place → Option Handle
  | h, [] => some h
  | h, s :: p => (h.answers s.1)[s.2]?.bind fun k => k.nodeAt? p

/-! ## Steps -/

/-- The steps through some of the accessors, each with the node that it leads to. -/
def steps (h : Handle) (as : List Accessor) : List (Step × Handle) :=
  as.flatMap fun a => (h.answers a).zipIdx.map fun v => ((a, v.2), v.1)

/-- A step is listed with the node that it leads to, if its accessor is among those given. -/
lemma mem_steps_iff {as : List Accessor} {s : Step} :
    (s, k) ∈ h.steps as ↔ s.1 ∈ as ∧ (h.answers s.1)[s.2]? = some k := by
  obtain ⟨a, n⟩ := s
  simp only [steps, List.mem_flatMap, List.mem_map, Prod.exists, List.mk_mem_zipIdx_iff_getElem?,
    Prod.mk.injEq]
  constructor
  · rintro ⟨b, hb, l, m, hl, ⟨rfl, rfl⟩, rfl⟩
    exact ⟨hb, hl⟩
  · rintro ⟨ha, hk⟩
    exact ⟨a, ha, k, n, hk, ⟨rfl, rfl⟩, rfl⟩

/-- The steps lead to what the accessors answer, in order. -/
lemma map_snd_steps (h : Handle) (as : List Accessor) :
    (h.steps as).map Prod.snd = as.flatMap h.answers := by
  rw [steps, List.map_flatMap]
  refine List.flatMap_congr fun a _ => ?_
  rw [List.map_map]
  exact List.zipIdx_map_fst 0 (h.answers a)

/-- If no accessor is given twice, no step is listed twice. -/
lemma nodup_steps {as : List Accessor} (has : as.Nodup) : ((h.steps as).map Prod.fst).Nodup := by
  rw [steps, List.map_flatMap, List.nodup_flatMap]
  refine ⟨fun a _ => ?_, has.imp fun {a b} hne s hs hs' => ?_⟩
  · have hnumbers : ((h.answers a).zipIdx.map Prod.snd).Nodup := by
      rw [List.zipIdx_map_snd]
      exact List.nodup_range'
    have hsteps := hnumbers.map (Prod.mk_right_injective a)
    rw [List.map_map] at hsteps ⊢
    exact hsteps
  · -- The steps through different accessors differ in their accessors.
    obtain ⟨u, hu, rfl⟩ := List.mem_map.1 hs
    obtain ⟨v, _, rfl⟩ := List.mem_map.1 hu
    obtain ⟨u', hu', heq⟩ := List.mem_map.1 hs'
    obtain ⟨w, _, rfl⟩ := List.mem_map.1 hu'
    exact hne (congrArg Prod.fst heq).symm

/-! ## All places -/

/-- A step leads to a smaller handle. -/
lemma size_lt_of_mem_steps {as : List Accessor} {s : Step} (hs : (s, k) ∈ h.steps as) :
    k.size < h.size :=
  size_lt_of_mem_answers (List.mem_of_getElem? (mem_steps_iff.1 hs).2)

/-- The places in the tree of a handle. -/
def places (h : Handle) : List Place :=
  [] :: (h.steps Accessor.all).attach.flatMap fun s => s.1.2.places.map (s.1.1 :: ·)
termination_by h.size
decreasing_by exact size_lt_of_mem_steps s.2

/-- The places in a tree are that of the root and those in the trees of its sub-nodes, each after
the step to the sub-node. -/
lemma places_eq (h : Handle) :
    h.places = [] :: (h.steps Accessor.all).flatMap fun s => s.2.places.map (s.1 :: ·) := by
  rw [places, ← List.flatMap_map Subtype.val (fun s : Step × Handle => s.2.places.map (s.1 :: ·)),
    List.attach_map_subtype_val]

/-- Lists that are as long as handles have nodes are together as long as the handles together have
nodes. -/
lemma length_flatMap_eq_sizeList {α β : Type} {f : α → List β} {g : α → Handle} {as : List α}
    (h : ∀ a ∈ as, (f a).length = (g a).size) :
    (as.flatMap f).length = sizeList (as.map g) := by
  induction as with
  | nil => rfl
  | cons a as ih =>
    obtain ⟨ha, has⟩ := List.forall_mem_cons.1 h
    rw [List.flatMap_cons, List.length_append, List.map_cons, sizeList, ha, ih has]

/-- A tree has as many places as nodes. -/
theorem length_places (h : Handle) : h.places.length = h.size := by
  have hlengths : ∀ s ∈ h.steps Accessor.all,
      (s.2.places.map (s.1 :: ·)).length = s.2.size := by
    intro s hs
    have hlt : s.2.size < h.size := size_lt_of_mem_steps hs
    rw [List.length_map, length_places s.2]
  rw [places_eq, List.length_cons, length_flatMap_eq_sizeList hlengths, size_eq, subnodes,
    ← map_snd_steps]
termination_by h.size

/-- The place of a node of a tree is listed. -/
lemma mem_places {p : Place} (hk : h.nodeAt? p = some k) : p ∈ h.places := by
  induction p generalizing h with
  | nil =>
    rw [places_eq]
    exact List.mem_cons_self
  | cons s p ih =>
    obtain ⟨l, hl, hk⟩ := Option.bind_eq_some_iff.1 hk
    rw [places_eq]
    refine List.mem_cons_of_mem _ (List.mem_flatMap.2 ⟨(s, l), ?_, List.mem_map_of_mem (ih hk)⟩)
    exact mem_steps_iff.2 ⟨s.1.mem_all, hl⟩

/-- There are no more different places in a tree than it has nodes. -/
theorem length_le_size_of_nodup {ps : List Place} (hps : ps.Nodup)
    (hnodes : ∀ p ∈ ps, ∃ k, h.nodeAt? p = some k) : ps.length ≤ h.size := by
  have hsubset : ps ⊆ h.places := by
    intro p hp
    obtain ⟨k, hk⟩ := hnodes p hp
    exact mem_places hk
  rw [← length_places]
  exact (hps.subperm hsubset).length_le

end Handle

end Pseudocode
