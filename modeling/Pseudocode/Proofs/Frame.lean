import Pseudocode.Proofs.Bisimulation
import Pseudocode.Proofs.Walk.Plan

/-!
# What results depend on in a registry

Every child is resolved through the registry that its parent carries, so a tree is read through one
registry from top to bottom.  Of that registry only the entries that are looked up matter.

`Item.through` is the same item with another registry in place of its own.  A set of items over one
registry is a frame for another one if it contains the children of its items and the two registries
have the same entry, or none, for every handle that is resolved on the way (`Item.Frame`).  Items of
a frame and the same items through the other registry are related by a bisimulation, hence cannot be
told apart by their facts.

There are two frames.  If the registries agree on the tags of all nodes of a handle tree, everything
in the tree belongs to one, and even errors are the same.  If a full walk succeeds, the items it
visits are a frame by themselves, whatever the rest of the tree holds, and a registry keeps their
entries as long as nothing is replaced at their tags.
-/

namespace Pseudocode

universe u

/-! ## The same item through another registry -/

/-- The same item with another registry. -/
def Item.through (r : Registry) (i : Item) : Item := { i with registry := r }

namespace Item

@[simp] lemma handle_through (r : Registry) (i : Item) : (i.through r).handle = i.handle := rfl

@[simp] lemma registry_through (r : Registry) (i : Item) : (i.through r).registry = r := rfl

@[simp] lemma cls_through (r : Registry) (i : Item) : (i.through r).cls = i.cls := rfl

end Item

namespace Traced

variable {α β : Type u}

/-- A list and the changed list are related if each of its elements is related to its change. -/
lemma related_map {R : α → β → Prop} {e : α → β} {t : Traced (List α)}
    (h : ∀ a, t.Yields a → R a (e a)) : Related (List.Forall₂ R) t (List.map e <$> t) := by
  cases ht : t.outcome with
  | error f =>
    have hmap : List.map e <$> t = ⟨t.records, .error f⟩ := by rw [map_eq_andThen, andThen, ht]
    exact .failed (by rw [hmap]) ht (by rw [hmap])
  | ok as =>
    have hmap : List.map e <$> t = ⟨t.records, .ok (as.map e)⟩ := by
      simp only [map_eq_andThen, andThen, ht, after, ok, List.append_nil]
    refine .ok (by rw [hmap]) ht (by rw [hmap]) ?_
    refine List.forall₂_map_right_iff.2 (List.forall₂_same.2 fun a ha => ?_)
    exact h a ⟨as, ht, ha⟩

end Traced

namespace Registry

variable {r r' : Registry}

/-- Registries with the same entry for the tag of a handle, or none, resolve it alike. -/
lemma resolve_through {h : Handle} (hl : r.lookup h.op = r'.lookup h.op) :
    r'.resolve h = Item.through r' <$> r.resolve h := by
  rw [resolve, resolve, hl]
  cases r'.lookup h.op with
  | none => rfl
  | some e =>
    dsimp only
    split_ifs <;> rfl

/-- Registries with the same entry for the tag of a handle, or none, resolve it to a class alike. -/
lemma resolveAs_through {h : Handle} (hl : r.lookup h.op = r'.lookup h.op) (c : Class) :
    r'.resolveAs c h = Item.through r' <$> r.resolveAs c h := by
  rw [resolveAs, resolveAs, resolve_through hl]
  simp only [Traced.bind_eq, Traced.map_eq_andThen, Traced.andThen_assoc, Traced.ok_andThen]
  congr 1
  funext i
  rw [Item.cls_through]
  split_ifs <;> rfl

end Registry

namespace Item

variable {i : Item} {r : Registry} {c : Class}

/-- The children at a position through another registry, if it has the same entries for them. -/
lemma fill_through {p : Position}
    (h : ∀ k ∈ i.handle.answers p.accessor, i.registry.lookup k.op = r.lookup k.op) :
    (i.through r).fill c p = List.map (through r) <$> i.fill c p := by
  have hlists : (i.handle.answers p.accessor).mapM (r.resolveAs c) =
      List.map (through r) <$> (i.handle.answers p.accessor).mapM (i.registry.resolveAs c) :=
    Traced.mapM_eq_map_mapM fun k hk => Registry.resolveAs_through (h k hk) c
  rw [fill, fill, handle_through, registry_through, hlists]
  split_ifs <;> rfl

/-- The children at a list of positions through another registry, if it has the same entries for
them. -/
lemma fillAll_through {ps : List Position}
    (h : ∀ p ∈ ps, ∀ k ∈ i.handle.answers p.accessor, i.registry.lookup k.op = r.lookup k.op) :
    (i.through r).fillAll c ps = List.map (through r) <$> i.fillAll c ps := by
  induction ps with
  | nil => rfl
  | cons p ps ih =>
    have hhere := fill_through (c := c) (h p List.mem_cons_self)
    have hthere := ih fun q hq => h q (List.mem_cons_of_mem p hq)
    rw [fillAll, fillAll, hhere, hthere]
    simp only [Traced.bind_eq, Traced.pure_eq, Traced.map_eq_andThen, Traced.andThen_assoc,
      Traced.ok_andThen, List.map_append]

/-! ## Frames -/

/-- A set of items over one registry that contains their children, and another registry with the
same entry, or none, for every handle that is resolved for a child. -/
structure Frame (r r' : Registry) (Q : Item → Prop) : Prop where
  registry_eq : ∀ i, Q i → i.registry = r
  lookup_eq : ∀ i, Q i → ∀ c, ∀ p ∈ i.kind.shape.positions c, ∀ k ∈ i.handle.answers p.accessor,
    r.lookup k.op = r'.lookup k.op
  parts : ∀ i, Q i → ∀ c j, (i.parts c).Yields j → Q j

variable {r' : Registry} {Q : Item → Prop}

/-- The items of a frame and the same items through the other registry are related by a
bisimulation. -/
theorem Frame.bisimulation (hQ : Frame r r' Q) :
    Bisimulation fun i j => Q i ∧ j = i.through r' := by
  rintro i j ⟨hi, rfl⟩ c
  have hparts : (i.through r').parts c = List.map (through r') <$> i.parts c := by
    refine fillAll_through fun p hp k hk => ?_
    rw [hQ.registry_eq i hi]
    exact hQ.lookup_eq i hi c p hp k hk
  rw [hparts]
  exact Traced.related_map fun k hk => ⟨hQ.parts i hi c k hk, rfl⟩

/-- An item of a frame cannot be told apart from the same item through the other registry. -/
theorem Frame.sameResults (hQ : Frame r r' Q) (hi : Q i) : SameResults.{u} i (i.through r') := by
  refine hQ.bisimulation.sameResults (fun j k hjk => ?_) ⟨hi, rfl⟩
  obtain ⟨_, rfl⟩ := hjk
  exact ⟨rfl, rfl⟩

/-- The items over handles whose nodes have the same entries in two registries are a frame. -/
lemma frame_contains (r r' : Registry) : Frame r r' fun i =>
    i.registry = r ∧ ∀ k, i.handle.Contains k → r.lookup k.op = r'.lookup k.op where
  registry_eq i hi := hi.1
  lookup_eq i hi c p hp k hk := hi.2 k (Handle.Contains.answers .refl hk)
  parts i hi c j hj := by
    obtain ⟨a, k, hk, hok⟩ := exists_resolveAs_of_parts hj
    refine ⟨(registry_of_resolveAs hok).trans hi.1, fun l hl => ?_⟩
    rw [Registry.handle_of_resolveAs hok] at hl
    exact hi.2 l (.head (Handle.mem_subnodes hk) hl)

/-- The items below which everything resolves, to items whose tags have the same entries in two
registries, are a frame. -/
lemma frame_whole (r r' : Registry) : Frame r r' fun i =>
    i.registry = r ∧ i.Whole ∧ ∀ j, i.Reaches j → r.lookup j.tag = r'.lookup j.tag where
  registry_eq i hi := hi.1
  lookup_eq i hi c p hp k hk := by
    obtain ⟨rfl, ⟨hjs, _⟩, hagree⟩ := hi
    obtain ⟨ks, hks, hsubset⟩ := parts_of_children hjs c
    -- The handle resolves to a child, so its tag is the tag of an item that is reached.
    obtain ⟨j, hj, hok⟩ := exists_of_fillAll hks hp hk
    have htag : j.tag = k.op := congrArg Handle.op (Registry.handle_of_resolveAs hok)
    rw [← htag]
    exact hagree j (.single ⟨_, hjs, hsubset hj⟩)
  parts i hi c j hj := by
    obtain ⟨rfl, ⟨hjs, hall⟩, hagree⟩ := hi
    obtain ⟨ks, hks, hsubset⟩ := parts_of_children hjs c
    obtain ⟨ks', hks', hj⟩ := hj
    cases hks.symm.trans hks'
    have hchild : i.IsChild j := ⟨_, hjs, hsubset hj⟩
    exact ⟨registry_of_children hchild, hall j (hsubset hj), fun k hk => hagree k (.head hchild hk)⟩

/-! ## What a full walk shows -/

/-- What a full walk shows of the items it visits, with their depths and in order. -/
def trail (i : Item) : List (Facts × Nat) :=
  (i.visits .descending ()).map fun v => (v.item.facts, v.depth)

end Item

/-- The visitor that notes something about each item, and its depth. -/
def Visitor.notingBy {α : Type u} (f : Item → α) : Visitor (List (α × Nat)) :=
  fun seen i depth => (seen ++ [(f i, depth)], .ok .descend)

/-- The visitor that notes what each item shows, and at which depth. -/
def Visitor.noting : Visitor (List (Facts × Nat)) :=
  .ofFacts fun seen facts depth => (seen ++ [(facts, depth)], .ok .descend)

namespace Item

variable {i j : Item}

/-- A visitor that notes something about each item makes the full walk and ends with its notes of
all items visited. -/
lemma walk_notingBy {α : Type u} (f : Item → α) (i : Item) :
    (i.walk (.notingBy f) []).state =
        (i.visits .descending ()).map (fun v => (f v.item, v.depth)) ∧
      (i.walk (.notingBy f) []).outcome = (i.walk .descending ()).outcome := by
  have hdescends : (Visitor.notingBy f).Descends := fun _ _ _ => rfl
  obtain ⟨_, hstate, houtcome⟩ := walk_of_descends hdescends i []
  have hnotes : ∀ (vs : List Visit) (seen : List (α × Nat)),
      vs.foldl (Visitor.notingBy f).advance seen = seen ++ vs.map fun v => (f v.item, v.depth) := by
    intro vs
    induction vs with
    | nil => exact fun seen => (List.append_nil seen).symm
    | cons v vs ih =>
      intro seen
      rw [List.foldl_cons, ih, List.map_cons]
      exact List.append_assoc seen [(f v.item, v.depth)] _
  exact ⟨by rw [hstate, hnotes, List.nil_append], houtcome⟩

/-- A visitor that notes what it sees ends with the trail. -/
lemma walk_noting (i : Item) :
    (i.walk .noting []).state = i.trail ∧
      (i.walk .noting []).outcome = (i.walk .descending ()).outcome :=
  walk_notingBy facts i

/-- Full walks from items related by a bisimulation go the same way: what is noted of related items
in the same words is noted in the same order and at the same depths, and logs and results are the
same. -/
lemma Bisimulation.full_walk_eq {R : Item → Item → Prop} (hR : Bisimulation R) {α : Type u}
    {f : Item → α} (hf : ∀ i j, R i j → f i = f j) (h : R i j) :
    ((i.visits .descending ()).map fun v => (f v.item, v.depth)) =
        ((j.visits .descending ()).map fun v => (f v.item, v.depth)) ∧
      i.walk .descending () = j.walk .descending () := by
  have hnotes : i.walk (.notingBy f) [] = j.walk (.notingBy f) [] := by
    refine hR.walk_eq (fun seen i j depth hij => ?_) h []
    rw [Visitor.notingBy, Visitor.notingBy, hf i j hij]
  have hsame : ∀ (s : Unit) (i j : Item) (depth : Nat), R i j →
      Visitor.descending s i depth = Visitor.descending s j depth := fun _ _ _ _ _ => rfl
  refine ⟨?_, hR.walk_eq hsame h ()⟩
  rw [← (walk_notingBy f i).1, ← (walk_notingBy f j).1, hnotes]

/-- Items that cannot be told apart by facts leave the same trail, and a full walk of the one
succeeds if one of the other does. -/
lemma SameResults.trail_eq (h : SameResults.{0} i j) :
    i.trail = j.trail ∧ (i.walk .descending ()).outcome = (j.walk .descending ()).outcome := by
  obtain ⟨hstate, houtcome⟩ := walk_noting i
  obtain ⟨hstate', houtcome'⟩ := walk_noting j
  have hwalk : i.walk .noting [] = j.walk .noting [] := h.walk _ _ []
  rw [← hstate, ← houtcome, hwalk, hstate', houtcome']
  exact ⟨rfl, rfl⟩

/-- If everything below an item resolves, a full walk visits every item that is reached. -/
lemma Whole.exists_mem_entries (hi : i.Whole) (hij : i.Reaches j) (depth : Nat) :
    ∃ v ∈ i.entries depth, v.item = j := by
  induction hi generalizing depth with
  | @intro i js hjs hall ih =>
    rw [entries_eq hjs hall]
    rcases Relation.ReflTransGen.cases_head hij with rfl | ⟨k, ⟨js', hjs', hk⟩, hkj⟩
    · exact ⟨⟨i, depth⟩, List.mem_cons_self, rfl⟩
    · cases hjs.symm.trans hjs'
      obtain ⟨v, hv, hvj⟩ := ih k hk hkj (depth + 1)
      exact ⟨v, List.mem_cons_of_mem _ (List.mem_flatMap.2 ⟨k, hk, hv⟩), hvj⟩

end Item

/-! ## Entries that calls leave alone -/

namespace Registry

variable {r : Registry} {t : Tag} {e : Registration}

/-- Inserting a valid entry keeps the entry of every other tag. -/
lemma lookup_insert_of_ne {new : Registration} (hnew : new.Valid) (hne : t ≠ new.tag) :
    (r.insert new).lookup t = r.lookup t := by
  rw [lookup_insert hnew.listed, if_neg hne]

/-- A call keeps the entry of a tag, unless it replaces it.  Registering cannot: the tag is
taken. -/
lemma lookup_perform (ht : r.lookup t = some e) {c : Call}
    (hc : ∀ new, c = .replace new → new.tag ≠ t) : (r.perform c).2.lookup t = some e := by
  cases c with
  | register new =>
    rcases r.register_cases new with ⟨cause, _, hr⟩ | ⟨first, _, _, hr⟩ | ⟨hnew, hl, hr⟩
    · rw [perform, hr]
      exact ht
    · rw [perform, hr]
      exact ht
    · have hne : t ≠ new.tag := by
        rintro rfl
        cases hl.symm.trans ht
      rw [perform, hr]
      exact (lookup_insert_of_ne hnew hne).trans ht
  | replace new =>
    rcases r.replace_cases new with ⟨cause, _, hr⟩ | ⟨hnew, hr⟩
    · rw [perform, hr]
      exact ht
    · rw [perform, hr]
      exact (lookup_insert_of_ne hnew (hc new rfl).symm).trans ht

/-- A run of calls keeps the entry of a tag, unless one of them replaces it. -/
lemma lookup_runCalls (ht : r.lookup t = some e) {cs : List Call}
    (hcs : ∀ new, Call.replace new ∈ cs → new.tag ≠ t) :
    (runCalls perform r cs).2.lookup t = some e := by
  induction cs generalizing r with
  | nil => exact ht
  | cons c cs ih =>
    have hstep : (r.perform c).2.lookup t = some e := by
      refine lookup_perform ht fun new hnew => hcs new ?_
      rw [← hnew]
      exact List.mem_cons_self
    exact ih hstep fun new hnew => hcs new (List.mem_cons_of_mem c hnew)

end Registry

namespace Item

/-- If a full walk of a resolved item succeeds, calls that replace nothing at the tags of the items
visited keep the entries of those items. -/
lemma lookup_runCalls_of_reaches {r : Registry} {h : Handle} {root i : Item}
    (hroot : (r.resolve h).outcome = .ok root) (hwhole : root.Whole) {cs : List Call}
    (hcs : ∀ new, Call.replace new ∈ cs → ∀ v ∈ root.visits .descending (), new.tag ≠ v.item.tag)
    (hi : root.Reaches i) :
    r.lookup i.tag = (runCalls Registry.perform r cs).2.lookup i.tag := by
  have hresolved : Resolved r h i :=
    resolved_of_accesses (resolved_of_resolve .refl hroot) (hi.lift id fun _ _ => .children)
  obtain ⟨e, hl, _⟩ := Registry.resolve_eq_ok_iff.1 hresolved.2
  obtain ⟨v, hv, rfl⟩ := hwhole.exists_mem_entries hi 0
  rw [← visits_descending] at hv
  exact hl.trans (Registry.lookup_runCalls hl fun new hnew => hcs new hnew v hv).symm

end Item

/-- **Results depend on the entries that are looked up.**  If two registries have the same entry, or
none, for the tag of every node of a handle tree, they resolve the handle alike, errors and log
included, and what it is resolved to cannot be told apart by its facts: it is rendered to the same
text, has equally many items below it, and is walked and searched with the same results.

If the handle resolves and a full walk succeeds, then through every registry that comes about by
calls, none of which replaces an entry at the tag of an item visited, the handle resolves to the
same item, a full walk succeeds and shows the same items at the same depths, and the rendering is
the same.  The parts of the tree that are not visited play no role in this. -/
theorem results_depend_on_entries_looked_up (r : Registry) (h : Handle) :
    (∀ r' : Registry, (∀ k, h.Contains k → r.lookup k.op = r'.lookup k.op) →
      r'.resolve h = Item.through r' <$> r.resolve h ∧
        ∀ i, (r.resolve h).outcome = .ok i → Item.SameResults.{u} i (i.through r')) ∧
      ∀ root, (r.resolve h).outcome = .ok root → (root.walk .descending ()).outcome = .ok () →
        ∀ cs : List Call,
          (∀ new, Call.replace new ∈ cs →
            ∀ v ∈ root.visits .descending (), new.tag ≠ v.item.tag) →
          let later := (runCalls Registry.perform r cs).2
          let root' := root.through later
          (later.resolve h).outcome = .ok root' ∧
            (root'.walk .descending ()).outcome = .ok () ∧
            root'.trail = root.trail ∧ root'.render = root.render := by
  refine ⟨fun r' hagree => ?_, fun root hroot hwalk cs hcs => ?_⟩
  · refine ⟨Registry.resolve_through (hagree h .refl), fun i hi => ?_⟩
    obtain ⟨e, _, _, _, rfl⟩ := Registry.resolve_eq_ok_iff.1 hi
    exact (Item.frame_contains r r').sameResults ⟨rfl, hagree⟩
  · intro later root'
    have hwhole : root.Whole := Item.walk_descending_eq_ok_iff.1 hwalk
    have hagree : ∀ i, root.Reaches i → r.lookup i.tag = later.lookup i.tag :=
      fun i => Item.lookup_runCalls_of_reaches hroot hwhole hcs
    have htag : root.tag = h.op := congrArg Handle.op (Registry.handle_of_resolve hroot)
    have hresolve : later.resolve h = Item.through later <$> r.resolve h := by
      refine Registry.resolve_through ?_
      rw [← htag]
      exact hagree root .refl
    have hregistry : root.registry = r :=
      (Item.resolved_of_resolve (h := h) .refl hroot).registry_eq
    have hresults : Item.SameResults.{0} root root' :=
      (Item.frame_whole r later).sameResults ⟨hregistry, hwhole, hagree⟩
    obtain ⟨htrail, houtcome⟩ := hresults.trail_eq
    refine ⟨?_, houtcome.symm.trans hwalk, htrail.symm, hresults.render.symm⟩
    rw [hresolve]
    exact Traced.andThen_outcome_eq_ok.2 ⟨root, hroot, rfl⟩

/-- A block in a block whose handle also answers a number, read through a registry of blocks alone:
the tree is read in the same way after the kind of numbers has been registered and replaced. -/
theorem results_depend_on_entries_looked_up_partial_registry :
    let kind := Kind.standard (.stmt .block)
    let literal := (Kind.standard (.expr .num)).registration
    let r := Registry.empty.insert kind.registration
    let later := (runCalls Registry.perform r [.register literal, .replace literal]).2
    let inner : Handle := { ea := 4, op := kind.tag }
    let outer : Handle :=
      { ea := 0, op := kind.tag, x := some { ea := 9, op := literal.tag }, block := [inner] }
    let root : Item := ⟨kind, outer, r⟩
    r.lookup literal.tag = none ∧ (r.resolve outer).outcome = .ok root ∧
      (root.walk .descending ()).outcome = .ok () ∧
      (∀ v ∈ root.visits .descending (), literal.tag ≠ v.item.tag) ∧
      (later.resolve outer).outcome = .ok (root.through later) ∧
      (root.through later).trail = root.trail ∧ (root.through later).render = root.render ∧
      Item.SameResults.{0} ⟨kind, inner, r⟩ ⟨kind, inner, later⟩ := by
  intro kind literal r later inner outer root
  have hlisted : kind.registration.tag.Listed := by decide
  have hlookup : ∀ t, r.lookup t = if t = kind.tag then some kind.registration else none := by
    intro t
    rw [Registry.lookup_insert hlisted, Registry.lookup_empty]
    rfl
  have hresolve : ∀ h : Handle, h.op = kind.tag → h.isExpr = h.op.isExpr →
      (r.resolve h).outcome = .ok ⟨kind, h, r⟩ := by
    intro h hop hflag
    refine Registry.resolve_of_agree (e := kind.registration) ?_ hflag ?_
    · rw [hlookup, if_pos hop]
    · rw [hop]
      decide
  have hinner : (r.resolveAs .statement inner).outcome = .ok ⟨kind, inner, r⟩ :=
    Registry.resolveAs_eq_ok_iff.2 ⟨hresolve inner rfl rfl, rfl⟩
  have hexpressions : (root.parts .expression).outcome = .ok [] := rfl
  have hstatements : (root.parts .statement).outcome = .ok [⟨kind, inner, r⟩] := by
    have hfill : (root.fill .statement (.any .block)).outcome = .ok [⟨kind, inner, r⟩] :=
      Traced.mapM_outcome_eq_ok_iff.2 (.cons hinner .nil)
    exact Traced.append_outcome_eq_ok_iff.2 ⟨_, [], hfill, rfl, rfl⟩
  have hblock : root.children.outcome = .ok [⟨kind, inner, r⟩] :=
    Traced.append_outcome_eq_ok_iff.2 ⟨_, _, hexpressions, hstatements, rfl⟩
  have hleaf : (Item.mk kind inner r).children.outcome = .ok [] := rfl
  have hwhole : ∀ j ∈ [Item.mk kind inner r], j.Whole :=
    List.forall_mem_singleton.2 (.intro hleaf nofun)
  have hvisits : ∀ v ∈ root.visits .descending (), literal.tag ≠ v.item.tag := by
    rw [Item.visits_descending, Item.entries_eq hblock hwhole, List.flatMap_singleton,
      Item.entries_eq hleaf nofun]
    exact List.forall_mem_cons.2 ⟨by decide, List.forall_mem_singleton.2 (by decide)⟩
  have hwalk := Item.walk_descending_eq_ok_iff.2 (.intro hblock hwhole)
  have hnew : ∀ new, Call.replace new ∈ [Call.register literal, Call.replace literal] →
      new = literal := by
    intro new hmem
    rcases List.mem_cons.1 hmem with h | h
    · cases h
    · exact Call.replace.inj (List.mem_singleton.1 h)
  have houter : (r.resolve outer).outcome = .ok root := hresolve outer rfl rfl
  obtain ⟨hresolve', _, htrail, hrender⟩ :=
    (results_depend_on_entries_looked_up.{0} r outer).2 root houter hwalk _
      fun new hmem => hnew new hmem ▸ hvisits
  have hagree : ∀ k, inner.Contains k → r.lookup k.op = later.lookup k.op := by
    intro k hk
    rcases Relation.ReflTransGen.cases_head hk with rfl | ⟨l, hl, _⟩
    · have hkept : r.lookup inner.op = some kind.registration := by rw [hlookup, if_pos rfl]
      refine hkept.trans (Registry.lookup_runCalls hkept fun new hmem => ?_).symm
      rw [hnew new hmem]
      decide
    · cases hl
  have hsame := ((results_depend_on_entries_looked_up r inner).1 later hagree).2
  refine ⟨?_, houter, hwalk, hvisits, hresolve', htrail, hrender, hsame _ (hresolve inner rfl rfl)⟩
  rw [hlookup, if_neg (by decide)]

end Pseudocode
