import Mathlib.Data.List.Nodup
import Mathlib.Tactic.Lemma
import Pseudocode.Registry

/-!
# Registries as tables

The table of a registry has one place per node type, and a tag finds its place through its number.
This file turns statements about places into statements about tags, so that nothing later looks at
the table: a tag on the list is the tag of exactly one node type, an entry enters at its own tag or
not at all, and what an entry changes is the lookup of that one tag.

`Registration.Valid` says what a registry asks of an entry in terms of tags alone;
`Registry.register` and `Registry.replace` are then described by one lemma for each way they can
end, with the registry that they leave.
-/

namespace Pseudocode

/-! ## Tags of node types -/

namespace NodeType

/-- The node types stand in the order of their numbers. -/
lemma map_index_all : all.map index = List.range count := by
  decide +kernel

/-- Every node type is on the list. -/
lemma mem_all (t : NodeType) : t ∈ all := List.mem_of_getElem? t.all_getElem?_index

/-- No node type is listed twice. -/
lemma nodup_all : all.Nodup := by
  have h : (all.map index).Nodup := by
    rw [map_index_all]
    exact List.nodup_range
  exact List.Nodup.of_map index h

/-- The node type with a number has that number. -/
@[simp] lemma index_ofIndex (i : Fin count) : (ofIndex i).index = i := by
  have h : (all.map index)[i.val]? = some i.val := by
    rw [map_index_all, List.getElem?_range i.isLt]
  rw [List.getElem?_map, Option.map_eq_some_iff] at h
  obtain ⟨t, ht, hi⟩ := h
  have hget : all[i.val]? = some (ofIndex i) :=
    List.getElem?_eq_some_iff.2 ⟨by simp [length_all], rfl⟩
  rw [hget, Option.some.injEq] at ht
  rw [ht, hi]

/-- Different node types have different tags. -/
lemma tag_injective : Function.Injective tag := by
  intro s t h
  have hs : some s = some t := by rw [← type?_tag s, ← type?_tag t, h]
  exact Option.some.inj hs

end NodeType

namespace Tag

/-- Whether a tag is the number of a node type. -/
def Listed (t : Tag) : Prop := 0 ≤ t.code.toInt ∧ t.code.toInt ≤ 82

instance (t : Tag) : Decidable t.Listed := inferInstanceAs (Decidable (_ ∧ _))

/-- A tag has a place exactly if it is the tag of the node type at that place. -/
lemma index?_eq_some_iff {t : Tag} {i : Fin NodeType.count} :
    t.index? = some i ↔ t = (NodeType.ofIndex i).tag := by
  constructor
  · intro h
    obtain ⟨hrange, hi⟩ : ∃ h : 0 ≤ t.code.toInt ∧ t.code.toInt.toNat < NodeType.count,
        ⟨t.code.toInt.toNat, h.2⟩ = i := by
      simpa [index?] using h
    have hcode : t.code.toInt = (NodeType.ofIndex i).tag.code.toInt := by
      rw [NodeType.code_tag, NodeType.index_ofIndex, ← hi]
      exact (Int.toNat_of_nonneg hrange.1).symm
    cases t
    exact congrArg Tag.mk (Int32.toInt_inj.1 hcode)
  · rintro rfl
    rw [NodeType.index?_tag]
    exact congrArg some (Fin.ext (NodeType.index_ofIndex i))

/-- The tags on the list are those that have a place. -/
lemma listed_iff_isSome {t : Tag} : t.Listed ↔ t.index?.isSome := by
  unfold Listed index?
  split
  · next h =>
    have : t.code.toInt.toNat < 83 := h.2
    simp only [Option.isSome_some, iff_true]
    omega
  · next h =>
    have : ¬ (0 ≤ t.code.toInt ∧ t.code.toInt.toNat < 83) := h
    simp only [Option.isSome_none, Bool.false_eq_true, iff_false]
    omega

/-- The tags on the list are the tags of the node types. -/
lemma listed_iff_exists {t : Tag} : t.Listed ↔ ∃ ty : NodeType, t = ty.tag := by
  rw [listed_iff_isSome, Option.isSome_iff_exists]
  constructor
  · rintro ⟨i, hi⟩
    exact ⟨NodeType.ofIndex i, index?_eq_some_iff.1 hi⟩
  · rintro ⟨ty, rfl⟩
    exact ⟨_, ty.index?_tag⟩

/-- The tag of a node type is on the list. -/
@[simp] lemma listed_tag (ty : NodeType) : ty.tag.Listed := listed_iff_exists.2 ⟨ty, rfl⟩

/-- A tag off the list has no place. -/
lemma index?_eq_none_iff {t : Tag} : t.index? = none ↔ ¬ t.Listed := by
  rw [listed_iff_isSome, Option.not_isSome_iff_eq_none]

/-- A tag denotes a node type exactly if it is that type's tag. -/
lemma type?_eq_some_iff {t : Tag} {ty : NodeType} : t.type? = some ty ↔ t = ty.tag := by
  constructor
  · intro h
    obtain ⟨i, hi, hty⟩ := Option.map_eq_some_iff.1 h
    rw [index?_eq_some_iff.1 hi, hty]
  · rintro rfl
    exact ty.type?_tag

/-- The reserved tag is off the list. -/
lemma not_listed_absent : ¬ absent.Listed := by
  decide

end Tag

/-! ## Entries -/

namespace Registration

/-- An entry answers for its own tag, and for no other tag on the list nor for the reserved one. -/
structure Exact (e : Registration) : Prop where
  own : e.handles e.tag = true
  reserved : e.handles .absent = false
  others : ∀ t : Tag, t.Listed → t ≠ e.tag → e.handles t = false

/-- What a registry asks of an entry. -/
structure Valid (e : Registration) : Prop where
  listed : e.tag.Listed
  isExact : e.Exact

/-- One of the node types is claimed exactly if the entry answers for no second one. -/
lemma countP_handles_eq_one_iff {e : Registration} {ty : NodeType} (h : e.handles ty.tag = true) :
    (NodeType.all.countP fun t => e.handles t.tag) = 1 ↔
      ∀ t : NodeType, t ≠ ty → e.handles t.tag = false := by
  have hmem : ty ∈ NodeType.all.filter fun t => e.handles t.tag :=
    List.mem_filter.2 ⟨ty.mem_all, h⟩
  rw [List.countP_eq_length_filter]
  constructor
  · intro hone t hne
    obtain ⟨u, hu⟩ := List.length_eq_one_iff.1 hone
    rw [hu, List.mem_singleton] at hmem
    by_contra ht
    have : t ∈ NodeType.all.filter fun t => e.handles t.tag :=
      List.mem_filter.2 ⟨t.mem_all, by simpa using ht⟩
    rw [hu, List.mem_singleton] at this
    exact hne (this.trans hmem.symm)
  · intro hothers
    have hall : ∀ t ∈ NodeType.all.filter fun t => e.handles t.tag, t = ty := by
      intro t ht
      by_contra hne
      have := (List.mem_filter.1 ht).2
      rw [hothers t hne] at this
      exact Bool.false_ne_true this
    have hnodup : (NodeType.all.filter fun t => e.handles t.tag).Nodup :=
      NodeType.nodup_all.filter _
    rw [List.eq_replicate_of_mem hall] at hnodup hmem ⊢
    have hle := List.nodup_replicate.1 hnodup
    have hpos := List.length_pos_of_mem hmem
    rw [List.length_replicate] at hpos ⊢
    omega

/-- For a tag on the list, the check that a registry makes is exactness. -/
lemma isConsistent_iff {e : Registration} (h : e.tag.Listed) : e.isConsistent = true ↔ e.Exact := by
  obtain ⟨ty, hty⟩ := Tag.listed_iff_exists.1 h
  have hothers : (∀ t : NodeType, t ≠ ty → e.handles t.tag = false) ↔
      ∀ t : Tag, t.Listed → t ≠ e.tag → e.handles t = false := by
    constructor
    · intro hall t ht hne
      obtain ⟨u, rfl⟩ := Tag.listed_iff_exists.1 ht
      refine hall u fun hu => hne ?_
      rw [hu, hty]
    · intro hall t hne
      refine hall t.tag (Tag.listed_tag t) fun ht => hne ?_
      exact NodeType.tag_injective (ht.trans hty)
  simp only [isConsistent, Bool.and_eq_true, Bool.not_eq_true', beq_iff_eq]
  constructor
  · rintro ⟨⟨hown, hreserved⟩, hcount⟩
    have hown' : e.handles ty.tag = true := hty ▸ hown
    exact ⟨hown, hreserved, hothers.1 ((countP_handles_eq_one_iff hown').1 hcount)⟩
  · rintro ⟨hown, hreserved, hrest⟩
    have hown' : e.handles ty.tag = true := hty ▸ hown
    exact ⟨⟨hown, hreserved⟩, (countP_handles_eq_one_iff hown').2 (hothers.2 hrest)⟩

/-- An entry whose tag is off the list is refused for its tag. -/
lemma place_of_not_listed {e : Registration} (h : ¬ e.tag.Listed) :
    e.place = .error (.invalidTag e.tag e.name) := by
  rw [place, Tag.index?_eq_none_iff.2 h]

/-- An entry that answers for the wrong tags is refused, if its own tag is on the list. -/
lemma place_of_not_exact {e : Registration} (h : e.tag.Listed) (hex : ¬ e.Exact) :
    e.place = .error (.inconsistentRegistration e.tag e.name) := by
  obtain ⟨i, hi⟩ := Option.isSome_iff_exists.1 (Tag.listed_iff_isSome.1 h)
  have hfalse : ¬ e.isConsistent = true := fun hc => hex ((isConsistent_iff h).1 hc)
  rw [place, hi]
  exact if_neg hfalse

/-- A valid entry goes to the place of its tag. -/
lemma place_of_valid {e : Registration} (h : e.Valid) {i : Fin NodeType.count}
    (hi : e.tag.index? = some i) : e.place = .ok i := by
  rw [place, hi]
  exact if_pos ((isConsistent_iff h.listed).2 h.isExact)

/-- A kind that is made for a tag on the list enters a registry validly. -/
lemma valid_of_kind {k : Kind} (h : k.tag.Listed) : k.registration.Valid := by
  have hne : k.tag ≠ .absent := fun hk => Tag.not_listed_absent (hk ▸ h)
  refine ⟨h, ⟨?_, ?_, ?_⟩⟩
  · simp [Kind.registration, Kind.handles, Tag.claims, hne]
  · simp [Kind.registration, Kind.handles, Tag.claims, hne]
  · intro t _ ht
    have hne' : k.tag ≠ t := fun hk => ht hk.symm
    simp [Kind.registration, Kind.handles, Tag.claims, hne']

end Registration

/-! ## Lookup -/

namespace Registry

variable {r : Registry} {e : Registration} {t : Tag}

/-- A tag off the list has no entry. -/
lemma lookup_of_not_listed (h : ¬ t.Listed) : r.lookup t = none := by
  rw [lookup, Tag.index?_eq_none_iff.2 h]

/-- The entry at a place is the entry of the node type at that place. -/
lemma table_get_eq_lookup {i : Fin NodeType.count} (hi : t.index? = some i) :
    getElem r.table i i.isLt = r.lookup t := by
  rw [lookup, hi]

/-- The empty registry has no entry for any tag. -/
@[simp] lemma lookup_empty : empty.lookup t = none := by
  unfold lookup
  split
  · exact Vector.getElem_replicate _
  · rfl

/-- The table read from its first place to its last. -/
lemma toList_table (r : Registry) :
    r.table.toList = NodeType.all.map fun ty => r.lookup ty.tag := by
  refine List.ext_getElem (by simp [NodeType.length_all]) fun n h₁ h₂ => ?_
  have hn : n < NodeType.count := by simpa using h₁
  have hplace : (NodeType.ofIndex ⟨n, hn⟩).tag.index? = some ⟨n, hn⟩ := Tag.index?_eq_some_iff.2 rfl
  rw [List.getElem_map, Vector.getElem_toList]
  exact table_get_eq_lookup hplace

/-- The entries are the lookups of the tags on the list, in their order. -/
lemma registrations_eq (r : Registry) :
    r.registrations = NodeType.all.filterMap fun ty => r.lookup ty.tag := by
  rw [registrations, toList_table, List.filterMap_map]
  rfl

/-- What a lookup finds is one of the entries. -/
lemma mem_registrations_of_lookup (h : r.lookup t = some e) : e ∈ r.registrations := by
  have hlisted : t.Listed := by
    by_contra hoff
    rw [lookup_of_not_listed hoff] at h
    cases h
  obtain ⟨ty, rfl⟩ := Tag.listed_iff_exists.1 hlisted
  rw [registrations_eq]
  exact List.mem_filterMap.2 ⟨ty, ty.mem_all, h⟩

/-- Registries that agree on every tag are equal. -/
lemma ext_lookup {r r' : Registry} (h : ∀ t, r.lookup t = r'.lookup t) : r = r' := by
  have htable : r.table.toList = r'.table.toList := by
    rw [toList_table, toList_table]
    exact List.map_congr_left fun ty _ => h ty.tag
  cases r
  cases r'
  exact congrArg Registry.mk (Vector.toList_inj.1 htable)

/-- The registry in which an entry stands at its own tag, whatever stood there before. -/
def insert (r : Registry) (e : Registration) : Registry :=
  match e.tag.index? with
  | some i => r.put i e
  | none => r

/-- Inserting an entry changes the lookup of its tag and of no other. -/
lemma lookup_insert (h : e.tag.Listed) (t : Tag) :
    (r.insert e).lookup t = if t = e.tag then some e else r.lookup t := by
  obtain ⟨i, hi⟩ := Option.isSome_iff_exists.1 (Tag.listed_iff_isSome.1 h)
  have hinsert : r.insert e = r.put i e := by rw [insert, hi]
  rw [hinsert]
  by_cases ht : t.Listed
  · obtain ⟨j, hj⟩ := Option.isSome_iff_exists.1 (Tag.listed_iff_isSome.1 ht)
    rw [← table_get_eq_lookup hj, ← table_get_eq_lookup hj]
    by_cases hij : i = j
    · have hte : t = e.tag := by
        rw [Tag.index?_eq_some_iff.1 hi, Tag.index?_eq_some_iff.1 hj, hij]
      rw [if_pos hte, hij]
      exact Vector.getElem_set_self _
    · have hte : t ≠ e.tag := by
        rintro rfl
        exact hij (Option.some.inj (hi.symm.trans hj))
      rw [if_neg hte]
      exact Vector.getElem_set_ne i.isLt j.isLt fun hval => hij (Fin.ext hval)
  · have hte : t ≠ e.tag := fun hte => ht (hte ▸ h)
    rw [if_neg hte, lookup_of_not_listed ht, lookup_of_not_listed ht]

/-! ## Registering and replacing -/

/-- The place of a valid entry is the place of its tag. -/
lemma exists_place (h : e.Valid) :
    ∃ i, e.tag.index? = some i ∧ e.place = .ok i ∧ r.insert e = r.put i e := by
  obtain ⟨i, hi⟩ := Option.isSome_iff_exists.1 (Tag.listed_iff_isSome.1 h.listed)
  exact ⟨i, hi, Registration.place_of_valid h hi, by rw [insert, hi]⟩

/-- A valid entry is registered at a tag without entry. -/
lemma register_of_none (h : e.Valid) (hnone : r.lookup e.tag = none) :
    r.register e = (.ok (), r.insert e) := by
  obtain ⟨i, hi, hplace, hinsert⟩ := exists_place (r := r) h
  rw [register, hplace, hinsert]
  dsimp only
  rw [table_get_eq_lookup hi, hnone]

/-- A valid entry is not registered at a tag that has one. -/
lemma register_of_some (h : e.Valid) {first : Registration} (hsome : r.lookup e.tag = some first) :
    r.register e = (.error (.ambiguousTag e.tag first.name e.name), r) := by
  obtain ⟨i, hi, hplace, _⟩ := exists_place (r := r) h
  rw [register, hplace]
  dsimp only
  rw [table_get_eq_lookup hi, hsome]

/-- An entry without a place is not registered. -/
lemma register_of_error {err : Error} (h : e.place = .error err) :
    r.register e = (.error err, r) := by
  rw [register, h]

/-- A valid entry replaces whatever its tag had. -/
lemma replace_of_valid (h : e.Valid) : r.replace e = (.ok (r.lookup e.tag), r.insert e) := by
  obtain ⟨i, hi, hplace, hinsert⟩ := exists_place (r := r) h
  rw [replace, hplace, hinsert]
  dsimp only
  rw [table_get_eq_lookup hi]

/-- An entry without a place replaces nothing. -/
lemma replace_of_error {err : Error} (h : e.place = .error err) :
    r.replace e = (.error err, r) := by
  rw [replace, h]

end Registry

end Pseudocode
