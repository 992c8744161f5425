import Pseudocode.Proofs.Registry.Table

/-!
# The standard registry

The tables of kinds are written by hand and in an order of their own.  They have no gap, no overlap
and no wrong pairing: up to the order they are the standard kinds of all node types
(`Kind.map_kind_rows_perm`).

`Registry.standard` holds the standard kind of every node type and nothing else.  It is what adding
the rows of the tables one by one gives, since their entries are valid and no two of them have the
same tag, and it is what `Registry.builtin` builds when no kind has been submitted.
-/

namespace Pseudocode

namespace NodeType

/-- A tag denotes the class of its node type. -/
@[simp] lemma cls_tag (ty : NodeType) : ty.tag.cls = ty.cls := by
  have hcode : ty.tag.isExpr = true ↔ (ty.index : Int) ≤ 69 := by
    rw [Tag.isExpr, decide_eq_true_iff, Int32.le_iff_toInt_le, ty.code_tag]
    rfl
  cases ty with
  | expr op =>
    have hlt := op.index_lt
    have h : (expr op).tag.isExpr = true := hcode.2 (by simp only [index]; omega)
    rw [Tag.cls, if_pos h]
    rfl
  | stmt op =>
    have h : ¬ (stmt op).tag.isExpr = true := by
      rw [hcode, index, ExprOp.length_all]
      omega
    rw [Tag.cls, if_neg h]
    rfl

end NodeType

/-! ## The tables of kinds -/

namespace Kind

/-- Each row has the name and the children of the standard kind of its node type. -/
lemma name_shape_of_mem_rows : ∀ row ∈ rows,
    row.name = (standard row.type).name ∧ row.shape = (standard row.type).shape := by
  decide +kernel

/-- The tables list every node type, and none twice. -/
theorem map_type_rows_perm : (rows.map Row.type).Perm NodeType.all := by
  decide +kernel

/-- A row describes the standard kind of its node type. -/
lemma kind_of_mem_rows {row : Row} (h : row ∈ rows) : row.kind = standard row.type := by
  obtain ⟨hname, hshape⟩ := name_shape_of_mem_rows row h
  rw [Row.kind, hname, hshape]
  cases row.type <;> rfl

/-- The tables list the standard kind of every node type exactly once. -/
theorem map_kind_rows_perm : (rows.map Row.kind).Perm (NodeType.all.map standard) := by
  have hkinds : rows.map Row.kind = (rows.map Row.type).map standard := by
    rw [List.map_map]
    exact List.map_congr_left fun row hrow => kind_of_mem_rows hrow
  rw [hkinds]
  exact map_type_rows_perm.map standard

end Kind

namespace Registry

/-! ## Adding a list of entries -/

/-- Valid entries with different tags can be added to a registry that has none of these tags. -/
lemma registerAll_of_free {es : List Registration} {r : Registry} (hvalid : ∀ e ∈ es, e.Valid)
    (hnodup : (es.map Registration.tag).Nodup) (hfree : ∀ e ∈ es, r.lookup e.tag = none) :
    r.registerAll es = (.ok (), es.foldl insert r) := by
  induction es generalizing r with
  | nil => rfl
  | cons e es ih =>
    have he := hvalid e List.mem_cons_self
    rw [List.map_cons, List.nodup_cons] at hnodup
    have hstep : r.register e = (.ok (), r.insert e) :=
      register_of_none he (hfree e List.mem_cons_self)
    have hfree' : ∀ e' ∈ es, (r.insert e).lookup e'.tag = none := by
      intro e' he'
      have hne : e'.tag ≠ e.tag := fun h => hnodup.1 (h ▸ List.mem_map_of_mem he')
      rw [lookup_insert he.listed, if_neg hne]
      exact hfree e' (List.mem_cons_of_mem e he')
    rw [registerAll, hstep, List.foldl_cons]
    exact ih (fun e' he' => hvalid e' (List.mem_cons_of_mem e he')) hnodup.2 hfree'

/-- After entries that were all added, the others are added to the registry that they left. -/
lemma registerAll_append {es : List Registration} {r r' : Registry}
    (h : r.registerAll es = (.ok (), r')) (later : List Registration) :
    r.registerAll (es ++ later) = r'.registerAll later := by
  induction es generalizing r with
  | nil =>
    cases h
    rfl
  | cons e es ih =>
    rw [List.cons_append, registerAll]
    rw [registerAll] at h
    split at h
    · exact ih h
    · cases h

/-- Inserting entries leaves the lookup of every other tag as it was. -/
lemma lookup_foldl_insert_of_notMem {es : List Registration} {r : Registry}
    (hvalid : ∀ e ∈ es, e.Valid) {t : Tag} (ht : t ∉ es.map Registration.tag) :
    (es.foldl insert r).lookup t = r.lookup t := by
  induction es generalizing r with
  | nil => rfl
  | cons e es ih =>
    rw [List.map_cons, List.mem_cons, not_or] at ht
    rw [List.foldl_cons, ih (fun e' he' => hvalid e' (List.mem_cons_of_mem e he')) ht.2,
      lookup_insert (hvalid e List.mem_cons_self).listed, if_neg ht.1]

/-- Of inserted entries with different tags, each is found under its tag. -/
lemma lookup_foldl_insert_of_mem {es : List Registration} {r : Registry}
    (hvalid : ∀ e ∈ es, e.Valid) (hnodup : (es.map Registration.tag).Nodup) {e : Registration}
    (he : e ∈ es) : (es.foldl insert r).lookup e.tag = some e := by
  induction es generalizing r with
  | nil => cases he
  | cons e' es ih =>
    have hvalid' : ∀ e ∈ es, e.Valid := fun e he => hvalid e (List.mem_cons_of_mem e' he)
    rw [List.map_cons, List.nodup_cons] at hnodup
    rw [List.foldl_cons]
    rcases List.mem_cons.1 he with rfl | he
    · rw [lookup_foldl_insert_of_notMem hvalid' hnodup.1,
        lookup_insert (hvalid e List.mem_cons_self).listed, if_pos rfl]
    · exact ih hvalid' hnodup.2 he

/-! ## The standard entries -/

/-- The registry of the standard kinds. -/
def standard : Registry :=
  ⟨Vector.ofFn fun i => some (Kind.standard (NodeType.ofIndex i)).registration⟩

/-- The entry for a tag is the standard kind of the node type that the tag denotes. -/
lemma lookup_standard (t : Tag) :
    standard.lookup t = t.type?.map fun ty => (Kind.standard ty).registration := by
  unfold lookup Tag.type?
  cases t.index? with
  | none => rfl
  | some i =>
    change standard.table[i.val] = _
    simp [standard]

/-- The standard entries are those of the standard kinds of all node types, up to the order. -/
lemma standardEntries_perm :
    standardEntries.Perm (NodeType.all.map fun ty => (Kind.standard ty).registration) := by
  have h := Kind.map_kind_rows_perm.map Kind.registration
  rwa [List.map_map, List.map_map] at h

/-- An entry is a standard one exactly if it is that of a standard kind. -/
lemma mem_standardEntries_iff {e : Registration} :
    e ∈ standardEntries ↔ ∃ ty, (Kind.standard ty).registration = e := by
  rw [standardEntries_perm.mem_iff, List.mem_map]
  constructor
  · rintro ⟨ty, _, he⟩
    exact ⟨ty, he⟩
  · rintro ⟨ty, he⟩
    exact ⟨ty, ty.mem_all, he⟩

/-- The standard entries are valid. -/
lemma valid_of_mem_standardEntries {e : Registration} (h : e ∈ standardEntries) : e.Valid := by
  obtain ⟨ty, rfl⟩ := mem_standardEntries_iff.1 h
  refine Registration.valid_of_kind ?_
  rw [Kind.tag_standard]
  exact Tag.listed_tag ty

/-- No two standard entries have the same tag. -/
lemma nodup_map_tag_standardEntries : (standardEntries.map Registration.tag).Nodup := by
  have htags : (NodeType.all.map fun ty => (Kind.standard ty).registration).map Registration.tag =
      NodeType.all.map NodeType.tag := by
    rw [List.map_map]
    exact List.map_congr_left fun ty _ => Kind.tag_standard ty
  rw [(standardEntries_perm.map Registration.tag).nodup_iff, htags]
  exact NodeType.nodup_all.map NodeType.tag_injective

/-- Adding the standard entries one by one gives the standard registry. -/
theorem ofRegistrations_standardEntries : ofRegistrations standardEntries = .ok standard := by
  have hvalid : ∀ e ∈ standardEntries, e.Valid := fun e he => valid_of_mem_standardEntries he
  have hnodup := nodup_map_tag_standardEntries
  have hfold : standardEntries.foldl insert empty = standard := by
    refine ext_lookup fun t => ?_
    by_cases ht : t.Listed
    · obtain ⟨ty, rfl⟩ := Tag.listed_iff_exists.1 ht
      have hmem : (Kind.standard ty).registration ∈ standardEntries :=
        mem_standardEntries_iff.2 ⟨ty, rfl⟩
      have hfound := lookup_foldl_insert_of_mem (r := empty) hvalid hnodup hmem
      have htag : (Kind.standard ty).registration.tag = ty.tag := Kind.tag_standard ty
      rw [htag] at hfound
      rw [hfound, lookup_standard, NodeType.type?_tag, Option.map_some]
    · have hnotMem : t ∉ standardEntries.map Registration.tag := by
        intro hmem
        obtain ⟨e, he, rfl⟩ := List.mem_map.1 hmem
        exact ht (hvalid e he).listed
      rw [lookup_foldl_insert_of_notMem hvalid hnotMem, lookup_of_not_listed ht,
        lookup_of_not_listed ht]
  rw [ofRegistrations, registerAll_of_free hvalid hnodup fun _ _ => lookup_empty, hfold]

/-- Without submitted kinds, the built-in registry is the standard one. -/
theorem builtin_nil_outcome : (builtin []).outcome = .ok standard := by
  have hempty : empty.registrations = [] := by
    rw [registrations_eq]
    exact List.filterMap_eq_nil_iff.2 fun _ _ => lookup_empty
  simp only [builtin, ofRegistrations_standardEntries]
  simp [Traced.ofExcept, ofRegistrations, registerAll, hempty, Traced.log, Traced.andThen,
    Traced.after, Traced.ok, pure]

end Registry

end Pseudocode
