import Mathlib.Data.List.Forall2
import Pseudocode.Proofs.Json.Records

/-!
# Styles of a record

A record can be written in many styles: as an object whose fields stand in any order, where absent
values of optional columns may be left out and unknown fields may stand in between, or as the array
of all its values (`Writes`).  In every style the same values are found in its columns
(`columns?_of_writes`).

An object that lacks a required column or names a known one twice is refused as a whole, and so is
an array with one value too few or too many (`Spoils`, `columns?_of_spoils`).

A row of a record is a column with its value.
-/

namespace Pseudocode.Json

/-! ## Writing the rows of a record -/

/-- The field of an object that a row is written as. -/
def rowField (r : Column × Json) : String × Json := (r.1.name, r.2)

/-- The fields are those of the rows in `kept`, which leaves out only absent values of optional
columns, and of `extra`, which has no name of a column, in any order. -/
structure Naming (rows kept : List (Column × Json)) (extra fields : List (String × Json)) :
    Prop where
  sublist : kept.Sublist rows
  omitted : ∀ r ∈ rows, r ∉ kept → r.1.optional ∧ r.2 = .null
  unknown : ∀ f ∈ extra, f.1 ∉ rows.map fun r => r.1.name
  perm : fields.Perm (kept.map rowField ++ extra)

/-- The value is a record with these rows, in one of the styles that it can be written in. -/
inductive Writes (rows : List (Column × Json)) : Json → Prop
  | named {kept : List (Column × Json)} {extra fields : List (String × Json)}
      (h : Naming rows kept extra fields) : Writes rows (.record fields)
  | positional : Writes rows (.array (rows.map Prod.snd))

/-- The value is a record with these rows in one of its styles, but for one defect. -/
inductive Spoils (rows : List (Column × Json)) : Json → Prop
  /-- A required column is removed. -/
  | removed {kept : List (Column × Json)} {extra fields : List (String × Json)}
      (h : Naming rows kept extra fields) {r : Column × Json} (hr : r ∈ rows)
      (hrequired : r.1.optional = false) :
      Spoils rows (.record (fields.filter fun f => f.1 != r.1.name))
  /-- The name of a column is repeated, with any value, anywhere. -/
  | repeated {kept : List (Column × Json)} {extra before after : List (String × Json)}
      (h : Naming rows kept extra (before ++ after)) {r : Column × Json} (hr : r ∈ kept)
      (v : Json) : Spoils rows (.record (before ++ (r.1.name, v) :: after))
  /-- A value is dropped from the array. -/
  | dropped {before after : List Json} {v : Json} (h : rows.map Prod.snd = before ++ v :: after) :
      Spoils rows (.array (before ++ after))
  /-- A value is added to the array. -/
  | added {before after : List Json} (h : rows.map Prod.snd = before ++ after) (v : Json) :
      Spoils rows (.array (before ++ v :: after))

/-- A record can be written with all its rows in their order. -/
lemma writes_record (rows : List (Column × Json)) : Writes rows (.record (rows.map rowField)) := by
  have hall : Naming rows rows [] (rows.map rowField) := by
    refine ⟨.refl rows, fun r hr h => absurd hr h, List.forall_mem_nil _, ?_⟩
    rw [List.append_nil]
  exact .named hall

/-- No style of a record is `null`. -/
lemma Writes.isNull_eq {rows : List (Column × Json)} {j : Json} (h : Writes rows j) :
    j.isNull = false := by
  cases h <;> rfl

/-- No defect makes a record `null`. -/
lemma Spoils.isNull_eq {rows : List (Column × Json)} {j : Json} (h : Spoils rows j) :
    j.isNull = false := by
  cases h <;> rfl

/-! ## Columns of an object -/

section Find

variable {fields : List (String × Json)} {c : Column}

/-- A column that is not named is absent if that is allowed. -/
lemma find?_of_absent (h : (fields.filter fun f => f.1 == c.name) = []) :
    c.find? (recordFields fields) = if c.optional then some none else none := by
  have hvalues := map_val_named_record fields c.name
  rw [h] at hvalues
  rw [Column.find?, List.map_eq_nil_iff.1 hvalues]

/-- A column that is named more than once is refused. -/
lemma find?_of_repeated (h : 1 < (fields.filter fun f => f.1 == c.name).length) :
    c.find? (recordFields fields) = none := by
  have hlength := congrArg List.length (map_val_named_record fields c.name)
  rw [List.length_map, List.length_map] at hlength
  rw [Column.find?]
  split
  · rename_i hnil
    rw [hnil, List.length_nil] at hlength
    omega
  · rename_i p hone
    rw [hone, List.length_singleton] at hlength
    omega
  · rfl

end Find

namespace Naming

variable {rows kept : List (Column × Json)} {extra fields : List (String × Json)}
  {r : Column × Json}

/-- The fields with the name of a column are those of the rows that are kept. -/
lemma filter_perm (h : Naming rows kept extra fields) (hr : r ∈ rows) :
    (fields.filter fun f => f.1 == r.1.name).Perm
      ((kept.map rowField).filter fun f => f.1 == r.1.name) := by
  have hextra : (extra.filter fun f => f.1 == r.1.name) = [] := by
    refine List.filter_eq_nil_iff.2 fun f hf heq => h.unknown f hf ?_
    rw [eq_of_beq heq]
    exact List.mem_map_of_mem hr
  have hfilter := h.perm.filter fun f => f.1 == r.1.name
  rwa [List.filter_append, hextra, List.append_nil] at hfilter

/-- The names of the rows that are kept are distinct if those of all rows are. -/
lemma nodup_kept (h : Naming rows kept extra fields)
    (hnodup : (rows.map fun r => r.1.name).Nodup) : ((kept.map rowField).map Prod.fst).Nodup := by
  rw [List.map_map]
  exact hnodup.sublist (h.sublist.map _)

/-- A row that is kept is named once. -/
lemma filter_of_mem (h : Naming rows kept extra fields)
    (hnodup : (rows.map fun r => r.1.name).Nodup) (hr : r ∈ kept) :
    (fields.filter fun f => f.1 == r.1.name) = [rowField r] := by
  have hkept : ((kept.map rowField).filter fun f => f.1 == r.1.name) = [rowField r] :=
    filter_name_eq (h.nodup_kept hnodup) (List.mem_map_of_mem hr)
  have hperm := h.filter_perm (h.sublist.subset hr)
  rw [hkept] at hperm
  exact List.perm_singleton.1 hperm

/-- A row that is left out is not named. -/
lemma filter_of_notMem (h : Naming rows kept extra fields)
    (hnodup : (rows.map fun r => r.1.name).Nodup) (hr : r ∈ rows) (hkept : r ∉ kept) :
    (fields.filter fun f => f.1 == r.1.name) = [] := by
  have hnone : ((kept.map rowField).filter fun f => f.1 == r.1.name) = [] := by
    refine List.filter_eq_nil_iff.2 fun f hf heq => ?_
    obtain ⟨q, hq, rfl⟩ := List.mem_map.1 hf
    -- Of the rows only `r` itself has its name.
    have hqr : q = r := List.inj_on_of_nodup_map hnodup (h.sublist.subset hq) hr (eq_of_beq heq)
    exact hkept (hqr ▸ hq)
  have hperm := h.filter_perm hr
  rw [hnone] at hperm
  exact hperm.eq_nil

end Naming

/-! ## Reading a list element by element -/

section Lists

variable {α β : Type} {read : α → Option β} {as : List α}

/-- A list whose elements are all read is read as a list of related results. -/
lemma exists_forall₂_mapM {R : α → β → Prop} (h : ∀ a ∈ as, ∃ b, read a = some b ∧ R a b) :
    ∃ bs, as.mapM read = some bs ∧ List.Forall₂ R as bs := by
  induction as with
  | nil => exact ⟨[], rfl, .nil⟩
  | cons a as ih =>
    obtain ⟨⟨b, hb, hab⟩, has⟩ := List.forall_mem_cons.1 h
    obtain ⟨bs, hbs, hrest⟩ := ih has
    refine ⟨b :: bs, ?_, .cons hab hrest⟩
    rw [List.mapM_cons, hb, hbs]
    rfl

/-- A list with an element that is not read is not read. -/
lemma mapM_eq_none {a : α} (ha : a ∈ as) (h : read a = none) : as.mapM read = none := by
  induction as with
  | nil => cases ha
  | cons b bs ih =>
    rw [List.mapM_cons]
    rcases List.mem_cons.1 ha with rfl | ha
    · rw [h]
      rfl
    · rw [ih ha]
      cases read b <;> rfl

/-- Lists of which the elements are read alike are read alike. -/
lemma mapM_congr {read' : α → Option β} (h : ∀ a ∈ as, read a = read' a) :
    as.mapM read = as.mapM read' := by
  induction as with
  | nil => rfl
  | cons a as ih =>
    obtain ⟨ha, has⟩ := List.forall_mem_cons.1 h
    rw [List.mapM_cons, List.mapM_cons, ha, ih has]

end Lists

/-! ## Columns of a record in any style -/

/-- What is found in a column with the given value: the value, or nothing if it may be left out and
is absent. -/
def Column.Holds (c : Column) (v : Json) {j : Json} (p : Option j.Part) : Prop :=
  (∃ q : j.Part, p = some q ∧ q.1 = v) ∨ (c.optional ∧ v = .null ∧ p = none)

/-- The columns of a record are looked up one by one in its fields. -/
lemma columns?_fields (fields : List (String × Json)) (rows : List (Column × Json)) :
    (record fields).columns? true (rows.map Prod.fst) =
      rows.mapM fun r => r.1.find? (recordFields fields) := by
  have hnamed : ((recordFields fields).all fun f => f.1.isSome) = true := by simp
  have hfind : (record fields).columns? true (rows.map Prod.fst) =
      (rows.map Prod.fst).mapM (Column.find? (recordFields fields)) := if_pos hnamed
  rw [hfind, List.mapM_map]
  rfl

/-- **In every style of a record its values are found in the columns.** -/
theorem columns?_of_writes {rows : List (Column × Json)} {j : Json} (h : Writes rows j)
    (hnodup : (rows.map fun r => r.1.name).Nodup) :
    ∃ ps, j.columns? true (rows.map Prod.fst) = some ps ∧
      List.Forall₂ (fun r p => r.1.Holds r.2 p) rows ps := by
  cases h with
  | @named kept extra fields h =>
    rw [columns?_fields]
    refine exists_forall₂_mapM fun r hr => ?_
    by_cases hkept : r ∈ kept
    · have hone := congrArg (List.map Prod.snd) (h.filter_of_mem hnodup hkept)
      obtain ⟨p, hp, hval⟩ := find?_of_once hone
      exact ⟨some p, hp, .inl ⟨p, rfl, hval⟩⟩
    · obtain ⟨hoptional, hnull⟩ := h.omitted r hr hkept
      have habsent := find?_of_absent (h.filter_of_notMem hnodup hr hkept)
      rw [if_pos hoptional] at habsent
      exact ⟨none, habsent, .inr ⟨hoptional, hnull, rfl⟩⟩
  | positional =>
    have hlength : (true && (rows.map Prod.snd).length == (rows.map Prod.fst).length) = true := by
      simp
    refine ⟨_, if_pos hlength, ?_⟩
    have hvalues : List.Forall₂ (fun r v => r.2 = v) rows (rows.map Prod.snd) :=
      List.forall₂_map_right_iff.2 (List.forall₂_same.2 fun _ _ => rfl)
    rw [← List.attach_map_subtype_val (rows.map Prod.snd), List.forall₂_map_right_iff] at hvalues
    exact List.forall₂_map_right_iff.2 (hvalues.imp fun r p hrp => .inl ⟨_, rfl, hrp.symm⟩)

/-- **A record with a defect is refused.** -/
theorem columns?_of_spoils {rows : List (Column × Json)} {j : Json} (h : Spoils rows j)
    (hnodup : (rows.map fun r => r.1.name).Nodup) :
    j.columns? true (rows.map Prod.fst) = none := by
  have hlength : ∀ items : List Json, items.length ≠ (rows.map Prod.snd).length →
      (Json.array items).columns? true (rows.map Prod.fst) = none := by
    intro items hne
    refine if_neg fun hlen => hne ?_
    simpa using hlen
  cases h with
  | @removed kept extra fields h r hr hrequired =>
    rw [columns?_fields]
    refine mapM_eq_none hr ?_
    rw [find?_of_absent, hrequired, if_neg Bool.false_ne_true]
    refine List.filter_eq_nil_iff.2 fun f hf heq => ?_
    have hne := (List.mem_filter.1 hf).2
    rw [bne, heq] at hne
    cases hne
  | @repeated kept extra before after h r hr v =>
    rw [columns?_fields]
    refine mapM_eq_none (h.sublist.subset hr) (find?_of_repeated ?_)
    have hone := congrArg List.length (h.filter_of_mem hnodup hr)
    rw [List.filter_append, List.length_append, List.length_singleton] at hone
    rw [List.filter_append, List.length_append, List.filter_cons,
      if_pos (beq_self_eq_true r.1.name), List.length_cons]
    omega
  | @dropped before after v h =>
    refine hlength _ ?_
    simp [h]
  | @added before after h v =>
    refine hlength _ ?_
    simp [h]

end Pseudocode.Json
