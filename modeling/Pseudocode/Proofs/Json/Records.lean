import Mathlib.Data.List.Nodup
import Mathlib.Tactic.Lemma
import Mathlib.Tactic.SplitIfs
import Pseudocode.Json.Columns
import Pseudocode.Proofs.Decimal.ReadBack
import Pseudocode.Proofs.Json.Values
import Pseudocode.Tree.Snapshot

/-!
# Records and scalars read back

What a snapshot writes for one value is read as that value: integers of every width, texts, lists of
words, floating point numbers if they are finite, and the columns of a record in their order
(`columns?_record`).

`Recovers r a P` is the form in which all of these are said: reading gives `a` back if `P` holds, and
fails if not.  It goes through the steps of a reader (`Recovers.bind`, `recovers_mapM`), so that
what can be restored of a whole is put together from what can be restored of its parts.
-/

namespace Pseudocode

/-! ## Results that recover a value -/

/-- The result is `a` if `P` holds, and a failure if not. -/
def Recovers {α : Type u} (r : Option α) (a : α) (P : Prop) : Prop := ∀ b, r = some b ↔ P ∧ b = a

section Recovers

variable {α β : Type u} {r : Option α} {a : α} {P Q : Prop}

/-- A result that is there recovers itself. -/
lemma recovers_some (a : α) : Recovers (some a) a True := by
  intro b
  simp [eq_comm]

/-- A result that is known recovers its value. -/
lemma recovers_of_eq (h : r = some a) : Recovers r a True := h ▸ recovers_some a

/-- A failure recovers nothing. -/
lemma recovers_none (a : α) (hP : ¬ P) : Recovers none a P := by
  intro b
  simp [hP]

namespace Recovers

/-- Equivalent conditions are exchanged. -/
lemma congr (h : Recovers r a P) (hPQ : P ↔ Q) : Recovers r a Q := by
  intro b
  rw [h b, hPQ]

/-- Two steps recover what the second recovers from what the first does. -/
lemma bind {f : α → Option β} {b : β} (h : Recovers r a P) (hf : Recovers (f a) b Q) :
    Recovers (r >>= f) b (P ∧ Q) := by
  intro c
  rw [Option.bind_eq_bind, Option.bind_eq_some_iff]
  constructor
  · rintro ⟨a', ha', hc⟩
    obtain ⟨hP, rfl⟩ := (h a').1 ha'
    obtain ⟨hQ, rfl⟩ := (hf c).1 hc
    exact ⟨⟨hP, hQ⟩, rfl⟩
  · rintro ⟨⟨hP, hQ⟩, rfl⟩
    exact ⟨a, (h a).2 ⟨hP, rfl⟩, (hf c).2 ⟨hQ, rfl⟩⟩

/-- A last step that only builds a value recovers what it builds. -/
lemma bind_pure {f : α → β} (h : Recovers r a P) : Recovers (r >>= fun a => pure (f a)) (f a) P :=
  (h.bind (recovers_some (f a))).congr (iff_of_eq (and_true P))

/-- What is built from a recovered part is recovered with it. -/
lemma map (f : α → β) (h : Recovers r a P) : Recovers (r.map f) (f a) P := by
  intro b
  rw [Option.map_eq_some_iff]
  constructor
  · rintro ⟨a', ha', rfl⟩
    obtain ⟨hP, rfl⟩ := (h a').1 ha'
    exact ⟨hP, rfl⟩
  · rintro ⟨hP, rfl⟩
    exact ⟨a, (h a).2 ⟨hP, rfl⟩, rfl⟩

end Recovers

/-- A list is recovered if each of its elements is. -/
lemma recovers_mapM {γ : Type w} {read : γ → Option α} {write : α → γ} {P : α → Prop} {as : List α}
    (h : ∀ a ∈ as, Recovers (read (write a)) a (P a)) :
    Recovers ((as.map write).mapM read) as (∀ a ∈ as, P a) := by
  induction as with
  | nil => exact (recovers_some []).congr (iff_of_true trivial (List.forall_mem_nil P))
  | cons a as ih =>
    obtain ⟨ha, has⟩ := List.forall_mem_cons.1 h
    rw [List.map_cons, List.mapM_cons]
    exact (ha.bind (ih has).bind_pure).congr List.forall_mem_cons.symm

/-- What is read from a list is read element by element. -/
lemma exists_of_mem_mapM {γ : Type w} {read : γ → Option α} {cs : List γ} {as : List α}
    (h : cs.mapM read = some as) {a : α} (ha : a ∈ as) : ∃ c, read c = some a := by
  induction cs generalizing as with
  | nil =>
    cases h
    cases ha
  | cons c cs ih =>
    rw [List.mapM_cons, Option.bind_eq_bind, Option.bind_eq_some_iff] at h
    obtain ⟨b, hb, h⟩ := h
    obtain ⟨bs, hbs, h⟩ := Option.bind_eq_some_iff.1 h
    cases h
    rcases List.mem_cons.1 ha with rfl | ha
    · exact ⟨c, hb⟩
    · exact ih hbs ha

end Recovers

namespace Json

/-! ## Scalars -/

/-- A natural number is read from its numeral. -/
lemma int?_nat (n : Nat) : (Json.nat n).int? = some (n : Int) := rfl

/-- An integer is read from its numeral. -/
lemma int?_int (n : Int) : (Json.int n).int? = some n := by
  have hread : (Json.int n).int? = if decide (n < 0) then
      if n.natAbs = 0 then none else some (-(n.natAbs : Int)) else some (n.natAbs : Int) := rfl
  rw [hread]
  by_cases hneg : n < 0
  · have habs : n.natAbs ≠ 0 := by omega
    have hval : -(n.natAbs : Int) = n := by omega
    rw [if_pos (decide_eq_true hneg), if_neg habs, hval]
  · have hval : (n.natAbs : Int) = n := by omega
    rw [if_neg (by simpa using hneg), hval]

/-- A natural number below the bound is read from its numeral. -/
lemma natBelow?_nat {bound n : Nat} (hn : n < bound) : (Json.nat n).natBelow? bound = some n := by
  have hrange : (0 : Int) ≤ n ∧ (n : Int) < bound := by omega
  simp only [natBelow?, int?_nat, hrange, and_self, if_true, Int.toNat_natCast]

/-- A 64-bit word is read as it was written. -/
@[simp]
lemma word64?_word64 (w : UInt64) : (word64 w).word64? = some w := by
  rw [word64, word64?, natBelow?_nat w.toNat_lt]
  simp

/-- A 32-bit word is read as it was written. -/
@[simp]
lemma word32?_nat (m : UInt32) : (Json.nat m.toNat).word32? = some m := by
  rw [word32?, natBelow?_nat m.toNat_lt]
  simp

/-- A signed 32-bit word is read as it was written. -/
@[simp]
lemma signed32?_int (n : Int32) : (Json.int n.toInt).signed32? = some n := by
  have hrange : -0x80000000 ≤ n.toInt ∧ n.toInt < 0x80000000 := ⟨n.le_toInt, n.toInt_lt⟩
  simp only [signed32?, int?_int, hrange, and_self, if_true, Int32.ofInt_toInt]

/-- A text is read as it was written. -/
@[simp]
lemma text?_text (s : String) : (Json.text s).text? = some s := rfl

/-- A list of words is read as it was written. -/
@[simp]
lemma words64?_words64 (ws : List UInt64) : (words64 ws).words64? = some ws := by
  have hword : ∀ w ∈ ws, Recovers (word64? (word64 w)) w True := fun w _ =>
    recovers_of_eq (word64?_word64 w)
  exact (recovers_mapM hword ws).2 ⟨fun _ _ => trivial, rfl⟩

/-- A floating point number is recovered exactly if it is finite. -/
lemma recovers_binary64 (x : Binary64) : Recovers (binary64 x).binary64? x x.isFinite := by
  unfold binary64
  split_ifs with hfinite
  · have hread : (Json.number (snapshotLayout.numeral x)).binary64? = some x :=
      snapshotLayout.toBinary64?_numeral hfinite
    exact hread ▸ (recovers_some x).congr (by simp [hfinite])
  · exact recovers_none x hfinite

/-- A floating point number that is read is finite. -/
lemma isFinite_of_binary64? {j : Json} {x : Binary64} (h : j.binary64? = some x) : x.isFinite := by
  cases j with
  | number n => exact Binary64.isFinite_of_ofDecimal? h
  | _ => cases h

/-! ## Values that can be written -/

/-- What is absent can be written. -/
@[simp]
lemma wellFormed_null : WellFormed .null := .null

/-- Texts can be written. -/
@[simp]
lemma wellFormed_text (s : String) : (Json.text s).WellFormed := .string _

-- The numeral of an integer has nothing behind a point.
@[simp]
lemma wellFormed_nat (n : Nat) : (Json.nat n).WellFormed := .number (List.forall_mem_nil _)

@[simp]
lemma wellFormed_int (n : Int) : (Json.int n).WellFormed := .number (List.forall_mem_nil _)

/-- An array can be written if its items can. -/
@[simp]
lemma wellFormed_array {items : List Json} :
    (Json.array items).WellFormed ↔ ∀ j ∈ items, j.WellFormed :=
  ⟨fun h _ hj => h.of_mem_parts hj, .array⟩

/-- A record can be written if its values can. -/
@[simp]
lemma wellFormed_record {fields : List (String × Json)} :
    (record fields).WellFormed ↔ ∀ f ∈ fields, f.2.WellFormed := by
  constructor
  · exact fun h f hf => h.of_mem_parts (snd_mem_parts (List.mem_map_of_mem hf))
  · refine fun h => .object fun g hg => ?_
    obtain ⟨f, hf, rfl⟩ := List.mem_map.1 hg
    exact h f hf

/-- A variant can be written if its content can. -/
@[simp]
lemma wellFormed_variant {name : String} {content : Json} :
    (variant name content).WellFormed ↔ content.WellFormed := by
  simp [variant]

/-- Words can be written. -/
@[simp]
lemma wellFormed_word64 (w : UInt64) : (word64 w).WellFormed := wellFormed_nat _

@[simp]
lemma wellFormed_words64 (ws : List UInt64) : (words64 ws).WellFormed := by
  simp [words64]

/-- Floating point numbers can be written, finite or not. -/
@[simp]
lemma wellFormed_binary64 (x : Binary64) : (binary64 x).WellFormed := by
  unfold binary64
  split_ifs
  · exact .number (snapshotLayout.hasDigits_numeral x)
  · exact .null

/-! ## Records -/

/-- The values of the fields with a given name, without the proofs that they are smaller. -/
lemma map_val_named (fields : List (Option String × Json)) (name : String) :
    (named fields name).map Subtype.val =
      (fields.filter fun f => f.1 == some name).map Prod.snd := by
  have hfilter := List.filter_map (p := fun f : Option String × Json => f.1 == some name)
    (f := Subtype.val) (l := fields.attach)
  rw [List.attach_map_subtype_val] at hfilter
  rw [named, hfilter, List.map_map, List.map_map]
  rfl

/-- Parts are told by their values. -/
lemma map_some_eq_pmap {j : Json} {ps : List j.Part} {vs : List Json}
    (hvals : ps.map Subtype.val = vs) :
    ∃ hsize : ∀ v ∈ vs, sizeOf v < sizeOf j,
      ps.map some = vs.pmap (fun v hv => some ⟨v, hv⟩) hsize := by
  subst hvals
  refine ⟨fun v hv => ?_, ?_⟩
  · obtain ⟨p, _, rfl⟩ := List.mem_map.1 hv
    exact p.2
  · induction ps with
    | nil => rfl
    | cons p ps ih => exact congrArg (some p :: ·) ih

/-- Reading the parts of an array one by one is reading its items. -/
lemma exists_parts?_array (items : List Json) :
    ∃ ps, (Json.array items).parts? = some ps ∧
      ∀ {α : Type} (read : Json → Option α), (ps.mapM fun p => read p.1) = items.mapM read := by
  refine ⟨_, rfl, fun read => ?_⟩
  have hval : (items.attach.map Subtype.val).mapM read = items.mapM read := by
    rw [List.attach_map_subtype_val]
  rw [List.mapM_map, ← hval, List.mapM_map]
  rfl

/-- Of fields with distinct names only one has the name of a given field. -/
lemma filter_name_eq {fields : List (String × Json)} (hnodup : (fields.map Prod.fst).Nodup)
    {f : String × Json} (hf : f ∈ fields) : (fields.filter fun g => g.1 == f.1) = [f] := by
  induction fields with
  | nil => cases hf
  | cons g gs ih =>
    obtain ⟨hfresh, hnodup⟩ := List.nodup_cons.1 hnodup
    rcases List.mem_cons.1 hf with rfl | hf
    · have hrest : (gs.filter fun g => g.1 == f.1) = [] := by
        refine List.filter_eq_nil_iff.2 fun g hg heq => hfresh ?_
        exact eq_of_beq heq ▸ List.mem_map_of_mem hg
      rw [List.filter_cons, if_pos (beq_self_eq_true f.1), hrest]
    · have hne : ¬ (g.1 == f.1) = true := fun heq =>
        hfresh (eq_of_beq heq ▸ List.mem_map_of_mem hf)
      rw [List.filter_cons, if_neg hne, ih hnodup hf]

section Record

variable {fields : List (String × Json)}

/-- The fields of a record as those of an object. -/
abbrev recordFields (fields : List (String × Json)) : List (Option String × Json) :=
  fields.map fun f => (some f.1, f.2)

/-- The values of the fields of a record with a given name. -/
lemma map_val_named_record (fields : List (String × Json)) (name : String) :
    (named (recordFields fields) name).map Subtype.val =
      (fields.filter fun f => f.1 == name).map Prod.snd := by
  rw [map_val_named, recordFields, List.filter_map, List.map_map]
  rfl

/-- A column that is named once is found. -/
lemma find?_of_once {c : Column} {v : Json}
    (h : (fields.filter fun f => f.1 == c.name).map Prod.snd = [v]) :
    ∃ p, c.find? (recordFields fields) = some (some p) ∧ p.1 = v := by
  obtain ⟨p, hp, hval⟩ := List.map_eq_singleton_iff.1 ((map_val_named_record fields c.name).trans h)
  exact ⟨p, by rw [Column.find?, hp], hval⟩

/-- A column is found in a record that has a field with its name. -/
lemma find?_of_mem (hnodup : (fields.map Prod.fst).Nodup) {f : String × Json} (hf : f ∈ fields)
    {c : Column} (hc : c.name = f.1) :
    ∃ p, c.find? (recordFields fields) = some (some p) ∧ p.1 = f.2 := by
  apply find?_of_once
  rw [hc, filter_name_eq hnodup hf]
  rfl

/-- Columns that are named after fields of a record are found in it, in their order. -/
lemma mapM_find? (hnodup : (fields.map Prod.fst).Nodup) {gs : List (String × Json)}
    (hgs : ∀ g ∈ gs, g ∈ fields) {cs : List Column} (hcs : cs.map Column.name = gs.map Prod.fst) :
    ∃ ps : List (Json.object (recordFields fields)).Part,
      cs.mapM (Column.find? (recordFields fields)) = some (ps.map some) ∧
      ps.map Subtype.val = gs.map Prod.snd := by
  induction gs generalizing cs with
  | nil =>
    obtain rfl := List.map_eq_nil_iff.1 hcs
    exact ⟨[], rfl, rfl⟩
  | cons g gs ih =>
    obtain ⟨c, cs, rfl, hc, hcs⟩ := List.map_eq_cons_iff.1 hcs
    obtain ⟨hg, hgs⟩ := List.forall_mem_cons.1 hgs
    obtain ⟨p, hfind, hval⟩ := find?_of_mem hnodup hg hc
    obtain ⟨ps, hmap, hvals⟩ := ih hgs hcs
    refine ⟨p :: ps, ?_, by rw [List.map_cons, hval, hvals, List.map_cons]⟩
    rw [List.mapM_cons, hfind, hmap]
    rfl

/-- **The columns of a record are the values of its fields**, in their order. -/
theorem columns?_record (fields : List (String × Json)) (positional : Bool) (cs : List Column)
    (hcs : cs.map Column.name = fields.map Prod.fst) (hnodup : (cs.map Column.name).Nodup) :
    ∃ hsize : ∀ v ∈ fields.map Prod.snd, sizeOf v < sizeOf (record fields),
      (record fields).columns? positional cs =
        some ((fields.map Prod.snd).pmap (fun v hv => some ⟨v, hv⟩) hsize) := by
  have hnamed : ((recordFields fields).all fun f => f.1.isSome) = true := by simp
  obtain ⟨ps, hmap, hvals⟩ := mapM_find? (hcs ▸ hnodup) (fun g hg => hg) hcs
  obtain ⟨hsize, hparts⟩ := map_some_eq_pmap hvals
  exact ⟨hsize, ((if_pos hnamed).trans hmap).trans (congrArg some hparts)⟩

end Record

end Json

end Pseudocode
