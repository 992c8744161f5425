import Mathlib.Data.List.Forall2
import Mathlib.Data.List.Pairwise
import Pseudocode.Proofs.Registry.Simulation
import Pseudocode.Proofs.Registry.Standard

/-!
# The built-in registry

Kinds are submitted in an order that nobody controls.  This file shows what does not depend on it.
Entries are compatible if each is valid and no two have the same tag; compatible entries, and no
others, make up a registry, and that registry is the same for every order of the entries
(`Registry.gather_perm`).  Entries that are not compatible are refused at the first one that is
faulty by itself or whose tag was taken before.

`Registry.builtin` first gathers the submitted entries in a registry of their own and then installs
them over the standard ones, by tag and not as they were submitted.  So table and log depend on the
submitted entries as a set, and only the choice of the error on their order.
-/

namespace Pseudocode

/-! ## Compatible entries -/

namespace Registration

/-- Entries that can stand in one registry: each is valid, and no two have the same tag. -/
structure Compatible (es : List Registration) : Prop where
  valid : ∀ e ∈ es, e.Valid
  nodup : (es.map Registration.tag).Nodup

/-- Why an entry cannot follow others: a fault of its own, or else an earlier entry for its tag,
which is named first. -/
def refusal? (earlier : List Registration) (e : Registration) : Option Error :=
  e.fault?.or ((earlier.find? fun f => f.tag = e.tag).map fun f =>
    .ambiguousTag e.tag f.name e.name)

variable {es es' : List Registration} {e : Registration}

/-- Without entries there is nothing to agree on. -/
lemma compatible_nil : Compatible [] := ⟨by simp, by simp⟩

/-- Compatible entries are compatible in any order. -/
lemma Compatible.perm (h : Compatible es) (hp : es'.Perm es) : Compatible es' where
  valid e he := h.valid e (hp.mem_iff.1 he)
  nodup := (hp.map Registration.tag).nodup_iff.2 h.nodup

/-- No entry is refused exactly if it is valid and its tag is free. -/
lemma refusal?_eq_none_iff :
    refusal? es e = none ↔ e.Valid ∧ e.tag ∉ es.map Registration.tag := by
  rw [refusal?, Option.or_eq_none_iff, fault?_eq_none_iff, Option.map_eq_none_iff,
    List.find?_eq_none]
  refine and_congr_right fun _ => ?_
  simp only [decide_eq_true_eq, List.mem_map, not_exists, not_and]

/-- Entries stay compatible when one is added that is not refused. -/
lemma Compatible.concat (h : Compatible es) (he : refusal? es e = none) :
    Compatible (es ++ [e]) := by
  obtain ⟨hvalid, hfree⟩ := refusal?_eq_none_iff.1 he
  refine ⟨fun f hf => ?_, ?_⟩
  · rcases List.mem_append.1 hf with hf | hf
    · exact h.valid f hf
    · rw [List.mem_singleton.1 hf]
      exact hvalid
  · rw [List.map_append, List.map_singleton]
    refine h.nodup.append (List.nodup_singleton _) ?_
    intro t ht ht'
    rw [List.mem_singleton.1 ht'] at ht
    exact hfree ht

/-- A list of entries is compatible, or it has a first entry that is refused after those before
it. -/
theorem compatible_or_refused (es : List Registration) :
    Compatible es ∨ ∃ earlier e later cause,
      es = earlier ++ e :: later ∧ Compatible earlier ∧ refusal? earlier e = some cause := by
  induction es using List.reverseRecOn with
  | nil => exact .inl compatible_nil
  | append_singleton es e ih =>
    rcases ih with h | ⟨earlier, f, later, cause, rfl, hearlier, hf⟩
    · cases he : refusal? es e with
      | none => exact .inl (h.concat he)
      | some cause => exact .inr ⟨es, e, [], cause, rfl, h, he⟩
    · exact .inr ⟨earlier, f, later ++ [e], cause, by simp, hearlier, hf⟩

end Registration

open Registration

/-! ## Gathering entries -/

namespace Registry

variable {es es' : List Registration} {e : Registration}

/-- The registry in which all given entries stand at their tags. -/
def gather (es : List Registration) : Registry := es.foldl insert empty

/-- Each of compatible entries is found under its tag. -/
lemma lookup_gather_of_mem (h : Compatible es) (he : e ∈ es) :
    (gather es).lookup e.tag = some e :=
  lookup_foldl_insert_of_mem h.valid h.nodup he

/-- Nothing is found under any other tag. -/
lemma lookup_gather_of_notMem (h : Compatible es) {t : Tag} (ht : t ∉ es.map Registration.tag) :
    (gather es).lookup t = none :=
  (lookup_foldl_insert_of_notMem h.valid ht).trans lookup_empty

/-- What is found under a tag is one of the entries, and the tag is its own. -/
lemma lookup_gather_eq_some_iff (h : Compatible es) {t : Tag} :
    (gather es).lookup t = some e ↔ e ∈ es ∧ e.tag = t := by
  constructor
  · intro hl
    by_cases ht : t ∈ es.map Registration.tag
    · obtain ⟨f, hf, rfl⟩ := List.mem_map.1 ht
      rw [lookup_gather_of_mem h hf] at hl
      cases hl
      exact ⟨hf, rfl⟩
    · rw [lookup_gather_of_notMem h ht] at hl
      cases hl
  · rintro ⟨he, rfl⟩
    exact lookup_gather_of_mem h he

/-- The order in which compatible entries are gathered does not matter. -/
theorem gather_perm (h : Compatible es) (hp : es'.Perm es) : gather es' = gather es := by
  refine ext_lookup fun t => ?_
  have h' := h.perm hp
  refine Option.ext fun e => ?_
  rw [lookup_gather_eq_some_iff h, lookup_gather_eq_some_iff h', hp.mem_iff]

/-- Compatible entries are all added to the empty registry. -/
lemma registerAll_empty_of_compatible (h : Compatible es) :
    empty.registerAll es = (.ok (), gather es) :=
  registerAll_of_free h.valid h.nodup fun _ _ => lookup_empty

/-- Compatible entries make up a registry. -/
lemma ofRegistrations_of_compatible (h : Compatible es) :
    ofRegistrations es = .ok (gather es) := by
  rw [ofRegistrations, registerAll_empty_of_compatible h]

/-- A registry of compatible entries refuses another one for the reason that the entries give. -/
lemma register_gather_of_refusal (h : Compatible es) {cause : Error}
    (he : refusal? es e = some cause) : (gather es).register e = (.error cause, gather es) := by
  rw [refusal?, Option.or_eq_some_iff] at he
  rcases he with hfault | ⟨hnone, hcollision⟩
  · exact register_of_error (place_of_fault hfault)
  · obtain ⟨f, hf, rfl⟩ := Option.map_eq_some_iff.1 hcollision
    have htag : f.tag = e.tag := by simpa using List.find?_some hf
    have hlookup : (gather es).lookup e.tag = some f := by
      rw [← htag]
      exact lookup_gather_of_mem h (List.mem_of_find?_eq_some hf)
    exact register_of_some (fault?_eq_none_iff.1 hnone) hlookup

/-- Entries are refused at the first one that cannot follow those before it. -/
lemma ofRegistrations_of_refusal (h : Compatible es) {cause : Error}
    (he : refusal? es e = some cause) (later : List Registration) :
    ofRegistrations (es ++ e :: later) = .error cause := by
  rw [ofRegistrations, registerAll_append (registerAll_empty_of_compatible h), registerAll,
    register_gather_of_refusal h he]

/-! ## Entries by tag -/

/-- The node types stand in the order of their tags. -/
lemma pairwise_tag_all : NodeType.all.Pairwise fun s t => s.tag.code < t.tag.code := by
  have hindex : (NodeType.all.map NodeType.index).Pairwise (· < ·) := by
    rw [NodeType.map_index_all]
    exact List.pairwise_lt_range
  refine (List.pairwise_map.1 hindex).imp fun {s t} hlt => ?_
  rw [Int32.lt_iff_toInt_lt, s.code_tag, t.code_tag]
  exact Int.ofNat_lt.2 hlt

/-- Entries that are found under their own tags stand in the order of their tags. -/
lemma pairwise_registrations {r : Registry} (h : ∀ t e, r.lookup t = some e → e.tag = t) :
    r.registrations.Pairwise fun e f => e.tag.code < f.tag.code := by
  rw [registrations_eq, List.pairwise_filterMap]
  refine pairwise_tag_all.imp fun {s t} hlt e he f hf => ?_
  rw [h s.tag e he, h t.tag f hf]
  exact hlt

/-- The entries of a gathered registry stand in the order of their tags. -/
lemma pairwise_registrations_gather (h : Compatible es) :
    (gather es).registrations.Pairwise fun e f => e.tag.code < f.tag.code :=
  pairwise_registrations fun _ _ he => ((lookup_gather_eq_some_iff h).1 he).2

/-- The entries of a gathered registry are those that were gathered. -/
lemma registrations_gather_perm (h : Compatible es) : (gather es).registrations.Perm es := by
  have hnodup : (gather es).registrations.Nodup :=
    (pairwise_registrations_gather h).imp fun {e f} hlt heq => by
      rw [heq] at hlt
      exact Int32.lt_irrefl hlt
  refine (List.perm_ext_iff_of_nodup hnodup (List.Nodup.of_map _ h.nodup)).2 fun e => ?_
  rw [registrations_eq, List.mem_filterMap]
  constructor
  · rintro ⟨ty, _, hl⟩
    exact ((lookup_gather_eq_some_iff h).1 hl).1
  · intro he
    obtain ⟨ty, hty⟩ := Tag.listed_iff_exists.1 (h.valid e he).listed
    refine ⟨ty, ty.mem_all, ?_⟩
    rw [← hty]
    exact lookup_gather_of_mem h he

/-! ## Installing submitted entries -/

/-- The record says that an entry takes the place of the standard kind of its tag. -/
def Displaces (e : Registration) (record : Record) : Prop :=
  ∃ ty : NodeType, e.tag = ty.tag ∧ record = .replaced e.name (Kind.standard ty).name e.tag

/-- Installing a valid entry puts it at its tag and logs whose place it took, if anyone's. -/
lemma install_of_valid (r : Registry) (he : e.Valid) :
    r.install e = ⟨((r.lookup e.tag).map fun p => Record.replaced e.name p.name e.tag).toList,
      .ok (r.insert e)⟩ := by
  simp only [install, replace_of_valid he]
  cases r.lookup e.tag <;> rfl

/-- Installing compatible entries inserts them one after the other.  Each displaces what was there
before the first of them. -/
lemma foldlM_install (h : Compatible es) (r : Registry) :
    es.foldlM install r =
      ⟨es.filterMap fun e => (r.lookup e.tag).map fun p => .replaced e.name p.name e.tag,
        .ok (es.foldl insert r)⟩ := by
  induction es generalizing r with
  | nil => rfl
  | cons e es ih =>
    have he : e.Valid := h.valid e List.mem_cons_self
    have hnodup := h.nodup
    rw [List.map_cons, List.nodup_cons] at hnodup
    have htail : Compatible es := ⟨fun f hf => h.valid f (List.mem_cons_of_mem e hf), hnodup.2⟩
    have hother : ∀ f ∈ es, (r.insert e).lookup f.tag = r.lookup f.tag := by
      intro f hf
      have hne : f.tag ≠ e.tag := fun heq => hnodup.1 (heq ▸ List.mem_map_of_mem hf)
      rw [lookup_insert he.listed, if_neg hne]
    have hrecords : (es.filterMap fun f => ((r.insert e).lookup f.tag).map fun p =>
        Record.replaced f.name p.name f.tag) =
        es.filterMap fun f => (r.lookup f.tag).map fun p => .replaced f.name p.name f.tag :=
      List.filterMap_congr fun f hf => by rw [hother f hf]
    rw [List.foldlM_cons, install_of_valid r he, List.foldl_cons, Traced.bind_eq, Traced.andThen]
    dsimp only
    rw [ih htail, hrecords, Traced.after]
    cases hl : r.lookup e.tag with
    | none => simp [hl]
    | some p => simp [hl]

/-- The standard registry with entries inserted over it. -/
def overlay (es : List Registration) : Registry := es.foldl insert standard

/-- Over the standard registry, each of compatible entries is found under its tag. -/
lemma lookup_overlay_of_mem (h : Compatible es) (he : e ∈ es) :
    (overlay es).lookup e.tag = some e :=
  lookup_foldl_insert_of_mem h.valid h.nodup he

/-- Under every other tag the standard kind is found. -/
lemma lookup_overlay_of_notMem (h : Compatible es) {t : Tag} (ht : t ∉ es.map Registration.tag) :
    (overlay es).lookup t = t.type?.map fun ty => (Kind.standard ty).registration :=
  (lookup_foldl_insert_of_notMem h.valid ht).trans (lookup_standard t)

/-- Over the standard registry the order of compatible entries does not matter. -/
lemma overlay_perm (h : Compatible es) (hp : es'.Perm es) : overlay es' = overlay es := by
  have h' := h.perm hp
  refine ext_lookup fun t => ?_
  by_cases ht : t ∈ es.map Registration.tag
  · obtain ⟨e, he, rfl⟩ := List.mem_map.1 ht
    rw [lookup_overlay_of_mem h he, lookup_overlay_of_mem h' (hp.mem_iff.2 he)]
  · have ht' : t ∉ es'.map Registration.tag := fun hmem => ht ((hp.map _).mem_iff.1 hmem)
    rw [lookup_overlay_of_notMem h ht, lookup_overlay_of_notMem h' ht']

/-- Over the standard registry every tag on the list has an entry. -/
lemma handles_overlay (h : Compatible es) {t : Tag} (ht : t.Listed) :
    (overlay es).handles t = true := by
  rw [handles]
  by_cases hmem : t ∈ es.map Registration.tag
  · obtain ⟨e, he, rfl⟩ := List.mem_map.1 hmem
    rw [lookup_overlay_of_mem h he]
    rfl
  · obtain ⟨ty, rfl⟩ := Tag.listed_iff_exists.1 ht
    rw [lookup_overlay_of_notMem h hmem, NodeType.type?_tag]
    rfl

/-- Over the standard registry no node type is without an entry. -/
lemma missing_overlay (h : Compatible es) : (overlay es).missing = [] := by
  refine List.filter_eq_nil_iff.2 fun ty _ => ?_
  simp [handles_overlay h (Tag.listed_tag ty)]

/-- A registry has as many entries as there are node types that it does not lack. -/
lemma length_add_length_missing (r : Registry) :
    r.length + r.missing.length = NodeType.count := by
  have hlength : r.length = NodeType.all.countP fun ty => r.handles ty.tag := by
    rw [length, registrations_eq, List.length_filterMap_eq_countP]
    rfl
  have hmissing : r.missing.length = NodeType.all.countP fun ty => !r.handles ty.tag := by
    rw [missing, List.countP_eq_length_filter]
  rw [hlength, hmissing, ← NodeType.length_all]
  have hcount := List.length_eq_countP_add_countP (fun ty => r.handles ty.tag) (l := NodeType.all)
  simpa using hcount.symm

/-- The records of installing valid entries over the standard ones: one for each. -/
lemma displaces_installed (hvalid : ∀ e ∈ es, e.Valid) :
    List.Forall₂ Displaces es
      (es.filterMap fun e => (standard.lookup e.tag).map fun p =>
        .replaced e.name p.name e.tag) := by
  induction es with
  | nil => exact .nil
  | cons e es ih =>
    obtain ⟨ty, hty⟩ := Tag.listed_iff_exists.1 (hvalid e List.mem_cons_self).listed
    have hstandard : standard.lookup e.tag = some (Kind.standard ty).registration := by
      rw [lookup_standard, hty, NodeType.type?_tag, Option.map_some]
    have htail := ih fun f hf => hvalid f (List.mem_cons_of_mem e hf)
    have hhead : ((standard.lookup e.tag).map fun p => Record.replaced e.name p.name e.tag) =
        some (.replaced e.name (Kind.standard ty).name e.tag) := by
      rw [hstandard]
      rfl
    rw [List.filterMap_cons, hhead]
    exact .cons ⟨ty, hty, rfl⟩ htail

/-- What is built from compatible entries: the standard registry with the entries over it, and a
log of their installation by tag. -/
lemma builtin_of_compatible (h : Compatible es) :
    builtin es =
      ⟨((gather es).registrations.filterMap fun e => (standard.lookup e.tag).map fun p =>
          .replaced e.name p.name e.tag) ++ [.built 83 0],
        .ok (overlay es)⟩ := by
  have hperm := registrations_gather_perm h
  have hsorted := h.perm hperm
  have hinstalled : overlay (gather es).registrations = overlay es := overlay_perm h hperm
  have hmissing := missing_overlay h
  have hlength : (overlay es).length = 83 := by
    have hsum := length_add_length_missing (overlay es)
    rw [hmissing] at hsum
    exact hsum
  rw [overlay] at hinstalled
  rw [builtin, ofRegistrations_standardEntries, ofRegistrations_of_compatible h]
  simp only [Traced.ofExcept, Traced.bind_eq, Traced.ok_andThen]
  rw [foldlM_install hsorted, hinstalled]
  simp [Traced.andThen, Traced.after, Traced.log, Traced.ok, hlength, hmissing]

/-- Nothing is built, and nothing logged, if an entry is refused; the refusal is the error. -/
lemma builtin_of_refusal (h : Compatible es) {cause : Error} (he : refusal? es e = some cause)
    (later : List Registration) :
    builtin (es ++ e :: later) = Traced.error cause := by
  simp only [builtin, ofRegistrations_standardEntries, ofRegistrations_of_refusal h he]
  rfl

/-- Building succeeds exactly on compatible entries, with the standard registry under them. -/
theorem builtin_eq_ok_iff {r : Registry} :
    (builtin es).outcome = .ok r ↔ Compatible es ∧ r = overlay es := by
  constructor
  · intro hr
    rcases compatible_or_refused es with h | ⟨earlier, e, later, cause, rfl, hearlier, he⟩
    · rw [builtin_of_compatible h] at hr
      exact ⟨h, (Except.ok.inj hr).symm⟩
    · rw [builtin_of_refusal hearlier he later] at hr
      cases hr
  · rintro ⟨h, rfl⟩
    rw [builtin_of_compatible h]

/-- Building fails exactly if there is a first entry that cannot follow those before it, and with
its refusal. -/
theorem builtin_eq_error_iff {f : Failure} :
    (builtin es).outcome = .error f ↔ ∃ earlier e later cause, es = earlier ++ e :: later ∧
      Compatible earlier ∧ refusal? earlier e = some cause ∧ f = .error cause := by
  constructor
  · intro hf
    rcases compatible_or_refused es with h | ⟨earlier, e, later, cause, rfl, hearlier, he⟩
    · rw [builtin_of_compatible h] at hf
      cases hf
    · rw [builtin_of_refusal hearlier he later] at hf
      exact ⟨earlier, e, later, cause, rfl, hearlier, he, (Except.error.inj hf).symm⟩
  · rintro ⟨earlier, e, later, cause, rfl, hearlier, he, rfl⟩
    rw [builtin_of_refusal hearlier he later]
    rfl

/-- The records of building are of the more important level. -/
lemma level_of_mem_records_builtin (h : Compatible es) {record : Record}
    (hrecord : record ∈ (builtin es).records) : record.level = .debug := by
  rw [builtin_of_compatible h, List.mem_append] at hrecord
  rcases hrecord with hreplaced | hcomplete
  · obtain ⟨e, _, hmap⟩ := List.mem_filterMap.1 hreplaced
    obtain ⟨p, _, rfl⟩ := Option.map_eq_some_iff.1 hmap
    rfl
  · rw [List.mem_singleton.1 hcomplete]
    rfl

/-- The order in which compatible entries were submitted shows neither in the registry that is
built nor in its log. -/
lemma builtin_perm (h : Compatible es) (hp : es'.Perm es) : builtin es' = builtin es := by
  rw [builtin_of_compatible h, builtin_of_compatible (h.perm hp), gather_perm h hp,
    overlay_perm h hp]

end Registry

/-- **The built-in registry.**  Building succeeds exactly if every submitted entry is valid and no
two have the same tag.  Then each submitted entry is found under its tag and the standard kind under
every other; every tag on the list has an entry and no node type is missing; the log tells of each
submitted entry, in the order of the tags, which standard kind it displaced, and then that the
registry is complete; and any other order of the submitted entries gives the same registry and the
same log.  Otherwise the error is that of the first submitted entry that is faulty or whose tag an
earlier one has taken. -/
theorem builtin_overlays_submitted (submitted : List Registration) :
    ((∃ r, (Registry.builtin submitted).outcome = .ok r) ↔
        (∀ e ∈ submitted, e.Valid) ∧ (submitted.map Registration.tag).Nodup) ∧
      (∀ r, (Registry.builtin submitted).outcome = .ok r →
        (∀ e ∈ submitted, r.lookup e.tag = some e) ∧
        (∀ t, t ∉ submitted.map Registration.tag →
          r.lookup t = t.type?.map fun ty => (Kind.standard ty).registration) ∧
        (∀ t : Tag, t.Listed → r.handles t = true) ∧
        r.missing = [] ∧
        (∃ sorted replaced, sorted.Perm submitted ∧
          sorted.Pairwise (fun e f => e.tag.code < f.tag.code) ∧
          List.Forall₂ Registry.Displaces sorted replaced ∧
          (Registry.builtin submitted).records = replaced ++ [.built 83 0]) ∧
        (∀ record ∈ (Registry.builtin submitted).records, record.level = .debug) ∧
        ∀ reordered : List Registration, reordered.Perm submitted →
          Registry.builtin reordered = Registry.builtin submitted) ∧
      ∀ f, (Registry.builtin submitted).outcome = .error f ↔
        ∃ earlier e later cause, submitted = earlier ++ e :: later ∧
          Registration.Compatible earlier ∧ Registration.refusal? earlier e = some cause ∧
          f = .error cause := by
  refine ⟨?_, ?_, fun f => Registry.builtin_eq_error_iff⟩
  · constructor
    · rintro ⟨r, hr⟩
      obtain ⟨h, _⟩ := Registry.builtin_eq_ok_iff.1 hr
      exact ⟨h.valid, h.nodup⟩
    · rintro ⟨hvalid, hnodup⟩
      exact ⟨_, Registry.builtin_eq_ok_iff.2 ⟨⟨hvalid, hnodup⟩, rfl⟩⟩
  · intro r hr
    obtain ⟨h, rfl⟩ := Registry.builtin_eq_ok_iff.1 hr
    have hperm := Registry.registrations_gather_perm h
    have hdisplaces := Registry.displaces_installed (h.perm hperm).valid
    refine ⟨fun e he => Registry.lookup_overlay_of_mem h he,
      fun t ht => Registry.lookup_overlay_of_notMem h ht,
      fun t ht => Registry.handles_overlay h ht, Registry.missing_overlay h,
      ⟨_, _, hperm, Registry.pairwise_registrations_gather h, hdisplaces, ?_⟩,
      fun record hrecord => Registry.level_of_mem_records_builtin h hrecord,
      fun reordered hreordered => Registry.builtin_perm h hreordered⟩
    rw [Registry.builtin_of_compatible h]

end Pseudocode
