import Mathlib.Data.Finmap
import Pseudocode.Proofs.Registry.Table

/-!
# Registries as finite maps

Whatever is registered and replaced, in whatever order, a registry behaves as a finite map from
tags to entries.  The map knows nothing of tables and places: it refuses an entry for its tag, then
for the tags it answers for, then for a collision, and otherwise stores the entry under its tag.

What a call can do is said once, with the registry that it leaves (`register_cases`,
`replace_cases`); a refused call leaves the registry from before (`perform_of_refused`).

`Registry.Represents` is the relation between registry and map.  It holds of the empty registry and
the empty map, one call keeps it and gets the same reply on both sides (`represents_perform`), so a
whole run does (`represents_run`).  That every entry stands at its own tag and answers for it alone
is part of the relation; the table's order, its length and the node types it lacks are read off the
map.
-/

namespace Pseudocode

/-- A call that may change a registry. -/
inductive Call where
  | register (e : Registration)
  | replace (e : Registration)

/-- What a call is answered. -/
inductive Reply where
  | registered
  /-- The entry that had the tag before, if there was one. -/
  | replaced (previous : Option Registration)
  | refused (cause : Error)

/-- The reply to a call from what became of it. -/
def Reply.ofOutcome {α : Type} (accepted : α → Reply) : Except Error α → Reply
  | .ok a => accepted a
  | .error cause => .refused cause

/-- Calls made one after the other: the replies in order, and the state at the end. -/
def runCalls {S : Type} (perform : S → Call → Reply × S) (s : S) : List Call → List Reply × S
  | [] => ([], s)
  | c :: cs =>
    let rest := runCalls perform (perform s c).2 cs
    ((perform s c).1 :: rest.1, rest.2)

/-- A call of a registry: the reply, and the registry that the call leaves. -/
def Registry.perform (r : Registry) : Call → Reply × Registry
  | .register e => (.ofOutcome (fun _ => .registered) (r.register e).1, (r.register e).2)
  | .replace e => (.ofOutcome .replaced (r.replace e).1, (r.replace e).2)

/-! ## Faults of an entry -/

namespace Registration

/-- Whether an entry is exact can be found out by asking it for every node type. -/
instance (e : Registration) : Decidable e.Exact :=
  decidable_of_iff (e.handles e.tag = true ∧ e.handles .absent = false ∧
      ∀ ty ∈ NodeType.all, ty.tag ≠ e.tag → e.handles ty.tag = false) <| by
    constructor
    · rintro ⟨hown, hreserved, hall⟩
      refine ⟨hown, hreserved, fun t ht hne => ?_⟩
      obtain ⟨ty, rfl⟩ := Tag.listed_iff_exists.1 ht
      exact hall ty ty.mem_all hne
    · rintro ⟨hown, hreserved, hothers⟩
      exact ⟨hown, hreserved, fun ty _ hne => hothers ty.tag (Tag.listed_tag ty) hne⟩

/-- What is wrong with an entry by itself: first its tag, then the tags it answers for. -/
def fault? (e : Registration) : Option Error :=
  if e.tag.Listed then
    if e.Exact then none else some (.inconsistentRegistration e.tag e.name)
  else some (.invalidTag e.tag e.name)

/-- Nothing is wrong with an entry exactly if it is valid. -/
lemma fault?_eq_none_iff {e : Registration} : e.fault? = none ↔ e.Valid := by
  unfold fault?
  constructor
  · intro h
    split_ifs at h with hl hx
    exact ⟨hl, hx⟩
  · rintro ⟨hl, hx⟩
    rw [if_pos hl, if_pos hx]

/-- An entry with a fault has no place, and the fault is the reason. -/
lemma place_of_fault {e : Registration} {cause : Error} (h : e.fault? = some cause) :
    e.place = .error cause := by
  unfold fault? at h
  split_ifs at h with hl hx
  · rw [place_of_not_exact hl hx, Option.some.inj h]
  · rw [place_of_not_listed hl, Option.some.inj h]

end Registration

/-! ## How a call can end -/

namespace Registry

/-- Registering ends in one of three ways: the entry is faulty, its tag is taken, or it is
inserted. -/
lemma register_cases (r : Registry) (e : Registration) :
    (∃ cause, e.fault? = some cause ∧ r.register e = (.error cause, r)) ∨
      (∃ first, e.Valid ∧ r.lookup e.tag = some first ∧
        r.register e = (.error (.ambiguousTag e.tag first.name e.name), r)) ∨
      e.Valid ∧ r.lookup e.tag = none ∧ r.register e = (.ok (), r.insert e) := by
  cases hf : e.fault? with
  | some cause =>
    exact .inl ⟨cause, rfl, register_of_error (Registration.place_of_fault hf)⟩
  | none =>
    have he := Registration.fault?_eq_none_iff.1 hf
    cases hl : r.lookup e.tag with
    | some first => exact .inr (.inl ⟨first, he, rfl, register_of_some he hl⟩)
    | none => exact .inr (.inr ⟨he, rfl, register_of_none he hl⟩)

/-- Replacing ends in one of two ways: the entry is faulty, or it is inserted. -/
lemma replace_cases (r : Registry) (e : Registration) :
    (∃ cause, e.fault? = some cause ∧ r.replace e = (.error cause, r)) ∨
      e.Valid ∧ r.replace e = (.ok (r.lookup e.tag), r.insert e) := by
  cases hf : e.fault? with
  | some cause =>
    exact .inl ⟨cause, rfl, replace_of_error (Registration.place_of_fault hf)⟩
  | none =>
    have he := Registration.fault?_eq_none_iff.1 hf
    exact .inr ⟨he, replace_of_valid he⟩

variable {r : Registry}

/-- A registry that does not register an entry stays exactly as it was. -/
lemma register_of_refused {e : Registration} {cause : Error}
    (h : (r.register e).1 = .error cause) : (r.register e).2 = r := by
  rcases r.register_cases e with ⟨err, _, hr⟩ | ⟨first, _, _, hr⟩ | ⟨_, _, hr⟩
  · rw [hr]
  · rw [hr]
  · rw [hr] at h
    cases h

/-- A registry that does not replace by an entry stays exactly as it was. -/
lemma replace_of_refused {e : Registration} {cause : Error}
    (h : (r.replace e).1 = .error cause) : (r.replace e).2 = r := by
  rcases r.replace_cases e with ⟨err, _, hr⟩ | ⟨_, hr⟩
  · rw [hr]
  · rw [hr] at h
    cases h

/-- A registry that refuses a call stays exactly as it was. -/
lemma perform_of_refused {c : Call} {cause : Error} (h : (r.perform c).1 = .refused cause) :
    (r.perform c).2 = r := by
  cases c with
  | register e =>
    cases ho : (r.register e).1 with
    | ok a =>
      rw [perform, ho] at h
      cases h
    | error err => exact register_of_refused ho
  | replace e =>
    cases ho : (r.replace e).1 with
    | ok previous =>
      rw [perform, ho] at h
      cases h
    | error err => exact replace_of_refused ho

end Registry

/-! ## The map -/

/-- A finite map from tags to entries. -/
abbrev TagMap := Finmap fun _ : Tag => Registration

namespace TagMap

/-- A call of a map.  A faulty entry is refused for its fault; registering also refuses an entry
whose tag is taken, naming the holder first. -/
def perform (m : TagMap) : Call → Reply × TagMap
  | .register e =>
    match e.fault? with
    | some cause => (.refused cause, m)
    | none =>
      match m.lookup e.tag with
      | some first => (.refused (.ambiguousTag e.tag first.name e.name), m)
      | none => (.registered, m.insert e.tag e)
  | .replace e =>
    match e.fault? with
    | some cause => (.refused cause, m)
    | none => (.replaced (m.lookup e.tag), m.insert e.tag e)

end TagMap

/-! ## The simulation -/

namespace Registry

/-- A registry and a map hold the same entries, each valid and under its own tag. -/
structure Represents (r : Registry) (m : TagMap) : Prop where
  lookup_eq : ∀ t, r.lookup t = m.lookup t
  tag_eq : ∀ t e, m.lookup t = some e → e.tag = t
  valid : ∀ t e, m.lookup t = some e → e.Valid

/-- The empty registry is the empty map. -/
lemma represents_empty : empty.Represents ∅ where
  lookup_eq t := by rw [lookup_empty, Finmap.lookup_empty]
  tag_eq t e h := by simp at h
  valid t e h := by simp at h

variable {r : Registry} {m : TagMap}

/-- The lookup of an entry that was stored last. -/
lemma lookup_insert_map (m : TagMap) (e : Registration) (t : Tag) :
    (m.insert e.tag e).lookup t = if t = e.tag then some e else m.lookup t := by
  split_ifs with h
  · rw [h, Finmap.lookup_insert]
  · exact Finmap.lookup_insert_of_ne m h

/-- Storing a valid entry keeps registry and map together. -/
lemma Represents.insert (h : r.Represents m) {e : Registration} (he : e.Valid) :
    (r.insert e).Represents (m.insert e.tag e) where
  lookup_eq t := by rw [lookup_insert he.listed, lookup_insert_map, h.lookup_eq]
  tag_eq t e' h' := by
    rw [lookup_insert_map] at h'
    split_ifs at h' with ht
    · rw [← Option.some.inj h', ht]
    · exact h.tag_eq t e' h'
  valid t e' h' := by
    rw [lookup_insert_map] at h'
    split_ifs at h' with ht
    · rwa [← Option.some.inj h']
    · exact h.valid t e' h'

/-- A call gets the same reply from a registry and from the map it represents, and they stay
together. -/
theorem represents_perform (h : r.Represents m) (c : Call) :
    (r.perform c).1 = (m.perform c).1 ∧ (r.perform c).2.Represents (m.perform c).2 := by
  cases c with
  | register e =>
    rcases r.register_cases e with ⟨cause, hf, hr⟩ | ⟨first, he, hl, hr⟩ | ⟨he, hl, hr⟩
    · simp only [perform, TagMap.perform, Reply.ofOutcome, hf, hr]
      exact ⟨trivial, h⟩
    · have hf := Registration.fault?_eq_none_iff.2 he
      have hm : m.lookup e.tag = some first := (h.lookup_eq e.tag).symm.trans hl
      simp only [perform, TagMap.perform, Reply.ofOutcome, hf, hm, hr]
      exact ⟨trivial, h⟩
    · have hf := Registration.fault?_eq_none_iff.2 he
      have hm : m.lookup e.tag = none := (h.lookup_eq e.tag).symm.trans hl
      simp only [perform, TagMap.perform, Reply.ofOutcome, hf, hm, hr]
      exact ⟨trivial, h.insert he⟩
  | replace e =>
    rcases r.replace_cases e with ⟨cause, hf, hr⟩ | ⟨he, hr⟩
    · simp only [perform, TagMap.perform, Reply.ofOutcome, hf, hr]
      exact ⟨trivial, h⟩
    · have hf := Registration.fault?_eq_none_iff.2 he
      simp only [perform, TagMap.perform, Reply.ofOutcome, hf, hr, h.lookup_eq]
      exact ⟨trivial, h.insert he⟩

/-- A run of calls gets the same replies from a registry and from the map it represents, and they
stay together. -/
theorem represents_run (h : r.Represents m) (cs : List Call) :
    (runCalls perform r cs).1 = (runCalls TagMap.perform m cs).1 ∧
      (runCalls perform r cs).2.Represents (runCalls TagMap.perform m cs).2 := by
  induction cs generalizing r m with
  | nil => exact ⟨rfl, h⟩
  | cons c cs ih =>
    obtain ⟨hreply, hnext⟩ := represents_perform h c
    obtain ⟨hreplies, hend⟩ := ih hnext
    simp only [runCalls]
    exact ⟨by rw [hreply, hreplies], hend⟩

/-! ## What a map says about its registry -/

/-- A tag has an entry exactly if it is in the map. -/
lemma Represents.handles_eq (h : r.Represents m) (t : Tag) : r.handles t = decide (t ∈ m) := by
  rw [handles, h.lookup_eq, Bool.eq_iff_iff, Finmap.lookup_isSome, decide_eq_true_iff]

/-- Of two tags on the list, the entry of the one answers for the other only if they are equal. -/
lemma Represents.handles_iff (h : r.Represents m) {t u : Tag} {e : Registration}
    (he : r.lookup u = some e) (ht : t.Listed) : e.handles t = true ↔ t = u := by
  have hm : m.lookup u = some e := (h.lookup_eq u).symm.trans he
  have htag := h.tag_eq u e hm
  have hexact := (h.valid u e hm).isExact
  constructor
  · intro hh
    by_contra hne
    have hfalse := hexact.others t ht (htag ▸ hne)
    rw [hfalse] at hh
    exact Bool.false_ne_true hh
  · rintro rfl
    rw [← htag]
    exact hexact.own

/-- A tag on the list is answered for by one entry if it is in the map, and else by none. -/
lemma Represents.countP_handles (h : r.Represents m) {t : Tag} (ht : t.Listed) :
    (r.registrations.countP fun e => e.handles t) = if t ∈ m then 1 else 0 := by
  obtain ⟨ty, rfl⟩ := Tag.listed_iff_exists.1 ht
  rw [registrations_eq, List.countP_filterMap]
  split_ifs with hm
  · obtain ⟨e, he⟩ := Finmap.mem_iff.1 hm
    have hr : r.lookup ty.tag = some e := (h.lookup_eq ty.tag).trans he
    have hpred : ∀ u ∈ NodeType.all,
        ((r.lookup u.tag).map fun e => e.handles ty.tag).getD false = true ↔ (u == ty) = true := by
      intro u _
      rw [beq_iff_eq]
      constructor
      · intro hu
        cases hl : r.lookup u.tag with
        | none => simp [hl] at hu
        | some e' =>
          rw [hl] at hu
          exact (NodeType.tag_injective ((h.handles_iff hl ht).1 hu)).symm
      · rintro rfl
        rw [hr]
        exact (h.handles_iff hr ht).2 rfl
    rw [List.countP_congr hpred]
    exact List.count_eq_one_of_mem NodeType.nodup_all ty.mem_all
  · refine List.countP_eq_zero.2 fun u _ hu => hm ?_
    cases hl : r.lookup u.tag with
    | none => simp [hl] at hu
    | some e' =>
      rw [hl] at hu
      have heq : ty.tag = u.tag := (h.handles_iff hl ht).1 hu
      rw [heq]
      exact Finmap.mem_iff.2 ⟨e', (h.lookup_eq u.tag).symm.trans hl⟩

/-- The entries are the values of the map in the order of their tags. -/
lemma Represents.registrations_eq (h : r.Represents m) :
    r.registrations = NodeType.all.filterMap fun ty => m.lookup ty.tag := by
  rw [Registry.registrations_eq]
  exact List.filterMap_congr fun ty _ => h.lookup_eq ty.tag

/-- The entries are those that are found under their own tags. -/
lemma Represents.mem_registrations_iff (h : r.Represents m) {e : Registration} :
    e ∈ r.registrations ↔ r.lookup e.tag = some e := by
  refine ⟨fun he => ?_, mem_registrations_of_lookup⟩
  rw [Registry.registrations_eq] at he
  obtain ⟨ty, _, hl⟩ := List.mem_filterMap.1 he
  have htag : e.tag = ty.tag := h.tag_eq ty.tag e ((h.lookup_eq ty.tag).symm.trans hl)
  rwa [htag]

/-- The node types without an entry are those whose tags are not in the map. -/
lemma Represents.missing_eq (h : r.Represents m) :
    r.missing = NodeType.all.filter fun ty => decide (ty.tag ∉ m) := by
  refine List.filter_congr fun ty _ => ?_
  rw [h.handles_eq, decide_not]

/-- The keys of a map that a registry represents are tags of node types. -/
lemma Represents.keys_eq (h : r.Represents m) :
    m.keys = ((NodeType.all.filter fun ty => decide (ty.tag ∈ m)).map NodeType.tag).toFinset := by
  ext t
  rw [Finmap.mem_keys, List.mem_toFinset, List.mem_map]
  constructor
  · intro ht
    obtain ⟨e, he⟩ := Finmap.mem_iff.1 ht
    have hlisted : t.Listed := h.tag_eq t e he ▸ (h.valid t e he).listed
    obtain ⟨ty, rfl⟩ := Tag.listed_iff_exists.1 hlisted
    exact ⟨ty, List.mem_filter.2 ⟨ty.mem_all, decide_eq_true ht⟩, rfl⟩
  · rintro ⟨ty, hty, rfl⟩
    exact of_decide_eq_true (List.mem_filter.1 hty).2

/-- There are as many entries as keys. -/
lemma Represents.length_eq (h : r.Represents m) : r.length = m.keys.card := by
  have hnodup : ((NodeType.all.filter fun ty => decide (ty.tag ∈ m)).map NodeType.tag).Nodup :=
    (NodeType.nodup_all.filter _).map NodeType.tag_injective
  rw [h.keys_eq, List.toFinset_card_of_nodup hnodup, List.length_map,
    ← List.countP_eq_length_filter, length, h.registrations_eq,
    List.length_filterMap_eq_countP]
  refine List.countP_congr fun ty _ => ?_
  rw [Finmap.lookup_isSome, decide_eq_true_iff]

/-- A registry registers an entry exactly if the entry is valid and its tag is not in the map. -/
lemma Represents.register_isOk_iff (h : r.Represents m) (e : Registration) :
    (r.register e).1 = .ok () ↔ e.Valid ∧ e.tag ∉ m := by
  have hfree : r.lookup e.tag = none ↔ e.tag ∉ m := by rw [h.lookup_eq, Finmap.lookup_eq_none]
  constructor
  · intro hok
    rcases r.register_cases e with ⟨cause, _, hr⟩ | ⟨first, _, _, hr⟩ | ⟨he, hl, _⟩
    · rw [hr] at hok
      cases hok
    · rw [hr] at hok
      cases hok
    · exact ⟨he, hfree.1 hl⟩
  · rintro ⟨he, hm⟩
    rw [register_of_none he (hfree.2 hm)]

/-- A registry replaces by an entry exactly if the entry is valid. -/
lemma replace_isOk_iff (r : Registry) (e : Registration) :
    (∃ previous, (r.replace e).1 = .ok previous) ↔ e.Valid := by
  constructor
  · rintro ⟨previous, hok⟩
    rcases r.replace_cases e with ⟨cause, _, hr⟩ | ⟨he, _⟩
    · rw [hr] at hok
      cases hok
    · exact he
  · intro he
    rw [replace_of_valid he]
    exact ⟨_, rfl⟩

end Registry

/-- **Registries are finite maps.**  Any run of calls from the empty registry is answered as the
same run from the empty map.  At its end the registry registers exactly the valid entries for free
tags, replaces by exactly the valid entries, and stays as it is when it refuses a call; its lookup
is that of the map, at every tag, and finds entries under their own tags only; a tag on the list is
answered for by exactly one of the entries if it is in the map and by none if not; and the entries
in order, their number and the node types without one are those of the map. -/
theorem registry_run_simulates_map (cs : List Call) :
    let run := runCalls Registry.perform .empty cs
    let mapRun := runCalls TagMap.perform ∅ cs
    let r := run.2
    let m := mapRun.2
    run.1 = mapRun.1 ∧
      (∀ e, (r.register e).1 = .ok () ↔ e.Valid ∧ e.tag ∉ m) ∧
      (∀ e, (∃ previous, (r.replace e).1 = .ok previous) ↔ e.Valid) ∧
      (∀ c cause, (r.perform c).1 = .refused cause → (r.perform c).2 = r) ∧
      (∀ t, r.lookup t = m.lookup t) ∧
      (∀ t e, r.lookup t = some e → e.tag = t) ∧
      (∀ t : Tag, t.Listed →
        (r.registrations.countP fun e => e.handles t) = if t ∈ m then 1 else 0) ∧
      r.registrations = (NodeType.all.filterMap fun ty => m.lookup ty.tag) ∧
      r.length = m.keys.card ∧
      r.missing = NodeType.all.filter fun ty => decide (ty.tag ∉ m) := by
  obtain ⟨hreplies, h⟩ := Registry.represents_run Registry.represents_empty cs
  refine ⟨hreplies, h.register_isOk_iff, Registry.replace_isOk_iff _,
    fun c cause => Registry.perform_of_refused, h.lookup_eq, ?_, fun t ht => h.countP_handles ht,
    h.registrations_eq, h.length_eq, h.missing_eq⟩
  intro t e he
  exact h.tag_eq t e ((h.lookup_eq t).symm.trans he)

end Pseudocode
