import Pseudocode.Proofs.Registry.Builtin

/-!
# Registries from their entries

A registry can be taken apart into the list of its entries and put together again.  Putting together
asks that the entries are compatible, and asks nothing about their order: compatible entries make
the same registry in any order, and entries that are not compatible make none in any order, although
the error may differ.

The entries of a registry that was built by calls are compatible, since each stands at its own tag
and was valid when it entered (`Represents.compatible_registrations`).  They are all that the
registry holds, so gathering them gives the registry back (`Represents.gather_registrations`).
-/

namespace Pseudocode

open Registration

namespace Registry

variable {r : Registry} {m : TagMap} {es es' : List Registration}

/-! ## Putting together -/

/-- Entries make up a registry exactly if they are compatible, and then it is the one in which all
of them are gathered. -/
theorem ofRegistrations_eq_ok_iff : ofRegistrations es = .ok r ↔ Compatible es ∧ r = gather es := by
  constructor
  · intro hr
    rcases compatible_or_refused es with h | ⟨earlier, e, later, cause, rfl, hearlier, he⟩
    · rw [ofRegistrations_of_compatible h] at hr
      exact ⟨h, (Except.ok.inj hr).symm⟩
    · rw [ofRegistrations_of_refusal hearlier he later] at hr
      cases hr
  · rintro ⟨h, rfl⟩
    exact ofRegistrations_of_compatible h

/-- Entries that are not compatible are refused. -/
lemma exists_error_of_not_compatible (h : ¬ Compatible es) :
    ∃ cause, ofRegistrations es = .error cause := by
  rcases hr : ofRegistrations es with cause | r
  · exact ⟨cause, rfl⟩
  · exact absurd (ofRegistrations_eq_ok_iff.1 hr).1 h

/-- Reordered entries make the same registry, or neither list makes one. -/
theorem ofRegistrations_perm (hp : es'.Perm es) :
    (∃ r, ofRegistrations es = .ok r ∧ ofRegistrations es' = .ok r) ∨
      (∃ cause, ofRegistrations es = .error cause) ∧
        ∃ cause, ofRegistrations es' = .error cause := by
  by_cases h : Compatible es
  · have hsame : ofRegistrations es' = .ok (gather es) := by
      rw [ofRegistrations_of_compatible (h.perm hp), gather_perm h hp]
    exact .inl ⟨gather es, ofRegistrations_of_compatible h, hsame⟩
  · -- A fault or a collision is a property of the entries as a set, so no order can hide it.
    have h' : ¬ Compatible es' := fun hc => h (hc.perm hp.symm)
    exact .inr ⟨exists_error_of_not_compatible h, exists_error_of_not_compatible h'⟩

/-! ## Taking apart -/

/-- The entries of a registry that represents a map are compatible. -/
lemma Represents.compatible_registrations (h : r.Represents m) : Compatible r.registrations := by
  have hown : ∀ t e, r.lookup t = some e → e.tag = t := fun t e he =>
    h.tag_eq t e ((h.lookup_eq t).symm.trans he)
  refine ⟨fun e he => ?_, ?_⟩
  · have hl := h.mem_registrations_iff.1 he
    exact h.valid e.tag e ((h.lookup_eq e.tag).symm.trans hl)
  · refine List.pairwise_map.2 ((pairwise_registrations hown).imp fun {e f} hlt heq => ?_)
    rw [heq] at hlt
    exact Int32.lt_irrefl hlt

/-- Gathering the entries of a registry that represents a map gives the registry back. -/
theorem Represents.gather_registrations (h : r.Represents m) : gather r.registrations = r := by
  refine ext_lookup fun t => Option.ext fun e => ?_
  rw [lookup_gather_eq_some_iff h.compatible_registrations, h.mem_registrations_iff]
  constructor
  · rintro ⟨hl, rfl⟩
    exact hl
  · intro hl
    have htag : e.tag = t := h.tag_eq t e ((h.lookup_eq t).symm.trans hl)
    exact ⟨htag ▸ hl, htag⟩

end Registry

/-- **Registries are rebuilt from their entries, in any order.**  Entries make up a registry exactly
if each of them is valid and no two have the same tag.  Reordered entries make the same registry, or
neither order makes one.  A registry that was built by calls is made by its own entries, in whatever
order they are added. -/
theorem registry_rebuilt_from_entries_in_any_order :
    (∀ es : List Registration, (∃ r, Registry.ofRegistrations es = .ok r) ↔
        (∀ e ∈ es, e.Valid) ∧ (es.map Registration.tag).Nodup) ∧
      (∀ es es' : List Registration, es'.Perm es →
        (∃ r, Registry.ofRegistrations es = .ok r ∧ Registry.ofRegistrations es' = .ok r) ∨
          (∃ cause, Registry.ofRegistrations es = .error cause) ∧
            ∃ cause, Registry.ofRegistrations es' = .error cause) ∧
      ∀ (cs : List Call) (es : List Registration),
        es.Perm (runCalls Registry.perform .empty cs).2.registrations →
          Registry.ofRegistrations es = .ok (runCalls Registry.perform .empty cs).2 := by
  refine ⟨fun es => ?_, fun es es' hp => Registry.ofRegistrations_perm hp, fun cs es hp => ?_⟩
  · constructor
    · rintro ⟨r, hr⟩
      obtain ⟨h, _⟩ := Registry.ofRegistrations_eq_ok_iff.1 hr
      exact ⟨h.valid, h.nodup⟩
    · rintro ⟨hvalid, hnodup⟩
      exact ⟨_, Registry.ofRegistrations_of_compatible ⟨hvalid, hnodup⟩⟩
  · obtain ⟨_, hrep⟩ := Registry.represents_run Registry.represents_empty cs
    have hcompatible := hrep.compatible_registrations
    rw [Registry.ofRegistrations_of_compatible (hcompatible.perm hp),
      Registry.gather_perm hcompatible hp, hrep.gather_registrations]

end Pseudocode
