import Mathlib.Data.List.Forall2
import Mathlib.Logic.Relation
import Pseudocode.Item
import Pseudocode.Proofs.Registry.Standard

/-!
# Resolving and children

What resolving a handle can give, said once, and what follows for the children of an item: each
child is the resolution of a handle that one of the parent's positions answers, through the
parent's own registry.

A registry is faithful if each entry builds items of the class of the tag it stands at.  Through a
faithful registry no resolution is a breach, hence neither is any list of children; the standard
registry is faithful.
-/

namespace Pseudocode

universe u v

variable {α : Type u} {β : Type v}

/-! ## Results that are no breach -/

namespace Traced

/-- The result is a value or an error, but not a breach. -/
def Clean (t : Traced α) : Prop := ∀ name, t.outcome ≠ .error (.breach name)

/-- A value is no breach. -/
lemma clean_ok (a : α) : (ok a).Clean := by
  intro name h
  cases h

/-- An error is no breach. -/
lemma clean_error (e : Error) : (error e : Traced α).Clean := by
  intro name h
  cases h

/-- A chain is no breach if neither of its parts is. -/
lemma Clean.andThen {t : Traced α} {f : α → Traced β} (h : t.Clean)
    (hf : ∀ a, t.outcome = .ok a → (f a).Clean) : (t.andThen f).Clean := by
  intro name
  unfold Traced.andThen
  split
  · next a ha => exact hf a ha name
  · next e he =>
    intro hname
    cases hname
    exact h name he

/-- A mapped list is no breach if the function never is on its elements. -/
lemma clean_mapM {f : α → Traced β} {as : List α} (h : ∀ a ∈ as, (f a).Clean) :
    (as.mapM f).Clean := by
  induction as with
  | nil => exact clean_ok []
  | cons a as ih =>
    rw [List.mapM_cons]
    refine (h a List.mem_cons_self).andThen fun b _ => ?_
    refine Clean.andThen (ih fun a' ha' => h a' (List.mem_cons_of_mem a ha')) fun bs _ => ?_
    exact clean_ok (b :: bs)

end Traced

/-! ## Lists of results -/

namespace Traced

/-- Mapping a list succeeds exactly if the function does on each element, one by one. -/
lemma mapM_outcome_eq_ok_iff {f : α → Traced β} {as : List α} {bs : List β} :
    (as.mapM f).outcome = .ok bs ↔ List.Forall₂ (fun a b => (f a).outcome = .ok b) as bs := by
  induction as generalizing bs with
  | nil =>
    rw [List.forall₂_nil_left_iff]
    constructor
    · intro h
      exact (Except.ok.inj h).symm
    · rintro rfl
      rfl
  | cons a as ih =>
    rw [List.mapM_cons, List.forall₂_cons_left_iff]
    constructor
    · intro h
      obtain ⟨b, hb, hrest⟩ := andThen_outcome_eq_ok.1 h
      obtain ⟨bs', hbs', hok⟩ := andThen_outcome_eq_ok.1 hrest
      exact ⟨b, bs', hb, ih.1 hbs', (Except.ok.inj hok).symm⟩
    · rintro ⟨b, bs', hb, hbs', rfl⟩
      exact andThen_outcome_eq_ok.2 ⟨b, hb, andThen_outcome_eq_ok.2 ⟨bs', ih.2 hbs', rfl⟩⟩

/-- If mapping a list succeeds, every element of the list is mapped to an element of the result. -/
lemma exists_mem_of_mapM {f : α → Traced β} {as : List α} {bs : List β}
    (h : (as.mapM f).outcome = .ok bs) {a : α} (ha : a ∈ as) :
    ∃ b ∈ bs, (f a).outcome = .ok b := by
  have hpairs := mapM_outcome_eq_ok_iff.1 h
  induction hpairs with
  | nil => cases ha
  | cons hb hrest ih =>
    rcases List.mem_cons.1 ha with rfl | ha
    · exact ⟨_, List.mem_cons_self, hb⟩
    · obtain ⟨b, hmem, hok⟩ := ih (mapM_outcome_eq_ok_iff.2 hrest) ha
      exact ⟨b, List.mem_cons_of_mem _ hmem, hok⟩

/-- A result with a function applied to its value is a chain. -/
lemma map_eq_andThen {α β : Type u} (f : α → β) (t : Traced α) :
    f <$> t = t.andThen fun a => ok (f a) := rfl

/-- Mapping a list by a function whose values are changed gives the changed list. -/
lemma mapM_eq_map_mapM {α β : Type u} {γ : Type v} {f : γ → Traced α} {g : γ → Traced β}
    {e : α → β} {cs : List γ} (h : ∀ c ∈ cs, g c = e <$> f c) :
    cs.mapM g = List.map e <$> cs.mapM f := by
  induction cs with
  | nil => rfl
  | cons c cs ih =>
    have hhead := h c List.mem_cons_self
    have htail := ih fun d hd => h d (List.mem_cons_of_mem c hd)
    rw [List.mapM_cons, List.mapM_cons, hhead, htail]
    simp only [bind_eq, pure_eq, map_eq_andThen, andThen_assoc, ok_andThen, List.map_cons]

/-- A list that is put together in two parts succeeds exactly if both parts do. -/
lemma append_outcome_eq_ok_iff {s t : Traced (List α)} {cs : List α} :
    (s.andThen fun as => t.andThen fun bs => ok (as ++ bs)).outcome = .ok cs ↔
      ∃ as bs, s.outcome = .ok as ∧ t.outcome = .ok bs ∧ cs = as ++ bs := by
  constructor
  · intro h
    obtain ⟨as, has, hrest⟩ := andThen_outcome_eq_ok.1 h
    obtain ⟨bs, hbs, hok⟩ := andThen_outcome_eq_ok.1 hrest
    exact ⟨as, bs, has, hbs, (Except.ok.inj hok).symm⟩
  · rintro ⟨as, bs, has, hbs, rfl⟩
    exact andThen_outcome_eq_ok.2 ⟨as, has, andThen_outcome_eq_ok.2 ⟨bs, hbs, rfl⟩⟩

end Traced

/-! ## Resolving -/

namespace Kind

/-- A kind and a tag agree on being expressions exactly if they are of one class. -/
lemma isExpr_eq_isExpr_iff {k : Kind} {t : Tag} : k.isExpr = t.isExpr ↔ k.cls = t.cls := by
  unfold isExpr Tag.cls
  cases k.cls <;> cases t.isExpr <;> simp

end Kind

namespace Registry

/-- Each entry builds items of the class of the tag it stands at. -/
def Faithful (r : Registry) : Prop := ∀ t e, r.lookup t = some e → e.builds.cls = t.cls

/-- The standard registry is faithful. -/
theorem standard_faithful : standard.Faithful := by
  intro t e he
  rw [lookup_standard, Option.map_eq_some_iff] at he
  obtain ⟨ty, hty, rfl⟩ := he
  rw [Tag.type?_eq_some_iff.1 hty, NodeType.cls_tag]
  exact Kind.cls_standard ty

variable {r : Registry} {h : Handle}

/-- Without an entry for its tag, a handle is not supported. -/
lemma resolve_of_none (hl : r.lookup h.op = none) :
    (r.resolve h).outcome = .error (.error (.unsupportedTag h.op)) := by
  rw [resolve, hl]
  rfl

/-- A handle that reports the wrong class does not resolve. -/
lemma resolve_of_mismatch {e : Registration} (hl : r.lookup h.op = some e)
    (hflag : h.isExpr ≠ h.op.isExpr) :
    (r.resolve h).outcome = .error (.error (.classMismatch h.op h.ea h.isExpr)) := by
  rw [resolve, hl]
  dsimp only
  rw [if_pos (bne_iff_ne.2 hflag)]
  rfl

/-- A handle that reports the class of its tag is wrapped, if the entry builds that class. -/
lemma resolve_of_agree {e : Registration} (hl : r.lookup h.op = some e)
    (hflag : h.isExpr = h.op.isExpr) (hcls : e.builds.cls = h.op.cls) :
    (r.resolve h).outcome = .ok ⟨e.builds, h, r⟩ := by
  have hflag' : ¬ (h.isExpr != h.op.isExpr) = true := by simp [hflag]
  have hcls' : (e.builds.isExpr == h.op.isExpr) = true :=
    beq_iff_eq.2 (Kind.isExpr_eq_isExpr_iff.2 hcls)
  rw [resolve, hl]
  dsimp only
  rw [if_neg hflag', if_pos hcls']
  rfl

/-- An entry that builds the other class commits a breach. -/
lemma resolve_of_breach {e : Registration} (hl : r.lookup h.op = some e)
    (hflag : h.isExpr = h.op.isExpr) (hcls : e.builds.cls ≠ h.op.cls) :
    (r.resolve h).outcome = .error (.breach e.name) := by
  have hflag' : ¬ (h.isExpr != h.op.isExpr) = true := by simp [hflag]
  have hcls' : ¬ (e.builds.isExpr == h.op.isExpr) = true :=
    fun hb => hcls (Kind.isExpr_eq_isExpr_iff.1 (beq_iff_eq.1 hb))
  rw [resolve, hl]
  dsimp only
  rw [if_neg hflag', if_neg hcls']
  rfl

/-- A handle resolves exactly if its tag has an entry, it reports the class of its tag, and the
entry builds that class; then the entry's kind wraps it. -/
theorem resolve_eq_ok_iff {i : Item} :
    (r.resolve h).outcome = .ok i ↔ ∃ e, r.lookup h.op = some e ∧ h.isExpr = h.op.isExpr ∧
      e.builds.cls = h.op.cls ∧ i = ⟨e.builds, h, r⟩ := by
  constructor
  · intro hi
    cases hl : r.lookup h.op with
    | none =>
      rw [resolve_of_none hl] at hi
      cases hi
    | some e =>
      by_cases hflag : h.isExpr = h.op.isExpr
      · by_cases hcls : e.builds.cls = h.op.cls
        · rw [resolve_of_agree hl hflag hcls] at hi
          exact ⟨e, rfl, hflag, hcls, (Except.ok.inj hi).symm⟩
        · rw [resolve_of_breach hl hflag hcls] at hi
          cases hi
      · rw [resolve_of_mismatch hl hflag] at hi
        cases hi
  · rintro ⟨e, hl, hflag, hcls, rfl⟩
    exact resolve_of_agree hl hflag hcls

/-- The standard registry wraps a handle with the tag of a node type by the standard kind, if the
handle reports the class of its tag. -/
lemma resolve_standard {ty : NodeType} (hop : h.op = ty.tag) (hflag : h.isExpr = h.op.isExpr) :
    (standard.resolve h).outcome = .ok ⟨Kind.standard ty, h, standard⟩ := by
  have hl : standard.lookup h.op = some (Kind.standard ty).registration := by
    rw [lookup_standard, hop, NodeType.type?_tag, Option.map_some]
  exact resolve_of_agree hl hflag (standard_faithful h.op _ hl)

/-- Through a faithful registry, no resolution is a breach. -/
lemma Faithful.clean_resolve (hr : r.Faithful) (h : Handle) : (r.resolve h).Clean := by
  intro name
  cases hl : r.lookup h.op with
  | none =>
    rw [resolve_of_none hl]
    nofun
  | some e =>
    by_cases hflag : h.isExpr = h.op.isExpr
    · rw [resolve_of_agree hl hflag (hr h.op e hl)]
      nofun
    · rw [resolve_of_mismatch hl hflag]
      nofun

/-- Through a faithful registry, no resolution to a class is a breach. -/
lemma Faithful.clean_resolveAs (hr : r.Faithful) (c : Class) (h : Handle) :
    (r.resolveAs c h).Clean := by
  refine (hr.clean_resolve h).andThen fun i _ => ?_
  split
  · exact Traced.clean_ok i
  · exact Traced.clean_error _

/-- Resolving to a class gives an item of that class that resolving gives. -/
lemma resolveAs_eq_ok_iff {c : Class} {i : Item} :
    (r.resolveAs c h).outcome = .ok i ↔ (r.resolve h).outcome = .ok i ∧ i.cls = c := by
  simp only [resolveAs, Traced.bind_eq, Traced.andThen_outcome_eq_ok]
  constructor
  · rintro ⟨j, hj, hij⟩
    split at hij
    · next hc =>
      have : j = i := Except.ok.inj hij
      exact ⟨this ▸ hj, this ▸ hc⟩
    · cases hij
  · rintro ⟨hi, hc⟩
    refine ⟨i, hi, ?_⟩
    rw [if_pos hc]
    rfl

end Registry

/-! ## Children -/

namespace Item

variable {i j : Item} {c : Class}

/-- A child at a position is the resolution of a handle that the position answers. -/
lemma exists_resolveAs_of_fill {p : Position} (h : (i.fill c p).Yields j) :
    ∃ k ∈ i.handle.answers p.accessor, (i.registry.resolveAs c k).outcome = .ok j := by
  unfold fill at h
  split at h
  · obtain ⟨_, hs, _⟩ := h
    cases hs
  · exact Traced.mapM_yields h

/-- A child at a list of positions comes from one of them. -/
lemma exists_fill_of_fillAll {ps : List Position} (h : (i.fillAll c ps).Yields j) :
    ∃ p ∈ ps, (i.fill c p).Yields j := by
  induction ps with
  | nil =>
    obtain ⟨js, hs, hj⟩ := h
    cases hs
    cases hj
  | cons p ps ih =>
    rcases Traced.append_yields h with h | h
    · exact ⟨p, List.mem_cons_self, h⟩
    · obtain ⟨q, hq, hj⟩ := ih h
      exact ⟨q, List.mem_cons_of_mem p hq, hj⟩

/-- A child is the resolution, through the registry of its parent, of a handle that the parent
answers at one of its positions. -/
theorem exists_resolveAs_of_children (h : i.children.Yields j) :
    ∃ c, ∃ p ∈ i.kind.shape.positions c, ∃ k ∈ i.handle.answers p.accessor,
      (i.registry.resolveAs c k).outcome = .ok j := by
  rcases Traced.append_yields h with h | h
  · obtain ⟨p, hp, hj⟩ := exists_fill_of_fillAll h
    exact ⟨_, p, hp, exists_resolveAs_of_fill hj⟩
  · obtain ⟨p, hp, hj⟩ := exists_fill_of_fillAll h
    exact ⟨_, p, hp, exists_resolveAs_of_fill hj⟩

/-- If the children of an item resolve, so do those of either class, and they are among them. -/
lemma parts_of_children {js : List Item} (hjs : i.children.outcome = .ok js) (c : Class) :
    ∃ ks, (i.parts c).outcome = .ok ks ∧ ks ⊆ js := by
  obtain ⟨as, bs, has, hbs, rfl⟩ := Traced.append_outcome_eq_ok_iff.1 hjs
  cases c with
  | expression => exact ⟨as, has, List.subset_append_left as bs⟩
  | statement => exact ⟨bs, hbs, List.subset_append_right as bs⟩

/-- If the children at a list of positions resolve, so does every handle that is answered there. -/
lemma exists_of_fillAll {ps : List Position} {js : List Item}
    (hjs : (i.fillAll c ps).outcome = .ok js) {p : Position} (hp : p ∈ ps) {k : Handle}
    (hk : k ∈ i.handle.answers p.accessor) :
    ∃ j ∈ js, (i.registry.resolveAs c k).outcome = .ok j := by
  induction ps generalizing js with
  | nil => cases hp
  | cons q ps ih =>
    obtain ⟨here, there, hhere, hthere, rfl⟩ := Traced.append_outcome_eq_ok_iff.1 hjs
    rcases List.mem_cons.1 hp with rfl | hp
    · unfold fill at hhere
      split at hhere
      · cases hhere
      · obtain ⟨j, hj, hok⟩ := Traced.exists_mem_of_mapM hhere hk
        exact ⟨j, List.mem_append_left _ hj, hok⟩
    · obtain ⟨j, hj, hok⟩ := ih hthere hp
      exact ⟨j, List.mem_append_right _ hj, hok⟩

/-- A child has the registry of its parent. -/
lemma registry_of_children (h : i.children.Yields j) : j.registry = i.registry := by
  obtain ⟨c, p, _, k, _, hk⟩ := exists_resolveAs_of_children h
  obtain ⟨e, _, _, _, rfl⟩ := Registry.resolve_eq_ok_iff.1 (Registry.resolveAs_eq_ok_iff.1 hk).1
  rfl

/-- Through a faithful registry, the children at a position are no breach. -/
lemma clean_fill (hr : i.registry.Faithful) (p : Position) : (i.fill c p).Clean := by
  unfold fill
  split
  · exact Traced.clean_error _
  · exact Traced.clean_mapM fun k _ => hr.clean_resolveAs c k

/-- Through a faithful registry, the children at a list of positions are no breach. -/
lemma clean_fillAll (hr : i.registry.Faithful) (ps : List Position) : (i.fillAll c ps).Clean := by
  induction ps with
  | nil => exact Traced.clean_ok []
  | cons p ps ih =>
    refine (clean_fill hr p).andThen fun here _ => ?_
    exact ih.andThen fun there _ => Traced.clean_ok (here ++ there)

/-- Through a faithful registry, the children of an item are no breach. -/
theorem clean_children (hr : i.registry.Faithful) : i.children.Clean := by
  refine (clean_fillAll hr _).andThen fun expressions _ => ?_
  exact (clean_fillAll hr _).andThen fun statements _ => Traced.clean_ok (expressions ++ statements)

/-- One item is among the children of another. -/
def IsChild (i j : Item) : Prop := i.children.Yields j

/-- One item is found below another, or is that item: steps from item to child lead there. -/
def Reaches : Item → Item → Prop := Relation.ReflTransGen IsChild

end Item

end Pseudocode
