import Mathlib.Data.List.Forall2
import Pseudocode.Item.Render
import Pseudocode.Proofs.Access

/-!
# Items that cannot be told apart

Two items over different handles, or over different registries, may behave alike: they look the same
and their children, class by class, are again items that behave alike, or fail in the same way.  A
relation of this kind is a bisimulation.  This file shows once and for all what related items have
in common: every walk, every search and every rendering that asks them only for what the relation
keeps gives the same result, the same log and the same error.

What an item shows without its children being resolved are its `Facts`.  That a relation between
items is a bisimulation usually comes from one between their handles: if related handles are resolved
alike and answer alike where the kind of the item looks, the children are related
(`Item.fillAll_related`).
-/

namespace Pseudocode

universe u v w x

variable {α : Type u} {β : Type v} {γ : Type w} {δ : Type x}

/-! ## Related results -/

namespace Traced

/-- Two results are related: after the same log there are related values, or the same failure. -/
inductive Related (R : α → β → Prop) (s : Traced α) (t : Traced β) : Prop
  | ok {a : α} {b : β} (records : s.records = t.records) (left : s.outcome = .ok a)
      (right : t.outcome = .ok b) (related : R a b)
  | failed {f : Failure} (records : s.records = t.records) (left : s.outcome = .error f)
      (right : t.outcome = .error f)

variable {R : α → β → Prop} {S : γ → δ → Prop}

/-- Related values are related results. -/
lemma related_ok {a : α} {b : β} (h : R a b) : Related R (ok a) (ok b) := .ok rfl rfl rfl h

/-- An error is related to itself. -/
lemma related_error (e : Error) : Related R (error e) (error e) := .failed rfl rfl rfl

/-- Results that are related stay so after the same earlier records. -/
lemma Related.after {s : Traced α} {t : Traced β} (h : Related R s t) (earlier : List Record) :
    Related R (s.after earlier) (t.after earlier) := by
  cases h with
  | ok hrecords hs ht hab => exact .ok (congrArg (earlier ++ ·) hrecords) hs ht hab
  | failed hrecords hs ht => exact .failed (congrArg (earlier ++ ·) hrecords) hs ht

/-- Chains are related if their parts are. -/
lemma Related.andThen {s : Traced α} {t : Traced β} {f : α → Traced γ} {g : β → Traced δ}
    (h : Related R s t) (hfg : ∀ a b, R a b → Related S (f a) (g b)) :
    Related S (s.andThen f) (t.andThen g) := by
  unfold Traced.andThen
  cases h with
  | ok hrecords hs ht hab =>
    rw [hs, ht, hrecords]
    exact (hfg _ _ hab).after t.records
  | failed hrecords hs ht =>
    rw [hs, ht]
    exact .failed hrecords rfl rfl

/-- Mapped lists are related if their elements are mapped to related results. -/
lemma related_mapM {f : α → Traced γ} {g : β → Traced δ} {as : List α} {bs : List β}
    (h : List.Forall₂ R as bs) (hfg : ∀ a b, R a b → Related S (f a) (g b)) :
    Related (List.Forall₂ S) (as.mapM f) (bs.mapM g) := by
  induction h with
  | nil => exact related_ok .nil
  | cons hab _ ih =>
    rw [List.mapM_cons, List.mapM_cons]
    refine (hfg _ _ hab).andThen fun c d hcd => ?_
    exact ih.andThen fun cs ds hcds => related_ok (.cons hcd hcds)

/-- Lists that are put together from related parts are related. -/
lemma Related.append {s s' : Traced (List α)} {t t' : Traced (List β)}
    (h : Related (List.Forall₂ R) s t) (h' : Related (List.Forall₂ R) s' t') :
    Related (List.Forall₂ R) (s.andThen fun as => s'.andThen fun as' => Traced.ok (as ++ as'))
      (t.andThen fun bs => t'.andThen fun bs' => Traced.ok (bs ++ bs')) := by
  refine h.andThen fun as bs hab => ?_
  exact h'.andThen fun as' bs' hab' => related_ok (List.rel_append hab hab')

/-- Equal results are related by equality. -/
lemma related_of_eq {s t : Traced α} (h : s = t) : Related (· = ·) s t := by
  subst h
  cases hs : s.outcome with
  | ok a => exact .ok rfl hs hs rfl
  | error f => exact .failed rfl hs hs

/-- Results that are related by equality are equal. -/
lemma Related.eq {s t : Traced α} (h : Related (· = ·) s t) : s = t := by
  cases h with
  | ok hrecords hs ht hab => exact Traced.ext hrecords (by rw [hs, ht, hab])
  | failed hrecords hs ht => exact Traced.ext hrecords (by rw [hs, ht])

/-- Results whose values are sent to the same value are sent to the same result. -/
lemma Related.map_eq {α β γ : Type u} {R : α → β → Prop} {s : Traced α} {t : Traced β}
    (h : Related R s t) {f : α → γ} {g : β → γ} (hfg : ∀ a b, R a b → f a = g b) :
    f <$> s = g <$> t := by
  have hrelated : Related (· = ·) (s.andThen fun a => Traced.ok (f a))
      (t.andThen fun b => Traced.ok (g b)) := h.andThen fun a b hab => related_ok (hfg a b hab)
  exact hrelated.eq

end Traced

/-! ## Bisimulations -/

/-- What an item shows by itself. -/
structure Facts where
  kindName : String
  ea : Address
  tag : Tag
  cls : Class
  summary : Option String
  deriving DecidableEq, Repr

namespace Item

/-- What an item shows by itself. -/
def facts (i : Item) : Facts := ⟨i.kindName, i.ea, i.tag, i.cls, i.summary⟩

/-- The children of related items are related, class by class. -/
def Bisimulation (R : Item → Item → Prop) : Prop :=
  ∀ i j, R i j → ∀ c, Traced.Related (List.Forall₂ R) (i.parts c) (j.parts c)

variable {R : Item → Item → Prop} {i j : Item}

/-- The children of related items are related. -/
lemma Bisimulation.children (hR : Bisimulation R) (h : R i j) :
    Traced.Related (List.Forall₂ R) i.children j.children :=
  (hR i j h .expression).append (hR i j h .statement)

/-! ## Reading related handles -/

/-- Handles that are resolved to related items are resolved to a class alike, if related items have
the same class, address and tag. -/
lemma resolveAs_related {r r' : Registry} {h k : Handle} (c : Class)
    (hfacts : ∀ i j, R i j → i.cls = j.cls ∧ i.ea = j.ea ∧ i.tag = j.tag)
    (hresolve : Traced.Related R (r.resolve h) (r'.resolve k)) :
    Traced.Related R (r.resolveAs c h) (r'.resolveAs c k) := by
  refine hresolve.andThen fun i j hij => ?_
  obtain ⟨hcls, hea, htag⟩ := hfacts i j hij
  rw [hcls, hea, htag]
  split_ifs
  · exact Traced.related_ok hij
  · exact Traced.related_error _

section Positions

variable {H : Handle → Handle → Prop} {c : Class}

/-- Items of one kind at one address have related children at a position where their handles answer
alike, if what is answered is resolved alike. -/
lemma fill_related (hkind : i.kind = j.kind) (hea : i.ea = j.ea)
    (hresolve : ∀ h k, H h k →
      Traced.Related R (i.registry.resolveAs c h) (j.registry.resolveAs c k)) {p : Position}
    (hanswers : List.Forall₂ H (i.handle.answers p.accessor) (j.handle.answers p.accessor)) :
    Traced.Related (List.Forall₂ R) (i.fill c p) (j.fill c p) := by
  have hempty : (i.handle.answers p.accessor).isEmpty = (j.handle.answers p.accessor).isEmpty := by
    rw [Bool.eq_iff_iff, List.isEmpty_iff_length_eq_zero, List.isEmpty_iff_length_eq_zero,
      hanswers.length_eq]
  have hmissing : i.missing p.accessor.name = j.missing p.accessor.name := by
    rw [missing, missing, hkind, hea]
  rw [fill, fill, hempty, hmissing]
  split_ifs
  · exact Traced.related_error _
  · exact Traced.related_mapM hanswers hresolve

/-- The same at a list of positions. -/
lemma fillAll_related (hkind : i.kind = j.kind) (hea : i.ea = j.ea)
    (hresolve : ∀ h k, H h k →
      Traced.Related R (i.registry.resolveAs c h) (j.registry.resolveAs c k)) {ps : List Position}
    (hanswers : ∀ p ∈ ps,
      List.Forall₂ H (i.handle.answers p.accessor) (j.handle.answers p.accessor)) :
    Traced.Related (List.Forall₂ R) (i.fillAll c ps) (j.fillAll c ps) := by
  induction ps with
  | nil => exact Traced.related_ok .nil
  | cons p ps ih =>
    have hhere := fill_related hkind hea hresolve (hanswers p List.mem_cons_self)
    exact hhere.append (ih fun q hq => hanswers q (List.mem_cons_of_mem p hq))

end Positions

/-! ## Rendering -/

/-- A list of items is written in the same way as a related list, if related items are. -/
lemma listText_eq_of_related {items items' : Traced (List Item)}
    {f : (i : Item) → items.Yields i → Traced String}
    {g : (j : Item) → items'.Yields j → Traced String}
    (h : Traced.Related (List.Forall₂ R) items items')
    (hfg : ∀ i hi j hj, R i j → f i hi = g j hj) : listText items f = listText items' g := by
  obtain ⟨records, outcome⟩ := items
  obtain ⟨records', outcome'⟩ := items'
  cases h with
  | failed hrecords hs ht =>
    cases hs
    cases ht
    cases hrecords
    rename_i cause
    cases cause <;> rfl
  | @ok js js' hrecords hs ht hjs =>
    cases hs
    cases ht
    cases hrecords
    -- The items of the two lists are written pair by pair.
    have hattach : List.Forall₂ (fun a b => R a.1 b.1) js.attach js'.attach := by
      refine List.forall₂_map_left_iff.1 (List.forall₂_map_right_iff.1 ?_)
      rw [List.attach_map_subtype_val, List.attach_map_subtype_val]
      exact hjs
    have htexts : Traced.Related (List.Forall₂ (· = ·))
        (js.attach.mapM fun a => f a.1 ⟨js, rfl, a.2⟩)
        (js'.attach.mapM fun b => g b.1 ⟨js', rfl, b.2⟩) := by
      refine Traced.related_mapM hattach fun a b hab => ?_
      exact Traced.related_of_eq (hfg a.1 _ b.1 _ hab)
    rw [List.forall₂_eq_eq_eq] at htexts
    exact congrArg (fun t => (Traced.andThen t fun texts =>
      Traced.ok ("[" ++ ", ".intercalate texts ++ "]")).after records) htexts.eq

/-- Related items that look the same are rendered in the same way. -/
theorem Bisimulation.render_eq (hR : Bisimulation R)
    (hfacts : ∀ i j, R i j → i.facts = j.facts ∧ i.kind.listsChildren = j.kind.listsChildren)
    (h : R i j) : i.render = j.render := by
  induction i using partInduction generalizing j with
  | step i ih =>
    have hlist : ∀ c, listText (i.parts c) (fun k _ => k.render) =
        listText (j.parts c) fun k _ => k.render := by
      intro c
      exact listText_eq_of_related (hR i j h c) fun k hk l _ hkl => ih c k hk hkl
    obtain ⟨hshow, hlists⟩ := hfacts i j h
    simp only [facts, kindName, Facts.mk.injEq] at hshow
    obtain ⟨hname, hea, _, hcls, hsummary⟩ := hshow
    have hkind : i.kind.cls = j.kind.cls := hcls
    rw [render, render, hname, hea, hlists, hkind]
    simp only [hlist, tailText, hsummary]

/-! ## Walking and searching -/

end Item

section Steps

variable {σ : Type u} {visitor : Visitor σ} {test : Test σ} {log : List Record} {found : List Item}
  {s t : σ} {i : Item} {depth : Nat}

/-- A walk that wants the children of an item fails with them. -/
lemma walkFrom_of_error {f : Failure} (hv : visitor s i depth = (t, .ok .descend))
    (hc : i.children.outcome = .error f) (rest : List Visit) :
    walkFrom visitor log s (⟨i, depth⟩ :: rest) =
      ⟨t, (i.children.records.reverse ++ log).reverse, .error f⟩ := by
  rw [walkFrom, hv]
  dsimp only
  split
  · next g hg =>
    cases hc.symm.trans hg
    rfl
  · next js hjs => cases hc.symm.trans hjs

/-- A walk that wants the children of an item goes on with them, one level deeper. -/
lemma walkFrom_of_ok {js : List Item} (hv : visitor s i depth = (t, .ok .descend))
    (hc : i.children.outcome = .ok js) (rest : List Visit) :
    walkFrom visitor log s (⟨i, depth⟩ :: rest) =
      walkFrom visitor (i.children.records.reverse ++ log) t
        (js.map (⟨·, depth + 1⟩) ++ rest) := by
  rw [walkFrom, hv]
  dsimp only
  split
  · next g hg => cases hc.symm.trans hg
  · next js' hjs =>
    cases hc.symm.trans hjs
    rfl

/-- Collecting fails with the children of an item. -/
lemma collectFrom_of_error {f : Failure} (hc : i.children.outcome = .error f) (rest : List Item) :
    collectFrom test log found s (i :: rest) =
      ⟨(i.children.records.reverse ++ log).reverse, .error f⟩ := by
  rw [collectFrom]
  split
  · next g hg =>
    cases hc.symm.trans hg
    rfl
  · next js hjs => cases hc.symm.trans hjs

/-- Collecting goes on with the children of an item, having kept the item if it passed the test. -/
lemma collectFrom_of_ok {js : List Item} {b : Bool} (hc : i.children.outcome = .ok js)
    (ht : test s i = (t, b)) (rest : List Item) :
    collectFrom test log found s (i :: rest) =
      collectFrom test (i.children.records.reverse ++ log) (if b then i :: found else found) t
        (js ++ rest) := by
  rw [collectFrom]
  split
  · next g hg => cases hc.symm.trans hg
  · next js' hjs =>
    cases hc.symm.trans hjs
    rw [ht]
    cases b <;> rfl

/-- Looking for an item stops at one that passes the test. -/
lemma findFrom_of_true (ht : test s i = (t, true)) (rest : List Item) :
    findFrom test log s (i :: rest) = ⟨log.reverse, .ok (some i)⟩ := by
  rw [findFrom, ht]

/-- Looking for an item fails with the children of one that does not pass the test. -/
lemma findFrom_of_error {f : Failure} (ht : test s i = (t, false))
    (hc : i.children.outcome = .error f) (rest : List Item) :
    findFrom test log s (i :: rest) = ⟨(i.children.records.reverse ++ log).reverse, .error f⟩ := by
  rw [findFrom, ht]
  dsimp only
  split
  · next g hg =>
    cases hc.symm.trans hg
    rfl
  · next js hjs => cases hc.symm.trans hjs

/-- Looking for an item goes on with the children of one that does not pass the test. -/
lemma findFrom_of_ok {js : List Item} (ht : test s i = (t, false))
    (hc : i.children.outcome = .ok js) (rest : List Item) :
    findFrom test log s (i :: rest) =
      findFrom test (i.children.records.reverse ++ log) t (js ++ rest) := by
  rw [findFrom, ht]
  dsimp only
  split
  · next g hg => cases hc.symm.trans hg
  · next js' hjs =>
    cases hc.symm.trans hjs
    rfl

end Steps

namespace Item

section Loops

variable {σ : Type u} {R : Item → Item → Prop} {i j : Item}

/-- Items wait on two stacks in related pairs, at the same depths. -/
def StacksRelated (R : Item → Item → Prop) : List Visit → List Visit → Prop :=
  List.Forall₂ fun v w => R v.item w.item ∧ v.depth = w.depth

/-- Visitors that do the same at related items make the same of related stacks. -/
theorem Bisimulation.walkFrom_eq (hR : Bisimulation R) {visitor visitor' : Visitor σ}
    (hv : ∀ s i j depth, R i j → visitor s i depth = visitor' s j depth) (log : List Record) (s : σ)
    {stack stack' : List Visit} (h : StacksRelated R stack stack') :
    walkFrom visitor log s stack = walkFrom visitor' log s stack' := by
  revert stack'
  fun_induction walkFrom visitor log s stack with
  | case1 log s =>
    intro stack' h
    cases h
    rw [walkFrom]
  | case2 log s v rest s' e hvisit =>
    intro stack' h
    cases h with
    | cons hvw hrest => rw [walkFrom, ← hvw.2, ← hv s _ _ _ hvw.1, hvisit]
  | case3 log s v rest s' hvisit =>
    intro stack' h
    cases h with
    | cons hvw hrest => rw [walkFrom, ← hvw.2, ← hv s _ _ _ hvw.1, hvisit]
  | case4 log s v rest s' hvisit ih =>
    intro stack' h
    cases h with
    | cons hvw hrest =>
      rw [walkFrom, ← hvw.2, ← hv s _ _ _ hvw.1, hvisit]
      exact ih hrest
  | case5 log s v rest s' hvisit =>
    rename_i f hf
    intro stack' h
    cases h with
    | @cons _ w _ _ hvw hrest =>
      obtain ⟨j, depth⟩ := w
      have hvisit' : visitor' s j depth = (s', .ok .descend) := by
        obtain ⟨hij, rfl⟩ := hvw
        exact (hv s _ _ _ hij).symm.trans hvisit
      cases hR.children hvw.1 with
      | ok hrecords hs ht hjs => cases hs.symm.trans hf
      | failed hrecords hs ht =>
        cases hs.symm.trans hf
        rw [walkFrom_of_error hvisit' ht, ← hrecords]
  | case6 log s v rest s' hvisit =>
    rename_i js hjs ih
    intro stack' h
    cases h with
    | @cons _ w _ rest' hvw hrest =>
      obtain ⟨j, depth⟩ := w
      have hvisit' : visitor' s j depth = (s', .ok .descend) := by
        obtain ⟨hij, rfl⟩ := hvw
        exact (hv s _ _ _ hij).symm.trans hvisit
      cases hR.children hvw.1 with
      | failed hrecords hs ht => cases hs.symm.trans hjs
      | ok hrecords hs ht hrelated =>
        cases hs.symm.trans hjs
        rw [walkFrom_of_ok hvisit' ht, ← hrecords]
        refine ih (List.rel_append ?_ hrest)
        refine List.forall₂_map_left_iff.2 (List.forall₂_map_right_iff.2 ?_)
        exact hrelated.imp fun k l hkl => ⟨hkl, congrArg (· + 1) hvw.2⟩

/-- Visitors that do the same at related items make the same walk from related items. -/
theorem Bisimulation.walk_eq (hR : Bisimulation R) {visitor visitor' : Visitor σ}
    (hv : ∀ s i j depth, R i j → visitor s i depth = visitor' s j depth) (h : R i j) (s : σ) :
    i.walk visitor s = j.walk visitor' s :=
  hR.walkFrom_eq hv [] s (.cons ⟨h, rfl⟩ .nil)

/-- Related items have equally many items below them. -/
theorem Bisimulation.count_eq (hR : Bisimulation R) (h : R i j) : i.count = j.count := by
  have hv : ∀ (n : Nat) (i j : Item) (depth : Nat), R i j →
      Visitor.counting n i depth = Visitor.counting n j depth := fun _ _ _ _ _ => rfl
  have hwalk := hR.walk_eq hv h 0
  have hcount : ∀ k : Item, k.count =
      ⟨(k.walk .counting 0).records,
        (k.walk .counting 0).outcome.map fun _ => (k.walk .counting 0).state⟩ := fun _ => rfl
  rw [hcount, hcount, hwalk]

/-- Tests that do the same at related items collect related items from related stacks. -/
theorem Bisimulation.collectFrom_related (hR : Bisimulation R) {test test' : Test σ}
    (ht : ∀ s i j, R i j → test s i = test' s j) (log : List Record) (s : σ)
    {found found' stack stack' : List Item} (hfound : List.Forall₂ R found found')
    (h : List.Forall₂ R stack stack') :
    Traced.Related (List.Forall₂ R) (collectFrom test log found s stack)
      (collectFrom test' log found' s stack') := by
  revert found' stack'
  fun_induction collectFrom test log found s stack with
  | case1 log found s =>
    intro found' stack' hfound h
    cases h
    rw [collectFrom]
    exact .ok rfl rfl rfl (List.rel_reverse hfound)
  | case2 log found s i rest =>
    rename_i f hf
    intro found' stack' hfound h
    cases h with
    | cons hij hrest =>
      cases hR.children hij with
      | ok hrecords hs ht hjs => cases hs.symm.trans hf
      | failed hrecords hs ht =>
        cases hs.symm.trans hf
        rw [collectFrom_of_error ht, ← hrecords]
        exact .failed rfl rfl rfl
  | case3 log found s i rest =>
    rename_i js hjs s' htest ih
    intro found' stack' hfound h
    cases h with
    | cons hij hrest =>
      cases hR.children hij with
      | failed hrecords hs ht => cases hs.symm.trans hjs
      | ok hrecords hs hok hrelated =>
        cases hs.symm.trans hjs
        rw [collectFrom_of_ok hok ((ht s _ _ hij).symm.trans htest), ← hrecords]
        exact ih (.cons hij hfound) (List.rel_append hrelated hrest)
  | case4 log found s i rest =>
    rename_i js hjs s' htest ih
    intro found' stack' hfound h
    cases h with
    | cons hij hrest =>
      cases hR.children hij with
      | failed hrecords hs ht => cases hs.symm.trans hjs
      | ok hrecords hs hok hrelated =>
        cases hs.symm.trans hjs
        rw [collectFrom_of_ok hok ((ht s _ _ hij).symm.trans htest), ← hrecords]
        exact ih hfound (List.rel_append hrelated hrest)

/-- Tests that do the same at related items find related items on related stacks. -/
theorem Bisimulation.findFrom_related (hR : Bisimulation R) {test test' : Test σ}
    (ht : ∀ s i j, R i j → test s i = test' s j) (log : List Record) (s : σ)
    {stack stack' : List Item} (h : List.Forall₂ R stack stack') :
    Traced.Related (Option.Rel R) (findFrom test log s stack) (findFrom test' log s stack') := by
  revert stack'
  fun_induction findFrom test log s stack with
  | case1 log s =>
    intro stack' h
    cases h
    rw [findFrom]
    exact .ok rfl rfl rfl .none
  | case2 log s i rest s' htest =>
    intro stack' h
    cases h with
    | cons hij hrest =>
      rw [findFrom_of_true ((ht s _ _ hij).symm.trans htest)]
      exact .ok rfl rfl rfl (.some hij)
  | case3 log s i rest s' htest =>
    rename_i f hf
    intro stack' h
    cases h with
    | cons hij hrest =>
      cases hR.children hij with
      | ok hrecords hs hok hjs => cases hs.symm.trans hf
      | failed hrecords hs herror =>
        cases hs.symm.trans hf
        rw [findFrom_of_error ((ht s _ _ hij).symm.trans htest) herror, ← hrecords]
        exact .failed rfl rfl rfl
  | case4 log s i rest s' htest =>
    rename_i js hjs ih
    intro stack' h
    cases h with
    | cons hij hrest =>
      cases hR.children hij with
      | failed hrecords hs herror => cases hs.symm.trans hjs
      | ok hrecords hs hok hrelated =>
        cases hs.symm.trans hjs
        rw [findFrom_of_ok ((ht s _ _ hij).symm.trans htest) hok, ← hrecords]
        exact ih (List.rel_append hrelated hrest)

/-- Tests that do the same at related items collect related items below related items. -/
theorem Bisimulation.collect_related (hR : Bisimulation R) {test test' : Test σ}
    (ht : ∀ s i j, R i j → test s i = test' s j) (h : R i j) (s : σ) :
    Traced.Related (List.Forall₂ R) (i.collect test s) (j.collect test' s) :=
  hR.collectFrom_related ht [] s .nil (.cons h .nil)

/-- Tests that do the same at related items find related items below related items. -/
theorem Bisimulation.find_related (hR : Bisimulation R) {test test' : Test σ}
    (ht : ∀ s i j, R i j → test s i = test' s j) (h : R i j) (s : σ) :
    Traced.Related (Option.Rel R) (i.find test s) (j.find test' s) :=
  hR.findFrom_related ht [] s (.cons h .nil)

end Loops

end Item

/-! ## Everything that is seen -/

/-- The visitor that knows items by their facts alone. -/
def Visitor.ofFacts {σ : Type u} (visit : σ → Facts → Nat → σ × Except Error Control) : Visitor σ :=
  fun s i depth => visit s i.facts depth

/-- The test that knows items by their facts alone. -/
def Test.ofFacts {σ : Type u} (test : σ → Facts → σ × Bool) : Test σ := fun s i => test s i.facts

namespace Item

/-- Two items cannot be told apart by facts: they are rendered to the same text, have children with
the same facts and equally many items below them, and visitors and tests that know items by their
facts make the same walk, collect items with the same facts and find one with the same facts.  Logs
and errors are the same throughout. -/
structure SameResults (i j : Item) : Prop where
  render : i.render = j.render
  children : List.map facts <$> i.children = List.map facts <$> j.children
  count : i.count = j.count
  walk : ∀ (σ : Type u) (visit : σ → Facts → Nat → σ × Except Error Control) (s : σ),
    i.walk (.ofFacts visit) s = j.walk (.ofFacts visit) s
  collect : ∀ (σ : Type u) (test : σ → Facts → σ × Bool) (s : σ),
    List.map facts <$> i.collect (.ofFacts test) s = List.map facts <$> j.collect (.ofFacts test) s
  find : ∀ (σ : Type u) (test : σ → Facts → σ × Bool) (s : σ),
    Option.map facts <$> i.find (.ofFacts test) s = Option.map facts <$> j.find (.ofFacts test) s

variable {R : Item → Item → Prop} {i j : Item}

/-- Items that are related one by one show the same one by one. -/
lemma map_facts_eq (hfacts : ∀ i j, R i j → i.facts = j.facts) {is js : List Item}
    (h : List.Forall₂ R is js) : is.map facts = js.map facts := by
  induction h with
  | nil => rfl
  | cons hij _ ih => rw [List.map_cons, List.map_cons, hfacts _ _ hij, ih]

/-- Items related by a bisimulation that keeps their facts cannot be told apart. -/
theorem Bisimulation.sameResults (hR : Bisimulation R)
    (hfacts : ∀ i j, R i j → i.facts = j.facts ∧ i.kind.listsChildren = j.kind.listsChildren)
    (h : R i j) : SameResults.{u} i j := by
  have hshow : ∀ i j, R i j → i.facts = j.facts := fun i j hij => (hfacts i j hij).1
  refine ⟨hR.render_eq hfacts h, (hR.children h).map_eq fun _ _ => map_facts_eq hshow,
    hR.count_eq h, fun σ visit s => ?_, fun σ test s => ?_, fun σ test s => ?_⟩
  · refine hR.walk_eq (fun s i j depth hij => ?_) h s
    rw [Visitor.ofFacts, Visitor.ofFacts, hshow i j hij]
  · have htest : ∀ s i j, R i j → Test.ofFacts test s i = Test.ofFacts test s j := by
      intro s i j hij
      rw [Test.ofFacts, Test.ofFacts, hshow i j hij]
    exact (hR.collect_related htest h s).map_eq fun _ _ => map_facts_eq hshow
  · have htest : ∀ s i j, R i j → Test.ofFacts test s i = Test.ofFacts test s j := by
      intro s i j hij
      rw [Test.ofFacts, Test.ofFacts, hshow i j hij]
    refine (hR.find_related htest h s).map_eq fun a b hab => ?_
    cases hab with
    | none => rfl
    | some hij => exact congrArg some (hshow _ _ hij)

end Item

end Pseudocode
