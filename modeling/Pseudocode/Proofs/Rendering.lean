import Pseudocode.Item.Render
import Pseudocode.Proofs.Rendering.Delimited
import Pseudocode.Proofs.Walk.Distinct
import Pseudocode.Proofs.Walk.Plan

/-!
# What a rendering is made of

If everything below an item of a standard kind resolves, the item is rendered, and its text is put
together from the texts of its children (`Item.IsStandard.text_eq`).  The lists are resolved before
anything in them is written, so the log of a rendering has the records of each list in front of
those of its items (`Item.render_of_expression`, `Item.render_of_statement`); a statement begins
with the statements nested in it.
-/

namespace Pseudocode

universe u v

/-! ## Logs of lists -/

namespace Traced

variable {α : Type u} {β : Type v}

/-- A chain whose first part succeeds has the log of both parts. -/
lemma andThen_of_ok {t : Traced α} {a : α} (h : t.outcome = .ok a) (f : α → Traced β) :
    t.andThen f = ⟨t.records ++ (f a).records, (f a).outcome⟩ := by
  rw [andThen, h]
  rfl

/-- A result whose value is only changed keeps its log. -/
lemma andThen_ok_of_ok {t : Traced α} {a : α} (h : t.outcome = .ok a) (g : α → β) :
    t.andThen (fun a => ok (g a)) = ⟨t.records, .ok (g a)⟩ := by
  rw [andThen_of_ok h]
  exact Traced.ext (List.append_nil _) rfl

/-- A mapped list that succeeds has the logs of its elements, one after the other. -/
lemma records_mapM_of_ok {f : α → Traced β} {as : List α} {bs : List β}
    (h : (as.mapM f).outcome = .ok bs) :
    (as.mapM f).records = as.flatMap fun a => (f a).records := by
  have hpairs := mapM_outcome_eq_ok_iff.1 h
  clear h
  induction hpairs with
  | nil => rfl
  | cons hb hrest ih =>
    rename_i a b as bs
    have htail : (as.mapM f).outcome = .ok bs := mapM_outcome_eq_ok_iff.2 hrest
    rw [List.mapM_cons, bind_eq, andThen_of_ok hb, List.flatMap_cons, ← ih]
    exact congrArg (_ ++ Traced.records ·) (andThen_ok_of_ok htail (b :: ·))

end Traced

namespace Item

variable {i : Item} {as bs js : List Item}

/-! ## Texts of items -/

/-- The text that an item is rendered to, if it is rendered. -/
def text (i : Item) : String :=
  match i.render.outcome with
  | .ok t => t
  | .error _ => ""

/-- An item that is rendered is rendered to its text. -/
lemma text_of_render {t : String} (h : i.render.outcome = .ok t) : i.text = t := by
  rw [text, h]

/-- The beginning of a rendering: the name of the kind and the address. -/
def headText (i : Item) : String := i.kind.name ++ "(ea=" ++ i.ea.text

/-- A list that resolves is written item by item. -/
lemma listText_of_ok {items : Traced (List Item)} (hjs : items.outcome = .ok js)
    (hall : ∀ j ∈ js, j.render.outcome = .ok j.text) :
    listText items (fun j _ => j.render) =
      ⟨items.records ++ js.flatMap fun j => j.render.records,
        .ok (Text.bracketed (js.map text))⟩ := by
  have hattach : (js.attach.mapM fun j => j.1.render) = js.mapM render := by
    change js.attach.mapM (render ∘ Subtype.val) = _
    rw [← List.mapM_map, List.attach_map_subtype_val]
  have hmap : (js.mapM render).outcome = .ok (js.map text) := by
    refine Traced.mapM_outcome_eq_ok_iff.2 (List.forall₂_map_right_iff.2 ?_)
    exact List.forall₂_same.2 hall
  unfold listText
  split
  · next ks hks =>
    obtain rfl : js = ks := Except.ok.inj (hjs.symm.trans hks)
    rw [hattach, Traced.andThen_ok_of_ok hmap, Traced.records_mapM_of_ok hmap]
    rfl
  · next e he => cases hjs.symm.trans he
  · next name hname => cases hjs.symm.trans hname

/-- An expression is its operands between its name and its summary. -/
lemma render_of_expression (hlists : i.kind.listsChildren = true) (hcls : i.kind.cls = .expression)
    (has : (i.parts .expression).outcome = .ok as)
    (hall : ∀ j ∈ as, j.render.outcome = .ok j.text) :
    i.render = ⟨(i.parts .expression).records ++ as.flatMap fun j => j.render.records,
      .ok (i.headText ++ ", ops=" ++ Text.bracketed (as.map text) ++ i.tailText)⟩ := by
  rw [render, if_pos hlists, hcls]
  dsimp only
  rw [listText_of_ok has hall]
  exact Traced.andThen_ok_of_ok rfl _

/-- A statement is the statements nested in it, and then the expressions that it owns. -/
lemma render_of_statement (hlists : i.kind.listsChildren = true) (hcls : i.kind.cls = .statement)
    (has : (i.parts .expression).outcome = .ok as) (hbs : (i.parts .statement).outcome = .ok bs)
    (hall : ∀ j ∈ as ++ bs, j.render.outcome = .ok j.text) :
    i.render = ⟨((i.parts .statement).records ++ bs.flatMap fun j => j.render.records) ++
        ((i.parts .expression).records ++ as.flatMap fun j => j.render.records),
      .ok (i.headText ++ ", st_childs=" ++ Text.bracketed (bs.map text) ++ ", expr_childs=" ++
        Text.bracketed (as.map text) ++ i.tailText)⟩ := by
  obtain ⟨hallAs, hallBs⟩ := List.forall_mem_append.1 hall
  rw [render, if_pos hlists, hcls]
  dsimp only
  rw [listText_of_ok has hallAs, listText_of_ok hbs hallBs, Traced.andThen_of_ok rfl,
    Traced.andThen_ok_of_ok rfl]
  rfl

/-! ## Items below which everything resolves -/

/-- The children of an item are its expressions and then its statements. -/
lemma children_of_parts (has : (i.parts .expression).outcome = .ok as)
    (hbs : (i.parts .statement).outcome = .ok bs) : i.children.outcome = .ok (as ++ bs) :=
  Traced.append_outcome_eq_ok_iff.2 ⟨as, bs, has, hbs, rfl⟩

/-- If everything below an item resolves, so do its children of either class, and everything below
them. -/
lemma Whole.exists_parts (h : i.Whole) :
    ∃ as bs, (i.parts .expression).outcome = .ok as ∧ (i.parts .statement).outcome = .ok bs ∧
      ∀ j ∈ as ++ bs, j.Whole := by
  rcases h with ⟨hjs, hall⟩
  obtain ⟨as, bs, has, hbs, rfl⟩ := Traced.append_outcome_eq_ok_iff.1 hjs
  exact ⟨as, bs, has, hbs, hall⟩

/-- An expression nests no statements. -/
lemma eq_nil_of_expression (hcls : i.kind.cls = .expression)
    (hbs : (i.parts .statement).outcome = .ok bs) : bs = [] := by
  unfold parts at hbs
  unfold Kind.cls at hcls
  rcases hshape : i.kind.shape with operands | ⟨expressions, statements⟩
  · rw [hshape] at hbs
    exact (Except.ok.inj hbs).symm
  · rw [hshape] at hcls
    cases hcls

/-- Through the standard registry, items of standard kinds are resolved. -/
lemma isStandard_of_resolve_standard {h : Handle}
    (hi : (Registry.standard.resolve h).outcome = .ok i) : i.IsStandard := by
  refine isStandard_of_resolve (fun t e he => ?_) hi
  rw [Registry.lookup_standard, Option.map_eq_some_iff] at he
  obtain ⟨ty, _, rfl⟩ := he
  exact ⟨ty, rfl⟩

/-- Items of standard kinds are rendered with their children. -/
lemma IsStandard.listsChildren (hi : i.IsStandard) : i.kind.listsChildren = true := by
  obtain ⟨ty, hty⟩ := hi.kind
  rw [hty]
  cases ty <;> rfl

/-- If everything below an item of a standard kind resolves, it is rendered. -/
theorem IsStandard.render_of_whole (hi : i.IsStandard) (hwhole : i.Whole) :
    i.render.outcome = .ok i.text := by
  induction i using childInduction with
  | step i ih =>
    obtain ⟨as, bs, has, hbs, hall⟩ := hwhole.exists_parts
    have htexts : ∀ j ∈ as ++ bs, j.render.outcome = .ok j.text := by
      intro j hj
      have hchild : i.IsChild j := ⟨as ++ bs, children_of_parts has hbs, hj⟩
      exact ih j hchild (hi.of_isChild hchild) (hall j hj)
    suffices hrender : ∃ t, i.render.outcome = .ok t by
      obtain ⟨t, ht⟩ := hrender
      rw [ht, text_of_render ht]
    cases hcls : i.kind.cls with
    | expression =>
      have htextsAs := (List.forall_mem_append.1 htexts).1
      exact ⟨_, congrArg Traced.outcome (render_of_expression hi.listsChildren hcls has htextsAs)⟩
    | statement =>
      exact ⟨_, congrArg Traced.outcome (render_of_statement hi.listsChildren hcls has hbs htexts)⟩

/-- The children of an item of a standard kind are rendered, if everything below it resolves. -/
lemma IsStandard.render_of_parts (hi : i.IsStandard)
    (has : (i.parts .expression).outcome = .ok as) (hbs : (i.parts .statement).outcome = .ok bs)
    (hall : ∀ j ∈ as ++ bs, j.Whole) : ∀ j ∈ as ++ bs, j.render.outcome = .ok j.text := by
  intro j hj
  have hchild : i.IsChild j := ⟨as ++ bs, children_of_parts has hbs, hj⟩
  exact (hi.of_isChild hchild).render_of_whole (hall j hj)

/-- What follows the name of an item, given the texts of its children: its address, its lists and
its summary. -/
def bodyText (i : Item) (as bs : List Item) : String :=
  match i.kind.cls with
  | .expression => i.ea.text ++ ", ops=" ++ (Text.bracketed (as.map text) ++ i.tailText)
  | .statement =>
    i.ea.text ++ ", st_childs=" ++ (Text.bracketed (bs.map text) ++
      (", expr_childs=" ++ (Text.bracketed (as.map text) ++ i.tailText)))

/-- If everything below an item of a standard kind resolves, its text is its name and what follows
it. -/
theorem IsStandard.text_eq (hi : i.IsStandard) (has : (i.parts .expression).outcome = .ok as)
    (hbs : (i.parts .statement).outcome = .ok bs) (hall : ∀ j ∈ as ++ bs, j.Whole) :
    i.text = i.kind.name ++ "(ea=" ++ i.bodyText as bs := by
  have htexts := hi.render_of_parts has hbs hall
  unfold bodyText
  rcases hcls : i.kind.cls with - | -
  · have htextsAs := (List.forall_mem_append.1 htexts).1
    rw [text_of_render (congrArg Traced.outcome
      (render_of_expression hi.listsChildren hcls has htextsAs)), headText]
    simp only [String.append_assoc]
  · rw [text_of_render (congrArg Traced.outcome
      (render_of_statement hi.listsChildren hcls has hbs htexts)), headText]
    simp only [String.append_assoc]

end Item

end Pseudocode
