import Pseudocode.Proofs.Defect
import Pseudocode.Proofs.Frame
import Pseudocode.Proofs.Rendering
import Pseudocode.Proofs.Walk.Search

/-!
# A rendering identifies what it shows

The text of an item holds the texts of its children, in lists of any length, and a summary that may
quote any text.  Still it can be taken apart in one way only.  The name of the kind ends at the
first parenthesis and tells the construct, hence which lists follow; the address ends at a comma;
each list is in brackets, and the texts in it are those of smaller items; and the summary, if there
is one, ends at a parenthesis or is in quotes (`Item.settles_tailText`).  The step is
`Item.settles_bodyText`, and `Item.Legible.settles_text` is the induction over the items.

A floating point literal, a helper and a type are left out, since they show a float or a name as it
stands.
-/

namespace Pseudocode

open Text

/-! ## Names -/

namespace ExprOp

/-- The stems of the expressions are different. -/
lemma eq_of_stem {op op' : ExprOp} (h : op.stem = op'.stem) : op = op' := by
  have hnodup : (all.map stem).Nodup := by decide +kernel
  exact List.inj_on_of_nodup_map hnodup (List.mem_of_getElem? op.all_getElem?_index)
    (List.mem_of_getElem? op'.all_getElem?_index) h

/-- The stems of the expressions contain no parenthesis. -/
lemma notMem_stem (op : ExprOp) : '(' ∉ op.stem.toList := by
  have hall : ∀ op ∈ all, '(' ∉ op.stem.toList := by decide +kernel
  exact hall op (List.mem_of_getElem? op.all_getElem?_index)

end ExprOp

namespace StmtOp

/-- The stems of the statements are different. -/
lemma eq_of_stem {op op' : StmtOp} (h : op.stem = op'.stem) : op = op' := by
  have hnodup : (all.map stem).Nodup := by decide +kernel
  exact List.inj_on_of_nodup_map hnodup (List.mem_of_getElem? op.all_getElem?_index)
    (List.mem_of_getElem? op'.all_getElem?_index) h

/-- The stems of the statements contain no parenthesis. -/
lemma notMem_stem (op : StmtOp) : '(' ∉ op.stem.toList := by
  have hall : ∀ op ∈ all, '(' ∉ op.stem.toList := by decide +kernel
  exact hall op (List.mem_of_getElem? op.all_getElem?_index)

end StmtOp

namespace Kind

/-- The names of the standard kinds contain no parenthesis. -/
lemma notMem_name_standard (ty : NodeType) : '(' ∉ (standard ty).name.toList := by
  rcases ty with op | op
  · exact notMem_append (by decide) op.notMem_stem
  · exact notMem_append (by decide) op.notMem_stem

/-- The names of the standard kinds begin with the same letter. -/
lemma head?_name_standard (ty : NodeType) : (standard ty).name.toList.head? = some 'C' := by
  rcases ty with op | op <;> rw [standard, String.toList_append] <;> rfl

/-- The names of the standard kinds are different. -/
lemma eq_of_name_standard {ty ty' : NodeType} (h : (standard ty).name = (standard ty').name) :
    ty = ty' := by
  -- The class is told by the second letter, and the construct by the stem.
  have hclass : ∀ s t : String, "CExpr" ++ s ≠ "CStmt" ++ t := by
    intro s t heq
    have hlist := congrArg String.toList heq
    rw [String.toList_append, String.toList_append] at hlist
    exact absurd (List.cons.inj (List.cons.inj hlist).2).1 (by decide)
  rcases ty with op | op <;> rcases ty' with op' | op'
  · exact congrArg NodeType.expr (ExprOp.eq_of_stem (String.append_right_inj _ |>.1 h))
  · exact absurd h (hclass _ _)
  · exact absurd h.symm (hclass _ _)
  · exact congrArg NodeType.stmt (StmtOp.eq_of_stem (String.append_right_inj _ |>.1 h))

/-- The names of the standard kinds end at the first parenthesis and tell the construct. -/
lemma settles_name_standard (ty ty' : NodeType) :
    Settles (ty = ty') ((standard ty).name ++ "(ea=") ((standard ty').name ++ "(ea=") := by
  refine (settles_run (c := '(') rfl ?_ ?_).imp eq_of_name_standard
  · exact notMem_name_standard ty
  · exact notMem_name_standard ty'

end Kind

/-! ## Summaries -/

/-- The node types that show a float, or a name as it stands, which may contain anything. -/
def NodeType.raw : List NodeType := [.expr .fNum, .expr .helper, .expr .type]

/-- A labelled value contains no parenthesis, if neither the label nor any value does. -/
lemma notMem_labelled {α : Type} {o : Option α} {label s : String} {f : α → String}
    (hs : (o.map fun v => label ++ f v) = some s) (hlabel : ')' ∉ label.toList)
    (hf : ∀ v, ')' ∉ (f v).toList) : ')' ∉ s.toList := by
  obtain ⟨v, _, rfl⟩ := Option.map_eq_some_iff.1 hs
  exact notMem_append hlabel (hf v)

namespace ExprOp

/-- The summary of an expression contains no parenthesis, unless it is a text. -/
lemma notMem_summary {op : ExprOp} (hraw : NodeType.expr op ∉ NodeType.raw) (hstr : op ≠ .str)
    {d : Literals} {s : String} (hs : op.summary d = some s) : ')' ∉ s.toList := by
  have haddress : ∀ a : Address, ')' ∉ a.text.toList := by
    intro a hmem
    exact absurd (Address.isAlphanum_of_mem_text hmem) (by decide)
  unfold summary at hs
  split at hs
  · exact notMem_labelled hs (by decide) fun v => notMem_toString_nat v.toNat
  · exact absurd (by decide) hraw
  · exact absurd rfl hstr
  · exact notMem_labelled hs (by decide) haddress
  · exact notMem_labelled hs (by decide) fun v => notMem_toString_nat v.toNat
  · exact absurd (by decide) hraw
  · exact absurd (by decide) hraw
  · exact notMem_labelled hs (by decide) fun v => notMem_toString_nat v.toNat
  · exact notMem_labelled hs (by decide) fun v => notMem_toString_nat v.toNat
  · cases hs

end ExprOp

namespace StmtOp

/-- The summary of a statement contains no parenthesis. -/
lemma notMem_summary {op : StmtOp} {h : Handle} {s : String} (hs : op.summary h = some s) :
    ')' ∉ s.toList := by
  unfold summary at hs
  split at hs
  · exact notMem_labelled hs (by decide) fun v => notMem_toString_int v.toInt
  · cases hs
    exact notMem_append (by decide) (notMem_toString_nat _)
  · cases hs
    exact notMem_append (by decide) (notMem_toString_nat _)
  · cases hs

end StmtOp

/-- Summaries of nodes of one type end with the parenthesis that follows them. -/
lemma settles_summary {ty : NodeType} (hraw : ty ∉ NodeType.raw) {h h' : Handle} {s s' : String}
    (hs : (Kind.standard ty).summary h = some s) (hs' : (Kind.standard ty).summary h' = some s') :
    Settles (s = s') (s ++ ")") (s' ++ ")") := by
  by_cases hstr : ty = .expr .str
  · subst hstr
    obtain ⟨v, _, rfl⟩ := Option.map_eq_some_iff.1 hs
    obtain ⟨v', _, rfl⟩ := Option.map_eq_some_iff.1 hs'
    have hquoted := ((settles_self "value=").append fun _ => settles_quoted v v').append
      fun _ => settles_self ")"
    refine hquoted.imp fun hequal => ?_
    rw [hequal.1.2]
  · rcases ty with op | op
    · have hop : op ≠ .str := fun hop => hstr (congrArg NodeType.expr hop)
      exact settles_run rfl (ExprOp.notMem_summary hraw hop hs) (ExprOp.notMem_summary hraw hop hs')
    · exact settles_run rfl (StmtOp.notMem_summary hs) (StmtOp.notMem_summary hs')

namespace Item

variable {i j : Item}

/-- The ends of renderings settle the summaries. -/
lemma settles_tailText {ty : NodeType} (hraw : ty ∉ NodeType.raw) (hi : i.kind = Kind.standard ty)
    (hj : j.kind = Kind.standard ty) : Settles (i.summary = j.summary) i.tailText j.tailText := by
  have hcomma : ∀ s : String, (", " ++ s ++ ")").toList.head? = some ',' := by
    intro s
    rw [String.append_assoc, String.toList_append]
    rfl
  unfold tailText
  rcases hs : i.summary with - | s <;> rcases hs' : j.summary with - | s'
  · exact (settles_self ")").imp fun _ => rfl
  · exact settles_of_head_ne rfl (hcomma s') (by decide)
  · exact settles_of_head_ne (hcomma s) rfl (by decide)
  · rw [summary, hi] at hs
    rw [summary, hj] at hs'
    have hsummary := (settles_self ", ").append fun _ => settles_summary hraw hs hs'
    rw [← String.append_assoc, ← String.append_assoc] at hsummary
    exact hsummary.imp fun hequal => congrArg some hequal.2

/-! ## What renderings settle -/

/-- What a full traversal shows of an item at a given depth and of what is below it. -/
def trailFrom (i : Item) (depth : Nat) : List (Facts × Nat) :=
  (i.entries depth).map fun v => (v.item.facts, v.depth)

/-- Full traversals of two items show the same, wherever they start. -/
def Alike (i j : Item) : Prop := ∀ depth, i.trailFrom depth = j.trailFrom depth

/-- A full walk shows what the full traversal at depth zero shows. -/
lemma trail_eq_trailFrom (i : Item) : i.trail = i.trailFrom 0 := by
  rw [trail, visits_descending]
  rfl

/-- Items that show the same by themselves, and whose children are alike, are alike. -/
lemma alike_of_children {js ks : List Item} (hjs : i.children.outcome = .ok js)
    (hks : j.children.outcome = .ok ks) (hallJs : ∀ k ∈ js, k.Whole) (hallKs : ∀ k ∈ ks, k.Whole)
    (hfacts : i.facts = j.facts) (hchildren : List.Forall₂ Alike js ks) : Alike i j := by
  intro depth
  have hbelow : (js.flatMap fun k => k.trailFrom (depth + 1)) =
      ks.flatMap fun k => k.trailFrom (depth + 1) := by
    clear hjs hks hallJs hallKs
    induction hchildren with
    | nil => rfl
    | cons hk _ ih => rw [List.flatMap_cons, List.flatMap_cons, hk, ih]
  rw [trailFrom, trailFrom, entries_eq hjs hallJs, entries_eq hks hallKs, List.map_cons,
    List.map_cons, List.map_flatMap, List.map_flatMap, hfacts]
  exact congrArg (_ :: ·) hbelow

/-- An item of the standard registry below which everything resolves, and nothing shows a float or a
name as it stands. -/
structure Legible (i : Item) : Prop where
  resolved : (Registry.standard.resolve i.handle).outcome = .ok i
  whole : i.Whole
  plain : ∀ j, i.Reaches j → ∀ ty ∈ NodeType.raw, j.tag ≠ ty.tag

/-- Such an item is of the kind of its tag. -/
lemma Legible.exists_type (hi : i.Legible) :
    ∃ ty, ty ∉ NodeType.raw ∧ i.tag = ty.tag ∧ i.kind = Kind.standard ty := by
  obtain ⟨e, hl, _, _, hitem⟩ := Registry.resolve_eq_ok_iff.1 hi.resolved
  rw [Registry.lookup_standard, Option.map_eq_some_iff] at hl
  obtain ⟨ty, hty, rfl⟩ := hl
  have htag : i.tag = ty.tag := Tag.type?_eq_some_iff.1 hty
  refine ⟨ty, fun hraw => hi.plain i .refl ty hraw htag, htag, ?_⟩
  rw [hitem]
  rfl

/-- The children of such an item are such items. -/
lemma Legible.of_isChild (hi : i.Legible) (hj : i.IsChild j) : j.Legible := by
  refine ⟨?_, ?_, fun k hk => hi.plain k (.head hj hk)⟩
  · obtain ⟨c, p, _, k, _, hk⟩ := exists_resolveAs_of_children hj
    have hregistry : i.registry = Registry.standard :=
      (resolved_of_resolve (h := i.handle) .refl hi.resolved).registry_eq
    rw [hregistry, Registry.resolveAs_eq_ok_iff] at hk
    rw [Registry.handle_of_resolve hk.1]
    exact hk.1
  · rcases hi.whole with ⟨hjs, hall⟩
    obtain ⟨ks, hks, hmem⟩ := hj
    cases hjs.symm.trans hks
    exact hall j hmem

/-- The text of such an item begins with the letter of all kinds. -/
lemma Legible.head?_text (hi : i.Legible) : i.text.toList.head? = some 'C' := by
  obtain ⟨as, bs, has, hbs, hall⟩ := hi.whole.exists_parts
  obtain ⟨ty, _, _, hkind⟩ := hi.exists_type
  have hstandard := isStandard_of_resolve_standard hi.resolved
  rw [hstandard.text_eq has hbs hall, hkind, String.append_assoc, String.toList_append,
    List.head?_append, Kind.head?_name_standard]
  rfl

variable {as bs as' bs' : List Item}

/-- The lists of such items settle what full traversals show of their items, if the texts of these
do. -/
lemma settles_list (has : ∀ k ∈ as, k.Legible) (has' : ∀ k ∈ as', k.Legible)
    (h : ∀ k ∈ as, ∀ k' ∈ as', Settles (Alike k k') k.text k'.text) :
    Settles (List.Forall₂ Alike as as') (bracketed (as.map text)) (bracketed (as'.map text)) := by
  refine settles_bracketed (c := 'C') (by decide) (fun k hk => ?_) h
  rcases List.mem_append.1 hk with hk | hk
  · exact (has k hk).head?_text
  · exact (has' k hk).head?_text

/-- What follows the names of two items of one kind settles their addresses, their children and
their summaries, if the lists of their children settle. -/
lemma settles_bodyText {ty : NodeType} (hraw : ty ∉ NodeType.raw) (hi : i.kind = Kind.standard ty)
    (hj : j.kind = Kind.standard ty) (hbs : ty.cls = .expression → bs = [] ∧ bs' = [])
    (hlistAs : Settles (List.Forall₂ Alike as as') (bracketed (as.map text))
      (bracketed (as'.map text)))
    (hlistBs : Settles (List.Forall₂ Alike bs bs') (bracketed (bs.map text))
      (bracketed (bs'.map text))) :
    Settles (i.ea = j.ea ∧ i.summary = j.summary ∧ List.Forall₂ Alike (as ++ bs) (as' ++ bs'))
      (i.bodyText as bs) (j.bodyText as' bs') := by
  have hcomma : ∀ a : Address, ',' ∉ a.text.toList := by
    intro a hmem
    exact absurd (Address.isAlphanum_of_mem_text hmem) (by decide)
  have htail := settles_tailText hraw hi hj
  unfold bodyText
  rw [hi, hj, Kind.cls_standard]
  rcases hcls : ty.cls with - | -
  · obtain ⟨rfl, rfl⟩ := hbs hcls
    refine ((settles_run (c := ',') rfl (hcomma _) (hcomma _)).append fun _ =>
      hlistAs.append fun _ => htail).imp ?_
    rintro ⟨hea, has, hsummary⟩
    rw [List.append_nil, List.append_nil]
    exact ⟨Address.eq_of_text hea, hsummary, has⟩
  · refine ((settles_run (c := ',') rfl (hcomma _) (hcomma _)).append fun _ =>
      hlistBs.append fun _ => (settles_self ", expr_childs=").append fun _ =>
        hlistAs.append fun _ => htail).imp ?_
    rintro ⟨hea, hbs, _, has, hsummary⟩
    exact ⟨Address.eq_of_text hea, hsummary, List.rel_append has hbs⟩

/-- The texts of two items settle what full traversals show of them. -/
theorem Legible.settles_text (hi : i.Legible) (hj : j.Legible) :
    Settles (Alike i j) i.text j.text := by
  induction i using childInduction generalizing j with
  | step i ih =>
    obtain ⟨ty, hraw, htag, hkind⟩ := hi.exists_type
    obtain ⟨ty', -, htag', hkind'⟩ := hj.exists_type
    obtain ⟨as, bs, has, hbs, hall⟩ := hi.whole.exists_parts
    obtain ⟨as', bs', has', hbs', hall'⟩ := hj.whole.exists_parts
    have hjs : i.children.outcome = .ok (as ++ bs) := children_of_parts has hbs
    have hks : j.children.outcome = .ok (as' ++ bs') := children_of_parts has' hbs'
    have hlegible : ∀ k ∈ as ++ bs, k.Legible := fun k hk => hi.of_isChild ⟨_, hjs, hk⟩
    have hlegible' : ∀ k ∈ as' ++ bs', k.Legible := fun k hk => hj.of_isChild ⟨_, hks, hk⟩
    have hsettles : ∀ k ∈ as ++ bs, ∀ k' ∈ as' ++ bs', Settles (Alike k k') k.text k'.text :=
      fun k hk k' hk' => ih k ⟨_, hjs, hk⟩ (hlegible k hk) (hlegible' k' hk')
    rw [List.forall_mem_append] at hlegible hlegible'
    have hbody : ty = ty' → Settles
        (i.ea = j.ea ∧ i.summary = j.summary ∧ List.Forall₂ Alike (as ++ bs) (as' ++ bs'))
        (i.bodyText as bs) (j.bodyText as' bs') := by
      rintro rfl
      refine settles_bodyText hraw hkind hkind' (fun hcls => ?_)
        (settles_list hlegible.1 hlegible'.1 fun k hk k' hk' =>
          hsettles k (List.mem_append_left bs hk) k' (List.mem_append_left bs' hk'))
        (settles_list hlegible.2 hlegible'.2 fun k hk k' hk' =>
          hsettles k (List.mem_append_right as hk) k' (List.mem_append_right as' hk'))
      rw [← Kind.cls_standard] at hcls
      exact ⟨eq_nil_of_expression (hkind ▸ hcls) hbs, eq_nil_of_expression (hkind' ▸ hcls) hbs'⟩
    rw [(isStandard_of_resolve_standard hi.resolved).text_eq has hbs hall,
      (isStandard_of_resolve_standard hj.resolved).text_eq has' hbs' hall', hkind, hkind']
    refine ((Kind.settles_name_standard ty ty').append hbody).imp ?_
    rintro ⟨rfl, hea, hsummary, hchildren⟩
    refine alike_of_children hjs hks hall hall' ?_ hchildren
    rw [facts, facts, kindName, kindName, cls, cls, hkind, hkind', hea, hsummary, htag, htag']

/-- A root whose items can be counted, and show no float and no name as it stands, is legible. -/
lemma legible_of_count {h : Handle} {root : Item}
    (hroot : (Registry.standard.resolve h).outcome = .ok root) {n : Nat}
    (hcount : root.count.outcome = .ok n)
    (hplain : ∀ i ∈ root.visited, ∀ ty ∈ NodeType.raw, i.tag ≠ ty.tag) : root.Legible := by
  have hwhole : root.Whole := by
    rw [← walk_descending_eq_ok_iff]
    rw [count_outcome_eq_length] at hcount
    rcases hwalk : (root.walk .descending ()).outcome with f | u
    · rw [hwalk] at hcount
      cases hcount
    · rfl
  refine ⟨?_, hwhole, fun j hj => hplain j ?_⟩
  · rw [Registry.handle_of_resolve hroot]
    exact hroot
  · obtain ⟨v, hv, rfl⟩ := hwhole.exists_mem_entries hj 0
    rw [visited, visits_descending]
    exact List.mem_map_of_mem hv

end Item

/-- **A rendering identifies what it shows.**  Through the standard registry, let two handles
resolve to roots whose items can be counted, and let no item that is visited be a floating point
literal, a helper or a type, which show a float or a name as it stands.  Then both roots are
rendered, and if the texts are the same, full walks show the same: items with the same names,
addresses, tags, classes and summaries, at the same depths and in the same order. -/
theorem rendering_identifies_trail {h h' : Handle} {root root' : Item}
    (hroot : (Registry.standard.resolve h).outcome = .ok root)
    (hroot' : (Registry.standard.resolve h').outcome = .ok root') {n n' : Nat}
    (hcount : root.count.outcome = .ok n) (hcount' : root'.count.outcome = .ok n')
    (hplain : ∀ i ∈ root.visited, ∀ ty ∈ NodeType.raw, i.tag ≠ ty.tag)
    (hplain' : ∀ i ∈ root'.visited, ∀ ty ∈ NodeType.raw, i.tag ≠ ty.tag) :
    ∃ t t', root.render.outcome = .ok t ∧ root'.render.outcome = .ok t' ∧
      (t = t' → root.trail = root'.trail) := by
  have hi := Item.legible_of_count hroot hcount hplain
  have hj := Item.legible_of_count hroot' hcount' hplain'
  refine ⟨root.text, root'.text,
    (Item.isStandard_of_resolve_standard hroot).render_of_whole hi.whole,
    (Item.isStandard_of_resolve_standard hroot').render_of_whole hj.whole, fun htext => ?_⟩
  obtain ⟨halike, -⟩ := hi.settles_text hj [] [] (by rw [htext])
  rw [Item.trail_eq_trailFrom, Item.trail_eq_trailFrom]
  exact halike 0

/-- Two statements over a string of delimiters, of which one also answers an operand that a string
does not show, have the same rendering, and full walks show the same of them. -/
theorem rendering_identifies_trail_hidden_operand :
    let literal (x : Option Handle) : Handle :=
      { ea := 8, op := (NodeType.expr .str).tag, x := x, data := { text := some "\"), [" } }
    let statement (x : Option Handle) : Handle :=
      { ea := 4, op := (NodeType.stmt .exprStmt).tag, cexpr := some (literal x) }
    let h := statement none
    let h' := statement (some { ea := 9, op := (NodeType.expr .num).tag })
    h ≠ h' ∧ (Registry.standard.resolve h).outcome = .ok h.item ∧
      (Registry.standard.resolve h').outcome = .ok h'.item ∧
      h.item.count.outcome = .ok 2 ∧ h'.item.count.outcome = .ok 2 ∧
      (∀ i ∈ h.item.visited, ∀ ty ∈ NodeType.raw, i.tag ≠ ty.tag) ∧
      (∀ i ∈ h'.item.visited, ∀ ty ∈ NodeType.raw, i.tag ≠ ty.tag) ∧
      h.item.render.outcome = h'.item.render.outcome ∧ h.item.trail = h'.item.trail := by
  intro literal statement h h'
  have hresolve : ∀ x, (Registry.standard.resolve (statement x)).outcome = .ok (statement x).item :=
    fun x => Registry.resolve_standard rfl rfl
  have hnone : ∀ x, (statement x).treeDefects = [] := by
    intro x
    have hleaf : (literal x).treeDefects = [] := by
      rw [Handle.treeDefects_eq]
      rfl
    have hvisible : (statement x).visible = [literal x] := rfl
    rw [Handle.treeDefects_eq, hvisible, List.flatMap_singleton, hleaf]
    rfl
  have hreached : ∀ x, (statement x).reached = [statement x, literal x] := by
    intro x
    have hleaf : (literal x).reached = [literal x] := by
      rw [Handle.reached_eq]
      rfl
    have hvisible : (statement x).visible = [literal x] := rfl
    rw [Handle.reached_eq, hvisible, List.flatMap_singleton, hleaf]
  have hcount : ∀ x, (statement x).item.count.outcome = .ok 2 := by
    intro x
    rw [Handle.count_item_outcome, hnone, hreached]
    rfl
  have hplain : ∀ x, ∀ i ∈ (statement x).item.visited, ∀ ty ∈ NodeType.raw, i.tag ≠ ty.tag := by
    intro x
    have hv : Visitor.descending.Descends := fun _ _ _ => rfl
    have hvisited : (statement x).item.visited = [(statement x).item, (literal x).item] := by
      rw [Item.visited, Item.visits_eq_calls, Handle.preorder_item_items hv (hnone x), hreached]
      rfl
    have hstatement : ∀ ty ∈ NodeType.raw, (NodeType.stmt .exprStmt).tag ≠ ty.tag := by decide
    have hliteral : ∀ ty ∈ NodeType.raw, (NodeType.expr .str).tag ≠ ty.tag := by decide
    rw [hvisited]
    exact List.forall_mem_cons.2 ⟨hstatement, List.forall_mem_singleton.2 hliteral⟩
  -- The operand of the string is not part of its text.
  have hliteral : ∀ x, (literal x).item.text = (literal none).item.text := by
    have hparts : ∀ x c, ((literal x).item.parts c).outcome = .ok [] := by
      intro x c
      cases c <;> rfl
    have hstandard : ∀ x, (literal x).item.IsStandard := fun x =>
      Item.isStandard_of_resolve_standard (Registry.resolve_standard rfl rfl)
    intro x
    rw [(hstandard x).text_eq (hparts x _) (hparts x _) (List.forall_mem_nil _),
      (hstandard none).text_eq (hparts none _) (hparts none _) (List.forall_mem_nil _)]
    rfl
  have htext : ∀ x, (statement x).item.text = (statement none).item.text := by
    have hparts : ∀ x, ((statement x).item.parts .expression).outcome = .ok [(literal x).item] :=
      fun x => ((statement x).fillAll_item_outcome .expression _).trans rfl
    have hleaf : ∀ x, (literal x).item.children.outcome = .ok [] := fun x => rfl
    have hwhole : ∀ x, ∀ j ∈ [(literal x).item] ++ [], j.Whole := fun x =>
      List.forall_mem_singleton.2 (.intro (hleaf x) (List.forall_mem_nil _))
    have heq := fun x => (Item.isStandard_of_resolve_standard (hresolve x)).text_eq (hparts x) rfl
      (hwhole x)
    intro x
    rw [heq x, heq none]
    simp only [Item.bodyText, List.map_singleton, hliteral x]
    rfl
  have hrender : ∀ x, (statement x).item.render.outcome = .ok (statement x).item.text := by
    intro x
    have hlegible := Item.legible_of_count (hresolve x) (hcount x) (hplain x)
    exact (Item.isStandard_of_resolve_standard (hresolve x)).render_of_whole hlegible.whole
  have hequal : h.item.render.outcome = h'.item.render.outcome := by
    rw [hrender, hrender, htext (some _)]
  obtain ⟨t, t', ht, ht', htrail⟩ := rendering_identifies_trail (hresolve none) (hresolve _)
    (hcount none) (hcount _) (hplain none) (hplain _)
  refine ⟨?_, hresolve none, hresolve _, hcount none, hcount _, hplain none, hplain _, hequal, ?_⟩
  · intro heq
    have hoperand := congrArg (fun k : Handle => k.cexpr.map Handle.x) heq
    cases hoperand
  · rw [ht, ht'] at hequal
    exact htrail (Except.ok.inj hequal)

end Pseudocode
