import Pseudocode.Proofs.Bisimulation
import Pseudocode.Proofs.Defect

/-!
# What is seen of a handle

A handle answers thirteen accessors for sub-nodes and nine for scalars, and nothing ties the answers
to its tag.  The standard kind of the tag reads a few of them.  `Handle.view` keeps those, at every
depth, and drops the rest: the address, the tag and the flag, the scalar that the kind shows, and at
each place of the construct the views of what is there.  Of a tag off the list only the address and
the tag are seen.

Handles with equal views are related by a bisimulation (`Handle.bisimulation_sameView`), so nothing
that is done with them through the standard kinds tells them apart: the other answers of a handle,
wherever they stand in the tree, have no influence.
-/

namespace Pseudocode

universe u

/-! ## Views -/

/-- What a construct shows of the scalars of its node. -/
inductive Shown where
  | nothing
  | number (value : Option UInt64)
  | float (value : Option Binary64)
  | text (value : Option String)
  | object (ea : Option Address)
  | variableIndex (index : Option UInt32)
  | name (name : Option String)
  | member (offset : Option UInt32)
  | label (number : Option Int32)
  /-- The number of cases of a switch. -/
  | cases (count : Nat)
  /-- The number of inline assembly instructions. -/
  | instructions (count : Nat)
  deriving DecidableEq, Repr

/-- What a construct shows of the scalars of its node. -/
def NodeType.shown (ty : NodeType) (h : Handle) : Shown :=
  match ty with
  | .expr .num => .number h.data.number
  | .expr .fNum => .float h.data.float
  | .expr .str => .text h.data.text
  | .expr .obj => .object h.data.object
  | .expr .var => .variableIndex h.data.variableIndex
  | .expr .helper | .expr .type => .name h.data.name
  | .expr .memRef | .expr .memPtr => .member h.data.member
  | .stmt .gotoStmt => .label h.data.label
  | .stmt .switchStmt => .cases h.cases.length
  | .stmt .asmStmt => .instructions h.data.instructions.length
  | _ => .nothing

/-- What is seen of a handle through the standard kinds. -/
inductive View where
  /-- A node whose tag is off the list. -/
  | unknown (ea : Address) (op : Tag)
  /-- A node of a construct, with the views of what is at each of its places. -/
  | known (ea : Address) (op : Tag) (isExpr : Bool) (shown : Shown) (places : List (List View))

namespace Handle

/-- What is seen of a handle through the standard kinds. -/
def view (h : Handle) : View :=
  match h.op.type? with
  | none => .unknown h.ea h.op
  | some ty =>
    .known h.ea h.op h.isExpr (ty.shown h) (ty.slots.map fun s =>
      (h.answers s.position.accessor).attach.map fun k => k.1.view)
termination_by h.size
decreasing_by exact size_lt_of_mem_answers k.2

variable {h k : Handle}

/-- The view of a handle whose tag is off the list. -/
lemma view_of_none (hty : h.op.type? = none) : h.view = .unknown h.ea h.op := by
  rw [view, hty]

/-- The view of a handle with the tag of a construct. -/
lemma view_of_some {ty : NodeType} (hty : h.op.type? = some ty) :
    h.view = .known h.ea h.op h.isExpr (ty.shown h)
      (ty.slots.map fun s => (h.answers s.position.accessor).map view) := by
  rw [view, hty]
  simp only [List.map_attach_eq_pmap, List.pmap_eq_map]

/-- Handles with equal views have the same address and the same tag. -/
lemma ea_op_of_view (hview : h.view = k.view) : h.ea = k.ea ∧ h.op = k.op := by
  cases hh : h.op.type? with
  | none =>
    cases hk : k.op.type? with
    | none =>
      rw [view_of_none hh, view_of_none hk] at hview
      injection hview with hea hop
      exact ⟨hea, hop⟩
    | some ty =>
      rw [view_of_none hh, view_of_some hk] at hview
      cases hview
  | some ty =>
    cases hk : k.op.type? with
    | none =>
      rw [view_of_some hh, view_of_none hk] at hview
      cases hview
    | some ty' =>
      rw [view_of_some hh, view_of_some hk] at hview
      injection hview with hea hop
      exact ⟨hea, hop⟩

/-- Handles of a construct with equal views have the same flag, show the same scalars, and have
handles with equal views at each place. -/
lemma parts_of_view {ty : NodeType} (hty : h.op.type? = some ty) (hview : h.view = k.view) :
    h.isExpr = k.isExpr ∧ ty.shown h = ty.shown k ∧ ∀ s ∈ ty.slots,
      (h.answers s.position.accessor).map view = (k.answers s.position.accessor).map view := by
  have hk : k.op.type? = some ty := by rw [← (ea_op_of_view hview).2, hty]
  rw [view_of_some hty, view_of_some hk] at hview
  injection hview with _ _ hflag hshown hplaces
  exact ⟨hflag, hshown, fun s hs => List.map_inj_left.1 hplaces s hs⟩

end Handle

/-- What a construct shows decides the summary that its kind gives. -/
lemma Kind.summary_standard_congr {ty : NodeType} {h k : Handle} (hs : ty.shown h = ty.shown k) :
    (Kind.standard ty).summary h = (Kind.standard ty).summary k := by
  cases ty with
  | expr op => cases op <;> simp_all [NodeType.shown, Kind.standard, ExprOp.summary]
  | stmt op => cases op <;> simp_all [NodeType.shown, Kind.standard, StmtOp.summary]

/-! ## Equal views are a bisimulation -/

/-- The items are what the standard registry makes of handles with equal views. -/
def Item.SameView (i j : Item) : Prop := ∃ h k : Handle, i = h.item ∧ j = k.item ∧ h.view = k.view

namespace Handle

variable {h k : Handle}

/-- Lists of handles with equal views are alike, one by one. -/
lemma forall₂_view {hs ks : List Handle} (hmap : hs.map view = ks.map view) :
    List.Forall₂ (fun h k => h.view = k.view) hs ks := by
  refine List.forall₂_map_left_iff.1 (List.forall₂_map_right_iff.1 ?_)
  rw [hmap]
  exact List.forall₂_refl _

/-- The items over handles with equal views are of one kind. -/
lemma kind_item_of_view (hview : h.view = k.view) : h.item.kind = k.item.kind := by
  rw [item, item, (ea_op_of_view hview).2]

/-- Handles with equal views are resolved alike. -/
theorem resolve_sameView (hview : h.view = k.view) :
    Traced.Related Item.SameView (Registry.standard.resolve h) (Registry.standard.resolve k) := by
  obtain ⟨hea, hop⟩ := ea_op_of_view hview
  cases hty : h.op.type? with
  | none =>
    have hl : Registry.standard.lookup h.op = none := by
      rw [Registry.lookup_standard, hty, Option.map_none]
    have hl' : Registry.standard.lookup k.op = none := by rw [← hop, hl]
    rw [Registry.resolve, Registry.resolve, hl, hl', hea, hop]
    exact .failed rfl rfl rfl
  | some ty =>
    have hl : Registry.standard.lookup h.op = some (Kind.standard ty).registration := by
      rw [Registry.lookup_standard, hty, Option.map_some]
    have hl' : Registry.standard.lookup k.op = some (Kind.standard ty).registration := by
      rw [← hop, hl]
    have hitems : Item.SameView ⟨Kind.standard ty, h, Registry.standard⟩
        ⟨Kind.standard ty, k, Registry.standard⟩ := by
      refine ⟨h, k, ?_, ?_, hview⟩
      · rw [item, hty, Option.getD_some]
      · rw [item, ← hop, hty, Option.getD_some]
    have hflag := (parts_of_view hty hview).1
    rw [Registry.resolve, Registry.resolve, hl, hl', hea, hop, hflag]
    dsimp only
    split_ifs
    · exact Traced.related_error _
    · exact (Traced.related_ok hitems).after _
    · exact .failed rfl rfl rfl

/-- Items over handles with equal views show the same. -/
lemma facts_of_sameView {i j : Item} (hij : i.SameView j) :
    i.facts = j.facts ∧ i.kind = j.kind := by
  obtain ⟨h, k, rfl, rfl, hview⟩ := hij
  obtain ⟨hea, hop⟩ := ea_op_of_view hview
  have hkind := kind_item_of_view hview
  have hsummary : h.item.summary = k.item.summary := by
    rw [Item.summary, Item.summary, ← hkind]
    cases hty : h.op.type? with
    | none =>
      have hempty : h.item.kind = Kind.standard (.expr .empty) := by
        rw [item, hty, Option.getD_none]
      rw [hempty]
      rfl
    | some ty =>
      have hstandard : h.item.kind = Kind.standard ty := by rw [item, hty, Option.getD_some]
      rw [hstandard]
      exact Kind.summary_standard_congr (parts_of_view hty hview).2.1
  refine ⟨?_, hkind⟩
  have hname : h.item.kindName = k.item.kindName := congrArg Kind.name hkind
  have hcls : h.item.cls = k.item.cls := congrArg Kind.cls hkind
  have hea' : h.item.ea = k.item.ea := hea
  have hop' : h.item.tag = k.item.tag := hop
  rw [Item.facts, Item.facts, hname, hea', hop', hcls, hsummary]

/-- Handles with equal views are resolved to a class alike. -/
lemma resolveAs_sameView (c : Class) (hview : h.view = k.view) :
    Traced.Related Item.SameView (Registry.standard.resolveAs c h)
      (Registry.standard.resolveAs c k) := by
  refine Item.resolveAs_related c (fun i j hij => ?_) (resolve_sameView hview)
  have hfacts := (facts_of_sameView hij).1
  simp only [Item.facts, Facts.mk.injEq] at hfacts
  obtain ⟨_, hea, htag, hcls, _⟩ := hfacts
  exact ⟨hcls, hea, htag⟩

/-- A position of the standard kind of a construct is one of the places of the construct. -/
lemma mem_slots_of_positions {ty : NodeType} {c : Class} {p : Position}
    (hp : p ∈ (Kind.standard ty).shape.positions c) : (⟨c, p⟩ : Slot) ∈ ty.slots := by
  rw [ty.slots_eq, List.mem_append]
  cases c with
  | expression => exact .inl (List.mem_map_of_mem hp)
  | statement => exact .inr (List.mem_map_of_mem hp)

/-- Equal views are a bisimulation: the children of items with equal views have equal views. -/
theorem bisimulation_sameView : Item.Bisimulation Item.SameView := by
  rintro i j ⟨h, k, rfl, rfl, hview⟩ c
  rw [Item.parts, Item.parts, ← kind_item_of_view hview]
  refine Item.fillAll_related (kind_item_of_view hview) (ea_op_of_view hview).1
    (fun l m hlm => resolveAs_sameView c hlm) fun p hp => forall₂_view ?_
  cases hty : h.op.type? with
  | none =>
    have hempty : h.item.kind = Kind.standard (.expr .empty) := by rw [item, hty, Option.getD_none]
    rw [hempty] at hp
    cases mem_slots_of_positions hp
  | some ty =>
    have hstandard : h.item.kind = Kind.standard ty := by rw [item, hty, Option.getD_some]
    rw [hstandard] at hp
    exact (parts_of_view hty hview).2.2 ⟨c, p⟩ (mem_slots_of_positions hp)

end Handle

/-- **A kind reads only its own accessors.**  Handles with equal views are resolved alike by the
standard kinds, with the same facts, the same errors and the same log, and what they are resolved to
cannot be told apart by its facts: it is rendered to the same text, has the same children and
equally many items below it, and is walked and searched with the same results.  Whatever else the
handles answer, at any depth, plays no part. -/
theorem equal_views_equal_results {h k : Handle} (hview : h.view = k.view) :
    Item.facts <$> Registry.standard.resolve h = Item.facts <$> Registry.standard.resolve k ∧
      ∀ i j, (Registry.standard.resolve h).outcome = .ok i →
        (Registry.standard.resolve k).outcome = .ok j → Item.SameResults.{u} i j := by
  have hrelated := Handle.resolve_sameView hview
  refine ⟨hrelated.map_eq fun i j hij => (Handle.facts_of_sameView hij).1, fun i j hi hj => ?_⟩
  have hfacts : ∀ i j : Item, i.SameView j →
      i.facts = j.facts ∧ i.kind.listsChildren = j.kind.listsChildren := by
    intro i j hij
    obtain ⟨hshow, hkind⟩ := Handle.facts_of_sameView hij
    exact ⟨hshow, by rw [hkind]⟩
  cases hrelated with
  | ok _ hs ht hij =>
    cases hs.symm.trans hi
    cases ht.symm.trans hj
    exact Handle.bisimulation_sameView.sameResults hfacts hij
  | failed _ hs _ => cases hs.symm.trans hi

/-- A conditional whose handle also answers the body of a loop and whose condition also answers an
operand, each with a tag off the list, gives the results of the plain conditional. -/
theorem equal_views_equal_results_foreign_answers :
    let foreign : Handle := { ea := 7, op := ⟨99⟩ }
    let literal : Handle :=
      { ea := 1, op := (NodeType.expr .num).tag, data := { number := some 5 } }
    let block : Handle := { ea := 2, op := (NodeType.stmt .block).tag }
    let plain : Handle :=
      { ea := 0, op := (NodeType.stmt .ifStmt).tag, cexpr := some literal, ithen := some block }
    let odd : Handle := { plain with
      cexpr := some { literal with x := some foreign }, body := some foreign }
    plain.view = odd.view ∧ plain ≠ odd ∧
      Item.facts <$> Registry.standard.resolve plain =
        Item.facts <$> Registry.standard.resolve odd ∧
      Item.SameResults.{0} plain.item odd.item := by
  intro foreign literal block plain odd
  have htype : plain.op.type? = some (.stmt .ifStmt) := NodeType.type?_tag _
  have hliteral : ∀ l : Handle, l.op = (NodeType.expr .num).tag → l.view =
      .known l.ea l.op l.isExpr (.number l.data.number) [] := by
    intro l hop
    have hnum : l.op.type? = some (.expr .num) := by rw [hop, NodeType.type?_tag]
    exact Handle.view_of_some hnum
  have hview : plain.view = odd.view := by
    rw [Handle.view_of_some htype, Handle.view_of_some (h := odd) htype]
    simp [NodeType.slots, StmtOp.slots, Handle.answers, plain, odd, Position.one, Position.any,
      hliteral literal rfl, hliteral { literal with x := some foreign } rfl, NodeType.shown]
  have hne : plain ≠ odd := by
    intro heq
    cases congrArg Handle.body heq
  have hitem : ∀ l : Handle, l.op = (NodeType.stmt .ifStmt).tag → l.isExpr = l.op.isExpr →
      (Registry.standard.resolve l).outcome = .ok l.item := by
    intro l hop hflag
    rw [Handle.item, hop, NodeType.type?_tag]
    exact Registry.resolve_standard hop hflag
  obtain ⟨hresolve, hresults⟩ := equal_views_equal_results hview
  exact ⟨hview, hne, hresolve, hresults _ _ (hitem plain rfl rfl) (hitem odd rfl rfl)⟩

end Pseudocode
