import Pseudocode.Proofs.Access
import Pseudocode.Proofs.Visible

/-!
# Typed access and children

The children of an item can be had in two ways: as the list that its kind reads off its positions,
or part by part through the typed accessors, after the item has been seen as the standard kind of
its tag.  `NodeType.typedParts` lists the typed accessors of every construct in the order of the
language, each as a list of items: a part that must be there, one that may be absent, or a list.

The list of children is what these give when they are read one after the other
(`children_eq_concat_typedParts`), with the same log and the same first error.  Hence it exists
exactly if every typed accessor succeeds, and is their concatenation.  A place of a construct is
matched with its accessor by three lemmas on `Item.fill`, one for each sort of place; blocks and
switches, whose accessors go by index and by case, have one of their own.
-/

namespace Pseudocode

universe u

variable {α : Type u}

/-! ## Lists that are read one after the other -/

namespace Traced

/-- One value as a list. -/
def single (t : Traced α) : Traced (List α) := t.andThen fun a => ok [a]

/-- Lists that are read one after the other, up to the first failure. -/
def concat : List (Traced (List α)) → Traced (List α)
  | [] => ok []
  | t :: ts => t.andThen fun as => (concat ts).andThen fun bs => ok (as ++ bs)

/-- Reading a single list gives that list. -/
lemma concat_singleton (t : Traced (List α)) : concat [t] = t := by
  simp only [concat, ok_andThen, List.append_nil]
  exact andThen_ok t

/-- Two groups of lists are read one after the other. -/
lemma concat_append (ss ts : List (Traced (List α))) :
    concat (ss ++ ts) =
      (concat ss).andThen fun as => (concat ts).andThen fun bs => ok (as ++ bs) := by
  induction ss with
  | nil => exact (andThen_ok (concat ts)).symm
  | cons s ss ih =>
    rw [List.cons_append, concat, concat, ih]
    simp only [andThen_assoc, ok_andThen, List.append_assoc]

/-- Mapping a list reads one value after the other. -/
lemma mapM_eq_concat {β : Type*} (f : β → Traced α) (bs : List β) :
    bs.mapM f = concat (bs.map fun b => (f b).single) := by
  induction bs with
  | nil => rfl
  | cons b bs ih =>
    rw [List.mapM_cons, List.map_cons, concat, ← ih, single]
    simp only [bind_eq, pure_eq, andThen_assoc, ok_andThen]
    rfl

/-- Reading lists one after the other succeeds exactly if each of them is read, and gives their
concatenation. -/
lemma concat_outcome_eq_ok_iff {ts : List (Traced (List α))} {as : List α} :
    (concat ts).outcome = .ok as ↔
      ∃ parts, List.Forall₂ (fun t part => t.outcome = .ok part) ts parts ∧ as = parts.flatten := by
  induction ts generalizing as with
  | nil =>
    simp only [List.forall₂_nil_left_iff, exists_eq_left]
    constructor
    · intro h
      exact (Except.ok.inj h).symm
    · rintro rfl
      rfl
  | cons t ts ih =>
    rw [concat, append_outcome_eq_ok_iff]
    constructor
    · rintro ⟨here, there, hhere, hthere, rfl⟩
      obtain ⟨parts, hparts, rfl⟩ := ih.1 hthere
      exact ⟨here :: parts, .cons hhere hparts, rfl⟩
    · rintro ⟨parts, hparts, rfl⟩
      cases hparts with
      | @cons _ here _ parts hhere hparts =>
        exact ⟨here, parts.flatten, hhere, ih.2 ⟨parts, hparts, rfl⟩, rfl⟩

/-- Reading lists one after the other succeeds exactly if each of them is read. -/
lemma exists_concat_eq_ok_iff {ts : List (Traced (List α))} :
    (∃ as, (concat ts).outcome = .ok as) ↔ ∀ t ∈ ts, ∃ part, t.outcome = .ok part := by
  induction ts with
  | nil => exact ⟨fun _ => nofun, fun _ => ⟨[], rfl⟩⟩
  | cons t ts ih =>
    rw [List.forall_mem_cons, ← ih]
    constructor
    · rintro ⟨as, has⟩
      obtain ⟨here, there, hhere, hthere, _⟩ := append_outcome_eq_ok_iff.1 has
      exact ⟨⟨here, hhere⟩, there, hthere⟩
    · rintro ⟨⟨here, hhere⟩, there, hthere⟩
      exact ⟨here ++ there, append_outcome_eq_ok_iff.2 ⟨here, there, hhere, hthere, rfl⟩⟩

end Traced

/-! ## The typed accessors of a construct -/

/-- The statements of a block by their indices. -/
def Block.elements (i : Item) : List (Traced (List Item)) :=
  (List.range (Block.length i)).filterMap fun n => (Block.get? i n).map Traced.single

/-- What the typed accessors of an expression give, by its shape.  The statement inside an embedded
instruction is not among them: its accessor is for that statement alone. -/
def Family.typedParts (i : Item) : Family → List (Traced (List Item))
  | leaf => []
  | unary => [(Unary.operand i).single]
  | member => [(Member.object i).single]
  | binary => [(Binary.left i).single, (Binary.right i).single]
  | ternary =>
    [(Ternary.condition i).single, (Ternary.thenValue i).single, (Ternary.elseValue i).single]
  | call => [(Call.callee i).single, Call.arguments i]

/-- What the typed accessors of a statement give. -/
def StmtOp.typedParts (i : Item) : StmtOp → List (Traced (List Item))
  | .block => Block.elements i
  | .exprStmt => [(ExprStatement.expression i).single]
  | .ifStmt =>
    [(If.condition i).single, (If.thenBranch i).single, Option.toList <$> If.elseBranch i]
  | .forStmt =>
    [(For.init i).single, (For.condition i).single, (For.step i).single, (For.body i).single]
  | .whileStmt | .doStmt => [(Loop.condition i).single, (Loop.body i).single]
  | .switchStmt => [(Switch.selector i).single, List.map Switch.Case.body <$> Switch.cases i]
  | .returnStmt => [Option.toList <$> Return.value i]
  | .empty | .breakStmt | .continueStmt | .gotoStmt | .asmStmt => []

/-- What the typed accessors of a construct give, in order. -/
def NodeType.typedParts (ty : NodeType) (i : Item) : List (Traced (List Item)) :=
  match ty with
  | .expr op => op.family.typedParts i
  | .stmt op => op.typedParts i

/-! ## Places and accessors -/

namespace Item

variable {i : Item} {c : Class} {a : Accessor}

/-- The children at a place where one child must be are what the accessor gives. -/
lemma fill_one {o : Option Handle} (h : i.handle.answers a = o.toList) :
    i.fill c (.one a) = (i.required c a).single := by
  rw [fill, required, Position.one, h]
  cases o with
  | none => rfl
  | some k => exact (Traced.mapM_eq_concat _ [k]).trans (Traced.concat_singleton _)

/-- The children at a place where one child may be are what the accessor gives. -/
lemma fill_any_of_option {o : Option Handle} (h : i.handle.answers a = o.toList) :
    i.fill c (.any a) = Option.toList <$> i.optional c a := by
  rw [fill, optional, Position.any, h]
  cases o with
  | none => rfl
  | some k =>
    refine (Traced.mapM_eq_concat _ [k]).trans ((Traced.concat_singleton _).trans ?_)
    simp only [Option.toList, Traced.map_eq_andThen, Traced.andThen_assoc, Traced.ok_andThen]
    rfl

/-- The children at a list-valued place are what the accessor gives. -/
lemma fill_any (i : Item) (c : Class) (a : Accessor) : i.fill c (.any a) = i.every c a := rfl

/-- The bodies of the cases of a switch are the statements nested in it. -/
lemma fill_cases (i : Item) :
    i.fill .statement (.any .cases) = List.map Switch.Case.body <$> Switch.cases i := by
  rw [fill_any, every, Handle.answers, List.mapM_map]
  refine Traced.mapM_eq_map_mapM fun case _ => ?_
  simp only [Traced.bind_eq, Traced.pure_eq, Traced.map_eq_andThen, Traced.andThen_assoc,
    Traced.ok_andThen]
  exact (Traced.andThen_ok _).symm

/-- The statements of a block are found at its indices. -/
lemma fill_block (i : Item) :
    i.fill .statement (.any .block) = Traced.concat (Block.elements i) := by
  have hrange : ∀ (f : Handle → Traced (List Item)) (ks : List Handle),
      (List.range ks.length).filterMap (fun n => ks[n]?.map f) = ks.map f := by
    intro f ks
    induction ks with
    | nil => rfl
    | cons k ks ih =>
      rw [List.length_cons, List.range_succ_eq_map, List.filterMap_cons, List.filterMap_map]
      exact congrArg (f k :: ·) ih
  have helements : Block.elements i =
      i.handle.block.map fun k => (i.registry.resolveAs .statement k).single := by
    rw [← hrange]
    refine List.filterMap_congr fun n _ => ?_
    rw [Block.get?, Option.map_map]
    rfl
  rw [helements, ← Traced.mapM_eq_concat]
  rfl

/-! ## Children by typed accessors -/

/-- The children at a list of positions are read one position after the other. -/
lemma fillAll_eq_concat (i : Item) (c : Class) (ps : List Position) :
    i.fillAll c ps = Traced.concat (ps.map (i.fill c)) := by
  induction ps with
  | nil => rfl
  | cons p ps ih =>
    rw [fillAll, ih]
    rfl

/-- The children of an item of a standard kind are read one place after the other. -/
lemma children_eq_concat_slots {ty : NodeType} (h : i.kind = Kind.standard ty) :
    i.children = Traced.concat (ty.slots.map fun s => i.fill s.cls s.position) := by
  rw [ty.slots_eq, List.map_append, List.map_map, List.map_map, Traced.concat_append, ← h]
  exact congrArg₂ (fun s t => Traced.andThen s fun as => Traced.andThen t fun bs =>
    Traced.ok (as ++ bs)) (i.fillAll_eq_concat .expression _) (i.fillAll_eq_concat .statement _)

/-- The places of an expression are matched by its typed accessors. -/
lemma map_slots_family (i : Item) (f : Family) :
    (f.slots.map fun s => i.fill s.cls s.position) = f.typedParts i := by
  have hx : i.fill .expression (.one .x) = (i.required .expression .x).single := fill_one rfl
  have hy : i.fill .expression (.one .y) = (i.required .expression .y).single := fill_one rfl
  have hz : i.fill .expression (.one .z) = (i.required .expression .z).single := fill_one rfl
  cases f <;> simp only [Family.slots, List.map_cons, List.map_nil, hx, hy, hz, fill_any] <;> rfl

/-- The places of a statement are read as its typed accessors are.  Only for a block are there more
accessors than places. -/
lemma concat_slots_statement (i : Item) (op : StmtOp) :
    Traced.concat (op.slots.map fun s => i.fill s.cls s.position) =
      Traced.concat (op.typedParts i) := by
  have hcexpr : i.fill .expression (.one .cexpr) = (i.required .expression .cexpr).single :=
    fill_one rfl
  have hbody : i.fill .statement (.one .body) = (i.required .statement .body).single :=
    fill_one rfl
  cases op with
  | block => exact (Traced.concat_singleton _).trans i.fill_block
  | ifStmt =>
    have hthen : i.fill .statement (.one .ithen) = (i.required .statement .ithen).single :=
      fill_one rfl
    have helse : i.fill .statement (.any .ielse) = Option.toList <$> i.optional .statement .ielse :=
      fill_any_of_option rfl
    simp only [StmtOp.slots, List.map_cons, List.map_nil, hcexpr, hthen, helse]
    rfl
  | forStmt =>
    have hinit : i.fill .expression (.one .init) = (i.required .expression .init).single :=
      fill_one rfl
    have hstep : i.fill .expression (.one .step) = (i.required .expression .step).single :=
      fill_one rfl
    simp only [StmtOp.slots, List.map_cons, List.map_nil, hinit, hcexpr, hstep, hbody]
    rfl
  | switchStmt =>
    simp only [StmtOp.slots, List.map_cons, List.map_nil, hcexpr, fill_cases]
    rfl
  | returnStmt =>
    have hvalue : i.fill .expression (.any .cexpr) =
        Option.toList <$> i.optional .expression .cexpr := fill_any_of_option rfl
    simp only [StmtOp.slots, List.map_cons, List.map_nil, hvalue]
    rfl
  | exprStmt | whileStmt | doStmt =>
    simp only [StmtOp.slots, List.map_cons, List.map_nil, hcexpr, hbody]
    rfl
  | empty | breakStmt | continueStmt | gotoStmt | asmStmt => rfl

/-- The children of an item of a standard kind are what the typed accessors of the kind give, read
one after the other. -/
theorem children_eq_concat_typedParts {ty : NodeType} (h : i.kind = Kind.standard ty) :
    i.children = Traced.concat (ty.typedParts i) := by
  rw [children_eq_concat_slots h]
  cases ty with
  | expr op => exact congrArg Traced.concat (i.map_slots_family op.family)
  | stmt op => exact i.concat_slots_statement op

/-! ## What the accessors say about their lists -/

/-- The lists that the typed accessors give are as long as their counts say, and in order: the
arguments of a call, the branch not taken, the cases of a switch and the statements of a block. -/
structure Counted (i : Item) : Prop where
  arguments : ∀ js, (Call.arguments i).outcome = .ok js → js.length = Call.argumentCount i
  elseBranch : ∀ j, (If.elseBranch i).outcome = .ok j → j.isSome = If.hasElse i
  cases : ∀ cs, (Switch.cases i).outcome = .ok cs →
    cs.map Switch.Case.values = i.handle.cases.map Prod.fst
  element : ∀ n, Block.get? i n = none ↔ Block.length i ≤ n

/-- A branch that may be absent is given exactly if it is there. -/
lemma isSome_elseBranch {j : Option Item} (h : (If.elseBranch i).outcome = .ok j) :
    j.isSome = If.hasElse i := by
  unfold If.hasElse
  simp only [If.elseBranch, optional, Handle.answers] at h
  cases helse : i.handle.ielse with
  | none =>
    rw [helse] at h
    cases h
    rfl
  | some k =>
    rw [helse] at h
    obtain ⟨k', _, hsome⟩ := Traced.andThen_outcome_eq_ok.1 h
    cases hsome
    rfl

/-- The cases of a switch have the values of the handle. -/
lemma map_values_cases {cs : List Switch.Case} (h : (Switch.cases i).outcome = .ok cs) :
    cs.map Switch.Case.values = i.handle.cases.map Prod.fst := by
  have hpairs : List.Forall₂ (fun v case => v.1 = case.values) i.handle.cases cs := by
    refine (Traced.mapM_outcome_eq_ok_iff.1 h).imp fun v case hcase => ?_
    obtain ⟨body, _, hok⟩ := Traced.andThen_outcome_eq_ok.1 hcase
    cases hok
    rfl
  have hmaps : List.Forall₂ (· = ·) (i.handle.cases.map Prod.fst) (cs.map Switch.Case.values) :=
    List.forall₂_map_left_iff.2 (List.forall₂_map_right_iff.2 hpairs)
  rw [List.forall₂_eq_eq_eq] at hmaps
  exact hmaps.symm

/-- The lists that the typed accessors give are as long as their counts say, and in order. -/
lemma counted (i : Item) : i.Counted where
  arguments js hjs := (Traced.mapM_outcome_eq_ok_iff.1 hjs).length_eq.symm
  elseBranch _ hj := isSome_elseBranch hj
  cases _ hcs := map_values_cases hcs
  element n := by
    rw [Block.get?, Option.map_eq_none_iff, List.getElem?_eq_none_iff]
    rfl

/-- An item is seen as the standard kind of a construct exactly if it has the tag of the construct;
only the kind changes. -/
lemma as?_standard (i : Item) (ty : NodeType) :
    i.as? (Kind.standard ty) =
      if i.tag = ty.tag then some { i with kind := Kind.standard ty } else none := by
  have hne : ty.tag ≠ Tag.absent := by
    intro habsent
    apply Tag.not_listed_absent
    rw [← habsent]
    exact Tag.listed_tag ty
  have hhandles : (Kind.standard ty).handles i.tag = true ↔ i.tag = ty.tag := by
    rw [Kind.handles, Kind.tag_standard, Tag.claims, Bool.and_eq_true, bne_iff_ne, beq_iff_eq]
    constructor
    · rintro ⟨_, htag⟩
      exact htag.symm
    · intro htag
      exact ⟨hne, htag.symm⟩
  unfold as?
  exact if_congr hhandles rfl rfl

end Item

/-- **Typed and generic access agree.**  An item that was resolved is seen as the standard kind of
exactly one construct, the one of its tag, whatever kind wraps it, and then has the same handle and
registry.  The children of that kind are what its typed accessors give, read one after the other up
to the first failure: they are there exactly if every accessor succeeds, and are the concatenation
of what the accessors give.  The accessors' lists are as long as their counts say. -/
theorem typed_access_agrees_with_children {r : Registry} {h : Handle} {i : Item}
    (hi : (r.resolve h).outcome = .ok i) :
    ∃ ty : NodeType, i.tag = ty.tag ∧
      (∀ other, (i.as? (Kind.standard other)).isSome = true ↔ other = ty) ∧
      let seen : Item := ⟨Kind.standard ty, h, r⟩
      i.as? (Kind.standard ty) = some seen ∧
        seen.children = Traced.concat (ty.typedParts seen) ∧
        ((∃ js, seen.children.outcome = .ok js) ↔
          ∀ t ∈ ty.typedParts seen, ∃ part, t.outcome = .ok part) ∧
        (∀ js, seen.children.outcome = .ok js ↔ ∃ parts,
          List.Forall₂ (fun t part => t.outcome = .ok part) (ty.typedParts seen) parts ∧
            js = parts.flatten) ∧
        seen.Counted := by
  have hresolved : Item.Resolved r h i := Item.resolved_of_resolve .refl hi
  obtain ⟨ty, hty⟩ := Option.isSome_iff_exists.1 hresolved.type?_isSome
  have htag : i.tag = ty.tag := Tag.type?_eq_some_iff.1 hty
  have hhandle : i.handle = h := Registry.handle_of_resolve hi
  have hregistry : i.registry = r := hresolved.registry_eq
  refine ⟨ty, htag, fun other => ?_, ?_⟩
  · rw [Item.as?_standard]
    constructor
    · intro hsome
      split_ifs at hsome with hother
      · exact NodeType.tag_injective (hother.symm.trans htag)
      · cases hsome
    · rintro rfl
      rw [if_pos htag]
      rfl
  · intro seen
    have hchildren : seen.children = Traced.concat (ty.typedParts seen) :=
      Item.children_eq_concat_typedParts rfl
    refine ⟨?_, hchildren, ?_, fun js => ?_, seen.counted⟩
    · rw [Item.as?_standard, if_pos htag, hhandle, hregistry]
    · rw [hchildren]
      exact Traced.exists_concat_eq_ok_iff
    · rw [hchildren]
      exact Traced.concat_outcome_eq_ok_iff

/-- Conditionals that a registry wraps as blocks: they have no children as blocks, but they are not
seen as blocks.  As the conditional that it is seen as, one without parts lacks its condition, and
one with all parts has its condition and its two branches as children. -/
theorem typed_access_agrees_with_children_foreign_wrapper :
    let block := Kind.standard (.stmt .block)
    let conditional := Kind.standard (.stmt .ifStmt)
    let literal := Kind.standard (.expr .num)
    let jump := Kind.standard (.stmt .breakStmt)
    let entry : Registration := ⟨conditional.tag, "Foreign", block, conditional.handles⟩
    let r := ((Registry.empty.insert literal.registration).insert jump.registration).insert entry
    let bare : Handle := { ea := 0, op := conditional.tag }
    let test : Handle := { ea := 4, op := literal.tag }
    let first : Handle := { ea := 8, op := jump.tag }
    let second : Handle := { ea := 12, op := jump.tag }
    let full : Handle :=
      { ea := 0, op := conditional.tag, cexpr := some test, ithen := some first,
        ielse := some second }
    let seen (h : Handle) : Item := ⟨conditional, h, r⟩
    (∀ h ∈ [bare, full],
      let i : Item := ⟨block, h, r⟩
      (r.resolve h).outcome = .ok i ∧ i.children.outcome = .ok [] ∧
        i.as? block = none ∧ i.as? conditional = some (seen h) ∧
        (seen h).children = Traced.concat
          [(If.condition (seen h)).single, (If.thenBranch (seen h)).single,
            Option.toList <$> If.elseBranch (seen h)]) ∧
      (¬ ∃ js, (seen bare).children.outcome = .ok js) ∧
      (seen full).children.outcome =
        .ok [⟨literal, test, r⟩, ⟨jump, first, r⟩, ⟨jump, second, r⟩] := by
  intro block conditional literal jump entry r bare test first second full seen
  have hlookup : ∀ t, r.lookup t =
      if t = conditional.tag then some entry else if t = jump.tag then some jump.registration
      else if t = literal.tag then some literal.registration else none := by
    have hentry : entry.tag.Listed := by decide
    have hjump : jump.registration.tag.Listed := by decide
    have hliteral : literal.registration.tag.Listed := by decide
    intro t
    rw [Registry.lookup_insert hentry, Registry.lookup_insert hjump,
      Registry.lookup_insert hliteral, Registry.lookup_empty]
    rfl
  have hresolve : ∀ h : Handle, h.op = conditional.tag → h.isExpr = h.op.isExpr →
      (r.resolve h).outcome = .ok ⟨block, h, r⟩ := by
    intro h hop hflag
    have hl : r.lookup h.op = some entry := by rw [hlookup, if_pos hop]
    refine Registry.resolve_of_agree hl hflag ?_
    rw [hop]
    decide
  have htest : (r.resolveAs .expression test).outcome = .ok ⟨literal, test, r⟩ := by
    have hl : r.lookup test.op = some literal.registration := by
      rw [hlookup, if_neg (by decide), if_neg (by decide), if_pos rfl]
    have hok := Registry.resolve_of_agree hl rfl (by decide)
    exact Registry.resolveAs_eq_ok_iff.2 ⟨hok, rfl⟩
  have hbranch : ∀ h : Handle, h.op = jump.tag → h.isExpr = h.op.isExpr →
      (r.resolveAs .statement h).outcome = .ok ⟨jump, h, r⟩ := by
    intro h hop hflag
    have hl : r.lookup h.op = some jump.registration := by
      rw [hlookup, hop, if_neg (by decide), if_pos rfl]
    refine Registry.resolveAs_eq_ok_iff.2 ⟨Registry.resolve_of_agree hl hflag ?_, rfl⟩
    rw [hop]
    decide
  refine ⟨fun h hh => ?_, fun hjs => ?_, ?_⟩
  · intro i
    obtain ⟨hi, hleaf, hop⟩ : (r.resolve h).outcome = .ok i ∧ i.children.outcome = .ok [] ∧
        conditional.tag = i.tag := by
      rcases List.mem_pair.1 hh with rfl | rfl
      · exact ⟨hresolve bare rfl rfl, rfl, rfl⟩
      · exact ⟨hresolve full rfl rfl, rfl, rfl⟩
    obtain ⟨ty, htag, howner, hseen, hchildren, _⟩ := typed_access_agrees_with_children hi
    obtain rfl : .stmt .ifStmt = ty := NodeType.tag_injective (hop.trans htag)
    have hother := mt (howner (.stmt .block)).1 (by decide)
    exact ⟨hi, hleaf, Option.not_isSome_iff_eq_none.1 hother, hseen, hchildren⟩
  · obtain ⟨ty, htag, _, _, _, hok, _⟩ := typed_access_agrees_with_children (hresolve bare rfl rfl)
    obtain rfl : .stmt .ifStmt = ty := NodeType.tag_injective htag
    obtain ⟨part, hpart⟩ := hok.1 hjs _ List.mem_cons_self
    cases hpart
  · obtain ⟨ty, htag, _, _, _, _, hok, _⟩ :=
      typed_access_agrees_with_children (hresolve full rfl rfl)
    obtain rfl : .stmt .ifStmt = ty := NodeType.tag_injective htag
    have hcondition : (If.condition (seen full)).outcome = .ok ⟨literal, test, r⟩ := htest
    have hthen : (If.thenBranch (seen full)).outcome = .ok ⟨jump, first, r⟩ :=
      hbranch first rfl rfl
    have helse : (If.elseBranch (seen full)).outcome = .ok (some ⟨jump, second, r⟩) :=
      Traced.andThen_outcome_eq_ok.2 ⟨_, hbranch second rfl rfl, rfl⟩
    refine (hok _).2 ⟨[[_], [_], [_]], .cons ?_ (.cons ?_ (.cons ?_ .nil)), rfl⟩
    · exact Traced.andThen_outcome_eq_ok.2 ⟨_, hcondition, rfl⟩
    · exact Traced.andThen_outcome_eq_ok.2 ⟨_, hthen, rfl⟩
    · exact Traced.andThen_outcome_eq_ok.2 ⟨_, helse, rfl⟩

end Pseudocode
