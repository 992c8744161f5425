import Mathlib.Logic.Relation
import Pseudocode.Item.Render
import Pseudocode.Item.Typed
import Pseudocode.Proofs.Preorder
import Pseudocode.Proofs.Registry.Simulation

/-!
# Access and class

An item that was resolved leads to others: through its children, through the children of one class,
through a typed accessor after it has been seen as some kind, or by wrapping any handle of the same
tree.  Each of these ways ends in one call of `Registry.resolve`, with the registry of the first
item.  `Item.Resolved` is the invariant that says so, `resolved_of_access` is its step, and whatever
resolving guarantees holds at the end of every chain of accesses (`resolved_of_accesses`).

The class of an item is decided in four places: by the number of its tag, by the flag of its handle,
by the kind that wraps it, and by what the wrapped node reports.  Through a faithful registry they
agree for every item that is reached, and no operation on the tree ends in a breach.
-/

namespace Pseudocode

universe u

/-! ## Operations that are no breach -/

namespace Item

variable {i : Item}

/-- What holds of an item whenever it holds of its children of either class holds of every item. -/
theorem partInduction {motive : Item → Prop}
    (step : ∀ i, (∀ c j, (i.parts c).Yields j → motive j) → motive i) (i : Item) : motive i := by
  refine step i fun c j hj => ?_
  have hlt : j.handle.size < i.handle.size := size_lt_of_parts hj
  exact partInduction step j
termination_by i.handle.size

/-- A child of either class is the resolution, through the registry of its parent, of a handle that
the parent answers. -/
lemma exists_resolveAs_of_parts {c : Class} {j : Item} (h : (i.parts c).Yields j) :
    ∃ a, ∃ k ∈ i.handle.answers a, (i.registry.resolveAs c k).outcome = .ok j := by
  obtain ⟨p, _, hp⟩ := exists_fill_of_fillAll h
  exact ⟨p.accessor, exists_resolveAs_of_fill hp⟩

/-- What is resolved through a registry keeps it. -/
lemma registry_of_resolveAs {r : Registry} {c : Class} {k : Handle} {j : Item}
    (h : (r.resolveAs c k).outcome = .ok j) : j.registry = r := by
  obtain ⟨e, _, _, _, rfl⟩ := Registry.resolve_eq_ok_iff.1 (Registry.resolveAs_eq_ok_iff.1 h).1
  rfl

/-- A list of items is written without a breach if it resolves without one and each of its items is
written without one. -/
lemma clean_listText {items : Traced (List Item)}
    {f : (j : Item) → items.Yields j → Traced String} (hitems : items.Clean)
    (hf : ∀ j hj, (f j hj).Clean) : (listText items f).Clean := by
  unfold listText
  split
  · next js hjs =>
    have hmap : (js.attach.mapM fun j => f j.1 ⟨js, hjs, j.2⟩).Clean :=
      Traced.clean_mapM fun j _ => hf j.1 _
    exact hmap.andThen fun texts _ => Traced.clean_ok _
  · exact Traced.clean_ok _
  · next name hname => exact absurd hname (hitems name)

/-- Through a faithful registry, an item is rendered without a breach. -/
theorem clean_render (hr : i.registry.Faithful) : i.render.Clean := by
  induction i using partInduction with
  | step i ih =>
    have hparts : ∀ c, (i.parts c).Clean := fun c => clean_fillAll hr _
    have hlist : ∀ c, (listText (i.parts c) fun j _ => j.render).Clean := by
      intro c
      refine clean_listText (hparts c) fun j hj => ?_
      obtain ⟨a, k, _, hk⟩ := exists_resolveAs_of_parts hj
      refine ih c j hj ?_
      rw [registry_of_resolveAs hk]
      exact hr
    rw [render]
    split
    · split
      · exact (hlist .expression).andThen fun ops _ => Traced.clean_ok _
      · refine (hlist .statement).andThen fun statements _ => ?_
        exact (hlist .expression).andThen fun expressions _ => Traced.clean_ok _
    · exact Traced.clean_ok _

/-- Through a faithful registry, a walk does not end in a breach. -/
theorem walk_outcome_ne_breach {σ : Type u} (hr : i.registry.Faithful) (visitor : Visitor σ) (s : σ)
    (name : String) : (i.walk visitor s).outcome ≠ .error (.breach name) := by
  have hending := preorder_ending_ne_breach hr visitor 0 s name
  rw [walk_eq_walked, Passage.walked]
  intro h
  cases hp : (i.preorder visitor 0 s).ending with
  | passed => simp [hp, Ending.result] at h
  | stopped => simp [hp, Ending.result] at h
  | failed cause =>
    rw [hp] at h hending
    cases h
    exact hending rfl

/-- Through a faithful registry, counting does not end in a breach. -/
theorem clean_count (hr : i.registry.Faithful) : i.count.Clean := by
  intro name h
  have hwalk := walk_outcome_ne_breach hr Visitor.counting 0 name
  have hcount : i.count.outcome = (i.walk .counting 0).outcome.map fun _ =>
      (i.walk .counting 0).state := rfl
  rw [hcount] at h
  cases ho : (i.walk .counting 0).outcome with
  | ok u => simp [ho, Except.map] at h
  | error f =>
    rw [ho] at h hwalk
    cases h
    exact hwalk rfl

/-- The children of an item have its registry, so they are faithful with it. -/
lemma faithful_of_children {js rest : List Item} (hjs : i.children.outcome = .ok js)
    (hr : ∀ j ∈ i :: rest, j.registry.Faithful) : ∀ j ∈ js ++ rest, j.registry.Faithful := by
  intro j hj
  rcases List.mem_append.1 hj with hj | hj
  · rw [registry_of_children ⟨js, hjs, hj⟩]
    exact hr i List.mem_cons_self
  · exact hr j (List.mem_cons_of_mem i hj)

/-- Through faithful registries, collecting from a stack does not end in a breach. -/
lemma clean_collectFrom {σ : Type u} (test : Test σ) (log : List Record) (found : List Item) (s : σ)
    {stack : List Item} (hr : ∀ j ∈ stack, j.registry.Faithful) :
    (collectFrom test log found s stack).Clean := by
  fun_induction collectFrom test log found s stack with
  | case1 => nofun
  | case2 log found s i rest children log' f hf =>
    intro name hname
    cases hname
    exact clean_children (hr i List.mem_cons_self) name hf
  | case3 log found s i rest children log' js hjs s' htest ih =>
    exact ih (faithful_of_children hjs hr)
  | case4 log found s i rest children log' js hjs s' htest ih =>
    exact ih (faithful_of_children hjs hr)

/-- Through faithful registries, looking through a stack does not end in a breach. -/
lemma clean_findFrom {σ : Type u} (test : Test σ) (log : List Record) (s : σ) {stack : List Item}
    (hr : ∀ j ∈ stack, j.registry.Faithful) : (findFrom test log s stack).Clean := by
  fun_induction findFrom test log s stack with
  | case1 => nofun
  | case2 => nofun
  | case3 log s i rest s' htest children log' f hf =>
    intro name hname
    cases hname
    exact clean_children (hr i List.mem_cons_self) name hf
  | case4 log s i rest s' htest children log' js hjs ih => exact ih (faithful_of_children hjs hr)

end Item

/-! ## Typed accessors -/

namespace Item

variable {i j : Item} {c : Class} {a : Accessor}

/-- One item is what the other answers at an accessor, resolved to a class. -/
def Answers (i j : Item) : Prop :=
  ∃ c a, ∃ k ∈ i.handle.answers a, (i.registry.resolveAs c k).outcome = .ok j

/-- A child that must be there is answered. -/
lemma answers_of_required (h : (i.required c a).outcome = .ok j) : i.Answers j := by
  unfold required at h
  split at h
  · cases h
  · next k ks hk =>
    refine ⟨c, a, k, ?_, h⟩
    rw [hk]
    exact List.mem_cons_self

/-- A child that may be absent is answered if it is there. -/
lemma answers_of_optional (h : (i.optional c a).outcome = .ok (some j)) : i.Answers j := by
  unfold optional at h
  split at h
  · cases h
  · next k ks hk =>
    obtain ⟨j', hj', hsome⟩ := Traced.andThen_outcome_eq_ok.1 h
    cases hsome
    refine ⟨c, a, k, ?_, hj'⟩
    rw [hk]
    exact List.mem_cons_self

/-- Each of the children at a list-valued accessor is answered. -/
lemma answers_of_every (h : (i.every c a).Yields j) : i.Answers j := by
  obtain ⟨k, hk, hj⟩ := Traced.mapM_yields h
  exact ⟨c, a, k, hk, hj⟩

/-- The statement at an index of a block is answered. -/
lemma answers_of_get? {n : Nat} {t : Traced Item} (ht : Block.get? i n = some t)
    (h : t.outcome = .ok j) : i.Answers j := by
  obtain ⟨k, hk, rfl⟩ := Option.map_eq_some_iff.1 ht
  exact ⟨.statement, .block, k, List.mem_of_getElem? hk, h⟩

/-- The body of a case is answered. -/
lemma answers_of_cases {case : Switch.Case} (h : (Switch.cases i).Yields case) :
    i.Answers case.body := by
  obtain ⟨v, hv, hcase⟩ := Traced.mapM_yields h
  obtain ⟨body, hbody, hok⟩ := Traced.andThen_outcome_eq_ok.1 hcase
  cases hok
  exact ⟨.statement, .cases, v.2, List.mem_map_of_mem hv, hbody⟩

/-- One item is given by a typed accessor of the other.  Every accessor may be applied to every
item, whether it is meant for the kind of the item or not. -/
inductive TypedChild (i : Item) : Item → Prop
  | operand {j : Item} (h : (Unary.operand i).outcome = .ok j) : TypedChild i j
  | left {j : Item} (h : (Binary.left i).outcome = .ok j) : TypedChild i j
  | right {j : Item} (h : (Binary.right i).outcome = .ok j) : TypedChild i j
  | object {j : Item} (h : (Member.object i).outcome = .ok j) : TypedChild i j
  | condition {j : Item} (h : (Ternary.condition i).outcome = .ok j) : TypedChild i j
  | thenValue {j : Item} (h : (Ternary.thenValue i).outcome = .ok j) : TypedChild i j
  | elseValue {j : Item} (h : (Ternary.elseValue i).outcome = .ok j) : TypedChild i j
  | callee {j : Item} (h : (Call.callee i).outcome = .ok j) : TypedChild i j
  | argument {j : Item} (h : (Call.arguments i).Yields j) : TypedChild i j
  | embedded {j : Item} (h : (Embedded.statement i).outcome = .ok j) : TypedChild i j
  | expression {j : Item} (h : (ExprStatement.expression i).outcome = .ok j) : TypedChild i j
  | returned {j : Item} (h : (Return.value i).outcome = .ok (some j)) : TypedChild i j
  | element {j : Item} {n : Nat} {t : Traced Item} (ht : Block.get? i n = some t)
      (h : t.outcome = .ok j) : TypedChild i j
  | ifCondition {j : Item} (h : (If.condition i).outcome = .ok j) : TypedChild i j
  | thenBranch {j : Item} (h : (If.thenBranch i).outcome = .ok j) : TypedChild i j
  | elseBranch {j : Item} (h : (If.elseBranch i).outcome = .ok (some j)) : TypedChild i j
  | forInit {j : Item} (h : (For.init i).outcome = .ok j) : TypedChild i j
  | forCondition {j : Item} (h : (For.condition i).outcome = .ok j) : TypedChild i j
  | forStep {j : Item} (h : (For.step i).outcome = .ok j) : TypedChild i j
  | forBody {j : Item} (h : (For.body i).outcome = .ok j) : TypedChild i j
  | loopCondition {j : Item} (h : (Loop.condition i).outcome = .ok j) : TypedChild i j
  | loopBody {j : Item} (h : (Loop.body i).outcome = .ok j) : TypedChild i j
  | selector {j : Item} (h : (Switch.selector i).outcome = .ok j) : TypedChild i j
  | caseBody {case : Switch.Case} (h : (Switch.cases i).Yields case) : TypedChild i case.body

/-- What a typed accessor gives is answered by the item. -/
lemma TypedChild.answers (h : i.TypedChild j) : i.Answers j := by
  cases h with
  | argument h => exact answers_of_every h
  | returned h => exact answers_of_optional h
  | elseBranch h => exact answers_of_optional h
  | element ht h => exact answers_of_get? ht h
  | caseBody h => exact answers_of_cases h
  | _ h => exact answers_of_required h

end Item

/-! ## Chains of accesses -/

namespace Handle

/-- One handle is found below another, or is that handle: accessors lead there. -/
def Contains : Handle → Handle → Prop := Relation.ReflTransGen fun h k => k ∈ h.subnodes

/-- What a contained handle answers is contained. -/
lemma Contains.answers {h k l : Handle} {a : Accessor} (hk : h.Contains k) (hl : l ∈ k.answers a) :
    h.Contains l :=
  hk.tail (mem_subnodes hl)

end Handle

namespace Item

/-- One item leads to another in the tree of a handle: through its children, its children of one
class, a typed accessor after it has been seen as some kind, or by wrapping a handle of the tree. -/
inductive Access (h : Handle) (i : Item) : Item → Prop
  | children {j : Item} (hj : i.children.Yields j) : Access h i j
  | parts {j : Item} (c : Class) (hj : (i.parts c).Yields j) : Access h i j
  | typed {k : Kind} {seen j : Item} (hk : i.as? k = some seen) (hj : seen.TypedChild j) :
    Access h i j
  | createChild {k : Handle} {j : Item} (hk : h.Contains k)
      (hj : (i.createChild k).outcome = .ok j) : Access h i j

/-- The item is what the registry makes of a handle in the tree of `h`. -/
def Resolved (r : Registry) (h : Handle) (i : Item) : Prop :=
  h.Contains i.handle ∧ (r.resolve i.handle).outcome = .ok i

variable {r : Registry} {h : Handle} {i j : Item}

/-- A handle of the tree that resolves gives a resolved item. -/
lemma resolved_of_resolve {k : Handle} (hk : h.Contains k) (hi : (r.resolve k).outcome = .ok i) :
    Resolved r h i := by
  obtain rfl : i.handle = k := Registry.handle_of_resolve hi
  exact ⟨hk, hi⟩

/-- A resolved item has the registry it was resolved with. -/
lemma Resolved.registry_eq (hi : Resolved r h i) : i.registry = r := by
  obtain ⟨e, _, _, _, heq⟩ := Registry.resolve_eq_ok_iff.1 hi.2
  rw [heq]

/-- What a resolved item answers is resolved. -/
lemma Resolved.of_answers (hi : Resolved r h i) (hj : i.Answers j) : Resolved r h j := by
  obtain ⟨c, a, k, hk, hok⟩ := hj
  rw [hi.registry_eq] at hok
  exact resolved_of_resolve (hi.1.answers hk) (Registry.resolveAs_eq_ok_iff.1 hok).1

/-- An access leads from a resolved item to a resolved item. -/
theorem resolved_of_access (hi : Resolved r h i) (hj : Access h i j) : Resolved r h j := by
  cases hj with
  | children hj =>
    obtain ⟨c, p, _, k, hk, hok⟩ := exists_resolveAs_of_children hj
    exact hi.of_answers ⟨c, p.accessor, k, hk, hok⟩
  | parts c hj =>
    obtain ⟨a, k, hk, hok⟩ := exists_resolveAs_of_parts hj
    exact hi.of_answers ⟨c, a, k, hk, hok⟩
  | typed hk hj =>
    -- Seeing an item as another kind changes neither its handle nor its registry.
    obtain ⟨c, a, l, hl, hok⟩ := hj.answers
    unfold as? at hk
    split at hk
    · cases hk
      exact hi.of_answers ⟨c, a, l, hl, hok⟩
    · cases hk
  | createChild hk hj =>
    unfold createChild at hj
    split at hj
    · rw [hi.registry_eq] at hj
      exact resolved_of_resolve hk hj
    · cases hj

/-- A chain of accesses leads from a resolved item to a resolved item. -/
theorem resolved_of_accesses (hi : Resolved r h i) (hj : Relation.ReflTransGen (Access h) i j) :
    Resolved r h j := by
  induction hj with
  | refl => exact hi
  | tail _ hstep ih => exact resolved_of_access ih hstep

/-! ## What resolving guarantees -/

/-- The four places that decide the class of an item agree: its kind, the number of its tag, the
flag of its handle, and what it reports. -/
structure ClassAgrees (i : Item) : Prop where
  number : i.isExpr = true ↔ i.tag.code.toInt ≤ 69
  flag : i.isExpr = true ↔ i.handle.isExpr = true
  reported : i.isExpr = true ↔ i.reportsExpr = true ∧ i.reportsStmt = false

/-- No operation on an item ends in a breach. -/
structure Unbroken (i : Item) : Prop where
  children : i.children.Clean
  parts : ∀ c, (i.parts c).Clean
  createChild : ∀ k, (i.createChild k).Clean
  render : i.render.Clean
  walk : ∀ (σ : Type u) (visitor : Visitor σ) (s : σ) (name : String),
    (i.walk visitor s).outcome ≠ .error (.breach name)
  collect : ∀ (σ : Type u) (test : Test σ) (s : σ), (i.collect test s).Clean
  find : ∀ (σ : Type u) (test : Test σ) (s : σ), (i.find test s).Clean
  count : i.count.Clean

/-- The classes of a resolved item agree. -/
lemma Resolved.classAgrees (hi : Resolved r h i) : i.ClassAgrees := by
  obtain ⟨e, _, hflag, hcls, heq⟩ := Registry.resolve_eq_ok_iff.1 hi.2
  have hkind : i.kind = e.builds := by rw [heq]
  have htag : i.isExpr = i.tag.isExpr := by
    rw [isExpr, hkind]
    exact Kind.isExpr_eq_isExpr_iff.2 hcls
  have hhandle : i.isExpr = i.handle.isExpr := htag.trans hflag.symm
  refine ⟨?_, ?_, ?_⟩
  · rw [htag, Tag.isExpr, decide_eq_true_iff, Int32.le_iff_toInt_le]
    rfl
  · rw [hhandle]
  · rw [hhandle, reportsStmt, reportsExpr]
    cases i.handle.isExpr <;> simp

/-- The tag of a resolved item is that of a node type, since only those have entries. -/
lemma Resolved.type?_isSome (hi : Resolved r h i) : i.type?.isSome = true := by
  obtain ⟨e, hl, _⟩ := Registry.resolve_eq_ok_iff.1 hi.2
  have hlisted : i.tag.Listed := by
    by_contra hoff
    have hnone : r.lookup i.handle.op = none := Registry.lookup_of_not_listed hoff
    rw [hnone] at hl
    cases hl
  obtain ⟨ty, hty⟩ := Tag.listed_iff_exists.1 hlisted
  rw [type?, hty, NodeType.type?_tag]
  rfl

/-- Through a faithful registry, nothing that is done with a resolved item is a breach. -/
lemma Resolved.unbroken (hr : r.Faithful) (hi : Resolved r h i) : Unbroken.{u} i := by
  have hfaithful : i.registry.Faithful := by rwa [hi.registry_eq]
  have hstack : ∀ j ∈ [i], j.registry.Faithful := by
    intro j hj
    rwa [List.mem_singleton.1 hj]
  refine ⟨clean_children hfaithful, fun c => clean_fillAll hfaithful _, fun k => ?_,
    clean_render hfaithful, fun σ visitor s => walk_outcome_ne_breach hfaithful visitor s,
    fun σ test s => clean_collectFrom test [] [] s hstack,
    fun σ test s => clean_findFrom test [] s hstack, clean_count hfaithful⟩
  unfold createChild
  split
  · exact hfaithful.clean_resolve k
  · exact Traced.clean_error _

end Item

/-- In a registry that was built by calls, entries stand at their own tags. -/
lemma Registry.lookup_of_mem_registrations {cs : List Call} {e : Registration}
    (he : e ∈ (runCalls Registry.perform .empty cs).2.registrations) :
    (runCalls Registry.perform .empty cs).2.lookup e.tag = some e := by
  obtain ⟨_, hrep⟩ := Registry.represents_run Registry.represents_empty cs
  exact hrep.mem_registrations_iff.1 he

/-- A registry that was built by calls is faithful if each entry builds the class of its own tag. -/
lemma Registry.faithful_of_registrations {cs : List Call}
    (h : ∀ e ∈ (runCalls Registry.perform .empty cs).2.registrations, e.builds.cls = e.tag.cls) :
    (runCalls Registry.perform .empty cs).2.Faithful := by
  intro t e he
  obtain ⟨_, hrep⟩ := Registry.represents_run Registry.represents_empty cs
  have htag : e.tag = t := hrep.tag_eq t e ((hrep.lookup_eq t).symm.trans he)
  rw [h e (Registry.mem_registrations_of_lookup he), htag]

/-- **Classes agree along all accesses.**  Take any registry that was built by calls.  If each of its
entries builds the class of its tag, then no handle of a tree is resolved to a breach, and every
item that is reached from the resolved root by accesses of any kind agrees about its class, has the
tag, the address and the node type of a handle in the tree, is of the kind that the same registry
has for its tag, and is used without a breach.  If an entry builds the other class, every handle
with its tag and the right flag is resolved to a breach. -/
theorem class_agrees_along_accesses (cs : List Call) :
    let r := (runCalls Registry.perform .empty cs).2
    ((∀ e ∈ r.registrations, e.builds.cls = e.tag.cls) →
      ∀ h : Handle, (∀ k, h.Contains k → (r.resolve k).Clean) ∧
        ∀ root i, (r.resolve h).outcome = .ok root →
          Relation.ReflTransGen (Item.Access h) root i →
          i.ClassAgrees ∧
          (∃ k, h.Contains k ∧ i.handle = k ∧ i.tag = k.op ∧ i.ea = k.ea ∧
            i.type? = k.op.type? ∧ i.type?.isSome = true) ∧
          (∃ e, r.lookup i.tag = some e ∧ i.kind = e.builds ∧ i.registry = r) ∧
          Item.Unbroken.{u} i) ∧
      ∀ e ∈ r.registrations, e.builds.cls ≠ e.tag.cls →
        ∀ k : Handle, k.op = e.tag → k.isExpr = e.tag.isExpr →
          (r.resolve k).outcome = .error (.breach e.name) := by
  intro r
  refine ⟨fun hbuilds h => ?_, fun e he hcls k hop hflag => ?_⟩
  · have hfaithful : r.Faithful := Registry.faithful_of_registrations hbuilds
    refine ⟨fun k _ => hfaithful.clean_resolve k, fun root i hroot haccess => ?_⟩
    have hresolved : Item.Resolved r h root := Item.resolved_of_resolve .refl hroot
    have hi := Item.resolved_of_accesses hresolved haccess
    obtain ⟨e, hl, _, _, heq⟩ := Registry.resolve_eq_ok_iff.1 hi.2
    have hkind : i.kind = e.builds := by rw [heq]
    exact ⟨hi.classAgrees, ⟨i.handle, hi.1, rfl, rfl, rfl, rfl, hi.type?_isSome⟩,
      ⟨e, hl, hkind, hi.registry_eq⟩, hi.unbroken hfaithful⟩
  · have hl : r.lookup k.op = some e := by
      rw [hop]
      exact Registry.lookup_of_mem_registrations he
    exact Registry.resolve_of_breach hl (by rw [hflag, hop]) (by rwa [hop])

/-- Through a registry of blocks alone, the block in a block is reached by its index and is a
statement. -/
theorem class_agrees_along_accesses_nested_block :
    let kind := Kind.standard (.stmt .block)
    let r := (runCalls Registry.perform .empty [.register kind.registration]).2
    let inner : Handle := { ea := 4, op := kind.tag }
    let outer : Handle := { ea := 0, op := kind.tag, block := [inner] }
    let i : Item := ⟨kind, inner, r⟩
    (∀ e ∈ r.registrations, e.builds.cls = e.tag.cls) ∧
      (r.resolve outer).outcome = .ok ⟨kind, outer, r⟩ ∧
      Relation.ReflTransGen (Item.Access outer) ⟨kind, outer, r⟩ i ∧
      i.ClassAgrees ∧ Item.Unbroken.{0} i := by
  intro kind r inner outer i
  have hvalid : kind.registration.Valid := Registration.valid_of_kind (by decide)
  have hr : r = Registry.empty.insert kind.registration := by
    simp only [r, runCalls, Registry.perform,
      Registry.register_of_none hvalid Registry.lookup_empty]
  have hlookup : ∀ t, r.lookup t = if t = kind.tag then some kind.registration else none := by
    intro t
    rw [hr, Registry.lookup_insert hvalid.listed, Registry.lookup_empty]
    rfl
  have hbuilds : ∀ e ∈ r.registrations, e.builds.cls = e.tag.cls := by
    intro e he
    have hl := Registry.lookup_of_mem_registrations he
    rw [hlookup] at hl
    split_ifs at hl
    cases hl
    decide
  have hresolve : ∀ h : Handle, h.op = kind.tag → h.isExpr = h.op.isExpr →
      (r.resolve h).outcome = .ok ⟨kind, h, r⟩ := by
    intro h hop hflag
    have hl : r.lookup h.op = some kind.registration := by rw [hlookup, if_pos hop]
    refine Registry.resolve_of_agree hl hflag ?_
    rw [hop]
    decide
  have houter := hresolve outer rfl rfl
  have hinner : (r.resolveAs .statement inner).outcome = .ok i :=
    Registry.resolveAs_eq_ok_iff.2 ⟨hresolve inner rfl rfl, rfl⟩
  have hseen : Item.as? kind ⟨kind, outer, r⟩ = some ⟨kind, outer, r⟩ := if_pos (by decide)
  have haccess : Item.Access outer ⟨kind, outer, r⟩ i :=
    .typed hseen (.element (n := 0) rfl hinner)
  obtain ⟨_, hreached⟩ := (class_agrees_along_accesses _).1 hbuilds outer
  obtain ⟨hagrees, _, _, hunbroken⟩ := hreached _ i houter (.single haccess)
  exact ⟨hbuilds, houter, .single haccess, hagrees, hunbroken⟩

end Pseudocode
