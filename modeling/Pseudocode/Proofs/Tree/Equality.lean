import Mathlib.Data.List.Forall2
import Pseudocode.Proofs.Frame
import Pseudocode.Proofs.Tree.Accessors
import Pseudocode.Proofs.Tree.Snapshot

/-!
# Equality of trees

Trees are compared part by part, and floating point numbers as numbers.  Such a comparison looks at
three things in a payload: its outline, which has to be the same, the number that it may be, and its
direct sub-trees, which are compared in turn (`Payload.equals_iff`).  Everything else is derived from
that.  Numerical equality is symmetric and transitive, and holds of a number and itself unless it is
not a number; by induction over sub-trees the same is true of trees.

Equal trees may differ in the signs of zeros, so their views are not the same.  They have the same
tags, addresses and flags everywhere, though, and each accessor answers views of equal trees
(`Tree.Equal.answers`).  Items over views that are alike in this way are related by a bisimulation,
hence every walk takes the same course.  If there is no zero, equal trees are the same tree.
-/

namespace Pseudocode

/-! ## Numbers -/

namespace Binary64

variable {x y z : Binary64}

/-- Numbers are equal if both are numbers, and either the same word or both zero. -/
lemma equals_iff : x.equals y ↔
    ¬ x.isNaN ∧ ¬ y.isNaN ∧ (x = y ∨ x.magnitude = 0 ∧ y.magnitude = 0) := by
  have hbits : x.bits = y.bits ↔ x = y := by
    cases x
    cases y
    simp
  simp [equals, hbits, and_assoc]

/-- Numerical equality is symmetric. -/
lemma equals_symm (h : x.equals y) : y.equals x := by
  obtain ⟨hx, hy, hxy⟩ := equals_iff.1 h
  exact equals_iff.2 ⟨hy, hx, hxy.imp Eq.symm And.symm⟩

/-- Numerical equality is transitive. -/
lemma equals_trans (hxy : x.equals y) (hyz : y.equals z) : x.equals z := by
  obtain ⟨hx, _, hxy⟩ := equals_iff.1 hxy
  obtain ⟨_, hz, hyz⟩ := equals_iff.1 hyz
  refine equals_iff.2 ⟨hx, hz, ?_⟩
  rcases hxy with rfl | ⟨hx, hy⟩
  · exact hyz
  · rcases hyz with rfl | ⟨_, hz⟩
    · exact .inr ⟨hx, hy⟩
    · exact .inr ⟨hx, hz⟩

/-- A number equals itself, and what is not a number does not. -/
lemma equals_self_iff : x.equals x ↔ ¬ x.isNaN := by
  rw [equals_iff]
  simp

/-- A number other than zero equals only itself. -/
lemma eq_of_equals (h : x.equals y) (hx : x.magnitude ≠ 0) : x = y := by
  obtain ⟨_, _, rfl | ⟨hzero, _⟩⟩ := equals_iff.1 h
  · rfl
  · exact absurd hzero hx

end Binary64

/-! ## What is compared -/

/-- The tree that stands for any tree. -/
def Tree.blank : Tree := .node 0 ⟨0⟩ .none

namespace Payload

/-- A payload without its floating point number and its sub-trees: what is left is its form, which
of its parts are there and how many, and its other scalars. -/
def outline : Payload → Payload
  | .operands _ y z => .operands .blank (y.map fun _ => .blank) (z.map fun _ => .blank)
  | .call _ args => .call .blank (args.map fun _ => .blank)
  | .member _ m => .member .blank m
  | .fnum _ => .fnum ⟨0⟩
  | .insn _ => .insn .blank
  | .block stmts => .block (stmts.map fun _ => .blank)
  | .expr _ => .expr .blank
  | .branch _ _ otherwise => .branch .blank .blank (otherwise.map fun _ => .blank)
  | .counting _ _ _ _ => .counting .blank .blank .blank .blank
  | .loop _ _ => .loop .blank .blank
  | .switch _ cases => .switch .blank (cases.map fun c => .mk c.values .blank)
  | .returned value => .returned (value.map fun _ => .blank)
  | p => p

/-- The floating point number that a payload may be. -/
def floats : Payload → List Binary64
  | .fnum x => [x]
  | _ => []

end Payload

namespace Tree

/-- The trees are equal, floating point numbers compared as numbers. -/
def Equal (t u : Tree) : Prop := t.equals u

/-- The comparison decides whether trees are equal. -/
@[simp]
lemma equals_eq_true_iff {t u : Tree} : t.equals u = true ↔ t.Equal u := Iff.rfl

/-- Lists of trees are equal if they are equally long and equal one by one. -/
lemma equalsList_iff {ts us : List Tree} :
    equalsList ts us ↔ ts.length = us.length ∧ List.Forall₂ Equal ts us := by
  induction ts generalizing us with
  | nil => cases us <;> simp [equalsList]
  | cons t ts ih => cases us <;> simp [equalsList, ih, and_left_comm]

/-- Trees that may be absent are equal if both are absent, or both are there and equal. -/
lemma equalsOption_iff {t u : Option Tree} :
    equalsOption t u ↔ t.map (fun _ => blank) = u.map (fun _ => blank) ∧
      List.Forall₂ Equal t.toList u.toList := by
  cases t <;> cases u <;> simp [equalsOption]

end Tree

/-- Lists of cases are equal if they have the same values and equal bodies one by one. -/
lemma Case.equalsList_iff {cs ds : List Case} :
    Case.equalsList cs ds ↔
      (cs.map fun c => Case.mk c.values .blank) = (ds.map fun d => Case.mk d.values .blank) ∧
        List.Forall₂ (fun c d => c.body.Equal d.body) cs ds := by
  induction cs generalizing ds with
  | nil => cases ds <;> simp [equalsList]
  | cons c cs ih =>
    obtain ⟨values, body⟩ := c
    rcases ds with _ | ⟨⟨values', body'⟩, ds⟩
    · simp [equalsList]
    · simp [equalsList, ih, Case.values, Case.body, and_assoc, and_left_comm]

/-- Lists of cases with the same values and the same bodies one by one are the same. -/
lemma Case.eq_of_values {cs ds : List Case}
    (hvalues : (cs.map fun c => Case.mk c.values .blank) = ds.map fun d => Case.mk d.values .blank)
    (hbodies : cs.map Case.body = ds.map Case.body) : cs = ds := by
  induction cs generalizing ds with
  | nil => exact (List.map_eq_nil_iff.1 hbodies.symm).symm
  | cons c cs ih =>
    obtain ⟨values, body⟩ := c
    rcases ds with _ | ⟨⟨values', body'⟩, ds⟩
    · cases hbodies
    · obtain ⟨hfirst, hrest⟩ := List.cons.inj hvalues
      obtain ⟨rfl, hrest'⟩ := List.cons.inj hbodies
      rw [ih hrest hrest', show values = values' from congrArg Case.values hfirst]
      rfl

namespace Payload

/-- **Payloads are equal** if they have the same outline, equal numbers and equal sub-trees. -/
theorem equals_iff {p q : Payload} :
    p.equals q ↔ p.outline = q.outline ∧
      List.Forall₂ (fun x y => x.equals y = true) p.floats q.floats ∧
      List.Forall₂ Tree.Equal p.subtrees q.subtrees := by
  -- Payloads of different forms have different outlines; those of one form are taken apart.
  cases p <;> cases q <;>
    simp only [Payload.equals, outline, floats, subtrees, reduceCtorEq, Bool.false_eq_true, false_and]
  case operands.operands x y z x' y' z' =>
    rcases y <;> rcases y' <;> rcases z <;> rcases z' <;> simp [Tree.equalsOption, and_assoc]
  case member.member => simp [and_comm]
  all_goals simp [Tree.equalsList_iff, Tree.equalsOption_iff, Case.equalsList_iff, and_assoc,
    and_left_comm]

/-- A payload is known by its outline, its number and its sub-trees. -/
lemma eq_of_outline {p q : Payload} (houtline : p.outline = q.outline)
    (hfloats : p.floats = q.floats) (hsubtrees : p.subtrees = q.subtrees) : p = q := by
  cases p <;> cases q <;>
    simp only [outline, floats, subtrees, reduceCtorEq] at houtline hfloats hsubtrees
  case operands.operands x y z x' y' z' =>
    rcases y <;> rcases y' <;> rcases z <;> rcases z' <;> simp_all
  case branch.branch cond thenBranch otherwise cond' thenBranch' otherwise' =>
    rcases otherwise <;> rcases otherwise' <;> simp_all
  case returned.returned value value' => rcases value <;> rcases value' <;> simp_all
  case switch.switch e cases e' cases' =>
    simp only [switch.injEq, true_and] at houtline
    obtain ⟨he, hbodies⟩ := List.cons.inj hsubtrees
    rw [he, Case.eq_of_values houtline hbodies]
  all_goals simp_all

/-- A number stands in a payload if it is the payload, or stands in one of its sub-trees. -/
lemma holds_iff {p : Payload} {x : Binary64} :
    p.Holds x ↔ x ∈ p.floats ∨ ∃ t ∈ p.subtrees, t.payload.Holds x := by
  constructor
  · intro hx
    cases hx with
    | own => exact .inl List.mem_cons_self
    | inside ht hx => exact .inr ⟨_, ht, hx⟩
  · rintro (hx | ⟨t, ht, hx⟩)
    · cases p with
      | fnum y =>
        obtain rfl := List.mem_singleton.1 hx
        exact .own x
      | _ => cases hx
    · exact .inside ht hx

end Payload

/-! ## A partial equivalence -/

/-- What follows from being related for the elements of a list follows for the list. -/
lemma forall₂_imp_of_mem {α : Type} {R S : α → α → Prop} {as bs : List α}
    (himp : ∀ a ∈ as, ∀ b, R a b → S a b) (hab : List.Forall₂ R as bs) : List.Forall₂ S as bs :=
  ((List.forall₂_and_left as bs).2 ⟨himp, hab⟩).imp fun _ b hboth => hboth.1 b hboth.2

/-- Lists that are related one by one to a list, which is related one by one to a third, are related
to the third. -/
lemma forall₂_trans {α : Type} {R : α → α → Prop} {as bs cs : List α}
    (htrans : ∀ a ∈ as, ∀ b c, R a b → R b c → R a c) (hab : List.Forall₂ R as bs)
    (hbc : List.Forall₂ R bs cs) : List.Forall₂ R as cs := by
  induction hab generalizing cs with
  | nil => exact hbc
  | cons hab _ ih =>
    obtain ⟨ha, has⟩ := List.forall_mem_cons.1 htrans
    cases hbc with
    | cons hbc hbcs => exact .cons (ha _ _ hab hbc) (ih has hbcs)

namespace Tree

variable {t u v : Tree}

/-- Trees are equal if they have the same address and tag and the same outline, equal numbers, and
equal sub-trees. -/
lemma equal_iff : t.Equal u ↔ (t.ea = u.ea ∧ t.op = u.op) ∧
    t.payload.outline = u.payload.outline ∧
    List.Forall₂ (fun x y => x.equals y = true) t.payload.floats u.payload.floats ∧
    List.Forall₂ Equal t.subtrees u.subtrees := by
  obtain ⟨ea, op, payload⟩ := t
  obtain ⟨ea', op', payload'⟩ := u
  rw [Equal, equals, Bool.and_eq_true, Bool.and_eq_true, Payload.equals_iff, beq_iff_eq, beq_iff_eq]
  rfl

/-- Equality of trees is symmetric. -/
theorem Equal.symm (h : t.Equal u) : u.Equal t := by
  induction t using subtreeInduction generalizing u with
  | step t ih =>
    obtain ⟨⟨hea, hop⟩, houtline, hfloats, hsubtrees⟩ := equal_iff.1 h
    refine equal_iff.2 ⟨⟨hea.symm, hop.symm⟩, houtline.symm, ?_, ?_⟩
    · exact (hfloats.imp fun x y => Binary64.equals_symm).flip
    · exact (forall₂_imp_of_mem (fun w hw _ => ih w hw) hsubtrees).flip

/-- Equality of trees is transitive. -/
theorem Equal.trans (htu : t.Equal u) (huv : u.Equal v) : t.Equal v := by
  induction t using subtreeInduction generalizing u v with
  | step t ih =>
    obtain ⟨⟨hea, hop⟩, houtline, hfloats, hsubtrees⟩ := equal_iff.1 htu
    obtain ⟨⟨hea', hop'⟩, houtline', hfloats', hsubtrees'⟩ := equal_iff.1 huv
    refine equal_iff.2 ⟨⟨hea.trans hea', hop.trans hop'⟩, houtline.trans houtline', ?_, ?_⟩
    · exact forall₂_trans (fun x _ y z => Binary64.equals_trans) hfloats hfloats'
    · exact forall₂_trans (fun w hw _ _ => ih w hw) hsubtrees hsubtrees'

/-- A tree equals itself exactly if every floating point number in it is a number. -/
theorem equal_self_iff : t.Equal t ↔ ∀ x, t.payload.Holds x → ¬ x.isNaN := by
  induction t using subtreeInduction with
  | step t ih =>
    rw [equal_iff, List.forall₂_same, List.forall₂_same]
    simp only [Binary64.equals_self_iff, Payload.holds_iff (p := t.payload), true_and]
    constructor
    · rintro ⟨hfloats, hsubtrees⟩ x (hx | ⟨u, hu, hx⟩)
      · exact hfloats x hx
      · exact (ih u hu).1 (hsubtrees u hu) x hx
    · intro h
      refine ⟨fun x hx => h x (.inl hx), fun u hu => (ih u hu).2 fun x hx => ?_⟩
      exact h x (.inr ⟨u, hu, hx⟩)

/-- Lists of trees that have equally many nodes one by one have equally many together. -/
lemma sizeList_of_forall₂ {ts us : List Tree}
    (h : List.Forall₂ (fun t u : Tree => t.size = u.size) ts us) : sizeList ts = sizeList us := by
  induction h with
  | nil => rfl
  | cons htu _ ih => rw [sizeList, sizeList, htu, ih]

/-- Equal trees have equally many nodes. -/
theorem Equal.size_eq (h : t.Equal u) : t.size = u.size := by
  induction t using subtreeInduction generalizing u with
  | step t ih =>
    have hsizes : List.Forall₂ (fun w w' : Tree => w.size = w'.size) t.subtrees u.subtrees :=
      forall₂_imp_of_mem (fun w hw _ => ih w hw) (equal_iff.1 h).2.2.2
    rw [Tree.size_eq t, Tree.size_eq u, sizeList_of_forall₂ hsizes]

/-- Equal trees without a zero are the same tree. -/
theorem Equal.eq (h : t.Equal u) (hzero : ∀ x, t.payload.Holds x → x.magnitude ≠ 0) : t = u := by
  induction t using subtreeInduction generalizing u with
  | step t ih =>
    obtain ⟨⟨hea, hop⟩, houtline, hfloats, hsubtrees⟩ := equal_iff.1 h
    have hnumbers : List.Forall₂ (· = ·) t.payload.floats u.payload.floats := by
      refine forall₂_imp_of_mem (fun x hx y hxy => ?_) hfloats
      exact Binary64.eq_of_equals hxy (hzero x (Payload.holds_iff.2 (.inl hx)))
    have hparts : List.Forall₂ (· = ·) t.subtrees u.subtrees := by
      refine forall₂_imp_of_mem (fun w hw w' hww' => ih w hw hww' fun x hx => ?_) hsubtrees
      exact hzero x (Payload.holds_iff.2 (.inr ⟨w, hw, hx⟩))
    rw [List.forall₂_eq_eq_eq] at hnumbers hparts
    have hpayload := Payload.eq_of_outline houtline hnumbers hparts
    cases t
    cases u
    simp_all [ea, op, payload]

end Tree

/-! ## Views of equal trees -/

/-- The outline of a payload tells which accessors answer its sub-trees. -/
lemma Payload.map_fst_housed (p : Payload) :
    p.housed.map Prod.fst = p.outline.housed.map Prod.fst := by
  cases p <;> simp [outline, housed, Option.toList_map, Function.comp_def]

namespace Tree

variable {t u : Tree}

/-- The view has the address of the tree. -/
@[simp]
lemma ea_toHandle (t : Tree) : t.toHandle.ea = t.ea := by
  obtain ⟨ea, op, payload⟩ := t
  cases payload <;> rfl

/-- Equal trees house equal sub-trees at the same accessors. -/
lemma Equal.housed (h : t.Equal u) :
    List.Forall₂ (fun v w => v.1 = w.1 ∧ v.2.Equal w.2) t.payload.housed u.payload.housed := by
  obtain ⟨_, houtline, _, hsubtrees⟩ := equal_iff.1 h
  have haccessors : List.Forall₂ (· = ·) (t.payload.housed.map Prod.fst)
      (u.payload.housed.map Prod.fst) := by
    rw [List.forall₂_eq_eq_eq, Payload.map_fst_housed, houtline, ← Payload.map_fst_housed]
  rw [subtrees, subtrees, ← Payload.map_snd_housed, ← Payload.map_snd_housed] at hsubtrees
  rw [List.forall₂_map_left_iff, List.forall₂_map_right_iff] at haccessors hsubtrees
  exact haccessors.mp (fun v w => And.intro) hsubtrees

/-- The handles are views of equal trees. -/
def EqualViews (h k : Handle) : Prop := ∃ t u : Tree, t.Equal u ∧ h = t.toHandle ∧ k = u.toHandle

/-- The accessors of the views of equal trees answer views of equal trees. -/
lemma Equal.answers (h : t.Equal u) (a : Accessor) :
    List.Forall₂ EqualViews (t.toHandle.answers a) (u.toHandle.answers a) := by
  have hpart : List.Forall₂ (fun v w : Accessor × Tree => v.1 = w.1 ∧ v.2.Equal w.2)
      (t.payload.housed.filter (·.1 = a)) (u.payload.housed.filter (·.1 = a)) := by
    refine List.rel_filter (fun v w hvw => ?_) h.housed
    simp only [hvw.1]
  simp only [answers_toHandle, part, Payload.part_eq_housed, List.map_map,
    List.forall₂_map_left_iff, List.forall₂_map_right_iff]
  exact hpart.imp fun v w hvw => ⟨v.2, w.2, hvw.2, rfl, rfl⟩

end Tree

namespace Item

/-- The items wrap views of equal trees by the same kind and with the same registry. -/
structure OverEqual (i j : Item) : Prop where
  kind : i.kind = j.kind
  registry : i.registry = j.registry
  handle : Tree.EqualViews i.handle j.handle

/-- What a walk notes of an item. -/
structure Label where
  kindName : String
  tag : Tag
  ea : Address
  deriving DecidableEq, Repr

/-- What a walk notes of an item. -/
def label (i : Item) : Label := ⟨i.kindName, i.tag, i.ea⟩

/-- Views of equal trees have the same tag, address and flag. -/
lemma equalViews_same {h k : Handle} (hhk : Tree.EqualViews h k) :
    h.op = k.op ∧ h.ea = k.ea ∧ h.isExpr = k.isExpr := by
  obtain ⟨t, u, htu, rfl, rfl⟩ := hhk
  obtain ⟨⟨hea, hop⟩, _⟩ := Tree.equal_iff.1 htu
  simp only [Tree.op_toHandle, Tree.ea_toHandle, Tree.isExpr_toHandle, hea, hop, and_self]

/-- Items over views of equal trees have the same label. -/
lemma OverEqual.label_eq {i j : Item} (hij : i.OverEqual j) : i.label = j.label := by
  obtain ⟨hop, hea, _⟩ := equalViews_same hij.handle
  rw [label, label, kindName, kindName, hij.kind, tag, tag, hop, ea, ea, hea]

/-- Views of equal trees are resolved alike. -/
lemma resolve_overEqual (r : Registry) {h k : Handle} (hhk : Tree.EqualViews h k) :
    Traced.Related OverEqual (r.resolve h) (r.resolve k) := by
  obtain ⟨hop, hea, hflag⟩ := equalViews_same hhk
  rw [Registry.resolve, Registry.resolve, hop, hea, hflag]
  cases r.lookup k.op with
  | none => exact .failed rfl rfl rfl
  | some e =>
    dsimp only
    split_ifs
    · exact Traced.related_error _
    · exact (Traced.related_ok ⟨rfl, rfl, hhk⟩).after _
    · exact .failed rfl rfl rfl

/-- Items over views of equal trees are related by a bisimulation. -/
theorem bisimulation_overEqual : Bisimulation OverEqual := by
  intro i j hij c
  obtain ⟨_, hea, _⟩ := equalViews_same hij.handle
  have hresolve : ∀ h k, Tree.EqualViews h k →
      Traced.Related OverEqual (i.registry.resolveAs c h) (j.registry.resolveAs c k) := by
    intro h k hhk
    rw [hij.registry]
    refine resolveAs_related c (fun l m hlm => ?_) (resolve_overEqual j.registry hhk)
    obtain ⟨hop, hea, _⟩ := equalViews_same hlm.handle
    exact ⟨congrArg Kind.cls hlm.kind, hea, hop⟩
  rw [parts, parts, hij.kind]
  refine fillAll_related hij.kind hea hresolve fun p _ => ?_
  obtain ⟨t, u, htu, ht, hu⟩ := hij.handle
  rw [ht, hu]
  exact htu.answers p.accessor

end Item

namespace Tree

/-- Two trees are traversed alike through a registry: their views are resolved with the same label,
or the same failure, and the same log, and full walks from there visit items with the same labels at
the same depths and end with the same log and the same result. -/
structure TraversedAlike (r : Registry) (t u : Tree) : Prop where
  resolve : Item.label <$> r.resolve t.toHandle = Item.label <$> r.resolve u.toHandle
  walk : ∀ i j, (r.resolve t.toHandle).outcome = .ok i → (r.resolve u.toHandle).outcome = .ok j →
    ((i.visits .descending ()).map fun v => (v.item.label, v.depth)) =
        ((j.visits .descending ()).map fun v => (v.item.label, v.depth)) ∧
      i.walk .descending () = j.walk .descending ()

variable {t u : Tree}

/-- Equal trees are traversed alike through every registry. -/
theorem Equal.traversedAlike (h : t.Equal u) (r : Registry) : TraversedAlike r t u := by
  have hrelated := Item.resolve_overEqual r ⟨t, u, h, rfl, rfl⟩
  refine ⟨hrelated.map_eq fun i j hij => hij.label_eq, fun i j hi hj => ?_⟩
  cases hrelated with
  | failed _ hs _ => cases hs.symm.trans hi
  | ok _ hs ht hij =>
    cases hs.symm.trans hi
    cases ht.symm.trans hj
    exact Item.bisimulation_overEqual.full_walk_eq (fun k l hkl => hkl.label_eq) hij

/-- Equal trees without a zero are rendered to the same text. -/
lemma Equal.render_eq (h : t.Equal u) (hzero : ∀ x, t.payload.Holds x → x.magnitude ≠ 0)
    {r : Registry} {i j : Item} (hi : (r.resolve t.toHandle).outcome = .ok i)
    (hj : (r.resolve u.toHandle).outcome = .ok j) : i.render = j.render := by
  rw [← h.eq hzero, hi] at hj
  rw [Except.ok.inj hj]

end Tree

/-- **Equality of trees is a partial equivalence that traversal respects.**  It is symmetric and
transitive, and a tree equals itself exactly if none of the floating point numbers in it, wherever
they stand, is not a number.  Equal trees have equally many nodes.  Through every registry they are
resolved alike and a full walk visits items of the same kinds, tags, addresses and depths in the same
order, with the same result or error; and if no floating point number in them is a zero, they are
rendered to the same text. -/
theorem equality_respected_by_traversal (a b c : Tree) :
    (a.equals b → b.equals a) ∧ (a.equals b → b.equals c → a.equals c) ∧
      (a.equals a ↔ ∀ x, a.payload.Holds x → ¬ x.isNaN) ∧
      (a.equals b → a.size = b.size ∧ ∀ r : Registry, Tree.TraversedAlike r a b ∧
        ((∀ x, a.payload.Holds x → x.magnitude ≠ 0) → ∀ i j,
          (r.resolve a.toHandle).outcome = .ok i → (r.resolve b.toHandle).outcome = .ok j →
            i.render = j.render)) := by
  refine ⟨Tree.Equal.symm, Tree.Equal.trans, Tree.equal_self_iff, fun hab => ⟨?_, fun r => ⟨?_, ?_⟩⟩⟩
  · exact Tree.Equal.size_eq hab
  · exact Tree.Equal.traversedAlike hab r
  · exact fun hzero i j hi hj => Tree.Equal.render_eq hab hzero hi hj

/-- An expression statement with either zero: the trees differ, but are equal in both directions and
walked alike by the standard kinds.  With a half in its place there is no zero, and nothing that such
a tree is resolved to is rendered in two ways. -/
theorem equality_respected_by_traversal_signed_zeros :
    let stmt (x : Binary64) : Tree :=
      .node 0 (NodeType.stmt .exprStmt).tag (.expr (.node 4 (NodeType.expr .fNum).tag (.fnum x)))
    let item (x : Binary64) : Item :=
      ⟨Kind.standard (.stmt .exprStmt), (stmt x).toHandle, Registry.standard⟩
    let zero : Binary64 := ⟨0⟩
    let negative : Binary64 := ⟨0x8000000000000000⟩
    let half : Binary64 := ⟨0x3FE0000000000000⟩
    stmt zero ≠ stmt negative ∧ (stmt zero).equals (stmt negative) ∧
      (stmt negative).equals (stmt zero) ∧ (stmt zero).equals (stmt zero) ∧
      (stmt zero).size = (stmt negative).size ∧
      (item zero).walk .descending () = (item negative).walk .descending () ∧
      (stmt half).equals (stmt half) ∧ (∀ x, (stmt half).payload.Holds x → x.magnitude ≠ 0) ∧
      ∀ r i j, (Registry.resolve r (stmt half).toHandle).outcome = .ok i →
        (r.resolve (stmt half).toHandle).outcome = .ok j → i.render = j.render := by
  intro stmt item zero negative half
  have hne : stmt zero ≠ stmt negative := by
    intro heq
    simp [zero, negative, stmt] at heq
  have hequal : (stmt zero).equals (stmt negative) := by decide +kernel
  have hitem : ∀ x, (Registry.standard.resolve (stmt x).toHandle).outcome = .ok (item x) :=
    fun x => Registry.resolve_standard (h := (stmt x).toHandle) rfl rfl
  have hholds : ∀ x y, (stmt x).payload.Holds y → y = x := by
    intro x y hy
    obtain hy | ⟨t, ht, hy⟩ := Payload.holds_iff.1 hy
    · cases hy
    · obtain rfl := List.mem_singleton.1 ht
      obtain hy | ⟨t, ht, _⟩ := Payload.holds_iff.1 hy
      · exact List.mem_singleton.1 hy
      · cases ht
  have hhalf : ∀ x, (stmt half).payload.Holds x → x.magnitude ≠ 0 := by
    intro x hx
    rw [hholds half x hx]
    decide +kernel
  have hself : (stmt half).equals (stmt half) := by decide +kernel
  obtain ⟨hsymm, htrans, _, htraversal⟩ :=
    equality_respected_by_traversal (stmt zero) (stmt negative) (stmt zero)
  obtain ⟨hsize, hwalks⟩ := htraversal hequal
  have hwalk := (hwalks Registry.standard).1.walk _ _ (hitem zero) (hitem negative)
  have hrender := (equality_respected_by_traversal (stmt half) (stmt half) (stmt half)).2.2.2 hself
  exact ⟨hne, hequal, hsymm hequal, htrans hequal (hsymm hequal), hsize, hwalk.2, hself, hhalf,
    fun r => (hrender.2 r).2 hhalf⟩

end Pseudocode
