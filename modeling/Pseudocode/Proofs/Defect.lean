import Pseudocode.Proofs.Preorder
import Pseudocode.Proofs.Visible

/-!
# First defects

Which handle trees can be traversed with the standard kinds, and what is reported of those that
cannot.  A defect is found at a place of a visible handle: something required is not there, or what
is there has an unknown tag, contradicts its own tag, or is of the other class.  The defects of a
tree are listed handle by handle in pre-order, at each handle place by place, and counting the items
of a tree reports the first of the list.

The proofs never follow an error through the code.  `firstError es a` is the value `a` unless the
list `es` of errors has a first; results of this form compose by appending the lists
(`firstError_andThen`, `firstError_mapM`), so every function below is described by the list of all
errors it could meet.
-/

namespace Pseudocode

universe u v

variable {α : Type u} {β : Type v}

/-! ## The first of several errors -/

/-- The value, unless there are errors; then the first of them. -/
def firstError (es : List Error) (a : α) : Except Failure α :=
  match es with
  | [] => .ok a
  | e :: _ => .error (.error e)

/-- A chain reports the first error of its first part, or else of its second. -/
lemma firstError_andThen {t : Traced α} {f : α → Traced β} {es es' : List Error} {a : α} {b : β}
    (ht : t.outcome = firstError es a) (hf : es = [] → (f a).outcome = firstError es' b) :
    (t.andThen f).outcome = firstError (es ++ es') b := by
  unfold Traced.andThen
  cases es with
  | nil =>
    have hok : t.outcome = .ok a := ht
    rw [hok]
    exact hf rfl
  | cons e es =>
    have herror : t.outcome = .error (.error e) := ht
    rw [herror]
    rfl

/-- A result that is only changed reports the same errors. -/
lemma firstError_map {t : Traced α} {es : List Error} {a : α} (ht : t.outcome = firstError es a)
    (g : α → β) : (t.andThen fun a => Traced.ok (g a)).outcome = firstError es (g a) := by
  have hg : es = [] → (Traced.ok (g a)).outcome = firstError [] (g a) := fun _ => rfl
  have h := firstError_andThen (f := fun a => Traced.ok (g a)) ht hg
  rwa [List.append_nil] at h

/-- Two lists put together report the first of the errors of both. -/
lemma firstError_append {s t : Traced (List α)} {es es' : List Error} {as bs : List α}
    (hs : s.outcome = firstError es as) (ht : t.outcome = firstError es' bs) :
    (s.andThen fun as => t.andThen fun bs => Traced.ok (as ++ bs)).outcome =
      firstError (es ++ es') (as ++ bs) :=
  firstError_andThen hs fun _ => firstError_map ht (as ++ ·)

/-- A mapped list reports the first of the errors of its elements. -/
lemma firstError_mapM {f : α → Traced β} {d : α → List Error} {g : α → β} {as : List α}
    (h : ∀ a ∈ as, (f a).outcome = firstError (d a) (g a)) :
    (as.mapM f).outcome = firstError (as.flatMap d) (as.map g) := by
  induction as with
  | nil => rfl
  | cons a as ih =>
    rw [List.mapM_cons, List.flatMap_cons, List.map_cons]
    have htail := ih fun b hb => h b (List.mem_cons_of_mem a hb)
    exact firstError_andThen (h a List.mem_cons_self) fun _ => firstError_map htail (g a :: ·)

/-! ## Defects of handles -/

namespace Handle

/-- What is wrong with a handle by itself: first its tag, then the class that it reports. -/
def ownDefect? (h : Handle) : Option Error :=
  if h.op.Listed then
    if h.isExpr = h.op.isExpr then none else some (.classMismatch h.op h.ea h.isExpr)
  else some (.unsupportedTag h.op)

/-- What is wrong with a handle at a place for a class: what is wrong with it by itself, and then
its class. -/
def defectAs? (c : Class) (h : Handle) : Option Error :=
  h.ownDefect?.or (if h.op.cls = c then none else some (.unexpectedItem c h.op h.ea))

end Handle

namespace Slot

/-- What is wrong at a place of a handle: it lacks something required, or else what is wrong with
the handles there, in order. -/
def defects (s : Slot) (kind : String) (h : Handle) : List Error :=
  if s.position.required = true ∧ h.answers s.position.accessor = [] then
    [.missingField kind s.position.accessor.name h.ea]
  else (h.answers s.position.accessor).filterMap (Handle.defectAs? s.cls)

/-- A place is in order if it is not empty when something is required there, and every handle there
has a tag on the list, reports the class of its tag, and is of the class wanted. -/
def Met (s : Slot) (h : Handle) : Prop :=
  (s.position.required = true → h.answers s.position.accessor ≠ []) ∧
    ∀ k ∈ h.answers s.position.accessor,
      k.op.Listed ∧ k.isExpr = k.op.isExpr ∧ k.op.cls = s.cls

end Slot

namespace Handle

/-- What is wrong at the places of a handle, place by place. -/
def slotDefects (h : Handle) : List Error :=
  match h.op.type? with
  | some ty => ty.slots.flatMap fun s => s.defects (Kind.standard ty).name h
  | none => []

/-- What is wrong at the places of all visible handles of a tree, in pre-order. -/
def treeDefects (h : Handle) : List Error := h.reached.flatMap slotDefects

/-- The first thing that is wrong with a tree: with its root by itself, or else at a place. -/
def firstDefect? (h : Handle) : Option Error := h.ownDefect?.or h.treeDefects.head?

/-- Nothing is wrong with a handle by itself exactly if its tag is on the list and it reports the
class of its tag. -/
lemma ownDefect?_eq_none_iff {h : Handle} :
    h.ownDefect? = none ↔ h.op.Listed ∧ h.isExpr = h.op.isExpr := by
  unfold ownDefect?
  constructor
  · intro hd
    split_ifs at hd with hl hf
    exact ⟨hl, hf⟩
  · rintro ⟨hl, hf⟩
    rw [if_pos hl, if_pos hf]

/-- Nothing is wrong with a handle at a place exactly if nothing is wrong with it by itself and it
is of the class wanted. -/
lemma defectAs?_eq_none_iff {c : Class} {h : Handle} :
    h.defectAs? c = none ↔ h.op.Listed ∧ h.isExpr = h.op.isExpr ∧ h.op.cls = c := by
  rw [defectAs?, Option.or_eq_none_iff, ownDefect?_eq_none_iff, and_assoc]
  refine and_congr_right fun _ => and_congr_right fun _ => ?_
  split_ifs with hc
  · exact iff_of_true rfl hc
  · exact iff_of_false nofun hc

end Handle

/-- A place is in order exactly if nothing is wrong there. -/
lemma Slot.defects_eq_nil_iff {s : Slot} {kind : String} {h : Handle} :
    s.defects kind h = [] ↔ s.Met h := by
  unfold Slot.defects Slot.Met
  split_ifs with hm
  · refine iff_of_false nofun fun hmet => ?_
    exact hmet.1 hm.1 hm.2
  · rw [List.filterMap_eq_nil_iff]
    have hfirst : s.position.required = true → h.answers s.position.accessor ≠ [] :=
      fun hr hnil => hm ⟨hr, hnil⟩
    constructor
    · exact fun hall => ⟨hfirst, fun k hk => Handle.defectAs?_eq_none_iff.1 (hall k hk)⟩
    · exact fun hmet k hk => Handle.defectAs?_eq_none_iff.2 (hmet.2 k hk)

/-- Nothing is wrong at the places of a handle exactly if each of them is in order. -/
lemma Handle.slotDefects_eq_nil_iff {h : Handle} : h.slotDefects = [] ↔ ∀ s ∈ h.slots, s.Met h := by
  unfold Handle.slotDefects Handle.slots
  cases h.op.type? with
  | none => simp
  | some ty =>
    simp only [List.flatMap_eq_nil_iff, Option.map_some, Option.getD_some, Slot.defects_eq_nil_iff]

/-- Nothing is wrong in a tree exactly if every place of every visible handle is in order. -/
lemma Handle.treeDefects_eq_nil_iff {h : Handle} :
    h.treeDefects = [] ↔ ∀ k ∈ h.reached, ∀ s ∈ k.slots, s.Met k := by
  simp only [Handle.treeDefects, List.flatMap_eq_nil_iff, Handle.slotDefects_eq_nil_iff]

/-- The defects of a tree are those of its root and then those of the trees of its visible
children. -/
lemma Handle.treeDefects_eq (h : Handle) :
    h.treeDefects = h.slotDefects ++ h.visible.flatMap treeDefects := by
  rw [treeDefects, reached_eq, List.flatMap_cons, List.flatMap_assoc]
  rfl

/-! ## Items over the standard registry -/

/-- The item over a handle that the standard registry makes of it.  It only matters for tags on the
list; any other tag is given the kind of the empty expression, which has no places either. -/
def Handle.item (h : Handle) : Item :=
  ⟨Kind.standard (h.op.type?.getD (.expr .empty)), h, Registry.standard⟩

namespace Registry

/-- Resolving a handle reports what is wrong with it by itself. -/
lemma resolve_standard_outcome (h : Handle) :
    (standard.resolve h).outcome = firstError h.ownDefect?.toList h.item := by
  by_cases hl : h.op.Listed
  · obtain ⟨ty, hty⟩ := Tag.listed_iff_exists.1 hl
    by_cases hf : h.isExpr = h.op.isExpr
    · have hitem : h.item = ⟨Kind.standard ty, h, standard⟩ := by
        rw [Handle.item, Tag.type?_eq_some_iff.2 hty, Option.getD_some]
      rw [Handle.ownDefect?_eq_none_iff.2 ⟨hl, hf⟩, hitem]
      exact resolve_standard hty hf
    · have hlookup : standard.lookup h.op = some (Kind.standard ty).registration := by
        rw [lookup_standard, Tag.type?_eq_some_iff.2 hty, Option.map_some]
      rw [resolve_of_mismatch hlookup hf, Handle.ownDefect?, if_pos hl, if_neg hf]
      rfl
  · have hlookup : standard.lookup h.op = none := lookup_of_not_listed hl
    rw [resolve_of_none hlookup, Handle.ownDefect?, if_neg hl]
    rfl

/-- Resolving a handle to a class reports what is wrong with it at a place for that class. -/
lemma resolveAs_standard_outcome (c : Class) (h : Handle) :
    (standard.resolveAs c h).outcome = firstError (h.defectAs? c).toList h.item := by
  have hresolve := resolve_standard_outcome h
  cases hd : h.ownDefect? with
  | some e =>
    rw [hd] at hresolve
    rw [Handle.defectAs?, hd, Option.some_or, resolveAs, Traced.bind_eq, Traced.andThen, hresolve]
    rfl
  | none =>
    rw [hd] at hresolve
    have hok : (standard.resolve h).outcome = .ok h.item := hresolve
    obtain ⟨e, hl, _, hcls, hi⟩ := resolve_eq_ok_iff.1 hok
    have hitem : h.item.cls = h.op.cls := by rw [hi]; exact hcls
    rw [Handle.defectAs?, hd, Option.none_or, resolveAs, Traced.bind_eq, Traced.andThen, hok]
    dsimp only
    by_cases hc : h.op.cls = c
    · rw [if_pos hc, if_pos (hitem.trans hc)]
      rfl
    · have hc' : ¬ h.item.cls = c := fun h' => hc (hitem.symm.trans h')
      rw [if_neg hc, if_neg hc']
      rfl

end Registry

namespace Handle

variable {h : Handle}

/-- The children at a position report what is wrong there. -/
lemma fill_item_outcome (h : Handle) (c : Class) (p : Position) :
    (h.item.fill c p).outcome =
      firstError (Slot.defects ⟨c, p⟩ h.item.kind.name h)
        ((h.answers p.accessor).map item) := by
  unfold Item.fill Slot.defects
  by_cases hm : p.required = true ∧ h.answers p.accessor = []
  · have hm' : (p.required && (h.item.handle.answers p.accessor).isEmpty) = true := by
      rw [Bool.and_eq_true, List.isEmpty_iff]
      exact hm
    rw [if_pos hm, if_pos hm']
    rfl
  · have hm' : ¬ (p.required && (h.item.handle.answers p.accessor).isEmpty) = true := by
      rw [Bool.and_eq_true, List.isEmpty_iff]
      exact hm
    rw [if_neg hm, if_neg hm', List.filterMap_eq_flatMap_toList]
    exact firstError_mapM fun k _ => Registry.resolveAs_standard_outcome c k

/-- The children at a list of positions report what is wrong at these positions. -/
lemma fillAll_item_outcome (h : Handle) (c : Class) (ps : List Position) :
    (h.item.fillAll c ps).outcome =
      firstError (ps.flatMap fun p => Slot.defects ⟨c, p⟩ h.item.kind.name h)
        (ps.flatMap fun p => (h.answers p.accessor).map item) := by
  induction ps with
  | nil => rfl
  | cons p ps ih =>
    rw [List.flatMap_cons, List.flatMap_cons]
    exact firstError_append (h.fill_item_outcome c p) ih

/-- The children of an item report what is wrong at the places of its handle, and are otherwise the
items over the visible children of the handle. -/
theorem children_item_outcome (h : Handle) :
    h.item.children.outcome = firstError h.slotDefects (h.visible.map item) := by
  have hparts := firstError_append
    (h.fillAll_item_outcome .expression (h.item.kind.shape.positions .expression))
    (h.fillAll_item_outcome .statement (h.item.kind.shape.positions .statement))
  refine Eq.trans hparts ?_
  cases hty : h.op.type? with
  | none =>
    have hkind : h.item.kind = Kind.standard (.expr .empty) := by
      rw [item, hty, Option.getD_none]
    rw [hkind, slotDefects, visible, slots, hty]
    rfl
  | some ty =>
    have hkind : h.item.kind = Kind.standard ty := by rw [item, hty, Option.getD_some]
    rw [hkind, slotDefects, visible, slots, hty, Option.map_some, Option.getD_some]
    dsimp only
    rw [ty.slots_eq, List.flatMap_append, List.flatMap_append, List.map_append, List.map_flatMap,
      List.map_flatMap]
    simp only [List.flatMap_map]

end Handle

/-! ## Full traversals -/

/-- The ending that the first of several errors makes. -/
def Ending.ofErrors : List Error → Ending
  | [] => .passed
  | e :: _ => .failed (.error e)

/-- Parts that end in their first errors end together in the first error of all. -/
lemma Passage.ending_forEach_ofErrors {σ : Type v} {f : α → σ → Passage σ} {d : α → List Error}
    {as : List α} (h : ∀ a ∈ as, ∀ s, (f a s).ending = .ofErrors (d a)) (s : σ) :
    (Passage.forEach f as s).ending = .ofErrors (as.flatMap d) := by
  induction as generalizing s with
  | nil => rfl
  | cons a as ih =>
    have ha := h a List.mem_cons_self s
    rw [Passage.forEach, Passage.next, List.flatMap_cons]
    cases hd : d a with
    | nil =>
      rw [hd] at ha
      rw [ha]
      exact ih (fun b hb => h b (List.mem_cons_of_mem a hb)) (f a s).state
    | cons e es =>
      rw [hd] at ha
      rw [ha]
      exact ha

/-- The items that are visited in parts that are all passed. -/
lemma Passage.items_forEach {σ : Type v} {f : α → σ → Passage σ} {g : α → List Item}
    {as : List α} (hpassed : ∀ a ∈ as, ∀ s, (f a s).ending = .passed)
    (h : ∀ a ∈ as, ∀ s, (f a s).calls.map Visit.item = g a) (s : σ) :
    (Passage.forEach f as s).calls.map Visit.item = as.flatMap g := by
  induction as generalizing s with
  | nil => rfl
  | cons a as ih =>
    rw [Passage.forEach, Passage.next, hpassed a List.mem_cons_self s, List.flatMap_cons]
    dsimp only
    rw [List.map_append, h a List.mem_cons_self s]
    congr 1
    exact ih (fun b hb => hpassed b (List.mem_cons_of_mem a hb))
      (fun b hb => h b (List.mem_cons_of_mem a hb)) (f a s).state

namespace Handle

variable {σ : Type u} {visitor : Visitor σ}

/-- What follows the call of a visitor that descends, if nothing is wrong at the places. -/
lemma opening_item_of_nil {h : Handle} (hd : h.slotDefects = []) :
    h.item.opening (.ok .descend) = ⟨h.item.children.records, .passed, h.visible.map item⟩ := by
  have hchildren := h.children_item_outcome
  rw [hd] at hchildren
  have hok : h.item.children.outcome = .ok (h.visible.map item) := hchildren
  rw [Item.opening, hok]

/-- What follows the call of a visitor that descends, if something is wrong at the places. -/
lemma opening_item_of_cons {h : Handle} {e : Error} {es : List Error}
    (hd : h.slotDefects = e :: es) :
    h.item.opening (.ok .descend) = ⟨h.item.children.records, .failed (.error e), []⟩ := by
  have hchildren := h.children_item_outcome
  rw [hd] at hchildren
  have herror : h.item.children.outcome = .error (.error e) := hchildren
  rw [Item.opening, herror]

/-- A full traversal ends in the first defect of the tree. -/
theorem preorder_item_ending (hv : visitor.Descends) (h : Handle) (depth : Nat) (s : σ) :
    (h.item.preorder visitor depth s).ending = .ofErrors h.treeDefects := by
  induction h using visibleInduction generalizing depth s with
  | step h ih =>
    rw [Item.preorder_eq, hv, treeDefects_eq]
    cases hd : h.slotDefects with
    | nil =>
      rw [opening_item_of_nil hd, Passage.next]
      dsimp only
      rw [Passage.forEach_map]
      exact Passage.ending_forEach_ofErrors (fun k hk s => ih k hk (depth + 1) s) _
    | cons e es =>
      rw [opening_item_of_cons hd]
      rfl

/-- A full traversal of a tree without defects visits the items over the visible handles. -/
theorem preorder_item_items (hv : visitor.Descends) {h : Handle} (hd : h.treeDefects = [])
    (depth : Nat) (s : σ) :
    (h.item.preorder visitor depth s).calls.map Visit.item = h.reached.map item := by
  induction h using visibleInduction generalizing depth s with
  | step h ih =>
    rw [treeDefects_eq, List.append_eq_nil_iff, List.flatMap_eq_nil_iff] at hd
    rw [Item.preorder_eq, hv, opening_item_of_nil hd.1, Passage.next, reached_eq, List.map_cons]
    dsimp only
    rw [Passage.forEach_map, List.map_append, List.map_singleton, List.map_flatMap]
    have hpassed : ∀ k ∈ h.visible, ∀ s,
        (k.item.preorder visitor (depth + 1) s).ending = .passed := by
      intro k hk s
      rw [preorder_item_ending hv, hd.2 k hk]
      rfl
    exact congrArg (h.item :: ·) (Passage.items_forEach hpassed
      (fun k hk s => ih k hk (hd.2 k hk) (depth + 1) s) _)

/-- Counting the items over a handle reports the first defect of its tree. -/
lemma count_item_outcome (h : Handle) :
    h.item.count.outcome = firstError h.treeDefects h.reached.length := by
  have hv : Visitor.counting.Descends := fun _ _ _ => rfl
  rw [Item.count_outcome, preorder_item_ending hv]
  cases hd : h.treeDefects with
  | nil =>
    have hitems := preorder_item_items hv hd 0 0
    have hlength : (h.item.preorder .counting 0 0).calls.length = h.reached.length := by
      rw [← List.length_map Visit.item, hitems, List.length_map]
    rw [hlength]
    rfl
  | cons e es => rfl

/-- Resolving a handle and counting reports the first defect of all. -/
lemma count_outcome (h : Handle) :
    ((Registry.standard.resolve h).andThen Item.count).outcome =
      firstError (h.ownDefect?.toList ++ h.treeDefects) h.reached.length :=
  firstError_andThen (Registry.resolve_standard_outcome h) fun _ => h.count_item_outcome

end Handle

/-- The errors in the order in which they are looked for have the first defect in front. -/
lemma Handle.head?_defects (h : Handle) :
    (h.ownDefect?.toList ++ h.treeDefects).head? = h.firstDefect? := by
  rw [Handle.firstDefect?]
  cases h.ownDefect? <;> rfl

/-- **Counting succeeds exactly on trees without defects, and otherwise reports the first.**  With
the standard kinds, resolving a handle and counting its items succeeds if and only if the handle
itself resolves and every place of every visible handle is in order.  An error of the handle itself
is reported as such, and in general the result is an error exactly if there is a first defect, which
it is. -/
theorem count_standard_reports_first_defect (h : Handle) :
    let outcome := ((Registry.standard.resolve h).andThen Item.count).outcome
    ((∃ n, outcome = .ok n) ↔
        (∃ i, (Registry.standard.resolve h).outcome = .ok i) ∧
          ∀ k ∈ h.reached, ∀ s ∈ k.slots, s.Met k) ∧
      (∀ f, (Registry.standard.resolve h).outcome = .error f → outcome = .error f) ∧
      ∀ f, outcome = .error f ↔ ∃ e, h.firstDefect? = some e ∧ f = .error e := by
  intro outcome
  have houtcome : outcome = firstError (h.ownDefect?.toList ++ h.treeDefects) h.reached.length :=
    h.count_outcome
  have hresolve := Registry.resolve_standard_outcome h
  refine ⟨?_, ?_, ?_⟩
  · rw [← Handle.treeDefects_eq_nil_iff, houtcome, hresolve]
    cases h.ownDefect? with
    | some e => simp [firstError]
    | none => cases h.treeDefects <;> simp [firstError]
  · intro f hf
    rw [hf] at hresolve
    rw [houtcome]
    cases hd : h.ownDefect? with
    | none =>
      rw [hd] at hresolve
      cases hresolve
    | some e =>
      rw [hd] at hresolve
      cases hresolve
      rfl
  · intro f
    rw [houtcome, ← Handle.head?_defects]
    cases h.ownDefect?.toList ++ h.treeDefects with
    | nil => simp [firstError]
    | cons e es => simp [firstError, eq_comm]

end Pseudocode
