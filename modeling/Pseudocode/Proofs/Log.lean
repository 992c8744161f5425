import Mathlib.Data.List.Perm.Basic
import Pseudocode.Proofs.Defect
import Pseudocode.Proofs.Rendering
import Pseudocode.Proofs.Walk.Search

/-!
# The log of a full walk

Resolving a handle writes at most one record, and it is written only when the children of some item
are read.  Reading them is a list of requests, one for each handle that the accessors of the kind
answer and one for each accessor that should answer and does not (`Item.children_eq_mapM`).  A
request that is met writes that its handle is resolved; one that is refused is the last, and what it
writes depends on the reason (`Item.Refuses`).

A full walk reads the children of the items that it visits, in their order and up to the first that
fails (`Item.tries_preorder`).  So its log is put together from those of the requests.  If nothing
fails, each item but the root is resolved once, and a rendering, which reads the same lists in
another order, writes the same records.
-/

namespace Pseudocode

universe u v

variable {σ : Type u}

/-! ## Trying a list up to a failure -/

namespace Traced

variable {α : Type u} {β : Type v} {f : α → Traced β}

/-- A function is called on the elements of a list, one after the other: what is logged, and whether
the last call has failed.  The calls before it succeed. -/
inductive Tries (f : α → Traced β) : List α → List Record → Except Failure Unit → Prop
  | done : Tries f [] [] (.ok ())
  | failed {a : α} {cause : Failure} (h : (f a).outcome = .error cause) :
      Tries f [a] (f a).records (.error cause)
  | next {a : α} {b : β} {as : List α} {records : List Record} {result : Except Failure Unit}
      (h : (f a).outcome = .ok b) (hrest : Tries f as records result) :
      Tries f (a :: as) ((f a).records ++ records) result

variable {as : List α} {records : List Record}

/-- After calls that succeed, others may follow. -/
lemma Tries.append (h : Tries f as records (.ok ())) {as' : List α} {records' : List Record}
    {result : Except Failure Unit} (h' : Tries f as' records' result) :
    Tries f (as ++ as') (records ++ records') result := by
  induction as generalizing records with
  | nil =>
    rcases h with - | -
    exact h'
  | cons a as ih =>
    rcases h with - | - | ⟨ha, hrest⟩
    rw [List.cons_append, List.append_assoc]
    exact .next ha (ih hrest)

/-- If no call fails, the log is that of all calls. -/
lemma Tries.of_ok (h : Tries f as records (.ok ())) :
    ∃ bs, List.Forall₂ (fun a b => (f a).outcome = .ok b) as bs ∧
      records = as.flatMap fun a => (f a).records := by
  induction as generalizing records with
  | nil =>
    rcases h with - | -
    exact ⟨[], .nil, rfl⟩
  | cons a as ih =>
    rcases h with - | - | ⟨ha, hrest⟩
    obtain ⟨bs, hbs, rfl⟩ := ih hrest
    exact ⟨_, .cons ha hbs, rfl⟩

/-- If a call fails, it is the last, and the log of those before it comes before its own. -/
lemma Tries.of_error {cause : Failure} (h : Tries f as records (.error cause)) :
    ∃ before last earlier, as = before ++ [last] ∧ Tries f before earlier (.ok ()) ∧
      (f last).outcome = .error cause ∧ records = earlier ++ (f last).records := by
  induction as generalizing records with
  | nil => rcases h
  | cons a as ih =>
    rcases h with - | ha | ⟨ha, hrest⟩
    · exact ⟨[], a, [], rfl, .done, ha, rfl⟩
    · obtain ⟨before, last, earlier, rfl, htries, hlast, rfl⟩ := ih hrest
      exact ⟨a :: before, last, _, rfl, .next ha htries, hlast, (List.append_assoc ..).symm⟩

/-- Mapping a list calls the function up to the first failure. -/
lemma exists_tries_of_mapM {cause : Failure} (h : (as.mapM f).outcome = .error cause) :
    ∃ asked later, as = asked ++ later ∧ Tries f asked (as.mapM f).records (.error cause) := by
  induction as with
  | nil => cases h
  | cons a as ih =>
    rw [List.mapM_cons, bind_eq] at h ⊢
    rcases ha : (f a).outcome with cause' | b
    · rw [andThen, ha] at h ⊢
      obtain rfl : cause' = cause := Except.error.inj h
      exact ⟨[a], as, rfl, .failed ha⟩
    · rw [andThen_of_ok ha, bind_eq] at h ⊢
      rcases hrest : (as.mapM f).outcome with cause' | bs
      · rw [andThen, hrest] at h ⊢
        obtain rfl : cause' = cause := Except.error.inj h
        obtain ⟨asked, later, rfl, htries⟩ := ih hrest
        exact ⟨a :: asked, later, rfl, .next ha htries⟩
      · rw [andThen_of_ok hrest] at h
        cases h

end Traced

/-! ## Requests -/

/-- What an item asks for while its children are read: something that the accessor should answer and
does not, or a handle, which is to be of a class. -/
inductive Request where
  | lacking (a : Accessor)
  | handle (c : Class) (k : Handle)

namespace Item

variable {i j : Item} {c : Class} {js : List Item}

/-- The requests at a position. -/
def requestsAt (i : Item) (c : Class) (p : Position) : List Request :=
  if p.required && (i.handle.answers p.accessor).isEmpty then [.lacking p.accessor]
  else (i.handle.answers p.accessor).map (.handle c)

/-- The requests for the children of one class. -/
def requestsFor (i : Item) (c : Class) : List Request :=
  (i.kind.shape.positions c).flatMap (i.requestsAt c)

/-- The requests for all children. -/
def requests (i : Item) : List Request := i.requestsFor .expression ++ i.requestsFor .statement

/-- The answer to a request. -/
def perform (i : Item) : Request → Traced Item
  | .lacking a => Traced.error (i.missing a.name)
  | .handle c k => i.registry.resolveAs c k

/-- The children at a position are the answers to the requests there. -/
lemma fill_eq_mapM (i : Item) (c : Class) (p : Position) :
    i.fill c p = (i.requestsAt c p).mapM i.perform := by
  unfold fill requestsAt
  split
  · rfl
  · rw [List.mapM_map]
    rfl

/-- The children of a class are the answers to the requests for them. -/
lemma parts_eq_mapM (i : Item) (c : Class) : i.parts c = (i.requestsFor c).mapM i.perform := by
  unfold parts requestsFor
  induction i.kind.shape.positions c with
  | nil => rfl
  | cons p ps ih => rw [fillAll, List.flatMap_cons, List.mapM_append, fill_eq_mapM, ih]

/-- The children of an item are the answers to its requests. -/
theorem children_eq_mapM (i : Item) : i.children = i.requests.mapM i.perform := by
  rw [children, requests, List.mapM_append, parts_eq_mapM, parts_eq_mapM]

/-! ## The records of a request -/

/-- The record that an item is resolved, with the name of the entry for its tag. -/
def trace (i : Item) : Record :=
  .resolving i.tag i.ea ((i.registry.lookup i.tag).elim i.kindName Registration.name)

end Item

namespace Registry

variable {r : Registry} {h : Handle}

/-- A handle without an entry is reported, one that contradicts its tag is not, and any other is
traced. -/
lemma records_resolve (r : Registry) (h : Handle) :
    (r.resolve h).records =
      match r.lookup h.op with
      | none => [.unhandled h.ea]
      | some e => if h.isExpr = h.op.isExpr then [.resolving h.op h.ea e.name] else [] := by
  unfold resolve
  rcases r.lookup h.op with - | e
  · rfl
  · by_cases hflag : h.isExpr = h.op.isExpr
    · simp only [hflag, bne_self_eq_false, Bool.false_eq_true, if_false, if_true]
      split <;> rfl
    · simp only [hflag, bne_iff_ne, ne_eq, not_false_eq_true, if_true, if_false]
      rfl

/-- The class that is wanted plays no role in the log. -/
lemma records_resolveAs (r : Registry) (c : Class) (h : Handle) :
    (r.resolveAs c h).records = (r.resolve h).records := by
  unfold resolveAs
  rw [Traced.bind_eq]
  rcases hi : (r.resolve h).outcome with f | i
  · rw [Traced.andThen, hi]
  · rw [Traced.andThen_of_ok hi]
    split
    · exact List.append_nil _
    · exact List.append_nil _

/-- A handle that resolves is traced. -/
lemma records_resolve_of_ok {i : Item} (hi : (r.resolve h).outcome = .ok i) :
    (r.resolve h).records = [i.trace] := by
  obtain ⟨e, hl, hflag, _, rfl⟩ := resolve_eq_ok_iff.1 hi
  rw [records_resolve, hl]
  simp only [hflag, if_true, Item.trace, Item.tag, hl]
  rfl

/-- A handle that does not resolve, without a breach, has no entry and is reported, or it
contradicts its tag and nothing is logged. -/
lemma resolve_of_error {cause : Error} (he : (r.resolve h).outcome = .error (.error cause)) :
    (r.lookup h.op = none ∧ cause = .unsupportedTag h.op ∧
        (r.resolve h).records = [.unhandled h.ea]) ∨
      ∃ e, r.lookup h.op = some e ∧ h.isExpr ≠ h.op.isExpr ∧
        cause = .classMismatch h.op h.ea h.isExpr ∧ (r.resolve h).records = [] := by
  rw [records_resolve]
  rcases hl : r.lookup h.op with - | e
  · rw [resolve_of_none hl] at he
    cases he
    exact .inl ⟨rfl, rfl, rfl⟩
  · by_cases hflag : h.isExpr = h.op.isExpr
    · by_cases hcls : e.builds.cls = h.op.cls
      · cases he.symm.trans (resolve_of_agree hl hflag hcls)
      · cases he.symm.trans (resolve_of_breach hl hflag hcls)
    · rw [resolve_of_mismatch hl hflag] at he
      cases he
      exact .inr ⟨e, rfl, hflag, rfl, if_neg hflag⟩

/-- The trace of what a handle resolves to names the entry of its tag. -/
lemma exists_entry_of_resolve {i : Item} (hi : (r.resolve h).outcome = .ok i) :
    ∃ e, i.registry.lookup i.tag = some e ∧ i.trace = .resolving i.tag i.ea e.name := by
  obtain ⟨e, hl, _, _, rfl⟩ := resolve_eq_ok_iff.1 hi
  refine ⟨e, hl, ?_⟩
  rw [Item.trace, Item.tag, hl]
  rfl

end Registry

namespace Item

variable {i j : Item} {q : Request} {js : List Item} {c : Class}

/-- How a request is refused, and what is logged then: nothing if an answer is lacking or a handle
contradicts its tag, a report if no kind handles the tag, and the trace of the item if it is of the
other class. -/
inductive Refuses (i : Item) : Request → Error → List Record → Prop
  | lacking (a : Accessor) : Refuses i (.lacking a) (.missingField i.kindName a.name i.ea) []
  | unsupported {c : Class} {k : Handle} (hl : i.registry.lookup k.op = none) :
      Refuses i (.handle c k) (.unsupportedTag k.op) [.unhandled k.ea]
  | mismatch {c : Class} {k : Handle} {e : Registration} (hl : i.registry.lookup k.op = some e)
      (hflag : k.isExpr ≠ k.op.isExpr) :
      Refuses i (.handle c k) (.classMismatch k.op k.ea k.isExpr) []
  | unexpected {c : Class} {k : Handle} {j : Item} (hj : (i.registry.resolve k).outcome = .ok j)
      (hcls : j.cls ≠ c) : Refuses i (.handle c k) (.unexpectedItem c k.op k.ea) [j.trace]

/-- A request that is met is traced. -/
lemma records_of_perform (hj : (i.perform q).outcome = .ok j) :
    (i.perform q).records = [j.trace] := by
  rcases q with a | ⟨c, k⟩
  · cases hj
  · obtain ⟨hresolve, _⟩ := Registry.resolveAs_eq_ok_iff.1 hj
    rw [perform, Registry.records_resolveAs, Registry.records_resolve_of_ok hresolve]

/-- A request that fails with an error is refused for one of the four reasons. -/
lemma refuses_of_perform {e : Error} (he : (i.perform q).outcome = .error (.error e)) :
    i.Refuses q e (i.perform q).records := by
  rcases q with a | ⟨c, k⟩
  · cases he
    exact .lacking a
  · rw [perform, Registry.resolveAs, Traced.bind_eq] at he
    rw [perform, Registry.records_resolveAs]
    rcases hresolve : (i.registry.resolve k).outcome with f | j
    · rw [Traced.andThen, hresolve] at he
      obtain rfl : f = .error e := Except.error.inj he
      rcases Registry.resolve_of_error hresolve with
        ⟨hl, rfl, hrecords⟩ | ⟨entry, hl, hflag, rfl, hrecords⟩
      · rw [hrecords]
        exact .unsupported hl
      · rw [hrecords]
        exact .mismatch hl hflag
    · obtain rfl : j.handle = k := Registry.handle_of_resolve hresolve
      rw [Traced.andThen_of_ok hresolve] at he
      rw [Registry.records_resolve_of_ok hresolve]
      split at he
      · cases he
      · next hcls =>
        cases he
        exact .unexpected hresolve hcls

/-- Requests that are met are traced one after the other. -/
lemma flatMap_records_perform {qs : List Request}
    (h : List.Forall₂ (fun q j => (i.perform q).outcome = .ok j) qs js) :
    (qs.flatMap fun q => (i.perform q).records) = js.map trace := by
  induction h with
  | nil => rfl
  | cons hj _ ih =>
    rw [List.flatMap_cons, List.map_cons, records_of_perform hj, ih, List.singleton_append]

/-- A list of requests that are all met is traced one after the other. -/
lemma records_mapM_perform {qs : List Request} (hjs : (qs.mapM i.perform).outcome = .ok js) :
    (qs.mapM i.perform).records = js.map trace := by
  rw [Traced.records_mapM_of_ok hjs]
  exact flatMap_records_perform (Traced.mapM_outcome_eq_ok_iff.1 hjs)

/-- The children of a class are traced one after the other, if they resolve. -/
lemma records_parts (hjs : (i.parts c).outcome = .ok js) : (i.parts c).records = js.map trace := by
  rw [parts_eq_mapM] at hjs ⊢
  exact records_mapM_perform hjs

/-- The children of an item are traced one after the other, if they resolve. -/
lemma records_children (hjs : i.children.outcome = .ok js) : i.children.records = js.map trace := by
  rw [children_eq_mapM] at hjs ⊢
  exact records_mapM_perform hjs

/-- If the children of an item do not resolve, the requests before the one that is refused are met
and traced, and no request after it is made. -/
lemma exists_refuses_of_children {e : Error} (he : i.children.outcome = .error (.error e)) :
    ∃ asked q later before closing, i.requests = asked ++ q :: later ∧
      List.Forall₂ (fun q j => (i.perform q).outcome = .ok j) asked before ∧
      i.Refuses q e closing ∧ i.children.records = before.map trace ++ closing := by
  rw [children_eq_mapM] at he ⊢
  obtain ⟨tried, later, hsplit, htries⟩ := Traced.exists_tries_of_mapM he
  obtain ⟨asked, q, earlier, rfl, hasked, hq, hrecords⟩ := htries.of_error
  obtain ⟨before, hbefore, rfl⟩ := hasked.of_ok
  refine ⟨asked, q, later, before, _, ?_, hbefore, refuses_of_perform hq, ?_⟩
  · rw [hsplit, List.append_assoc, List.singleton_append]
  · rw [hrecords, flatMap_records_perform hbefore]

end Item

/-! ## The log of a walk -/

namespace Passage

variable {α : Type v}

/-- If every part reads the children of the items that it visits, so do all parts together. -/
lemma tries_forEach {f : α → σ → Passage σ} {as : List α}
    (h : ∀ a ∈ as, ∀ s, Traced.Tries Item.children ((f a s).calls.map Visit.item) (f a s).records
      (f a s).ending.result) (s : σ) :
    Traced.Tries Item.children ((forEach f as s).calls.map Visit.item) (forEach f as s).records
      (forEach f as s).ending.result := by
  induction as generalizing s with
  | nil => exact .done
  | cons a as ih =>
    have ha := h a List.mem_cons_self s
    rw [forEach, next]
    split
    · next hpassed =>
      rw [hpassed] at ha
      rw [List.map_append]
      exact ha.append (ih (fun b hb => h b (List.mem_cons_of_mem a hb)) (f a s).state)
    · exact ha

end Passage

namespace Item

variable {i : Item} {as bs js : List Item} {visitor : Visitor σ}

/-- A full traversal reads the children of the items that it visits, up to the first that fails. -/
theorem tries_preorder (hv : visitor.Descends) (i : Item) (depth : Nat) (s : σ) :
    Traced.Tries children ((i.preorder visitor depth s).calls.map Visit.item)
      (i.preorder visitor depth s).records (i.preorder visitor depth s).ending.result := by
  induction i using childInduction generalizing depth s with
  | step i ih =>
    rw [preorder_eq, hv, opening, Passage.next]
    rcases hjs : i.children.outcome with f | js
    · exact .failed hjs
    · refine .next hjs (Passage.tries_forEach (fun j hj t => ?_) _)
      exact ih j ⟨js, hjs, hj⟩ (depth + 1) t

/-- A full walk reads the children of the items that it visits, up to the first that fails. -/
theorem tries_walk (hv : visitor.Descends) (root : Item) (s : σ) :
    Traced.Tries children root.visited (root.walk visitor s).records
      (root.walk visitor s).outcome := by
  have htries := tries_preorder hv root 0 s
  rw [← visits_eq_calls, (walk_of_descends hv root s).1] at htries
  rw [walk_eq_walked]
  exact htries

/-! ## Each item is resolved once -/

/-- The children of an item, if they resolve. -/
def offspring (i : Item) : List Item := i.children.outcome.toOption.getD []

/-- The children that an item has are its offspring. -/
lemma offspring_of_ok (hjs : i.children.outcome = .ok js) : i.offspring = js := by
  rw [offspring, hjs]
  rfl

/-- What belongs to the children, and then what belongs to the items below each of them, belongs to
the items below their parent. -/
lemma perm_tail_entries {γ : Type v} (hjs : i.children.outcome = .ok js)
    (hall : ∀ j ∈ js, j.Whole) (depth : Nat) (g : Item → γ) {f : Item → List γ}
    (hf : ∀ j ∈ js, (f j).Perm (((j.entries (depth + 1)).tail.map Visit.item).map g)) :
    (js.map g ++ js.flatMap f).Perm (((i.entries depth).tail.map Visit.item).map g) := by
  have hcons : ∀ j ∈ js, g j :: ((j.entries (depth + 1)).tail.map Visit.item).map g =
      ((j.entries (depth + 1)).map Visit.item).map g := by
    intro j hj
    rcases hall j hj with ⟨hks, hbelow⟩
    rw [entries_eq hks hbelow]
    rfl
  calc (js.map g ++ js.flatMap f).Perm (js.flatMap fun j => g j :: f j) :=
        List.map_append_flatMap_perm js g f
    List.Perm _ (js.flatMap fun j => ((j.entries (depth + 1)).map Visit.item).map g) := by
        refine List.Perm.flatMap_left js fun j hj => ?_
        rw [← hcons j hj]
        exact (hf j hj).cons (g j)
    _ = ((i.entries depth).tail.map Visit.item).map g := by
        rw [entries_eq hjs hall, List.tail_cons, List.map_flatMap, List.map_flatMap]

/-- The children of the items that a full traversal visits are these items without the first. -/
theorem Whole.perm_offspring (hwhole : i.Whole) (depth : Nat) :
    (((i.entries depth).map Visit.item).flatMap offspring).Perm
      ((i.entries depth).tail.map Visit.item) := by
  induction hwhole generalizing depth with
  | intro hjs hall ih =>
    rename_i i js
    have hperm := perm_tail_entries hjs hall depth id (f := fun j =>
      ((j.entries (depth + 1)).map Visit.item).flatMap offspring) fun j hj => by
        rw [List.map_id]
        exact ih j hj (depth + 1)
    rw [List.map_id, List.map_id] at hperm
    rw [entries_eq hjs hall, List.map_cons, List.flatMap_cons, offspring_of_ok hjs,
      List.map_flatMap, List.flatMap_assoc, ← entries_eq hjs hall]
    exact hperm

/-- A rendering reads the lists that a full traversal reads. -/
theorem IsStandard.perm_records_render (hi : i.IsStandard) (hwhole : i.Whole) (depth : Nat) :
    i.render.records.Perm (((i.entries depth).tail.map Visit.item).map trace) := by
  induction i using childInduction generalizing depth with
  | step i ih =>
    obtain ⟨as, bs, has, hbs, hall⟩ := hwhole.exists_parts
    have hjs : i.children.outcome = .ok (as ++ bs) := children_of_parts has hbs
    have htexts := hi.render_of_parts has hbs hall
    -- Whichever list comes first, both lists are traced before what is below them.
    have hlists : i.render.records.Perm
        ((as ++ bs).map trace ++ (as ++ bs).flatMap fun j => j.render.records) := by
      rw [List.map_append, List.flatMap_append]
      rcases hcls : i.kind.cls with - | -
      · obtain rfl : bs = [] := eq_nil_of_expression hcls hbs
        rw [List.append_nil] at htexts
        rw [render_of_expression hi.listsChildren hcls has htexts, records_parts has]
        simp
      · rw [render_of_statement hi.listsChildren hcls has hbs htexts, records_parts has,
          records_parts hbs]
        refine List.perm_append_comm.trans ?_
        rw [List.append_assoc, List.append_assoc]
        exact (List.perm_append_comm_assoc _ _ _).append_left _
    refine hlists.trans (perm_tail_entries hjs hall depth trace fun j hj => ?_)
    have hchild : i.IsChild j := ⟨as ++ bs, hjs, hj⟩
    exact ih j hchild (hi.of_isChild hchild) (hall j hj) (depth + 1)

/-! ## What the log says -/

/-- The log of reading everything below a root, each item once: the records that the children of the
visited items are resolved, item by item in the order of the visits.  These are all visited items
without the root, they wrap nodes at different places of the tree, and rendering the root writes the
same records in some order. -/
structure ResolvesOnce (root : Item) (h : Handle) (records : List Record) : Prop where
  children_eq : ∀ i ∈ root.visited, i.children.outcome = .ok i.offspring
  records_eq : records = (root.visited.flatMap offspring).map trace
  visited_eq : root.visited = root :: root.visited.tail
  perm_visited : (root.visited.flatMap offspring).Perm root.visited.tail
  apart : Apart h root.visited
  named : ∀ i ∈ root.visited, ∃ e, i.registry.lookup i.tag = some e ∧
    i.trace = .resolving i.tag i.ea e.name
  render_ok : ∃ t, root.render.outcome = .ok t
  perm_render : root.render.records.Perm records

/-- The log of reading what is below a root up to a request that is refused: the records that the
children of the items visited before are resolved, those for the requests that were met at the last
item, and what is logged with the refusal. -/
def EndsRefused (root : Item) (e : Error) (records : List Record) : Prop :=
  ∃ done last asked q later before closing, root.visited = done ++ [last] ∧
    (∀ i ∈ done, i.children.outcome = .ok i.offspring) ∧ last.requests = asked ++ q :: later ∧
    List.Forall₂ (fun q j => (last.perform q).outcome = .ok j) asked before ∧
    last.Refuses q e closing ∧
    records = (done.flatMap offspring ++ before).map trace ++ closing

/-- The level of a trace. -/
lemma level_of_mem_map_trace {r : Record} (hr : r ∈ js.map trace) : r.level = .trace := by
  obtain ⟨j, _, rfl⟩ := List.mem_map.1 hr
  rfl

/-- With a refusal at most one record is logged, and it is above the level of traces exactly if the
tag is not supported. -/
lemma Refuses.closing_eq {q : Request} {e : Error} {closing : List Record}
    (h : i.Refuses q e closing) :
    (closing = [] ∧ ¬ ∃ t, e = .unsupportedTag t) ∨
      ∃ r, closing = [r] ∧ (r.level = .debug ↔ ∃ t, e = .unsupportedTag t) := by
  rcases h with a | hl | ⟨hl, hflag⟩ | ⟨hj, hcls⟩
  · exact .inl ⟨rfl, nofun⟩
  · exact .inr ⟨_, rfl, iff_of_true rfl ⟨_, rfl⟩⟩
  · exact .inl ⟨rfl, nofun⟩
  · exact .inr ⟨_, rfl, iff_of_false nofun nofun⟩

/-- Only an unsupported tag is logged above the level of traces, by the last record. -/
lemma EndsRefused.level {root : Item} {e : Error} {records : List Record}
    (h : root.EndsRefused e records) :
    (∀ r ∈ records.dropLast, r.level = .trace) ∧
      ((∃ r, records.getLast? = some r ∧ r.level = .debug) ↔ ∃ t, e = .unsupportedTag t) := by
  obtain ⟨done, last, asked, q, later, before, closing, -, -, -, -, hrefuses, rfl⟩ := h
  rcases hrefuses.closing_eq with ⟨rfl, hnot⟩ | ⟨r, rfl, hr⟩
  · rw [List.append_nil]
    refine ⟨fun r hr => level_of_mem_map_trace (List.mem_of_mem_dropLast hr), ?_⟩
    refine iff_of_false ?_ hnot
    rintro ⟨r, hr, hlevel⟩
    have htrace := level_of_mem_map_trace (List.mem_of_getLast? hr)
    cases htrace.symm.trans hlevel
  · rw [List.dropLast_concat, List.getLast?_concat]
    refine ⟨fun r hr => level_of_mem_map_trace hr, ?_⟩
    rw [← hr]
    constructor
    · rintro ⟨r', hr', hlevel⟩
      rwa [Option.some.inj hr']
    · exact fun hlevel => ⟨r, rfl, hlevel⟩

/-- Reading the children of items without a failure traces the offspring of each. -/
lemma offspring_of_tries {records : List Record} (h : Traced.Tries children js records (.ok ())) :
    (∀ i ∈ js, i.children.outcome = .ok i.offspring) ∧
      records = (js.flatMap offspring).map trace := by
  obtain ⟨kids, hkids, rfl⟩ := h.of_ok
  clear h
  induction hkids with
  | nil => exact ⟨nofun, rfl⟩
  | cons hks _ ih =>
    obtain ⟨hall, hrecords⟩ := ih
    rw [List.flatMap_cons, List.flatMap_cons, List.map_append, hrecords, records_children hks,
      offspring_of_ok hks]
    refine ⟨List.forall_mem_cons.2 ⟨?_, hall⟩, rfl⟩
    rw [offspring_of_ok hks, hks]

/-- A full walk that succeeds resolves each item below its root once. -/
lemma resolvesOnce_of_ok {h : Handle} {root : Item}
    (hroot : (Registry.standard.resolve h).outcome = .ok root) {records : List Record}
    (hwhole : root.Whole) (htries : Traced.Tries children root.visited records (.ok ())) :
    root.ResolvesOnce h records := by
  obtain ⟨hall, hrecords⟩ := offspring_of_tries htries
  obtain rfl : root.handle = h := Registry.handle_of_resolve hroot
  have hi : root.IsStandard := isStandard_of_resolve_standard hroot
  have hvisited : root.visited = (root.entries 0).map Visit.item := by
    rw [visited, visits_descending]
  have hcons : root.visited = root :: root.visited.tail := by
    rcases hwhole with ⟨hjs, hbelow⟩
    rw [hvisited, entries_eq hjs hbelow]
    rfl
  have htail : root.visited.tail = (root.entries 0).tail.map Visit.item := by
    rw [hvisited, List.map_tail]
  have hperm : (root.visited.flatMap offspring).Perm root.visited.tail := by
    rw [htail, hvisited]
    exact hwhole.perm_offspring 0
  refine ⟨hall, hrecords, hcons, hperm, (hi.spread_visits .descending ()).apart, ?_,
    ⟨_, hi.render_of_whole hwhole⟩, ?_⟩
  · intro i hmem
    rw [hcons] at hmem
    rcases List.mem_cons.1 hmem with rfl | hmem
    · exact Registry.exists_entry_of_resolve hroot
    · obtain ⟨j, hj, hchild⟩ := List.mem_flatMap.1 (hperm.mem_iff.2 hmem)
      obtain ⟨c, p, _, k, _, hk⟩ := exists_resolveAs_of_children ⟨_, hall j hj, hchild⟩
      exact Registry.exists_entry_of_resolve (Registry.resolveAs_eq_ok_iff.1 hk).1
  · rw [hrecords]
    refine (hi.perm_records_render hwhole 0).trans ?_
    rw [← htail]
    exact (hperm.map trace).symm

end Item

/-- **A full walk resolves each item below its root once.**  Through the standard registry, let a
handle resolve to a root, and take any visitor that always descends.

If its walk succeeds, the log has one trace for each item visited but the root, with the tag, the
address and the name of the entry: item by item in pre-order, and for each item the children in
their order.  Nothing else is logged.  Rendering the root then logs the same records in some order.

If the walk fails, it is with an error, at the last item visited and a request of that item.  What
was resolved before is traced.  An unsupported tag is reported by one more record, which is the only
one above the level of traces; an item of the other class is traced before it is refused; nothing is
logged for a handle that contradicts its tag or an answer that is lacking. -/
theorem full_walk_resolves_each_item_once {h : Handle} {root : Item}
    (hroot : (Registry.standard.resolve h).outcome = .ok root) {visitor : Visitor σ}
    (hv : visitor.Descends) (s : σ) :
    let walk := root.walk visitor s
    (walk.outcome = .ok () →
        root.ResolvesOnce h walk.records ∧ ∀ r ∈ walk.records, r.level = .trace) ∧
      ∀ f, walk.outcome = .error f → ∃ e, f = .error e ∧ root.EndsRefused e walk.records ∧
        (∀ r ∈ walk.records.dropLast, r.level = .trace) ∧
        ((∃ r, walk.records.getLast? = some r ∧ r.level = .debug) ↔
          ∃ t, e = .unsupportedTag t) := by
  intro walk
  have htries := Item.tries_walk hv root s
  refine ⟨fun hok => ?_, fun f hf => ?_⟩
  · have hwhole : root.Whole := by
      rw [← Item.walk_descending_eq_ok_iff, ← (Item.walk_of_descends hv root s).2.2]
      exact hok
    rw [hok] at htries
    have honce := Item.resolvesOnce_of_ok hroot hwhole htries
    refine ⟨honce, fun r hr => ?_⟩
    rw [honce.records_eq] at hr
    exact Item.level_of_mem_map_trace hr
  · rw [hf] at htries
    obtain ⟨done, last, earlier, hvisited, hdone, hlast, hrecords⟩ := htries.of_error
    have hfaithful : root.registry.Faithful := by
      rw [(Item.resolved_of_resolve (h := h) .refl hroot).registry_eq]
      exact Registry.standard_faithful
    obtain ⟨e, rfl⟩ : ∃ e, f = .error e := by
      rcases f with e | name
      · exact ⟨e, rfl⟩
      · exact absurd hf (Item.walk_outcome_ne_breach hfaithful visitor s name)
    obtain ⟨hall, rfl⟩ := Item.offspring_of_tries hdone
    obtain ⟨asked, q, later, before, closing, hrequests, hbefore, hrefuses, hlog⟩ :=
      Item.exists_refuses_of_children hlast
    have hends : root.EndsRefused e walk.records := by
      refine ⟨done, last, asked, q, later, before, closing, hvisited, hall, hrequests, hbefore,
        hrefuses, ?_⟩
      rw [List.map_append, List.append_assoc, ← hlog]
      exact hrecords
    exact ⟨e, rfl, hends, hends.level⟩

/-- A full walk of a branch traces its condition and then its body; one of a block that holds this
branch and a node of no known type ends with a report of that node. -/
theorem full_walk_resolves_each_item_once_branch_in_block :
    let leaf : Handle := { ea := 8, op := (NodeType.expr .var).tag }
    let body : Handle := { ea := 4, op := (NodeType.stmt .block).tag }
    let branch : Handle :=
      { ea := 1, op := (NodeType.stmt .ifStmt).tag, cexpr := some leaf, ithen := some body }
    let stray : Handle := { ea := 9, op := .absent }
    let block : Handle :=
      { ea := 0, op := (NodeType.stmt .block).tag, block := [branch, stray] }
    let walk (h : Handle) := h.item.walk .descending ()
    Visitor.descending.Descends ∧ (Registry.standard.resolve branch).outcome = .ok branch.item ∧
      (walk branch).outcome = .ok () ∧
      branch.item.ResolvesOnce branch (walk branch).records ∧
      (Registry.standard.resolve block).outcome = .ok block.item ∧
      (walk block).outcome = .error (.error (.unsupportedTag .absent)) ∧
      block.item.EndsRefused (.unsupportedTag .absent) (walk block).records ∧
      ∃ r, (walk block).records.getLast? = some r ∧ r.level = .debug := by
  intro leaf body branch stray block walk
  have hv : Visitor.descending.Descends := fun _ _ _ => rfl
  have houtcome : ∀ h, (walk h).outcome = (Ending.ofErrors h.treeDefects).result := by
    intro h
    rw [← Handle.preorder_item_ending hv h 0 ()]
    exact congrArg Walked.outcome (h.item.walk_eq_walked .descending ())
  have hbranch : (Registry.standard.resolve branch).outcome = .ok branch.item :=
    Registry.resolve_standard rfl rfl
  have hblock : (Registry.standard.resolve block).outcome = .ok block.item :=
    Registry.resolve_standard rfl rfl
  have hwhole : (walk branch).outcome = .ok () := by
    have hleaf : leaf.treeDefects = [] := by
      rw [Handle.treeDefects_eq]
      rfl
    have hbody : body.treeDefects = [] := by
      rw [Handle.treeDefects_eq]
      rfl
    have hvisible : branch.visible = [leaf, body] := rfl
    have hnone : branch.treeDefects = [] := by
      rw [Handle.treeDefects_eq, hvisible, List.flatMap_cons, List.flatMap_singleton, hleaf, hbody]
      rfl
    rw [houtcome, hnone]
    rfl
  have hrefused : (walk block).outcome = .error (.error (.unsupportedTag .absent)) := by
    have hfirst : ∃ es, block.treeDefects = .unsupportedTag .absent :: es := by
      rw [Handle.treeDefects_eq]
      exact ⟨_, rfl⟩
    obtain ⟨es, hes⟩ := hfirst
    rw [houtcome, hes]
    rfl
  obtain ⟨hends, _, hlast⟩ : block.item.EndsRefused (.unsupportedTag .absent) (walk block).records ∧
      _ ∧ _ := by
    obtain ⟨e, he, hends⟩ := (full_walk_resolves_each_item_once hblock hv ()).2 _ hrefused
    cases he
    exact hends
  obtain ⟨honce, _⟩ := (full_walk_resolves_each_item_once hbranch hv ()).1 hwhole
  exact ⟨hv, hbranch, hwhole, honce, hblock, hrefused, hends, hlast.2 ⟨_, rfl⟩⟩

end Pseudocode
