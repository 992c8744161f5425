import Pseudocode.Registry

/-!
# Items

An item is a handle wrapped by a kind, together with the registry through which its children are
resolved.  Resolving looks the tag of a handle up, checks that the class which the handle reports is
the class of its tag, and wraps it.

The children of an item are read off the positions of its kind, one after the other.  The first
position that lacks a required child, or holds a handle that does not resolve to the class wanted
there, is the error of the whole list.
-/

namespace Pseudocode

/-- A handle wrapped by a kind. -/
structure Item where
  kind : Kind
  handle : Handle
  registry : Registry

namespace Item

/-- Name of the kind of an item. -/
def kindName (i : Item) : String := i.kind.name

/-- Address of an item. -/
def ea (i : Item) : Address := i.handle.ea

/-- Tag of an item. -/
def tag (i : Item) : Tag := i.handle.op

/-- Node type of an item. -/
def type? (i : Item) : Option NodeType := i.tag.type?

/-- Class of an item: that of the kind which wraps it. -/
def cls (i : Item) : Class := i.kind.cls

/-- Whether an item is an expression. -/
def isExpr (i : Item) : Bool := i.kind.isExpr

/-- Whether an item is a statement. -/
def isStmt (i : Item) : Bool := !i.isExpr

/-- Whether the node under an item says that it is an expression, whatever kind wraps it. -/
def reportsExpr (i : Item) : Bool := i.handle.isExpr

/-- Whether the node under an item says that it is a statement. -/
def reportsStmt (i : Item) : Bool := !i.reportsExpr

/-- The summary that the kind of an item gives. -/
def summary (i : Item) : Option String := i.kind.summary i.handle

/-- The node under an item as dumps show it. -/
def nodeDump (i : Item) : String :=
  "CNode \x7b ea: " ++ i.ea.text ++ ", tag: " ++ i.tag.dump ++ " \x7d"

/-- The item seen as one of the kind `k`.  This goes by the tag of the node alone, whatever kind
wraps it. -/
def as? (k : Kind) (i : Item) : Option Item :=
  if k.handles i.tag then some { i with kind := k } else none

end Item

namespace Registry

/-- Wraps a handle by the kind that is registered for its tag. -/
def resolve (r : Registry) (h : Handle) : Traced Item :=
  match r.lookup h.op with
  | none => (Traced.error (.unsupportedTag h.op)).after [.unhandled h.ea]
  | some e =>
    if h.isExpr != h.op.isExpr then Traced.error (.classMismatch h.op h.ea h.isExpr)
    else
      (if e.builds.isExpr == h.op.isExpr then Traced.ok ⟨e.builds, h, r⟩
        else Traced.failed (.breach e.name)).after [.resolving h.op h.ea e.name]

/-- Wraps a handle that must be of a given class. -/
def resolveAs (r : Registry) (c : Class) (h : Handle) : Traced Item := do
  let i ← r.resolve h
  if i.cls = c then return i
  else Traced.error (.unexpectedItem c i.tag i.ea)

end Registry

namespace Item

/-- The error that something is missing from the node of an item. -/
def missing (i : Item) (field : String) : Error := .missingField i.kind.name field i.ea

/-- Wraps a handle below an item, if the kind of the item can. -/
def createChild (i : Item) (h : Handle) : Traced Item :=
  if i.kind.dispatches then i.registry.resolve h
  else Traced.error (.notImplemented "create_child" i.kind.name)

/-- The children at one position. -/
def fill (i : Item) (c : Class) (p : Position) : Traced (List Item) :=
  if p.required && (i.handle.answers p.accessor).isEmpty then
    Traced.error (i.missing p.accessor.name)
  else (i.handle.answers p.accessor).mapM (i.registry.resolveAs c)

/-- The children at a list of positions. -/
def fillAll (i : Item) (c : Class) : List Position → Traced (List Item)
  | [] => Traced.ok []
  | p :: ps => do
    let here ← i.fill c p
    let there ← i.fillAll c ps
    return here ++ there

/-- The children of one class. -/
def parts (i : Item) (c : Class) : Traced (List Item) := i.fillAll c (i.kind.shape.positions c)

/-- The children of an item: expressions first, then nested statements. -/
def children (i : Item) : Traced (List Item) := do
  let expressions ← i.parts .expression
  let statements ← i.parts .statement
  return expressions ++ statements

end Item

/-! ### Children are smaller -/

namespace Traced

/-- The result is a list, and `a` is one of its elements. -/
def Yields (t : Traced (List α)) (a : α) : Prop := ∃ as, t.outcome = .ok as ∧ a ∈ as

/-- A chain succeeds exactly if its first part does and the second part does after it. -/
theorem andThen_outcome_eq_ok {t : Traced α} {f : α → Traced β} {b : β} :
    (t.andThen f).outcome = .ok b ↔ ∃ a, t.outcome = .ok a ∧ (f a).outcome = .ok b := by
  unfold andThen
  split <;> simp_all [after]

/-- Every element of a mapped list comes from an element of the list. -/
theorem mapM_yields {f : α → Traced β} {as : List α} {b : β} (h : (as.mapM f).Yields b) :
    ∃ a ∈ as, (f a).outcome = .ok b := by
  obtain ⟨bs, hbs, hb⟩ := h
  induction as generalizing bs with
  | nil =>
    have : bs = [] := by simpa [ok] using hbs.symm
    simp [this] at hb
  | cons a as ih =>
    simp only [List.mapM_cons, bind_eq, pure_eq] at hbs
    obtain ⟨b', hb', hrest⟩ := andThen_outcome_eq_ok.1 hbs
    obtain ⟨bs', hbs', hok⟩ := andThen_outcome_eq_ok.1 hrest
    have hcons : b' :: bs' = bs := by simpa [ok] using hok
    rw [← hcons] at hb
    rcases List.mem_cons.1 hb with rfl | hmem
    · exact ⟨a, List.mem_cons_self, hb'⟩
    · obtain ⟨a', ha', hfa'⟩ := ih bs' hbs' hmem
      exact ⟨a', List.mem_cons_of_mem a ha', hfa'⟩

/-- Every element of a list that was put together in two parts comes from one of them. -/
theorem append_yields {s t : Traced (List α)} {a : α}
    (h : (s.andThen fun as => t.andThen fun bs => ok (as ++ bs)).Yields a) :
    s.Yields a ∨ t.Yields a := by
  obtain ⟨cs, hcs, ha⟩ := h
  obtain ⟨as, has, hrest⟩ := andThen_outcome_eq_ok.1 hcs
  obtain ⟨bs, hbs, hok⟩ := andThen_outcome_eq_ok.1 hrest
  have happ : as ++ bs = cs := by simpa [ok] using hok
  rw [← happ] at ha
  rcases List.mem_append.1 ha with h | h
  · exact .inl ⟨as, has, h⟩
  · exact .inr ⟨bs, hbs, h⟩

end Traced

namespace Registry

/-- What resolving gives wraps the handle that was resolved. -/
theorem handle_of_resolve {r : Registry} {h : Handle} {i : Item}
    (hi : (r.resolve h).outcome = .ok i) : i.handle = h := by
  unfold resolve at hi
  split at hi
  · simp [Traced.after, Traced.error, Traced.failed] at hi
  · split at hi
    · simp [Traced.error, Traced.failed] at hi
    · split at hi
      · simp only [Traced.after, Traced.ok, Except.ok.injEq] at hi
        rw [← hi]
      · simp [Traced.after, Traced.failed] at hi

theorem handle_of_resolveAs {r : Registry} {c : Class} {h : Handle} {i : Item}
    (hi : (r.resolveAs c h).outcome = .ok i) : i.handle = h := by
  simp only [resolveAs, Traced.bind_eq] at hi
  obtain ⟨j, hj, hij⟩ := Traced.andThen_outcome_eq_ok.1 hi
  split at hij
  · have : j = i := by simpa [Traced.ok] using hij
    rw [← this]
    exact handle_of_resolve hj
  · simp [Traced.error, Traced.failed] at hij

end Registry

namespace Item

theorem mem_answers_of_fill {i j : Item} {c : Class} {p : Position} (h : (i.fill c p).Yields j) :
    j.handle ∈ i.handle.answers p.accessor := by
  unfold fill at h
  split at h
  · obtain ⟨_, hs, _⟩ := h
    simp [Traced.error, Traced.failed] at hs
  · obtain ⟨k, hk, hj⟩ := Traced.mapM_yields h
    rw [Registry.handle_of_resolveAs hj]
    exact hk

theorem mem_answers_of_fillAll {i j : Item} {c : Class} {ps : List Position}
    (h : (i.fillAll c ps).Yields j) : ∃ p ∈ ps, j.handle ∈ i.handle.answers p.accessor := by
  induction ps with
  | nil =>
    obtain ⟨js, hs, hj⟩ := h
    have : js = [] := by simpa [fillAll, Traced.ok] using hs.symm
    simp [this] at hj
  | cons p ps ih =>
    rcases Traced.append_yields h with h | h
    · exact ⟨p, List.mem_cons_self, mem_answers_of_fill h⟩
    · obtain ⟨q, hq, hj⟩ := ih h
      exact ⟨q, List.mem_cons_of_mem p hq, hj⟩

/-- A child wraps a smaller handle than its parent. -/
theorem size_lt_of_parts {i j : Item} {c : Class} (h : (i.parts c).Yields j) :
    j.handle.size < i.handle.size := by
  obtain ⟨p, _, hj⟩ := mem_answers_of_fillAll h
  exact Handle.size_lt_of_mem_answers hj

theorem size_lt_of_children {i j : Item} (h : i.children.Yields j) :
    j.handle.size < i.handle.size := by
  rcases Traced.append_yields h with h | h
  · exact size_lt_of_parts h
  · exact size_lt_of_parts h

end Item

/-- A handle without any dispatch context. -/
structure BareItem where
  handle : Handle

namespace BareItem

/-- Name of what has no kind. -/
def kindName : String := "AbstractCItem"

/-- Tag of what has no kind. -/
def kindTag : Tag := .absent

/-- A bare item as text. -/
def text (b : BareItem) : String := bareItemText b.handle.ea

/-- A bare item cannot resolve anything. -/
def createChild (_ : BareItem) (_ : Handle) : Except Error Item :=
  .error (.notImplemented "create_child" kindName)

end BareItem

end Pseudocode
