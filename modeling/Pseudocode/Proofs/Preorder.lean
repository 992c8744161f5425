import Pseudocode.Proofs.Resolve
import Pseudocode.Walk

/-!
# The walk as a recursive traversal

`Item.walk` keeps one flat stack on which items of several depths wait.  This file compares it with
the traversal that a reader has in mind: visit an item, then its children one after the other, each
with everything below it.  `Item.preorder` is that recursion.  A part of it ends in one of three
ways, and only the first lets the next part begin: the part was passed, the visitor stopped the
whole traversal, or something failed.

The comparison rests on one equation about the loop.  Working off a stack that starts with an item
is passing through the tree of that item and resuming with the rest of the stack
(`walkFrom_cons`); no other fact about the order on the stack is needed.
-/

namespace Pseudocode

universe u v w

variable {σ : Type u} {α : Type v}

/-! ## Passages -/

/-- How a traversal stands after a part of a tree. -/
inductive Ending where
  /-- The part is done and what follows it comes next. -/
  | passed
  /-- The visitor has ended the whole traversal. -/
  | stopped
  /-- The visitor, or the children of an item, failed. -/
  | failed (cause : Failure)
  deriving DecidableEq, Repr

/-- The result that the ending of a traversal stands for: stopping is no failure. -/
def Ending.result : Ending → Except Failure Unit
  | passed | stopped => .ok ()
  | failed cause => .error cause

/-- What a part of a traversal leaves behind: the calls of the visitor in order, the log, the state
of the visitor, and how the part ended. -/
structure Passage (σ : Type u) where
  calls : List Visit
  records : List Record
  state : σ
  ending : Ending

namespace Passage

/-- The passage through nothing. -/
def idle (s : σ) : Passage σ := ⟨[], [], s, .passed⟩

/-- One part after another.  The second part begins only if the first one was passed. -/
def next (p : Passage σ) (f : σ → Passage σ) : Passage σ :=
  match p.ending with
  | .passed => ⟨p.calls ++ (f p.state).calls, p.records ++ (f p.state).records, (f p.state).state,
      (f p.state).ending⟩
  | _ => p

/-- One part for each element of a list, in the order of the list. -/
def forEach (f : α → σ → Passage σ) : List α → σ → Passage σ
  | [], s => idle s
  | a :: as, s => (f a s).next (forEach f as)

/-- A whole traversal seen as a walk. -/
def walked (p : Passage σ) : Walked σ := ⟨p.state, p.records, p.ending.result⟩

/-- Parts for the images of a list are parts for the list itself. -/
lemma forEach_map {β : Type w} (f : α → σ → Passage σ) (g : β → α) (bs : List β) (s : σ) :
    forEach f (bs.map g) s = forEach (fun b => f (g b)) bs s := by
  induction bs generalizing s with
  | nil => rfl
  | cons b bs ih => rw [List.map_cons, forEach, forEach, funext ih]

/-- The parts of a list may use that their elements come from the list. -/
lemma forEach_attach (f : α → σ → Passage σ) (as : List α) (s : σ) :
    forEach (fun a : { a // a ∈ as } => f a.1) as.attach s = forEach f as s := by
  rw [← forEach_map f Subtype.val, List.attach_map_subtype_val]

end Passage

namespace Item

/-- The recursive traversal in pre-order.  The visitor is called on the item.  If it wants to
descend, all children are resolved, and then the tree of each child is traversed, one level deeper
and in the order of the children. -/
def preorder (visitor : Visitor σ) (i : Item) (depth : Nat) (s : σ) : Passage σ :=
  match visitor s i depth with
  | (s, .error e) => ⟨[⟨i, depth⟩], [], s, .failed (.error e)⟩
  | (s, .ok .stop) => ⟨[⟨i, depth⟩], [], s, .stopped⟩
  | (s, .ok .skip) => ⟨[⟨i, depth⟩], [], s, .passed⟩
  | (s, .ok .descend) =>
    match h : i.children.outcome with
    | .error f => ⟨[⟨i, depth⟩], i.children.records, s, .failed f⟩
    | .ok js =>
      Passage.next ⟨[⟨i, depth⟩], i.children.records, s, .passed⟩
        (Passage.forEach (fun j : { j // j ∈ js } => j.1.preorder visitor (depth + 1)) js.attach)
termination_by i.handle.size
decreasing_by exact size_lt_of_children ⟨js, h, j.2⟩

end Item

/-- What follows the call of a visitor on an item: the log, how the traversal stands, and the
children that it goes on with. -/
structure Opening where
  records : List Record
  ending : Ending
  entered : List Item

namespace Item

/-- What follows the call of a visitor on an item, by what the visitor has decided. -/
def opening (i : Item) : Except Error Control → Opening
  | .error e => ⟨[], .failed (.error e), []⟩
  | .ok .stop => ⟨[], .stopped, []⟩
  | .ok .skip => ⟨[], .passed, []⟩
  | .ok .descend =>
    match i.children.outcome with
    | .error f => ⟨i.children.records, .failed f, []⟩
    | .ok js => ⟨i.children.records, .passed, js⟩

/-- If any children are entered, they are all of them. -/
lemma children_of_entered {i : Item} {decision : Except Error Control}
    (h : (i.opening decision).entered ≠ []) :
    i.children.outcome = .ok (i.opening decision).entered := by
  unfold opening at h ⊢
  split at h
  · exact absurd rfl h
  · exact absurd rfl h
  · exact absurd rfl h
  · split at h
    · exact absurd rfl h
    · next js hjs => simp only [hjs]

/-- Only children are entered. -/
lemma isChild_of_mem_entered {i j : Item} {decision : Except Error Control}
    (h : j ∈ (i.opening decision).entered) : i.IsChild j :=
  ⟨_, children_of_entered (List.ne_nil_of_mem h), h⟩

/-- A traversal is one call, what follows it by the visitor's decision, and the traversals of the
children that are entered. -/
theorem preorder_eq (visitor : Visitor σ) (i : Item) (depth : Nat) (s : σ) :
    i.preorder visitor depth s =
      Passage.next ⟨[⟨i, depth⟩], (i.opening (visitor s i depth).2).records,
          (visitor s i depth).1, (i.opening (visitor s i depth).2).ending⟩
        (Passage.forEach (fun j => j.preorder visitor (depth + 1))
          (i.opening (visitor s i depth).2).entered) := by
  rw [preorder]
  rcases visitor s i depth with ⟨t, e | c⟩
  · rfl
  · cases c with
    | stop => rfl
    | skip => rfl
    | descend =>
      simp only [opening]
      split
      · next f hf =>
        simp only [hf]
        rfl
      · next js hjs =>
        simp only [hjs]
        congr 1
        funext t
        exact Passage.forEach_attach (fun j => j.preorder visitor (depth + 1)) js t

/-- What holds of an item whenever it holds of its children holds of every item. -/
theorem childInduction {motive : Item → Prop}
    (step : ∀ i, (∀ j, i.IsChild j → motive j) → motive i) (i : Item) : motive i := by
  refine step i fun j hj => ?_
  have hlt : j.handle.size < i.handle.size := size_lt_of_children hj
  exact childInduction step j
termination_by i.handle.size

end Item

/-! ## The loop resumes after a passage -/

namespace Passage

/-- Goes on after a passage that the loop has made: with `k` if the part was passed, and otherwise
with the end of the loop.  As in the loop, the log has its last record first. -/
def resume (p : Passage σ) (log : List Record) (k : List Record → σ → Walked σ) : Walked σ :=
  match p.ending with
  | .passed => k (p.records.reverse ++ log) p.state
  | .stopped => ⟨p.state, (p.records.reverse ++ log).reverse, .ok ()⟩
  | .failed f => ⟨p.state, (p.records.reverse ++ log).reverse, .error f⟩

/-- Resuming after two parts is resuming after the second, having resumed after the first. -/
lemma resume_next (p : Passage σ) (f : σ → Passage σ) (log : List Record)
    (k : List Record → σ → Walked σ) :
    (p.next f).resume log k = p.resume log fun log s => (f s).resume log k := by
  obtain ⟨calls, records, s, ending⟩ := p
  cases ending with
  | passed => simp only [next, resume, List.reverse_append, List.append_assoc]
  | stopped => rfl
  | failed cause => rfl

/-- A passage after which there is nothing more to do is the whole walk. -/
lemma resume_end (p : Passage σ) :
    p.resume [] (fun log s => ⟨s, log.reverse, .ok ()⟩) = p.walked := by
  obtain ⟨calls, records, s, ending⟩ := p
  cases ending <;> simp [resume, walked, Ending.result]

end Passage

section Loop

variable {visitor : Visitor σ}

/-- If the loop passes through the tree of every element of a list, it passes through the list. -/
lemma walkFrom_append {js : List Item} {depth : Nat}
    (h : ∀ j ∈ js, ∀ (log : List Record) (s : σ) (rest : List Visit),
      walkFrom visitor log s (⟨j, depth⟩ :: rest) =
        (j.preorder visitor depth s).resume log fun log s => walkFrom visitor log s rest)
    (log : List Record) (s : σ) (rest : List Visit) :
    walkFrom visitor log s (js.map (⟨·, depth⟩) ++ rest) =
      (Passage.forEach (fun j => j.preorder visitor depth) js s).resume log
        fun log s => walkFrom visitor log s rest := by
  induction js generalizing log s with
  | nil => rfl
  | cons j js ih =>
    have hj := h j List.mem_cons_self
    have hjs := ih fun k hk => h k (List.mem_cons_of_mem j hk)
    rw [List.map_cons, List.cons_append, hj, Passage.forEach, Passage.resume_next]
    simp only [hjs]

/-- Working off a stack is passing through the tree of its first item and resuming with the rest. -/
theorem walkFrom_cons (i : Item) (depth : Nat) (log : List Record) (s : σ) (rest : List Visit) :
    walkFrom visitor log s (⟨i, depth⟩ :: rest) =
      (i.preorder visitor depth s).resume log fun log s => walkFrom visitor log s rest := by
  induction i using Item.childInduction generalizing depth log s rest with
  | step i ih =>
    rw [walkFrom, Item.preorder_eq]
    rcases visitor s i depth with ⟨t, e | c⟩
    · rfl
    · cases c with
      | stop => rfl
      | skip => rfl
      | descend =>
        simp only [Item.opening]
        split
        · next f hf =>
          simp only [hf]
          rfl
        · next js hjs =>
          -- The children stand before the rest of the stack, each one level below the item.
          simp only [hjs]
          rw [Passage.resume_next, walkFrom_append fun j hj log s rest =>
            ih j ⟨js, hjs, hj⟩ (depth + 1) log s rest]
          rfl

end Loop

/-- A walk is the recursive traversal from its root. -/
theorem Item.walk_eq_walked (root : Item) (visitor : Visitor σ) (s : σ) :
    root.walk visitor s = (root.preorder visitor 0 s).walked := by
  rw [Item.walk, walkFrom_cons, ← Passage.resume_end]
  congr 1
  funext log s
  rw [walkFrom]

/-! ## The calls of the visitor -/

/-- The visitor that also writes down each of its calls. -/
def Visitor.recording (visitor : Visitor σ) : Visitor (σ × List Visit) :=
  fun s i depth => (((visitor s.1 i depth).1, s.2 ++ [⟨i, depth⟩]), (visitor s.1 i depth).2)

/-- The calls that a walk makes of its visitor, in order. -/
def Item.visits (root : Item) (visitor : Visitor σ) (s : σ) : List Visit :=
  (root.walk visitor.recording (s, [])).state.2

namespace Passage

/-- The passage of a visitor that had written down the calls `seen` before. -/
def recorded (p : Passage σ) (seen : List Visit) : Passage (σ × List Visit) :=
  ⟨p.calls, p.records, (p.state, seen ++ p.calls), p.ending⟩

/-- What is written down in two parts is written down in the order of the parts. -/
lemma recorded_next (p : Passage σ) (f : σ → Passage σ) (seen : List Visit) :
    (p.next f).recorded seen = (p.recorded seen).next fun s => (f s.1).recorded s.2 := by
  obtain ⟨calls, records, s, ending⟩ := p
  cases ending with
  | passed => simp only [next, recorded, List.append_assoc]
  | stopped => rfl
  | failed cause => rfl

/-- If every part writes down its calls, so do all parts together. -/
lemma recorded_forEach {f : α → σ → Passage σ}
    {g : α → σ × List Visit → Passage (σ × List Visit)} {as : List α}
    (h : ∀ a ∈ as, ∀ s, g a s = (f a s.1).recorded s.2) (s : σ × List Visit) :
    forEach g as s = (forEach f as s.1).recorded s.2 := by
  induction as generalizing s with
  | nil => simp [forEach, idle, recorded]
  | cons a as ih =>
    have htail := ih fun b hb => h b (List.mem_cons_of_mem a hb)
    rw [forEach, forEach, recorded_next, h a List.mem_cons_self, funext htail]

end Passage

namespace Item

/-- Writing down the calls changes nothing about a traversal, and it writes down what the traversal
calls. -/
theorem preorder_recording (visitor : Visitor σ) (i : Item) (depth : Nat) (s : σ × List Visit) :
    i.preorder visitor.recording depth s = (i.preorder visitor depth s.1).recorded s.2 := by
  induction i using childInduction generalizing depth s with
  | step i ih =>
    -- The decisions are the same, so the same children are entered.
    rw [preorder_eq, preorder_eq, Passage.recorded_next]
    congr 1
    funext t
    exact Passage.recorded_forEach
      (fun j hj t => ih j (isChild_of_mem_entered hj) (depth + 1) t) t

/-- A walk calls its visitor as the recursive traversal does. -/
theorem visits_eq_calls (root : Item) (visitor : Visitor σ) (s : σ) :
    root.visits visitor s = (root.preorder visitor 0 s).calls := by
  rw [visits, walk_eq_walked, preorder_recording]
  rfl

end Item

/-! ## The state is a fold over the calls -/

/-- What one call does to the state of a visitor. -/
def Visitor.advance (visitor : Visitor σ) (s : σ) (v : Visit) : σ :=
  (visitor s v.item v.depth).1

namespace Passage

/-- The state after two parts is the fold over the calls of both, if this holds of each part. -/
lemma state_next {g : σ → Visit → σ} {p : Passage σ} {f : σ → Passage σ} {s : σ}
    (hp : p.state = p.calls.foldl g s)
    (hf : ∀ s, (f s).state = (f s).calls.foldl g s) :
    (p.next f).state = (p.next f).calls.foldl g s := by
  unfold next
  split
  · rw [List.foldl_append, ← hp]
    exact hf p.state
  · exact hp

/-- The state after all parts is the fold over all their calls, if this holds of each part. -/
lemma state_forEach {g : σ → Visit → σ} {f : α → σ → Passage σ} {as : List α}
    (h : ∀ a ∈ as, ∀ s, (f a s).state = (f a s).calls.foldl g s) (s : σ) :
    (forEach f as s).state = (forEach f as s).calls.foldl g s := by
  induction as generalizing s with
  | nil => rfl
  | cons a as ih =>
    rw [forEach]
    exact state_next (h a List.mem_cons_self s) (ih fun b hb => h b (List.mem_cons_of_mem a hb))

end Passage

/-- The last state of a visitor comes from its calls alone, however the traversal ends. -/
theorem Item.preorder_state (visitor : Visitor σ) (i : Item) (depth : Nat) (s : σ) :
    (i.preorder visitor depth s).state =
      (i.preorder visitor depth s).calls.foldl visitor.advance s := by
  induction i using Item.childInduction generalizing depth s with
  | step i ih =>
    rw [Item.preorder_eq]
    refine Passage.state_next rfl (Passage.state_forEach fun j hj t => ?_)
    exact ih j (Item.isChild_of_mem_entered hj) (depth + 1) t

/-- A visitor that never skips, stops or fails. -/
def Visitor.Descends (visitor : Visitor σ) : Prop :=
  ∀ s i depth, (visitor s i depth).2 = .ok .descend

/-- The visitor that counts its calls. -/
def Visitor.counting : Visitor Nat := fun n _ _ => (n + 1, .ok .descend)

/-- Counting from `n` adds the number of calls. -/
lemma Visitor.foldl_advance_counting (calls : List Visit) (n : Nat) :
    calls.foldl Visitor.counting.advance n = n + calls.length := by
  induction calls generalizing n with
  | nil => rfl
  | cons v calls ih =>
    rw [List.foldl_cons, ih, List.length_cons]
    simp only [Visitor.advance, Visitor.counting]
    omega

/-- The number of items of a tree is the number of calls of a traversal that does not fail. -/
theorem Item.count_outcome (root : Item) :
    root.count.outcome = (root.preorder .counting 0 0).ending.result.map fun _ =>
      (root.preorder .counting 0 0).calls.length := by
  have hcount : root.count.outcome = (root.walk .counting 0).outcome.map fun _ =>
      (root.walk .counting 0).state := rfl
  have hstate := Item.preorder_state .counting root 0 0
  rw [Visitor.foldl_advance_counting, Nat.zero_add] at hstate
  rw [hcount, Item.walk_eq_walked, Passage.walked, hstate]

/-! ## Walks through faithful registries -/

namespace Passage

/-- A property of endings that holds of every part, and of a part that is passed, holds of all
parts together. -/
lemma ending_forEach {P : Ending → Prop} (hP : P .passed) {f : α → σ → Passage σ} {as : List α}
    (h : ∀ a ∈ as, ∀ s, P (f a s).ending) (s : σ) : P (forEach f as s).ending := by
  induction as generalizing s with
  | nil => exact hP
  | cons a as ih =>
    have ha := h a List.mem_cons_self s
    rw [forEach, next]
    split
    · exact ih (fun b hb => h b (List.mem_cons_of_mem a hb)) (f a s).state
    · exact ha

end Passage

/-- Through a faithful registry, nothing that follows a call is a breach. -/
lemma Item.opening_ending_ne_breach {i : Item} (hr : i.registry.Faithful)
    (decision : Except Error Control) (name : String) :
    (i.opening decision).ending ≠ .failed (.breach name) := by
  unfold Item.opening
  split
  · nofun
  · nofun
  · nofun
  · split
    · next f hf =>
      intro h
      cases h
      exact Item.clean_children hr name hf
    · nofun

/-- Through a faithful registry, a traversal never ends in a breach. -/
lemma Item.preorder_ending_ne_breach {i : Item} (hr : i.registry.Faithful) (visitor : Visitor σ)
    (depth : Nat) (s : σ) (name : String) :
    (i.preorder visitor depth s).ending ≠ .failed (.breach name) := by
  induction i using Item.childInduction generalizing depth s with
  | step i ih =>
    rw [Item.preorder_eq, Passage.next]
    split
    · refine Passage.ending_forEach (P := fun ending => ending ≠ .failed (.breach name)) nofun
        (fun j hj t => ?_) _
      have hchild := Item.isChild_of_mem_entered hj
      have hj' : j.registry.Faithful := by rwa [Item.registry_of_children hchild]
      exact ih j hchild hj' (depth + 1) t
    · exact Item.opening_ending_ne_breach hr _ name

/-- **A walk is the recursive pre-order traversal.**  Through a faithful registry, a walk from a
resolved handle calls its visitor on the same items at the same depths and in the same order as the
recursion, leaves it in the same state and with the same log, and has the same result, which is a
success or an error. -/
theorem walk_eq_recursive_preorder {r : Registry} (hr : r.Faithful) {h : Handle} {root : Item}
    (hroot : (r.resolve h).outcome = .ok root) (visitor : Visitor σ) (s : σ) :
    root.visits visitor s = (root.preorder visitor 0 s).calls ∧
      (root.walk visitor s).state = (root.preorder visitor 0 s).state ∧
      (root.walk visitor s).records = (root.preorder visitor 0 s).records ∧
      (root.walk visitor s).outcome = (root.preorder visitor 0 s).ending.result ∧
      ∀ name, (root.walk visitor s).outcome ≠ .error (.breach name) := by
  have hwalk := root.walk_eq_walked visitor s
  have hfaithful : root.registry.Faithful := by
    obtain ⟨e, _, _, _, rfl⟩ := Registry.resolve_eq_ok_iff.1 hroot
    exact hr
  refine ⟨root.visits_eq_calls visitor s, by rw [hwalk]; rfl, by rw [hwalk]; rfl,
    by rw [hwalk]; rfl, fun name hname => ?_⟩
  have hending := Item.preorder_ending_ne_breach hfaithful visitor 0 s name
  rw [hwalk, Passage.walked] at hname
  cases hp : (root.preorder visitor 0 s).ending with
  | passed => simp [hp, Ending.result] at hname
  | stopped => simp [hp, Ending.result] at hname
  | failed cause =>
    rw [hp] at hname hending
    cases hname
    exact hending rfl

/-- A walk through nested blocks whose visitor skips the inside of the second one is a recursive
traversal. -/
theorem walk_eq_recursive_preorder_nested_blocks :
    let block (hs : List Handle) : Handle :=
      { ea := 0, op := (NodeType.stmt .block).tag, block := hs }
    let h := block [block [block []], block []]
    let root : Item := ⟨Kind.standard (.stmt .block), h, Registry.standard⟩
    let visitor : Visitor Nat := fun n _ _ => (n + 1, .ok (if n = 1 then .skip else .descend))
    Registry.standard.Faithful ∧ (Registry.standard.resolve h).outcome = .ok root ∧
      root.visits visitor 0 = (root.preorder visitor 0 0).calls ∧
      (root.walk visitor 0).state = (root.preorder visitor 0 0).state ∧
      (root.walk visitor 0).outcome = (root.preorder visitor 0 0).ending.result := by
  intro block h root visitor
  have hroot : (Registry.standard.resolve h).outcome = .ok root := Registry.resolve_standard rfl rfl
  obtain ⟨hcalls, hstate, _, houtcome, _⟩ :=
    walk_eq_recursive_preorder Registry.standard_faithful hroot visitor 0
  exact ⟨Registry.standard_faithful, hroot, hcalls, hstate, houtcome⟩

end Pseudocode
