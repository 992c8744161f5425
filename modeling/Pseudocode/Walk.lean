import Pseudocode.Item

/-!
# Walking a tree

A walk visits the items of a tree in pre-order.  It keeps the items that are still to be visited on
a stack of its own, so that the depth of a tree costs no more than memory.  A visitor sees each item
with its depth, keeps a state of its own, and decides how the walk goes on.  The children of an item
are resolved only after the visitor has asked for them, all at once, before any of them is visited.

`collect` and `find` are loops of their own.  Collecting resolves the children of an item before it
tests the item; finding tests first, so that an item is found even if its children do not resolve.

All three loops end because each step takes the first item off the stack and puts items over smaller
handles in its place.
-/

namespace Pseudocode

/-! ### Stacks of items that get smaller -/

/-- Items that are still to be visited, the next one first. -/
structure Pending where
  items : List Item

namespace Pending

/-- One step of a traversal: the next item gives way to items over smaller handles. -/
inductive Step : Pending → Pending → Prop
  | expand {i : Item} {js rest : List Item} (h : ∀ j ∈ js, j.handle.size < i.handle.size) :
    Step ⟨js ++ rest⟩ ⟨i :: rest⟩

theorem acc_nil : Acc Step ⟨[]⟩ :=
  Acc.intro _ fun _ h => nomatch h

/-- If a stack is worked off in the end, so is the stack with one more item in front. -/
theorem acc_cons (n : Nat) (i : Item) (hi : i.handle.size < n) {rest : List Item}
    (hrest : Acc Step ⟨rest⟩) : Acc Step ⟨i :: rest⟩ := by
  induction n generalizing i rest with
  | zero => omega
  | succ n ih =>
    refine Acc.intro _ fun s hs => ?_
    cases hs with
    | expand hjs =>
      rename_i js
      induction js with
      | nil => exact hrest
      | cons j js ihjs =>
        have hj := hjs j List.mem_cons_self
        exact ih j (by omega) (ihjs fun k hk => hjs k (List.mem_cons_of_mem j hk))

/-- Every stack is worked off in the end. -/
theorem acc (items : List Item) : Acc Step ⟨items⟩ := by
  induction items with
  | nil => exact acc_nil
  | cons i rest ih => exact acc_cons _ i (Nat.lt_succ_self _) ih

instance : WellFoundedRelation Pending where
  rel := Step
  wf := ⟨fun s => acc s.items⟩

/-- Dropping the next item is a step. -/
theorem step_drop (i : Item) (rest : List Item) : Step ⟨rest⟩ ⟨i :: rest⟩ :=
  @Step.expand i [] rest (by simp)

/-- Putting the children of the next item in its place is a step. -/
theorem step_children {i : Item} {js : List Item} (h : i.children.outcome = .ok js)
    (rest : List Item) : Step ⟨js ++ rest⟩ ⟨i :: rest⟩ :=
  Step.expand fun _ hj => Item.size_lt_of_children ⟨js, h, hj⟩

end Pending

/-! ### Walking -/

/-- How a walk goes on after an item. -/
inductive Control where
  /-- With the children of the item. -/
  | descend
  /-- Without the children of the item. -/
  | skip
  /-- Not at all. -/
  | stop
  deriving DecidableEq, Repr

/-- What is done at each item: the state changes, and the walk goes on or fails. -/
abbrev Visitor (σ : Type u) := σ → Item → Nat → σ × Except Error Control

/-- An item that is to be visited, with its depth. -/
structure Visit where
  item : Item
  depth : Nat

/-- What a walk ends with: the last state of the visitor, the log, and whether it failed. -/
structure Walked (σ : Type u) where
  state : σ
  records : List Record
  outcome : Except Failure Unit

/-- Visits the items on the stack and what is below them.  The log is kept with the last record
first. -/
def walkFrom (visitor : Visitor σ) (log : List Record) (s : σ) (stack : List Visit) : Walked σ :=
  match stack with
  | [] => ⟨s, log.reverse, .ok ()⟩
  | v :: rest =>
    match visitor s v.item v.depth with
    | (s, .error e) => ⟨s, log.reverse, .error (.error e)⟩
    | (s, .ok .stop) => ⟨s, log.reverse, .ok ()⟩
    | (s, .ok .skip) => walkFrom visitor log s rest
    | (s, .ok .descend) =>
      let children := v.item.children
      let log := children.records.reverse ++ log
      match _ : children.outcome with
      | .error f => ⟨s, log.reverse, .error f⟩
      | .ok js => walkFrom visitor log s (js.map (⟨·, v.depth + 1⟩) ++ rest)
termination_by Pending.mk (stack.map Visit.item)
decreasing_by
  · exact Pending.step_drop _ _
  · simpa [Function.comp_def] using Pending.step_children ‹_› (rest.map Visit.item)

/-- Walks the tree below an item. -/
def Item.walk (root : Item) (visitor : Visitor σ) (s : σ) : Walked σ :=
  walkFrom visitor [] s [⟨root, 0⟩]

/-- Number of items of the tree below an item. -/
def Item.count (root : Item) : Traced Nat :=
  let w := root.walk (fun n _ _ => (n + 1, .ok .descend)) 0
  ⟨w.records, w.outcome.map fun _ => w.state⟩

/-! ### Collecting and finding -/

/-- A test of items that may keep a state. -/
abbrev Test (σ : Type u) := σ → Item → σ × Bool

/-- A test that keeps no state. -/
def Test.ofBool (p : Item → Bool) : Test Unit := fun s i => (s, p i)

/-- Collects from the items on the stack and what is below them.  The log and the items already
found are kept with the last one first. -/
def collectFrom (test : Test σ) (log : List Record) (found : List Item) (s : σ)
    (stack : List Item) : Traced (List Item) :=
  match stack with
  | [] => ⟨log.reverse, .ok found.reverse⟩
  | i :: rest =>
    let children := i.children
    let log := children.records.reverse ++ log
    match _ : children.outcome with
    | .error f => ⟨log.reverse, .error f⟩
    | .ok js =>
      match test s i with
      | (s, true) => collectFrom test log (i :: found) s (js ++ rest)
      | (s, false) => collectFrom test log found s (js ++ rest)
termination_by Pending.mk stack
decreasing_by all_goals exact Pending.step_children ‹_› rest

/-- The items of the tree below an item that pass a test, in pre-order. -/
def Item.collect (root : Item) (test : Test σ) (s : σ) : Traced (List Item) :=
  collectFrom test [] [] s [root]

/-- The items of the tree below an item that have one of the given types, in pre-order. -/
def Item.ofTypes (root : Item) (types : List NodeType) : Traced (List Item) :=
  root.collect (Test.ofBool fun i => i.type?.any types.contains) ()

/-- Looks through the items on the stack and what is below them.  The log is kept with the last
record first. -/
def findFrom (test : Test σ) (log : List Record) (s : σ) (stack : List Item) :
    Traced (Option Item) :=
  match stack with
  | [] => ⟨log.reverse, .ok none⟩
  | i :: rest =>
    match test s i with
    | (_, true) => ⟨log.reverse, .ok (some i)⟩
    | (s, false) =>
      let children := i.children
      let log := children.records.reverse ++ log
      match _ : children.outcome with
      | .error f => ⟨log.reverse, .error f⟩
      | .ok js => findFrom test log s (js ++ rest)
termination_by Pending.mk stack
decreasing_by exact Pending.step_children ‹_› rest

/-- The first item of the tree below an item, in pre-order, that passes a test. -/
def Item.find (root : Item) (test : Test σ) (s : σ) : Traced (Option Item) :=
  findFrom test [] s [root]

end Pseudocode
