import Pseudocode.Proofs.Bisimulation
import Pseudocode.Proofs.Walk.Plan
import Pseudocode.Routine

/-!
# Searches are walks

Collecting, finding and counting are loops of their own, each with its own order of testing an item
and resolving its children.  This file shows that each is the walk of a particular visitor:
collecting is a walk that keeps what passes the test and always descends (`collectFrom_eq_gives`),
finding is a walk that stops at the first item which passes (`findFrom_eq_gives`).  Both visitors
follow the plan of the full walk, so their results are read off the items which the full walk
visits and the way in which it ends.

The order of the steps shows only if something fails.  An item is found even if its own children, or
anything later, do not resolve; nothing is collected if anything fails.
-/

namespace Pseudocode

universe u v

variable {σ : Type u} {α : Type v}

/-! ## Tests over a list of items -/

namespace Test

/-- The visitor that keeps the items which pass the test, the last one first. -/
def collecting (test : Test σ) : Visitor (σ × List Item) := fun s i _ =>
  (((test s.1 i).1, if (test s.1 i).2 then i :: s.2 else s.2), .ok .descend)

/-- The visitor that stops at an item which passes the test, and remembers it. -/
def finding (test : Test σ) : Visitor (σ × Option Item) := fun s i _ =>
  if (test s.1 i).2 then (((test s.1 i).1, some i), .ok .stop)
  else (((test s.1 i).1, s.2), .ok .descend)

end Test

/-! ## The loops -/

/-- The result that is read off the last state of a walk. -/
def Walked.gives (w : Walked σ) (f : σ → α) : Traced α :=
  ⟨w.records, w.outcome.map fun _ => f w.state⟩

/-- The items on a stack whose first item has given way to its children. -/
lemma map_item_append (js : List Item) (depth : Nat) (rest : List Visit) :
    (js.map (Visit.mk · depth) ++ rest).map Visit.item = js ++ rest.map Visit.item := by
  simp [Function.comp_def]

/-- Collecting from a stack is walking it with the collecting visitor. -/
theorem collectFrom_eq_gives (test : Test σ) (log : List Record) (s : σ × List Item)
    (stack : List Visit) :
    collectFrom test log s.2 s.1 (stack.map Visit.item) =
      (walkFrom test.collecting log s stack).gives fun s => s.2.reverse := by
  fun_induction walkFrom test.collecting log s stack with
  | case1 log s =>
    rw [List.map_nil, collectFrom]
    rfl
  | case2 log s v rest s' e hvisit => cases hvisit
  | case3 log s v rest s' hvisit => cases hvisit
  | case4 log s v rest s' hvisit ih => cases hvisit
  | case5 log s v rest s' hvisit =>
    rename_i f hf
    rw [List.map_cons, collectFrom_of_error hf]
    rfl
  | case6 log s v rest s' hvisit =>
    rename_i js hjs ih
    cases hvisit
    rw [List.map_cons, collectFrom_of_ok hjs rfl, ← ih, map_item_append]

/-- Looking through a stack is walking it with the finding visitor. -/
theorem findFrom_eq_gives (test : Test σ) (log : List Record) (s : σ) (stack : List Visit) :
    findFrom test log s (stack.map Visit.item) =
      (walkFrom test.finding log (s, none) stack).gives Prod.snd := by
  generalize hitems : stack.map Visit.item = items
  revert stack
  fun_induction findFrom test log s items with
  | case1 log s =>
    intro stack hitems
    rw [List.map_eq_nil_iff.1 hitems, walkFrom]
    rfl
  | case2 log s i rest s' htest =>
    intro stack hitems
    obtain ⟨v, stack, rfl, rfl, rfl⟩ := List.map_eq_cons_iff.1 hitems
    have hstop : test.finding (s, none) v.item v.depth = ((s', some v.item), .ok .stop) := by
      simp [Test.finding, htest]
    rw [walkFrom, hstop]
    rfl
  | case3 log s i rest s' htest =>
    rename_i f hf
    intro stack hitems
    obtain ⟨v, stack, rfl, rfl, rfl⟩ := List.map_eq_cons_iff.1 hitems
    have hgo : test.finding (s, none) v.item v.depth = ((s', none), .ok .descend) := by
      simp [Test.finding, htest]
    rw [walkFrom_of_error hgo hf]
    rfl
  | case4 log s i rest s' htest =>
    rename_i js hjs ih
    intro stack hitems
    obtain ⟨v, stack, rfl, rfl, rfl⟩ := List.map_eq_cons_iff.1 hitems
    have hgo : test.finding (s, none) v.item v.depth = ((s', none), .ok .descend) := by
      simp [Test.finding, htest]
    rw [walkFrom_of_ok hgo hjs]
    exact ih _ (map_item_append js (v.depth + 1) stack)

/-! ## What the searches find -/

namespace Item

variable (root : Item)

/-- The items that a full walk visits, in order. -/
def visited : List Item := (root.visits .descending ()).map Visit.item

/-- Counting gives the number of items that a full walk visits, unless the full walk fails. -/
theorem count_outcome_eq_length :
    root.count.outcome =
      (root.walk .descending ()).outcome.map fun _ => root.visited.length := by
  have hdescends : Visitor.counting.Descends := fun _ _ _ => rfl
  obtain ⟨_, hstate, houtcome⟩ := walk_of_descends hdescends root 0
  rw [Visitor.foldl_advance_counting, Nat.zero_add] at hstate
  have hcount : root.count = (root.walk .counting 0).gives id := rfl
  rw [hcount, Walked.gives, houtcome, hstate, visited, List.length_map]
  rfl

end Item

/-! ## The searches of an item and of a function -/

namespace Routine

variable {f : Routine}

end Routine

end Pseudocode
