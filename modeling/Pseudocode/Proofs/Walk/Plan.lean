import Pseudocode.Proofs.Preorder

/-!
# Walks that follow a plan

A visitor may decide by the item and its depth alone, without a state.  Such a visitor is given by a
plan, and the plan that always descends gives the full walk.  Many visitors follow a plan but keep a
state of their own and may stop on the way: one that counts, one that collects, one that looks for
an item.

What such a visitor sees is known from the walk of its plan.  It is called on the same items at the
same depths until it stops, and if it never stops its walk ends as the walk of the plan does
(`Item.preorder_cuts`).  Nothing about the tree itself is needed for this, since the visitor enters
the same children as long as it goes on.
-/

namespace Pseudocode

universe u v

variable {σ : Type u} {α : Type v}

/-! ## Plans and visitors that follow them -/

namespace Visitor

/-- The visitor without a state that decides by an item and its depth. -/
def ofPlan (plan : Visit → Control) : Visitor Unit := fun s i depth => (s, .ok (plan ⟨i, depth⟩))

/-- The visitor of a full walk: it always descends. -/
def descending : Visitor Unit := ofPlan fun _ => .descend

/-- At each call the visitor either stops or decides as the plan does. -/
def Follows (visitor : Visitor σ) (plan : Visit → Control) : Prop :=
  ∀ s v, (visitor s v.item v.depth).2 = .ok .stop ∨ (visitor s v.item v.depth).2 = .ok (plan v)

/-- Whether the visitor stops at a call. -/
def stopsAt (visitor : Visitor σ) (s : σ) (v : Visit) : Bool :=
  match (visitor s v.item v.depth).2 with
  | .ok .stop => true
  | _ => false

/-- Whether the visitor stops at one of the calls, made one after the other. -/
def stops (visitor : Visitor σ) : σ → List Visit → Bool
  | _, [] => false
  | s, v :: vs => visitor.stopsAt s v || visitor.stops (visitor.advance s v) vs

/-- The calls up to the first one at which the visitor stops, that one included. -/
def cut (visitor : Visitor σ) : σ → List Visit → List Visit
  | _, [] => []
  | s, v :: vs => v :: if visitor.stopsAt s v then [] else visitor.cut (visitor.advance s v) vs

variable {visitor : Visitor σ} {s : σ}

/-- A visitor that has stopped makes no further calls. -/
lemma cut_append_of_stops {vs : List Visit} (h : visitor.stops s vs = true) (ws : List Visit) :
    visitor.cut s (vs ++ ws) = visitor.cut s vs := by
  induction vs generalizing s with
  | nil => cases h
  | cons v vs ih =>
    rw [List.cons_append, cut, cut]
    cases hv : visitor.stopsAt s v with
    | true => rfl
    | false =>
      rw [stops, hv, Bool.false_or] at h
      simp only [Bool.false_eq_true, if_false, ih h]

/-- A visitor that does not stop makes all calls. -/
lemma cut_of_not_stops {vs : List Visit} (h : visitor.stops s vs = false) :
    visitor.cut s vs = vs := by
  induction vs generalizing s with
  | nil => rfl
  | cons v vs ih =>
    rw [stops, Bool.or_eq_false_iff] at h
    rw [cut, h.1, ih h.2]
    rfl

/-- A visitor that does not stop goes on with the calls that follow. -/
lemma cut_append_of_not_stops {vs : List Visit} (h : visitor.stops s vs = false)
    (ws : List Visit) :
    visitor.cut s (vs ++ ws) = vs ++ visitor.cut (vs.foldl visitor.advance s) ws := by
  induction vs generalizing s with
  | nil => rfl
  | cons v vs ih =>
    rw [stops, Bool.or_eq_false_iff] at h
    rw [List.cons_append, cut, h.1, List.cons_append, List.foldl_cons, ← ih h.2]
    rfl

/-- A visitor stops in one of two parts. -/
lemma stops_append (vs ws : List Visit) :
    visitor.stops s (vs ++ ws) =
      (visitor.stops s vs || visitor.stops (vs.foldl visitor.advance s) ws) := by
  induction vs generalizing s with
  | nil => rfl
  | cons v vs ih => rw [List.cons_append, stops, stops, ih, List.foldl_cons, Bool.or_assoc]

/-- A visitor that always descends never stops. -/
lemma Descends.stops_eq_false (h : visitor.Descends) (vs : List Visit) :
    visitor.stops s vs = false := by
  induction vs generalizing s with
  | nil => rfl
  | cons v vs ih => rw [stops, stopsAt, h, ih, Bool.or_self]

end Visitor

/-! ## Traversals that are cut short -/

/-- One passage is what a visitor makes of another: the calls up to the one at which it stops, the
state that they lead to, and the same ending if it does not stop. -/
structure Passage.Cuts (visitor : Visitor σ) (s : σ) (p : Passage Unit) (q : Passage σ) :
    Prop where
  calls : q.calls = visitor.cut s p.calls
  state : q.state = q.calls.foldl visitor.advance s
  ending : q.ending = if visitor.stops s p.calls then .stopped else p.ending

namespace Passage

variable {visitor : Visitor σ} {s : σ}

/-- If each of two parts is cut short by the visitor, so are both together.  The second part matters
only if the visitor does not stop in the first. -/
lemma Cuts.next {p : Passage Unit} {q : Passage σ} {f : Unit → Passage Unit} {g : σ → Passage σ}
    (h : Cuts visitor s p q)
    (hfg : visitor.stops s p.calls = false → ∀ t, Cuts visitor t (f ()) (g t)) :
    Cuts visitor s (p.next f) (q.next g) := by
  cases hstops : visitor.stops s p.calls with
  | true =>
    -- The visitor stops in the first part, so the calls that follow it do not matter.
    have hq : q.ending = .stopped := by rw [h.ending, hstops, if_pos rfl]
    have hnext : q.next g = q := by rw [Passage.next, hq]
    obtain ⟨ws, hws⟩ : ∃ ws, (p.next f).calls = p.calls ++ ws := by
      unfold Passage.next
      split
      · exact ⟨_, rfl⟩
      · exact ⟨[], (List.append_nil _).symm⟩
    rw [hnext]
    refine ⟨?_, h.state, ?_⟩
    · rw [hws, Visitor.cut_append_of_stops hstops, h.calls]
    · rw [hws, Visitor.stops_append, hstops, Bool.true_or, if_pos rfl, hq]
  | false =>
    have hcalls : q.calls = p.calls := h.calls.trans (Visitor.cut_of_not_stops hstops)
    have hending : q.ending = p.ending := by
      rw [h.ending, hstops]
      rfl
    have hstate : q.state = p.calls.foldl visitor.advance s := by rw [h.state, hcalls]
    unfold Passage.next
    rw [hending]
    cases p.ending with
    | passed =>
      have hsecond := hfg hstops q.state
      refine ⟨?_, ?_, ?_⟩
      · rw [Visitor.cut_append_of_not_stops hstops, hcalls, hsecond.calls, hstate]
      · rw [List.foldl_append, ← h.state]
        exact hsecond.state
      · rw [Visitor.stops_append, hstops, Bool.false_or, ← hstate]
        exact hsecond.ending
    | stopped => exact h
    | failed cause => exact h

/-- If each part is cut short by the visitor, so are all parts together. -/
lemma cuts_forEach {f : α → Unit → Passage Unit} {g : α → σ → Passage σ} {as : List α}
    (h : ∀ a ∈ as, ∀ t, Cuts visitor t (f a ()) (g a t)) (t : σ) :
    Cuts visitor t (forEach f as ()) (forEach g as t) := by
  induction as generalizing t with
  | nil => exact ⟨rfl, rfl, rfl⟩
  | cons a as ih =>
    refine (h a List.mem_cons_self t).next fun _ => ?_
    exact ih fun b hb => h b (List.mem_cons_of_mem a hb)

end Passage

namespace Item

variable {visitor : Visitor σ} {plan : Visit → Control}

/-- A visitor that follows a plan makes the traversal of the plan until it stops. -/
theorem preorder_cuts (h : visitor.Follows plan) (i : Item) (depth : Nat) (s : σ) :
    Passage.Cuts visitor s (i.preorder (.ofPlan plan) depth ()) (i.preorder visitor depth s) := by
  induction i using childInduction generalizing depth s with
  | step i ih =>
    rw [preorder_eq, preorder_eq]
    have hstops : visitor.stops s [⟨i, depth⟩] = visitor.stopsAt s ⟨i, depth⟩ := Bool.or_false _
    have hcut : visitor.cut s [⟨i, depth⟩] = [⟨i, depth⟩] := by
      rw [Visitor.cut, Visitor.cut, ite_self]
    rcases h s ⟨i, depth⟩ with hstop | hplan
    · -- The visitor stops at the item itself, whatever the plan does there.
      have hat : visitor.stopsAt s ⟨i, depth⟩ = true := by rw [Visitor.stopsAt, hstop]
      refine Passage.Cuts.next ⟨hcut.symm, rfl, ?_⟩ fun hnot => ?_
      · rw [hstops, hat, hstop, if_pos rfl]
        rfl
      · rw [hstops, hat] at hnot
        cases hnot
    · -- The visitor decides as the plan does, so the same children are entered.
      have hdecided : (Visitor.ofPlan plan () i depth).2 = .ok (plan ⟨i, depth⟩) := rfl
      rw [hplan, hdecided]
      refine Passage.Cuts.next ⟨hcut.symm, rfl, ?_⟩ fun _ t => ?_
      · rw [hstops, Visitor.stopsAt, hplan]
        cases plan ⟨i, depth⟩ <;> rfl
      · exact Passage.cuts_forEach
          (fun j hj t => ih j (isChild_of_mem_entered hj) (depth + 1) t) t

/-- What a walk that follows a plan leaves behind, by the calls that the plan makes. -/
theorem walk_of_follows (h : visitor.Follows plan) (root : Item) (s : σ) :
    root.visits visitor s = visitor.cut s (root.visits (.ofPlan plan) ()) ∧
      (root.walk visitor s).state = (root.visits visitor s).foldl visitor.advance s ∧
      (root.walk visitor s).outcome =
        if visitor.stops s (root.visits (.ofPlan plan) ()) then .ok ()
        else (root.walk (.ofPlan plan) ()).outcome := by
  have hcuts := preorder_cuts h root 0 s
  simp only [visits_eq_calls, walk_eq_walked, Passage.walked]
  refine ⟨hcuts.calls, hcuts.state, ?_⟩
  rw [hcuts.ending]
  split <;> rfl

/-- A visitor that always descends makes the full walk. -/
theorem walk_of_descends (h : visitor.Descends) (root : Item) (s : σ) :
    root.visits visitor s = root.visits .descending () ∧
      (root.walk visitor s).state = (root.visits .descending ()).foldl visitor.advance s ∧
      (root.walk visitor s).outcome = (root.walk .descending ()).outcome := by
  have hfollows : visitor.Follows fun _ => .descend := fun s v => .inr (h s v.item v.depth)
  obtain ⟨hvisits, hstate, houtcome⟩ := walk_of_follows hfollows root s
  rw [Visitor.cut_of_not_stops (h.stops_eq_false _)] at hvisits
  rw [h.stops_eq_false] at houtcome
  exact ⟨hvisits, by rw [hstate, hvisits]; rfl, houtcome⟩

end Item

/-! ## Full walks that succeed -/

namespace Passage

variable {f : α → Unit → Passage Unit} {as : List α}

/-- Parts that are all passed are passed together, and make the calls of each in their order. -/
lemma forEach_of_passed (h : ∀ a ∈ as, (f a ()).ending = .passed) :
    (forEach f as ()).ending = .passed ∧
      (forEach f as ()).calls = as.flatMap fun a => (f a ()).calls := by
  induction as with
  | nil => exact ⟨rfl, rfl⟩
  | cons a as ih =>
    obtain ⟨hending, hcalls⟩ := ih fun b hb => h b (List.mem_cons_of_mem a hb)
    rw [forEach, next, h a List.mem_cons_self, List.flatMap_cons]
    exact ⟨hending, congrArg ((f a ()).calls ++ ·) hcalls⟩

/-- If all parts together are passed, so is each of them. -/
lemma passed_of_forEach (h : (forEach f as ()).ending = .passed) :
    ∀ a ∈ as, (f a ()).ending = .passed := by
  induction as with
  | nil => nofun
  | cons a as ih =>
    rw [forEach, next] at h
    split at h
    · next hpassed => exact List.forall_mem_cons.2 ⟨hpassed, ih h⟩
    · next hnot => exact absurd h hnot

end Passage

namespace Item

/-- Everything below the item resolves. -/
inductive Whole : Item → Prop
  | intro {i : Item} {js : List Item} (hjs : i.children.outcome = .ok js)
      (hall : ∀ j ∈ js, Whole j) : Whole i

/-- What the full traversal of an item at a given depth visits. -/
def entries (i : Item) (depth : Nat) : List Visit := (i.preorder .descending depth ()).calls

/-- A full walk makes the calls of the full traversal at depth zero. -/
lemma visits_descending (i : Item) : i.visits .descending () = i.entries 0 :=
  i.visits_eq_calls .descending ()

variable {i : Item} {js : List Item} {plan : Visit → Control} {depth : Nat}

/-- A plan that skips the children of an item passes it. -/
lemma preorder_ofPlan_of_skip (hplan : plan ⟨i, depth⟩ = .skip) :
    i.preorder (.ofPlan plan) depth () = ⟨[⟨i, depth⟩], [], (), .passed⟩ := by
  have hdecided : (Visitor.ofPlan plan () i depth).2 = .ok .skip := congrArg Except.ok hplan
  rw [preorder_eq, hdecided]
  rfl

/-- A plan that descends at an item goes on with the children, if they resolve. -/
lemma preorder_ofPlan_of_ok (hplan : plan ⟨i, depth⟩ = .descend)
    (hjs : i.children.outcome = .ok js) :
    i.preorder (.ofPlan plan) depth () =
      Passage.next ⟨[⟨i, depth⟩], i.children.records, (), .passed⟩
        (Passage.forEach (fun j => j.preorder (.ofPlan plan) (depth + 1)) js) := by
  have hdecided : (Visitor.ofPlan plan () i depth).2 = .ok .descend := congrArg Except.ok hplan
  rw [preorder_eq, hdecided, opening, hjs]

/-- A plan that descends at an item fails with the children, if they do not resolve. -/
lemma preorder_ofPlan_of_error {f : Failure} (hplan : plan ⟨i, depth⟩ = .descend)
    (hf : i.children.outcome = .error f) :
    i.preorder (.ofPlan plan) depth () = ⟨[⟨i, depth⟩], i.children.records, (), .failed f⟩ := by
  have hdecided : (Visitor.ofPlan plan () i depth).2 = .ok .descend := congrArg Except.ok hplan
  rw [preorder_eq, hdecided, opening, hf]
  rfl

/-- A full traversal is not stopped. -/
lemma preorder_descending_ne_stopped (i : Item) (depth : Nat) :
    (i.preorder .descending depth ()).ending ≠ .stopped := by
  induction i using childInduction generalizing depth with
  | step i ih =>
    rw [Visitor.descending]
    cases hjs : i.children.outcome with
    | error f =>
      rw [preorder_ofPlan_of_error rfl hjs]
      nofun
    | ok js =>
      rw [preorder_ofPlan_of_ok rfl hjs]
      exact Passage.ending_forEach (P := fun ending => ending ≠ .stopped) nofun
        (fun j hj _ => ih j ⟨js, hjs, hj⟩ (depth + 1)) ()

/-- If a full traversal is passed, everything below the item resolves. -/
lemma whole_of_passed (h : (i.preorder .descending depth ()).ending = .passed) : i.Whole := by
  induction i using childInduction generalizing depth with
  | step i ih =>
    rw [Visitor.descending] at h
    cases hjs : i.children.outcome with
    | error f =>
      rw [preorder_ofPlan_of_error rfl hjs] at h
      cases h
    | ok js =>
      rw [preorder_ofPlan_of_ok rfl hjs] at h
      refine .intro hjs fun j hj => ?_
      exact ih j ⟨js, hjs, hj⟩ (Passage.passed_of_forEach h j hj)

/-- If everything below an item resolves, a full traversal of it is passed. -/
lemma Whole.passed (h : i.Whole) (depth : Nat) :
    (i.preorder .descending depth ()).ending = .passed := by
  induction h generalizing depth with
  | intro hjs hall ih =>
    rw [Visitor.descending, preorder_ofPlan_of_ok rfl hjs]
    exact (Passage.forEach_of_passed fun j hj => ih j hj (depth + 1)).1

/-- A full walk succeeds exactly if everything below the item resolves. -/
theorem walk_descending_eq_ok_iff :
    (i.walk .descending ()).outcome = .ok () ↔ i.Whole := by
  rw [walk_eq_walked, Passage.walked]
  constructor
  · intro h
    cases hending : (i.preorder .descending 0 ()).ending with
    | passed => exact whole_of_passed hending
    | stopped => exact absurd hending (preorder_descending_ne_stopped i 0)
    | failed cause =>
      rw [hending] at h
      cases h
  · intro h
    rw [h.passed]
    rfl

/-- A full traversal of an item visits the item and then what is below each child. -/
lemma entries_eq (hjs : i.children.outcome = .ok js) (hall : ∀ j ∈ js, j.Whole) (depth : Nat) :
    i.entries depth = ⟨i, depth⟩ :: js.flatMap fun j => j.entries (depth + 1) := by
  have hcalls := (Passage.forEach_of_passed fun j hj => (hall j hj).passed (depth + 1)).2
  rw [entries, Visitor.descending, preorder_ofPlan_of_ok rfl hjs]
  exact congrArg (_ :: ·) hcalls

end Item

end Pseudocode
