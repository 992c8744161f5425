import Pseudocode.Proofs.Walk.Search

/-!
# The loops, turn by turn

Walking, collecting and finding are loops over a stack.  This file says what one turn of each loop
does, and what it is for a loop to run: turn follows turn until one of them gives the result, and
each turn takes one entry off the stack.  A run is finite by definition, so to run is to end.

That the walk runs, and that its turns take the visited items off the stack, is an induction along
the loop (`runs_walkFrom`).  Collecting and finding are not looked at a second time: one turn of
theirs is one turn of the walk of a particular visitor, and what holds of a turn holds of a run
(`Loop.Runs.map`).
-/

namespace Pseudocode

universe u v w u' v' w'

/-! ## Loops and runs -/

/-- A loop over a stack: what one turn makes of a state, which is another state or the result, and
the entry of the stack that the turn takes. -/
structure Loop (S : Type u) (R : Type v) (α : Type w) where
  turn : S → S ⊕ R
  top? : S → Option α

namespace Loop

variable {S : Type u} {S' : Type u'} {R : Type v} {R' : Type v'} {α : Type w} {β : Type w'}

/-- From a state, the loop takes entries off the stack, one in each turn, and ends with a result. -/
inductive Runs (l : Loop S R α) : S → List α → R → Prop
  | last {s : S} {r : R} (h : l.turn s = .inr r) : Runs l s (l.top? s).toList r
  | next {s s' : S} {taken : List α} {r : R} (h : l.turn s = .inl s') (rest : Runs l s' taken r) :
    Runs l s ((l.top? s).toList ++ taken) r

/-- If each turn of a loop is a turn of another, as long as an invariant holds that the turns keep,
then a run of the one is a run of the other. -/
theorem Runs.map {l : Loop S R α} {l' : Loop S' R' β} {f : S → S'} {g : R → R'} {e : α → β}
    {I : S → Prop} (hkeep : ∀ s s', I s → l.turn s = .inl s' → I s')
    (hturn : ∀ s, I s → l'.turn (f s) = (l.turn s).map f g)
    (htop : ∀ s, l'.top? (f s) = (l.top? s).map e) {s : S} (hs : I s) {taken : List α} {r : R}
    (h : l.Runs s taken r) : l'.Runs (f s) (taken.map e) (g r) := by
  have htops : ∀ s, ((l.top? s).toList).map e = (l'.top? (f s)).toList := by
    intro s
    rw [htop, Option.toList_map]
  induction h with
  | last hr =>
    rw [htops]
    apply Runs.last
    rw [hturn _ hs, hr]
    rfl
  | next hnext _ ih =>
    rw [List.map_append, htops]
    refine .next ?_ (ih (hkeep _ _ hs hnext))
    rw [hturn _ hs, hnext]
    rfl

end Loop

/-! ## The three loops -/

section Loops

variable {σ : Type u}

/-- Where a walk stands: its log with the last record first, the state of the visitor, and the
stack. -/
structure Walking (σ : Type u) where
  log : List Record
  state : σ
  stack : List Visit

/-- Where collecting stands: as a walk does, with the items already found, the last one first. -/
structure Collecting (σ : Type u) where
  log : List Record
  found : List Item
  state : σ
  stack : List Item

/-- Where finding stands. -/
structure Finding (σ : Type u) where
  log : List Record
  state : σ
  stack : List Item

/-- The loop of a walk. -/
def walkLoop (visitor : Visitor σ) : Loop (Walking σ) (Walked σ) Visit where
  top? w := w.stack.head?
  turn w :=
    match w.stack with
    | [] => .inr ⟨w.state, w.log.reverse, .ok ()⟩
    | v :: rest =>
      match visitor w.state v.item v.depth with
      | (s, .error e) => .inr ⟨s, w.log.reverse, .error (.error e)⟩
      | (s, .ok .stop) => .inr ⟨s, w.log.reverse, .ok ()⟩
      | (s, .ok .skip) => .inl ⟨w.log, s, rest⟩
      | (s, .ok .descend) =>
        let log := v.item.children.records.reverse ++ w.log
        match v.item.children.outcome with
        | .error f => .inr ⟨s, log.reverse, .error f⟩
        | .ok js => .inl ⟨log, s, js.map (⟨·, v.depth + 1⟩) ++ rest⟩

/-- The loop of collecting. -/
def collectLoop (test : Test σ) : Loop (Collecting σ) (Traced (List Item)) Item where
  top? c := c.stack.head?
  turn c :=
    match c.stack with
    | [] => .inr ⟨c.log.reverse, .ok c.found.reverse⟩
    | i :: rest =>
      let log := i.children.records.reverse ++ c.log
      match i.children.outcome with
      | .error f => .inr ⟨log.reverse, .error f⟩
      | .ok js =>
        let found := if (test c.state i).2 then i :: c.found else c.found
        .inl ⟨log, found, (test c.state i).1, js ++ rest⟩

/-- The loop of finding. -/
def findLoop (test : Test σ) : Loop (Finding σ) (Traced (Option Item)) Item where
  top? c := c.stack.head?
  turn c :=
    match c.stack with
    | [] => .inr ⟨c.log.reverse, .ok none⟩
    | i :: rest =>
      if (test c.state i).2 then .inr ⟨c.log.reverse, .ok (some i)⟩
      else
        let log := i.children.records.reverse ++ c.log
        match i.children.outcome with
        | .error f => .inr ⟨log.reverse, .error f⟩
        | .ok js => .inl ⟨log, (test c.state i).1, js ++ rest⟩

/-! ## They run -/

/-- A walk from a stack runs.  Its turns take off the stack what the visitor is called on, as the
visitor which writes down its calls tells. -/
theorem runs_walkFrom (visitor : Visitor σ) (log : List Record) (s : σ) (stack : List Visit) :
    ∃ taken, (walkLoop visitor).Runs ⟨log, s, stack⟩ taken (walkFrom visitor log s stack) ∧
      ∀ before, (walkFrom visitor.recording log (s, before) stack).state.2 = before ++ taken := by
  fun_induction walkFrom visitor log s stack with
  | case1 log s =>
    refine ⟨[], .last rfl, fun before => ?_⟩
    rw [walkFrom, List.append_nil]
  | case2 log s v rest s' e hvisit =>
    refine ⟨[v], .last (by simp [walkLoop, hvisit]), fun before => ?_⟩
    rw [walkFrom]
    simp [Visitor.recording, hvisit]
  | case3 log s v rest s' hvisit =>
    refine ⟨[v], .last (by simp [walkLoop, hvisit]), fun before => ?_⟩
    rw [walkFrom]
    simp [Visitor.recording, hvisit]
  | case4 log s v rest s' hvisit ih =>
    obtain ⟨taken, hruns, hcalls⟩ := ih
    refine ⟨v :: taken, .next (by simp [walkLoop, hvisit]) hruns, fun before => ?_⟩
    rw [walkFrom]
    simp [Visitor.recording, hvisit, hcalls]
  | case5 log s v rest s' hvisit =>
    rename_i f hf
    have hf : v.item.children.outcome = .error f := hf
    have hturn : (walkLoop visitor).turn ⟨log, s, v :: rest⟩ =
        .inr ⟨s', (v.item.children.records.reverse ++ log).reverse, .error f⟩ := by
      simp [walkLoop, hvisit, hf]
    refine ⟨[v], .last hturn, fun before => ?_⟩
    have hrecorded : visitor.recording (s, before) v.item v.depth =
        ((s', before ++ [v]), .ok .descend) := by
      rw [Visitor.recording, hvisit]
    rw [walkFrom_of_error hrecorded hf]
  | case6 log s v rest s' hvisit =>
    rename_i js hjs ih
    have hjs : v.item.children.outcome = .ok js := hjs
    obtain ⟨taken, hruns, hcalls⟩ := ih
    have hturn : (walkLoop visitor).turn ⟨log, s, v :: rest⟩ =
        .inl ⟨v.item.children.records.reverse ++ log, s',
          js.map (⟨·, v.depth + 1⟩) ++ rest⟩ := by
      simp [walkLoop, hvisit, hjs]
    refine ⟨v :: taken, .next hturn hruns, fun before => ?_⟩
    have hrecorded : visitor.recording (s, before) v.item v.depth =
        ((s', before ++ [v]), .ok .descend) := by
      rw [Visitor.recording, hvisit]
    rw [walkFrom_of_ok hrecorded hjs, hcalls, List.append_assoc]
    rfl

/-- A walk runs, and its turns take off the stack what it visits. -/
theorem runs_walk (root : Item) (visitor : Visitor σ) (s : σ) :
    (walkLoop visitor).Runs ⟨[], s, [⟨root, 0⟩]⟩ (root.visits visitor s) (root.walk visitor s) := by
  obtain ⟨taken, hruns, hcalls⟩ := runs_walkFrom visitor [] s [⟨root, 0⟩]
  have hvisits : root.visits visitor s = taken := hcalls []
  rw [hvisits]
  exact hruns

/-- Collecting runs, and its turns take off the stack what the walk of the collecting visitor
visits. -/
theorem runs_collect (root : Item) (test : Test σ) (s : σ) :
    (collectLoop test).Runs ⟨[], [], s, [root]⟩
      ((root.visits test.collecting (s, [])).map Visit.item) (root.collect test s) := by
  let standing (w : Walking (σ × List Item)) : Collecting σ :=
    ⟨w.log, w.state.2, w.state.1, w.stack.map Visit.item⟩
  have hresult : root.collect test s =
      (root.walk test.collecting (s, [])).gives fun s => s.2.reverse :=
    collectFrom_eq_gives test [] (s, []) [⟨root, 0⟩]
  have htop : ∀ w, (collectLoop test).top? (standing w) =
      ((walkLoop test.collecting).top? w).map Visit.item := fun _ => List.head?_map
  rw [hresult]
  refine Loop.Runs.map (f := standing) (g := fun w => w.gives fun s => s.2.reverse)
    (I := fun _ => True) (fun _ _ _ _ => trivial) ?_ htop trivial
    (runs_walk root test.collecting (s, []))
  rintro ⟨log, ⟨s, found⟩, stack⟩ -
  rcases stack with - | ⟨v, rest⟩
  · rfl
  · rcases hjs : v.item.children.outcome with f | js
    · simp [standing, collectLoop, walkLoop, Test.collecting, hjs, Walked.gives, Except.map]
    · simp [standing, collectLoop, walkLoop, Test.collecting, hjs, Function.comp_def]

/-- Finding runs, and its turns take off the stack what the walk of the finding visitor visits. -/
theorem runs_find (root : Item) (test : Test σ) (s : σ) :
    (findLoop test).Runs ⟨[], s, [root]⟩ ((root.visits test.finding (s, none)).map Visit.item)
      (root.find test s) := by
  let standing (w : Walking (σ × Option Item)) : Finding σ :=
    ⟨w.log, w.state.1, w.stack.map Visit.item⟩
  have hresult : root.find test s = (root.walk test.finding (s, none)).gives Prod.snd :=
    findFrom_eq_gives test [] s [⟨root, 0⟩]
  have htop : ∀ w, (findLoop test).top? (standing w) =
      ((walkLoop test.finding).top? w).map Visit.item := fun _ => List.head?_map
  rw [hresult]
  -- As long as the loop goes on, nothing has been found.
  refine Loop.Runs.map (f := standing) (g := fun w => w.gives Prod.snd)
    (I := fun w => w.state.2 = none) ?_ ?_ htop rfl
    (runs_walk root test.finding (s, none))
  · rintro ⟨log, ⟨s, o⟩, stack⟩ w rfl hturn
    rcases stack with - | ⟨v, rest⟩
    · cases hturn
    · rcases htest : (test s v.item).2 with - | -
      · rcases hjs : v.item.children.outcome with f | js
        · simp [walkLoop, Test.finding, htest, hjs] at hturn
        · simp only [walkLoop, Test.finding, htest, hjs] at hturn
          cases hturn
          rfl
      · simp [walkLoop, Test.finding, htest] at hturn
  · rintro ⟨log, ⟨s, o⟩, stack⟩ rfl
    rcases stack with - | ⟨v, rest⟩
    · rfl
    · rcases htest : (test s v.item).2 with - | -
      · rcases hjs : v.item.children.outcome with f | js
        · simp [standing, findLoop, walkLoop, Test.finding, htest, hjs, Walked.gives, Except.map]
        · simp [standing, findLoop, walkLoop, Test.finding, htest, hjs, Function.comp_def]
      · simp [standing, findLoop, walkLoop, Test.finding, htest, Walked.gives, Except.map]

end Loops

end Pseudocode
