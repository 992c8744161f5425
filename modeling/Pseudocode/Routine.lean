import Pseudocode.Item.Render
import Pseudocode.Tree
import Pseudocode.Walk

/-!
# Functions

A function as the decompiler shows it, with the registry through which its tree is read.  The root
of the tree must be a statement.  Everything that looks at the tree resolves the root anew, and
fails with its error before any visitor or test is called.
-/

namespace Pseudocode

/-- A function and the registry through which its tree is read. -/
structure Routine where
  function : Function Handle
  registry : Registry

namespace Routine

/-- Entry address of a function. -/
def ea (r : Routine) : Address := r.function.ea

/-- Name of a function. -/
def name (r : Routine) : String := r.function.name

/-- A function as text, without its tree. -/
def text (r : Routine) : String := "HxCFunc(name=" ++ r.name ++ ", ea=" ++ r.ea.text ++ ")"

/-- The root statement of a function. -/
def root (r : Routine) : Traced Item := r.registry.resolveAs .statement r.function.body

/-- Walks the tree of a function. -/
def walk (r : Routine) (visitor : Visitor σ) (s : σ) : Walked σ :=
  match r.root.outcome with
  | .ok i =>
    let w := i.walk visitor s
    ⟨w.state, r.root.records ++ w.records, w.outcome⟩
  | .error f => ⟨s, r.root.records, .error f⟩

/-- The items of a function that have one of the given types, in pre-order. -/
def ofTypes (r : Routine) (types : List NodeType) : Traced (List Item) := do
  (← r.root).ofTypes types

/-- The first item of a function that passes a test. -/
def find (r : Routine) (test : Test σ) (s : σ) : Traced (Option Item) := do
  (← r.root).find test s

/-- Number of items of a function. -/
def count (r : Routine) : Traced Nat := do
  (← r.root).count

end Routine

end Pseudocode
