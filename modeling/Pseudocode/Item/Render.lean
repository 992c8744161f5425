import Pseudocode.Item

/-!
# Rendering items

An item is written on one line with its whole tree.  The children of a class are resolved as a
list before any of them is written.  A list that does not resolve is replaced by the text of its
error, and the rest of the tree is still written.  Nested statements come before the expressions
that a statement owns.
-/

namespace Pseudocode

namespace Item

/-- A list of items in brackets, or the text of the error in its place.  Each item is written by
`f`, which may use that the item comes from the list. -/
def listText (items : Traced (List Item)) (f : (j : Item) → items.Yields j → Traced String) :
    Traced String :=
  match h : items.outcome with
  | .ok js =>
    ((js.attach.mapM fun j => f j.1 ⟨js, h, j.2⟩).andThen fun texts =>
      Traced.ok ("[" ++ ", ".intercalate texts ++ "]")).after items.records
  | .error (.error e) => (Traced.ok ("<" ++ e.message ++ ">")).after items.records
  | .error (.breach name) => (Traced.failed (.breach name)).after items.records

/-- The end of a rendering: the summary, if there is one, and the closing parenthesis. -/
def tailText (i : Item) : String :=
  match i.summary with
  | some s => ", " ++ s ++ ")"
  | none => ")"

/-- An item with its whole tree as text. -/
def render (i : Item) : Traced String :=
  let head := i.kind.name ++ "(ea=" ++ i.ea.text
  if i.kind.listsChildren then
    match i.kind.cls with
    | .expression =>
      (listText (i.parts .expression) fun j _ => j.render).andThen fun ops =>
        Traced.ok (head ++ ", ops=" ++ ops ++ i.tailText)
    | .statement =>
      (listText (i.parts .statement) fun j _ => j.render).andThen fun statements =>
        (listText (i.parts .expression) fun j _ => j.render).andThen fun expressions =>
          Traced.ok (head ++ ", st_childs=" ++ statements ++ ", expr_childs=" ++ expressions
            ++ i.tailText)
  else Traced.ok (head ++ i.tailText)
termination_by i.handle.size
decreasing_by all_goals exact size_lt_of_parts ‹_›

end Item

end Pseudocode
