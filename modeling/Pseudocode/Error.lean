import Pseudocode.Address
import Pseudocode.Tag

/-!
# Errors and log records

What can go wrong when kinds are registered and handles are resolved, and what is written to the
log meanwhile.  The wording of both is fixed here and nowhere else.
-/

namespace Pseudocode

/-- A cause of failure. -/
inductive Error where
  /-- No kind is registered for the tag of a node. -/
  | unsupportedTag (tag : Tag)
  /-- An item without dispatch context was asked to dispatch. -/
  | notImplemented (method kind : String)
  /-- Two kinds claim one tag. -/
  | ambiguousTag (tag : Tag) (first second : String)
  /-- A kind claims a tag that is no node type. -/
  | invalidTag (tag : Tag) (name : String)
  /-- A kind does not answer for exactly the tag that it is registered for. -/
  | inconsistentRegistration (tag : Tag) (name : String)
  /-- A node reports another class than its tag denotes. -/
  | classMismatch (tag : Tag) (ea : Address) (isExpr : Bool)
  /-- A node of one class stands where the other is expected. -/
  | unexpectedItem (expected : Class) (tag : Tag) (ea : Address)
  /-- A node lacks something that its kind requires. -/
  | missingField (kind field : String) (ea : Address)
  deriving DecidableEq, Repr

namespace Error

/-- The text of an error. -/
def message : Error → String
  | unsupportedTag tag =>
    "No registered ctree kind handles tag `" ++ tag.text
      ++ "`. The host IR reports a node kind this layer does not support."
  | notImplemented method kind =>
    "`" ++ method ++ "` is not implemented for abstract item `" ++ kind ++ "`."
  | ambiguousTag tag first second =>
    "Tag `" ++ tag.text ++ "` is claimed by both `" ++ first ++ "` and `" ++ second ++ "`."
  | invalidTag tag name =>
    "Kind `" ++ name ++ "` registers tag `" ++ tag.text
      ++ "` which is outside of the ctree tag space."
  | inconsistentRegistration tag name =>
    "Kind `" ++ name ++ "` registered for tag `" ++ tag.text
      ++ "` does not handle exactly that tag."
  | classMismatch tag ea isExpr =>
    "Node at " ++ ea.text ++ " has tag `" ++ tag.text ++ "` but reports is_expr = "
      ++ toString isExpr ++ ", which contradicts the tag class."
  | unexpectedItem expected tag ea =>
    "Expected a ctree " ++ expected.word ++ " at " ++ ea.text ++ ", found tag `" ++ tag.text
      ++ "`."
  | missingField kind field ea =>
    "Node `" ++ kind ++ "` at " ++ ea.text ++ " has no `" ++ field ++ "`."

end Error

/-- Importance of a log record. -/
inductive Level where
  | trace
  | debug
  deriving DecidableEq, Repr

namespace Level

/-- Name of a level in the log. -/
def name : Level → String
  | trace => "TRACE"
  | debug => "DEBUG"

end Level

/-- The text of an item of which nothing but the address is known. -/
def bareItemText (ea : Address) : String := "AbstractCItem(ea=" ++ ea.text ++ ")"

/-- Something that is written to the log. -/
inductive Record where
  /-- A node is resolved by the kind registered under `name`. -/
  | resolving (tag : Tag) (ea : Address) (name : String)
  /-- The node at `ea` has no kind. -/
  | unhandled (ea : Address)
  /-- A submitted kind takes over the tag of a standard one. -/
  | replaced (name previous : String) (tag : Tag)
  /-- A registry is complete. -/
  | built (kinds missing : Nat)
  deriving DecidableEq, Repr

namespace Record

/-- Importance of a record: resolving is routine. -/
def level : Record → Level
  | resolving .. => .trace
  | _ => .debug

/-- The text of a record. -/
def text : Record → String
  | resolving tag ea name => "resolving tag " ++ tag.text ++ " at " ++ ea.text ++ " as " ++ name
  | unhandled ea => "no ctree kind handles " ++ bareItemText ea
  | replaced name previous tag =>
    "ctree kind `" ++ name ++ "` replaces `" ++ previous ++ "` for tag " ++ tag.text
  | built kinds missing =>
    "ctree dispatch registry built with " ++ toString kinds ++ " kinds (" ++ toString missing
      ++ " kinds unsupported)"

end Record

end Pseudocode
