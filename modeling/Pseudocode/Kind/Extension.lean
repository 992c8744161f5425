import Pseudocode.Kind.Standard

/-!
# Kinds beyond the standard ones

Two kinds that specialise standard ones.  `Kind.intrinsic` takes over helper names and shows
whether a helper is a rotation.  `Kind.sealedBlock` wraps blocks without looking into them: it has no
children, shows nothing, and cannot resolve further handles.
-/

namespace Pseudocode

namespace Kind

/-- Whether a helper name is that of a rotation. -/
def isRotation (name : String) : Bool := name.startsWith "__RO"

/-- Compiler intrinsics, in place of helper names. -/
def intrinsic : Kind where
  name := "Intrinsic"
  tag := (NodeType.expr .helper).tag
  shape := .expression []
  summary h := some ("rotation=" ++ toString (h.data.name.any isRotation))
  listsChildren := false

/-- Blocks that are not looked into. -/
def sealedBlock : Kind where
  name := "Opaque"
  tag := (NodeType.stmt .block).tag
  shape := .statement [] []
  listsChildren := false
  dispatches := false

/-- Every kind of this library: the standard ones, then the others. -/
def catalogue : List Kind := NodeType.all.map standard ++ [intrinsic, sealedBlock]

/-- The kind with a given name. -/
def named? (s : String) : Option Kind := catalogue.find? fun k => k.name == s

end Kind

end Pseudocode
