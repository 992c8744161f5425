import Pseudocode.Kind.Table
import Pseudocode.Traced

/-!
# Registries

A registry maps the tags of the node types to the kinds that wrap them.  It is a table with one
place per node type; a place may be empty.

A registration enters a registry only if its tag is on the list of node types and if it answers for
exactly that tag.  `register` refuses a second kind for a tag, `replace` puts it in place of the
first.  Both return what became of the call and, in either case, the registry after it.  `builtin`
is the registry of the standard kinds in which submitted kinds have taken over the tags they answer
for.
-/

namespace Pseudocode

/-- An entry of a registry.  It stands for one concrete kind: whatever handle it is given, it builds
an item of that kind around the handle.  Neither tag nor class of the kind need be those of the
entry's tag. -/
structure Registration where
  /-- The tag that the entry is for. -/
  tag : Tag
  /-- The name of the entry in messages. -/
  name : String
  /-- The one kind of all items that the entry builds. -/
  builds : Kind
  /-- Whether the entry answers for a tag. -/
  handles : Tag → Bool

namespace Kind

/-- The registration by which a kind enters a registry under its own name and tag. -/
def registration (k : Kind) : Registration := ⟨k.tag, k.name, k, k.handles⟩

end Kind

namespace Registration

/-- Whether an entry answers for its own tag, not for the reserved one, and for exactly one of the
node types. -/
def isConsistent (r : Registration) : Bool :=
  r.handles r.tag && !r.handles .absent
    && (NodeType.all.countP fun t => r.handles t.tag) == 1

/-- The place of an entry in a table.  A tag that is off the list is reported before an entry that
answers for the wrong tags. -/
def place (r : Registration) : Except Error (Fin NodeType.count) :=
  match r.tag.index? with
  | none => .error (.invalidTag r.tag r.name)
  | some i => if r.isConsistent then .ok i else .error (.inconsistentRegistration r.tag r.name)

/-- An entry as dumps show it. -/
def dump (r : Registration) : String :=
  "CItemRegistration \x7b tag: " ++ r.tag.dump ++ ", name: " ++ Text.quoted r.name ++ " \x7d"

end Registration

/-- A table from node types to the entries that wrap them. -/
structure Registry where
  table : Vector (Option Registration) NodeType.count

namespace Registry

/-- The registry without entries. -/
def empty : Registry := ⟨Vector.replicate _ none⟩

/-- The entry for a tag. -/
def lookup (r : Registry) (t : Tag) : Option Registration :=
  match t.index? with
  | some i => r.table[i]
  | none => none

/-- Whether there is an entry for a tag. -/
def handles (r : Registry) (t : Tag) : Bool := (r.lookup t).isSome

/-- The entries in the order of their tags. -/
def registrations (r : Registry) : List Registration := r.table.toList.filterMap id

/-- Number of entries. -/
def length (r : Registry) : Nat := r.registrations.length

/-- Whether there is no entry. -/
def isEmpty (r : Registry) : Bool := r.registrations.isEmpty

/-- The node types without an entry. -/
def missing (r : Registry) : List NodeType := NodeType.all.filter fun t => !r.handles t.tag

/-- The registry with one place of the table overwritten. -/
def put (r : Registry) (i : Fin NodeType.count) (e : Registration) : Registry :=
  ⟨r.table.set i (some e)⟩

/-- Adds an entry for a tag that has none. -/
def register (r : Registry) (e : Registration) : Except Error Unit × Registry :=
  match e.place with
  | .error err => (.error err, r)
  | .ok i =>
    match r.table[i] with
    | some first => (.error (.ambiguousTag e.tag first.name e.name), r)
    | none => (.ok (), r.put i e)

/-- Adds an entry in place of the one that its tag had, which is returned. -/
def replace (r : Registry) (e : Registration) : Except Error (Option Registration) × Registry :=
  match e.place with
  | .error err => (.error err, r)
  | .ok i => (.ok r.table[i], r.put i e)

/-- Adds entries one by one, up to the first that is refused. -/
def registerAll (r : Registry) : List Registration → Except Error Unit × Registry
  | [] => (.ok (), r)
  | e :: es =>
    match r.register e with
    | (.ok (), r') => r'.registerAll es
    | (.error err, r') => (.error err, r')

/-- The registry of a list of entries, if none of them is refused. -/
def ofRegistrations (es : List Registration) : Except Error Registry :=
  match empty.registerAll es with
  | (.ok (), r) => .ok r
  | (.error err, _) => .error err

/-- The entries of the standard kinds, in the order of their tables. -/
def standardEntries : List Registration := Kind.rows.map fun row => row.kind.registration

/-- Puts a submitted entry into a registry and logs whose place it took. -/
def install (r : Registry) (e : Registration) : Traced Registry := do
  let (outcome, r') := r.replace e
  let previous ← Traced.ofExcept outcome
  if let some p := previous then
    Traced.log (.replaced e.name p.name e.tag)
  return r'

/-- The standard kinds with the submitted ones in place of those whose tags they take over. -/
def builtin (submitted : List Registration) : Traced Registry := do
  let standard ← Traced.ofExcept (ofRegistrations standardEntries)
  let others ← Traced.ofExcept (ofRegistrations submitted)
  let r ← others.registrations.foldlM install standard
  Traced.log (.built r.length r.missing.length)
  return r

end Registry

end Pseudocode
