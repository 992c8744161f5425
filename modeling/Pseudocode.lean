import Pseudocode.Item.Typed
import Pseudocode.Kind.Extension
import Pseudocode.Proofs.Access
import Pseudocode.Proofs.Bisimulation
import Pseudocode.Proofs.Decimal.ReadBack
import Pseudocode.Proofs.Defect
import Pseudocode.Proofs.Frame
import Pseudocode.Proofs.Json.Records
import Pseudocode.Proofs.Json.Styles
import Pseudocode.Proofs.Json.Tokens
import Pseudocode.Proofs.Json.Values
import Pseudocode.Proofs.Log
import Pseudocode.Proofs.Place
import Pseudocode.Proofs.Preorder
import Pseudocode.Proofs.Registry.Builtin
import Pseudocode.Proofs.Registry.Rebuild
import Pseudocode.Proofs.Registry.Simulation
import Pseudocode.Proofs.Registry.Standard
import Pseudocode.Proofs.Rendering
import Pseudocode.Proofs.Rendering.Delimited
import Pseudocode.Proofs.Rendering.Identify
import Pseudocode.Proofs.Resolve
import Pseudocode.Proofs.Tree.Accessors
import Pseudocode.Proofs.Tree.Equality
import Pseudocode.Proofs.Tree.Format
import Pseudocode.Proofs.Tree.Restore
import Pseudocode.Proofs.Tree.Snapshot
import Pseudocode.Proofs.Tree.Styles
import Pseudocode.Proofs.Tree.Subtree
import Pseudocode.Proofs.Tree.WellBuilt
import Pseudocode.Proofs.Typed
import Pseudocode.Proofs.View
import Pseudocode.Proofs.Visible
import Pseudocode.Proofs.Walk.Distinct
import Pseudocode.Proofs.Walk.Interval
import Pseudocode.Proofs.Walk.Plan
import Pseudocode.Proofs.Walk.Search
import Pseudocode.Proofs.Walk.Turns
import Pseudocode.Routine
import Pseudocode.Tree.Dump
import Pseudocode.Tree.Sample
import Pseudocode.Tree.Snapshot
