import SwiftRelations.Ast.Node
import Std.Data.HashMap

/-!
# Labels

A label is a number that stands for one node during one run, written `#N`. The registry gives the
labels out from one upwards, one for each node on first sight, and knows the node of each label.

They follow `Label` and `LabelRegistry`, with `fetch`, `lookup`, `owner` and `len`, and the label
collision of `ExtractError`.
-/

namespace SwiftRelations

/-- The number that stands for a node. -/
structure Label where
  number : Nat
  deriving DecidableEq, Hashable, Repr, Inhabited

/-- The written form of a label. -/
def Label.text (label : Label) : String := "#" ++ toString label.number

/-- The labels given out so far. -/
structure Registry where
  labels : Std.HashMap NodeKey Label := {}
  owners : Std.HashMap Label NodeKey := {}
  /-- The number of the next label. -/
  next : Nat := 1
  deriving Inhabited

/-- A label that was to be given to a node although it belongs to another one. -/
structure Collision where
  label : Label
  existing : NodeKey
  new : NodeKey
  deriving DecidableEq, Repr, Inhabited

/-- The report of a collision. -/
def Collision.message (c : Collision) : String :=
  "identity collision: label " ++ c.label.text ++ " is bound to " ++ c.existing.text ++
    " but was assigned to " ++ c.new.text

namespace Registry

/-- The label of a node, if it has one. -/
def lookup (registry : Registry) (key : NodeKey) : Option Label := registry.labels[key]?

/-- The node of a label, if it was given out. -/
def owner (registry : Registry) (label : Label) : Option NodeKey := registry.owners[label]?

/-- The number of labels given out. -/
def size (registry : Registry) : Nat := registry.labels.size

/-- The label of a node, which is the next one if the node has none yet. -/
def fetch (registry : Registry) (key : NodeKey) : Except Collision (Label × Registry) :=
  match registry.lookup key with
  | some label => .ok (label, registry)
  | none =>
    let label : Label := ⟨registry.next⟩
    match registry.owner label with
    | some existing => .error { label, existing, new := key }
    | none =>
      .ok (label,
        { labels := registry.labels.insert key label
          owners := registry.owners.insert label key
          next := registry.next + 1 })

end Registry

end SwiftRelations
