import Std.Data.HashSet
import SwiftRelations.Data.List
import SwiftRelations.Extraction.Description
import SwiftRelations.Facts.Diagnostic

/-!
# The walk

A run goes through the descriptions of nodes depth first. A node is described at its first visit
and never again, and it counts as visited before its description begins, so that a node which
refers back to one above it ends the walk there. The walk ends because every description begun is
that of a node not described before, and a file has finitely many.

It follows `extract` of `Dispatcher` with its forms for each category, `ExtractionContext` with
`fetch_label`, `mark_dispatched`, `emit` and `report`, and `SwiftVisitor`.
-/

namespace SwiftRelations

/-- The identities of the nodes of a category. -/
def Ast.keysOf (ast : Ast) (category : Category) : List NodeKey :=
  (List.range (ast.count category)).map fun index => ⟨category, index⟩

/-- The identities of all nodes. -/
def Ast.keys (ast : Ast) : List NodeKey := Category.all.flatMap ast.keysOf

/-- The list of keys has exactly the places that hold nodes. -/
theorem Ast.mem_keys {ast : Ast} {key : NodeKey} : key ∈ ast.keys ↔ ast.Holds key := by
  obtain ⟨category, index⟩ := key
  simp only [Ast.keys, Ast.keysOf, Ast.Holds, List.mem_flatMap, List.mem_map, List.mem_range,
    NodeKey.mk.injEq]
  constructor
  · rintro ⟨c, -, i, hi, rfl, rfl⟩
    exact hi
  · intro h
    exact ⟨category, by cases category <;> simp [Category.all], index, h, rfl, rfl⟩

namespace Extraction

/-- A run: the labels given out, the nodes whose description has begun, and what was stated and
reported. -/
structure Run where
  registry : Registry := {}
  dispatched : Std.HashSet NodeKey := {}
  facts : Array (Fact Label) := #[]
  diagnostics : Array Diagnostic := #[]
  deriving Inhabited

/-- The label of a node. A node that has none is written with zero, which no label is. -/
def Run.labelOf (run : Run) (key : NodeKey) : Label := (run.registry.lookup key).getD ⟨0⟩

/-- The run with a fact stated. -/
def Run.emit (run : Run) (fact : Fact NodeKey) : Run :=
  { run with facts := run.facts.push (fact.map run.labelOf) }

/-- The run with a node reported as not modelled. -/
def Run.report (run : Run) (key : NodeKey) (kind : String) (span : Option Span) : Run :=
  let (severity, message) := Diagnostic.classify key.category kind
  { run with
    diagnostics := run.diagnostics.push
      { label := run.labelOf key, category := key.category, kind, message, severity, span } }

/-- The run with a node marked as described. -/
def Run.mark (run : Run) (key : NodeKey) : Run :=
  { run with dispatched := run.dispatched.insert key }

/-- Whether the description of a node has not begun. -/
def Run.isFresh (run : Run) (key : NodeKey) : Bool := !run.dispatched.contains key

/-- How many nodes of a file have not been described. -/
def Run.remaining (run : Run) (ast : Ast) : Nat := ast.keys.countP run.isFresh

/-- Marking a node that was not described leaves fewer to describe. -/
theorem Run.remaining_mark_lt {run : Run} {ast : Ast} {key : NodeKey} (holds : ast.Holds key)
    (fresh : run.isFresh key = true) : (run.mark key).remaining ast < run.remaining ast := by
  apply List.countP_lt_countP (a := key) _ (Ast.mem_keys.2 holds) _ fresh
  · intro x _ h
    simp only [Run.isFresh, Run.mark, Bool.not_eq_true', Std.HashSet.contains_insert,
      Bool.or_eq_false_iff] at *
    exact h.2
  · simp [Run.isFresh, Run.mark]

/-- Going through a list of steps. -/
def walk (ast : Ast) (options : ExtractionOptions) (run : Run) :
    List Step → Except Collision Run
  | [] => .ok run
  | .emit fact :: rest => walk ast options (run.emit fact) rest
  | .report key kind span :: rest => walk ast options (run.report key kind span) rest
  | .refer decl :: rest =>
    match run.registry.lookup (Node.decl decl).key with
    | some _ => walk ast options run rest
    | none => visit run (.decl decl) rest
  | .visit node :: rest => visit run node rest
termination_by steps => (run.remaining ast, steps.length, 0)
where
  /-- Visiting a node and going on with the steps after it. -/
  visit (run : Run) (node : Node) (rest : List Step) : Except Collision Run :=
    match run.registry.fetch node.key with
    | .error collision => .error collision
    | .ok (_, registry) =>
      let labelled : Run := { run with registry }
      if h : ast.Holds node.key ∧ run.isFresh node.key = true then
        have : (labelled.mark node.key).remaining ast < run.remaining ast :=
          @Run.remaining_mark_lt run ast node.key h.1 h.2
        walk ast options (labelled.mark node.key) (describe ast options node ++ rest)
      else walk ast options labelled rest
  termination_by (run.remaining ast, rest.length, 1)

end Extraction

end SwiftRelations
