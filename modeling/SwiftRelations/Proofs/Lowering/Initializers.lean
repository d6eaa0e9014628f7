import SwiftRelations.Proofs.Lowering.Forward
import SwiftRelations.Proofs.Lowering.Structure

/-!
# What an initializer sees

An initializer is lowered before the pattern that it initializes, so that lexical lookup finds
nothing in it that the pattern introduces. The final pass knows nothing of initializers: it resolves
a name that nothing was found for to whatever the scope of the file binds it to, and that may be the
very variable that is initialized.
-/

namespace SwiftRelations

open Lowering

variable {s : State} {entry : Ast.Entry} {key : NodeKey} {binding : PatternId × ExprId}
  {id : ExprId} {expr : Expr} {name : String} {d : DeclId}

/-- The final pass changes no entry that initializes a pattern. -/
theorem Lowering.State.entryAt?_of_binding (he : s.finish.entryAt? key = some entry)
    (hb : binding ∈ entry.bindings) : s.ast.entryAt? key = some entry := by
  rcases s.entryAt?_finish key with h | ⟨expr, -, h⟩
  · rw [← h, he]
  · cases he.symm.trans h
    cases hb

/-- The final pass puts nothing inside a node. -/
theorem Lowering.State.inside_finish {a b : NodeKey} : s.finish.Inside a b ↔ s.ast.Inside a b := by
  unfold Ast.Inside
  simp only [State.partKeys_finish]

/-- Before the final pass no reference in an initializer is to a declaration in its pattern. So
those that are to one afterwards found nothing, and the scope of the file has the name bound to
it. -/
theorem Ast.Coherent.declRef_iff {α : Type} {x : Lower α} {es : List Event} {a : α}
    (hc : s.ast.Coherent ∅) (hrec : x.Records {} es a s)
    (he : s.finish.entryAt? key = some entry) (hb : binding ∈ entry.bindings)
    (hvalue : s.finish.Inside (Node.expr binding.2).key (Node.expr id).key)
    (hpattern : s.finish.Inside (Node.pattern binding.1).key (Node.decl d).key) :
    (∃ expr, s.finish.expr? id = some expr ∧ expr.kind = .declRef name (some d)) ↔
      .referred id name none ∈ es ∧ lastBound es name = some d := by
  constructor
  · rintro ⟨expr, hexpr, hk⟩
    rcases hrec.event_of_expr?_finish hexpr hk with ⟨hr, -⟩ | ⟨hr, hlast⟩ | ⟨t, -, -, rfl⟩
    · obtain ⟨old, hold, hk⟩ := hrec.expr?_of_referred hr
      have blind := (hc.links key entry (State.entryAt?_of_binding he hb)).blind binding hb
      exact absurd hk (blind id old name d (State.inside_finish.mp hvalue)
        (State.inside_finish.mp hpattern) hold)
    · exact ⟨hr, hlast.symm⟩
    · cases hk
  · rintro ⟨hr, hlast⟩
    rw [← hlast]
    exact hrec.expr?_finish_of_unresolved hr

/-- A reference in an initializer, in a finished file, is to a declaration in the pattern that is
initialized exactly if lexical lookup found nothing for it and that declaration is what the scope of
the file binds its name to last. -/
theorem Tree.lower_initializers (root : Tree) (hasParseErrors : Bool) :
    root.lower hasParseErrors = .error .equalsBeforeBinding ∨
    ∃ topLevel s es, (sourceFile (upTo root.height) root).Records {} es topLevel s ∧
      root.lower hasParseErrors = .ok { ast := s.finish, topLevel, hasParseErrors } ∧
      ∀ key entry, s.finish.entryAt? key = some entry → ∀ binding ∈ entry.bindings, ∀ id d,
        s.finish.Inside (Node.expr binding.2).key (Node.expr id).key →
        s.finish.Inside (Node.pattern binding.1).key (Node.decl d).key → ∀ name,
        ((∃ expr, s.finish.expr? id = some expr ∧ expr.kind = .declRef name (some d)) ↔
          .referred id name none ∈ es ∧ lastBound es name = some d) := by
  have hroot : (Terms.under root).trees root := Tree.mem_subtrees_self root
  refine (Tree.lower_records hroot id hasParseErrors).imp id ?_
  rintro ⟨topLevel, s, es, hrec, -, -, hlower⟩
  have hc := (sourceFile_upkeep hrec.run).coherent
  exact ⟨topLevel, s, es, hrec, hlower, fun key entry he binding hb id d hvalue hpattern name =>
    hc.declRef_iff hrec he hb hvalue hpattern⟩

/-- The tree of a file with the declaration of a constant by its own name. -/
def Tree.selfBinding : Tree :=
  (ofRows? (.ofBytes "let x = x\n".toUTF8) [
    ⟨"source_file", true, 0, 10, none, 1, []⟩,
    ⟨"property_declaration", true, 0, 9, none, 4, []⟩,
    ⟨"value_binding_pattern", true, 0, 3, none, 1, []⟩,
    ⟨"let", false, 0, 3, some "mutability", 0, []⟩,
    ⟨"pattern", true, 4, 5, some "name", 1, []⟩,
    ⟨"simple_identifier", true, 4, 5, some "bound_identifier", 0, []⟩,
    ⟨"=", false, 6, 7, none, 0, []⟩,
    ⟨"simple_identifier", true, 8, 9, some "value", 0, []⟩]).getD default

/-- The value of a constant may be a reference to the constant. -/
theorem Tree.lower_initializers_selfBinding :
    ∃ file, selfBinding.lower false = .ok file ∧
      ∃ key entry, file.ast.entryAt? key = some entry ∧ ∃ binding ∈ entry.bindings, ∃ id expr name d,
        file.ast.Inside (Node.expr binding.2).key (Node.expr id).key ∧
        file.ast.Inside (Node.pattern binding.1).key (Node.decl d).key ∧
        file.ast.expr? id = some expr ∧ expr.kind = .declRef name (some d) ∧
        ∃ var isLet type, (file.ast.decl? d).map (·.kind) = some (.var var isLet type) := by
  obtain ⟨file, hfile, hbinding, hpattern, hvalue, hvar⟩ :
      ∃ file ∈ (selfBinding.lower false).toOption,
        (file.ast.decl? ⟨1⟩).map (·.kind) = some (.patternBinding [⟨⟨0⟩, some ⟨0⟩⟩]) ∧
        (file.ast.patterns[0]?).map (·.kind) = some (.named "x" (some ⟨0⟩)) ∧
        (file.ast.expr? ⟨0⟩).map (·.kind) = some (.declRef "x" (some ⟨0⟩)) ∧
        (file.ast.decl? ⟨0⟩).map (·.kind) = some (.var "x" true none) := by
    decide +kernel
  obtain ⟨decl, hdecl, hbinding⟩ := Option.map_eq_some_iff.mp hbinding
  obtain ⟨pattern, hentry, hpattern⟩ := Option.map_eq_some_iff.mp hpattern
  obtain ⟨expr, hexpr, hvalue⟩ := Option.map_eq_some_iff.mp hvalue
  have hat : file.ast.entryAt? (Node.pattern ⟨0⟩).key = some (.pattern pattern) := by
    simp [Ast.entryAt?, Node.key, hentry]
  have hinside : (Node.decl ⟨0⟩).key ∈ file.ast.partKeys (Node.pattern ⟨0⟩).key := by
    rw [Ast.partKeys_of_entryAt? hat]
    simp [mem_loose, Ast.Entry.parts, Ast.Entry.nodes, hpattern, PatternKind.nodes, Node.key]
  refine ⟨file, lower_of_mem_toOption hfile, (Node.decl ⟨1⟩).key, .decl decl, ?_, (⟨0⟩, ⟨0⟩), ?_,
    ⟨0⟩, expr, "x", ⟨0⟩, .refl, .single hinside, hexpr, hvalue, "x", true, none, hvar⟩
  · rw [Ast.entryAt?_decl, hdecl, Option.map_some]
  · simp [Ast.Entry.bindings, hbinding, DeclKind.bindings]

end SwiftRelations
