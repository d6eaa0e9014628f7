import SwiftRelations.Proofs.Lowering.FormsItems

/-!
# The names that a file binds

The patterns of a lowered file are well formed: each named pattern introduces a variable of its own
of the kind that the nearest binding around it says, and no variable comes from elsewhere. Where the
tree of the file is placed, a pattern stands around its parts; only the type that a condition gives
to a name may stand outside its pattern, and in a loop a type that stands before its name.
-/

namespace SwiftRelations

open Lowering

/-- Each name that a pattern binds introduces a variable with this name and place, which no other
name introduces, and all variables are introduced by names. If the name stands under bindings, the
variable is what the keyword of the nearest one says. -/
theorem Tree.lower_variables (root : Tree) (hasParseErrors : Bool) :
    root.lower hasParseErrors = .error .equalsBeforeBinding ∨
    ∃ file, root.lower hasParseErrors = .ok file ∧
      (∀ id name var? span, file.ast.pattern? id = some ⟨.named name var?, span⟩ →
        ∃ var isLet type, var? = some var ∧
          file.ast.decl? var = some ⟨.var name isLet type, span⟩ ∧
          (∀ id' name' span', file.ast.pattern? id' = some ⟨.named name' (some var), span'⟩ →
            id' = id) ∧
          ∀ keyword, file.ast.NearestBinding id keyword → keyword = isLet) ∧
      ∀ var name isLet type span, file.ast.decl? var = some ⟨.var name isLet type, span⟩ →
        ∃ id, file.ast.pattern? id = some ⟨.named name (some var), span⟩ := by
  refine (root.lower_ends hasParseErrors).imp id ?_
  rintro ⟨file, hfile⟩
  have introduces := (formed_of_lower hfile).introduces
  refine ⟨file, hfile, fun id name var? span hn => ?_, fun _ _ _ _ _ hd => introduces.named hd⟩
  obtain ⟨var, isLet, type, rfl, hd⟩ := introduces.var hn
  refine ⟨var, isLet, type, rfl, hd, fun id' name' span' hn' => introduces.unique hn hn', ?_⟩
  rintro keyword ⟨outer, sub, span', hb, hreach⟩
  exact ((introduces.uniform hb).eq_of_reaches hreach hn hd).symm

/-- In a file whose tree is placed, a pattern that is put together of others, or of another and a
type, stands around them. The exceptions are names with a type in conditions, and in loops where the
type stands first. -/
theorem Tree.lower_patternSpans (root : Tree) (hasParseErrors : Bool) (placed : root.Placed) :
    root.lower hasParseErrors = .error .equalsBeforeBinding ∨
    ∃ file, root.lower hasParseErrors = .ok file ∧
      ∀ id pattern, file.ast.pattern? id = some pattern → pattern.kind.isComposed →
        file.ast.Spans root pattern := by
  refine (root.lower_ends hasParseErrors).imp id ?_
  rintro ⟨file, hfile⟩
  exact ⟨file, hfile, fun id pattern => (formed_of_lower hfile).spans placed⟩

/-- A node on the first line of a file. -/
def Tree.onLine (index : Nat) (kind : String) (named : Bool) (start stop : Nat) (text : String)
    (children : List Tree) : Tree :=
  .node ⟨index, kind, named, none, ⟨start, stop, 1, start + 1, 1, stop + 1⟩, text, []⟩ children

/-- The tree of the file `if let x: Int = y {}`, where a condition gives a type to the name it
binds. -/
def Tree.typedCondition : Tree :=
  onLine 0 "source_file" true 0 20 "if let x: Int = y \x7b\x7d" [
    onLine 1 "if_statement" true 0 20 "if let x: Int = y \x7b\x7d" [
      onLine 2 "if" false 0 2 "if" [],
      onLine 3 "value_binding_pattern" true 3 6 "let" [onLine 4 "let" false 3 6 "let" []],
      onLine 5 "simple_identifier" true 7 8 "x" [],
      onLine 6 "type_annotation" true 8 13 ": Int" [
        onLine 7 ":" false 8 9 ":" [],
        onLine 8 "user_type" true 10 13 "Int" [onLine 9 "type_identifier" true 10 13 "Int" []]],
      onLine 10 "=" false 14 15 "=" [],
      onLine 11 "simple_identifier" true 16 17 "y" [],
      onLine 12 "\x7b" false 18 19 "\x7b" [],
      onLine 13 "\x7d" false 19 20 "\x7d" []]]

/-- The tree is placed, and all fields are answered by children. -/
theorem Tree.placed_typedCondition : typedCondition.Placed ∧
    ∀ t ∈ typedCondition.subtrees, ∀ name c, t.childByField? name = some c → c ∈ t.children := by
  have hchildren : ∀ t ∈ typedCondition.subtrees, (∀ c ∈ t.children, c.span.Within t.span) ∧
      t.children.Pairwise Precedes ∧ t.head.fieldAnswers = [] := by
    decide +kernel
  have hfields : ∀ t ∈ typedCondition.subtrees, ∀ name c, t.childByField? name = some c →
      c ∈ t.children := fun t ht name c => mem_children_of_childByField? (hchildren t ht).2.2
  exact ⟨fun t ht => ⟨(hchildren t ht).1, (hchildren t ht).2.1, hfields t ht "item"⟩, hfields⟩

/-- In a file with such a condition, patterns stand around their parts but for the type. -/
theorem Tree.lower_patternSpans_typed : typedCondition.Placed ∧
    (typedCondition.lower false = .error .equalsBeforeBinding ∨
    ∃ file, typedCondition.lower false = .ok file ∧
      ∀ id pattern, file.ast.pattern? id = some pattern → pattern.kind.isComposed →
        file.ast.Spans typedCondition pattern) :=
  ⟨placed_typedCondition.1, lower_patternSpans typedCondition false placed_typedCondition.1⟩

/-- The annotation of a pattern with a type. -/
def PatternKind.typeRepr? : PatternKind → Option TypeReprId
  | .typed _ written => some written.repr
  | _ => none

/-- The type that a condition gives to a name stands outside the pattern that it is part of. -/
theorem Tree.lower_typedCondition_outside : typedCondition.Placed ∧
    (∀ t ∈ typedCondition.subtrees, ∀ name c, t.childByField? name = some c → c ∈ t.children) ∧
    ∃ file, typedCondition.lower false = .ok file ∧
      ∃ id sub written outer, file.ast.pattern? id = some ⟨.typed sub written, some outer⟩ ∧
        ¬ file.ast.InSpan (.writtenType written) outer := by
  obtain ⟨placed, hfields⟩ := placed_typedCondition
  obtain ⟨file, hfile, hkind, hspan, htype⟩ : ∃ file ∈ (typedCondition.lower false).toOption,
      (file.ast.pattern? ⟨1⟩).bind (·.kind.typeRepr?) = some ⟨0⟩ ∧
      (file.ast.pattern? ⟨1⟩).bind (·.span) = some ⟨7, 8, 1, 8, 1, 9⟩ ∧
      (file.ast.typeRepr? ⟨0⟩).bind (·.span) = some ⟨10, 13, 1, 11, 1, 14⟩ := by
    decide +kernel
  obtain ⟨⟨kind, span⟩, hp, hkind⟩ := Option.bind_eq_some_iff.mp hkind
  obtain rfl : span = some ⟨7, 8, 1, 8, 1, 9⟩ := by simpa [hp] using hspan
  cases kind with
  | typed sub written =>
    obtain ⟨repr, type⟩ := written
    obtain rfl : repr = ⟨0⟩ := Option.some.inj hkind
    refine ⟨placed, hfields, file, lower_of_mem_toOption hfile, ⟨1⟩, sub, _, _, hp, ?_⟩
    rintro ⟨inner, hinner, hin⟩
    obtain rfl := Option.some.inj (htype.symm.trans hinner)
    exact absurd hin (by decide)
  | _ => cases hkind

end SwiftRelations
