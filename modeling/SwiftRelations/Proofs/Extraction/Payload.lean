import SwiftRelations.Proofs.Ast.Payload
import SwiftRelations.Proofs.Extraction.Relations

/-!
# What is said of a payload

The description of a node is that of its payload, under its location. It states one fact at least,
and the relation of the first one tells the payload.
-/

namespace SwiftRelations

/-- The relations a payload is described in, the first one first. -/
def Payload.relations : Payload → List String
  | .decl kind => kind.relations
  | .stmt kind => kind.relations
  | .stmtCondition _ => ["stmt_conditions", "stmt_condition_booleans", "stmt_condition_patterns"]
  | .caseLabelItem .. => ["case_label_items", "case_label_item_guards"]
  | .expr kind _ => kind.relations ++ ["expr_types"]
  | .pattern kind => kind.relations
  | .type kind _ => "types" :: kind.relations
  | .writtenType .. => ["type_reprs", "type_repr_types"]

open Extraction in
/-- What is said of a payload under a key. -/
def Payload.steps (key : NodeKey) (span : Option Span) : Payload → List Step
  | .decl kind => declSteps key span kind
  | .stmt kind => stmtSteps key span kind
  | .stmtCondition elements => stmtConditionSteps key elements
  | .caseLabelItem sub guard => caseLabelItemSteps key { pattern := sub, guard, span }
  | .expr kind resolved =>
    exprKindSteps key span kind ++ child? key "expr_types" (resolved.map .type)
  | .pattern kind => patternSteps key span kind
  | .type kind name => about key "types" [.string name] :: typeKindSteps key kind
  | .writtenType text resolved =>
    about key "type_reprs" [.string text] :: child? key "type_repr_types" (resolved.map .type)

/-- A location is said apart from what a payload is described in. -/
theorem Payload.locations_notMem_relations (payload : Payload) :
    "locations" ∉ payload.relations := by
  cases payload with
  | decl kind => cases kind <;> simp [relations, DeclKind.relations]
  | stmt kind => cases kind <;> simp [relations, StmtKind.relations]
  | expr kind type => cases kind <;> simp [relations, ExprKind.relations]
  | pattern kind => cases kind <;> simp [relations, PatternKind.relations]
  | type kind name => cases kind <;> simp [relations, TypeKind.relations]
  | _ => simp [relations]

variable {ast : Ast} {node : Node} {payload : Payload}

namespace Extraction

variable (key : NodeKey) (span : Option Span)

/-- The content of a node is what is said of its payload. -/
theorem content_eq (h : ast.payload? node = some payload) :
    content ast node = payload.steps node.key (ast.spanOf node) := by
  cases node <;>
    (obtain ⟨entry, he, rfl⟩ := Option.map_eq_some_iff.mp h
     simp only [content, he, Option.map_some, Option.getD_some, Payload.steps, Ast.spanOf,
       Option.bind_some, typeSteps, exprSteps, writtenTypeSteps])

/-- Nothing is said of a place that holds no node. -/
theorem content_of_payload?_eq_none (h : ast.payload? node = none) : content ast node = [] := by
  cases node <;>
    (have hn := Option.map_eq_none_iff.mp h
     simp only [content, hn, Option.map_none, Option.getD_none])

/-- A payload is described in its relations. -/
theorem tells_payload (payload : Payload) : Tells payload.relations (payload.steps key span) := by
  cases payload with
  | decl kind => exact tells_declSteps span kind
  | stmt kind => exact tells_stmtSteps span kind
  | stmtCondition elements => exact tells_stmtConditionSteps elements
  | caseLabelItem sub guard => exact tells_caseLabelItemSteps _
  | expr kind type =>
    refine (tells_exprKindSteps span kind).child? "expr_types" _ ?_
    cases kind <;> simp [ExprKind.relations]
  | pattern kind => exact tells_patternSteps span kind
  | type kind name =>
    refine (tells_about "types" _).append (tells_typeKindSteps kind) ?_
    cases kind <;> simp
  | writtenType text type =>
    exact (tells_about "type_reprs" _).child? "type_repr_types" _ (by decide)

/-- The first fact about a payload is of its first relation. -/
theorem head?_payload (payload : Payload) :
    (factsOf (payload.steps key span)).head?.map Fact.relation = payload.relations.head? := by
  cases payload with
  | decl kind => cases kind <;> rfl
  | stmt kind => cases kind <;> rfl
  | expr kind type => cases kind <;> rfl
  | pattern kind => cases kind <;> rfl
  | _ => rfl

/-- A node is described in the relations of its payload, under its location. -/
theorem tells_describe (options : ExtractionOptions) (h : ast.payload? node = some payload) :
    Tells ("locations" :: payload.relations) (describe ast options node) := by
  have hl : Tells ["locations"] (locationSteps ast options node) := by
    rcases locationSteps_cases ast options node with h | ⟨span, h⟩ <;> rw [h]
    · exact tells_nil
    · exact tells_about "locations" _
  rw [describe, content_eq h]
  refine hl.append (tells_payload node.key (ast.spanOf node) payload) ?_
  intro name hm
  rw [List.mem_singleton.mp hm]
  exact payload.locations_notMem_relations

/-- The description of a node of a tree states a fact. -/
theorem exists_fact_describe (options : ExtractionOptions) (h : ast.HasNode node) :
    ∃ fact, fact ∈ factsOf (describe ast options node) := by
  obtain ⟨payload, hp⟩ := h.exists_payload
  have hf := head?_payload node.key (ast.spanOf node) payload
  have hr : payload.relations.head?.isSome := by
    cases payload with
    | decl kind => cases kind <;> rfl
    | stmt kind => cases kind <;> rfl
    | expr kind type => cases kind <;> rfl
    | pattern kind => cases kind <;> rfl
    | _ => rfl
  rw [← hf, Option.isSome_map] at hr
  obtain ⟨fact, hh⟩ := Option.isSome_iff_exists.mp hr
  refine ⟨fact, ?_⟩
  rw [describe, content_eq hp, factsOf_append]
  exact List.mem_append_right _ (List.mem_of_mem_head? hh)

end Extraction

end SwiftRelations
