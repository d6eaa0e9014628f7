import SwiftRelations.Proofs.Extraction.Conformity
import SwiftRelations.Proofs.Facts.TrapLine

/-!
# The extraction of a lowered file succeeds

No label is given twice in a fresh run, so the extraction of a lowered file never fails, and what
can stop the extraction of a parsed file is its lowering alone. The facts are those of the schema,
so the names of their relations consist of letters.
-/

namespace SwiftRelations

/-- The names of all relations consist of letters. -/
theorem schema_isNamed : ∀ row ∈ schema, ∀ c ∈ row.1.toList, isNameChar c = true := by
  have h : schema.all (fun row => row.1.toList.all isNameChar) = true := by decide +kernel
  simpa only [List.all_eq_true] using h

/-- A fact of the schema is named by letters. -/
theorem Fact.IsTyped.isNamed {ν : Type} {fact : Fact ν} (h : fact.IsTyped) : fact.IsNamed := by
  obtain ⟨columns, hm, -⟩ := h
  exact schema_isNamed _ hm

namespace Extraction

variable {ast : Ast} {options : ExtractionOptions} {run run' : Run} {steps steps' : List Step}

/-- Whether the facts of a run, and those of the steps ahead of it, are of the schema but for the
categories of their nodes. -/
def Typed (run : Run) (steps : List Step) : Prop :=
  (∀ fact ∈ run.facts, fact.IsTyped) ∧ ∀ fact ∈ factsOf steps, fact.IsTyped

/-- A move states a fact of a step ahead, or puts a description ahead. -/
theorem Typed.move {entered : Option Node} (h : Typed run steps)
    (hm : Move ast options run steps entered run' steps') : Typed run' steps' := by
  obtain ⟨hf, hs⟩ := h
  cases hm with
  | emit fact =>
    have hc : factsOf (.emit fact :: steps') = fact :: factsOf steps' := rfl
    rw [hc] at hs
    obtain ⟨ht, hs⟩ := List.forall_mem_cons.mp hs
    refine ⟨fun other ho => ?_, hs⟩
    rcases Array.mem_push.mp ho with ho | rfl
    · exact hf other ho
    · exact ht.map _
  | enter rest =>
    refine ⟨hf, fun fact hm => ?_⟩
    rw [factsOf_append] at hm
    rcases List.mem_append.mp hm with hm | hm
    · exact (conforming_describe ast options _ fact hm).isTyped
    · exact hs fact hm
  | _ => exact ⟨hf, hs⟩

end Extraction

open Extraction

/-- The extraction of a lowered file succeeds, and its facts are of the schema. -/
theorem LoweredFile.exists_extract_eq (file : LoweredFile) (options : ExtractionOptions) :
    ∃ output, file.extract options = .ok output ∧ ∀ fact ∈ output.facts, fact.IsTyped := by
  obtain ⟨nodes, run, hm⟩ := exists_moves file.ast options {}
    ((file.topLevel.map Node.decl).map .visit) Registry.wf_empty
  have ht : Typed run [] := by
    apply hm.keeps (P := fun run steps _ => Typed run steps) (fun h hm => h.move hm) []
    constructor
    · simp
    · simp [factsOf, Step.fact?]
  refine ⟨{ run.output with hasParseErrors := file.hasParseErrors }, ?_, ?_⟩
  · rw [LoweredFile.extract, Run.extractAll_of_moves file.ast options Registry.wf_empty hm]
    rfl
  · intro fact hf
    exact ht.1 fact (by simpa [Run.output] using hf)

/-- The extraction of a parsed file is that of its lowering, shown under the path. -/
theorem ParsedFile.extract_of_lower {file : ParsedFile} {lowered : LoweredFile} {output : Output}
    {options : ExtractionOptions} (hl : file.tree.lower file.hasErrors = .ok lowered)
    (ho : lowered.extract options = .ok output) (path : String) :
    file.extract path options = .ok { output with path } := by
  simp only [ParsedFile.extract, hl, Except.mapError, bind, Except.bind, ho]
  rfl

/-- The extraction of a parsed file fails only if its lowering does, and in the same way. What it
results in has the path that was given, and facts of the schema. -/
theorem ParsedFile.extract_eq (file : ParsedFile) (path : String) (options : ExtractionOptions) :
    match file.tree.lower file.hasErrors with
    | .error fault => file.extract path options = .error (.lowering fault)
    | .ok _ => ∃ output, file.extract path options = .ok output ∧ output.path = path ∧
        ∀ fact ∈ output.facts, fact.IsTyped := by
  cases hl : file.tree.lower file.hasErrors with
  | error fault => simp only [ParsedFile.extract, hl, Except.mapError, bind, Except.bind]
  | ok lowered =>
    obtain ⟨output, ho, ht⟩ := lowered.exists_extract_eq options
    exact ⟨{ output with path }, extract_of_lower hl ho path, rfl, ht⟩

/-- The output of a file has the path it was asked for, and facts of the schema. -/
theorem ParsedFile.path_isTyped {file : ParsedFile} {path : String} {options : ExtractionOptions}
    {output : Output} (h : file.extract path options = .ok output) :
    output.path = path ∧ ∀ fact ∈ output.facts, fact.IsTyped := by
  have he := file.extract_eq path options
  split at he
  · rw [h] at he
    cases he
  · obtain ⟨output', ho', hp, ht⟩ := he
    rw [h, Except.ok.injEq] at ho'
    subst ho'
    exact ⟨hp, ht⟩

end SwiftRelations
