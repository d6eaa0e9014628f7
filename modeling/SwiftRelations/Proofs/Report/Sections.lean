import SwiftRelations.Proofs.Data.List
import SwiftRelations.Proofs.Extraction.Success
import SwiftRelations.Proofs.Lowering.File
import SwiftRelations.Report.Lines

/-!
# Reading trap reports

A trap report is read back by sections: each header begins one, and of the lines up to the next
header those of facts at the end are its facts, while any before them go on with its path. Paths are
written as they are, so a path with line breaks may look like more than a path. The reports of paths
that do not are read back, and each path that does shares its report with other outputs.
-/

namespace SwiftRelations

open SwiftRelations.Text SwiftRelations.Extraction

/-- What a trap report says of a file: its path and its facts. -/
def Output.section (output : Output) : String × List (Fact Label) := (output.path, output.facts)

/-- The output of a file without facts. -/
def Output.bare (path : String) : Output :=
  { path, facts := [], diagnostics := [], labelCount := 0 }

/-- Whether the relations of all facts are named by letters. -/
def Output.IsNamed (output : Output) : Prop := ∀ fact ∈ output.facts, fact.IsNamed

/-- Facts of the schema are named by letters. -/
theorem Output.isNamed_of_typed {output : Output} (h : ∀ fact ∈ output.facts, fact.IsTyped) :
    output.IsNamed :=
  fun fact hf => (h fact hf).isNamed

/-- Nothing is stated of a file without declarations. -/
theorem LoweredFile.exists_extract_nil {file : LoweredFile} (ht : file.topLevel = [])
    (options : ExtractionOptions) :
    ∃ output, file.extract options = .ok output ∧ output.facts = [] := by
  rw [LoweredFile.extract, ht]
  exact ⟨_, rfl, rfl⟩

/-- Of a file that has an import and no other declaration the import alone is stated, if locations
are left out. -/
theorem LoweredFile.exists_extract_importing {file : LoweredFile} {id : DeclId} {name : String}
    (ht : file.topLevel = [id])
    (hd : (file.ast.decl? id).map (·.kind) = some (.importing name)) :
    ∃ output, file.extract { emitLocations := false } = .ok output ∧
      output.facts = [⟨"import_decls", [.node ⟨1⟩, .string name]⟩] := by
  obtain ⟨decl, hdecl, hkind⟩ := Option.map_eq_some_iff.mp hd
  have holds : file.ast.Holds (Node.decl id).key := (Array.getElem?_eq_some_iff.mp hdecl).1
  have hfetch : ({} : Registry).fetch (Node.decl id).key =
      .ok (⟨1⟩, Registry.add {} (Node.decl id).key) :=
    Registry.wf_empty.fetch_of_lookup_none (by simp [Registry.lookup])
  have hdescribe : describe file.ast { emitLocations := false } (.decl id) =
      [about (Node.decl id).key "import_decls" [.string name]] := by
    simp only [describe, locationSteps, content, hdecl, hkind, declSteps, Option.map_some,
      Option.getD_some]
    cases file.ast.spanOf (.decl id) <;> rfl
  have hwalk : walk file.ast { emitLocations := false } {} [.visit (.decl id)] =
      .ok ((Run.mark { registry := Registry.add {} (Node.decl id).key } (Node.decl id).key).emit
        ⟨"import_decls", [.node (Node.decl id).key, .string name]⟩) := by
    rw [walk_of_move (.enter [] hfetch holds (by simp [Run.isFresh])), hdescribe]
    exact (walk_of_move (.emit _ _ [])).trans (by rw [walk])
  refine ⟨_, by
    rw [LoweredFile.extract, ht, List.map_singleton, Run.extractAll, Run.extract, hwalk]
    rfl, ?_⟩
  simp [Run.output, Run.emit, Run.mark, Fact.map, Value.map, Run.labelOf, Registry.lookup_add]

namespace Report

/-! ### A reader -/

/-- What a header begins with. -/
def headerMark : List Char := "// ".toList

/-- Whether a line is that of a header. -/
def isHeader (line : List Char) : Bool := headerMark.isPrefixOf line

/-- Whether a line is that of a fact. -/
def isFactLine (line : List Char) : Bool := (Fact.ofTrap? line).isSome

/-- The lines before the first header, and each header with the lines up to the next one. -/
def splitAtHeaders : List (List Char) → List (List Char) × List (List Char × List (List Char))
  | [] => ([], [])
  | line :: lines =>
    if isHeader line then ([], (line, (splitAtHeaders lines).1) :: (splitAtHeaders lines).2)
    else (line :: (splitAtHeaders lines).1, (splitAtHeaders lines).2)

/-- The section of a header and the lines under it. -/
def sectionOf? (group : List Char × List (List Char)) : Option (String × List (Fact Label)) :=
  let path := (group.1.drop headerMark.length) :: group.2.rdropWhile isFactLine
  ((group.2.rtakeWhile isFactLine).mapM Fact.ofTrap?).map
    (String.ofList (['\n'].intercalate path), ·)

/-- The sections of a report. -/
def sectionsOf? (text : String) : Option (List (String × List (Fact Label))) :=
  match splitAtHeaders (lines text) with
  | ([], groups) => groups.mapM sectionOf?
  | _ => none

/-- Whether a path looks like no more than a path: of its lines none but the first is that of a
header, and the last, if it is another than the first, is not that of a fact. -/
def IsClear (path : String) : Prop :=
  (∀ line ∈ (path.toList.splitOn '\n').tail, isHeader line = false) ∧
    ∀ line ∈ (path.toList.splitOn '\n').tail.getLast?, isFactLine line = false

/-! ### The lines of a report -/

/-- The first line of the header of a file. -/
def firstLine (output : Output) : List Char :=
  headerMark ++ (output.path.toList.splitOn '\n').headD []

/-- The lines of the header of a file after the first. -/
def pathRest (output : Output) : List (List Char) := (output.path.toList.splitOn '\n').tail

/-- The lines of the facts of a file. -/
def factLines (output : Output) : List (List Char) := output.facts.map (·.trap.toList)

/-- The first line of a path and the other ones. -/
theorem splitOn_path (output : Output) :
    output.path.toList.splitOn '\n' =
      (output.path.toList.splitOn '\n').headD [] :: pathRest output := by
  cases h : output.path.toList.splitOn '\n' with
  | nil => exact absurd h (List.splitOn_ne_nil _ _)
  | cons line rest => rw [pathRest, h, List.tail_cons, List.headD_cons]

/-- The first line of a header is one of a header. -/
theorem isHeader_firstLine (output : Output) : isHeader (firstLine output) = true := by
  rw [isHeader, List.isPrefixOf_iff_prefix]
  exact List.prefix_append _ _

/-- The lines of a report are those of its files. -/
theorem lines_trap {outputs : List Output} (h : ∀ output ∈ outputs, output.IsNamed) :
    lines (trap outputs) =
      outputs.flatMap fun o => firstLine o :: (pathRest o ++ factLines o) := by
  have ht : trap outputs = ofLines (outputs.flatMap trapLines) := rfl
  rw [ht, lines_ofLines, List.flatMap_assoc]
  apply List.flatMap_congr
  intro output ho
  have hp : ("// " ++ output.path).toList.splitOn '\n' = firstLine output :: pathRest output := by
    have hc : ("// " ++ output.path).toList = '/' :: '/' :: ' ' :: output.path.toList := by
      simp
    rw [hc]
    simp only [List.splitOn_cons_eq_if_modifyHead]
    rw [splitOn_path]
    rfl
  have hf : ((output.facts.map (·.trap)).flatMap fun l => l.toList.splitOn '\n') =
      factLines output := by
    rw [factLines, List.flatMap_map, List.map_eq_flatMap]
    apply List.flatMap_congr
    intro fact hm
    exact List.splitOn_eq_singleton (Fact.newline_notMem_trap (h output ho fact hm))
  rw [trapLines, List.flatMap_cons, hp, hf, List.cons_append]

/-- The line of a fact is not that of a header. -/
theorem isHeader_trap {fact : Fact Label} (h : fact.IsNamed) :
    isHeader fact.trap.toList = false := by
  rw [isHeader, fact.toList_trap]
  cases hr : fact.relation.toList with
  | nil => rfl
  | cons c cs =>
    have hc : c ≠ '/' := by
      rintro rfl
      exact absurd (h '/' (hr ▸ List.mem_cons_self)) (by decide)
    have hne : ('/' == c) = false := beq_false_of_ne hc.symm
    have hm : headerMark = '/' :: ['/', ' '] := rfl
    rw [hm, List.cons_append, List.isPrefixOf_cons_cons, hne, Bool.false_and]

/-- The line of a fact is that of a fact. -/
theorem isFactLine_iff {line : List Char} :
    isFactLine line = true ↔ ∃ fact : Fact Label, fact.IsNamed ∧ fact.trap.toList = line := by
  rw [isFactLine, Option.isSome_iff_exists]
  exact exists_congr fun fact => Fact.ofTrap?_eq_some_iff

/-! ### Sections -/

/-- Lines that hold no header stand before the first one. -/
theorem splitAtHeaders_append {body : List (List Char)} (h : ∀ line ∈ body, isHeader line = false)
    (tail : List (List Char)) :
    splitAtHeaders (body ++ tail) =
      (body ++ (splitAtHeaders tail).1, (splitAtHeaders tail).2) := by
  induction body with
  | nil => rfl
  | cons line body ih =>
    obtain ⟨hl, hb⟩ := List.forall_mem_cons.mp h
    rw [List.cons_append, splitAtHeaders, if_neg (by simp [hl]), ih hb]
    rfl

/-- Groups of lines, each under a header, are parted again. -/
theorem splitAtHeaders_flatMap {α : Type} {header : α → List Char} {body : α → List (List Char)}
    {l : List α} (hh : ∀ a ∈ l, isHeader (header a) = true)
    (hb : ∀ a ∈ l, ∀ line ∈ body a, isHeader line = false) :
    splitAtHeaders (l.flatMap fun a => header a :: body a) =
      ([], l.map fun a => (header a, body a)) := by
  induction l with
  | nil => rfl
  | cons a l ih =>
    obtain ⟨ha, hl⟩ := List.forall_mem_cons.mp hh
    obtain ⟨hba, hbl⟩ := List.forall_mem_cons.mp hb
    rw [List.flatMap_cons, List.cons_append, splitAtHeaders, if_pos ha, splitAtHeaders_append hba,
      ih hl hbl, List.append_nil, List.map_cons]

variable {outputs : List Output}

/-- The section of a file is read back from its lines. -/
theorem sectionOf?_eq {output : Output} (hn : output.IsNamed) (hc : IsClear output.path) :
    sectionOf? (firstLine output, pathRest output ++ factLines output) = some output.section := by
  have hf : ∀ line ∈ factLines output, isFactLine line = true := by
    intro line hl
    obtain ⟨fact, hm, rfl⟩ := List.mem_map.mp hl
    exact isFactLine_iff.mpr ⟨fact, hn fact hm, rfl⟩
  obtain ⟨hd, ht⟩ := List.rtakeWhile_append (a := pathRest output) hc.2 hf
  have hp : (firstLine output).drop headerMark.length =
      (output.path.toList.splitOn '\n').headD [] := List.drop_left
  rw [sectionOf?]
  simp only [hd, ht, hp]
  rw [← splitOn_path, List.intercalate_splitOn, String.ofList_toList, factLines,
    mapM_ofTrap?_map hn]
  rfl

/-- The sections of a report are read back, if no path looks like more than a path. -/
theorem sectionsOf?_trap (hn : ∀ output ∈ outputs, output.IsNamed)
    (hc : ∀ output ∈ outputs, IsClear output.path) :
    sectionsOf? (trap outputs) = some (outputs.map Output.section) := by
  have hb : ∀ output ∈ outputs, ∀ line ∈ pathRest output ++ factLines output,
      isHeader line = false := by
    intro output ho line hl
    rcases List.mem_append.mp hl with hl | hl
    · exact (hc output ho).1 line hl
    · obtain ⟨fact, hm, rfl⟩ := List.mem_map.mp hl
      exact isHeader_trap (hn output ho fact hm)
  rw [sectionsOf?, lines_trap hn,
    splitAtHeaders_flatMap (fun output _ => isHeader_firstLine output) hb]
  exact List.mapM_map_eq_some fun output ho => sectionOf?_eq (hn output ho) (hc output ho)

/-! ### Paths that are not clear -/

/-- A path without line breaks is clear. -/
theorem isClear_of_unbroken {path : String} (h : '\n' ∉ path.toList) : IsClear path := by
  rw [IsClear, List.splitOn_eq_singleton h]
  simp

/-- The lines of a header determine the path. -/
theorem path_eq {output other : Output} (hf : firstLine output = firstLine other)
    (hr : pathRest output = pathRest other) : output.path = other.path := by
  have hs : output.path.toList.splitOn '\n' = other.path.toList.splitOn '\n' := by
    rw [splitOn_path output, splitOn_path other, List.append_cancel_left hf, hr]
  have hi := congrArg (['\n'].intercalate ·) hs
  simp only [List.intercalate_splitOn] at hi
  exact String.toList_inj.mp hi

/-- The report of a file without facts under a clear path is that of no other outputs. -/
theorem section_eq_of_trap_eq {path : String} (hc : IsClear path)
    (hn : ∀ output ∈ outputs, output.IsNamed) (h : trap outputs = trap [.bare path]) :
    outputs.map Output.section = [(path, [])] := by
  have hb : ∀ output ∈ [Output.bare path], output.IsNamed := by
    intro output ho fact hf
    rw [List.mem_singleton.mp ho] at hf
    cases hf
  have hl := congrArg lines h
  rw [lines_trap hn, lines_trap hb, List.flatMap_singleton] at hl
  cases outputs with
  | nil => cases hl
  | cons output outputs =>
    rw [List.flatMap_cons, List.cons_append] at hl
    obtain ⟨hfirst, hrest⟩ := List.cons.inj hl
    have hbare : factLines (.bare path) = [] := rfl
    rw [hbare, List.append_nil] at hrest
    -- a second file would have its header among the lines of the path
    have hone : outputs = [] := by
      cases outputs with
      | nil => rfl
      | cons second outputs =>
        have hm : firstLine second ∈ pathRest (.bare path) := by
          rw [← hrest]
          simp
        exact absurd (isHeader_firstLine second) (by simp [hc.1 _ hm])
    subst hone
    rw [List.flatMap_nil, List.append_nil] at hrest
    -- a fact would be the last line of the path
    have hnone : output.facts = [] := by
      by_contra hne
      have hlast := List.getLast?_eq_some_getLast hne
      have hm : (pathRest (.bare path)).getLast? = some (output.facts.getLast hne).trap.toList := by
        rw [← hrest, List.getLast?_append, factLines, List.getLast?_map, hlast]
        rfl
      have hf := isFactLine_iff.mpr ⟨_, hn output List.mem_cons_self _ (List.getLast_mem hne), rfl⟩
      exact absurd hf (by simp [hc.2 _ hm])
    rw [factLines, hnone, List.map_nil, List.append_nil] at hrest
    rw [List.map_singleton, Output.section, hnone, path_eq hfirst hrest]
    rfl

/-- A path goes on after any line but the first. -/
theorem exists_toList_eq {path : String} {before after : List (List Char)} {line : List Char}
    (h : (path.toList.splitOn '\n').tail = before ++ line :: after) :
    ∃ front : String, path.toList =
      front.toList ++ '\n' :: ['\n'].intercalate (line :: after) := by
  have hp := splitOn_path (.bare path)
  rw [pathRest, Output.bare, h, ← List.cons_append] at hp
  refine ⟨String.ofList (['\n'].intercalate
    ((path.toList.splitOn '\n').headD [] :: before)), ?_⟩
  have hi : ['\n'].intercalate (path.toList.splitOn '\n') = path.toList :=
    List.intercalate_splitOn '\n'
  rw [hp, List.intercalate_append (List.cons_ne_nil _ _) (List.cons_ne_nil _ _), List.append_assoc,
    List.singleton_append] at hi
  rw [String.toList_ofList, hi]

/-- A path that is not clear shares the report of a file without facts with other outputs. -/
theorem exists_trap_eq {path : String} (hc : ¬IsClear path) :
    ∃ outputs : List Output, (∀ output ∈ outputs, output.IsNamed) ∧
      trap outputs = trap [.bare path] ∧ outputs.map Output.section ≠ [(path, [])] := by
  rw [IsClear, not_and_or] at hc
  rcases hc with hc | hc
  · -- a line that is that of a header begins another file
    push Not at hc
    obtain ⟨line, hm, hl⟩ := hc
    obtain ⟨before, after, hs⟩ := List.append_of_mem hm
    obtain ⟨front, hf⟩ := exists_toList_eq hs
    obtain ⟨rest, rfl⟩ : headerMark <+: line := by
      rw [← List.isPrefixOf_iff_prefix, ← isHeader]
      simpa using hl
    refine ⟨[.bare front, .bare (String.ofList (['\n'].intercalate (rest :: after)))], ?_, ?_, ?_⟩
    · simp [Output.IsNamed, Output.bare]
    · rw [← String.toList_inj]
      simp [trap, trapLines, Output.bare, hf, headerMark]
    · simp
  · -- a last line that is that of a fact states it of the path before
    push Not at hc
    obtain ⟨line, hm, hl⟩ := hc
    obtain ⟨fact, hn, rfl⟩ := isFactLine_iff.mp (by simpa using hl)
    obtain ⟨before, hs⟩ := List.getLast?_eq_some_iff.mp hm
    obtain ⟨front, hf⟩ := exists_toList_eq hs
    refine ⟨[{ Output.bare front with facts := [fact] }], ?_, ?_, ?_⟩
    · simpa [Output.IsNamed] using hn
    · rw [← String.toList_inj]
      simp [trap, trapLines, Output.bare, hf]
    · simp [Output.section]

/-- The path of a Swift file is clear, if no two slashes in it stand side by side. -/
theorem isClear_of_swift {path : String} (hs : ".swift".toList <:+ path.toList)
    (hn : ¬['/', '/'] <:+: path.toList) : IsClear path := by
  constructor
  · intro line hm
    obtain ⟨before, after, hl⟩ := List.append_of_mem hm
    obtain ⟨front, hf⟩ := exists_toList_eq hl
    by_contra hh
    have hp : headerMark <+: line := List.isPrefixOf_iff_prefix.mp (by simpa [isHeader] using hh)
    have hi : line <:+: path.toList := by
      rw [hf]
      cases after with
      | nil => exact ⟨front.toList ++ ['\n'], [], by simp⟩
      | cons next after =>
        exact ⟨front.toList ++ ['\n'], '\n' :: ['\n'].intercalate (next :: after), by simp⟩
    have hm : ['/', '/'] <+: headerMark := by decide
    exact hn ((hm.trans hp).isInfix.trans hi)
  · intro line hm
    by_contra hl
    obtain ⟨fact, -, rfl⟩ := isFactLine_iff.mp (by simpa using hl)
    obtain ⟨before, hb⟩ := List.getLast?_eq_some_iff.mp hm
    obtain ⟨front, hf⟩ := exists_toList_eq hb
    -- the last character would be the one that closes a fact
    have hc : path.toList.getLast? = some ')' := by
      rw [hf, List.intercalate_singleton, Fact.toList_trap]
      simp only [← List.cons_append, ← List.append_assoc, List.getLast?_concat]
    have ht : path.toList.getLast? = some 't' := by
      obtain ⟨stem, hp⟩ := hs
      rw [← hp]
      simp
    rw [hc] at ht
    cases ht

/-- The paths and facts of all files are determined by their trap report, if no path looks like
more than a path. A path that does shares its report with other outputs; one without line breaks
never does, nor does that of a Swift file. The output of a file has the path it was asked for, and
facts whose relations are named by letters. -/
theorem section_eq_of_trap (outputs others : List Output) (path : String) :
    ((∀ output ∈ outputs ++ others, output.IsNamed ∧ IsClear output.path) →
      trap outputs = trap others → outputs.map Output.section = others.map Output.section) ∧
    (IsClear path ↔ ∀ outputs : List Output, (∀ output ∈ outputs, output.IsNamed) →
      trap outputs = trap [.bare path] → outputs.map Output.section = [(path, [])]) ∧
    ('\n' ∉ path.toList → IsClear path) ∧
    (".swift".toList <:+ path.toList → ¬['/', '/'] <:+: path.toList → IsClear path) ∧
    ∀ (file : ParsedFile) (options : ExtractionOptions) (output : Output),
      file.extract path options = .ok output → output.path = path ∧ output.IsNamed := by
  refine ⟨?_, ?_, isClear_of_unbroken, isClear_of_swift, fun _ _ _ h => ?_⟩
  · intro h ht
    have reads : ∀ {list : List Output}, (∀ output ∈ list, output ∈ outputs ++ others) →
        sectionsOf? (trap list) = some (list.map Output.section) := by
      intro list hl
      exact sectionsOf?_trap (fun o ho => (h o (hl o ho)).1) fun o ho => (h o (hl o ho)).2
    have hr := reads fun o ho => List.mem_append_left others ho
    rw [ht, reads fun o ho => List.mem_append_right outputs ho] at hr
    exact (Option.some.inj hr).symm
  · constructor
    · exact fun hc outputs hn ht => section_eq_of_trap_eq hc hn ht
    · intro h
      by_contra hc
      obtain ⟨outputs, hn, ht, hne⟩ := exists_trap_eq hc
      exact hne (h outputs hn ht)
  · obtain ⟨hp, ht⟩ := ParsedFile.path_isTyped h
    exact ⟨hp, Output.isNamed_of_typed ht⟩

/-- A file that imports a module, as the grammar reads it. -/
def importFile : ParsedFile where
  tree := (Tree.ofRows? (.ofBytes "import Foo\n".toUTF8) [
    ⟨"source_file", true, 0, 11, none, 1, []⟩,
    ⟨"import_declaration", true, 0, 10, none, 2, []⟩,
    ⟨"import", false, 0, 6, none, 0, []⟩,
    ⟨"identifier", true, 7, 10, none, 1, []⟩,
    ⟨"simple_identifier", true, 7, 10, none, 0, []⟩]).getD default
  hasErrors := false

/-- A file without text, as the grammar reads it. -/
def emptyFile : ParsedFile where
  tree := (Tree.ofRows? (.ofBytes "".toUTF8)
    [⟨"source_file", true, 0, 0, none, 0, []⟩]).getD default
  hasErrors := false

/-- The report of a file that imports a module is that of a file without text, the path of which
has a line break and the fact of the import. -/
theorem section_eq_of_trap_brokenPath :
    ∃ output other : Output,
      importFile.extract "x" { emitLocations := false } = .ok output ∧
      emptyFile.extract "x\nimport_decls(#1, \"Foo\")" { emitLocations := false } = .ok other ∧
      trap [output] = trap [other] ∧
      output.section = ("x", [⟨"import_decls", [.node ⟨1⟩, .string "Foo"]⟩]) ∧
      other.section = ("x\nimport_decls(#1, \"Foo\")", []) := by
  obtain ⟨lowered, hl, ht, hk⟩ : ∃ file ∈ (importFile.tree.lower false).toOption,
      file.topLevel = [⟨0⟩] ∧ (file.ast.decl? ⟨0⟩).map (·.kind) = some (.importing "Foo") := by
    decide +kernel
  obtain ⟨empty, hl', ht'⟩ : ∃ file ∈ (emptyFile.tree.lower false).toOption,
      file.topLevel = [] := by
    decide +kernel
  obtain ⟨output, ho, hf⟩ := lowered.exists_extract_importing ht hk
  obtain ⟨other, ho', hf'⟩ := empty.exists_extract_nil ht' { emitLocations := false }
  refine ⟨_, _, ParsedFile.extract_of_lower (Tree.lower_of_mem_toOption hl) ho _,
    ParsedFile.extract_of_lower (Tree.lower_of_mem_toOption hl') ho' _, ?_, by
    rw [Output.section, hf], by
    rw [Output.section, hf']⟩
  simp only [trap, List.flatMap_singleton, trapLines, hf, hf']
  decide +kernel

end Report

end SwiftRelations
