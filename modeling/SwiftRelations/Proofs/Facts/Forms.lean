import SwiftRelations.Proofs.Extraction.Success
import SwiftRelations.Proofs.Text.Json

/-!
# The two forms of a fact

A fact is written as a trap line and as a JSON text. The trap line determines it. In JSON a label is
the string of its written form, so the JSON text determines a fact up to that; and it determines a
fact of the schema, where the relation tells which columns hold labels.
-/

namespace SwiftRelations

open SwiftRelations.Text

/-- The argument with a label given as the string of its written form. -/
def Value.spelled : Value Label → Value Label
  | .node label => .string label.text
  | value => value

/-- The fact with its labels given as the strings of their written forms. -/
def Fact.spelled (fact : Fact Label) : Fact Label :=
  { fact with args := fact.args.map (·.spelled) }

/-- Labels are written differently. -/
theorem Label.text_injective : Function.Injective Label.text := by
  intro l m h
  have hr : l.number.repr = m.number.repr := by
    rw [← String.toList_inj]
    have ht := congrArg String.toList h
    simp only [Label.text, String.toList_append] at ht
    exact List.append_cancel_left ht
  have hn := congrArg String.toNat? hr
  rw [Nat.toNat?_repr, Nat.toNat?_repr, Option.some.injEq] at hn
  cases l
  cases m
  exact congrArg Label.mk hn

/-- The JSON form of an argument is that of any other that is spelled alike. -/
theorem Value.toJson_eq_iff {v w : Value Label} : v.toJson = w.toJson ↔ v.spelled = w.spelled := by
  cases v <;> cases w <;> simp [Value.toJson, Value.spelled]

/-- Arguments have the same JSON forms if they are spelled alike. -/
theorem map_toJson_eq_iff {vs ws : List (Value Label)} :
    vs.map (·.toJson) = ws.map (·.toJson) ↔ vs.map (·.spelled) = ws.map (·.spelled) := by
  induction vs generalizing ws with
  | nil => cases ws <;> simp
  | cons v vs ih =>
    cases ws with
    | nil => simp
    | cons w ws => simp only [List.map_cons, List.cons.injEq, Value.toJson_eq_iff, ih]

namespace Fact

variable {f g : Fact Label}

/-- Facts have the same JSON text exactly if they are spelled alike. -/
theorem json_eq_iff_spelled : f.json = g.json ↔ f.spelled = g.spelled := by
  rw [json, json, Json.compact_injective.eq_iff]
  simp only [toJson, spelled, Json.object.injEq, List.cons.injEq, Prod.mk.injEq, true_and,
    Json.string.injEq, Json.array.injEq, and_true, Fact.mk.injEq, map_toJson_eq_iff]

/-- The trap line of a fact that is named by letters determines it. -/
theorem trap_eq_iff (hf : f.IsNamed) (hg : g.IsNamed) : f.trap = g.trap ↔ f = g := by
  constructor
  · intro h
    have hr := ofTrap?_eq_some_iff.mpr ⟨hf, rfl⟩
    rw [h, ofTrap?_eq_some_iff.mpr ⟨hg, rfl⟩] at hr
    exact (Option.some.inj hr).symm
  · exact congrArg trap

end Fact

/-- In a column, arguments that are spelled alike are the same. -/
theorem Column.Takes.eq_of_spelled {column : Column} {v w : Value Label} (hv : column.Takes v)
    (hw : column.Takes w) (h : v.spelled = w.spelled) : v = w := by
  cases v with
  | node l =>
    cases w with
    | node m =>
      have ht : l.text = m.text := by simpa [Value.spelled] using h
      rw [Label.text_injective ht]
    | string s => cases column <;> first | exact hv.elim | exact hw.elim
    | _ => cases h
  | string s =>
    cases w with
    | node m => cases column <;> first | exact hv.elim | exact hw.elim
    | _ => exact h
  | _ => cases w <;> first | exact h | cases h

/-- Arguments in the same columns that are spelled alike are the same. -/
theorem eq_of_map_spelled {columns : List Column} {vs ws : List (Value Label)}
    (hv : List.Forall₂ Column.Takes columns vs) (hw : List.Forall₂ Column.Takes columns ws)
    (h : vs.map (·.spelled) = ws.map (·.spelled)) : vs = ws := by
  induction hv generalizing ws with
  | nil =>
    cases hw
    rfl
  | cons takes _ ih =>
    cases hw with
    | cons takes' hw =>
      obtain ⟨hhead, htail⟩ := List.cons.inj h
      rw [takes.eq_of_spelled takes' hhead, ih hw htail]

/-- The columns of a relation are known. -/
theorem eq_of_mem_schema {relation : String} {columns others : List Column}
    (h : (relation, columns) ∈ schema) (h' : (relation, others) ∈ schema) : columns = others :=
  congrArg Prod.snd (List.inj_on_of_nodup_map schema_nodup h h' rfl)

/-- Facts of the schema that are spelled alike are the same. -/
theorem Fact.IsTyped.eq_of_spelled {f g : Fact Label} (hf : f.IsTyped) (hg : g.IsTyped)
    (h : f.spelled = g.spelled) : f = g := by
  obtain ⟨columns, hm, hc⟩ := hf
  obtain ⟨others, hm', hc'⟩ := hg
  rw [Fact.spelled, Fact.spelled, Fact.mk.injEq] at h
  obtain ⟨hr, ha⟩ := h
  rw [hr] at hm
  obtain rfl := eq_of_mem_schema hm hm'
  cases f
  cases g
  rw [Fact.mk.injEq]
  exact ⟨hr, eq_of_map_spelled hc hc' ha⟩

/-- The trap lines of two facts that are named by letters are equal exactly if the facts are, and
their JSON texts exactly if the facts are once labels are given as the strings of their written
forms. Of facts of the schema, which are those that extraction results in, the JSON texts are equal
exactly if the trap lines are. -/
theorem Fact.forms_eq_iff {f g : Fact Label} (hf : f.IsNamed) (hg : g.IsNamed) :
    (f.trap = g.trap ↔ f = g) ∧ (f.json = g.json ↔ f.spelled = g.spelled) ∧
      (f.IsTyped → g.IsTyped → (f.json = g.json ↔ f.trap = g.trap)) ∧
      ∀ (file : ParsedFile) (path : String) (options : ExtractionOptions) (output : Output),
        file.extract path options = .ok output → ∀ fact ∈ output.facts, fact.IsTyped := by
  refine ⟨trap_eq_iff hf hg, json_eq_iff_spelled, fun tf tg => ?_, ?_⟩
  · rw [trap_eq_iff hf hg, json_eq_iff_spelled]
    exact ⟨tf.eq_of_spelled tg, congrArg Fact.spelled⟩
  · exact fun file path options output h => (ParsedFile.path_isTyped h).2

/-- A boolean and a word in the same place are told apart by both forms. -/
theorem Fact.forms_eq_iff_wordTrue :
    let f : Fact Label := ⟨"var_decls", [.node ⟨2⟩, .string "x", .bool true]⟩
    let g : Fact Label := ⟨"var_decls", [.node ⟨2⟩, .string "x", .string "true"]⟩
    f.IsNamed ∧ g.IsNamed ∧
      (f.trap = g.trap ↔ f = g) ∧ (f.json = g.json ↔ f.spelled = g.spelled) ∧
      (f.IsTyped → g.IsTyped → (f.json = g.json ↔ f.trap = g.trap)) ∧
      ∀ (file : ParsedFile) (path : String) (options : ExtractionOptions) (output : Output),
        file.extract path options = .ok output → ∀ fact ∈ output.facts, fact.IsTyped := by
  intro f g
  have hf : f.IsNamed := by decide
  have hg : g.IsNamed := by decide
  exact ⟨hf, hg, Fact.forms_eq_iff hf hg⟩

/-- A label and the string of its written form are told apart by the trap line alone. -/
theorem Fact.forms_eq_iff_spelledLabel :
    ∃ f g : Fact Label, f.IsNamed ∧ g.IsNamed ∧ f ≠ g ∧ f.trap ≠ g.trap ∧ f.json = g.json :=
  ⟨⟨"import_decls", [.node ⟨1⟩, .string "Foo"]⟩, ⟨"import_decls", [.string "#1", .string "Foo"]⟩,
    by decide, by decide, by decide, by decide, by decide⟩

end SwiftRelations
