import SwiftRelations.Data.List
import SwiftRelations.Facts.Fact
import SwiftRelations.Proofs.Text.Digits
import SwiftRelations.Proofs.Text.Lines

/-!
# Reading trap lines

A trap line is read back: the name of the relation up to the parenthesis, then the arguments between
the commas that stand outside quotes, each by its first character. Since a line break inside a
quoted argument is escaped, the lines of facts are as many as the facts, and they determine the
facts, with the kind and the value of each argument.
-/

namespace SwiftRelations

open SwiftRelations.Text

/-- Whether a character may stand in the name of a relation. -/
def isNameChar (c : Char) : Bool := c.isLower || c = '_'

/-- Whether the name of the relation consists of lower-case letters and underscores. -/
def Fact.IsNamed {ν : Type} (fact : Fact ν) : Prop :=
  ∀ c ∈ fact.relation.toList, isNameChar c = true

/-- Whether a fact is named can be computed. -/
instance {ν : Type} (fact : Fact ν) : Decidable fact.IsNamed :=
  List.decidableBAll (isNameChar · = true) fact.relation.toList

/-- The trap lines of facts. -/
def trapText (facts : List (Fact Label)) : String := ofLines (facts.map (·.trap))

/-! ### A reader -/

/-- The character that is written by a backslash and another character. -/
def unescape? : Char → Option Char
  | '"' => some '"'
  | '\\' => some '\\'
  | 'n' => some '\n'
  | 'r' => some '\r'
  | 't' => some '\t'
  | _ => none

/-- The text that stands before a closing quote. -/
def unquote? : List Char → Option (List Char)
  | [] => none
  | ['"'] => some []
  | '\\' :: c :: cs => do return (← unescape? c) :: (← unquote? cs)
  | c :: cs => (unquote? cs).map (c :: ·)

/-- The argument that a text writes. -/
def Value.ofTrap? : List Char → Option (Value Label)
  | '"' :: cs => (unquote? cs).map fun s => .string (String.ofList s)
  | '#' :: cs => (String.ofList cs).toNat?.map fun n => .node ⟨n⟩
  | ['t', 'r', 'u', 'e'] => some (.bool true)
  | ['f', 'a', 'l', 's', 'e'] => some (.bool false)
  | cs => (String.ofList cs).toInt?.map .int

/-- The texts between the commas that stand outside quotes. `quoted` says whether the text begins
between quotes. -/
def splitArguments : Bool → List Char → List (List Char)
  | _, [] => [[]]
  | true, '\\' :: c :: cs => (splitArguments true cs).modifyHead ('\\' :: c :: ·)
  | false, ',' :: ' ' :: cs => [] :: splitArguments false cs
  | quoted, c :: cs => (splitArguments (quoted != decide (c = '"')) cs).modifyHead (c :: ·)

/-- The arguments that stand between parentheses. -/
def argumentsOf? (cs : List Char) : Option (List (Value Label)) :=
  if cs.isEmpty then some [] else (splitArguments false cs).mapM Value.ofTrap?

/-- The fact whose trap line a text is. -/
def Fact.ofTrap? (line : List Char) : Option (Fact Label) :=
  let relation := String.ofList (line.takeWhile (· != '('))
  let inner := ((line.dropWhile (· != '(')).drop 1).dropLast
  ((argumentsOf? inner).map fun args => { relation, args }).filter fun fact =>
    decide (fact.IsNamed ∧ fact.trap.toList = line)

/-- The facts whose trap lines a text consists of. -/
def factsOf? (text : String) : Option (List (Fact Label)) := (lines text).mapM Fact.ofTrap?

/-! ### Arguments -/

/-- A character stands in quotes as it is, or behind a backslash as one that is read as it. -/
theorem trapChar_cases (c : Char) :
    (c ≠ '"' ∧ c ≠ '\\' ∧ c ≠ '\n' ∧ trapChar c = [c]) ∨
      ∃ e, unescape? e = some c ∧ trapChar c = ['\\', e] := by
  by_cases hq : c = '"'
  · exact .inr ⟨'"', by rw [hq]; rfl, by rw [hq]; rfl⟩
  by_cases hb : c = '\\'
  · exact .inr ⟨'\\', by rw [hb]; rfl, by rw [hb]; rfl⟩
  by_cases hn : c = '\n'
  · exact .inr ⟨'n', by rw [hn]; rfl, by rw [hn]; rfl⟩
  by_cases hr : c = '\r'
  · exact .inr ⟨'r', by rw [hr]; rfl, by rw [hr]; rfl⟩
  by_cases ht : c = '\t'
  · exact .inr ⟨'t', by rw [ht]; rfl, by rw [ht]; rfl⟩
  exact .inl ⟨hq, hb, hn, by simp [trapChar, hq, hb, hn, hr, ht]⟩

/-- A text in quotes is read back. -/
theorem unquote?_trapChar (s : List Char) : unquote? (s.flatMap trapChar ++ ['"']) = some s := by
  induction s with
  | nil => rfl
  | cons c s ih =>
    rw [List.flatMap_cons, List.append_assoc]
    rcases trapChar_cases c with ⟨hq, hb, -, ht⟩ | ⟨e, he, ht⟩
    · simp [ht, unquote?, hq, hb, ih]
    · simp [ht, unquote?, he, ih]

/-- The text of a label is a mark and digits. -/
theorem toList_trap_node (label : Label) :
    (Value.node label).trap.toList = '#' :: label.number.repr.toList := by
  rw [Value.trap, Label.text, String.toList_append]
  rfl

/-- An argument is read back. -/
theorem Value.ofTrap?_trap (v : Value Label) : Value.ofTrap? v.trap.toList = some v := by
  cases v with
  | node label =>
    rw [toList_trap_node, Value.ofTrap?, String.ofList_toList, Nat.toNat?_repr, Option.map_some]
  | string s => simp [Value.trap, Value.ofTrap?, unquote?_trapChar]
  | bool b => cases b <;> rfl
  | int n =>
    have hn : (toString n).toInt? = some n := Int.toInt?_repr n
    have hc : ∀ c ∈ (toString n).toList, c = '-' ∨ c.isDigit = true :=
      fun c hc => isDigit_of_mem_toString hc
    rw [Value.trap]
    -- no other form begins with a sign or a digit
    unfold Value.ofTrap?
    split
    case h_5 => rw [String.ofList_toList, hn, Option.map_some]
    all_goals next he => exact absurd (hc _ (he ▸ List.mem_cons_self)) (by decide)

/-! ### Lists of arguments -/

/-- A character that is neither a quote nor a comma parts nothing. -/
theorem splitArguments_cons {c : Char} (hq : c ≠ '"') (hc : c ≠ ',') (cs : List Char) :
    splitArguments false (c :: cs) = (splitArguments false cs).modifyHead (c :: ·) := by
  simp [splitArguments, hq, hc]

/-- A text without quotes and commas is part of one argument. -/
theorem splitArguments_append {text : List Char} (h : ∀ c ∈ text, c ≠ '"' ∧ c ≠ ',')
    (tail : List Char) :
    splitArguments false (text ++ tail) = (splitArguments false tail).modifyHead (text ++ ·) := by
  induction text with
  | nil => exact (congrFun List.modifyHead_id _).symm
  | cons c text ih =>
    obtain ⟨⟨hq, hc⟩, ht⟩ := List.forall_mem_cons.mp h
    rw [List.cons_append, splitArguments_cons hq hc, ih ht, List.modifyHead_modifyHead]
    rfl

/-- Between quotes nothing is parted up to the closing quote. -/
theorem splitArguments_trapChar (s tail : List Char) :
    splitArguments true (s.flatMap trapChar ++ '"' :: tail) =
      (splitArguments false tail).modifyHead (s.flatMap trapChar ++ '"' :: ·) := by
  induction s with
  | nil => simp [splitArguments]
  | cons c s ih =>
    rw [List.flatMap_cons, List.append_assoc]
    rcases trapChar_cases c with ⟨hq, hb, -, ht⟩ | ⟨e, -, ht⟩
    · simp [ht, splitArguments, hq, hb, ih, Function.comp_def]
    · simp [ht, splitArguments, ih, Function.comp_def]

/-- The text of an argument is part of one argument. -/
theorem splitArguments_trap (v : Value Label) (tail : List Char) :
    splitArguments false (v.trap.toList ++ tail) =
      (splitArguments false tail).modifyHead (v.trap.toList ++ ·) := by
  have bare : ∀ c : Char, c.isDigit = true → c ≠ '"' ∧ c ≠ ',' := by
    rintro c hd
    constructor <;> rintro rfl <;> exact absurd hd (by decide)
  cases v with
  | string s =>
    simp [Value.trap, splitArguments, splitArguments_trapChar, Function.comp_def]
  | node label =>
    rw [toList_trap_node]
    apply splitArguments_append
    exact List.forall_mem_cons.mpr ⟨by decide, fun c hc => bare c (isDigit_of_mem_repr hc)⟩
  | int n =>
    apply splitArguments_append
    intro c hc
    rcases isDigit_of_mem_toString hc with rfl | hd
    · decide
    · exact bare c hd
  | bool b =>
    apply splitArguments_append
    cases b <;> simp [Value.trap]

/-- Arguments with commas between them are parted again. -/
theorem splitArguments_intercalate (v : Value Label) (vs : List (Value Label)) :
    splitArguments false (", ".intercalate ((v :: vs).map (·.trap))).toList =
      (v :: vs).map (·.trap.toList) := by
  induction vs generalizing v with
  | nil => simpa [splitArguments] using splitArguments_trap v []
  | cons w vs ih =>
    have hc : ∀ cs, splitArguments false (", ".toList ++ cs) = [] :: splitArguments false cs :=
      fun cs => by simp [splitArguments]
    rw [List.map_cons, List.map_cons, String.intercalate_cons_cons, String.toList_append,
      String.toList_append, List.append_assoc, splitArguments_trap, hc, ← List.map_cons, ih w,
      List.modifyHead_cons, List.append_nil]
    rfl

/-- No argument is the empty text. -/
theorem trap_ne_empty (v : Value Label) : v.trap ≠ "" := by
  cases v with
  | node label => simp [Value.trap, Label.text]
  | string s => simp [Value.trap]
  | bool b => cases b <;> decide
  | int n => exact toString_int_ne_empty n

/-- The arguments between parentheses are read back. -/
theorem argumentsOf?_intercalate (args : List (Value Label)) :
    argumentsOf? (", ".intercalate (args.map (·.trap))).toList = some args := by
  cases args with
  | nil => rfl
  | cons v vs =>
    have hne : (", ".intercalate ((v :: vs).map (·.trap))).toList ≠ [] := by
      cases vs <;> simp [String.intercalate_cons_cons, trap_ne_empty]
    rw [argumentsOf?, if_neg (by simpa using hne), splitArguments_intercalate,
      List.mapM_map_eq_some fun v _ => v.ofTrap?_trap, List.map_id']

/-! ### Facts -/

/-- A trap line is the name of the relation and the arguments between parentheses. -/
theorem Fact.toList_trap (fact : Fact Label) :
    fact.trap.toList = fact.relation.toList ++
      '(' :: ((", ".intercalate (fact.args.map (·.trap))).toList ++ [')']) := by
  simp [Fact.trap]

/-- A text is read as a fact exactly if it is the trap line of that fact, whose relation is named by
letters. -/
theorem Fact.ofTrap?_eq_some_iff {line : List Char} {fact : Fact Label} :
    Fact.ofTrap? line = some fact ↔ fact.IsNamed ∧ fact.trap.toList = line := by
  constructor
  · intro h
    exact of_decide_eq_true (Option.filter_eq_some_iff.mp h).2
  · rintro ⟨hn, rfl⟩
    have hp : ∀ c ∈ fact.relation.toList, (c != '(') = true := by
      intro c hc
      have hb : c ≠ '(' := by
        rintro rfl
        exact absurd (hn _ hc) (by decide)
      simpa using hb
    have ht : fact.trap.toList.takeWhile (· != '(') = fact.relation.toList := by
      rw [fact.toList_trap, List.takeWhile_append_of_pos hp, List.takeWhile_cons_of_neg (by simp),
        List.append_nil]
    have hd : ((fact.trap.toList.dropWhile (· != '(')).drop 1).dropLast =
        (", ".intercalate (fact.args.map (·.trap))).toList := by
      rw [fact.toList_trap, List.dropWhile_append_of_pos hp, List.dropWhile_cons_of_neg (by simp),
        List.drop_one, List.tail_cons, List.dropLast_concat]
    rw [Fact.ofTrap?, ht, hd, argumentsOf?_intercalate, Option.map_some, String.ofList_toList]
    exact Option.filter_eq_some_iff.mpr ⟨rfl, decide_eq_true ⟨hn, rfl⟩⟩

/-- A character of a quoted text is no line break. -/
theorem newline_notMem_trapChar (c : Char) : '\n' ∉ trapChar c := by
  rcases trapChar_cases c with ⟨-, -, hn, ht⟩ | ⟨e, he, ht⟩
  · rw [ht, List.mem_singleton]
    exact hn.symm
  · have hne : e ≠ '\n' := by
      rintro rfl
      cases he
    rw [ht]
    simp [hne.symm]

/-- An argument breaks no line. -/
theorem Value.newline_notMem_trap (v : Value Label) : '\n' ∉ v.trap.toList := by
  have digit : ('\n').isDigit ≠ true := by decide
  cases v with
  | node label =>
    rw [toList_trap_node, List.mem_cons, not_or]
    exact ⟨by decide, fun h => digit (isDigit_of_mem_repr h)⟩
  | string s =>
    have hs : '\n' ∉ s.toList.flatMap trapChar := by
      rw [List.mem_flatMap]
      rintro ⟨c, -, hc⟩
      exact newline_notMem_trapChar c hc
    simpa [Value.trap] using hs
  | int n =>
    intro h
    rcases isDigit_of_mem_toString h with he | hd
    · exact absurd he (by decide)
    · exact digit hd
  | bool b => cases b <;> decide

/-- The trap line of a fact is one line. -/
theorem Fact.newline_notMem_trap {fact : Fact Label} (h : fact.IsNamed) :
    '\n' ∉ fact.trap.toList := by
  have ha : '\n' ∉ (", ".intercalate (fact.args.map (·.trap))).toList := by
    induction fact.args with
    | nil => decide
    | cons v vs ih =>
      cases vs with
      | nil => simpa using v.newline_notMem_trap
      | cons w vs =>
        rw [List.map_cons] at ih
        rw [List.map_cons, List.map_cons, String.intercalate_cons_cons]
        simp only [String.toList_append, List.mem_append, not_or]
        exact ⟨⟨v.newline_notMem_trap, by decide⟩, ih⟩
  have hr : '\n' ∉ fact.relation.toList := fun hm => absurd (h _ hm) (by decide)
  rw [fact.toList_trap]
  simp only [List.mem_append, List.mem_cons, not_or]
  exact ⟨hr, by decide, ha, by decide, List.not_mem_nil⟩

variable {facts : List (Fact Label)}

/-- The trap lines of facts are lines. -/
theorem unbroken_of_named (h : ∀ fact ∈ facts, fact.IsNamed) :
    ∀ l ∈ facts.map (·.trap), '\n' ∉ l.toList := by
  intro l hl
  obtain ⟨fact, hf, rfl⟩ := List.mem_map.mp hl
  exact Fact.newline_notMem_trap (h fact hf)

/-- Facts are read back from their lines. -/
theorem mapM_ofTrap?_map (h : ∀ fact ∈ facts, fact.IsNamed) :
    (facts.map (·.trap.toList)).mapM Fact.ofTrap? = some facts := by
  have hr : ∀ fact ∈ facts, Fact.ofTrap? fact.trap.toList = some fact :=
    fun fact hf => Fact.ofTrap?_eq_some_iff.mpr ⟨h fact hf, rfl⟩
  rw [List.mapM_map_eq_some hr, List.map_id']

/-- The trap lines of facts are as many as the facts, and are read back: every relation, and every
argument with its kind and its value. So they determine the facts. -/
theorem factsOf?_trapText (h : ∀ fact ∈ facts, fact.IsNamed) :
    (trapText facts).toList.count '\n' = facts.length ∧
      factsOf? (trapText facts) = some facts ∧
      ∀ others, (∀ fact ∈ others, fact.IsNamed) → trapText others = trapText facts →
        others = facts := by
  have reads : ∀ {facts}, (∀ fact ∈ facts, fact.IsNamed) →
      factsOf? (trapText facts) = some facts := by
    intro facts h
    rw [factsOf?, trapText, lines_ofLines_of_unbroken (unbroken_of_named h), List.map_map]
    exact mapM_ofTrap?_map h
  refine ⟨?_, reads h, ?_⟩
  · rw [trapText, count_ofLines (unbroken_of_named h), List.length_map]
  · intro others ho he
    have hr := reads ho
    rw [he, reads h] at hr
    exact (Option.some.inj hr).symm

/-- A line break, quotes and what looks like another fact are read back from inside a string. -/
theorem factsOf?_trapText_forgedLine :
    let facts : List (Fact Label) :=
      [⟨"string_literal_exprs", [.node ⟨7⟩, .string "\", #8)\nbreak_stmts(#9)\\"]⟩,
        ⟨"func_decl_params", [.node ⟨1⟩, .int (-2), .node ⟨3⟩, .bool false]⟩, ⟨"_", []⟩]
    (∀ fact ∈ facts, fact.IsNamed) ∧ (trapText facts).toList.count '\n' = facts.length ∧
      factsOf? (trapText facts) = some facts ∧
      ∀ others, (∀ fact ∈ others, fact.IsNamed) → trapText others = trapText facts →
        others = facts := by
  intro facts
  have h : ∀ fact ∈ facts, fact.IsNamed := by decide
  exact ⟨h, factsOf?_trapText h⟩

end SwiftRelations
