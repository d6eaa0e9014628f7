import SwiftRelations.Text.Blank
import Mathlib.Data.List.Basic

/-!
# The words of a text

White space parts a text into words, and the words are all that a squeezed text keeps: squeezing
changes no word, and a text that is squeezed stays as it is.
-/

namespace SwiftRelations.Text

variable {c : Char} {w cs tail : List Char} {ws : List (List Char)}

/-- Whether a text is empty or begins with white space. -/
def Parted (cs : List Char) : Prop := ∀ c ∈ cs.head?, isBlank c = true

/-- Whether a list of characters is a word: there are some, and none is white space. -/
def IsWord (w : List Char) : Prop := w ≠ [] ∧ ∀ c ∈ w, isBlank c = false

/-- The empty text is parted from what is before it. -/
theorem parted_nil : Parted [] := by simp [Parted]

/-- A text that begins with white space is parted from what is before it. -/
theorem parted_cons (h : isBlank c = true) : Parted (c :: cs) := by simp [Parted, h]

/-- White space before a text adds no word. -/
theorem words_cons (h : isBlank c = true) : words (c :: cs) = words cs := by
  simp [words, splitWord, h, consWord]

/-- What stands before the first white space is the first word. -/
theorem splitWord_append (hw : ∀ c ∈ w, isBlank c = false) (ht : Parted tail) :
    splitWord (w ++ tail) = (w, words tail) := by
  induction w with
  | nil =>
    cases tail with
    | nil => rfl
    | cons c tail =>
      have hc : isBlank c = true := ht c rfl
      rw [words_cons hc]
      simp [splitWord, hc, words]
  | cons c w ih =>
    obtain ⟨hc, hw⟩ := List.forall_mem_cons.mp hw
    simp [splitWord, ih hw, hc]

/-- A word and the text that white space parts from it. -/
theorem words_append (hw : ∀ c ∈ w, isBlank c = false) (ht : Parted tail) :
    words (w ++ tail) = consWord w (words tail) := by
  simp only [words, splitWord_append hw ht]

private theorem isWord_of_mem_consWord {word : List Char} (hword : ∀ c ∈ word, isBlank c = false)
    (hws : ∀ w ∈ ws, IsWord w) : ∀ w ∈ consWord word ws, IsWord w := by
  cases word with
  | nil => exact hws
  | cons c word => exact List.forall_mem_cons.mpr ⟨⟨List.cons_ne_nil c word, hword⟩, hws⟩

/-- The words of a text are words. -/
theorem isWord_of_mem_words : ∀ w ∈ words cs, IsWord w := by
  have hsplit : (∀ c ∈ (splitWord cs).1, isBlank c = false) ∧
      ∀ w ∈ (splitWord cs).2, IsWord w := by
    induction cs with
    | nil => simp [splitWord]
    | cons c cs ih =>
      rw [splitWord]
      by_cases hc : isBlank c = true
      · simpa [hc] using isWord_of_mem_consWord ih.1 ih.2
      · have hc : isBlank c = false := eq_false_of_ne_true hc
        simpa [hc] using ih
  exact isWord_of_mem_consWord hsplit.1 hsplit.2

/-- Words with single spaces between them are the words of that text. -/
theorem words_intercalate (h : ∀ w ∈ ws, IsWord w) : words ([' '].intercalate ws) = ws := by
  induction ws with
  | nil => rfl
  | cons w ws ih =>
    obtain ⟨hw, hws⟩ := List.forall_mem_cons.mp h
    obtain ⟨c, w, rfl⟩ := List.exists_cons_of_ne_nil hw.1
    cases ws with
    | nil => simpa [words, splitWord, consWord] using words_append hw.2 parted_nil
    | cons w' ws =>
      have hblank : isBlank ' ' = true := by decide
      rw [List.intercalate_cons_cons, List.append_assoc, List.singleton_append,
        words_append hw.2 (parted_cons hblank), words_cons hblank, ih hws]
      rfl

/-- A squeezed text is its words with single spaces between them. -/
theorem toList_squeeze (s : String) : (squeeze s).toList = [' '].intercalate (words s.toList) := by
  simp [squeeze, Function.comp_def]

/-- Squeezing changes no word. -/
theorem words_squeeze (s : String) : words (squeeze s).toList = words s.toList := by
  rw [toList_squeeze, words_intercalate isWord_of_mem_words]

/-- A squeezed text stays as it is. -/
theorem squeeze_squeeze (s : String) : squeeze (squeeze s) = squeeze s := by
  rw [squeeze, words_squeeze, ← squeeze]

/-- Words in a row begin with the first of them, so not with white space. -/
theorem head?_intercalate (h : ∀ w ∈ ws, IsWord w) :
    ∀ c ∈ ([' '].intercalate ws).head?, isBlank c = false := by
  cases ws with
  | nil => simp
  | cons w ws =>
    obtain ⟨hw, -⟩ := List.forall_mem_cons.mp h
    obtain ⟨c, w, rfl⟩ := List.exists_cons_of_ne_nil hw.1
    cases ws with
    | nil => simpa using hw.2 c List.mem_cons_self
    | cons w' ws => simpa [List.intercalate_cons_cons] using hw.2 c List.mem_cons_self

/-- Words in a row end with the last of them, so not with white space. -/
theorem getLast?_intercalate (h : ∀ w ∈ ws, IsWord w) :
    ∀ c ∈ ([' '].intercalate ws).getLast?, isBlank c = false := by
  induction ws with
  | nil => simp
  | cons w ws ih =>
    obtain ⟨hw, hws⟩ := List.forall_mem_cons.mp h
    cases ws with
    | nil => simpa using fun c hc => hw.2 c (List.mem_of_getLast? hc)
    | cons w' ws =>
      have hne : [' '].intercalate (w' :: ws) ≠ [] := by
        have := (hws w' List.mem_cons_self).1
        cases ws <;> simp [List.intercalate_cons_cons, this]
      rw [List.intercalate_cons_cons, List.getLast?_append_of_ne_nil _ hne]
      exact ih hws

/-- A text without white space at its ends stays as it is when it is trimmed. -/
theorem trim_of_ends {s : String} (hh : ∀ c ∈ s.toList.head?, isBlank c = false)
    (hl : ∀ c ∈ s.toList.getLast?, isBlank c = false) : trim s = s := by
  have hdrop {l : List Char} (hl : ∀ c ∈ l.head?, isBlank c = false) : l.dropWhile isBlank = l := by
    cases l with
    | nil => rfl
    | cons c l => rw [List.dropWhile_cons, hl c rfl]; rfl
  rw [trim, dropEndWhile, hdrop hh, hdrop (by simpa using hl), List.reverse_reverse,
    String.ofList_toList]

/-- There is no white space around a squeezed text. -/
theorem trim_squeeze (s : String) : trim (squeeze s) = squeeze s := by
  apply trim_of_ends
  · rw [toList_squeeze]
    exact head?_intercalate isWord_of_mem_words
  · rw [toList_squeeze]
    exact getLast?_intercalate isWord_of_mem_words

end SwiftRelations.Text
