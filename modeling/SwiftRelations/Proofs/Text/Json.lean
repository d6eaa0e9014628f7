import Mathlib.Tactic.SplitIfs
import SwiftRelations.Data.List
import SwiftRelations.Proofs.Text.Digits
import SwiftRelations.Text.Json

/-!
# Reading JSON texts

The compact text of a JSON value determines the value. A string is read back up to its closing
quote, character by character; a number ends where no digit follows; and the first character of a
value tells which form it has, and is none that closes a list.
-/

namespace SwiftRelations.Text

/-! ### Strings -/

/-- The value of a lower-case hexadecimal digit. -/
def hexValue (c : Char) : Nat := if c.toNat < 58 then c.toNat - 48 else c.toNat - 87

/-- The character that is written by a backslash and another character. -/
def jsonUnescape? : Char → Option Char
  | '"' => some '"'
  | '\\' => some '\\'
  | 'n' => some '\n'
  | 'r' => some '\r'
  | 't' => some '\t'
  | 'b' => some (Char.ofNat 8)
  | 'f' => some (Char.ofNat 12)
  | _ => none

/-- The first character that stands in a JSON string, and what follows it. -/
def jsonRead? : List Char → Option (Char × List Char)
  | '\\' :: 'u' :: _ :: _ :: high :: low :: cs =>
    some (Char.ofNat (16 * hexValue high + hexValue low), cs)
  | '\\' :: c :: cs => (jsonUnescape? c).map (·, cs)
  | c :: cs => some (c, cs)
  | [] => none

/-- A control character is read back from its hexadecimal digits. -/
theorem hexValue_hexDigit : ∀ n < 32,
    16 * hexValue (hexDigit (n / 16)) + hexValue (hexDigit (n % 16)) = n := by
  decide

/-- A character is read back from a JSON string. -/
theorem jsonRead?_jsonChar (c : Char) (cs : List Char) :
    jsonRead? (jsonChar c ++ cs) = some (c, cs) := by
  rw [jsonChar]
  split_ifs with hq hb hn hr ht h8 h12 hc
  · rw [hq]; rfl
  · rw [hb]; rfl
  · rw [hn]; rfl
  · rw [hr]; rfl
  · rw [ht]; rfl
  · rw [← Char.ofNat_toNat c, h8]; rfl
  · rw [← Char.ofNat_toNat c, h12]; rfl
  · show some (Char.ofNat _, cs) = _
    rw [hexValue_hexDigit _ hc, Char.ofNat_toNat]
  · simp [jsonRead?, hb]

/-- No character of a JSON string begins with the closing quote. -/
theorem jsonChar_append_ne (c : Char) (cs tail : List Char) : jsonChar c ++ cs ≠ '"' :: tail := by
  intro h
  have hr := jsonRead?_jsonChar c cs
  rw [h] at hr
  -- only a quote is read from a bare quote, and a quote is not written bare
  have hc : c = '"' := (Prod.mk.inj (Option.some.inj hr)).1.symm
  rw [hc] at h
  exact absurd h (by simp [jsonChar])

/-- The characters of a JSON string and what follows it are told apart. -/
theorem jsonChars_append_inj {a b s t : List Char}
    (h : a.flatMap jsonChar ++ '"' :: s = b.flatMap jsonChar ++ '"' :: t) : a = b ∧ s = t := by
  induction a generalizing b with
  | nil =>
    cases b with
    | nil => exact ⟨rfl, (List.cons.inj h).2⟩
    | cons d b =>
      rw [List.flatMap_cons, List.append_assoc] at h
      exact absurd h.symm (jsonChar_append_ne d _ _)
  | cons c a ih =>
    rw [List.flatMap_cons, List.append_assoc] at h
    cases b with
    | nil => exact absurd h (jsonChar_append_ne c _ _)
    | cons d b =>
      rw [List.flatMap_cons, List.append_assoc] at h
      have hr := congrArg jsonRead? h
      rw [jsonRead?_jsonChar, jsonRead?_jsonChar, Option.some.injEq, Prod.mk.injEq] at hr
      obtain ⟨rfl, hs⟩ := hr
      obtain ⟨rfl, hst⟩ := ih hs
      exact ⟨rfl, hst⟩

/-- A JSON string and what follows it are told apart. -/
theorem jsonString_append_inj {a b : String} {s t : List Char}
    (h : (jsonString a).toList ++ s = (jsonString b).toList ++ t) : a = b ∧ s = t := by
  have hc : a.toList.flatMap jsonChar ++ '"' :: s = b.toList.flatMap jsonChar ++ '"' :: t := by
    simpa [jsonString] using h
  obtain ⟨ha, hs⟩ := jsonChars_append_inj hc
  exact ⟨String.toList_inj.mp ha, hs⟩

/-! ### Lists -/

section

variable {α : Type} {write : α → String}

/-- Whether the text of an item is told from that of others and from what follows it, unless that
goes on like a number. -/
def Delimited (write : α → String) (a : α) : Prop :=
  ∀ (b : α) (s t : List Char), EndsInt s → EndsInt t →
    (write a).toList ++ s = (write b).toList ++ t → a = b ∧ s = t

/-- The items of a list after the first, each behind a comma, up to what closes the list. -/
def listRest (write : α → String) (items : List α) (closing : Char) (tail : List Char) :
    List Char :=
  (items.flatMap fun a => ',' :: (write a).toList) ++ closing :: tail

/-- The text of a list that is not empty, up to what closes the list. -/
theorem toList_intercalate_append (a : α) (items : List α) (closing : Char) (tail : List Char) :
    (",".intercalate ((a :: items).map write)).toList ++ closing :: tail =
      (write a).toList ++ listRest write items closing tail := by
  rw [List.map_cons, String.toList_intercalate_cons, List.flatMap_map, List.append_assoc]
  rfl

variable {closing : Char} {items : List α}

/-- A number before the rest of a list ends there. -/
theorem endsInt_listRest (hc : isIntChar closing = false) (items : List α) (tail : List Char) :
    EndsInt (listRest write items closing tail) := by
  intro c h
  cases items with
  | nil =>
    cases h
    exact hc
  | cons a items =>
    cases h
    rfl

/-- The items after the first and what follows the list are told apart. -/
theorem listRest_inj (hc : isIntChar closing = false) (hne : closing ≠ ',')
    (h : ∀ a ∈ items, Delimited write a) {others : List α} {s t : List Char}
    (he : listRest write items closing s = listRest write others closing t) :
    items = others ∧ s = t := by
  induction items generalizing others with
  | nil =>
    cases others with
    | nil => exact ⟨rfl, (List.cons.inj he).2⟩
    | cons b others => exact absurd (List.cons.inj he).1 hne
  | cons a items ih =>
    obtain ⟨ha, hi⟩ := List.forall_mem_cons.mp h
    cases others with
    | nil => exact absurd (List.cons.inj he).1.symm hne
    | cons b others =>
      simp only [listRest, List.flatMap_cons, List.cons_append, List.append_assoc,
        List.cons.injEq, true_and] at he
      obtain ⟨rfl, hr⟩ := ha b _ _ (endsInt_listRest hc items s) (endsInt_listRest hc others t) he
      obtain ⟨rfl, hs⟩ := ih hi hr
      exact ⟨rfl, hs⟩

/-- The items of a list and what follows it are told apart, if no item begins like the closing of
the list. -/
theorem list_append_inj (hc : isIntChar closing = false) (hne : closing ≠ ',')
    (hw : ∀ a s t, (write a).toList ++ s ≠ closing :: t) (h : ∀ a ∈ items, Delimited write a)
    {others : List α} {s t : List Char}
    (he : (",".intercalate (items.map write)).toList ++ closing :: s =
      (",".intercalate (others.map write)).toList ++ closing :: t) :
    items = others ∧ s = t := by
  cases items with
  | nil =>
    cases others with
    | nil => exact ⟨rfl, (List.cons.inj he).2⟩
    | cons b others =>
      rw [toList_intercalate_append] at he
      exact absurd he.symm (hw b _ s)
  | cons a items =>
    obtain ⟨ha, hi⟩ := List.forall_mem_cons.mp h
    rw [toList_intercalate_append] at he
    cases others with
    | nil => exact absurd he (hw a _ t)
    | cons b others =>
      rw [toList_intercalate_append] at he
      obtain ⟨rfl, hr⟩ := ha b _ _ (endsInt_listRest hc items s) (endsInt_listRest hc others t) he
      obtain ⟨rfl, hs⟩ := listRest_inj hc hne hi hr
      exact ⟨rfl, hs⟩

end

/-! ### Values -/

namespace Json

/-- The number of the form of a value. -/
def form : Json → Nat
  | .string _ => 0
  | .array _ => 1
  | .object _ => 2
  | .bool _ => 3
  | .int _ => 4

/-- The number of the form that a first character tells, if any value begins with it. -/
def formOf? (c : Char) : Option Nat :=
  if c = '"' then some 0
  else if c = '[' then some 1
  else if c = '\x7b' then some 2
  else if c = 't' ∨ c = 'f' then some 3
  else if isIntChar c then some 4
  else none

/-- The first character of an integer tells that it is one. -/
theorem formOf?_of_isIntChar {c : Char} (h : isIntChar c = true) : formOf? c = some 4 := by
  have hne : ∀ d : Char, isIntChar d = false → c ≠ d := by
    rintro d hd rfl
    rw [h] at hd
    cases hd
  simp [formOf?, h, hne '"' rfl, hne '[' rfl, hne '\x7b' rfl, hne 't' rfl, hne 'f' rfl]

/-- The first character of a value tells its form. -/
theorem exists_compact_eq_cons (a : Json) :
    ∃ c cs, a.compact.toList = c :: cs ∧ formOf? c = some a.form := by
  cases a with
  | string s => exact ⟨'"', s.toList.flatMap jsonChar ++ ['"'], by simp [compact, jsonString], rfl⟩
  | array items =>
    exact ⟨'[', (",".intercalate (compactItems items)).toList ++ [']'], by simp [compact], rfl⟩
  | object fields =>
    exact ⟨'\x7b', (",".intercalate (compactFields fields)).toList ++ ['\x7d'],
      by simp [compact], rfl⟩
  | bool b =>
    cases b with
    | true => exact ⟨'t', ['r', 'u', 'e'], by simp [compact], rfl⟩
    | false => exact ⟨'f', ['a', 'l', 's', 'e'], by simp [compact], rfl⟩
  | int n =>
    have hr : (Json.int n).compact = toString n := by rw [compact]
    cases hl : (toString n).toList with
    | nil => exact absurd (String.toList_eq_nil_iff.mp hl) (toString_int_ne_empty n)
    | cons c cs =>
      have hc : isIntChar c = true := isIntChar_of_mem (hl ▸ List.mem_cons_self)
      exact ⟨c, cs, by rw [hr, hl], formOf?_of_isIntChar hc⟩

/-- Values that begin alike have the same form. -/
theorem form_eq_of_append_eq {a b : Json} {s t : List Char}
    (h : a.compact.toList ++ s = b.compact.toList ++ t) : a.form = b.form := by
  obtain ⟨c, cs, ha, hc⟩ := a.exists_compact_eq_cons
  obtain ⟨d, ds, hb, hd⟩ := b.exists_compact_eq_cons
  rw [ha, hb] at h
  rw [(List.cons.inj h).1, hd] at hc
  exact (Option.some.inj hc).symm

/-- No value begins like the closing of an array. -/
theorem compact_append_ne (a : Json) (s t : List Char) : a.compact.toList ++ s ≠ ']' :: t := by
  obtain ⟨c, cs, ha, hc⟩ := a.exists_compact_eq_cons
  intro h
  rw [ha] at h
  rw [(List.cons.inj h).1] at hc
  cases hc

/-- The text of a field. -/
def compactField (field : String × Json) : String := jsonString field.1 ++ ":" ++ field.2.compact

/-- No field begins like the closing of an object. -/
theorem compactField_append_ne (field : String × Json) (s t : List Char) :
    (compactField field).toList ++ s ≠ '\x7d' :: t := by
  simp [compactField, jsonString]

/-- The items of an array one by one. -/
theorem compactItems_eq (items : List Json) : compactItems items = items.map compact := by
  induction items with
  | nil => rw [compactItems, List.map_nil]
  | cons item items ih => rw [compactItems, ih, List.map_cons]

/-- The fields of an object one by one. -/
theorem compactFields_eq (fields : List (String × Json)) :
    compactFields fields = fields.map compactField := by
  induction fields with
  | nil => rw [compactFields, List.map_nil]
  | cons field fields ih => rw [compactFields, ih, List.map_cons, compactField]

/-- A field is delimited if its value is. -/
theorem delimited_compactField {field : String × Json} (h : Delimited compact field.2) :
    Delimited compactField field := by
  rintro ⟨name, value⟩ s t hs ht he
  simp only [compactField, String.toList_append, List.append_assoc] at he
  obtain ⟨hname, hv⟩ := jsonString_append_inj he
  obtain ⟨hvalue, hst⟩ := h value s t hs ht (List.append_cancel_left hv)
  exact ⟨Prod.ext hname hvalue, hst⟩

/-- What holds of a value if it holds of the values in it holds of all values. -/
theorem induction {P : Json → Prop} (string : ∀ s, P (.string s)) (int : ∀ n, P (.int n))
    (bool : ∀ b, P (.bool b)) (array : ∀ items, (∀ item ∈ items, P item) → P (.array items))
    (object : ∀ fields, (∀ field ∈ fields, P field.2) → P (.object fields)) : ∀ a, P a
  | .string s => string s
  | .int n => int n
  | .bool b => bool b
  | .array items => array items fun item _ => induction string int bool array object item
  | .object fields =>
    object fields fun field _ => induction string int bool array object field.2
termination_by a => sizeOf a
decreasing_by
  · have := List.sizeOf_lt_of_mem ‹item ∈ items›
    simp
    omega
  · have := List.sizeOf_lt_of_mem ‹field ∈ fields›
    have : sizeOf field = 1 + sizeOf field.1 + sizeOf field.2 := Prod.mk.sizeOf_spec _ _
    simp
    omega

/-- The text of a value is told from that of others and from what follows it. -/
theorem delimited_compact (a : Json) : Delimited compact a := by
  intro b s t hs ht h
  have hform := form_eq_of_append_eq h
  induction a using Json.induction generalizing b s t with
  | string x =>
    cases b with
    | string y =>
      rw [compact, compact] at h
      obtain ⟨rfl, hst⟩ := jsonString_append_inj h
      exact ⟨rfl, hst⟩
    | _ => cases hform
  | int n =>
    cases b with
    | int m =>
      rw [compact, compact] at h
      obtain ⟨rfl, hst⟩ := int_append_inj hs ht h
      exact ⟨rfl, hst⟩
    | _ => cases hform
  | bool x =>
    cases b with
    | bool y => cases x <;> cases y <;> simp_all [compact]
    | _ => cases hform
  | array items ih =>
    cases b with
    | array others =>
      have hi : ∀ item ∈ items, Delimited compact item :=
        fun item hm b s t hs ht h => ih item hm b s t hs ht h (form_eq_of_append_eq h)
      simp only [compact, compactItems_eq, String.toList_append, List.append_assoc] at h
      obtain ⟨rfl, hst⟩ := list_append_inj (by decide) (by decide) compact_append_ne hi
        (List.append_cancel_left h)
      exact ⟨rfl, hst⟩
    | _ => cases hform
  | object fields ih =>
    cases b with
    | object others =>
      have hf : ∀ field ∈ fields, Delimited compactField field := by
        intro field hm
        apply delimited_compactField
        exact fun b s t hs ht h => ih field hm b s t hs ht h (form_eq_of_append_eq h)
      simp only [compact, compactFields_eq, String.toList_append, List.append_assoc] at h
      obtain ⟨rfl, hst⟩ := list_append_inj (by decide) (by decide) compactField_append_ne hf
        (List.append_cancel_left h)
      exact ⟨rfl, hst⟩
    | _ => cases hform

/-- The compact text of a value determines it. -/
theorem compact_injective : Function.Injective compact := by
  intro a b h
  have ends : EndsInt [] := fun c hc => by cases hc
  exact (delimited_compact a b [] [] ends ends (by rw [h])).1

end Json

end SwiftRelations.Text
