import Std.Data.String.ToInt

/-!
# Numbers in texts

An integer is written by digits, perhaps behind a sign. So where a text goes on with something else
than a digit or a sign, the integer before it is told from what follows.
-/

namespace SwiftRelations.Text

/-- The characters of a natural number are digits. -/
theorem isDigit_of_mem_repr {n : Nat} {c : Char} (h : c ∈ n.repr.toList) : c.isDigit = true := by
  rw [Nat.repr_eq_ofList_toDigits, String.toList_ofList] at h
  exact Nat.isDigit_of_mem_toDigits (by decide) (by decide) h

/-- The characters of an integer are digits, but for a sign. -/
theorem isDigit_of_mem_toString {n : Int} {c : Char} (h : c ∈ (toString n).toList) :
    c = '-' ∨ c.isDigit = true := by
  have hr : toString n = n.repr := rfl
  rw [hr, Int.repr_eq_if] at h
  split at h
  · exact .inr (isDigit_of_mem_repr h)
  · rw [String.toList_append, List.mem_append] at h
    rcases h with h | h
    · exact .inl (by simpa using h)
    · exact .inr (isDigit_of_mem_repr h)

/-- The text of an integer is not empty. -/
theorem toString_int_ne_empty (n : Int) : toString n ≠ "" := by
  have hr : toString n = n.repr := rfl
  rw [hr, Int.repr_eq_if]
  split
  · exact Nat.repr_ne_empty
  · simp

/-- Whether a character may stand in an integer. -/
def isIntChar (c : Char) : Bool := c = '-' || c.isDigit

/-- Whether an integer before a text ends there. -/
def EndsInt (tail : List Char) : Prop := ∀ c ∈ tail.head?, isIntChar c = false

/-- The characters of an integer may stand in one. -/
theorem isIntChar_of_mem {n : Int} {c : Char} (h : c ∈ (toString n).toList) :
    isIntChar c = true := by
  rcases isDigit_of_mem_toString h with rfl | hd
  · rfl
  · rw [isIntChar, hd, Bool.or_true]

/-- An integer is what stands before anything that does not belong to one. -/
theorem takeWhile_int {n : Int} {tail : List Char} (h : EndsInt tail) :
    ((toString n).toList ++ tail).takeWhile isIntChar = (toString n).toList := by
  rw [List.takeWhile_append_of_pos fun c hc => isIntChar_of_mem hc]
  cases tail with
  | nil => rw [List.takeWhile_nil, List.append_nil]
  | cons c tail => rw [List.takeWhile_cons_of_neg (by simp [h c rfl]), List.append_nil]

/-- An integer and what follows it are told apart. -/
theorem int_append_inj {n m : Int} {s t : List Char} (hs : EndsInt s) (ht : EndsInt t)
    (h : (toString n).toList ++ s = (toString m).toList ++ t) : n = m ∧ s = t := by
  have hw := congrArg (List.takeWhile isIntChar) h
  rw [takeWhile_int hs, takeWhile_int ht, String.toList_inj] at hw
  have hn : n.repr.toInt? = m.repr.toInt? := congrArg String.toInt? hw
  rw [Int.toInt?_repr, Int.toInt?_repr, Option.some.injEq] at hn
  subst hn
  exact ⟨rfl, List.append_cancel_left h⟩

end SwiftRelations.Text
