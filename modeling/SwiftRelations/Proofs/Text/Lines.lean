import Mathlib.Data.List.Basic

/-!
# Lines

Lines are written one after the other, each ended by a line break. A line that itself has breaks in
it is read back as several; lines without breaks are read back as they are, and are as many as the
breaks of the text.
-/

namespace SwiftRelations.Text

/-- The text of some lines, each ended by a line break. -/
def ofLines (ls : List String) : String := String.join (ls.map (· ++ "\n"))

/-- The lines of a text in which each is ended by a line break. -/
def lines (text : String) : List (List Char) := (text.toList.splitOn '\n').dropLast

variable {l : String} {ls : List String}

private theorem toList_ofLines_cons (l : String) (ls : List String) :
    (ofLines (l :: ls)).toList = l.toList ++ '\n' :: (ofLines ls).toList := by
  simp [ofLines, String.toList_join]

/-- Lines are read back up to the breaks in them. -/
theorem lines_ofLines (ls : List String) :
    lines (ofLines ls) = ls.flatMap fun l => l.toList.splitOn '\n' := by
  have hs : (ofLines ls).toList.splitOn '\n' =
      (ls.flatMap fun l => l.toList.splitOn '\n') ++ [[]] := by
    induction ls with
    | nil => rfl
    | cons l ls ih =>
      rw [toList_ofLines_cons, List.splitOn_append_cons_self, ih, List.flatMap_cons,
        List.append_assoc]
  rw [lines, hs, List.dropLast_concat]

/-- Lines without breaks are read back. -/
theorem lines_ofLines_of_unbroken (h : ∀ l ∈ ls, '\n' ∉ l.toList) :
    lines (ofLines ls) = ls.map (·.toList) := by
  rw [lines_ofLines, List.map_eq_flatMap]
  apply List.flatMap_congr
  intro l hl
  exact List.splitOn_eq_singleton (h l hl)

/-- Lines without breaks are as many as the breaks that end them. -/
theorem count_ofLines (h : ∀ l ∈ ls, '\n' ∉ l.toList) :
    (ofLines ls).toList.count '\n' = ls.length := by
  induction ls with
  | nil => rfl
  | cons l ls ih =>
    obtain ⟨hl, hls⟩ := List.forall_mem_cons.mp h
    rw [toList_ofLines_cons, List.count_append, List.count_eq_zero_of_not_mem hl,
      List.count_cons_self, ih hls, List.length_cons, Nat.zero_add]

end SwiftRelations.Text
