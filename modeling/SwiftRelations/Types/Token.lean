import SwiftRelations.Text.Blank
import SwiftRelations.Text.Letter

/-!
# Tokens of a type annotation

The text of a type annotation is read as a list of tokens, between which white space has no
meaning. Every character that is not blank belongs to exactly one token: a text that is no type
has tokens too.

The tokens are what `peek`, `skip_ws`, `eat`, `eat_str` and `ident` of `TypeTextParser` see of a
text.
-/

namespace SwiftRelations.Types

open SwiftRelations.Text

/-- A token of a type annotation. -/
inductive Token where
  /-- A name, which may be qualified: `Int`, `Swift.Int`. -/
  | name (text : String)
  /-- The arrow `->` of a function type. -/
  | arrow
  /-- The three dots after the type of a variadic parameter. -/
  | ellipsis
  /-- Any other character. -/
  | mark (char : Char)
  deriving DecidableEq, Repr, Inhabited

/-- The rest of a name that has begun, and what follows it. A dot belongs to the name when another
name begins right after it. -/
def Token.nameTail : List Char → List Char × List Char
  | [] => ([], [])
  | [c] => if continuesName c then ([c], []) else ([], [c])
  | c :: d :: cs =>
    if continuesName c || (c == '.' && beginsName d) then
      let (more, rest) := nameTail (d :: cs)
      (c :: more, rest)
    else ([], c :: d :: cs)

/-- Reading a name takes nothing from its surroundings: what follows is no longer than the text. -/
theorem Token.length_nameTail_le (cs : List Char) : (nameTail cs).2.length ≤ cs.length := by
  fun_induction nameTail cs with
  | case1 => simp
  | case2 => simp
  | case3 => simp
  | case4 c d cs _ more rest _ ih => simp_all; omega
  | case5 => simp

/-- The first token of a text that starts with the character `c`, not a blank, and what follows
the token. -/
def Token.next (c : Char) (cs : List Char) : Token × List Char :=
  if beginsName c then
    let (word, rest) := nameTail (c :: cs)
    (.name (String.ofList word), rest)
  else
    match c, cs with
    | '-', '>' :: rest => (.arrow, rest)
    | '.', '.' :: '.' :: rest => (.ellipsis, rest)
    | c, rest => (.mark c, rest)

/-- A character that may begin a name may also continue one. -/
theorem continuesName_of_beginsName {c : Char} (h : beginsName c = true) :
    continuesName c = true := by
  simp only [beginsName, isLetter, continuesName, isLetterOrNumeral, Bool.or_eq_true] at *
  rcases h with h | h
  · left
    split at h
    · simp_all [Char.isAlphanum]
    · simp_all
  · exact .inr h

/-- A token takes at least one character. -/
theorem Token.length_next_lt (c : Char) (cs : List Char) :
    (Token.next c cs).2.length < (c :: cs).length := by
  unfold Token.next
  split
  · rename_i h
    have hc := continuesName_of_beginsName h
    cases cs with
    | nil => simp [nameTail, hc]
    | cons d ds =>
      have := length_nameTail_le (d :: ds)
      simp only [nameTail, hc, Bool.true_or, if_true]
      simp only [List.length_cons] at *
      omega
  · split <;> simp only [List.length_cons] <;> omega

/-- The tokens of a text, in order. -/
def Token.scan : List Char → List Token
  | [] => []
  | c :: cs =>
    if isBlank c then scan cs
    else
      (next c cs).1 :: scan (next c cs).2
termination_by cs => cs.length
decreasing_by
  · simp
  · exact length_next_lt c cs

end SwiftRelations.Types
