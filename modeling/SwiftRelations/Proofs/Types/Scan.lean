import SwiftRelations.Proofs.Text.Words
import SwiftRelations.Types.Shape

/-!
# Reading a text as tokens

A text is scanned word by word: white space between words ends the token before it and is no part
of any. So the tokens of a text are those of its words, and squeezing it changes none of them. A
name is scanned back as one token wherever nothing follows that goes on with it.
-/

namespace SwiftRelations.Types.Token

open SwiftRelations.Text

variable {c : Char} {w cs tail : List Char}

/-! ### Names -/

/-- The code points of white space. -/
def blankCodes : List Nat :=
  List.range' 9 5 ++ [0x20, 0x85, 0xa0, 0x1680] ++ List.range' 0x2000 11 ++
    [0x2028, 0x2029, 0x202f, 0x205f, 0x3000]

/-- White space is no part of a name. -/
theorem continuesName_of_isBlank (h : isBlank c = true) : continuesName c = false := by
  have hcode : c.toNat ∈ blankCodes := by
    simp only [isBlank, Bool.or_eq_true, Bool.and_eq_true, decide_eq_true_eq, beq_iff_eq] at h
    simp only [blankCodes, List.mem_append, List.mem_range'_1, List.mem_cons, List.not_mem_nil,
      or_false]
    omega
  have htable : ∀ n ∈ blankCodes, continuesName (Char.ofNat n) = false := by decide +kernel
  simpa using htable c.toNat hcode

/-- Whether a text does not go on with a name that stands before it. -/
def EndsName (cs : List Char) : Prop := ∀ c ∈ cs.head?, continuesName c = false ∧ c ≠ '.'

/-- A name ends at the end of the text. -/
theorem endsName_nil : EndsName [] := by simp [EndsName]

/-- A name ends at a character that does not go on with it. -/
theorem endsName_cons (h : continuesName c = false) (hd : c ≠ '.') : EndsName (c :: cs) := by
  simp [EndsName, h, hd]

/-- White space ends a name. -/
theorem endsName_of_parted (h : Parted cs) : EndsName cs := by
  intro c hc
  have hb := h c hc
  refine ⟨continuesName_of_isBlank hb, ?_⟩
  rintro rfl
  exact absurd hb (by decide)

/-- A character that ends a name begins none. -/
theorem beginsName_eq_false (h : continuesName c = false) : beginsName c = false := by
  cases hb : beginsName c with
  | false => rfl
  | true => rw [continuesName_of_beginsName hb] at h; cases h

/-- What ends a name has nothing of the name. -/
theorem nameTail_of_endsName (h : EndsName cs) : nameTail cs = ([], cs) := by
  match cs, h with
  | [], _ => rfl
  | [c], h => simp [nameTail, (h c rfl).1]
  | c :: d :: cs, h => simp [nameTail, h c rfl]

/-- What ends a name and stands behind a text is not read with it. -/
theorem nameTail_append (h : EndsName tail) :
    nameTail (cs ++ tail) = ((nameTail cs).1, (nameTail cs).2 ++ tail) := by
  fun_induction nameTail cs with
  | case1 => simpa using nameTail_of_endsName h
  | case2 c hc =>
    cases tail with
    | nil => simp [nameTail, hc]
    | cons d tail => simp [nameTail, hc, nameTail_of_endsName h]
  | case3 c hc =>
    cases tail with
    | nil => simp [nameTail, hc]
    | cons d tail => simp [nameTail, hc, beginsName_eq_false (h d rfl).1]
  | case4 c d cs hcond more rest heq ih =>
    rw [List.cons_append] at ih
    simp [nameTail, hcond, ih, heq]
  | case5 c d cs hcond => simp [nameTail, hcond]

/-- A character that may begin a name is the first of the name it begins. -/
theorem nameTail_cons (h : continuesName c = true) :
    nameTail (c :: cs) = (c :: (nameTail cs).1, (nameTail cs).2) := by
  cases cs with
  | nil => simp [nameTail, h]
  | cons d cs => simp [nameTail, h]

/-- Reading a name again reads all of it. -/
theorem nameTail_nameTail (cs : List Char) :
    nameTail (nameTail cs).1 = ((nameTail cs).1, []) := by
  fun_induction nameTail cs with
  | case1 => rfl
  | case2 c hc => simp [nameTail, hc]
  | case3 => rfl
  | case4 c d cs hcond more rest heq ih =>
    simp only [heq] at ih
    by_cases hc : continuesName c = true
    · simp [nameTail_cons hc, ih]
    · -- A dot stands before a character that begins a name, so that more than the dot is read.
      have hdot : c = '.' ∧ beginsName d = true := by simpa [hc] using hcond
      rw [nameTail_cons (continuesName_of_beginsName hdot.2)] at heq
      obtain ⟨rfl, -⟩ := Prod.mk.inj heq
      simp [nameTail, hdot, ih]
  | case5 => rfl

/-- Whether a text is one name. -/
def IsName (w : List Char) : Prop :=
  nameTail w = (w, []) ∧ ∃ c cs, w = c :: cs ∧ beginsName c = true

/-- Whether the name in a token is one name. -/
def IsSpelled : Token → Prop
  | .name text => IsName text.toList
  | _ => True

/-! ### Single tokens -/

/-- The token that a letter begins is a name. -/
theorem next_of_beginsName (h : beginsName c = true) :
    next c cs = (.name (String.ofList (nameTail (c :: cs)).1), (nameTail (c :: cs)).2) := by
  simp [next, h]

/-- The name in a token is one name. -/
theorem next_isSpelled (c : Char) (cs : List Char) : (next c cs).1.IsSpelled := by
  by_cases h : beginsName c = true
  · rw [next_of_beginsName h, IsSpelled, String.toList_ofList]
    refine ⟨nameTail_nameTail _, c, (nameTail cs).1, ?_, h⟩
    rw [nameTail_cons (continuesName_of_beginsName h)]
  · unfold next
    rw [if_neg h]
    split <;> trivial

/-- Most characters that begin no name are tokens of their own. -/
theorem next_mark (hc : beginsName c = false) (harrow : c = '-' → cs.head? ≠ some '>')
    (hdots : c = '.' → ¬ ['.', '.'] <+: cs) : next c cs = (.mark c, cs) := by
  unfold next
  rw [hc, if_neg Bool.false_ne_true]
  split
  · exact absurd rfl (harrow rfl)
  · rename_i rest
    exact absurd ⟨rest, rfl⟩ (hdots rfl)
  · rfl

/-- What ends a name and stands behind a text is not read with its first token, unless it ends an
arrow. -/
theorem next_append (ht : EndsName tail) (c : Char) (cs : List Char)
    (hgt : tail.head? = some '>' → (next c cs).1 ≠ .mark '-') :
    next c (cs ++ tail) = ((next c cs).1, (next c cs).2 ++ tail) := by
  by_cases hc : beginsName c = true
  · rw [next_of_beginsName hc, next_of_beginsName hc, ← List.cons_append, nameTail_append ht]
  replace hc : beginsName c = false := eq_false_of_ne_true hc
  -- Only an arrow and an ellipsis are longer than a character.
  by_cases harrow : c = '-' ∧ cs.head? = some '>'
  · obtain ⟨rfl, hcs⟩ := harrow
    obtain ⟨cs, rfl⟩ := List.head?_eq_some_iff.mp hcs
    simp [next, hc]
  by_cases hdots : c = '.' ∧ ['.', '.'] <+: cs
  · obtain ⟨rfl, cs, rfl⟩ := hdots
    simp [next, hc]
  have hnext := next_mark hc (fun he hn => harrow ⟨he, hn⟩) (fun he hn => hdots ⟨he, hn⟩)
  rw [hnext] at hgt
  have hdot : tail.head? ≠ some '.' := fun he => (ht '.' he).2 rfl
  rw [hnext]
  refine next_mark hc (fun he hn => ?_) (fun he hn => ?_)
  · cases cs with
    | nil => exact hgt hn (congrArg Token.mark he)
    | cons d cs => exact harrow ⟨he, hn⟩
  · match cs, hdots with
    | [], _ =>
      obtain ⟨rest, hn⟩ := hn
      exact hdot (by simpa using congrArg List.head? hn.symm)
    | [d], _ =>
      obtain ⟨rest, hn⟩ := hn
      exact hdot (by simpa using congrArg (·.tail.head?) hn.symm)
    | d :: e :: cs, hdots => exact hdots ⟨he, by simpa [List.cons_prefix_cons] using hn⟩

/-! ### Texts -/

/-- The empty text has no tokens. -/
@[simp]
theorem scan_nil : scan [] = [] := by simp [scan]

/-- White space is passed over. -/
theorem scan_blank (h : isBlank c = true) : scan (c :: cs) = scan cs := by
  rw [scan, if_pos h]

/-- A text that begins with a character begins with the token of the character. -/
theorem scan_cons (h : isBlank c = false) :
    scan (c :: cs) = (next c cs).1 :: scan (next c cs).2 := by
  rw [scan, h, if_neg Bool.false_ne_true]

/-- The names in the tokens of a text are names. -/
theorem isSpelled_of_mem_scan (cs : List Char) : ∀ t ∈ scan cs, t.IsSpelled := by
  fun_induction scan cs with
  | case1 => simp
  | case2 c cs hc ih => exact ih
  | case3 c cs hc ih => exact List.forall_mem_cons.mpr ⟨next_isSpelled c cs, ih⟩

/-- What ends a name parts the tokens before it from those behind it, unless it ends an arrow. -/
theorem scan_append (ht : EndsName tail) (cs : List Char)
    (hgt : tail.head? = some '>' → .mark '-' ∉ scan cs) :
    scan (cs ++ tail) = scan cs ++ scan tail := by
  fun_induction scan cs with
  | case1 => rfl
  | case2 c cs hc ih => rw [List.cons_append, scan_blank hc, ih hgt]
  | case3 c cs hc ih =>
    simp only [List.mem_cons, not_or] at hgt
    rw [List.cons_append, scan_cons (eq_false_of_ne_true hc),
      next_append ht c cs fun hn he => (hgt hn).1 he.symm, ih fun hn => (hgt hn).2,
      List.cons_append]

/-- White space parts the tokens before it from those behind it. -/
theorem scan_append_of_parted (h : Parted tail) (cs : List Char) :
    scan (cs ++ tail) = scan cs ++ scan tail :=
  scan_append (endsName_of_parted h) cs fun he => absurd (h '>' he) (by decide)

/-- The tokens of a word that is put in front of others, if it is one. -/
theorem flatMap_consWord (word : List Char) (ws : List (List Char)) :
    (consWord word ws).flatMap scan = scan word ++ ws.flatMap scan := by
  cases word <;> simp [consWord]

/-- What a text is but for its first word is parted from it, and has the tokens of the others. -/
theorem exists_splitWord (cs : List Char) : ∃ tail, cs = (splitWord cs).1 ++ tail ∧ Parted tail ∧
    scan tail = (splitWord cs).2.flatMap scan := by
  induction cs with
  | nil => exact ⟨[], rfl, parted_nil, scan_nil⟩
  | cons c cs ih =>
    obtain ⟨tail, hcs, ht, hscan⟩ := ih
    by_cases hc : isBlank c = true
    · refine ⟨c :: cs, by simp [splitWord, hc], parted_cons hc, ?_⟩
      have hs : scan (c :: cs) = scan (splitWord cs).1 ++ (splitWord cs).2.flatMap scan := by
        rw [scan_blank hc, ← hscan, ← scan_append_of_parted ht, ← hcs]
      simp [splitWord, hc, flatMap_consWord, hs]
    · exact ⟨tail, by simp [splitWord, hc, ← hcs], ht, by simp [splitWord, hc, hscan]⟩

/-- The tokens of a text are those of its words. -/
theorem scan_eq_flatMap_words (cs : List Char) : scan cs = (words cs).flatMap scan := by
  obtain ⟨tail, hcs, ht, hscan⟩ := exists_splitWord cs
  have hs : scan cs = scan (splitWord cs).1 ++ (splitWord cs).2.flatMap scan := by
    rw [← hscan, ← scan_append_of_parted ht, ← hcs]
  rw [hs, words, flatMap_consWord]

/-- A name is scanned back when nothing behind it goes on with it. -/
theorem scan_name (hw : IsName w) (ht : EndsName tail) :
    scan (w ++ tail) = .name (String.ofList w) :: scan tail := by
  obtain ⟨hname, c, cs, rfl, hc⟩ := hw
  have hblank : isBlank c = false := by
    cases hb : isBlank c with
    | false => rfl
    | true => exact absurd (beginsName_eq_false (continuesName_of_isBlank hb)) (by simp [hc])
  rw [List.cons_append, scan_cons hblank, next_of_beginsName hc, ← List.cons_append,
    nameTail_append ht, hname, List.nil_append]

/-- Punctuation is scanned back. -/
theorem scan_mark (hb : isBlank c = false) (hc : beginsName c = false) (harrow : c ≠ '-')
    (hdots : c ≠ '.') : scan (c :: cs) = .mark c :: scan cs := by
  rw [scan_cons hb, next_mark hc (fun h => absurd h harrow) (fun h => absurd h hdots)]

/-- An arrow is scanned back. -/
theorem scan_arrow : scan ('-' :: '>' :: cs) = .arrow :: scan cs := by
  have hc : beginsName '-' = false := by decide
  rw [scan_cons (by decide), next, hc, if_neg Bool.false_ne_true]

end SwiftRelations.Types.Token

namespace SwiftRelations.Types.Shape

open SwiftRelations.Text

/-- A squeezed text spells the type that the text spells. -/
theorem ofText?_squeeze (text : String) : ofText? (squeeze text) = ofText? text := by
  rw [ofText?, ofText?, Token.scan_eq_flatMap_words, words_squeeze, ← Token.scan_eq_flatMap_words]

end SwiftRelations.Types.Shape
