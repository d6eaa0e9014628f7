import SwiftRelations.Proofs.Types.Boundary
import SwiftRelations.Proofs.Types.Spelling

/-!
# Types inside brackets

A text that spells a type spells the same type inside brackets: it does not begin with a label, so
that none is passed over, and holds no hyphen outside arrows, so that a closing mark behind it ends
no arrow. The short and the long spellings of optionals, arrays and dictionaries, tuples and
functions are made of the types that their parts spell alone.
-/

namespace SwiftRelations.Types.Shape

open Token

/-! ### Hyphens -/

/-- Whether the second list is what is left of the first when tokens that are no hyphens are
taken. -/
def Passes (tokens rest : List Token) : Prop := ∃ taken, tokens = taken ++ rest ∧ .mark '-' ∉ taken

section Passes

variable {a b c tokens rest : List Token} {token : Token}

private theorem Passes.refl (tokens : List Token) : Passes tokens tokens :=
  ⟨[], rfl, List.not_mem_nil⟩

private theorem Passes.trans (h : Passes a b) (h' : Passes b c) : Passes a c := by
  obtain ⟨taken, rfl, hno⟩ := h
  obtain ⟨taken', rfl, hno'⟩ := h'
  exact ⟨taken ++ taken', (List.append_assoc ..).symm, by simp [hno, hno']⟩

private theorem Passes.cons (h : Passes a b) (ht : token ≠ .mark '-') : Passes (token :: a) b := by
  obtain ⟨taken, rfl, hno⟩ := h
  exact ⟨token :: taken, rfl, by simp [hno, ht.symm]⟩

private theorem Passes.name (h : Passes a b) (word : String) : Passes (.name word :: a) b :=
  h.cons (by simp)

/-- A token that is left is passed, too. -/
theorem Passes.tail (h : Passes a (token :: b)) (ht : token ≠ .mark '-') : Passes a b :=
  h.trans ((Passes.refl b).cons ht)

private theorem passes_skipModifiers (tokens : List Token) :
    Passes tokens (skipModifiers tokens) := by
  fun_induction skipModifiers tokens with
  | case1 word rest ih => exact (ih.name word).cons (by simp)
  | case2 rest _ ih => exact ih.cons (by simp)
  | case3 word rest _ ih => exact ih.name word
  | case4 => exact .refl _
  | case5 => exact .refl _

private theorem passes_skipEffects (tokens : List Token) : Passes tokens (skipEffects tokens) := by
  fun_induction skipEffects tokens with
  | case1 word rest _ ih => exact ih.name word
  | case2 => exact .refl _
  | case3 => exact .refl _

private theorem passes_skipLabel (tokens : List Token) : Passes tokens (skipLabel tokens) := by
  unfold skipLabel
  split
  · exact ((Passes.refl _).cons (by simp)).name _
  · exact (((Passes.refl _).cons (by simp)).name _).name _
  · exact .refl _

private theorem passes_suffixed {base shape : Shape} (h : suffixed base tokens = (shape, rest)) :
    Passes tokens rest := by
  fun_induction suffixed base tokens with
  | case1 base tokens ih => exact (ih h).cons (by simp)
  | case2 base tokens ih => exact (ih h).cons (by simp)
  | case3 base tokens ih => exact (ih h).cons (by simp)
  | case4 base tokens =>
    cases h
    exact .refl _

end Passes

section Rules

variable {inner : Spelling}
  (hinner : ∀ tokens shape rest, inner tokens shape rest → Passes tokens rest)
  {tokens rest : List Token} {shape : Shape} {shapes : List Shape}
include hinner

/-- The types of a list hold no hyphen. -/
theorem SpellsItems.passes {start : List Token → List Token} {close : Char} (hclose : close ≠ '-')
    (hstart : ∀ tokens, Passes tokens (start tokens))
    (h : SpellsItems inner start close tokens shapes rest) : Passes tokens rest := by
  induction h with
  | last item => exact ((hstart _).trans (hinner _ _ _ item)).tail (by simpa using hclose)
  | cons item items ih => exact (((hstart _).trans (hinner _ _ _ item)).tail (by simp)).trans ih

/-- A primary type holds no hyphen. -/
theorem SpellsPrimary.passes (h : SpellsPrimary inner tokens shape rest) : Passes tokens rest := by
  cases h with
  | array item => exact ((hinner _ _ _ item).tail (by simp)).cons (by simp)
  | dictionary first second =>
    exact (((hinner _ _ _ first).tail (by simp)).trans
      ((hinner _ _ _ second).tail (by simp))).cons (by simp)
  | unit => exact ((Passes.refl _).cons (by simp)).cons (by simp)
  | group begins items ends =>
    exact (items.passes hinner (by decide) passes_skipLabel).cons (by simp)
  | tuple begins items ends =>
    exact (items.passes hinner (by decide) passes_skipLabel).cons (by simp)
  | generic items => exact ((items.passes hinner (by decide) .refl).cons (by simp)).name _
  | name ends => exact (Passes.refl _).name _

/-- A type holds no hyphen. -/
theorem SpellsType.passes (h : SpellsType inner tokens shape rest) : Passes tokens rest := by
  have hfront {base shape : Shape} {suffixes effects : List Token}
      (front : SpellsPrimary inner (skipModifiers tokens) base suffixes)
      (suffix : suffixed base suffixes = (shape, effects)) : Passes tokens (skipEffects effects) :=
    (((passes_skipModifiers tokens).trans (front.passes hinner)).trans
      (passes_suffixed suffix)).trans (passes_skipEffects effects)
  cases h with
  | plain front suffix ends => exact hfront front suffix
  | function front suffix arrow back =>
    exact ((arrow ▸ hfront front suffix).tail (by simp)).trans (hinner _ _ _ back)

end Rules

/-! ### Whole lists of tokens -/

section Accepted

variable {tokens more : List Token} {shape : Shape}

/-- A list of tokens that spells a type is read to its end. -/
theorem gives_of_ofTokens? (h : ofTokens? tokens = some shape) :
    Gives (read (tokens.length + 1)) tokens shape [] := by
  unfold ofTokens? at h
  split at h
  case h_1 hread =>
    cases h
    exact hread
  case h_2 => cases h

/-- A list of tokens whose primary type and suffixes reach to its end spells a type. -/
theorem ofTokens?_of_primary {base : Shape} (suffixes : List Token)
    (hskip : skipModifiers tokens = tokens)
    (front : SpellsPrimary (Gives (read tokens.length)) tokens base suffixes)
    (suffix : suffixed base suffixes = (shape, [])) : ofTokens? tokens = some shape := by
  have hspells : SpellsType (Gives (read tokens.length)) tokens shape [] :=
    .plain (hskip.symm ▸ front) suffix rfl
  have hread : read (tokens.length + 1) tokens = some (shape, []) := hspells.step read_leaves
  rw [ofTokens?, hread]

/-- What spells a type is not a hyphen. -/
theorem not_mem_of_ofTokens? (h : ofTokens? tokens = some shape) : .mark '-' ∉ tokens := by
  obtain ⟨taken, heq, hno⟩ := read_induction (motive := fun tokens _ rest => Passes tokens rest)
    (fun _ _ _ => SpellsType.passes fun _ _ _ => And.right) _ _ _ (gives_of_ofTokens? h)
  rwa [heq, List.append_nil]

/-- What begins with a label is not read to its end. -/
theorem IsLabel.not_gives {label : List Token} {fuel : Nat} (h : IsLabel label) :
    ¬ Gives (read fuel) (label ++ more) shape [] := by
  intro hread
  cases fuel with
  | zero => cases hread
  | succ fuel =>
    -- What stands before the colon is a modifier, the name of the type or an effect word.
    cases h with
    | one name =>
      by_cases hname : name ∈ modifierWords <;>
        simp [Gives, read, step, primary, skipModifiers, suffixed, skipEffects, hname] at hread
    | two first second =>
      by_cases hfirst : first ∈ modifierWords <;> by_cases hsecond : second ∈ modifierWords <;>
        by_cases heffect : second ∈ effectWords <;>
        simp [Gives, read, step, primary, skipModifiers, suffixed, skipEffects, hfirst, hsecond,
          heffect] at hread

/-- A list of tokens that spells a type is read in front of what may be behind it. -/
theorem gives_append (h : ofTokens? tokens = some shape) (hm : Stops more) {fuel : Nat}
    (hfuel : tokens.length < fuel) : Gives (read fuel) (tokens ++ more) shape more :=
  read_mono hfuel _ _ _ (read_append hm _ _ _ (gives_of_ofTokens? h))

/-- A list of tokens that spells a type is read after its label in front of what may be behind it,
where it has no label. -/
theorem gives_labelled (h : ofTokens? tokens = some shape) {c : Char} (hc : Stops (.mark c :: more))
    (hcolon : c ≠ ':') {fuel : Nat} (hfuel : tokens.length < fuel) :
    Gives (read fuel) (skipLabel (tokens ++ .mark c :: more)) shape (.mark c :: more) := by
  rw [skipLabel_eq_self]
  · exact gives_append h (hc) hfuel
  · intro label hlabel hp
    rcases hlabel.prefix_append hp with ⟨others, rfl⟩ | ⟨-, heq⟩
    · exact hlabel.not_gives (gives_of_ofTokens? h)
    · exact hcolon (heq c more rfl)

end Accepted

/-! ### Brackets around tokens -/

section Brackets

variable {tokens others suffixes : List Token} {shape other : Shape}

/-- What spells a type does not begin with a parenthesis that closes. -/
theorem head?_of_ofTokens? (h : ofTokens? tokens = some shape) (more : List Token) :
    (tokens ++ more).head? ≠ some (.mark ')') := by
  have hread := gives_of_ofTokens? h
  cases tokens with
  | nil => exact absurd (read_leaves _ _ _ hread).lt (by simp)
  | cons token tokens =>
    rintro ⟨rfl⟩
    have hspells : step (read (tokens.length + 1)) (.mark ')' :: tokens) = some (shape, []) := hread
    simp [step, primary, skipModifiers] at hspells

/-- A type in parentheses is the type with the suffixes behind them. -/
theorem ofTokens?_group (h : ofTokens? tokens = some shape) (hends : arrowFollows suffixes = false)
    (hsuffix : suffixed shape suffixes = (other, [])) :
    ofTokens? (.mark '(' :: (tokens ++ .mark ')' :: suffixes)) = some other := by
  refine ofTokens?_of_primary suffixes (by simp [skipModifiers]) ?_ hsuffix
  refine .group (head?_of_ofTokens? h _) (.last ?_) hends
  exact gives_labelled h (by simp [Stops]) (by decide) (by grind)

/-- A type in square brackets is its array. -/
theorem ofTokens?_array (h : ofTokens? tokens = some shape) :
    ofTokens? (.mark '[' :: (tokens ++ [.mark ']'])) = some (.array shape) := by
  refine ofTokens?_of_primary [] (by simp [skipModifiers]) (.array ?_) rfl
  exact gives_append h (by simp [Stops]) (by grind)

/-- Two types with a colon between them in square brackets are their dictionary. -/
theorem ofTokens?_dictionary (h : ofTokens? tokens = some shape)
    (h' : ofTokens? others = some other) :
    ofTokens? (.mark '[' :: (tokens ++ .mark ':' :: (others ++ [.mark ']']))) =
      some (.dictionary shape other) := by
  refine ofTokens?_of_primary [] (by simp [skipModifiers]) ?_ rfl
  exact .dictionary (gives_append h (by simp [Stops]) (by grind))
    (gives_append h' (by simp [Stops]) (by grind))

/-- Two types with a comma between them in parentheses are their tuple. -/
theorem ofTokens?_pair (h : ofTokens? tokens = some shape) (h' : ofTokens? others = some other) :
    ofTokens? (.mark '(' :: (tokens ++ .mark ',' :: (others ++ [.mark ')']))) =
      some (.tuple [shape, other]) := by
  have hitems {fuel : Nat} (hf : tokens.length < fuel) (hf' : others.length < fuel) :
      SpellsItems (Gives (read fuel)) skipLabel ')' (tokens ++ .mark ',' :: (others ++ [.mark ')']))
        [shape, other] [] :=
    .cons (gives_labelled h (by simp [Stops]) (by decide) hf)
      (.last (gives_labelled h' (by simp [Stops]) (by decide) hf'))
  refine ofTokens?_of_primary [] (by simp [skipModifiers]) ?_ rfl
  exact .tuple (head?_of_ofTokens? h _) (hitems (by grind) (by grind)) (by simp)

/-- A name with a type between angle brackets has it as its argument. -/
theorem ofTokens?_generic {name : String} (hname : name ∉ modifierWords)
    (h : ofTokens? tokens = some shape) :
    ofTokens? (.name name :: .mark '<' :: (tokens ++ [.mark '>'])) =
      some (ofName name [shape]) := by
  refine ofTokens?_of_primary [] (by simp [skipModifiers, hname]) (.generic (.last ?_)) rfl
  exact gives_append h (by simp [Stops]) (by grind)

/-- A name with two types between angle brackets has them as its arguments. -/
theorem ofTokens?_generic_pair {name : String} (hname : name ∉ modifierWords)
    (h : ofTokens? tokens = some shape) (h' : ofTokens? others = some other) :
    ofTokens? (.name name :: .mark '<' :: (tokens ++ .mark ',' :: (others ++ [.mark '>']))) =
      some (ofName name [shape, other]) := by
  refine ofTokens?_of_primary [] (by simp [skipModifiers, hname]) ?_ rfl
  exact .generic (.cons (gives_append h (by simp [Stops]) (by grind))
    (.last (gives_append h' (by simp [Stops]) (by grind))))

/-- A type in parentheses before an arrow is the one parameter of a function. -/
theorem ofTokens?_function (h : ofTokens? tokens = some shape)
    (h' : ofTokens? others = some other) :
    ofTokens? (.mark '(' :: (tokens ++ .mark ')' :: .arrow :: others)) =
      some (.function [shape] other) := by
  let fuel := (Token.mark '(' :: (tokens ++ .mark ')' :: .arrow :: others)).length
  have harrow : arrowFollows (.arrow :: others) = true := rfl
  have front : SpellsPrimary (Gives (read fuel))
      (skipModifiers (.mark '(' :: (tokens ++ .mark ')' :: .arrow :: others))) (.tuple [shape])
      (.arrow :: others) := by
    refine .tuple (head?_of_ofTokens? h _) (.last ?_) fun _ => harrow
    exact gives_labelled h (by simp [Stops]) (by decide) (by grind)
  have back : Gives (read fuel) others other [] :=
    read_mono (by grind) _ _ _ (gives_of_ofTokens? h')
  have hspells := SpellsType.function front (suffixed_of_arrowFollows harrow) rfl back
  have hread : read (fuel + 1) _ = _ := hspells.step read_leaves
  rw [ofTokens?, hread]
  rfl

end Brackets

/-! ### Brackets around texts -/

section Texts

variable {text other name : String} {shape shape' : Shape}

/-- A text that spells a type is scanned in front of punctuation as it is alone. -/
theorem scan_append_punctuation (h : ofText? text = some shape) {c : Char} (hc : c ∈ punctuation)
    (cs : List Char) :
    scan (text.toList ++ c :: cs) = scan text.toList ++ .mark c :: scan cs := by
  rw [scan_append (endsName_punctuation hc cs) _ fun _ => not_mem_of_ofTokens? h,
    scan_punctuation hc]

/-- A type in parentheses is the type with the suffixes behind them. -/
theorem ofText?_group (marks : String) (suffixes : List Token) (h : ofText? text = some shape)
    (hscan : scan marks.toList = suffixes) (hends : arrowFollows suffixes = false)
    (hsuffix : suffixed shape suffixes = (shape', [])) :
    ofText? ("(" ++ text ++ ")" ++ marks) = some shape' := by
  have hlist : ("(" ++ text ++ ")" ++ marks).toList =
      '(' :: (text.toList ++ ')' :: marks.toList) := by simp
  rw [ofText?, hlist, scan_punctuation (by decide), scan_append_punctuation h (by decide), hscan]
  exact ofTokens?_group h hends hsuffix

/-- A name is scanned in front of its arguments as it is alone. -/
theorem scan_generic (hscan : scan name.toList = [.name name]) (cs : List Char) :
    scan (name.toList ++ '<' :: cs) = .name name :: .mark '<' :: scan cs := by
  rw [scan_append (endsName_punctuation (by decide) cs) _ (by simp), hscan,
    scan_punctuation (by decide), List.singleton_append]

/-- A name with a type between angle brackets. -/
theorem ofText?_generic (name : String) (hscan : scan name.toList = [.name name])
    (hname : name ∉ modifierWords) (h : ofText? text = some shape) :
    ofText? (name ++ "<" ++ text ++ ">") = some (ofName name [shape]) := by
  have hlist : (name ++ "<" ++ text ++ ">").toList =
      name.toList ++ '<' :: (text.toList ++ '>' :: []) := by simp
  rw [ofText?, hlist, scan_generic hscan, scan_append_punctuation h (by decide), scan_nil]
  exact ofTokens?_generic hname h

/-- A name with two types between angle brackets. -/
theorem ofText?_generic_pair (name : String) (hscan : scan name.toList = [.name name])
    (hname : name ∉ modifierWords) (h : ofText? text = some shape)
    (h' : ofText? other = some shape') :
    ofText? (name ++ "<" ++ text ++ ", " ++ other ++ ">") = some (ofName name [shape, shape']) := by
  have hlist : (name ++ "<" ++ text ++ ", " ++ other ++ ">").toList =
      name.toList ++ '<' :: (text.toList ++ ',' :: ' ' :: (other.toList ++ '>' :: [])) := by simp
  rw [ofText?, hlist, scan_generic hscan, scan_append_punctuation h (by decide), scan_space,
    scan_append_punctuation h' (by decide), scan_nil]
  exact ofTokens?_generic_pair hname h h'

/-- A type in square brackets. -/
theorem ofText?_array (h : ofText? text = some shape) :
    ofText? ("[" ++ text ++ "]") = some (.array shape) := by
  have hlist : ("[" ++ text ++ "]").toList = '[' :: (text.toList ++ ']' :: []) := by simp
  rw [ofText?, hlist, scan_punctuation (by decide), scan_append_punctuation h (by decide), scan_nil]
  exact ofTokens?_array h

/-- Two types with a colon between them in square brackets. -/
theorem ofText?_dictionary (h : ofText? text = some shape) (h' : ofText? other = some shape') :
    ofText? ("[" ++ text ++ ": " ++ other ++ "]") = some (.dictionary shape shape') := by
  have hlist : ("[" ++ text ++ ": " ++ other ++ "]").toList =
      '[' :: (text.toList ++ ':' :: ' ' :: (other.toList ++ ']' :: [])) := by simp
  rw [ofText?, hlist, scan_punctuation (by decide), scan_append_punctuation h (by decide),
    scan_space, scan_append_punctuation h' (by decide), scan_nil]
  exact ofTokens?_dictionary h h'

/-- Two types with a comma between them in parentheses. -/
theorem ofText?_pair (h : ofText? text = some shape) (h' : ofText? other = some shape') :
    ofText? ("(" ++ text ++ ", " ++ other ++ ")") = some (.tuple [shape, shape']) := by
  have hlist : ("(" ++ text ++ ", " ++ other ++ ")").toList =
      '(' :: (text.toList ++ ',' :: ' ' :: (other.toList ++ ')' :: [])) := by simp
  rw [ofText?, hlist, scan_punctuation (by decide), scan_append_punctuation h (by decide),
    scan_space, scan_append_punctuation h' (by decide), scan_nil]
  exact ofTokens?_pair h h'

/-- A type in parentheses before an arrow and another type. -/
theorem ofText?_function (h : ofText? text = some shape) (h' : ofText? other = some shape') :
    ofText? ("(" ++ text ++ ") -> " ++ other) = some (.function [shape] shape') := by
  have hlist : ("(" ++ text ++ ") -> " ++ other).toList =
      '(' :: (text.toList ++ ')' :: ' ' :: '-' :: '>' :: ' ' :: other.toList) := by simp
  rw [ofText?, hlist, scan_punctuation (by decide), scan_append_punctuation h (by decide),
    scan_space, scan_arrow, scan_space]
  exact ofTokens?_function h h'

end Texts

/-- Texts that spell types may stand in brackets. Parentheses change nothing, square brackets, the
long spelling and dots make an array, the long spelling and both marks an optional, a colon in
square brackets or the long spelling a dictionary, a comma in parentheses a tuple, and an arrow
behind parentheses a function with one parameter. -/
theorem ofText?_brackets {text key value : String} {shape keyShape valueShape : Shape}
    (h : ofText? text = some shape) (hk : ofText? key = some keyShape)
    (hv : ofText? value = some valueShape) :
    ofText? ("(" ++ text ++ ")") = some shape ∧
    (ofText? ("[" ++ text ++ "]") = some (.array shape) ∧
      ofText? ("Array<" ++ text ++ ">") = some (.array shape) ∧
      ofText? ("Swift.Array<" ++ text ++ ">") = some (.array shape) ∧
      ofText? ("(" ++ text ++ ")...") = some (.array shape)) ∧
    (ofText? ("Optional<" ++ text ++ ">") = some (.optional shape) ∧
      ofText? ("Swift.Optional<" ++ text ++ ">") = some (.optional shape) ∧
      ofText? ("(" ++ text ++ ")?") = some (.optional shape) ∧
      ofText? ("(" ++ text ++ ")!") = some (.optional shape)) ∧
    (ofText? ("[" ++ key ++ ": " ++ value ++ "]") = some (.dictionary keyShape valueShape) ∧
      ofText? ("Dictionary<" ++ key ++ ", " ++ value ++ ">") =
        some (.dictionary keyShape valueShape)) ∧
    ofText? ("(" ++ key ++ ", " ++ value ++ ")") = some (.tuple [keyShape, valueShape]) ∧
    ofText? ("(" ++ key ++ ") -> " ++ value) = some (.function [keyShape] valueShape) := by
  -- A closing parenthesis and its suffixes are one string, and so are a name and its bracket.
  have hgroup (marks : String) : "(" ++ text ++ (")" ++ marks) = "(" ++ text ++ ")" ++ marks :=
    (String.append_assoc).symm
  refine ⟨?_, ⟨ofText?_array h, ?_, ?_, ?_⟩, ⟨?_, ?_, ?_, ?_⟩, ⟨ofText?_dictionary hk hv, ?_⟩,
    ofText?_pair hk hv, ofText?_function hk hv⟩
  · exact (hgroup "").symm ▸ ofText?_group "" [] h (by decide +kernel) rfl rfl
  · exact ofText?_generic "Array" (by decide +kernel) (by decide) h
  · exact ofText?_generic "Swift.Array" (by decide +kernel) (by decide) h
  · exact hgroup "..." ▸ ofText?_group "..." [.ellipsis] h (by decide +kernel) rfl rfl
  · exact ofText?_generic "Optional" (by decide +kernel) (by decide) h
  · exact ofText?_generic "Swift.Optional" (by decide +kernel) (by decide) h
  · exact hgroup "?" ▸ ofText?_group "?" [.mark '?'] h (by decide +kernel) rfl rfl
  · exact hgroup "!" ▸ ofText?_group "!" [.mark '!'] h (by decide +kernel) rfl rfl
  · exact ofText?_generic_pair "Dictionary" (by decide +kernel) (by decide) hk hv

/-- The types may themselves have labels, modifiers, effects and suffixes. -/
theorem ofText?_brackets_function :
    let function : Shape := .function [.named "A" []] (.named "B" [])
    ofText? "(x: A) throws -> B" = some function ∧ ofText? "some K" = some (.named "K" []) ∧
      ofText? "V..." = some (.array (.named "V" [])) ∧
      ofText? ("Swift.Optional<" ++ "(x: A) throws -> B" ++ ">") = some (.optional function) ∧
      ofText? ("(" ++ "(x: A) throws -> B" ++ ")...") = some (.array function) ∧
      ofText? ("(" ++ "some K" ++ ") -> " ++ "V...") =
        some (.function [.named "K" []] (.array (.named "V" []))) := by
  have hscan : scan "(x: A) throws -> B".toList = [.mark '(', .name "x", .mark ':', .name "A",
      .mark ')', .name "throws", .arrow, .name "B"] := by decide +kernel
  have hkey : scan "some K".toList = [.name "some", .name "K"] := by decide +kernel
  have hvalue : scan "V...".toList = [.name "V", .ellipsis] := by decide +kernel
  have h : ofText? "(x: A) throws -> B" = some (.function [.named "A" []] (.named "B" [])) := by
    rw [ofText?, hscan]
    rfl
  have hk : ofText? "some K" = some (.named "K" []) := by
    rw [ofText?, hkey]
    rfl
  have hv : ofText? "V..." = some (.array (.named "V" [])) := by
    rw [ofText?, hvalue]
    rfl
  obtain ⟨-, ⟨-, -, -, hdots⟩, ⟨-, hlong, -⟩, -, -, hfunction⟩ := ofText?_brackets h hk hv
  exact ⟨h, hk, hv, hlong, hdots, hfunction⟩

end SwiftRelations.Types.Shape
