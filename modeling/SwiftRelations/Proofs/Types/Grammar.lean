import SwiftRelations.Proofs.Types.Bracketing

/-!
# The grammar of types

What a type is made of, as a grammar over tokens, and that all that is read is derived from it: a
text that is read as a type is the tokens of a type with white space around them. The reader is
loose in two places. An `@` may stand without the name of an attribute, and effect words may stand
behind a type that no arrow follows. Texts in which neither happens are types as they should be.
-/

namespace SwiftRelations.Types

/-! ### Tokens and white space -/

namespace Token

open SwiftRelations.Text

/-- What a token is written as. -/
def chars : Token → List Char
  | .name text => text.toList
  | .arrow => ['-', '>']
  | .ellipsis => ['.', '.', '.']
  | .mark c => [c]

/-- Whether a text is some tokens one after the other, with white space before, between and after
them. -/
inductive Spaced : List Char → List Token → Prop
  | nil : Spaced [] []
  | blank {c : Char} {cs : List Char} {tokens : List Token} (h : isBlank c = true)
      (hs : Spaced cs tokens) : Spaced (c :: cs) tokens
  | token {cs : List Char} {tokens : List Token} (token : Token) (hs : Spaced cs tokens) :
      Spaced (token.chars ++ cs) (token :: tokens)

/-- The rest of a name and what follows it are the text. -/
theorem nameTail_append_eq (cs : List Char) : (nameTail cs).1 ++ (nameTail cs).2 = cs := by
  fun_induction nameTail cs with
  | case1 => rfl
  | case2 => rfl
  | case3 => rfl
  | case4 c d cs _ more rest heq ih =>
    rw [heq] at ih
    exact congrArg (c :: ·) ih
  | case5 => rfl

/-- A token and what follows it are the text. -/
theorem chars_next_append (c : Char) (cs : List Char) :
    (next c cs).1.chars ++ (next c cs).2 = c :: cs := by
  by_cases h : beginsName c = true
  · rw [next_of_beginsName h, chars, String.toList_ofList, nameTail_append_eq]
  · unfold next
    rw [if_neg h]
    split <;> rfl

/-- A text is its tokens, but for white space. -/
theorem spaced_scan (cs : List Char) : Spaced cs (scan cs) := by
  fun_induction scan cs with
  | case1 => exact .nil
  | case2 c cs hc ih => exact .blank hc ih
  | case3 c cs hc ih =>
    have h : Spaced ((next c cs).1.chars ++ (next c cs).2) ((next c cs).1 :: scan (next c cs).2) :=
      .token _ ih
    rwa [chars_next_append] at h

end Token

namespace Shape

/-! ### The grammar -/

/-- What is derived by the grammar. -/
inductive Symbol where
  | type
  /-- A primary type with any suffixes. -/
  | suffixed
  | primary
  /-- Types with commas between them, which may have labels if the flag says so. -/
  | items (labelled : Bool)

/-- What may stand before a type without changing which type it is. -/
inductive IsModifier (loose : Prop) : List Token → Prop
  | attributed (name : String) : IsModifier loose [.mark '@', .name name]
  | word {word : String} (h : word ∈ modifierWords) : IsModifier loose [.name word]
  | bare (h : loose) : IsModifier loose [.mark '@']

/-- Whether a token is an effect word. -/
def IsEffect (token : Token) : Prop := ∃ word ∈ effectWords, token = .name word

/-- Whether a token is a suffix of types. -/
def IsSuffixMark (token : Token) : Prop := token ∈ [.ellipsis, .mark '?', .mark '!']

/-- What may stand before an item of a list. -/
def IsItemStart (labelled : Bool) (label : List Token) : Prop :=
  label = [] ∨ labelled = true ∧ IsLabel label

/-- The grammar of types. If it is loose, an `@` may stand without a name, and effect words without
an arrow. -/
inductive Derives (loose : Prop) : Symbol → List Token → Prop
  | modified {modifier tokens : List Token} (front : IsModifier loose modifier)
      (type : Derives loose .type tokens) : Derives loose .type (modifier ++ tokens)
  | plain {tokens : List Token} (type : Derives loose .suffixed tokens) : Derives loose .type tokens
  | function {params effects result : List Token} (front : Derives loose .suffixed params)
      (words : ∀ token ∈ effects, IsEffect token) (back : Derives loose .type result) :
      Derives loose .type (params ++ effects ++ .arrow :: result)
  | effects {tokens effects : List Token} (h : loose) (type : Derives loose .suffixed tokens)
      (words : ∀ token ∈ effects, IsEffect token) : Derives loose .type (tokens ++ effects)
  | primary {tokens : List Token} (type : Derives loose .primary tokens) :
      Derives loose .suffixed tokens
  | suffix {tokens : List Token} {token : Token} (type : Derives loose .suffixed tokens)
      (mark : IsSuffixMark token) : Derives loose .suffixed (tokens ++ [token])
  | array {tokens : List Token} (element : Derives loose .type tokens) :
      Derives loose .primary (.mark '[' :: tokens ++ [.mark ']'])
  | dictionary {key value : List Token} (first : Derives loose .type key)
      (second : Derives loose .type value) :
      Derives loose .primary (.mark '[' :: key ++ .mark ':' :: value ++ [.mark ']'])
  | unit : Derives loose .primary [.mark '(', .mark ')']
  | parentheses {tokens : List Token} (elements : Derives loose (.items true) tokens) :
      Derives loose .primary (.mark '(' :: tokens ++ [.mark ')'])
  | name (name : String) : Derives loose .primary [.name name]
  | generic (name : String) {tokens : List Token} (args : Derives loose (.items false) tokens) :
      Derives loose .primary (.name name :: .mark '<' :: tokens ++ [.mark '>'])
  | last {labelled : Bool} {label tokens : List Token} (start : IsItemStart labelled label)
      (type : Derives loose .type tokens) : Derives loose (.items labelled) (label ++ tokens)
  | cons {labelled : Bool} {label tokens others : List Token} (start : IsItemStart labelled label)
      (type : Derives loose .type tokens) (items : Derives loose (.items labelled) others) :
      Derives loose (.items labelled) (label ++ tokens ++ .mark ',' :: others)

/-- Whether a type may end with a token: a name that is no modifier, a closing bracket or a
suffix. -/
def EndsType : Token → Prop
  | .name word => word ∉ modifierWords
  | .arrow => False
  | .ellipsis => True
  | .mark c => c ∈ [']', ')', '>', '?', '!']

/-- Whether each `@` among some tokens has the name of an attribute, and each effect word behind
what may be a type leads to an arrow. -/
structure Tidy (tokens : List Token) : Prop where
  attributes : ∀ rest, .mark '@' :: rest <:+ tokens → ∃ name more, rest = .name name :: more
  effects : ∀ before word rest, before :: .name word :: rest <:+ tokens → EndsType before →
    word ∈ effectWords → arrowFollows rest = true

private theorem Tidy.suffix {tokens rest : List Token} (h : Tidy tokens) (hs : rest <:+ tokens) :
    Tidy rest where
  attributes more hm := h.attributes more (hm.trans hs)
  effects before word more hm := h.effects before word more (hm.trans hs)

/-- A primary type ends with a token that a type may end with, and so does one with suffixes, unless
it begins with a modifier word. -/
theorem Derives.endsType {loose : Prop} {symbol : Symbol} {tokens : List Token}
    (h : Derives loose symbol tokens) (hs : symbol = .suffixed ∨ symbol = .primary)
    (hhead : ∀ word rest, tokens = .name word :: rest → word ∉ modifierWords) :
    ∃ front last, tokens = front ++ [last] ∧ EndsType last := by
  induction h with
  | modified | plain | function | effects | last | cons => simp at hs
  | primary type ih => exact ih (.inr rfl) hhead
  | @suffix tokens token type mark ih =>
    refine ⟨tokens, token, rfl, ?_⟩
    simp only [IsSuffixMark, List.mem_cons, List.not_mem_nil, or_false] at mark
    rcases mark with rfl | rfl | rfl <;> simp [EndsType]
  | array | dictionary => exact ⟨_, .mark ']', rfl, by simp [EndsType]⟩
  | unit => exact ⟨[.mark '('], .mark ')', rfl, by simp [EndsType]⟩
  | parentheses => exact ⟨_, .mark ')', rfl, by simp [EndsType]⟩
  | name name => exact ⟨[], .name name, rfl, hhead name [] rfl⟩
  | generic => exact ⟨_, .mark '>', rfl, by simp [EndsType]⟩

/-! ### What is passed over -/

section Passed

variable {loose : Prop} {tokens rest : List Token} {shape base : Shape}

/-- The modifiers that are passed over may stand before a type. -/
theorem exists_skipModifiers (h : loose ∨ Tidy tokens) :
    ∃ front, tokens = front ++ skipModifiers tokens ∧
      ∀ more, Derives loose .type more → Derives loose .type (front ++ more) := by
  fun_induction skipModifiers tokens with
  | case1 word rest ih =>
    have hs : rest <:+ .mark '@' :: .name word :: rest :=
      (List.suffix_cons _ _).trans (List.suffix_cons _ _)
    obtain ⟨front, hf, hd⟩ := ih (h.imp id (·.suffix hs))
    refine ⟨[.mark '@', .name word] ++ front, ?_, fun more hm => ?_⟩
    · rw [List.append_assoc, ← hf]
      rfl
    · rw [List.append_assoc]
      exact .modified (.attributed word) (hd more hm)
  | case2 rest hbare ih =>
    have hl : loose := by
      refine h.resolve_right fun htidy => ?_
      obtain ⟨name, more, hr⟩ := htidy.attributes rest (List.suffix_refl _)
      exact hbare name more hr
    obtain ⟨front, hf, hd⟩ := ih (.inl hl)
    refine ⟨[.mark '@'] ++ front, ?_, fun more hm => ?_⟩
    · rw [List.append_assoc, ← hf]
      rfl
    · rw [List.append_assoc]
      exact .modified (.bare hl) (hd more hm)
  | case3 word rest hw ih =>
    obtain ⟨front, hf, hd⟩ := ih (h.imp id (·.suffix (List.suffix_cons _ _)))
    refine ⟨[.name word] ++ front, ?_, fun more hm => ?_⟩
    · rw [List.append_assoc, ← hf]
      rfl
    · rw [List.append_assoc]
      exact .modified (.word hw) (hd more hm)
  | case4 => exact ⟨[], rfl, fun _ hm => hm⟩
  | case5 => exact ⟨[], rfl, fun _ hm => hm⟩

/-- The words that are passed over are effect words. -/
theorem exists_skipEffects (tokens : List Token) :
    ∃ effects, tokens = effects ++ skipEffects tokens ∧ ∀ token ∈ effects, IsEffect token := by
  fun_induction skipEffects tokens with
  | case1 word rest hw ih =>
    obtain ⟨effects, he, hm⟩ := ih
    refine ⟨.name word :: effects, ?_, List.forall_mem_cons.mpr ⟨⟨word, hw, rfl⟩, hm⟩⟩
    rw [List.cons_append, ← he]
  | case2 => exact ⟨[], rfl, by simp⟩
  | case3 => exact ⟨[], rfl, by simp⟩

/-- Modifier words are passed over as far as they go. -/
theorem not_mem_of_skipModifiers {word : String} (h : skipModifiers tokens = .name word :: rest) :
    word ∉ modifierWords := by
  fun_induction skipModifiers tokens with
  | case1 _ _ ih | case2 _ _ ih | case3 _ _ _ ih => exact ih h
  | case4 other others hother =>
    cases h
    exact hother
  | case5 tokens _ _ hname => exact absurd h (hname word rest)

/-- In tidy tokens nothing is passed over behind a type where no arrow follows. -/
theorem Tidy.skipEffects_eq {token : Token} (h : Tidy (token :: tokens)) (ht : EndsType token)
    (hno : arrowFollows tokens = false) : skipEffects tokens = tokens := by
  cases tokens with
  | nil => rfl
  | cons next tokens =>
    cases next with
    | name word =>
      rw [skipEffects]
      split
      · next hw =>
        have hyes := h.effects token word tokens (List.suffix_refl _) ht hw
        rw [arrowFollows, skipEffects, if_pos hw] at hno
        rw [arrowFollows, hno] at hyes
        cases hyes
      · rfl
    | arrow => rfl
    | ellipsis => rfl
    | mark c => rfl

/-- The marks behind a primary type are suffixes. -/
theorem exists_suffixed (h : suffixed base tokens = (shape, rest)) :
    ∃ marks, tokens = marks ++ rest ∧
      ∀ front, Derives loose .suffixed front → Derives loose .suffixed (front ++ marks) := by
  have next {token : Token} (tokens : List Token) (hm : IsSuffixMark token)
      (ih : ∃ marks, tokens = marks ++ rest ∧
        ∀ front, Derives loose .suffixed front → Derives loose .suffixed (front ++ marks)) :
      ∃ marks, token :: tokens = marks ++ rest ∧
        ∀ front, Derives loose .suffixed front → Derives loose .suffixed (front ++ marks) := by
    obtain ⟨marks, rfl, hd⟩ := ih
    refine ⟨token :: marks, rfl, fun front hf => ?_⟩
    rw [List.append_cons]
    exact hd _ (.suffix hf hm)
  fun_induction suffixed base tokens with
  | case1 base tokens ih => exact next tokens (by simp [IsSuffixMark]) (ih h)
  | case2 base tokens ih => exact next tokens (by simp [IsSuffixMark]) (ih h)
  | case3 base tokens ih => exact next tokens (by simp [IsSuffixMark]) (ih h)
  | case4 base tokens =>
    cases h
    exact ⟨[], rfl, fun front hf => by rwa [List.append_nil]⟩

/-- What is passed over before an item is a label, if anything. -/
theorem exists_skipLabel (tokens : List Token) :
    ∃ label, tokens = label ++ skipLabel tokens ∧ IsItemStart true label := by
  unfold skipLabel
  split
  case h_1 name rest => exact ⟨_, rfl, .inr ⟨rfl, .one name⟩⟩
  case h_2 first second rest => exact ⟨_, rfl, .inr ⟨rfl, .two first second⟩⟩
  case h_3 => exact ⟨[], rfl, .inl rfl⟩

end Passed

/-! ### What is read is derived -/

/-- Whether what stands in front of the rest of some tokens is derived, if the grammar is loose or
the tokens are tidy. -/
def Derived (loose : Prop) (symbol : Symbol) (tokens rest : List Token) : Prop :=
  loose ∨ Tidy tokens → ∃ front, tokens = front ++ rest ∧ Derives loose symbol front

section Rules

variable {loose : Prop} {inner : Spelling}
  (hleaves : ∀ tokens shape rest, inner tokens shape rest → Leaves tokens rest)
  (hinner : ∀ tokens shape rest, inner tokens shape rest → Derived loose .type tokens rest)
  {tokens rest : List Token} {shape : Shape} {shapes : List Shape}

include hleaves hinner

/-- A list of types is derived. -/
theorem SpellsItems.derived {labelled : Bool} {start : List Token → List Token} {close : Char}
    (hstart : ∀ tokens, ∃ label, tokens = label ++ start tokens ∧ IsItemStart labelled label)
    (h : SpellsItems inner start close tokens shapes rest) :
    Derived loose (.items labelled) tokens (.mark close :: rest) := by
  induction h with
  | @last tokens shape rest item =>
    intro htidy
    obtain ⟨label, hlabel, hl⟩ := hstart tokens
    have hs : start tokens <:+ tokens := ⟨label, hlabel.symm⟩
    obtain ⟨front, hf, hd⟩ := hinner _ _ _ item (htidy.imp id (·.suffix hs))
    refine ⟨label ++ front, ?_, .last hl hd⟩
    rw [List.append_assoc, ← hf, ← hlabel]
  | @cons tokens shape others shapes rest item items ih =>
    intro htidy
    obtain ⟨label, hlabel, hl⟩ := hstart tokens
    have hs : start tokens <:+ tokens := ⟨label, hlabel.symm⟩
    have hothers : others <:+ tokens := ((hleaves _ _ _ item).tail.suffix).trans hs
    obtain ⟨front, hf, hd⟩ := hinner _ _ _ item (htidy.imp id (·.suffix hs))
    obtain ⟨back, hb, hds⟩ := ih (htidy.imp id (·.suffix hothers))
    refine ⟨label ++ front ++ .mark ',' :: back, ?_, .cons hl hd hds⟩
    rw [List.append_assoc, List.append_assoc, List.cons_append, ← hb, ← hf, ← hlabel]

/-- A list of types in brackets is derived with the closing mark. -/
theorem SpellsItems.exists_derives {labelled : Bool} {start : List Token → List Token}
    {close : Char}
    (hstart : ∀ tokens, ∃ label, tokens = label ++ start tokens ∧ IsItemStart labelled label)
    (h : SpellsItems inner start close tokens shapes rest) (htidy : loose ∨ Tidy tokens) :
    ∃ front, tokens = front ++ [.mark close] ++ rest ∧ Derives loose (.items labelled) front := by
  obtain ⟨front, hf, hd⟩ := h.derived hleaves hinner hstart htidy
  exact ⟨front, by simpa using hf, hd⟩

/-- A primary type is derived. -/
theorem SpellsPrimary.derived (h : SpellsPrimary inner tokens shape rest) :
    Derived loose .primary tokens rest := by
  have htail {token : Token} {tokens : List Token} (htidy : loose ∨ Tidy (token :: tokens)) :
      loose ∨ Tidy tokens := htidy.imp id (·.suffix (List.suffix_cons _ _))
  have hparentheses {tokens rest : List Token} {shapes : List Shape}
      (items : SpellsItems inner skipLabel ')' tokens shapes rest) :
      Derived loose .primary (.mark '(' :: tokens) rest := by
    intro htidy
    obtain ⟨front, rfl, hd⟩ := items.exists_derives hleaves hinner exists_skipLabel (htail htidy)
    exact ⟨_, by simp, .parentheses hd⟩
  intro htidy
  cases h with
  | array item =>
    obtain ⟨front, rfl, hd⟩ := hinner _ _ _ item (htail htidy)
    exact ⟨_, by simp, .array hd⟩
  | dictionary first second =>
    have hothers := (hleaves _ _ _ first).tail.suffix
    obtain ⟨value, rfl, hvalue⟩ := hinner _ _ _ second ((htail htidy).imp id (·.suffix hothers))
    obtain ⟨key, rfl, hkey⟩ := hinner _ _ _ first (htail htidy)
    exact ⟨_, by simp, .dictionary hkey hvalue⟩
  | unit => exact ⟨_, rfl, .unit⟩
  | group begins items ends => exact hparentheses items htidy
  | tuple begins items ends => exact hparentheses items htidy
  | @generic name _ _ _ items =>
    obtain ⟨front, rfl, hd⟩ := items.exists_derives hleaves hinner
      (fun tokens => ⟨[], rfl, .inl rfl⟩) (htail (htail htidy))
    exact ⟨_, by simp, .generic name hd⟩
  | name ends => exact ⟨_, rfl, .name _⟩

/-- A type is derived. -/
theorem SpellsType.derived (h : SpellsType inner tokens shape rest) :
    Derived loose .type tokens rest := by
  intro htidy
  obtain ⟨modifiers, hmodifiers, hmodified⟩ := exists_skipModifiers htidy
  have hs := skipModifiers_suffix tokens
  have hfront {base shape : Shape} {suffixes others : List Token}
      (front : SpellsPrimary inner (skipModifiers tokens) base suffixes)
      (suffix : suffixed base suffixes = (shape, others)) :
      ∃ before, skipModifiers tokens = before ++ others ∧ Derives loose .suffixed before := by
    obtain ⟨primary, hp, hd⟩ := front.derived hleaves hinner (htidy.imp id (·.suffix hs))
    obtain ⟨marks, rfl, hmarks⟩ := exists_suffixed suffix
    exact ⟨primary ++ marks, by rw [hp, List.append_assoc], hmarks _ (.primary hd)⟩
  have hjoin {before others : List Token} (h : skipModifiers tokens = before ++ others) :
      tokens = modifiers ++ before ++ others := by
    rw [List.append_assoc, ← h, ← hmodifiers]
  cases h with
  | @plain _ base suffixes _ others front suffix ends =>
    obtain ⟨before, hbefore, hd⟩ := hfront front suffix
    have hb := hjoin hbefore
    rcases htidy with hloose | htidy
    · obtain ⟨effects, he, words⟩ := exists_skipEffects others
      refine ⟨modifiers ++ (before ++ effects), ?_, hmodified _ (.effects hloose hd words)⟩
      rw [hb, ← List.append_assoc, List.append_assoc _ effects, ← he]
    · -- no words are passed over, since no arrow follows them
      obtain ⟨init, last, rfl, hlast⟩ := hd.endsType (.inl rfl) fun word rest hw => by
        have hskip : skipModifiers tokens = .name word :: (rest ++ others) := by
          rw [hbefore, hw]
          rfl
        exact not_mem_of_skipModifiers hskip
      have hsuffix : last :: others <:+ tokens := ⟨modifiers ++ init, by rw [hb]; simp⟩
      rw [(htidy.suffix hsuffix).skipEffects_eq hlast ends]
      exact ⟨modifiers ++ (init ++ [last]), hb, hmodified _ (.plain hd)⟩
  | @function _ base suffixes _ others afterArrow _ _ front suffix arrow back =>
    obtain ⟨before, hbefore, hd⟩ := hfront front suffix
    have hb := hjoin hbefore
    obtain ⟨effects, he, words⟩ := exists_skipEffects others
    rw [arrow] at he
    have hsuffix : afterArrow <:+ tokens :=
      ⟨modifiers ++ before ++ effects ++ [.arrow], by rw [hb, he]; simp⟩
    obtain ⟨result, rfl, hresult⟩ := hinner _ _ _ back (htidy.imp id (·.suffix hsuffix))
    refine ⟨modifiers ++ (before ++ effects ++ .arrow :: result), ?_,
      hmodified _ (.function hd words hresult)⟩
    rw [hb, he]
    simp

end Rules

/-! ### Types of names alone -/

/-- What names alone can be derived as: a type is a name behind modifier words. -/
def OfNames : Symbol → List Token → Prop
  | .type, tokens => ∃ front name, tokens = front ++ [.name name] ∧
      ∀ token ∈ front, ∃ word ∈ modifierWords, token = .name word
  | .suffixed, tokens => ∃ name, tokens = [.name name]
  | .primary, tokens => ∃ name, tokens = [.name name]
  | .items _, _ => True

private theorem Derives.ofNames {symbol : Symbol} {tokens : List Token}
    (h : Derives False symbol tokens) (names : ∀ token ∈ tokens, ∃ name, token = .name name) :
    OfNames symbol tokens := by
  induction h with
  | modified front type ih =>
    have htokens := fun token hm => names token (List.mem_append_right _ hm)
    obtain ⟨before, name, rfl, hb⟩ := ih htokens
    cases front with
    | attributed name =>
      obtain ⟨_, he⟩ := names (.mark '@') List.mem_cons_self
      cases he
    | @word word hw =>
      exact ⟨.name word :: before, name, rfl, List.forall_mem_cons.mpr ⟨⟨word, hw, rfl⟩, hb⟩⟩
    | bare h => exact h.elim
  | plain type ih =>
    obtain ⟨name, rfl⟩ := ih names
    exact ⟨[], name, rfl, by simp⟩
  | function front words back =>
    obtain ⟨_, he⟩ := names .arrow (by simp)
    cases he
  | effects h type words => exact h.elim
  | primary type ih => exact ih names
  | @suffix _ token type mark =>
    obtain ⟨name, rfl⟩ := names token (by simp)
    simp [IsSuffixMark] at mark
  | array element =>
    obtain ⟨_, he⟩ := names (.mark '[') (by simp)
    cases he
  | dictionary first second =>
    obtain ⟨_, he⟩ := names (.mark '[') (by simp)
    cases he
  | unit =>
    obtain ⟨_, he⟩ := names (.mark '(') (by simp)
    cases he
  | parentheses elements =>
    obtain ⟨_, he⟩ := names (.mark '(') (by simp)
    cases he
  | name name => exact ⟨name, rfl⟩
  | generic name args =>
    obtain ⟨_, he⟩ := names (.mark '<') (by simp)
    cases he
  | last => trivial
  | cons => trivial

/-! ### Texts -/

/-- What is read as a type is derived. -/
theorem read_derived {loose : Prop} {fuel : Nat} : ∀ tokens shape rest,
    Gives (read fuel) tokens shape rest → Derived loose .type tokens rest :=
  read_induction (motive := fun tokens _ rest => Derived loose .type tokens rest)
    fun _ _ _ h => h.derived (fun _ _ _ hi => hi.1) (fun _ _ _ hi => hi.2)

/-- A text that is read as a type is the tokens of one with white space around them, each name as
long as it can be. The tokens are derived by the loose grammar; if they are tidy, by the grammar as
it should be. -/
theorem ofText?_derives {text : String} {shape : Shape} (h : ofText? text = some shape) :
    Token.Spaced text.toList (Token.scan text.toList) ∧
      (∀ token ∈ Token.scan text.toList, token.IsSpelled) ∧
      Derives True .type (Token.scan text.toList) ∧
      (Tidy (Token.scan text.toList) → Derives False .type (Token.scan text.toList)) := by
  have hderives {loose : Prop} (htidy : loose ∨ Tidy (Token.scan text.toList)) :
      Derives loose .type (Token.scan text.toList) := by
    obtain ⟨front, hf, hd⟩ := read_derived _ _ _ (gives_of_ofTokens? h) htidy
    rw [List.append_nil] at hf
    rwa [hf]
  exact ⟨Token.spaced_scan _, Token.isSpelled_of_mem_scan _, hderives (.inl trivial),
    fun htidy => hderives (.inr htidy)⟩

/-- An attribute and effect words are where they belong. -/
theorem ofText?_derives_throwingFunction :
    let text := "@escaping (Int) throws -> Int"
    ofText? text = some (.function [.named "Int" []] (.named "Int" [])) ∧
      Tidy (Token.scan text.toList) ∧ Derives False .type (Token.scan text.toList) := by
  intro text
  have hscan : Token.scan text.toList = [.mark '@', .name "escaping", .mark '(', .name "Int",
      .mark ')', .name "throws", .arrow, .name "Int"] := by decide +kernel
  have htext : ofText? text = some (.function [.named "Int" []] (.named "Int" [])) := by
    rw [ofText?, hscan]
    rfl
  have htidy : Tidy (Token.scan text.toList) := by
    rw [hscan]
    constructor
    · intro rest h
      simp only [List.suffix_cons_iff, List.suffix_nil, List.cons.injEq] at h
      simp_all
    · intro before word rest h _ hw
      have hcases : word = "escaping" ∨ word = "Int" ∨
          word = "throws" ∧ rest = [.arrow, .name "Int"] := by
        simp only [List.suffix_cons_iff, List.suffix_nil, List.cons.injEq] at h
        grind
      rcases hcases with rfl | rfl | ⟨-, rfl⟩
      · exact absurd hw (by decide)
      · exact absurd hw (by decide)
      · rfl
  exact ⟨htext, htidy, (ofText?_derives htext).2.2.2 htidy⟩

/-- Effect words are passed over also where no arrow follows them. -/
theorem ofText?_derives_strayEffect :
    ofText? "Int throws" = some (.named "Int" []) ∧
      ¬ Derives False .type (Token.scan "Int throws".toList) := by
  have hscan : Token.scan "Int throws".toList = [.name "Int", .name "throws"] := by decide +kernel
  rw [ofText?, hscan]
  refine ⟨rfl, fun h => ?_⟩
  obtain ⟨front, name, he, hwords⟩ := h.ofNames (by simp)
  have he' : [Token.name "Int"] ++ [.name "throws"] = front ++ [.name name] := he
  obtain ⟨rfl, -⟩ := List.append_inj' he' rfl
  obtain ⟨word, hw, hword⟩ := hwords (.name "Int") List.mem_cons_self
  cases hword
  exact absurd hw (by decide)

end Shape

end SwiftRelations.Types
