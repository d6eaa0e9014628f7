import SwiftRelations.Proofs.Types.Scan
import Mathlib.Data.List.Infix

/-!
# What reading a type takes

The readers of types call the reader for the types inside by a parameter, and so do the rules here:
given which tokens the types inside take and which they leave, a rule says the same of the type
around them, with one case for each way to go on. The readers give what the rules hold of and
nothing else, so that what is kept by the rules is true of all that is read.
-/

namespace SwiftRelations.Types.Shape

/-- A relation between tokens, the shape of a type in front of them, and the tokens after it. -/
abbrev Spelling := List Token → Shape → List Token → Prop

/-- What a reader gives. -/
def Gives (type : Reader) : Spelling := fun tokens shape rest => type tokens = some (shape, rest)

/-! ### The rules -/

section Rules

variable (inner : Spelling)

/-- Types with commas between them, each where `start` says that one begins, and a closing mark. -/
inductive SpellsItems (start : List Token → List Token) (close : Char) :
    List Token → List Shape → List Token → Prop
  | last {tokens shape rest} (item : inner (start tokens) shape (.mark close :: rest)) :
      SpellsItems start close tokens [shape] rest
  | cons {tokens shape others shapes rest}
      (item : inner (start tokens) shape (.mark ',' :: others))
      (items : SpellsItems start close others shapes rest) :
      SpellsItems start close tokens (shape :: shapes) rest

/-- A primary type. One type in parentheses is a list of parameters when an arrow follows. -/
inductive SpellsPrimary : Spelling
  | array {tokens element rest} (item : inner tokens element (.mark ']' :: rest)) :
      SpellsPrimary (.mark '[' :: tokens) (.array element) rest
  | dictionary {tokens key others value rest} (first : inner tokens key (.mark ':' :: others))
      (second : inner others value (.mark ']' :: rest)) :
      SpellsPrimary (.mark '[' :: tokens) (.dictionary key value) rest
  | unit {rest} : SpellsPrimary (.mark '(' :: .mark ')' :: rest) (.tuple []) rest
  | group {tokens shape rest} (begins : tokens.head? ≠ some (.mark ')'))
      (items : SpellsItems inner skipLabel ')' tokens [shape] rest)
      (ends : arrowFollows rest = false) : SpellsPrimary (.mark '(' :: tokens) shape rest
  | tuple {tokens elements rest} (begins : tokens.head? ≠ some (.mark ')'))
      (items : SpellsItems inner skipLabel ')' tokens elements rest)
      (ends : elements.length = 1 → arrowFollows rest = true) :
      SpellsPrimary (.mark '(' :: tokens) (.tuple elements) rest
  | generic {name tokens args rest} (items : SpellsItems inner id '>' tokens args rest) :
      SpellsPrimary (.name name :: .mark '<' :: tokens) (ofName name args) rest
  | name {name rest} (ends : rest.head? ≠ some (.mark '<')) :
      SpellsPrimary (.name name :: rest) (ofName name []) rest

/-- A type. Effect words are passed over also where no arrow follows them. -/
inductive SpellsType : Spelling
  | plain {tokens base suffixes shape rest}
      (front : SpellsPrimary inner (skipModifiers tokens) base suffixes)
      (suffix : suffixed base suffixes = (shape, rest)) (ends : arrowFollows rest = false) :
      SpellsType tokens shape (skipEffects rest)
  | function {tokens base suffixes shape effects others result rest}
      (front : SpellsPrimary inner (skipModifiers tokens) base suffixes)
      (suffix : suffixed base suffixes = (shape, effects))
      (arrow : skipEffects effects = .arrow :: others) (back : inner others result rest) :
      SpellsType tokens (.function shape.asParams result) rest

end Rules

section Imp

variable {inner inner' : Spelling}
  (himp : ∀ tokens shape rest, inner tokens shape rest → inner' tokens shape rest)
  {tokens rest : List Token} {shape : Shape} {shapes : List Shape}
include himp

private theorem SpellsItems.imp {start : List Token → List Token} {close : Char}
    (h : SpellsItems inner start close tokens shapes rest) :
    SpellsItems inner' start close tokens shapes rest := by
  induction h with
  | last item => exact .last (himp _ _ _ item)
  | cons item items ih => exact .cons (himp _ _ _ item) ih

private theorem SpellsPrimary.imp (h : SpellsPrimary inner tokens shape rest) :
    SpellsPrimary inner' tokens shape rest := by
  cases h with
  | array item => exact .array (himp _ _ _ item)
  | dictionary first second => exact .dictionary (himp _ _ _ first) (himp _ _ _ second)
  | unit => exact .unit
  | group begins items ends => exact .group begins (items.imp himp) ends
  | tuple begins items ends => exact .tuple begins (items.imp himp) ends
  | generic items => exact .generic (items.imp himp)
  | name ends => exact .name ends

/-- What is spelled by the rules is spelled when more is inside. -/
theorem SpellsType.imp (h : SpellsType inner tokens shape rest) :
    SpellsType inner' tokens shape rest := by
  cases h with
  | plain front suffix ends => exact .plain (front.imp himp) suffix ends
  | function front suffix arrow back =>
    exact .function (front.imp himp) suffix arrow (himp _ _ _ back)

end Imp

/-! ### Reading is what the rules say -/

section Readers

variable {type : Reader} {tokens rest : List Token} {shape : Shape} {shapes : List Shape}

/-- What is read as a list is one by the rules. -/
theorem spellsItems_of_separated {start : List Token → List Token} {close : Char} {fuel : Nat}
    (h : separated (type ∘ start) close fuel tokens = some (shapes, rest)) :
    SpellsItems (Gives type) start close tokens shapes rest := by
  induction fuel generalizing tokens shapes rest with
  | zero => cases h
  | succ fuel ih =>
    rw [separated] at h
    obtain ⟨⟨first, others⟩, hfirst, h⟩ := Option.bind_eq_some_iff.mp h
    dsimp only at h
    split at h
    case h_2 => cases h
    case h_1 c others =>
      split at h
      case isTrue hc =>
        obtain ⟨⟨shapes, others⟩, hs, h⟩ := Option.bind_eq_some_iff.mp h
        cases h
        exact .cons (hc ▸ hfirst) (ih hs)
      case isFalse =>
        split at h
        case isTrue hc =>
          cases h
          exact .last (hc ▸ hfirst)
        case isFalse => cases h

/-- What is a list by the rules is read when the fuel reaches the number of types. -/
theorem SpellsItems.separated {start : List Token → List Token} {close : Char} {fuel : Nat}
    (h : SpellsItems (Gives type) start close tokens shapes rest) (hclose : close ≠ ',')
    (hf : shapes.length ≤ fuel) :
    separated (type ∘ start) close fuel tokens = some (shapes, rest) := by
  induction h generalizing fuel with
  | last item =>
    obtain ⟨fuel, rfl⟩ := Nat.exists_eq_add_one_of_ne_zero (Nat.ne_zero_of_lt hf)
    simp only [Gives] at item
    simp [Shape.separated, item, hclose]
  | cons item items ih =>
    obtain ⟨fuel, rfl⟩ := Nat.exists_eq_add_one_of_ne_zero (Nat.ne_zero_of_lt hf)
    simp only [Gives] at item
    have hitems := ih (Nat.le_of_succ_le_succ hf)
    simp [Shape.separated, item, hitems]

/-- Parentheses that are not empty hold a list of types. -/
theorem primary_parenthesis (h : tokens.head? ≠ some (.mark ')')) :
    primary type (.mark '(' :: tokens) =
      (separated (type ∘ skipLabel) ')' tokens.length tokens).bind fun (elements, rest) =>
        match elements with
        | [single] => some (if arrowFollows rest then .tuple [single] else single, rest)
        | _ => some (.tuple elements, rest) := by
  unfold primary
  split
  case h_1 heq => simp at heq
  case h_2 heq => simp_all
  case h_3 heq => obtain ⟨-, rfl⟩ := List.cons.inj heq; rfl
  case h_4 heq => simp at heq
  case h_5 heq => simp at heq
  case h_6 hne _ _ => exact absurd rfl (hne tokens)

/-- A name without arguments is a primary type. -/
theorem primary_name {name : String} (h : rest.head? ≠ some (.mark '<')) :
    primary type (.name name :: rest) = some (ofName name [], rest) := by
  unfold primary
  split
  case h_1 heq => simp at heq
  case h_2 heq => simp at heq
  case h_3 heq => simp at heq
  case h_4 heq => simp_all
  case h_5 heq => cases heq; rfl
  case h_6 heq => exact absurd rfl (heq name rest)

/-- What is read in parentheses is by the rules the type, or the list of types. -/
theorem spellsPrimary_of_parenthesis (hbegins : tokens.head? ≠ some (.mark ')'))
    (h : primary type (.mark '(' :: tokens) = some (shape, rest)) :
    SpellsPrimary (Gives type) (.mark '(' :: tokens) shape rest := by
  rw [primary_parenthesis hbegins] at h
  obtain ⟨⟨elements, others⟩, he, h⟩ := Option.bind_eq_some_iff.mp h
  have hitems := spellsItems_of_separated he
  dsimp only at h
  split at h
  case h_1 single =>
    cases hf : arrowFollows others with
    | false =>
      rw [hf, if_neg Bool.false_ne_true] at h
      cases h
      exact .group hbegins hitems hf
    | true =>
      rw [hf, if_pos rfl] at h
      cases h
      exact .tuple hbegins hitems fun _ => hf
  case h_2 hne =>
    cases h
    exact .tuple hbegins hitems fun hl =>
      have ⟨single, hs⟩ := List.length_eq_one_iff.mp hl
      absurd hs (hne single)

/-- What is read as a primary type is one by the rules. -/
theorem spellsPrimary_of_primary (h : primary type tokens = some (shape, rest)) :
    SpellsPrimary (Gives type) tokens shape rest := by
  have hread := h
  unfold primary at h
  split at h
  case h_1 tokens =>
    obtain ⟨⟨first, others⟩, hfirst, h⟩ := Option.bind_eq_some_iff.mp h
    dsimp only at h
    split at h
    case h_1 others =>
      obtain ⟨⟨value, others⟩, hvalue, h⟩ := Option.bind_eq_some_iff.mp h
      dsimp only at h
      split at h
      case h_1 =>
        cases h
        exact .dictionary hfirst hvalue
      case h_2 => cases h
    case h_2 =>
      cases h
      exact .array hfirst
    case h_3 => cases h
  case h_2 =>
    cases h
    exact .unit
  case h_3 tokens hunit =>
    refine spellsPrimary_of_parenthesis (fun hh => ?_) hread
    obtain ⟨more, rfl⟩ := List.head?_eq_some_iff.mp hh
    exact hunit more rfl
  case h_4 name tokens =>
    obtain ⟨⟨args, others⟩, ha, h⟩ := Option.bind_eq_some_iff.mp h
    cases h
    exact .generic (spellsItems_of_separated ha)
  case h_5 name tokens hne =>
    cases h
    refine .name fun hh => ?_
    obtain ⟨more, rfl⟩ := List.head?_eq_some_iff.mp hh
    exact hne more rfl
  case h_6 => cases h

/-- What is read as a type is one by the rules. -/
theorem spellsType_of_step (h : step type tokens = some (shape, rest)) :
    SpellsType (Gives type) tokens shape rest := by
  obtain ⟨⟨base, suffixes⟩, hb, h⟩ := Option.bind_eq_some_iff.mp h
  have hfront := spellsPrimary_of_primary hb
  dsimp only at h
  split at h
  case h_1 others harrow =>
    obtain ⟨⟨result, rest⟩, hr, h⟩ := Option.bind_eq_some_iff.mp h
    cases h
    exact .function hfront rfl harrow hr
  case h_2 harrow =>
    cases h
    refine .plain hfront rfl ?_
    unfold arrowFollows
    split
    case h_1 heq => exact absurd heq (harrow _)
    case h_2 => rfl

end Readers

/-! ### What is left -/

/-- Whether the second list is what is left of the first when some tokens in front are taken. -/
structure Leaves (tokens rest : List Token) : Prop where
  suffix : rest <:+ tokens
  lt : rest.length < tokens.length

section Leaves

variable {a b c : List Token} {token : Token}

/-- Taking the first token leaves the others, or fewer. -/
theorem Leaves.cons (h : a <:+ b) : Leaves (token :: b) a where
  suffix := h.trans (List.suffix_cons token b)
  lt := Nat.lt_succ_of_le h.length_le

/-- What is left of fewer tokens is left of more. -/
theorem Leaves.of_suffix_left (hs : b <:+ a) (h : Leaves b c) : Leaves a c :=
  ⟨h.suffix.trans hs, Nat.lt_of_lt_of_le h.lt hs.length_le⟩

/-- Fewer tokens than are left may be left. -/
theorem Leaves.of_suffix_right (h : Leaves a b) (hs : c <:+ b) : Leaves a c :=
  ⟨hs.trans h.suffix, Nat.lt_of_le_of_lt hs.length_le h.lt⟩

/-- One more token may be taken. -/
theorem Leaves.tail (h : Leaves a (token :: b)) : Leaves a b :=
  h.of_suffix_right (List.suffix_cons token b)

private theorem Leaves.trans (h : Leaves a b) (h' : Leaves b c) : Leaves a c :=
  h.of_suffix_right h'.suffix

end Leaves

/-- What is behind the modifiers ends the tokens. -/
theorem skipModifiers_suffix (tokens : List Token) : skipModifiers tokens <:+ tokens := by
  fun_induction skipModifiers tokens with
  | case1 word rest ih => exact ih.trans ((List.suffix_cons _ _).trans (List.suffix_cons _ _))
  | case2 rest _ ih => exact ih.trans (List.suffix_cons _ _)
  | case3 word rest _ ih => exact ih.trans (List.suffix_cons _ _)
  | case4 => exact List.suffix_refl _
  | case5 => exact List.suffix_refl _

private theorem skipEffects_suffix (tokens : List Token) : skipEffects tokens <:+ tokens := by
  fun_induction skipEffects tokens with
  | case1 word rest _ ih => exact ih.trans (List.suffix_cons _ _)
  | case2 => exact List.suffix_refl _
  | case3 => exact List.suffix_refl _

/-- What is behind a label ends the tokens. -/
theorem skipLabel_suffix (tokens : List Token) : skipLabel tokens <:+ tokens := by
  unfold skipLabel
  split
  · exact (List.suffix_cons _ _).trans (List.suffix_cons _ _)
  · exact (List.suffix_cons _ _).trans ((List.suffix_cons _ _).trans (List.suffix_cons _ _))
  · exact List.suffix_refl _

private theorem suffixed_suffix {base shape : Shape} {tokens rest : List Token}
    (h : suffixed base tokens = (shape, rest)) : rest <:+ tokens := by
  fun_induction suffixed base tokens with
  | case1 base tokens ih => exact (ih h).trans (List.suffix_cons _ _)
  | case2 base tokens ih => exact (ih h).trans (List.suffix_cons _ _)
  | case3 base tokens ih => exact (ih h).trans (List.suffix_cons _ _)
  | case4 base tokens =>
    cases h
    exact List.suffix_refl _

section Progress

variable {inner : Spelling}
  (hinner : ∀ tokens shape rest, inner tokens shape rest → Leaves tokens rest)
  {tokens rest : List Token} {shape : Shape} {shapes : List Shape}
include hinner

/-- A list takes a token for each of its types. -/
theorem SpellsItems.length_le {start : List Token → List Token} {close : Char}
    (hstart : ∀ tokens, start tokens <:+ tokens)
    (h : SpellsItems inner start close tokens shapes rest) :
    rest <:+ tokens ∧ shapes.length + rest.length ≤ tokens.length := by
  induction h with
  | @last tokens shape rest item =>
    have hl := ((hinner _ _ _ item).of_suffix_left (hstart tokens)).tail
    have := hl.lt
    exact ⟨hl.suffix, by simp only [List.length_singleton]; omega⟩
  | @cons tokens shape others shapes rest item items ih =>
    have hl := ((hinner _ _ _ item).of_suffix_left (hstart tokens)).tail
    have := hl.lt
    exact ⟨ih.1.trans hl.suffix, by simp only [List.length_cons]; omega⟩

/-- A primary type takes at least one token. -/
theorem SpellsPrimary.leaves (h : SpellsPrimary inner tokens shape rest) : Leaves tokens rest := by
  cases h with
  | array item => exact .cons (hinner _ _ _ item).tail.suffix
  | dictionary first second =>
    exact .cons ((hinner _ _ _ first).tail.trans (hinner _ _ _ second).tail).suffix
  | unit => exact .cons (List.suffix_cons _ _)
  | group begins items ends => exact .cons (items.length_le hinner skipLabel_suffix).1
  | tuple begins items ends => exact .cons (items.length_le hinner skipLabel_suffix).1
  | generic items =>
    exact .cons ((items.length_le hinner List.suffix_refl).1.trans (List.suffix_cons _ _))
  | name ends => exact .cons (List.suffix_refl _)

/-- What follows the suffixes and effect words of a type is left when tokens are taken. -/
theorem SpellsPrimary.leaves_effects {base : Shape} {suffixes effects : List Token}
    (front : SpellsPrimary inner (skipModifiers tokens) base suffixes)
    (suffix : suffixed base suffixes = (shape, effects)) : Leaves tokens (skipEffects effects) :=
  ((front.leaves hinner).of_suffix_left (skipModifiers_suffix tokens)).of_suffix_right
    ((skipEffects_suffix effects).trans (suffixed_suffix suffix))

/-- A type takes at least one token. -/
theorem SpellsType.leaves (h : SpellsType inner tokens shape rest) : Leaves tokens rest := by
  cases h with
  | plain front suffix ends => exact front.leaves_effects hinner suffix
  | function front suffix arrow back =>
    have hothers := arrow ▸ front.leaves_effects hinner suffix
    exact hothers.tail.trans (hinner _ _ _ back)

end Progress

/-- Reading a type takes at least one token. -/
theorem read_leaves {fuel : Nat} : ∀ tokens shape rest, Gives (read fuel) tokens shape rest →
    Leaves tokens rest := by
  induction fuel with
  | zero => nofun
  | succ fuel ih => exact fun _ _ _ h => (spellsType_of_step h).leaves ih

/-- What the rules keep is true of all that is read. -/
theorem read_induction {motive : Spelling}
    (rules : ∀ tokens shape rest,
      SpellsType (fun tokens shape rest => Leaves tokens rest ∧ motive tokens shape rest)
        tokens shape rest → motive tokens shape rest) {fuel : Nat} :
    ∀ tokens shape rest, Gives (read fuel) tokens shape rest → motive tokens shape rest := by
  induction fuel with
  | zero => nofun
  | succ fuel ih =>
    intro tokens shape rest h
    have hspells : SpellsType (Gives (read fuel)) tokens shape rest := spellsType_of_step h
    exact rules _ _ _ (hspells.imp fun _ _ _ hg => ⟨read_leaves _ _ _ hg, ih _ _ _ hg⟩)

section Readers

variable {type : Reader}
  (hinner : ∀ tokens shape rest, Gives type tokens shape rest → Leaves tokens rest)
  {tokens rest : List Token} {shape : Shape}

include hinner

/-- What is a primary type by the rules is read. -/
theorem SpellsPrimary.primary (h : SpellsPrimary (Gives type) tokens shape rest) :
    primary type tokens = some (shape, rest) := by
  have hfuel {start : List Token → List Token} {close : Char} {tokens rest : List Token}
      {shapes : List Shape} (hstart : ∀ tokens, start tokens <:+ tokens)
      (h : SpellsItems (Gives type) start close tokens shapes rest) :
      shapes.length ≤ tokens.length :=
    Nat.le_trans (Nat.le_add_right _ _) (h.length_le hinner hstart).2
  cases h with
  | array item =>
    simp only [Gives] at item
    simp [Shape.primary, item]
  | dictionary first second =>
    simp only [Gives] at first second
    simp [Shape.primary, first, second]
  | unit => simp [Shape.primary]
  | group begins items ends =>
    have hread := items.separated (by decide) (hfuel skipLabel_suffix items)
    simp [primary_parenthesis begins, hread, ends]
  | tuple begins items ends =>
    have hread := items.separated (by decide) (hfuel skipLabel_suffix items)
    rw [primary_parenthesis begins, hread, Option.bind_some]
    dsimp only
    split
    case h_1 single => rw [ends rfl, if_pos rfl]
    case h_2 => rfl
  | generic items =>
    have hread := items.separated (by decide) (hfuel List.suffix_refl items)
    simp [Shape.primary, show separated type '>' _ _ = _ from hread]
  | name ends => exact primary_name ends

/-- What is a type by the rules is read. -/
theorem SpellsType.step (h : SpellsType (Gives type) tokens shape rest) :
    step type tokens = some (shape, rest) := by
  cases h with
  | plain front suffix ends =>
    simp only [Shape.step, front.primary hinner, Option.bind_eq_bind, Option.bind_some, suffix]
    split
    case h_1 harrow => simp [arrowFollows, harrow] at ends
    case h_2 => rfl
  | function front suffix arrow back =>
    simp only [Gives] at back
    simp [Shape.step, front.primary hinner, suffix, arrow, back]

end Readers

end SwiftRelations.Types.Shape
