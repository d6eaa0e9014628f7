import SwiftRelations.Proofs.Types.Reading

/-!
# The shapes that are read

A shape that is read off a text is normal: its names are names that are no modifiers, none of its
types is the long spelling of another, and no tuple has a single element. Parentheses around one
type make a tuple only on the way to the parameters of a function.
-/

namespace SwiftRelations.Types.Shape

/-- Whether a shape has one form whatever its spelling. -/
inductive Normal : Shape → Prop
  | named {name args} (isName : Token.IsName name.toList) (type : name ∉ modifierWords)
      (short : ofName name args = .named name args) (parts : ∀ arg ∈ args, Normal arg) :
      Normal (.named name args)
  | optional {base} (part : Normal base) : Normal (.optional base)
  | array {element} (part : Normal element) : Normal (.array element)
  | dictionary {key value} (first : Normal key) (second : Normal value) :
      Normal (.dictionary key value)
  | tuple {elements} (several : elements.length ≠ 1)
      (parts : ∀ element ∈ elements, Normal element) : Normal (.tuple elements)
  | function {params result} (parts : ∀ param ∈ params, Normal param) (last : Normal result) :
      Normal (.function params result)

/-- Whether the names among some tokens are names. -/
def Spelled (tokens : List Token) : Prop := ∀ token ∈ tokens, token.IsSpelled

/-- What is known of a type inside another: it takes a token, and is normal. -/
def Inside : Spelling := fun tokens shape rest =>
  Leaves tokens rest ∧ (Spelled tokens → shape.Normal)

private theorem Spelled.suffix {a b : List Token} (h : Spelled a) (hs : b <:+ a) : Spelled b :=
  fun token hm => h token (hs.subset hm)

/-- The shape of a name and its arguments is normal, whether or not it has a shorter spelling. -/
theorem normal_ofName {name : String} {args : List Shape} (isName : Token.IsName name.toList)
    (type : name ∉ modifierWords) (parts : ∀ arg ∈ args, arg.Normal) :
    (ofName name args).Normal := by
  have hcases : ofName name args = .named name args ∨ (ofName name args).Normal := by
    unfold ofName
    split
    case h_1 => exact .inr (.optional (parts _ List.mem_cons_self))
    case h_2 => exact .inr (.optional (parts _ List.mem_cons_self))
    case h_3 => exact .inr (.array (parts _ List.mem_cons_self))
    case h_4 => exact .inr (.dictionary (parts _ (by simp)) (parts _ (by simp)))
    case h_5 => exact .inr (.tuple (by decide) (by simp))
    case h_6 => exact .inl rfl
  rcases hcases with short | h
  · rw [short]
    exact .named isName type short parts
  · exact h

/-- No modifier stands where the modifiers have been passed over. -/
theorem not_mem_modifierWords {tokens rest : List Token} {word : String}
    (h : skipModifiers tokens = .name word :: rest) : word ∉ modifierWords := by
  fun_induction skipModifiers tokens with
  | case1 _ _ ih => exact ih h
  | case2 _ _ ih => exact ih h
  | case3 _ _ _ ih => exact ih h
  | case4 _ _ hw => cases h; exact hw
  | case5 _ _ _ hname => exact absurd h (hname word rest)

/-- Suffixes of a normal shape give a normal shape. -/
theorem Normal.suffixed {base shape : Shape} {tokens rest : List Token} (hb : base.Normal)
    (h : suffixed base tokens = (shape, rest)) : shape.Normal := by
  fun_induction Shape.suffixed base tokens with
  | case1 base tokens ih => exact ih (.array hb) h
  | case2 base tokens ih => exact ih (.optional hb) h
  | case3 base tokens ih => exact ih (.optional hb) h
  | case4 base tokens =>
    cases h
    exact hb

/-- Where an arrow follows, no suffix does. -/
theorem suffixed_of_arrowFollows {base : Shape} {tokens : List Token}
    (h : arrowFollows tokens = true) : suffixed base tokens = (base, tokens) := by
  unfold suffixed
  split
  · simp [arrowFollows, skipEffects] at h
  · simp [arrowFollows, skipEffects] at h
  · simp [arrowFollows, skipEffects] at h
  · rfl

/-- The parameters that a normal shape stands for are normal. -/
theorem Normal.asParams {shape : Shape} (h : shape.Normal) :
    ∀ param ∈ shape.asParams, param.Normal := by
  unfold Shape.asParams
  split
  case h_1 =>
    cases h with
    | tuple _ parts => exact parts
  case h_2 => simpa using h

section Rules

variable {tokens rest : List Token} {shape : Shape} {shapes : List Shape}

/-- The shapes of a list are normal. -/
theorem SpellsItems.normal {start : List Token → List Token} {close : Char}
    (h : SpellsItems Inside start close tokens shapes rest)
    (hstart : ∀ tokens, start tokens <:+ tokens) (ht : Spelled tokens) :
    ∀ shape ∈ shapes, shape.Normal := by
  induction h with
  | last item => simpa using item.2 (ht.suffix (hstart _))
  | cons item items ih =>
    have hitem := item.1.of_suffix_left (hstart _)
    exact List.forall_mem_cons.mpr ⟨item.2 (ht.suffix (hstart _)), ih (ht.suffix hitem.tail.suffix)⟩

/-- The shape of a primary type is normal, or is that of a single parameter before an arrow. -/
theorem SpellsPrimary.normal (h : SpellsPrimary Inside tokens shape rest) (ht : Spelled tokens)
    (type : ∀ word more, tokens = .name word :: more → word ∉ modifierWords) :
    shape.Normal ∨
      ∃ param, shape = .tuple [param] ∧ param.Normal ∧ arrowFollows rest = true := by
  cases h with
  | array item => exact .inl (.array (item.2 (ht.suffix (List.suffix_cons _ _))))
  | dictionary first second =>
    have hinner := ht.suffix (List.suffix_cons _ _)
    exact .inl (.dictionary (first.2 hinner) (second.2 (hinner.suffix first.1.tail.suffix)))
  | unit => exact .inl (.tuple (by decide) (by simp))
  | group begins items ends =>
    have hparts := items.normal skipLabel_suffix (ht.suffix (List.suffix_cons _ _))
    exact .inl (hparts _ List.mem_cons_self)
  | @tuple _ elements _ begins items ends =>
    have hparts := items.normal skipLabel_suffix (ht.suffix (List.suffix_cons _ _))
    by_cases hl : elements.length = 1
    · obtain ⟨param, rfl⟩ := List.length_eq_one_iff.mp hl
      exact .inr ⟨param, rfl, hparts _ List.mem_cons_self, ends rfl⟩
    · exact .inl (.tuple hl hparts)
  | generic items =>
    have hinner := (ht.suffix (List.suffix_cons _ _)).suffix (List.suffix_cons _ _)
    have hparts := items.normal List.suffix_refl hinner
    exact .inl (normal_ofName (ht _ List.mem_cons_self) (type _ _ rfl) hparts)
  | name ends => exact .inl (normal_ofName (ht _ List.mem_cons_self) (type _ _ rfl) (by simp))

/-- The shape of a type is normal. -/
theorem SpellsType.normal (h : SpellsType Inside tokens shape rest) (ht : Spelled tokens) :
    shape.Normal := by
  have hfront {base : Shape} {suffixes : List Token}
      (front : SpellsPrimary Inside (skipModifiers tokens) base suffixes) :=
    front.normal (ht.suffix (skipModifiers_suffix tokens)) fun _ _ => not_mem_modifierWords
  cases h with
  | plain front suffix ends =>
    rcases hfront front with hb | ⟨param, rfl, -, harrow⟩
    · exact hb.suffixed suffix
    · rw [suffixed_of_arrowFollows harrow] at suffix
      cases suffix
      rw [harrow] at ends
      cases ends
  | function front suffix arrow back =>
    have hothers := front.leaves_effects (fun _ _ _ => And.left) suffix
    rw [arrow] at hothers
    refine .function ?_ (back.2 (ht.suffix hothers.tail.suffix))
    rcases hfront front with hb | ⟨param, rfl, hp, harrow⟩
    · exact (hb.suffixed suffix).asParams
    · rw [suffixed_of_arrowFollows harrow] at suffix
      cases suffix
      simpa [Shape.asParams] using hp

end Rules

/-- What is read off a text is normal. -/
theorem normal_of_ofText? {text : String} {shape : Shape} (h : ofText? text = some shape) :
    shape.Normal := by
  unfold ofText? ofTokens? at h
  split at h
  case h_1 hread =>
    cases h
    have hnormal := read_induction (motive := fun tokens shape _ => Spelled tokens → shape.Normal)
      (fun _ _ _ => SpellsType.normal) _ _ _ hread
    exact hnormal (Token.isSpelled_of_mem_scan _)
  case h_2 => cases h

end SwiftRelations.Types.Shape
