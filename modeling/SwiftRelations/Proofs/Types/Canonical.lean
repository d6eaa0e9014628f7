import SwiftRelations.Proofs.Types.Boundary
import SwiftRelations.Proofs.Types.Normal

/-!
# Canonical tokens

Every shape has one list of tokens that spells it without sugar, labels and modifiers. Reading the
tokens of a normal shape gives the shape back, whatever closes a list of types behind them: no
modifier or label is seen in front, and nothing that goes on with a type follows.
-/

namespace SwiftRelations.Types.Shape

/-- Whether a shape is that of a function type. -/
def isFunction : Shape → Bool
  | .function .. => true
  | _ => false

mutual

/-- The tokens that spell a shape. -/
def tokens : Shape → List Token
  | .named name [] => [.name name]
  | .named name (arg :: args) =>
    .name name :: .mark '<' :: (tokensOfAll (arg :: args) ++ [.mark '>'])
  | .optional base =>
    if base.isFunction then .mark '(' :: (tokens base ++ [.mark ')', .mark '?'])
    else tokens base ++ [.mark '?']
  | .array element => .mark '[' :: (tokens element ++ [.mark ']'])
  | .dictionary key value =>
    .mark '[' :: (tokens key ++ .mark ':' :: (tokens value ++ [.mark ']']))
  | .tuple elements => .mark '(' :: (tokensOfAll elements ++ [.mark ')'])
  | .function params result =>
    .mark '(' :: (tokensOfAll params ++ .mark ')' :: .arrow :: tokens result)

/-- The tokens that spell some shapes, with commas between them. -/
def tokensOfAll : List Shape → List Token
  | [] => []
  | [shape] => tokens shape
  | shape :: second :: shapes => tokens shape ++ .mark ',' :: tokensOfAll (second :: shapes)

end

/-! ### What a shape begins with -/

/-- Whether some tokens begin as a shape does: with a bracket, or with a name that is no modifier
and is no label either as long as no colon follows. -/
def Opens : List Token → Prop
  | .mark c :: _ => c = '[' ∨ c = '('
  | [.name word] => word ∉ modifierWords
  | .name word :: .mark c :: _ => word ∉ modifierWords ∧ c ≠ ':'
  | _ => False

variable {rest : List Token} {shape : Shape} {shapes : List Shape}

private theorem Opens.append_mark {tokens : List Token} (h : Opens tokens) {c : Char} (hc : c ≠ ':')
    (rest : List Token) : Opens (tokens ++ .mark c :: rest) := by
  match tokens, h with
  | .mark d :: _, h => exact h
  | [.name word], h => exact ⟨h, hc⟩
  | .name word :: .mark d :: _, h => exact h

/-- No modifier is passed over in front of a type. -/
theorem Opens.skipModifiers {tokens : List Token} (h : Opens tokens) (rest : List Token) :
    skipModifiers (tokens ++ rest) = tokens ++ rest := by
  match tokens, h with
  | .mark c :: _, h => rcases h with rfl | rfl <;> simp [Shape.skipModifiers]
  | [.name word], h => exact if_neg h
  | .name word :: .mark d :: _, h => exact if_neg h.1

/-- No label is passed over in front of a type. -/
theorem Opens.skipLabel {tokens : List Token} (h : Opens tokens) : skipLabel tokens = tokens := by
  match tokens, h with
  | .mark c :: _, h => simp [Shape.skipLabel]
  | [.name word], h => simp [Shape.skipLabel]
  | .name word :: .mark d :: _, h => simp [Shape.skipLabel, h.2]

/-- A type does not begin with a parenthesis that closes. -/
theorem Opens.head?_ne {tokens : List Token} (h : Opens tokens) (rest : List Token) :
    (tokens ++ rest).head? ≠ some (.mark ')') := by
  match tokens, h with
  | .mark c :: _, h => rcases h with rfl | rfl <;> simp
  | [.name word], h => simp
  | .name word :: .mark d :: _, h => simp

/-- The tokens of a normal shape begin as a shape does. -/
theorem Normal.opens (h : shape.Normal) : Opens shape.tokens := by
  induction h with
  | @named name args isName type short parts ih =>
    cases args with
    | nil => simpa [tokens, Opens] using type
    | cons arg args => simpa [tokens, Opens] using type
  | @optional base part ih =>
    rw [tokens]
    split
    · exact .inr rfl
    · exact ih.append_mark (by decide) []
  | array part ih => exact .inl rfl
  | dictionary first second => exact .inl rfl
  | tuple several parts => exact .inr rfl
  | function parts last => exact .inr rfl

/-! ### Reading back -/

/-- Whether the tokens of a shape are read as the shape wherever the type may end. -/
def ReadsBack (shape : Shape) : Prop :=
  ∀ fuel rest, shape.tokens.length < fuel → Stops rest →
    Gives (read fuel) (shape.tokens ++ rest) shape rest

/-- Whether the tokens of a shape, short of some suffixes, are read as a primary type that the
suffixes make the shape. -/
def ReadsFront (shape : Shape) : Prop :=
  ∀ fuel rest, shape.tokens.length ≤ fuel → rest.head? ≠ some (.mark '<') →
    ∃ base suffixes, SpellsPrimary (Gives (read fuel)) (shape.tokens ++ rest) base suffixes ∧
      suffixed base suffixes = suffixed shape rest

/-- The tokens of some shapes are at least as many as those of one of them. -/
theorem length_tokens_le (h : shape ∈ shapes) :
    shape.tokens.length ≤ (tokensOfAll shapes).length := by
  induction shapes with
  | nil => cases h
  | cons first shapes ih =>
    cases shapes with
    | nil =>
      obtain rfl := List.mem_singleton.mp h
      rw [tokensOfAll]
    | cons second shapes =>
      simp only [tokensOfAll, List.length_append, List.length_cons]
      rcases List.mem_cons.mp h with rfl | h
      · omega
      · have := ih h
        omega

/-- Types are read back with the commas between them. -/
theorem spellsItems_tokensOfAll {start : List Token → List Token} {close : Char} {fuel : Nat}
    (hne : shapes ≠ []) (hback : ∀ shape ∈ shapes, shape.ReadsBack)
    (hstart : ∀ shape ∈ shapes, ∀ c more, c ≠ ':' →
      start (shape.tokens ++ .mark c :: more) = shape.tokens ++ .mark c :: more)
    (hclose : close = ')' ∨ close = '>') (hf : (tokensOfAll shapes).length < fuel) :
    SpellsItems (Gives (read fuel)) start close (tokensOfAll shapes ++ .mark close :: rest)
      shapes rest := by
  have hcolon : close ≠ ':' := by rcases hclose with rfl | rfl <;> decide
  have hstops : Stops (.mark close :: rest) := by rcases hclose with rfl | rfl <;> simp [Stops]
  induction shapes with
  | nil => exact absurd rfl hne
  | cons shape shapes ih =>
    obtain ⟨hshape, hshapes⟩ := List.forall_mem_cons.mp hback
    obtain ⟨hs, hstarts⟩ := List.forall_mem_cons.mp hstart
    have hlen := length_tokens_le (List.mem_cons_self (a := shape) (l := shapes))
    cases shapes with
    | nil =>
      refine .last ?_
      rw [tokensOfAll, hs close rest hcolon]
      exact hshape fuel _ (by omega) hstops
    | cons second shapes =>
      have hlens : (tokensOfAll (second :: shapes)).length < fuel := by
        simp only [tokensOfAll, List.length_append, List.length_cons] at hf ⊢
        omega
      rw [tokensOfAll, List.append_assoc, List.cons_append]
      refine .cons ?_ (ih (List.cons_ne_nil _ _) hshapes hstarts hlens)
      rw [hs ',' _ (by decide)]
      exact hshape fuel _ (by omega) (by simp [Stops])

/-- Labels are none of the types in front of which they could be passed over. -/
theorem Normal.skipLabel (h : shape.Normal) {c : Char} (hc : c ≠ ':') (more : List Token) :
    Shape.skipLabel (shape.tokens ++ .mark c :: more) = shape.tokens ++ .mark c :: more :=
  (h.opens.append_mark hc more).skipLabel

/-- The tokens of some normal shapes do not begin with a parenthesis that closes. -/
theorem head?_tokensOfAll_ne (hne : shapes ≠ []) (h : ∀ shape ∈ shapes, shape.Normal)
    (rest : List Token) : (tokensOfAll shapes ++ rest).head? ≠ some (.mark ')') := by
  obtain ⟨shape, shapes, rfl⟩ := List.exists_cons_of_ne_nil hne
  have hopens := (h shape List.mem_cons_self).opens
  cases shapes with
  | nil => exact hopens.head?_ne rest
  | cons second shapes =>
    rw [tokensOfAll, List.append_assoc]
    exact hopens.head?_ne _

/-- A shape that is no function is read back when its front is. -/
theorem ReadsFront.readsBack (hnormal : shape.Normal) (h : shape.ReadsFront) : shape.ReadsBack := by
  intro fuel rest hf hstops
  obtain ⟨fuel, rfl⟩ := Nat.exists_eq_add_one_of_ne_zero (Nat.ne_zero_of_lt hf)
  obtain ⟨base, suffixes, front, suffix⟩ := h fuel rest (Nat.le_of_lt_succ hf) hstops.head?_ne
  rw [hstops.suffixed shape] at suffix
  rw [← hnormal.opens.skipModifiers rest] at front
  have hspells := SpellsType.plain front suffix hstops.arrowFollows
  rw [hstops.skipEffects] at hspells
  exact hspells.step read_leaves

/-- The tokens of a list of elements or parameters in parentheses are read back as a tuple, unless
they are a single element and no arrow follows. -/
theorem spellsPrimary_tuple {fuel : Nat} (hnormal : ∀ shape ∈ shapes, shape.Normal)
    (hback : ∀ shape ∈ shapes, shape.ReadsBack)
    (hone : shapes.length = 1 → Shape.arrowFollows rest = true)
    (hf : (tokensOfAll shapes).length < fuel) :
    SpellsPrimary (Gives (read fuel))
      (.mark '(' :: (tokensOfAll shapes ++ .mark ')' :: rest)) (.tuple shapes) rest := by
  by_cases hne : shapes = []
  · subst hne
    exact .unit
  · refine .tuple (head?_tokensOfAll_ne hne hnormal _) ?_ hone
    exact spellsItems_tokensOfAll hne hback
      (fun shape hs _ more hc => (hnormal shape hs).skipLabel hc more) (.inl rfl) hf

/-- A named type in its short spelling is read back when its arguments are. -/
theorem readsFront_named {name : String} {args : List Shape}
    (short : ofName name args = .named name args) (hargs : ∀ arg ∈ args, arg.ReadsBack) :
    (Shape.named name args).ReadsFront := by
  intro fuel rest hf hrest
  cases args with
  | nil => exact ⟨_, rest, .name hrest, by rw [short]⟩
  | cons arg args =>
    refine ⟨ofName name (arg :: args), rest, ?_, by rw [short]⟩
    simp only [tokens, List.length_cons, List.length_append] at hf
    simp only [tokens, List.cons_append, List.append_assoc, List.nil_append]
    exact .generic (spellsItems_tokensOfAll (List.cons_ne_nil _ _) hargs (fun _ _ _ _ _ => rfl)
      (.inr rfl) (by omega))

/-- An optional is read back when its base is: a function in parentheses, and else without them. -/
theorem readsFront_optional {base : Shape} (hnormal : base.Normal) (hback : base.ReadsBack)
    (hfront : base.isFunction = false → base.ReadsFront) : (Shape.optional base).ReadsFront := by
  intro fuel rest hf hrest
  cases hfun : base.isFunction with
  | true =>
    simp only [tokens, hfun, if_true, List.length_cons, List.length_append] at hf
    refine ⟨base, .mark '?' :: rest, ?_, by rw [Shape.suffixed]⟩
    simp only [tokens, hfun, if_true, List.cons_append, List.append_assoc, List.nil_append]
    refine .group (hnormal.opens.head?_ne _) (.last ?_) rfl
    rw [hnormal.skipLabel (by decide)]
    exact hback fuel _ (by omega) (by simp [Stops])
  | false =>
    simp only [tokens, hfun, Bool.false_eq_true, if_false, List.length_append] at hf
    obtain ⟨front, suffixes, hspells, hsuffix⟩ :=
      hfront hfun fuel (.mark '?' :: rest) (by omega) (by simp)
    refine ⟨front, suffixes, ?_, by rw [hsuffix, Shape.suffixed]⟩
    simpa [tokens, hfun] using hspells

/-- An array is read back when its element is. -/
theorem readsFront_array {element : Shape} (hback : element.ReadsBack) :
    (Shape.array element).ReadsFront := by
  intro fuel rest hf hrest
  simp only [tokens, List.length_cons, List.length_append] at hf
  refine ⟨_, rest, ?_, rfl⟩
  simp only [tokens, List.cons_append, List.append_assoc, List.nil_append]
  exact .array (hback fuel _ (by omega) (by simp [Stops]))

/-- A dictionary is read back when its key and value are. -/
theorem readsFront_dictionary {key value : Shape} (hkey : key.ReadsBack)
    (hvalue : value.ReadsBack) : (Shape.dictionary key value).ReadsFront := by
  intro fuel rest hf hrest
  simp only [tokens, List.length_cons, List.length_append] at hf
  refine ⟨_, rest, ?_, rfl⟩
  simp only [tokens, List.cons_append, List.append_assoc, List.nil_append]
  exact .dictionary (hkey fuel _ (by omega) (by simp [Stops]))
    (hvalue fuel _ (by omega) (by simp [Stops]))

/-- A tuple is read back when its elements are, as long as there is not just one. -/
theorem readsFront_tuple {elements : List Shape} (several : elements.length ≠ 1)
    (hnormal : ∀ element ∈ elements, element.Normal)
    (hback : ∀ element ∈ elements, element.ReadsBack) : (Shape.tuple elements).ReadsFront := by
  intro fuel rest hf hrest
  simp only [tokens, List.length_cons, List.length_append] at hf
  refine ⟨_, rest, ?_, rfl⟩
  simp only [tokens, List.cons_append, List.append_assoc, List.nil_append]
  exact spellsPrimary_tuple hnormal hback (fun h => absurd h several) (by omega)

/-- A function is read back when its parameters and its result are: a single parameter in
parentheses is no group, since an arrow follows. -/
theorem readsBack_function {params : List Shape} {result : Shape}
    (hnormal : ∀ param ∈ params, param.Normal) (hparams : ∀ param ∈ params, param.ReadsBack)
    (hresult : result.ReadsBack) : (Shape.function params result).ReadsBack := by
  intro fuel rest hf hstops
  simp only [tokens, List.length_cons, List.length_append] at hf
  obtain ⟨fuel, rfl⟩ := Nat.exists_eq_add_one_of_ne_zero (Nat.ne_zero_of_lt hf)
  have hlen : (tokensOfAll params).length < fuel := by omega
  have harrow : Shape.arrowFollows (.arrow :: (result.tokens ++ rest)) = true := rfl
  have hspells : SpellsType (Gives (read fuel)) ((Shape.function params result).tokens ++ rest)
      (.function params result) rest := by
    have front := spellsPrimary_tuple hnormal hparams (fun _ => harrow) hlen
    have suffix : suffixed (.tuple params) _ = _ := suffixed_of_arrowFollows harrow
    simp only [tokens, List.cons_append, List.append_assoc]
    exact .function front suffix rfl (hresult fuel rest (by omega) hstops)
  exact hspells.step read_leaves

/-- The tokens of a normal shape are read back, and if it is no function also its front. -/
theorem Normal.readsBack_and (h : shape.Normal) :
    shape.ReadsBack ∧ (shape.isFunction = false → shape.ReadsFront) := by
  induction h with
  | named isName type short parts ih =>
    have hfront := readsFront_named short fun arg ha => (ih arg ha).1
    exact ⟨hfront.readsBack (.named isName type short parts), fun _ => hfront⟩
  | optional part ih =>
    have hfront := readsFront_optional part ih.1 ih.2
    exact ⟨hfront.readsBack (.optional part), fun _ => hfront⟩
  | array part ih =>
    have hfront := readsFront_array ih.1
    exact ⟨hfront.readsBack (.array part), fun _ => hfront⟩
  | dictionary first second ihk ihv =>
    have hfront := readsFront_dictionary ihk.1 ihv.1
    exact ⟨hfront.readsBack (.dictionary first second), fun _ => hfront⟩
  | tuple several parts ih =>
    have hfront := readsFront_tuple several parts fun element he => (ih element he).1
    exact ⟨hfront.readsBack (.tuple several parts), fun _ => hfront⟩
  | function parts last ihs ih =>
    have hback := readsBack_function parts (fun param hp => (ihs param hp).1) ih.1
    exact ⟨hback, fun h => absurd h (by simp [isFunction])⟩

/-- The tokens of a normal shape spell it. -/
theorem Normal.ofTokens? (h : shape.Normal) : ofTokens? shape.tokens = some shape := by
  have hread := h.readsBack_and.1 (shape.tokens.length + 1) [] (Nat.lt_succ_self _) stops_nil
  rw [Gives, List.append_nil] at hread
  rw [Shape.ofTokens?, hread]

end SwiftRelations.Types.Shape
