import SwiftRelations.Proofs.Types.Reading

/-!
# Where a type ends

Closing marks, commas and colons stand behind the types inside other types. A type is read in front
of them as it is read alone, and all that was left behind it then is left in front of them now. So
a type has one reading in every bracket, whatever follows, and also when there is more fuel.
-/

namespace SwiftRelations.Types.Shape

section Stops

variable {more rest : List Token} {tokens : List Token}

/-- Whether nothing follows that goes on with a type: there is no token, or one that parts or closes
what a type is in. -/
def Stops (rest : List Token) : Prop :=
  ∀ token ∈ rest.head?, token ∈ [.mark ',', .mark ')', .mark ']', .mark ':', .mark '>']

/-- A type stops at the end of the text. -/
theorem stops_nil : Stops [] := by simp [Stops]

/-- No effects stand where a type stops. -/
theorem Stops.skipEffects (h : Stops rest) : skipEffects rest = rest := by
  cases rest with
  | nil => rfl
  | cons token rest =>
    have ht := h token rfl
    cases token <;> simp_all [Shape.skipEffects]

/-- No arrow follows where a type stops. -/
theorem Stops.arrowFollows (h : Stops rest) : arrowFollows rest = false := by
  rw [Shape.arrowFollows, h.skipEffects]
  cases rest with
  | nil => rfl
  | cons token rest =>
    have ht := h token rfl
    cases token <;> simp_all

/-- No suffix follows where a type stops. -/
theorem Stops.suffixed (h : Stops rest) (shape : Shape) : suffixed shape rest = (shape, rest) := by
  cases rest with
  | nil => rfl
  | cons token rest =>
    have ht := h token rfl
    simp only [List.mem_cons, List.not_mem_nil, or_false] at ht
    rcases ht with rfl | rfl | rfl | rfl | rfl <;> simp [Shape.suffixed]

/-- No arguments follow where a type stops. -/
theorem Stops.head?_ne (h : Stops rest) : rest.head? ≠ some (.mark '<') :=
  fun hh => absurd (h _ hh) (by decide)

private theorem Stops.skipModifiers (h : Stops rest) : skipModifiers rest = rest := by
  cases rest with
  | nil => rfl
  | cons token rest =>
    have ht := h token rfl
    simp only [List.mem_cons, List.not_mem_nil, or_false] at ht
    rcases ht with rfl | rfl | rfl | rfl | rfl <;> simp [Shape.skipModifiers]

/-! Nothing behind a type is passed over with it. -/

private theorem Stops.skipModifiers_append (h : Stops more) (tokens : List Token) :
    Shape.skipModifiers (tokens ++ more) = Shape.skipModifiers tokens ++ more := by
  fun_induction Shape.skipModifiers tokens with
  | case1 word tokens ih => simpa [Shape.skipModifiers] using ih
  | case2 tokens hname ih =>
    -- The `@` stands without a name, and no name is behind it.
    cases tokens with
    | nil =>
      cases more with
      | nil => rfl
      | cons token more =>
        have ht := h token rfl
        cases token <;> simp_all [Shape.skipModifiers]
    | cons token tokens => cases token <;> simp_all [Shape.skipModifiers]
  | case3 word tokens hword ih => simpa [Shape.skipModifiers, hword] using ih
  | case4 word tokens hword => simp [Shape.skipModifiers, hword]
  | case5 tokens hat hbare hname =>
    cases tokens with
    | nil => exact h.skipModifiers
    | cons token tokens => cases token <;> simp_all [Shape.skipModifiers]

private theorem Stops.skipEffects_append (h : Stops more) (tokens : List Token) :
    Shape.skipEffects (tokens ++ more) = Shape.skipEffects tokens ++ more := by
  fun_induction Shape.skipEffects tokens with
  | case1 word tokens hword ih => simpa [Shape.skipEffects, hword] using ih
  | case2 word tokens hword => simp [Shape.skipEffects, hword]
  | case3 tokens hname =>
    cases tokens with
    | nil => exact h.skipEffects
    | cons token tokens => cases token <;> first | rfl | exact absurd rfl (hname _ _)

private theorem Stops.arrowFollows_append (h : Stops more) (tokens : List Token) :
    Shape.arrowFollows (tokens ++ more) = Shape.arrowFollows tokens := by
  have hmore := h.arrowFollows
  rw [Shape.arrowFollows, h.skipEffects] at hmore
  rw [Shape.arrowFollows, h.skipEffects_append, Shape.arrowFollows]
  cases Shape.skipEffects tokens with
  | nil => exact hmore
  | cons token tokens => cases token <;> rfl

private theorem Stops.suffixed_append (h : Stops more) {base shape : Shape}
    {tokens rest : List Token} (hs : Shape.suffixed base tokens = (shape, rest)) :
    Shape.suffixed base (tokens ++ more) = (shape, rest ++ more) := by
  fun_induction Shape.suffixed base tokens with
  | case1 base tokens ih => simpa [Shape.suffixed] using ih hs
  | case2 base tokens ih => simpa [Shape.suffixed] using ih hs
  | case3 base tokens ih => simpa [Shape.suffixed] using ih hs
  | case4 base tokens hdots hquestion hmark =>
    cases hs
    cases rest with
    | nil => exact h.suffixed shape
    | cons token tokens => cases token <;> simp_all [Shape.suffixed]

end Stops

/-! ### Labels -/

/-- The labels of tuple elements. -/
inductive IsLabel : List Token → Prop
  | one (name : String) : IsLabel [.name name, .mark ':']
  | two (first second : String) : IsLabel [.name first, .name second, .mark ':']

section Labels

variable {label tokens more rest : List Token} {c : Char}

/-- A label is passed over. -/
theorem IsLabel.skipLabel_append (h : IsLabel label) (rest : List Token) :
    skipLabel (label ++ rest) = rest := by
  cases h <;> rfl

/-- Where no label is, nothing is passed over. -/
theorem skipLabel_eq_self (h : ∀ label, IsLabel label → ¬ label <+: tokens) :
    skipLabel tokens = tokens := by
  unfold skipLabel
  split
  case h_1 name rest => exact absurd ⟨rest, rfl⟩ (h _ (.one name))
  case h_2 first second rest => exact absurd ⟨rest, rfl⟩ (h _ (.two first second))
  case h_3 => rfl

/-- A label reaches into what is behind some tokens only when they have no mark, and a mark there is
its colon. -/
theorem IsLabel.prefix_append (h : IsLabel label) (hp : label <+: tokens ++ more) :
    label <+: tokens ∨
      (∀ d, .mark d ∉ tokens) ∧ ∀ c others, more = .mark c :: others → c = ':' := by
  cases h with
  | one name =>
    match tokens with
    | [] =>
      refine .inr ⟨by simp, ?_⟩
      rintro c others rfl
      simp at hp
    | [token] =>
      obtain ⟨rfl, hmore⟩ : Token.name name = token ∧ [.mark ':'] <+: more := by simpa using hp
      refine .inr ⟨by simp, ?_⟩
      rintro c others rfl
      exact (by simpa using hmore : _ = c).symm
    | _ :: _ :: _ => exact .inl (by simpa using hp)
  | two first second =>
    match tokens with
    | [] =>
      refine .inr ⟨by simp, ?_⟩
      rintro c others rfl
      simp at hp
    | [token] =>
      obtain ⟨rfl, hmore⟩ : Token.name first = token ∧ [.name second, .mark ':'] <+: more := by
        simpa using hp
      refine .inr ⟨by simp, ?_⟩
      rintro c others rfl
      simp at hmore
    | [token, token'] =>
      obtain ⟨rfl, rfl, hmore⟩ : Token.name first = token ∧ Token.name second = token' ∧
          [.mark ':'] <+: more := by simpa using hp
      refine .inr ⟨by simp, ?_⟩
      rintro c others rfl
      exact (by simpa using hmore : _ = c).symm
    | _ :: _ :: _ :: _ => exact .inl (by simpa using hp)

/-- What is behind some tokens does not change their label when a mark is left of them. -/
theorem skipLabel_append (more : List Token) (h : Leaves (skipLabel tokens) (.mark c :: rest)) :
    skipLabel (tokens ++ more) = skipLabel tokens ++ more := by
  by_cases hl : ∃ label, IsLabel label ∧ label <+: tokens
  · obtain ⟨label, hlabel, tokens, rfl⟩ := hl
    rw [List.append_assoc, hlabel.skipLabel_append, hlabel.skipLabel_append]
  · have hnone : ∀ label, IsLabel label → ¬ label <+: tokens := fun label hlabel hp =>
      hl ⟨label, hlabel, hp⟩
    have hmark : .mark c ∈ tokens :=
      (skipLabel_suffix tokens).subset (h.suffix.subset List.mem_cons_self)
    rw [skipLabel_eq_self hnone, skipLabel_eq_self]
    intro label hlabel hp
    rcases hlabel.prefix_append hp with hp | ⟨hno, -⟩
    · exact hnone label hlabel hp
    · exact hno c hmark

end Labels

/-! ### Reading in front of more -/

section Append

variable {inner inner' : Spelling} {more : List Token} (hm : Stops more)
  (hleaves : ∀ tokens shape rest, inner tokens shape rest → Leaves tokens rest)
  (hinner : ∀ tokens shape rest, inner tokens shape rest →
    inner' (tokens ++ more) shape (rest ++ more))
  {tokens rest : List Token} {shape : Shape} {shapes : List Shape}

include hinner in
/-- A list of types is one in front of more when a label of a type stays one. -/
theorem SpellsItems.append {start : List Token → List Token} {close : Char}
    (hstart : ∀ tokens shape c rest, inner (start tokens) shape (.mark c :: rest) →
      start (tokens ++ more) = start tokens ++ more)
    (h : SpellsItems inner start close tokens shapes rest) :
    SpellsItems inner' start close (tokens ++ more) shapes (rest ++ more) := by
  induction h with
  | last item =>
    refine .last ?_
    rw [hstart _ _ _ _ item]
    exact hinner _ _ _ item
  | cons item items ih =>
    refine .cons ?_ ih
    rw [hstart _ _ _ _ item]
    exact hinner _ _ _ item

include hm hleaves hinner

/-- A primary type is one in front of more. -/
theorem SpellsPrimary.append (h : SpellsPrimary inner tokens shape rest) :
    SpellsPrimary inner' (tokens ++ more) shape (rest ++ more) := by
  have hlabel : ∀ tokens shape c rest, inner (skipLabel tokens) shape (.mark c :: rest) →
      skipLabel (tokens ++ more) = skipLabel tokens ++ more := fun _ _ _ _ item =>
    skipLabel_append more (hleaves _ _ _ item)
  have hbegins {tokens rest : List Token} {shapes : List Shape}
      (begins : tokens.head? ≠ some (.mark ')'))
      (items : SpellsItems inner skipLabel ')' tokens shapes rest) :
      (tokens ++ more).head? ≠ some (.mark ')') := by
    have hlt := (items.length_le hleaves skipLabel_suffix).2
    cases tokens with
    | nil => cases items <;> simp at hlt
    | cons token tokens => exact begins
  cases h with
  | array item => exact .array (hinner _ _ _ item)
  | dictionary first second => exact .dictionary (hinner _ _ _ first) (hinner _ _ _ second)
  | unit => exact .unit
  | group begins items ends =>
    exact .group (hbegins begins items) (items.append hinner hlabel)
      ((hm.arrowFollows_append _).trans ends)
  | tuple begins items ends =>
    exact .tuple (hbegins begins items) (items.append hinner hlabel)
      fun hl => (hm.arrowFollows_append _).trans (ends hl)
  | generic items => exact .generic (items.append hinner fun _ _ _ _ _ => rfl)
  | name ends =>
    refine .name ?_
    cases rest with
    | nil => exact hm.head?_ne
    | cons token rest => exact ends

/-- A type is one in front of more. -/
theorem SpellsType.append (h : SpellsType inner tokens shape rest) :
    SpellsType inner' (tokens ++ more) shape (rest ++ more) := by
  have hfront {base : Shape} {suffixes : List Token}
      (front : SpellsPrimary inner (skipModifiers tokens) base suffixes) :
      SpellsPrimary inner' (skipModifiers (tokens ++ more)) base (suffixes ++ more) := by
    rw [hm.skipModifiers_append]
    exact front.append hm hleaves hinner
  cases h with
  | plain front suffix ends =>
    rw [← hm.skipEffects_append]
    exact .plain (hfront front) (hm.suffixed_append suffix) ((hm.arrowFollows_append _).trans ends)
  | function front suffix arrow back =>
    refine .function (hfront front) (hm.suffixed_append suffix) ?_ (hinner _ _ _ back)
    rw [hm.skipEffects_append, arrow, List.cons_append]

end Append

/-- What is read alone is read in front of more. -/
theorem read_append {more : List Token} (hm : Stops more) {fuel : Nat} :
    ∀ tokens shape rest, Gives (read fuel) tokens shape rest →
      Gives (read fuel) (tokens ++ more) shape (rest ++ more) := by
  induction fuel with
  | zero => nofun
  | succ fuel ih =>
    exact fun _ _ _ h => ((spellsType_of_step h).append hm read_leaves ih).step read_leaves

/-- What is read is read with more fuel. -/
theorem read_mono {fuel more : Nat} (h : fuel ≤ more) :
    ∀ tokens shape rest, Gives (read fuel) tokens shape rest →
      Gives (read more) tokens shape rest := by
  induction fuel generalizing more with
  | zero => nofun
  | succ fuel ih =>
    obtain ⟨more, rfl⟩ := Nat.exists_eq_add_one_of_ne_zero (Nat.ne_zero_of_lt h)
    exact fun _ _ _ hg =>
      ((spellsType_of_step hg).imp (ih (Nat.le_of_succ_le_succ h))).step read_leaves

end SwiftRelations.Types.Shape
