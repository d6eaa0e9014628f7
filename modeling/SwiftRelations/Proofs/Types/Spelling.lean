import SwiftRelations.Proofs.Types.Canonical
import SwiftRelations.Proofs.Types.Unfolding

/-!
# Reading canonical names

The canonical name of a type that has a shape is scanned to the tokens of the shape, and so spells
the shape: canonical names read back. The name of an unknown type is its squeezed text, which spells
no type either. So what a text stands for is what its canonical name stands for.
-/

namespace SwiftRelations

open SwiftRelations.Text SwiftRelations.Types

namespace Types.Shape

open Token

variable {shape : Shape} {shapes : List Shape} {tail : List Char}

/-! ### Scanning names -/

/-- The punctuation of canonical names, but for arrows. -/
def punctuation : List Char := ['[', ']', '(', ')', '<', '>', ':', ',', '?']

/-- Punctuation is neither white space nor part of a name, an arrow or dots. -/
theorem not_of_mem_punctuation {c : Char} (h : c ∈ punctuation) :
    isBlank c = false ∧ continuesName c = false ∧ c ≠ '-' ∧ c ≠ '.' := by
  have hall : (punctuation.all fun c =>
      !isBlank c && !continuesName c && c != '-' && c != '.') = true := by
    decide
  simpa [and_assoc] using List.all_eq_true.mp hall c h

/-- Punctuation is scanned as it stands. -/
theorem scan_punctuation {c : Char} (h : c ∈ punctuation) (cs : List Char) :
    scan (c :: cs) = .mark c :: scan cs := by
  obtain ⟨hblank, hname, harrow, hdots⟩ := not_of_mem_punctuation h
  exact scan_mark hblank (beginsName_eq_false hname) harrow hdots

/-- Punctuation ends a name. -/
theorem endsName_punctuation {c : Char} (h : c ∈ punctuation) (cs : List Char) :
    EndsName (c :: cs) := by
  obtain ⟨-, hname, -, hdots⟩ := not_of_mem_punctuation h
  exact endsName_cons hname hdots

/-- A space is passed over. -/
theorem scan_space (cs : List Char) : scan (' ' :: cs) = scan cs := scan_blank (by decide)

/-- Whether the name of a shape's type is scanned to the tokens of the shape wherever it ends. -/
def ScansBack (shape : Shape) : Prop :=
  ∀ tail, EndsName tail → scan (shape.tree.name.toList ++ tail) = shape.tokens ++ scan tail

/-- Names with commas between them are scanned to the tokens of their shapes. -/
theorem scan_namesOfAll (hback : ∀ shape ∈ shapes, shape.ScansBack) (ht : EndsName tail) :
    scan ((", ".intercalate (TypeTree.namesOfAll (treesOfAll shapes))).toList ++ tail) =
      tokensOfAll shapes ++ scan tail := by
  have hlist : (", ".intercalate (TypeTree.namesOfAll (treesOfAll shapes))).toList =
      [',', ' '].intercalate (shapes.map fun shape => shape.tree.name.toList) := by
    simp [treesOfAll_eq_map, TypeTree.namesOfAll_eq_map, Function.comp_def]
  rw [hlist]
  clear hlist
  induction shapes with
  | nil => rfl
  | cons shape shapes ih =>
    obtain ⟨hshape, hshapes⟩ := List.forall_mem_cons.mp hback
    cases shapes with
    | nil => simpa [tokensOfAll] using hshape tail ht
    | cons second shapes =>
      have hrest := ih hshapes
      rw [List.map_cons] at hrest
      rw [List.map_cons, List.map_cons, List.intercalate_cons_cons, tokensOfAll]
      simp only [List.append_assoc, List.cons_append, List.nil_append]
      rw [hshape _ (endsName_punctuation (by decide) _), scan_punctuation (by decide), scan_space,
        hrest]

/-- The name of a named type is scanned back when those of its arguments are. -/
theorem scansBack_named {name : String} {args : List Shape} (isName : IsName name.toList)
    (hback : ∀ arg ∈ args, arg.ScansBack) : (Shape.named name args).ScansBack := by
  intro tail ht
  cases args with
  | nil => simpa [tree, treesOfAll, TypeTree.name, tokens] using scan_name isName ht
  | cons arg args =>
    have hname : (Shape.named name (arg :: args)).tree.name.toList ++ tail = name.toList ++ '<' ::
        ((", ".intercalate (TypeTree.namesOfAll (treesOfAll (arg :: args)))).toList ++
          '>' :: tail) := by
      simp [tree, treesOfAll, TypeTree.name]
    rw [hname, scan_name isName (endsName_punctuation (by decide) _), scan_punctuation (by decide),
      scan_namesOfAll hback (endsName_punctuation (by decide) _), scan_punctuation (by decide)]
    simp [tokens]

/-- The name of an optional is scanned back when that of its base is. -/
theorem scansBack_optional {base : Shape} (hback : base.ScansBack) :
    (Shape.optional base).ScansBack := by
  have hfun : base.tree.isFunction = base.isFunction := by cases base <;> rfl
  intro tail ht
  cases hf : base.isFunction with
  | true =>
    have hname : (Shape.optional base).tree.name.toList ++ tail =
        '(' :: (base.tree.name.toList ++ ')' :: '?' :: tail) := by
      simp [tree, TypeTree.name, hfun, hf]
    rw [hname, scan_punctuation (by decide), hback _ (endsName_punctuation (by decide) _),
      scan_punctuation (by decide), scan_punctuation (by decide)]
    simp [tokens, hf]
  | false =>
    have hname : (Shape.optional base).tree.name.toList ++ tail =
        base.tree.name.toList ++ '?' :: tail := by
      simp [tree, TypeTree.name, hfun, hf]
    rw [hname, hback _ (endsName_punctuation (by decide) _), scan_punctuation (by decide)]
    simp [tokens, hf]

/-- The name of an array is scanned back when that of its element is. -/
theorem scansBack_array {element : Shape} (hback : element.ScansBack) :
    (Shape.array element).ScansBack := by
  intro tail ht
  have hname : (Shape.array element).tree.name.toList ++ tail =
      '[' :: (element.tree.name.toList ++ ']' :: tail) := by
    simp [tree, TypeTree.name]
  rw [hname, scan_punctuation (by decide), hback _ (endsName_punctuation (by decide) _),
    scan_punctuation (by decide)]
  simp [tokens]

/-- The name of a dictionary is scanned back when those of its key and value are. -/
theorem scansBack_dictionary {key value : Shape} (hkey : key.ScansBack)
    (hvalue : value.ScansBack) : (Shape.dictionary key value).ScansBack := by
  intro tail ht
  have hname : (Shape.dictionary key value).tree.name.toList ++ tail =
      '[' :: (key.tree.name.toList ++ ':' :: ' ' :: (value.tree.name.toList ++ ']' :: tail)) := by
    simp [tree, TypeTree.name]
  rw [hname, scan_punctuation (by decide), hkey _ (endsName_punctuation (by decide) _),
    scan_punctuation (by decide), scan_space, hvalue _ (endsName_punctuation (by decide) _),
    scan_punctuation (by decide)]
  simp [tokens]

/-- The name of a tuple is scanned back when those of its elements are. -/
theorem scansBack_tuple {elements : List Shape} (hback : ∀ element ∈ elements, element.ScansBack) :
    (Shape.tuple elements).ScansBack := by
  intro tail ht
  have hname : (Shape.tuple elements).tree.name.toList ++ tail = '(' ::
      ((", ".intercalate (TypeTree.namesOfAll (treesOfAll elements))).toList ++ ')' :: tail) := by
    simp [tree, TypeTree.name]
  rw [hname, scan_punctuation (by decide),
    scan_namesOfAll hback (endsName_punctuation (by decide) _), scan_punctuation (by decide)]
  simp [tokens]

/-- The name of a function is scanned back when those of its parameters and its result are. -/
theorem scansBack_function {params : List Shape} {result : Shape}
    (hparams : ∀ param ∈ params, param.ScansBack) (hresult : result.ScansBack) :
    (Shape.function params result).ScansBack := by
  intro tail ht
  have hname : (Shape.function params result).tree.name.toList ++ tail = '(' ::
      ((", ".intercalate (TypeTree.namesOfAll (treesOfAll params))).toList ++
        ')' :: ' ' :: '-' :: '>' :: ' ' :: (result.tree.name.toList ++ tail)) := by
    simp [tree, TypeTree.name]
  rw [hname, scan_punctuation (by decide),
    scan_namesOfAll hparams (endsName_punctuation (by decide) _), scan_punctuation (by decide),
    scan_space, scan_arrow, scan_space, hresult tail ht]
  simp [tokens]

/-- The name of the type of a normal shape is scanned back. -/
theorem Normal.scansBack (h : shape.Normal) : shape.ScansBack := by
  induction h with
  | named isName type short parts ih => exact scansBack_named isName ih
  | optional part ih => exact scansBack_optional ih
  | array part ih => exact scansBack_array ih
  | dictionary first second ihk ihv => exact scansBack_dictionary ihk ihv
  | tuple several parts ih => exact scansBack_tuple ih
  | function parts last ihs ih => exact scansBack_function ihs ih

/-! ### Reading names -/

/-- The name of the type of a normal shape spells the shape. -/
theorem Normal.ofText?_name (h : shape.Normal) : ofText? shape.tree.name = some shape := by
  have hscan := h.scansBack [] endsName_nil
  rw [List.append_nil, scan_nil, List.append_nil] at hscan
  rw [ofText?, hscan, h.ofTokens?]

end Types.Shape

namespace TypeTree

/-- The tree of the type that a text stands for. -/
def ofText (text : String) : TypeTree :=
  match Shape.ofText? text with
  | some shape => shape.tree
  | none => .unknown (squeeze text)

variable {text text' : String}

/-- A text that spells a shape stands for the type of the shape. -/
theorem ofText_of_some {shape : Shape} (h : Shape.ofText? text = some shape) :
    ofText text = shape.tree := by
  rw [ofText, h]

/-- A text that spells no shape stands for an unknown type. -/
theorem ofText_of_none (h : Shape.ofText? text = none) : ofText text = .unknown (squeeze text) := by
  rw [ofText, h]

/-- The name of the type of a normal shape stands for the type. -/
theorem ofText_name_tree {shape : Shape} (h : shape.Normal) : ofText shape.tree.name = shape.tree :=
  ofText_of_some h.ofText?_name

/-- What a text stands for is what its canonical name stands for. -/
theorem ofText_name (text : String) : ofText (ofText text).name = ofText text := by
  cases h : Shape.ofText? text with
  | some shape =>
    rw [ofText_of_some h]
    exact ofText_name_tree (Shape.normal_of_ofText? h)
  | none =>
    have hnone : Shape.ofText? (squeeze text) = none := by rw [Shape.ofText?_squeeze, h]
    rw [ofText_of_none h, name, trim_squeeze, ofText_of_none hnone, squeeze_squeeze]

/-- Two texts stand for the same type when both spell the same shape, or neither spells one and they
differ in white space only. -/
theorem ofText_eq_iff : ofText text = ofText text' ↔
    (∃ shape, Shape.ofText? text = some shape ∧ Shape.ofText? text' = some shape) ∨
      (Shape.ofText? text = none ∧ Shape.ofText? text' = none ∧ squeeze text = squeeze text') := by
  have htree (shape : Shape) (word : String) : shape.tree ≠ .unknown word := by
    cases shape <;> simp [Shape.tree]
  cases h : Shape.ofText? text with
  | some shape =>
    cases h' : Shape.ofText? text' with
    | some shape' =>
      rw [ofText_of_some h, ofText_of_some h']
      constructor
      · intro heq
        have hread := (Shape.normal_of_ofText? h).ofText?_name
        rw [heq, (Shape.normal_of_ofText? h').ofText?_name] at hread
        exact .inl ⟨shape, rfl, hread⟩
      · rintro (⟨other, hs, hs'⟩ | ⟨hs, -⟩)
        · rw [Option.some.inj hs, Option.some.inj hs']
        · cases hs
    | none => simp [ofText_of_some h, ofText_of_none h', htree]
  | none =>
    cases h' : Shape.ofText? text' with
    | some shape' => simp [ofText_of_none h, ofText_of_some h', (htree _ _).symm]
    | none => simp [ofText_of_none h, ofText_of_none h']

end TypeTree

end SwiftRelations
