import SwiftRelations.Proofs.Types.Identity

/-!
# Types and what was asked for before

The types of texts and those of names share one table, in which a type is found by its name. A name
that is that of no text's type, or only of its own nominal type, can do no harm. Any other name
clashes: whichever of the two types is asked for first is the answer to both requests.
-/

namespace SwiftRelations

open SwiftRelations.Text SwiftRelations.Types

/-- Whether some text stands for a type that has the name of a nominal type and is another one. -/
def TypeTree.Clashes (name : String) : Prop :=
  ∃ text, (ofText text).name = name ∧ ofText text ≠ .nominal name []

/-- Whether a request is for the type of a text, or of one of some names. -/
def TypeRequest.Asks (names : String → Prop) : TypeRequest → Prop
  | .named name => names name
  | .resolve _ => True
  | _ => False

/-- The trees that are asked for with texts and with some names. -/
inductive TypeTree.Asked (names : String → Prop) : TypeTree → Prop
  | text (text : String) : Asked names (.ofText text)
  | name {name : String} (h : names name) : Asked names (.nominal name [])

variable {names : String → Prop}

/-- A text that stands for a type with a name that does not clash stands for the nominal type. -/
theorem TypeTree.ofText_eq_nominal {name text : String} (h : ¬ Clashes name)
    (hname : (ofText text).name = name) : ofText text = .nominal name [] :=
  Classical.byContradiction fun hne => h ⟨text, hname, hne⟩

/-- Names that do not clash add no tree with the name of another. -/
theorem TypeTree.apart_asked (h : ∀ name, names name → ¬ Clashes name) : Apart (Asked names) := by
  intro tree other ht ho hname
  cases ht with
  | text text =>
    cases ho with
    | text text' => exact apart_spoken _ _ ⟨text, rfl⟩ ⟨text', rfl⟩ hname
    | name hn => exact ofText_eq_nominal (h _ hn) hname
  | name hn =>
    cases ho with
    | text text => exact (ofText_eq_nominal (h _ hn) hname.symm).symm
    | name hn' => exact congrArg (TypeTree.nominal · []) hname

/-- Requests for texts and names are for the trees asked for. -/
theorem TypeRequest.exists_trees {requests : List TypeRequest}
    (h : ∀ request ∈ requests, request.Asks names) :
    ∃ trees : List TypeTree, requests.map tree? = trees.map some ∧
      ∀ tree ∈ trees, tree.Asked names := by
  induction requests with
  | nil => exact ⟨[], rfl, by simp⟩
  | cons request requests ih =>
    obtain ⟨hr, hrs⟩ := List.forall_mem_cons.mp h
    obtain ⟨trees, htrees, hasked⟩ := ih hrs
    have hone : ∃ tree, request.tree? = some tree ∧ tree.Asked names := by
      cases request with
      | intern kind => cases hr
      | named name => exact ⟨_, rfl, .name hr⟩
      | resolve text => exact ⟨_, rfl, .text text⟩
      | find name => cases hr
    obtain ⟨tree, ht, ha⟩ := hone
    refine ⟨tree :: trees, ?_, List.forall_mem_cons.mpr ⟨ha, hasked⟩⟩
    rw [List.map_cons, List.map_cons, ht, htrees]

namespace TypeTable

/-- Requests for texts and names are answered with the types they ask for, whatever was asked for
before, exactly when none of the names clashes. -/
theorem tree?_answerAll_iff (names : String → Prop) :
    (∀ name, names name → ¬ TypeTree.Clashes name) ↔
      ∀ requests : List TypeRequest, (∀ request ∈ requests, request.Asks names) →
        ∀ (i : Nat) request, requests[i]? = some request →
          ∃ id, (({} : TypeTable).answerAll requests).1[i]? = some (some id) ∧
            (({} : TypeTable).answerAll requests).2.tree? id = request.tree? := by
  constructor
  · intro h requests hasks i request hi
    obtain ⟨trees, htrees, hasked⟩ := TypeRequest.exists_trees hasks
    obtain ⟨ids, hids, hyields⟩ := answerAll_yields (TypeTree.apart_asked h)
      (fun text => .text text) within_empty htrees hasked
    have htree := congrArg (·[i]?) (hyields.trees.trans htrees.symm)
    simp only [List.getElem?_map, hi, Option.map_some] at htree
    obtain ⟨id, hid, ht⟩ := Option.map_eq_some_iff.mp htree
    exact ⟨id, by simp [hids, hid], ht⟩
  · rintro h name hname ⟨text, htext, hne⟩
    -- The text first, and then the name, which finds the type of the text.
    have hadmits : ({} : TypeTable).Admits [.resolve text, .named name] := by
      simp [Admits, TypeRequest.parts]
    have hconsistent := (Consistent.empty.answerAll hadmits).1
    have hanswers := h [.resolve text, .named name] (by simp [TypeRequest.Asks, hname])
    obtain ⟨id, -, ht⟩ := hanswers 0 _ rfl
    obtain ⟨id', -, ht'⟩ := hanswers 1 _ rfl
    obtain rfl := hconsistent.eq_of_name ht ht' htext
    rw [ht'] at ht
    exact hne (Option.some.inj ht).symm

/-- A name in backticks clashes: as an annotation it spells no type, and what is asked for first,
the unknown type of the text or the nominal type of the name, is the answer to both requests. -/
theorem tree?_answerAll_backticks :
    (∃ id, (({} : TypeTable).answerAll [.resolve "`Foo`", .named "`Foo`"]).1 = [some id, some id] ∧
      (({} : TypeTable).answerAll [.resolve "`Foo`", .named "`Foo`"]).2.tree? id =
        some (.unknown "`Foo`")) ∧
    ∃ id, (({} : TypeTable).answerAll [.named "`Foo`", .resolve "`Foo`"]).1 = [some id, some id] ∧
      (({} : TypeTable).answerAll [.named "`Foo`", .resolve "`Foo`"]).2.tree? id =
        some (.nominal "`Foo`" []) := by
  have hnone : Shape.ofText? "`Foo`" = none := by decide +kernel
  have hsqueeze : squeeze "`Foo`" = "`Foo`" := by decide +kernel
  have htrim : trim "`Foo`" = "`Foo`" := by decide +kernel
  constructor
  · refine ⟨⟨0⟩, ?_⟩
    simp [answerAll, answer, resolve, named, intern, hnone, hsqueeze, htrim, find?_empty, find?_add,
      size_empty, canonicalName, tree?, unfold, get?_add, TypeKind.tree?]
  · refine ⟨⟨0⟩, ?_⟩
    simp [answerAll, answer, resolve, named, intern, hnone, hsqueeze, htrim, find?_empty, find?_add,
      size_empty, canonicalName, tree?, unfold, get?_add, TypeKind.tree?]

end TypeTable

end SwiftRelations
