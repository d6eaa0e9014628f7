import SwiftRelations.Proofs.Types.Consistency
import SwiftRelations.Proofs.Types.Scan

/-!
# White space in annotations

Only the words of a text decide what type it is: white space at its ends does not matter, nor do the
kind and length of the white space between its words. A type that was interned once is found at the
same place in every later table, so that two spellings with the same words have one place however
far apart they are asked for. An unknown type keeps a text that spells no type.
-/

namespace SwiftRelations

open SwiftRelations.Text SwiftRelations.Types

variable {text other : String}

/-- Texts with the same words spell the same shape, or neither spells one. -/
theorem Types.Shape.ofText?_congr (h : words text.toList = words other.toList) :
    ofText? text = ofText? other := by
  rw [ofText?, ofText?, Token.scan_eq_flatMap_words, h, ← Token.scan_eq_flatMap_words]

namespace TypeTable

variable {table table' table'' : TypeTable}

/-- Texts with the same words are resolved alike in one table. -/
theorem resolve_congr (table : TypeTable) (h : words text.toList = words other.toList) :
    table.resolve text = table.resolve other := by
  have hsqueeze : squeeze text = squeeze other := by rw [squeeze, squeeze, h]
  rw [resolve, resolve, Shape.ofText?_congr h, hsqueeze]

/-! ### Asking again -/

/-- A type that was interned is found by its canonical name. -/
theorem find?_intern (table : TypeTable) (kind : TypeKind) :
    (table.intern kind).2.find? (table.canonicalName kind) = some (table.intern kind).1 := by
  simp only [intern]
  split
  case h_1 hf => exact hf
  case h_2 => rw [find?_add, if_pos rfl]

/-- Interning a type again in a table that has grown since gives the place it had. -/
theorem Consistent.intern_again (h : table.Consistent) (h' : table'.Consistent) (kind : TypeKind)
    (known : ∀ part ∈ kind.parts, table.Has part) (hgrown : (table.intern kind).2.Extends table') :
    table.Extends table' ∧ table'.intern kind = ((table.intern kind).1, table') := by
  obtain ⟨hc, he⟩ := h.intern known
  have hall := he.trans hgrown
  obtain ⟨entry, hentry, hname⟩ := (hc.found _ _).mp (find?_intern table kind)
  have hfound := (h'.found _ _).mpr ⟨entry, hgrown _ _ hentry, hname⟩
  refine ⟨hall, ?_⟩
  rw [TypeTable.intern, hall.canonicalName known]
  simp only [hfound]

/-- Interning shapes keeps a table consistent. -/
theorem Consistent.internShape (h : table.Consistent) (shape : Shape) :
    (table.internShape shape).2.Consistent :=
  internShape_induction (fun _ _ hc _ hk => (hc.intern hk).1) h h.closed shape

@[inherit_doc Consistent.internShape]
private theorem Consistent.internShapes (h : table.Consistent) (shapes : List Shape) :
    (table.internShapes shapes).2.Consistent :=
  internShapes_induction (fun _ _ hc _ hk => (hc.intern hk).1) h h.closed shapes

mutual

/-- Interning a shape again in a table that has grown since gives the place it had. -/
theorem Consistent.internShape_again {table table' : TypeTable} (h : table.Consistent)
    (h' : table'.Consistent) (shape : Shape)
    (hgrown : (table.internShape shape).2.Extends table') :
    table.Extends table' ∧
      table'.internShape shape = ((table.internShape shape).1, table') := by
  cases shape with
  | named name args =>
    rw [TypeTable.internShape] at hgrown
    have ho := internShapes_offers h.closed args
    obtain ⟨he, hlast⟩ := (h.internShapes args).intern_again h' (.nominal name _) ho.has hgrown
    obtain ⟨he, hargs⟩ := internShapes_again h h' args he
    exact ⟨he, by simp only [TypeTable.internShape, hargs, hlast]⟩
  | optional base =>
    rw [TypeTable.internShape] at hgrown
    have ho := internShape_offers h.closed base
    obtain ⟨he, hlast⟩ := (h.internShape base).intern_again h' (.optional _) ho.has hgrown
    obtain ⟨he, hbase⟩ := internShape_again h h' base he
    exact ⟨he, by simp only [TypeTable.internShape, hbase, hlast]⟩
  | array element =>
    rw [TypeTable.internShape] at hgrown
    have ho := internShape_offers h.closed element
    obtain ⟨he, hlast⟩ := (h.internShape element).intern_again h' (.array _) ho.has hgrown
    obtain ⟨he, helement⟩ := internShape_again h h' element he
    exact ⟨he, by simp only [TypeTable.internShape, helement, hlast]⟩
  | dictionary key value =>
    rw [TypeTable.internShape] at hgrown
    have hk := h.internShape key
    have hok := internShape_offers h.closed key
    have ho := hok.trans (internShape_offers hok.closed value)
    obtain ⟨he, hlast⟩ := (hk.internShape value).intern_again h' (.dictionary _ _) ho.has hgrown
    obtain ⟨he, hvalue⟩ := internShape_again hk h' value he
    obtain ⟨he, hkey⟩ := internShape_again h h' key he
    exact ⟨he, by simp only [TypeTable.internShape, hkey, hvalue, hlast]⟩
  | tuple elements =>
    rw [TypeTable.internShape] at hgrown
    have ho := internShapes_offers h.closed elements
    obtain ⟨he, hlast⟩ := (h.internShapes elements).intern_again h' (.tuple _) ho.has hgrown
    obtain ⟨he, helements⟩ := internShapes_again h h' elements he
    exact ⟨he, by simp only [TypeTable.internShape, helements, hlast]⟩
  | function params result =>
    rw [TypeTable.internShape] at hgrown
    have hp := h.internShapes params
    have hop := internShapes_offers h.closed params
    have ho := hop.trans (internShape_offers hop.closed result)
    obtain ⟨he, hlast⟩ := (hp.internShape result).intern_again h' (.function _ _) ho.has hgrown
    obtain ⟨he, hresult⟩ := internShape_again hp h' result he
    obtain ⟨he, hparams⟩ := internShapes_again h h' params he
    exact ⟨he, by simp only [TypeTable.internShape, hparams, hresult, hlast]⟩

/-- Interning shapes again in a table that has grown since gives the places they had. -/
theorem Consistent.internShapes_again {table table' : TypeTable} (h : table.Consistent)
    (h' : table'.Consistent) (shapes : List Shape)
    (hgrown : (table.internShapes shapes).2.Extends table') :
    table.Extends table' ∧
      table'.internShapes shapes = ((table.internShapes shapes).1, table') := by
  cases shapes with
  | nil => exact ⟨hgrown, rfl⟩
  | cons shape shapes =>
    rw [TypeTable.internShapes] at hgrown
    obtain ⟨he, hshapes⟩ := internShapes_again (h.internShape shape) h' shapes hgrown
    obtain ⟨he, hshape⟩ := internShape_again h h' shape he
    exact ⟨he, by simp only [TypeTable.internShapes, hshape, hshapes]⟩

end

/-- Resolving a text again in a table that has grown since gives the place it had. -/
theorem Consistent.resolve_again (h : table.Consistent) (h' : table'.Consistent)
    (hgrown : (table.resolve text).2.Extends table') :
    table'.resolve text = ((table.resolve text).1, table') := by
  rw [resolve] at hgrown ⊢
  rw [resolve]
  cases hs : Shape.ofText? text with
  | some shape =>
    rw [hs] at hgrown
    exact (h.internShape_again h' shape hgrown).2
  | none =>
    rw [hs] at hgrown
    exact (h.intern_again h' _ (by simp [TypeKind.parts]) hgrown).2

/-- What a text was answered with is what the table after all requests answers it with. -/
theorem Consistent.answerAll_again (h : table.Consistent) {requests : List TypeRequest}
    (hadmits : table.Admits requests) {i : Nat} (hi : requests[i]? = some (.resolve text)) :
    ∃ id, (table.answerAll requests).1[i]? = some (some id) ∧
      (table.answerAll requests).2.resolve text = (id, (table.answerAll requests).2) := by
  induction requests generalizing table i with
  | nil => cases hi
  | cons request requests ih =>
    have hc := (h.answer hadmits.1).1
    cases i with
    | zero =>
      obtain rfl : request = .resolve text := by simpa using hi
      obtain ⟨hlast, hgrown, -⟩ := hc.answerAll hadmits.2
      exact ⟨(table.resolve text).1, rfl, h.resolve_again hlast hgrown⟩
    | succ i =>
      obtain ⟨id, hid, hagain⟩ := ih hc hadmits.2 hi
      exact ⟨id, hid, hagain⟩

/-! ### Unknown types -/

/-- Whether the unknown types of a table keep texts that spell no type. -/
def Unread (table : TypeTable) : Prop :=
  ∀ id entry spelling, table.get? id = some entry → entry.kind = .unknown spelling →
    Shape.ofText? spelling = none

/-- Interning a type other than an unknown one adds no unknown type. -/
theorem Unread.intern (h : table.Unread) {kind : TypeKind}
    (hkind : ∀ spelling, kind = .unknown spelling → Shape.ofText? spelling = none) :
    (table.intern kind).2.Unread := by
  simp only [TypeTable.intern]
  split
  case h_1 => exact h
  case h_2 =>
    intro id entry spelling he
    rw [get?_add] at he
    split at he
    case isTrue =>
      cases he
      exact hkind spelling
    case isFalse => exact h id entry spelling he

mutual

/-- Interning a shape adds no unknown type. -/
theorem Unread.internShape {table : TypeTable} (h : table.Unread) (shape : Shape) :
    (table.internShape shape).2.Unread := by
  cases shape with
  | named name args => exact (h.internShapes args).intern nofun
  | optional base => exact (h.internShape base).intern nofun
  | array element => exact (h.internShape element).intern nofun
  | dictionary key value => exact ((h.internShape key).internShape value).intern nofun
  | tuple elements => exact (h.internShapes elements).intern nofun
  | function params result => exact ((h.internShapes params).internShape result).intern nofun

/-- Interning shapes adds no unknown type. -/
theorem Unread.internShapes {table : TypeTable} (h : table.Unread) (shapes : List Shape) :
    (table.internShapes shapes).2.Unread := by
  cases shapes with
  | nil => exact h
  | cons shape shapes => exact (h.internShape shape).internShapes shapes

end

/-- The unknown type of a text keeps the squeezed text, which spells no type either. -/
theorem Unread.resolve (h : table.Unread) (text : String) : (table.resolve text).2.Unread := by
  rw [TypeTable.resolve]
  cases hs : Shape.ofText? text with
  | some shape => exact h.internShape shape
  | none =>
    refine h.intern fun spelling hkind => ?_
    cases hkind
    rw [Shape.ofText?_squeeze, hs]

/-- Unknown types come from texts alone, unless one is interned as such. -/
theorem Unread.answerAll (h : table.Unread) {requests : List TypeRequest}
    (hnone : ∀ spelling, .intern (.unknown spelling) ∉ requests) :
    (table.answerAll requests).2.Unread := by
  induction requests generalizing table with
  | nil => exact h
  | cons request requests ih =>
    have hfirst : (table.answer request).2.Unread := by
      cases request with
      | intern kind =>
        refine h.intern fun spelling hkind => ?_
        subst hkind
        exact absurd List.mem_cons_self (hnone spelling)
      | named name => exact h.intern nofun
      | resolve text => exact h.resolve text
      | find name => exact h
    exact ih hfirst fun spelling hm => hnone spelling (List.mem_cons_of_mem request hm)

/-- Two texts with the same words spell the same shape, or neither spells one, and any table gives
them the same place and is left the same by them. Among any requests they are answered with one
place, whichever comes first and whatever is asked for around them. An unknown type that stems from
a text keeps one that spells no type again. -/
theorem resolve_eq_of_words (h : words text.toList = words other.toList) :
    Shape.ofText? text = Shape.ofText? other ∧
      (∀ table : TypeTable, table.resolve text = table.resolve other) ∧
      ∀ requests : List TypeRequest, ({} : TypeTable).Admits requests →
        (∀ i j : Nat, requests[i]? = some (.resolve text) → requests[j]? = some (.resolve other) →
          ∃ id, (({} : TypeTable).answerAll requests).1[i]? = some (some id) ∧
            (({} : TypeTable).answerAll requests).1[j]? = some (some id)) ∧
        ((∀ spelling, .intern (.unknown spelling) ∉ requests) →
          ∀ id entry spelling, (({} : TypeTable).answerAll requests).2.get? id = some entry →
            entry.kind = .unknown spelling → Shape.ofText? spelling = none) := by
  refine ⟨Shape.ofText?_congr h, fun table => resolve_congr table h, fun requests hadmits =>
    ⟨fun i j hi hj => ?_, fun hnone => ?_⟩⟩
  · obtain ⟨id, hid, hagain⟩ := Consistent.empty.answerAll_again hadmits hi
    obtain ⟨id', hid', hagain'⟩ := Consistent.empty.answerAll_again hadmits hj
    rw [← resolve_congr _ h, hagain] at hagain'
    obtain ⟨rfl, -⟩ := Prod.mk.inj hagain'
    exact ⟨id, hid, hid'⟩
  · have hempty : ({} : TypeTable).Unread := by
      intro id entry spelling he
      simp [get?] at he
    exact hempty.answerAll hnone

/-- A text that spells no type is answered with one place, with a tab between its words or with two
spaces, though types over its place are interned in between. -/
theorem resolve_eq_of_words_unknown :
    words " a\tb".toList = words "a  b\n".toList ∧ Shape.ofText? " a\tb" = none ∧
      Shape.ofText? "a  b\n" = none ∧
      let requests : List TypeRequest := [.resolve " a\tb", .intern (.optional ⟨0⟩),
        .intern (.function [⟨1⟩] ⟨0⟩), .resolve "a  b\n"]
      ({} : TypeTable).Admits requests ∧
        ∃ id, (({} : TypeTable).answerAll requests).1[0]? = some (some id) ∧
          (({} : TypeTable).answerAll requests).1[3]? = some (some id) := by
  have hwords : words " a\tb".toList = words "a  b\n".toList := by decide +kernel
  have hnone : Shape.ofText? " a\tb" = none := by decide +kernel
  have hsqueeze : squeeze " a\tb" = "a b" := by decide +kernel
  have htrim : trim "a b" = "a b" := by decide +kernel
  obtain ⟨hshape, -, hanswers⟩ := resolve_eq_of_words hwords
  have hadmits : ({} : TypeTable).Admits [.resolve " a\tb", .intern (.optional ⟨0⟩),
      .intern (.function [⟨1⟩] ⟨0⟩), .resolve "a  b\n"] := by
    simp [Admits, TypeRequest.parts, TypeKind.parts, answer, resolve, hnone, hsqueeze, htrim, intern,
      find?_empty, find?_add, size_empty, size_add, canonicalName, nameOf, isFunction, get?_add, Has]
  exact ⟨hwords, hnone, hshape ▸ hnone, hadmits, (hanswers _ hadmits).1 0 3 rfl rfl⟩

end TypeTable

end SwiftRelations
