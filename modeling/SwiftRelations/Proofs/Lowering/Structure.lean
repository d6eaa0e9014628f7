import Mathlib.Data.List.Nodup
import SwiftRelations.Proofs.Extraction.Finished
import SwiftRelations.Proofs.Extraction.Requests
import SwiftRelations.Proofs.Lowering.Naming

/-!
# The structure of a lowered file

The nodes of a lowered file are a forest whose roots are the top-level declarations: what is made is
attached, in one place, and what nodes name is there. An extraction that starts at the roots
therefore meets every node that is no type, and only nodes of the file.
-/

namespace SwiftRelations

open Lowering

/-! ### Structural positions -/

/-- The keys of the nodes a node is made of, one for each of its fields and each element of its
lists. -/
def Ast.slots (ast : Ast) (key : NodeKey) : List NodeKey :=
  (((ast.entryAt? key).map Entry.parts).getD []).map Node.key

/-- The keys at all structural positions of a file: those in the list of top-level declarations,
and those of which the nodes are made. -/
def LoweredFile.slots (file : LoweredFile) : List NodeKey :=
  file.topLevel.map (fun decl => (Node.decl decl).key) ++ file.ast.keys.flatMap file.ast.slots

/-- Whether the nodes of a file are a forest whose roots are the top-level declarations. -/
structure LoweredFile.IsForest (file : LoweredFile) : Prop where
  /-- What a node names is in the tree: its parts, its type, the target of a reference. -/
  inRange : file.ast.InRange
  held : ∀ decl ∈ file.topLevel, file.ast.Holds (Node.decl decl).key
  /-- A node that is no type stands at exactly one structural position. -/
  once : ∀ key, file.ast.Holds key → key.category ≠ .type → file.slots.count key = 1
  /-- No node is made of itself, through whatever nodes. -/
  acyclic : ∀ key, ¬ Relation.TransGen (fun parent child => child ∈ file.ast.slots parent) key key

/-- Whether extractions of a file label all nodes that are no types, and no node that is missing. -/
def LoweredFile.LabelsAll (file : LoweredFile) : Prop :=
  ∀ options, ∃ labels run,
    ({} : Extraction.Run).extractAll file.ast options (file.topLevel.map .decl) =
      .ok (labels, run) ∧
    file.extract options = .ok { run.output with hasParseErrors := file.hasParseErrors } ∧
    (∀ key, (run.registry.lookup key).isSome → file.ast.Holds key) ∧
    ∀ key, file.ast.Holds key → key.category ≠ .type → (run.registry.lookup key).isSome

namespace Ast

variable {ast : Ast} {key : NodeKey} {roots : Multiset NodeKey}

/-- Each place of the arenas is listed once. -/
theorem nodup_keys (ast : Ast) : ast.keys.Nodup := by
  refine List.nodup_flatMap.mpr ⟨fun category _ => ?_, ?_⟩
  · refine List.nodup_range.map fun i j h => ?_
    simpa using h
  · have hne : Category.all.Pairwise (· ≠ ·) := by decide
    refine hne.imp fun hne key h h' => ?_
    obtain ⟨i, -, rfl⟩ := List.mem_map.mp h
    obtain ⟨j, -, he⟩ := List.mem_map.mp h'
    cases he
    exact hne rfl

/-- A type has no slots. -/
theorem slots_of_type (h : key.category = .type) : ast.slots key = [] := by
  simp [slots, entryAt?, h]

/-- The slots of a node hold its parts, and perhaps types. -/
theorem count_partKeys (parent : NodeKey) (h : key.category ≠ .type) :
    (ast.partKeys parent).count key = (ast.slots parent).count key := by
  rw [partKeys, loose, Multiset.coe_count, List.count_filter (by simpa using h), slots]

/-- The slots of all nodes are counted parent by parent. -/
theorem count_flatMap_slots (h : key.category ≠ .type) :
    (ast.keys.flatMap ast.slots).count key =
      ∑ parent ∈ ast.structural, (ast.partKeys parent).count key := by
  have hsub : ast.structural ⊆ ast.keys.toFinset := by
    rw [structural, List.toFinset_filter]
    exact Finset.filter_subset _ _
  rw [List.count_flatMap, ← List.sum_toFinset _ ast.nodup_keys,
    Finset.sum_congr rfl fun parent _ => count_partKeys parent h]
  refine (Finset.sum_subset hsub fun parent hp hn => ?_).symm
  have htype : parent.category = .type := by
    by_contra hc
    exact hn (by simpa [structural, hc] using List.mem_toFinset.mp hp)
  rw [Function.comp_apply, slots_of_type htype, List.count_nil]

/-- In a forest with the top-level declarations for its roots, every node stands at one structural
position. -/
theorem Grown.count_slots (file : LoweredFile)
    (h : file.ast.Grown ∅ (loose (file.topLevel.map .decl))) (hk : file.ast.Holds key)
    (hc : key.category ≠ .type) : file.slots.count key = 1 := by
  have hroots : (file.topLevel.map fun decl => (Node.decl decl).key).count key =
      (loose (file.topLevel.map .decl)).count key := by
    rw [loose, Multiset.coe_count, List.count_filter (by simpa using hc), List.map_map]
    rfl
  have hs : key ∈ file.ast.structural \ ∅ := by
    rw [Finset.sdiff_empty, mem_structural, isSome_entryAt?]
    exact ⟨hk, hc⟩
  have honce := h.once key
  rw [if_pos hs, Finset.sdiff_empty, ← count_flatMap_slots hc, ← hroots] at honce
  rw [LoweredFile.slots, List.count_append, honce]

/-- What is in a slot of a node that has slots itself is part of that node. -/
theorem partOf_of_mem_slots {parent child : NodeKey} (h : key ∈ ast.slots parent)
    (hk : child ∈ ast.slots key) : PartOf (ast.structural \ ∅) ast.partKeys parent key := by
  have hc : key.category ≠ .type := fun hc => by simp [slots_of_type hc] at hk
  refine ⟨?_, ?_⟩
  · rw [Finset.sdiff_empty, mem_structural]
    by_contra hn
    rw [Option.not_isSome_iff_eq_none] at hn
    simp [slots, hn] at h
  · rw [← Multiset.count_pos, count_partKeys parent hc]
    exact List.count_pos_iff.mpr h

/-- In a forest no node stands below itself. -/
theorem Grown.acyclic (h : ast.Grown ∅ roots) (key : NodeKey) :
    ¬ Relation.TransGen (fun parent child => child ∈ ast.slots parent) key key := by
  -- All nodes on a cycle have slots, so that they are no types.
  have lift : ∀ a b, Relation.TransGen (fun parent child => child ∈ ast.slots parent) a b →
      (∃ child, child ∈ ast.slots b) →
      Relation.TransGen (PartOf (ast.structural \ ∅) ast.partKeys) a b := by
    intro a b hab
    induction hab with
    | single hab => exact fun ⟨child, hb⟩ => .single (partOf_of_mem_slots hab hb)
    | tail _ hbc ih => exact fun ⟨child, hc⟩ => .tail (ih ⟨_, hbc⟩) (partOf_of_mem_slots hbc hc)
  intro hcycle
  obtain ⟨child, hchild, -⟩ := Relation.TransGen.head'_iff.mp hcycle
  exact Forest.acyclic h key (lift key key hcycle ⟨child, hchild⟩)

/-! ### Nodes that are named -/

/-- An entry names its parts, types, and the declaration a reference refers to. -/
theorem Entry.mem_nodes {entry : Entry} {node : Node} (h : node ∈ entry.nodes) :
    node ∈ entry.parts ∨ node.category = .type ∨
      ∃ expr name decl, entry = .expr expr ∧ expr.kind = .declRef name (some decl) ∧
        node = .decl decl := by
  cases entry with
  | expr expr =>
    obtain ⟨kind, type, span⟩ := expr
    rcases List.mem_append.mp h with h | h
    · cases kind with
      | declRef name target =>
        obtain ⟨decl, rfl, rfl⟩ : ∃ decl, target = some decl ∧ .decl decl = node := by
          simpa [ExprKind.nodes] using h
        exact .inr (.inr ⟨_, name, decl, rfl, rfl, rfl⟩)
      | _ => exact .inl h
    · obtain ⟨id, -, rfl⟩ : ∃ id, type = some id ∧ Node.type id = node := by simpa using h
      exact .inr (.inl rfl)
  | _ => exact .inl h

/-- An entry names its parts. -/
theorem Entry.parts_subset (entry : Entry) : entry.parts ⊆ entry.nodes := by
  cases entry with
  | expr expr =>
    intro node hn
    refine List.mem_append_left _ ?_
    obtain ⟨kind, type, span⟩ := expr
    cases kind <;> first | exact hn | cases hn
  | _ => exact fun _ hn => hn

/-- A node refers to its parts. -/
theorem mem_references_of_parts {entry : Entry} {node child : Node}
    (he : ast.entryAt? node.key = some entry) (hc : child ∈ entry.parts) :
    child ∈ ast.references node := by
  have ht : node.category ≠ .type :=
    (isSome_entryAt?.mp (Option.isSome_iff_exists.mpr ⟨entry, he⟩)).2
  have hr : node.category ≠ .typeRepr := by
    intro hr
    cases node with
    | writtenType written =>
      obtain ⟨repr, -, rfl⟩ := Option.map_eq_some_iff.mp he
      cases hc
    | _ => cases hr
  rw [references_eq ht hr, he]
  exact entry.parts_subset hc

/-- Where the types of some nodes are known, those of them are in the tree whose places are. -/
theorem hasNode_of_covers {nodes : List Node} {node : Node} (hc : ast.types.Covers nodes)
    (hn : node ∈ nodes) (hk : node.category ≠ .type → ast.Holds node.key) :
    ast.HasNode node := by
  have htypes : ∀ type ∈ node.types, ast.Holds (Node.type type).key := hc node hn
  cases node with
  | type id => exact ⟨htypes id (by simp [Node.types]), by simp [Node.resolved?]⟩
  | writtenType written =>
    refine ⟨hk (by simp [Node.category, Node.key]), fun type ht => htypes type ?_⟩
    simpa [Node.types, Node.resolved?] using ht
  | _ => exact ⟨hk (by simp [Node.category, Node.key]), by simp [Node.resolved?]⟩

/-- Whether the declarations that references refer to are in the tree. -/
def TargetsHeld (ast : Ast) : Prop :=
  ∀ id expr name decl, ast.expr? id = some expr → expr.kind = .declRef name (some decl) →
    ast.Holds (Node.decl decl).key

/-- In a forest the parts of a node are in the tree. -/
theorem Grown.holds_part (h : ast.Grown ∅ roots) {entry : Entry} (he : ast.entryAt? key = some entry)
    {child : Node} (hp : child ∈ entry.parts) (hc : child.category ≠ .type) :
    ast.Holds child.key := by
  have hpart : PartOf (ast.structural \ ∅) ast.partKeys key child.key := by
    refine ⟨by simp [mem_structural, he], ?_⟩
    rw [partKeys, he]
    exact List.mem_filter.mpr ⟨List.mem_map_of_mem hp, decide_eq_true hc⟩
  have hm := Forest.mem_of_part h hpart
  rw [Finset.sdiff_empty, mem_structural, isSome_entryAt?] at hm
  exact hm.1

/-- In a forest with known types, what an entry names is in the tree. -/
theorem Grown.hasNode_of_entry (h : ast.Grown ∅ roots) (typed : ast.Typed)
    (targets : ast.TargetsHeld) {entry : Entry} (he : ast.entryAt? key = some entry) {child : Node}
    (hc : child ∈ entry.nodes) : ast.HasNode child := by
  refine hasNode_of_covers (typed.covers key entry he) hc fun htype => ?_
  rcases Entry.mem_nodes hc with hp | ht | ⟨expr, name, decl, rfl, hk, rfl⟩
  · exact h.holds_part he hp htype
  · exact absurd ht htype
  · obtain ⟨category, index⟩ := key
    cases category <;> simp only [entryAt?, Option.map_eq_some_iff, reduceCtorEq, and_false,
      exists_false, Entry.expr.injEq] at he
    obtain ⟨found, hf, rfl⟩ := he
    exact targets ⟨index⟩ found name decl hf hk

/-- In a forest with known types, all that is named is in the tree. -/
theorem Grown.inRange (h : ast.Grown ∅ roots) (typed : ast.Typed) (targets : ast.TargetsHeld) :
    ast.InRange := by
  intro node hnode child hc
  by_cases ht : node.category = .type
  · cases node with
    | type id =>
      obtain ⟨entry, he, part, hp, rfl⟩ : ∃ entry, ast.type? id = some entry ∧
          ∃ part ∈ entry.kind.parts, .type part = child := by
        cases he : ast.type? id <;> simp [references, he] at hc ⊢
        exact hc
      exact ⟨typed.closed.parts id entry he part hp, by simp [Node.resolved?]⟩
    | _ => cases ht
  by_cases hr : node.category = .typeRepr
  · cases node with
    | writtenType written =>
      cases hrepr : ast.typeRepr? written.repr with
      | none => simp [references, hrepr] at hc
      | some repr =>
        obtain ⟨type, htype, rfl⟩ : ∃ type, written.type = some type ∧ .type type = child := by
          simpa [references, hrepr] using hc
        exact ⟨hnode.2 type htype, by simp [Node.resolved?]⟩
    | _ => cases hr
  rw [references_eq ht hr] at hc
  cases he : ast.entryAt? node.key with
  | none => simp [he] at hc
  | some entry => exact h.hasNode_of_entry typed targets he (by simpa [he] using hc)

end Ast

/-! ### The final pass -/

/-- The final pass may make a reference of a reference, and leaves other expressions alone. -/
theorem Expr.forward_eq (expr : Expr) (ast : Ast) (file : Scope) :
    expr.forward ast file = expr ∨
      ∃ name target, expr.kind = .declRef name none ∧
        expr.forward ast file =
          ⟨.declRef name (some target), expr.type.orElse fun _ => ast.statedType? target,
            expr.span⟩ := by
  obtain ⟨kind, type, span⟩ := expr
  unfold forward forwardTarget?
  split
  case h_2 => exact .inl rfl
  case h_1 target h =>
    split at h
    case h_1 name hk =>
      obtain rfl : kind = .declRef name none := hk
      exact .inr ⟨name, target, rfl, rfl⟩
    case h_2 => cases h

/-- The final pass changes nothing in what an expression is made of. -/
theorem Expr.parts_forward (expr : Expr) (ast : Ast) (file : Scope) :
    (expr.forward ast file).kind.parts = expr.kind.parts := by
  rcases expr.forward_eq ast file with h | ⟨name, target, hk, h⟩
  · rw [h]
  · rw [h, hk]
    rfl

/-- The types of an expression stay known in the final pass. -/
theorem Expr.covers_forward {expr : Expr} {ast : Ast} (typed : ast.Typed) (file : Scope)
    (h : ast.types.Covers (Ast.Entry.expr expr).nodes) :
    ast.types.Covers (Ast.Entry.expr (expr.forward ast file)).nodes := by
  rcases expr.forward_eq ast file with he | ⟨name, target, hk, he⟩
  · rwa [he]
  · rw [he]
    refine TypeTable.Covers.append (.of_types_eq_nil (by simp [ExprKind.nodes, Node.types])) ?_
    refine covers_typeNodes fun type ht => ?_
    cases hold : expr.type with
    | none => exact typed.has_statedType? (by simpa [hold] using ht)
    | some old =>
      obtain rfl : old = type := by simpa [hold] using ht
      exact h.right (.type old) (by simp [hold]) old (by simp [Node.types])

namespace Lowering.State

variable (s : State)

/-- The final pass leaves each entry as it is, or is made over an expression. -/
theorem entryAt?_finish (key : NodeKey) :
    s.finish.entryAt? key = s.ast.entryAt? key ∨
      ∃ expr, s.ast.entryAt? key = some (.expr expr) ∧
        s.finish.entryAt? key = some (.expr (expr.forward s.ast s.scopes.file)) := by
  obtain ⟨exprs, -, he⟩ := s.finish_eq
  obtain ⟨category, index⟩ := key
  by_cases hc : category = .expr
  · subst hc
    have hentry : ∀ ast : Ast, ast.entryAt? ⟨.expr, index⟩ = (ast.expr? ⟨index⟩).map .expr :=
      fun _ => rfl
    rw [hentry, hentry, s.expr?_finish]
    split
    · cases hexpr : s.ast.expr? ⟨index⟩ with
      | none => exact .inl rfl
      | some expr => exact .inr ⟨expr, rfl, rfl⟩
    · exact .inl rfl
  · refine .inl ?_
    rw [he]
    cases category <;> first | rfl | exact absurd rfl hc

private theorem structural_finish : s.finish.structural = s.ast.structural := by
  ext key
  rw [Ast.mem_structural, Ast.mem_structural]
  rcases s.entryAt?_finish key with h | ⟨expr, h, h'⟩
  · rw [h]
  · simp [h, h']

/-- The final pass changes nothing in what nodes are made of. -/
theorem partKeys_finish (key : NodeKey) : s.finish.partKeys key = s.ast.partKeys key := by
  rw [Ast.partKeys, Ast.partKeys]
  rcases s.entryAt?_finish key with h | ⟨expr, h, h'⟩
  · rw [h]
  · rw [h, h', Option.map_some, Option.map_some, Ast.Entry.parts, Ast.Entry.parts,
      Expr.parts_forward]

variable {s}

private theorem grown_finish {hidden : Finset NodeKey} {roots : Multiset NodeKey}
    (h : s.ast.Grown hidden roots) : s.finish.Grown hidden roots := by
  rw [Ast.Grown, structural_finish]
  exact Forest.congr h fun key _ => s.partKeys_finish key

private theorem typed_finish (h : s.ast.Typed) : s.finish.Typed := by
  have ht : s.finish.types = s.ast.types := by
    obtain ⟨exprs, -, he⟩ := s.finish_eq
    rw [he]
  refine ⟨ht ▸ h.closed, fun key entry he => ?_⟩
  rw [ht]
  rcases s.entryAt?_finish key with hsame | ⟨expr, hold, hnew⟩
  · exact h.covers key entry (hsame ▸ he)
  · cases hnew.symm.trans he
    exact Expr.covers_forward h _ (h.covers key _ hold)

end Lowering.State

/-! ### Extraction -/

/-- A finished run that was asked for the roots of a forest has described all of it. -/
theorem Extraction.Traced.mem_of_structural {ast : Ast} {options : ExtractionOptions}
    {asked order : List Node} {log : List Extraction.Step} {run : Extraction.Run}
    (h : Extraction.Traced ast options asked order log run [])
    (grown : ast.Grown ∅ (loose asked)) {key : NodeKey} (hk : key ∈ ast.structural) :
    key ∈ order.map Node.key := by
  have hclosed : ∀ node, (node ∈ asked ∨ ∃ parent ∈ order, node ∈ ast.references parent) →
      node.key ∈ order.map Node.key := fun node hn =>
    (h.explored.closed node hn).resolve_right List.not_mem_nil
  obtain ⟨root, hr, hpath⟩ := Forest.reached grown key (by rwa [Finset.sdiff_empty])
  induction hpath with
  | refl =>
    obtain ⟨hm, -⟩ := List.mem_filter.mp (Multiset.mem_coe.mp hr)
    obtain ⟨node, hn, rfl⟩ := List.mem_map.mp hm
    exact hclosed node (.inl hn)
  | @tail parent child _ hpart ih =>
    obtain ⟨hp, hpart⟩ := hpart
    rw [Finset.sdiff_empty] at hp
    obtain ⟨node, hn, rfl⟩ := List.mem_map.mp (ih hp)
    obtain ⟨entry, he⟩ := Option.isSome_iff_exists.mp (Ast.mem_structural.mp hp)
    rw [Ast.partKeys, he] at hpart
    obtain ⟨hm, -⟩ := List.mem_filter.mp (Multiset.mem_coe.mp hpart)
    obtain ⟨part, hmem, rfl⟩ := List.mem_map.mp hm
    exact hclosed part (.inr ⟨node, hn, Ast.mem_references_of_parts he hmem⟩)

/-- An extraction from the roots of a forest labels every node that is no type, and no node that is
missing. -/
theorem LoweredFile.labelsAll {file : LoweredFile} (inRange : file.ast.InRange)
    (held : ∀ node ∈ file.topLevel.map Node.decl, file.ast.HasNode node)
    (grown : file.ast.Grown ∅ (loose (file.topLevel.map .decl))) : file.LabelsAll := by
  intro options
  obtain ⟨order, log, run, hm, h⟩ := Extraction.exists_traced inRange held options
  have hrun := Extraction.Run.extractAll_of_moves file.ast options Registry.wf_empty hm
  refine ⟨_, run, hrun, ?_, ?_, ?_⟩
  · simp only [LoweredFile.extract, hrun, bind, Except.bind, pure, Except.pure]
  · intro key hk
    obtain ⟨node, hn, rfl⟩ := List.mem_map.mp ((h.registered.labelled key).mp hk)
    exact (h.hasNode inRange held hn).1
  · intro key hk hc
    refine (h.registered.labelled key).mpr (h.mem_of_structural grown ?_)
    exact Ast.mem_structural.mpr (Ast.isSome_entryAt?.mpr ⟨hk, hc⟩)

/-! ### Lowered files -/

/-- Whether the guards of all switch cases come after a label of their own, and no case has two
bodies. -/
def Tree.GuardsFit (root : Tree) : Prop :=
  ∀ t ∈ root.subtrees, t.kind = "switch_entry" → guardsFit false false false t.parts

/-- Whether the guards of a tree fit can be computed. -/
instance (root : Tree) : Decidable root.GuardsFit :=
  inferInstanceAs (Decidable (∀ t ∈ root.subtrees, _ → _))

/-- A tree whose guards fit and those below it, of which nothing may be dropped. -/
def Terms.fitting (root : Tree) (h : root.GuardsFit) : Terms where
  trees t := t ∈ root.subtrees
  lossy := False
  deep := False
  below := (Terms.under root).below
  guards t ht hk := .inr (h t ht hk)

/-- A file is a forest if a forest was made of it from the beginning. -/
theorem LoweredFile.isForest_of_effect {root : Tree} {fits : root.GuardsFit} {s : State}
    {topLevel : List DeclId} (hasParseErrors : Bool) (linked : s.Linked)
    (effect : Effect (Terms.fitting root fits) [] {} [] s.ast (topLevel.map .decl)) :
    LoweredFile.IsForest { ast := s.finish, topLevel, hasParseErrors } ∧
      LoweredFile.LabelsAll { ast := s.finish, topLevel, hasParseErrors } := by
  obtain ⟨typed, -, -⟩ := effect.typed Ast.typed_empty fun node hn => by cases hn
  have hempty : ({} : Ast).Grown (hidden []) (loose [] + 0) := by
    rw [hidden_nil, loose_nil, add_zero]
    exact Ast.grown_empty
  have grown := effect.grown id 0 hempty
  rw [hidden_nil, add_zero] at grown
  have grown := State.grown_finish grown
  have inRange : s.finish.InRange := by
    refine grown.inRange (State.typed_finish typed) fun id expr name decl he hk => ?_
    -- A reference agrees with its declaration, which is therefore there.
    obtain ⟨-, -, hh⟩ := linked.finish he name (some decl) hk
    obtain ⟨found, hd, -⟩ := Option.map_eq_some_iff.mp hh
    exact (Array.getElem?_eq_some_iff.mp hd).1
  have held : ∀ node ∈ topLevel.map Node.decl, s.finish.HasNode node := by
    intro node hn
    obtain ⟨decl, hd, rfl⟩ := List.mem_map.mp hn
    have hroot : (Node.decl decl).key ∈ loose (topLevel.map .decl) :=
      List.mem_filter.mpr ⟨List.mem_map_of_mem hn, by simp [Node.key]⟩
    have hm := Forest.mem_of_root grown hroot
    rw [Finset.sdiff_empty, Ast.mem_structural, Ast.isSome_entryAt?] at hm
    exact ⟨hm.1, by simp [Node.resolved?]⟩
  refine ⟨⟨inRange, fun decl hd => (held _ (List.mem_map_of_mem hd)).1, fun key => ?_,
    grown.acyclic⟩, LoweredFile.labelsAll inRange held grown⟩
  exact Ast.Grown.count_slots { ast := s.finish, topLevel, hasParseErrors } grown

/-- Lowering builds a forest and loses nothing that it builds, where the guards of switch cases fit.
An extraction of the file therefore meets each of its nodes, and no node that is missing. -/
theorem Tree.lower_forest (root : Tree) (fits : root.GuardsFit) (hasParseErrors : Bool) :
    root.lower hasParseErrors = .error .equalsBeforeBinding ∨
    ∃ file, root.lower hasParseErrors = .ok file ∧ file.IsForest ∧ file.LabelsAll := by
  have hroot : (Terms.fitting root fits).trees root := Tree.mem_subtrees_self root
  refine (Tree.lower_records hroot id hasParseErrors).imp id ?_
  rintro ⟨topLevel, s, es, hrec, -, effect, hlower⟩
  exact ⟨_, hlower, LoweredFile.isForest_of_effect hasParseErrors (hrec.linked .empty) effect⟩

/-- The tree of a switch with the case `case 1 where y: z`. -/
def Tree.guardedCase : Tree :=
  .bare "source_file" true "" [.bare "switch_statement" true "" [
    .bare "switch" false "switch" [], .bare "simple_identifier" true "x" [],
    .bare "\x7b" false "\x7b" [],
    .bare "switch_entry" true "" [
      .bare "switch_pattern" true "1" [.bare "integer_literal" true "1" []],
      .bare "where_keyword" true "where" [], .bare "simple_identifier" true "y" [],
      .bare "statements" true "z" [.bare "simple_identifier" true "z" []]],
    .bare "\x7d" false "\x7d" []]]

/-- A case with a guard is lowered to a forest. -/
theorem Tree.lower_forest_guardedCase :
    Tree.guardedCase.GuardsFit ∧ ∃ file, Tree.guardedCase.lower false = .ok file ∧
      file.IsForest ∧ file.LabelsAll := by
  have fits : Tree.guardedCase.GuardsFit := by decide +kernel
  have hok : (Tree.guardedCase.lower false).toOption.isSome = true := by decide +kernel
  refine ⟨fits, (Tree.lower_forest Tree.guardedCase fits false).resolve_left fun he => ?_⟩
  rw [he] at hok
  cases hok

end SwiftRelations
