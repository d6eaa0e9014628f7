import SwiftRelations.Proofs.Extraction.Finished
import SwiftRelations.Proofs.Extraction.Requests

/-!
# Nothing is said twice

Each node is described at most once, however often it is asked for or referred to, and within one
description facts of one relation are told apart by their numbers. So no fact is stated twice, and
facts of one relation about one node have different numbers.
-/

namespace SwiftRelations

variable {ν μ : Type}

/-- Renaming nodes keeps the number in a fact. -/
theorem Fact.index?_map (f : ν → μ) (fact : Fact ν) : (fact.map f).index? = fact.index? := by
  obtain ⟨relation, args⟩ := fact
  match args with
  | [] => rfl
  | [v] => cases v <;> rfl
  | v :: w :: args => cases v <;> cases w <;> rfl

/-- Renaming nodes keeps facts apart. -/
theorem Fact.Apart.map {f g : Fact ν} (h : f.Apart g) (ρ : ν → μ) : (f.map ρ).Apart (g.map ρ) := by
  intro hr
  obtain ⟨hi, i, j, hf, hg, hne⟩ := h hr
  exact ⟨hi, i, j, (Fact.index?_map ρ f).trans hf, (Fact.index?_map ρ g).trans hg, hne⟩

/-- No fact is apart from itself. -/
theorem Fact.Apart.ne {f g : Fact ν} (h : f.Apart g) : f ≠ g := by
  rintro rfl
  obtain ⟨-, i, j, hi, hj, hne⟩ := h rfl
  rw [hi] at hj
  exact hne (Option.some.inj hj)

namespace Extraction

variable {ast : Ast} {options : ExtractionOptions} {asked order : List Node} {log : List Step}
  {run : Run}

/-- Facts about one node are apart. -/
theorem Traced.apart (h : Traced ast options asked order log run []) (inRange : ast.InRange)
    (held : ∀ root ∈ asked, ast.HasNode root) :
    (factsOf log).Pairwise fun f g => f.subject? = g.subject? → f.Apart g := by
  apply List.pairwise_of_pairwise_filter
  intro fact hf
  obtain ⟨node, hn, hs⟩ := h.exists_subject hf
  obtain ⟨payload, hp⟩ := (h.hasNode inRange held hn).exists_payload
  rw [hs, h.filter_facts hn]
  exact (tells_describe options hp).apart

/-- Facts with one label for their subject are about one node. -/
theorem Traced.subject_inj (h : Traced ast options asked order log run []) {f g : Fact NodeKey}
    (hf : f ∈ factsOf log) (hg : g ∈ factsOf log)
    (he : (f.map run.labelOf).subject? = (g.map run.labelOf).subject?) :
    f.subject? = g.subject? := by
  obtain ⟨m, hm, hfs⟩ := h.exists_subject hf
  obtain ⟨n, hn, hgs⟩ := h.exists_subject hg
  rw [Fact.subject?_map, Fact.subject?_map, hfs, hgs, Option.map_some, Option.map_some,
    Option.some.injEq] at he
  rw [hfs, hgs, h.registered.labelOf_inj (List.mem_map_of_mem hm) (List.mem_map_of_mem hn) he]

/-- Facts with one label for their subject are apart. -/
theorem Traced.facts_apart (h : Traced ast options asked order log run []) (inRange : ast.InRange)
    (held : ∀ root ∈ asked, ast.HasNode root) :
    run.facts.toList.Pairwise fun f g => f.subject? = g.subject? → f.Apart g := by
  rw [h.logged.facts, List.pairwise_map]
  apply (h.apart inRange held).imp_of_mem
  intro f g hf hg ha hs
  exact (ha (h.subject_inj hf hg hs)).map run.labelOf

/-- Any requests for nodes of a tree are answered, with each node described at most once and no two
facts of one relation about one node unless they differ in their numbers. -/
theorem Run.answerAll_once {requests : List Request} (inRange : ast.InRange)
    (held : ∀ node ∈ Extraction.asked requests, ast.HasNode node) (options : ExtractionOptions) :
    ∃ answers run nodes, ({} : Run).answerAll ast options requests = .ok (answers, run) ∧
      (∀ nodes' run', Moves ast options {} ((Extraction.asked requests).map .visit) nodes' run' [] ↔
        nodes' = nodes ∧ run' = run) ∧
      (∀ key, run.dispatched.contains key = true ↔ key ∈ nodes.map Node.key) ∧
      (nodes.map Node.key).Nodup ∧ run.facts.toList.Nodup ∧
      run.facts.toList.Pairwise fun f g => f.subject? = g.subject? → f.Apart g := by
  obtain ⟨order, log, run, hm, h⟩ := exists_traced inRange held options
  obtain ⟨answers, ha⟩ := Run.answerAll_of_moves ast options hm
  have hp := h.facts_apart inRange held
  refine ⟨answers, run, order, ha, ?_, h.registered.marked, h.registered.nodup, ?_, hp⟩
  · intro nodes' run'
    constructor
    · exact fun hm' => hm'.unique hm
    · rintro ⟨rfl, rfl⟩
      exact hm
  · exact hp.imp fun ha he => (ha (congrArg Fact.subject? he)).ne he

/-- The nodes may be asked for again, and an annotation with and without its type. -/
theorem Run.answerAll_once_loop :
    Ast.loop.InRange ∧
      ∃ answers run nodes, ({} : Run).answerAll Ast.loop {}
          [.extractAll [.expr ⟨0⟩, .decl ⟨0⟩, .expr ⟨0⟩], .extract (.writtenType ⟨⟨0⟩, none⟩)] =
            .ok (answers, run) ∧
        (∀ nodes' run', Moves Ast.loop {} {}
          [.visit (.expr ⟨0⟩), .visit (.decl ⟨0⟩), .visit (.expr ⟨0⟩),
            .visit (.writtenType ⟨⟨0⟩, none⟩)] nodes' run' [] ↔ nodes' = nodes ∧ run' = run) ∧
        (∀ key, run.dispatched.contains key = true ↔ key ∈ nodes.map Node.key) ∧
        (nodes.map Node.key).Nodup ∧ run.facts.toList.Nodup ∧
        run.facts.toList.Pairwise fun f g => f.subject? = g.subject? → f.Apart g :=
  ⟨by decide, Run.answerAll_once (by decide) (by decide) {}⟩

end Extraction

end SwiftRelations
