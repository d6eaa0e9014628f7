import SwiftRelations.Proofs.Types.Steps

/-!
# The recursion of reading a type

The types inside a type are found by starting over behind a token of it. So each of them starts
strictly later, and reading ends wherever a cursor starts. What is found is what the reader of
tokens finds in the tokens ahead of the cursor. The rules are gone through once, for two ways to
find the types inside that do the same behind the place where the type around them starts: this
tells which calls matter, along with what comes of them.
-/

namespace SwiftRelations.Types.Cursor

open SwiftRelations.Text SwiftRelations.Types.Shape

variable {text : List Char} {pos p q : Nat} {α β : Type}

/-! ### Searches that end alike -/

section Meet

variable {x : Scan α} {mid : α → Nat → Prop} {last : Option β → Nat → Prop}

private theorem Meet.pure {b : β} (h : last (some b) pos) :
    Meet (pure b : Find β).run (pure b : Find β).run pos last :=
  ⟨some b, pos, rfl, rfl, h⟩

private theorem Meet.failure (h : last none pos) :
    Meet (failure : Find β).run (failure : Find β).run pos last :=
  ⟨none, pos, rfl, rfl, h⟩

private theorem run_bind_some {x : Find α} {a : α} (hx : x.run pos = some (some a, p))
    (f : α → Find β) : (x >>= f).run pos = (f a).run p := by
  rw [OptionT.run_bind, Option.elimM]
  simp [Bind.bind, StateT.bind, hx]

private theorem run_bind_none {x : Find α} (hx : x.run pos = some (none, p)) (f : α → Find β) :
    (x >>= f).run pos = some (none, p) := by
  rw [OptionT.run_bind, Option.elimM]
  simp only [Bind.bind, StateT.bind, hx]
  rfl

private theorem run_lift {x : Scan α} {a : α} (hx : x pos = some (a, p)) :
    (liftM x : Find α).run pos = some (some a, p) := by
  simp [Functor.map, StateT.map, hx]

/-- What is found is gone on with. If nothing is found, that is the end. -/
theorem Meet.bind {x y : Find α} {f g : α → Find β} {mid : Option α → Nat → Prop}
    (hx : Meet x.run y.run pos mid) (hnone : ∀ p, mid none p → last none p)
    (hf : ∀ a p, mid (some a) p → Meet (f a).run (g a).run p last) :
    Meet (x >>= f).run (y >>= g).run pos last := by
  obtain ⟨found, p, hx, hy, hmid⟩ := hx
  cases found with
  | none => exact ⟨none, p, run_bind_none hx f, run_bind_none hy g, hnone p hmid⟩
  | some a =>
    rw [Meet, run_bind_some hx, run_bind_some hy]
    exact hf a p hmid

/-- A step that finds something in any case is gone on with. -/
theorem Meet.lift {f g : α → Find β} (hx : Ends x pos mid)
    (hf : ∀ a p, mid a p → Meet (f a).run (g a).run p last) :
    Meet ((liftM x : Find α) >>= f).run ((liftM x : Find α) >>= g).run pos last := by
  obtain ⟨a, p, hx, hmid⟩ := hx
  rw [Meet, run_bind_some (run_lift hx), run_bind_some (run_lift hx)]
  exact hf a p hmid

/-- The place of the cursor may be asked for. -/
theorem Meet.get {f g : Nat → Find β} (h : Meet (f pos).run (g pos).run pos last) :
    Meet ((get : Find Nat) >>= f).run ((get : Find Nat) >>= g).run pos last :=
  have hget := run_lift (show (MonadState.get : Scan Nat) pos = some (pos, pos) from rfl)
  let ⟨b, p, hf, hg, hlast⟩ := h
  ⟨b, p, (run_bind_some hget f).trans hf, (run_bind_some hget g).trans hg, hlast⟩

/-- A step that looks for punctuation first. -/
theorem Meet.ifEat {a b a' b' : Find β} (h : pos ≤ text.length) {token : Token}
    (ht : token.isPunctuation = true)
    (hit : ∀ p, Passes text pos p → ahead text pos = token :: ahead text p →
      Meet a.run a'.run p last)
    (miss : ∀ p, Reaches text pos p → ahead text p = ahead text pos →
      (ahead text pos).head? ≠ some token → Meet b.run b'.run p last) :
    Meet ((liftM (eat text token) : Find Bool) >>= fun found => if found = true then a else b).run
      ((liftM (eat text token) : Find Bool) >>= fun found => if found = true then a' else b').run
      pos last := by
  refine .lift (eat_ends h ht) ?_
  rintro found p ⟨hyes, hno⟩
  cases found with
  | true => exact hit p (hyes rfl).1 (hyes rfl).2
  | false =>
    obtain ⟨hp, he, hhead⟩ := hno rfl
    exact miss p hp he hhead

/-- Two searches end alike if their rounds do, and either move the cursor on or are the last. -/
theorem search_meet {body body' : α → Find (Round α β)} {state : α} (inv : α → Nat → Prop)
    (h : ∀ state p, p ≤ text.length → inv state p →
      Meet (body state).run (body' state).run p fun found q =>
        found.elim (last none q) fun round => Advances text p inv (fun b => last (some b)) round q)
    (hpos : pos ≤ text.length) (hinv : inv state pos) :
    Meet (search body state).run (search body' state).run pos last := by
  refine loop_meet inv (fun state p hp hi => ?_) hpos hinv
  obtain ⟨found, q, hx, hy, hfound⟩ := h state p hp hi
  refine ⟨.ofFound found, q, by simp [Functor.map, StateT.map, hx],
    by simp [Functor.map, StateT.map, hy], ?_⟩
  rcases found with _ | ⟨next | result⟩
  · exact hfound
  · exact hfound
  · exact hfound

end Meet

/-! ### What is found -/

/-- Whether what was found from a place on, and where the cursor is now, is what a reader makes of
the tokens ahead of the place. -/
structure Outcome (text : List Char) (reader : List Token → Option (α × List Token)) (pos : Nat)
    (found : Option α) (p : Nat) : Prop where
  reaches : Reaches text pos p
  passes : found.isSome = true → Passes text pos p
  reads : reader (ahead text pos) = found.map (·, ahead text p)

section Outcome

variable {reader : List Token → Option (α × List Token)}

private theorem Outcome.some {a : α} (hp : Passes text pos p)
    (hread : reader (ahead text pos) = .some (a, ahead text p)) :
    Outcome text reader pos (.some a) p :=
  ⟨hp.reaches, fun _ => hp, hread⟩

private theorem Outcome.none (hp : Reaches text pos p) (hread : reader (ahead text pos) = .none) :
    Outcome text reader pos .none p :=
  ⟨hp, nofun, hread⟩

variable {found : Option α}

/-- What is found behind a token is found from the token on. -/
theorem Outcome.of_passes {token : Token} (hp : Passes text pos p)
    (htoken : ahead text pos = token :: ahead text p)
    (h : Outcome text (fun tokens => reader (token :: tokens)) p found q) :
    Outcome text reader pos found q where
  reaches := hp.reaches.trans h.reaches
  passes _ := hp.trans_reaches h.reaches
  reads := htoken ▸ h.reads

/-- What is found in front of the same tokens is found. -/
theorem Outcome.of_reaches (hp : Reaches text pos p) (he : ahead text p = ahead text pos)
    (h : Outcome text reader p found q) : Outcome text reader pos found q where
  reaches := hp.trans h.reaches
  passes hf := hp.trans_passes (h.passes hf)
  reads := he ▸ h.reads

end Outcome

/-- Whether two ways to find a type end alike wherever the cursor comes to by moving past a token,
and find what a reader reads there. -/
def Alike (text : List Char) (t u : Find Shape) (inner : Reader) (pos : Nat) : Prop :=
  ∀ p, Passes text pos p → Meet t.run u.run p (Outcome text inner p)

variable {t u : Find Shape} {inner : Reader}

private theorem Alike.mono (h : Alike text t u inner pos) (hp : Reaches text pos p) :
    Alike text t u inner p := fun q hq => h q (hp.trans_passes hq)

/-! ### Lists -/

section Separated

variable {item : Reader} {close : Char} {tokens rest : List Token} {first : Shape}

private theorem separated_eq_none (h : item tokens = none) (fuel : Nat) :
    separated item close fuel tokens = none := by
  cases fuel with
  | zero => rfl
  | succ fuel => simp [separated, h]

private theorem separated_comma (h : item tokens = some (first, .mark ',' :: rest)) (fuel : Nat) :
    separated item close (fuel + 1) tokens =
      (separated item close fuel rest).map fun (others, rest) => (first :: others, rest) := by
  simp only [separated, h, Option.bind_eq_bind, Option.bind_some, if_true]
  cases separated item close fuel rest <;> rfl

private theorem separated_close (h : item tokens = some (first, .mark close :: rest))
    (hclose : close ≠ ',') (fuel : Nat) :
    separated item close (fuel + 1) tokens = some ([first], rest) := by
  simp [separated, h, hclose]

private theorem separated_stop (h : item tokens = some (first, rest))
    (hcomma : rest.head? ≠ some (.mark ',')) (hclose : rest.head? ≠ some (.mark close))
    (fuel : Nat) :
    separated item close (fuel + 1) tokens = none := by
  simp only [separated, h, Option.bind_eq_bind, Option.bind_some]
  split
  case h_1 c rest =>
    have hc : c ≠ ',' := fun hc => hcomma (by simp [hc])
    have hc' : c ≠ close := fun hc => hclose (by simp [hc])
    rw [if_neg hc, if_neg hc']
  case h_2 => rfl

end Separated

/-- A list of types ends as the reader of lists says, if each place to start at ends. -/
theorem items_meet {start : Scan Unit} {skip : List Token → List Token} {close : Char}
    (hstart : ∀ p ≤ text.length, Ends start p fun _ q =>
      Reaches text p q ∧ ahead text q = skip (ahead text p))
    (hmark : (Token.mark close).isPunctuation = true) (hclose : close ≠ ',') {fuel : Nat}
    (h : pos ≤ text.length)
    (hall : ∀ p, Reaches text pos p → Meet t.run u.run p (Outcome text inner p))
    (hf : (ahead text pos).length ≤ fuel) :
    Meet (items text start close t).run (items text start close u).run pos
      (Outcome text (separated (inner ∘ skip) close fuel) pos) := by
  have hstarted : separated (inner ∘ skip) close fuel (ahead text pos) =
      (separated (inner ∘ skip) close fuel (ahead text pos)).map fun (others, rest) =>
        ([] ++ others, rest) := by
    cases separated (inner ∘ skip) close fuel (ahead text pos) <;> rfl
  -- What is still to be read comes behind the types that have been found.
  refine search_meet (fun shapes p => Reaches text pos p ∧ ∃ bound, (ahead text p).length ≤ bound ∧
    separated (inner ∘ skip) close fuel (ahead text pos) =
      (separated (inner ∘ skip) close bound (ahead text p)).map fun (others, rest) =>
        (shapes ++ others, rest)) ?_ h ⟨.refl h, fuel, hf, hstarted⟩
  rintro shapes p hp ⟨hreach, bound, hbound, hread⟩
  refine .lift (hstart p hp) ?_
  rintro _ q ⟨hq, hskip⟩
  refine .bind (hall q (hreach.trans hq)) (fun r hr => .none ?_ ?_) fun shape r hr => ?_
  · exact hreach.trans (hq.trans hr.reaches)
  · have hnone : (inner ∘ skip) (ahead text p) = none := by
      rw [Function.comp_apply, ← hskip, hr.reads]
      rfl
    rw [hread, separated_eq_none hnone]
    rfl
  have hfirst : (inner ∘ skip) (ahead text p) = some (shape, ahead text r) := by
    rw [Function.comp_apply, ← hskip, hr.reads]
    rfl
  have hpass := hq.trans_passes (hr.passes rfl)
  have hlt := hpass.leaves.lt
  obtain ⟨bound, rfl⟩ : ∃ k, bound = k + 1 := ⟨bound - 1, by omega⟩
  refine .ifEat hpass.within (by decide) (fun v hv hcomma => .pure ?_) fun v hv he hcomma => ?_
  · rw [hcomma] at hfirst
    have hpass' := hpass.trans_reaches hv.reaches
    have hlt' := hpass'.leaves.lt
    refine ⟨hpass'.lt, hpass'.within, hreach.trans hpass'.reaches, bound, by omega, ?_⟩
    rw [hread, separated_comma hfirst]
    cases separated (inner ∘ skip) close bound (ahead text v) <;> simp
  · have hpass' := hpass.trans_reaches hv
    refine .ifEat hv.within hmark (fun w hw htoken => .pure ?_) fun w hw _ hend => .failure ?_
    · rw [← he, htoken] at hfirst
      refine Outcome.some (hreach.trans_passes (hpass'.trans_reaches hw.reaches)) ?_
      rw [hread, separated_close hfirst hclose]
      rfl
    · rw [he] at hend
      refine Outcome.none (hreach.trans (hpass'.reaches.trans hw)) ?_
      rw [hread, separated_stop hfirst hcomma hend]
      rfl

/-! ### The rules -/

/-- An array or a dictionary ends as the reader of primary types says. -/
theorem bracketed_meet (h : pos ≤ text.length)
    (hall : ∀ p, Reaches text pos p → Meet t.run u.run p (Outcome text inner p)) :
    Meet (bracketed text t).run (bracketed text u).run pos
      (Outcome text (fun tokens => Shape.primary inner (.mark '[' :: tokens)) pos) := by
  rw [bracketed, bracketed]
  refine .bind (hall pos (.refl h)) (fun p hp => .none hp.reaches ?_) fun first p hp => ?_
  · simp [Shape.primary, hp.reads]
  have hpass := hp.passes rfl
  refine .ifEat hpass.within (by decide) (fun q hq hcolon => ?_) fun q hq he hcolon => ?_
  · have hpass := hpass.trans_reaches hq.reaches
    refine .bind (hall q hpass.reaches) (fun r hr => .none (hpass.reaches.trans hr.reaches) ?_)
      fun value r hr => ?_
    · simp [Shape.primary, hp.reads, hcolon, hr.reads]
    have hpass := hpass.trans_reaches hr.reaches
    refine .ifEat hpass.within (by decide)
      (fun v hv hclose => .pure (.some (hpass.trans_reaches hv.reaches) ?_))
      fun v hv _ hclose => .failure (.none (hpass.reaches.trans hv) ?_)
    · simp [Shape.primary, hp.reads, hcolon, hr.reads, hclose]
    · simp only [Shape.primary, hp.reads, hcolon, hr.reads, Option.map_some, Option.bind_eq_bind,
        Option.bind_some]
      split
      case h_1 heq => simp [heq] at hclose
      case h_2 => rfl
  · have hpass := hpass.trans_reaches hq
    refine .ifEat hq.within (by decide)
      (fun r hr hclose => .pure (.some (hpass.trans_reaches hr.reaches) ?_))
      fun r hr _ hclose => .failure (.none (hpass.reaches.trans hr) ?_)
    · rw [he] at hclose
      simp [Shape.primary, hp.reads, hclose]
    · rw [he] at hclose
      simp only [Shape.primary, hp.reads, Option.map_some, Option.bind_eq_bind, Option.bind_some]
      split
      case h_1 heq => simp [heq] at hcolon
      case h_2 heq => simp [heq] at hclose
      case h_3 => rfl

/-- A tuple or a type in parentheses ends as the reader of primary types says. -/
theorem parenthesized_meet (h : pos ≤ text.length)
    (hall : ∀ p, Reaches text pos p → Meet t.run u.run p (Outcome text inner p)) :
    Meet (parenthesized text t).run (parenthesized text u).run pos
      (Outcome text (fun tokens => Shape.primary inner (.mark '(' :: tokens)) pos) := by
  rw [parenthesized, parenthesized]
  refine .ifEat h (by decide) (fun p hp hclose => .pure (.some hp ?_)) fun p hp he hclose => ?_
  · simp [Shape.primary, hclose]
  have hitems : Meet (items text (skipLabel text) ')' t).run
      (items text (skipLabel text) ')' u).run p (Outcome text
        (separated (inner ∘ Shape.skipLabel) ')' (ahead text p).length) p) := items_meet
    (fun p hp => (skipLabel_ends hp).imp fun _ q hq => ⟨hq.reaches, hq.tokens⟩)
    (by decide) (by decide) hp.within (fun q hq => hall q (hp.trans hq)) (Nat.le_refl _)
  refine .bind hitems (fun q hq => .none (hp.trans hq.reaches) ?_) fun elements q hq => ?_
  · rw [primary_parenthesis hclose, ← he, hq.reads]
    rfl
  have hpass := hp.trans_passes (hq.passes rfl)
  have hread : Shape.primary inner (.mark '(' :: ahead text pos) = _ := primary_parenthesis hclose
  rw [← he, hq.reads, he, Option.map_some, Option.bind_some] at hread
  rcases elements with _ | ⟨single, _ | ⟨second, others⟩⟩
  · exact .pure (.some hpass hread)
  · refine .lift (arrowFollows_ends hpass.within) ?_
    rintro found _ ⟨rfl, hfound⟩
    simp only [← hfound] at hread
    cases found with
    | true => exact .pure (.some hpass hread)
    | false => exact .pure (.some hpass hread)
  · exact .pure (.some hpass hread)

/-- No primary type begins with a token that is neither a name nor an opening bracket. -/
theorem primary_eq_none {tokens : List Token} (hbracket : tokens.head? ≠ some (.mark '['))
    (hparen : tokens.head? ≠ some (.mark '('))
    (hname : ∀ word rest, tokens ≠ .name word :: rest) : Shape.primary inner tokens = none := by
  unfold Shape.primary
  split
  case h_1 => exact absurd rfl hbracket
  case h_2 => exact absurd rfl hparen
  case h_3 => exact absurd rfl hparen
  case h_4 => exact absurd rfl (hname _ _)
  case h_5 => exact absurd rfl (hname _ _)
  case h_6 => rfl

/-- A type given by its name ends as the reader of primary types says. -/
theorem named_meet (h : pos ≤ text.length) (hall : Alike text t u inner pos)
    (hbracket : (ahead text pos).head? ≠ some (.mark '['))
    (hparen : (ahead text pos).head? ≠ some (.mark '(')) :
    Meet (named text t).run (named text u).run pos (Outcome text (Shape.primary inner) pos) := by
  rw [named, named]
  refine .bind (name_ends h).meet (fun p hname => ?_) fun word p hname => ?_
  · obtain ⟨hp, -, hno⟩ := hname.2 rfl
    exact .none hp (primary_eq_none hbracket hparen hno)
  obtain ⟨hp, htokens⟩ := hname.1 word rfl
  refine .ifEat hp.within (by decide) (fun q hq hopen => ?_) fun q hq he hopen => .pure ?_
  · have hpass := hp.trans_reaches hq.reaches
    have hitems : Meet (items text (Pure.pure ()) '>' t).run
        (items text (Pure.pure ()) '>' u).run q
        (Outcome text (separated (inner ∘ id) '>' (ahead text q).length) q) := items_meet
      (fun p hp => .pure ⟨.refl hp, rfl⟩) (by decide) (by decide) hpass.within
      (fun r hr => hall r (hpass.trans_reaches hr)) (Nat.le_refl _)
    refine .bind hitems (fun r hr => .none (hpass.reaches.trans hr.reaches) ?_)
      fun args r hr => .pure (.some (hpass.trans_reaches hr.reaches) ?_)
    · simp [Shape.primary, htokens, hopen, show separated inner '>' _ _ = _ from hr.reads]
    · simp [Shape.primary, htokens, hopen, show separated inner '>' _ _ = _ from hr.reads]
  · refine .some (hp.trans_reaches hq) ?_
    rw [htokens, primary_name hopen, he]

/-- A primary type ends as the reader of primary types says. -/
theorem primary_meet (h : pos ≤ text.length) (hall : Alike text t u inner pos) :
    Meet (primary text t).run (primary text u).run pos
      (Outcome text (Shape.primary inner) pos) := by
  rw [primary, primary]
  refine .ifEat h (by decide) (fun p hp hopen => ?_) fun p hp he hbracket => ?_
  · exact (bracketed_meet hp.within fun q hq => hall q (hp.trans_reaches hq)).imp
      fun _ _ => .of_passes hp hopen
  refine .ifEat hp.within (by decide) (fun q hq hopen => ?_) fun q hq he' hparen => ?_
  · have hpass := hp.trans_passes hq
    exact (parenthesized_meet hq.within fun r hr => hall r (hpass.trans_reaches hr)).imp
      fun _ _ => .of_passes hpass (he ▸ hopen)
  · have hreach := hp.trans hq
    have he' := he'.trans he
    exact (named_meet hq.within (hall.mono hreach) (he' ▸ hbracket) (he' ▸ he ▸ hparen)).imp
      fun _ _ => .of_reaches hreach he'

/-- A primary type with its suffixes ends as the readers say. -/
theorem suffixed_meet (h : pos ≤ text.length) (hall : Alike text t u inner pos) :
    Meet (suffixed text t).run (suffixed text u).run pos
      (Outcome text (fun tokens => (Shape.primary inner tokens).map fun (base, rest) =>
        Shape.suffixed base rest) pos) := by
  rw [suffixed, suffixed]
  refine .bind (primary_meet h hall) (fun p hp => .none hp.reaches ?_) fun base p hp => ?_
  · rw [hp.reads]
    rfl
  have hpass := hp.passes rfl
  obtain ⟨shape, q, hx, hq, hsuffixed⟩ := suffixes_ends hpass.within base
  have hrun := run_lift hx
  refine ⟨some shape, q, hrun, hrun, .some (hpass.trans_reaches hq) ?_⟩
  simp only [hp.reads, Option.map_some, hsuffixed]

/-- A type ends as the reader of types says, and in the same way whenever the types inside it do
behind the place where it starts. -/
theorem step_meet (h : pos ≤ text.length) (hall : Alike text t u inner pos) :
    Meet (step text t).run (step text u).run pos (Outcome text (Shape.step inner) pos) := by
  rw [step, step]
  refine .lift (skipModifiers_ends h) ?_
  rintro _ p ⟨hp, hmodified⟩
  refine .bind (suffixed_meet hp.within (hall.mono hp)) (fun q hq => .none (hp.trans hq.reaches) ?_)
    fun base q hq => ?_
  · have hnone : Shape.primary inner (Shape.skipModifiers (ahead text pos)) = none := by
      rw [← hmodified]
      exact Option.map_eq_none_iff.mp hq.reads
    simp [Shape.step, hnone]
  obtain ⟨⟨shape, rest⟩, hprimary, hsuffixed⟩ := Option.map_eq_some_iff.mp hq.reads
  rw [hmodified] at hprimary
  have hpass := hp.trans_passes (hq.passes rfl)
  refine .lift (skipWords_ends hpass.within effectWords) ?_
  rintro _ r ⟨hr, hskip, -⟩
  rw [← skipEffects_eq] at hskip
  have hpass := hpass.trans_reaches hr
  refine .ifEat hpass.within (by decide) (fun v hv harrow => ?_) fun v hv he harrow => .pure ?_
  · have hpass := hpass.trans_reaches hv.reaches
    rw [hskip] at harrow
    refine .bind (hall v hpass) (fun w hw => .none (hpass.reaches.trans hw.reaches) ?_)
      fun result w hw => .pure (.some (hpass.trans_reaches hw.reaches) ?_)
    · simp [Shape.step, hprimary, hsuffixed, harrow, hw.reads]
    · simp [Shape.step, hprimary, hsuffixed, harrow, hw.reads]
  · refine .some (hpass.trans_reaches hv) ?_
    rw [hskip] at harrow he
    simp only [Shape.step, hprimary, Option.bind_eq_bind, Option.bind_some, hsuffixed]
    split
    case h_1 heq => simp [heq] at harrow
    case h_2 => rw [he]

/-! ### The recursion -/

/-- Whether each of some ways to find a type finds the types inside in the way before it. -/
def Unfolds (text : List Char) (t : Nat → Find Shape) : Prop :=
  ∀ depth, ∀ pos ≤ text.length, (t (depth + 1)).run pos = (step text (t depth)).run pos

/-- Where the types nest less deep than the tokens ahead are many, how the deepest of them would be
found does not matter. -/
theorem Unfolds.meet {t u : Nat → Find Shape} (ht : Unfolds text t) (hu : Unfolds text u)
    {depth : Nat} (h : pos ≤ text.length) (hd : (ahead text pos).length < depth) :
    Meet (t depth).run (u depth).run pos (Outcome text (Shape.read depth) pos) := by
  induction depth generalizing pos with
  | zero => exact absurd hd (Nat.not_lt_zero _)
  | succ depth ih =>
    have hall : Alike text (t depth) (u depth) (Shape.read depth) pos := fun p hp =>
      ih hp.within (Nat.lt_of_lt_of_le hp.leaves.lt (Nat.le_of_lt_succ hd))
    obtain ⟨found, p, hx, hy, hout⟩ := step_meet h hall
    exact ⟨found, p, (ht depth pos h).trans hx, (hu depth pos h).trans hy, hout⟩

/-- Where the depth is no bound, a type is found with any depth that is large enough. -/
theorem type_eq_upTo {depth : Nat} (h : pos ≤ text.length) (hd : (ahead text pos).length < depth) :
    (type text).run pos = (upTo text depth).run pos := by
  have hupTo : Unfolds text (upTo text) := fun _ _ _ => rfl
  obtain ⟨found, p, hx, -⟩ := hupTo.meet hupTo h hd
  have hlimit : ∀ n ≥ depth, (upTo text n).run pos = some (found, p) := by
    intro n hn
    obtain ⟨more, rfl⟩ := Nat.exists_eq_add_of_le' hn
    have hmore : Unfolds text fun depth => upTo text (more + depth) := fun _ _ _ => rfl
    rw [← hx, (hupTo.meet hmore h hd).eq]
  exact (limit_eq_some_iff.mpr ⟨depth, hlimit⟩).trans hx.symm

/-- A type is found by finding the types inside it. -/
theorem type_run (h : pos ≤ text.length) :
    (type text).run pos = (step text (type text)).run pos := by
  have hupTo : Unfolds text (upTo text) := fun _ _ _ => rfl
  have hall : Alike text (upTo text (ahead text pos).length) (type text)
      (Shape.read (ahead text pos).length) pos := by
    intro p hp
    obtain ⟨found, q, hx, -, hout⟩ := hupTo.meet hupTo hp.within hp.leaves.lt
    exact ⟨found, q, hx, (type_eq_upTo hp.within hp.leaves.lt).trans hx, hout⟩
  exact (type_eq_upTo h (Nat.lt_succ_self _)).trans (step_meet h hall).eq

section Solution

variable {t : Find Shape} (ht : ∀ p ≤ text.length, t.run p = (step text t).run p)
include ht

/-- Any way to find a type by finding the types inside it comes to the same end. It finds what is
read in the tokens ahead. -/
theorem type_meet (h : pos ≤ text.length) {fuel : Nat} (hf : (ahead text pos).length < fuel) :
    Meet t.run (type text).run pos (Outcome text (Shape.read fuel) pos) :=
  Unfolds.meet (t := fun _ => t) (u := fun _ => type text) (fun _ => ht) (fun _ _ => type_run) h hf

private theorem run_eq_type (h : pos ≤ text.length) : t.run pos = (type text).run pos :=
  (type_meet ht h (Nat.lt_succ_self _)).eq

end Solution

/-- The search for a type ends, with what is read in the tokens ahead. -/
theorem type_outcome (h : pos ≤ text.length) : Ends (type text).run pos fun found p =>
    ∀ fuel, (ahead text pos).length < fuel → Outcome text (Shape.read fuel) pos found p := by
  obtain ⟨found, p, hx, -, -⟩ := type_meet (fun _ => type_run) h (Nat.lt_succ_self _)
  refine ⟨found, p, hx, fun fuel hf => ?_⟩
  obtain ⟨found', p', hx', -, hout⟩ := type_meet (fun _ => type_run) h hf
  cases hx.symm.trans hx'
  exact hout

/-- The calls of a search that start later in the text. From anywhere else it never ends. -/
def later (text : List Char) (pos : Nat) (type : Find Shape) : Find Shape :=
  OptionT.mk fun p => if pos < p ∧ p ≤ text.length then type.run p else none

/-- Behind the place where a type starts, the types inside it are found alike by two searches that
do the same there. -/
theorem alike_type {t : Find Shape} (h : ∀ p, pos < p → p ≤ text.length →
    t.run p = (type text).run p) :
    Alike text t (type text) (Shape.read (ahead text pos).length) pos := by
  intro p hp
  obtain ⟨found, q, hx, hout⟩ := type_outcome hp.within
  exact ⟨found, q, (h p hp.lt hp.within).trans hx, hx, hout _ hp.leaves.lt⟩

/-- Only searches that start later are made for the types inside a type. -/
theorem step_eq_type {t : Find Shape} (h : pos ≤ text.length)
    (ht : ∀ p, pos < p → p ≤ text.length → t.run p = (type text).run p) :
    (step text t).run pos = (type text).run pos :=
  (step_meet h (alike_type ht)).eq.trans (type_run h).symm

/-- A search that ends behind the last token ends at the end of the text, but for white space. -/
theorem ahead_eq_nil_iff (hp : p ≤ text.length) (hu : Unblank text p) :
    ahead text p = [] ↔ p = text.length := by
  constructor
  · intro h
    by_contra hne
    have hc : text[p]? = some text[p] := List.getElem?_eq_getElem (by omega)
    rw [ahead, List.drop_eq_cons_of_getElem? hc, Token.scan_cons (hu _ hc)] at h
    cases h
  · rintro rfl
    simp [ahead]

/-- The whole of a text is found to be the type that it is read as. -/
theorem whole_ends (text : List Char) :
    Ends (whole text).run 0 fun found _ => found = ofText? (String.ofList text) := by
  have htext : ofText? (String.ofList text) = ofTokens? (ahead text 0) := by simp [ofText?, ahead]
  suffices h : Meet (whole text).run (whole text).run 0 _ from h.ends
  rw [whole, htext, ofTokens?]
  refine .bind (type_outcome (Nat.zero_le text.length)).meet (fun p hout => ?_)
    fun shape p hout => ?_
  · rw [(hout _ (Nat.lt_succ_self _)).reads]
    rfl
  have hout := hout _ (Nat.lt_succ_self _)
  rw [hout.reads, Option.map_some]
  refine .lift (skipBlanks_ends hout.reaches.within) ?_
  rintro _ q ⟨hq, he, hu⟩
  refine .get ?_
  by_cases hend : q = text.length
  · rw [if_pos hend, ← he, (ahead_eq_nil_iff hq.within hu).mpr hend]
    exact .pure rfl
  · rw [if_neg hend]
    refine .failure ?_
    split
    case h_1 heq =>
      simp only [Option.some.injEq, Prod.mk.injEq] at heq
      exact absurd ((ahead_eq_nil_iff hq.within hu).mp (he.trans heq.2)) hend
    case h_2 => rfl

/-- Reading a type ends wherever in the text it starts, within the text and not in front of the
start: behind the start if a type is found, and at the start after a look for an arrow, or for a
label in vain. A search that is made for a type inside another one starts later in the text, so the
same is found if those from anywhere else never end. The recursion has this one solution, which
finds what is read in the tokens ahead, and in the whole of a text what the text spells. -/
theorem type_ends {text : List Char} {pos : Nat} (h : pos ≤ text.length) :
    (∀ words, Ends (skipWords text words) pos fun _ p => pos ≤ p ∧ p ≤ text.length) ∧
    (Ends (skipModifiers text) pos fun _ p => pos ≤ p ∧ p ≤ text.length) ∧
    (Ends (arrowFollows text) pos fun _ p => p = pos) ∧
    (Ends (skipLabel text) pos fun _ p => pos ≤ p ∧ p ≤ text.length ∧
      (p = pos ∨ ∃ label, IsLabel label ∧ ahead text pos = label ++ ahead text p)) ∧
    (Ends (primary text (type text)).run pos fun _ p => pos ≤ p ∧ p ≤ text.length) ∧
    (Ends (suffixed text (type text)).run pos fun _ p => pos ≤ p ∧ p ≤ text.length) ∧
    (Ends (type text).run pos fun found p => pos ≤ p ∧ p ≤ text.length ∧
      (found.isSome = true → pos < p) ∧ ∀ fuel, (ahead text pos).length < fuel →
        Shape.read fuel (ahead text pos) = found.map (·, ahead text p)) ∧
    (type text).run pos = (step text (later text pos (type text))).run pos ∧
    (∀ t : Find Shape, (∀ p ≤ text.length, t.run p = (step text t).run p) ↔
      ∀ p ≤ text.length, t.run p = (type text).run p) ∧
    Ends (whole text).run 0 fun found _ => found = ofText? (String.ofList text) := by
  have hreaches {p : Nat} (hp : Reaches text pos p) : pos ≤ p ∧ p ≤ text.length :=
    ⟨hp.le, hp.within⟩
  have hall : Alike text (type text) (type text) (Shape.read (ahead text pos).length) pos :=
    alike_type fun _ _ _ => rfl
  refine ⟨fun words => ?words, ?modifiers, ?arrow, ?label, ?primary, ?suffixed, ?type, ?nested,
    fun t => ⟨fun ht p hp => run_eq_type ht hp, fun ht p hp => ?solution⟩, whole_ends text⟩
  case words => exact (skipWords_ends h words).imp fun _ _ hp => hreaches hp.1
  case modifiers => exact (skipModifiers_ends h).imp fun _ _ hp => hreaches hp.1
  case arrow => exact (arrowFollows_ends h).imp fun _ _ hp => hp.1
  case label =>
    exact (skipLabel_ends h).imp fun _ _ hp => ⟨hp.reaches.le, hp.reaches.within, hp.label⟩
  case primary => exact (primary_meet h hall).ends.imp fun _ _ hp => hreaches hp.reaches
  case suffixed => exact (suffixed_meet h hall).ends.imp fun _ _ hp => hreaches hp.reaches
  case type =>
    refine (type_outcome h).imp fun found p hout => ?_
    have hp := hout _ (Nat.lt_succ_self _)
    exact ⟨hp.reaches.le, hp.reaches.within, fun hf => (hp.passes hf).lt,
      fun fuel hf => (hout fuel hf).reads⟩
  case nested => exact (step_eq_type h fun p hlt hp => if_pos ⟨hlt, hp⟩).symm
  case solution => rw [ht p hp, step_eq_type hp fun q _ => ht q]

/-- A function type is found behind a blank, where its attribute begins. -/
theorem type_ends_function :
    let text := " @ inout (_ x: Int) throws -> [Swift.Int?]".toList
    1 ≤ text.length ∧ Ends (type text).run 1 fun found p => 1 < p ∧ p ≤ text.length ∧
      found = some (.function [.named "Int" []] (.array (.optional (.named "Swift.Int" [])))) ∧
      ahead text p = [] := by
  intro text
  have hlength : 1 ≤ text.length := by decide
  have hahead : ahead text 1 = [.mark '@', .name "inout", .mark '(', .name "_", .name "x",
      .mark ':', .name "Int", .mark ')', .name "throws", .arrow, .mark '[', .name "Swift.Int",
      .mark '?', .mark ']'] := by decide +kernel
  refine ⟨hlength, ?_⟩
  obtain ⟨-, -, -, -, -, -, ⟨found, p, hx, -, hwithin, hlt, hread⟩, -⟩ := type_ends hlength
  have hread := hread 15 (by rw [hahead]; decide)
  rw [hahead] at hread
  obtain ⟨shape, rfl, hshape⟩ := Option.map_eq_some_iff.mp hread.symm
  obtain ⟨rfl, hrest⟩ := Prod.mk.inj hshape
  exact ⟨_, p, hx, hlt rfl, hwithin, rfl, hrest⟩

end SwiftRelations.Types.Cursor
