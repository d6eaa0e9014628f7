import SwiftRelations.Proofs.Types.Grammar

/-!
# Reading a type with a cursor

A type can be read from its text without splitting the text into tokens before: a cursor moves over
the characters, is put back where something was tried in vain, and may fall behind white space
where a character was looked for and not found. The loops and the recursion have no bound, so no
step is known to end by how it is defined. A loop ends if each round ends and moves the cursor on.

The steps follow `TypeTextParser` one by one: `peek`, `peek_at`, `skip_ws`, `eat`, `eat_str`,
`ident`, `skip_words`, `skip_attributes`, `arrow_follows`, `skip_element_label`, `parse_primary`,
`parse_postfix` and `parse_type`.
-/

namespace SwiftRelations.Types.Cursor

open SwiftRelations.Text SwiftRelations.Types.Shape

noncomputable section

/-! ### Steps of a cursor -/

/-- A step of a cursor. It comes to nothing if it never ends. -/
abbrev Scan (α : Type) := StateT Nat Option α

/-- A step of a cursor that may find nothing. -/
abbrev Find (α : Type) := OptionT Scan α

/-- What a round of a loop comes to. -/
inductive Round (α β : Type) where
  | again (state : α)
  | done (result : β)

section Loops

variable {α β : Type}

open Classical in
/-- What bounded steps come to when the bound is lifted: an end, if all of them from some bound on
end alike. -/
def limit (x : Nat → Scan α) : Scan α := fun pos =>
  if h : ∃ result bound, ∀ n ≥ bound, x n pos = some result then some h.choose else none

/-- A loop of fewer rounds than a bound. One that would go on never ends. -/
def rounds (body : α → Scan (Round α β)) : Nat → α → Scan β
  | 0, _ => fun _ => none
  | bound + 1, state => do
    match ← body state with
    | .again next => rounds body bound next
    | .done result => return result

/-- A loop. It goes on until a round says that it is done. -/
def loop (body : α → Scan (Round α β)) (state : α) : Scan β :=
  limit fun bound => rounds body bound state

/-- A round that has found nothing is the last. -/
def Round.ofFound : Option (Round α β) → Round α (Option β)
  | some (.again next) => .again next
  | some (.done result) => .done (some result)
  | none => .done none

/-- A loop that is also left when a round finds nothing. -/
def search (body : α → Find (Round α β)) (state : α) : Find β :=
  OptionT.mk <| loop (fun state => Round.ofFound <$> (body state).run) state

end Loops

section Definitions

variable (text : List Char)

/-- Moves past white space. -/
def skipBlanks : Scan Unit :=
  loop (fun _ => do
    let pos ← get
    if text[pos]?.any isBlank then
      set (pos + 1)
      return .again ()
    else return .done ()) ()

/-- Moves past a token if it is what the text goes on with. -/
def eat (token : Token) : Scan Bool := do
  skipBlanks text
  let pos ← get
  if token.chars.isPrefixOf (text.drop pos) then
    set (pos + token.chars.length)
    return true
  else return false

/-- Moves to the end of a name that has begun. -/
def finishName : Scan Unit :=
  loop (fun _ => do
    let pos ← get
    if text[pos]?.any fun c =>
        continuesName c || (c == '.' && text[pos + 1]?.any beginsName) then
      set (pos + 1)
      return .again ()
    else return .done ()) ()

/-- Moves past a name, if there is one. -/
def name : Scan (Option String) := do
  skipBlanks text
  let start ← get
  if text[start]?.any beginsName then
    finishName text
    return some (String.ofList (text.extract start (← get)))
  else return none

/-- Moves past any of some words, as often as they come. Tells whether there was one. -/
def skipWords (words : List String) : Scan Bool :=
  loop (fun skipped => do
    let start ← get
    if (← name text).any (· ∈ words) then return .again true
    else
      set start
      return .done skipped) false

/-- Moves past attributes and modifier words. An `@` may stand without a name. -/
def skipModifiers : Scan Unit :=
  loop (fun _ => do
    if ← eat text (.mark '@') then
      let _ ← name text
      return .again ()
    else if ← skipWords text modifierWords then return .again ()
    else return .done ()) ()

/-- Whether effect words and an arrow follow. The cursor is put back. -/
def arrowFollows : Scan Bool := do
  let start ← get
  let _ ← skipWords text effectWords
  let found ← eat text .arrow
  set start
  return found

/-- Moves past the label of a tuple element, `x:` or `_ x:`. If there is none, the cursor is put
back. -/
def skipLabel : Scan Unit := do
  let start ← get
  if (← name text).isSome then
    let behindFirst ← get
    if ← eat text (.mark ':') then return
    else
      set behindFirst
      if (← name text).isSome then
        if ← eat text (.mark ':') then return
        else set start
      else set start
  else set start

/-- Moves past the suffixes of a type. -/
def suffixes (shape : Shape) : Scan Shape :=
  loop (fun shape => do
    if ← eat text .ellipsis then return .again (.array shape)
    else if ← eat text (.mark '?') then return .again (.optional shape)
    else if ← eat text (.mark '!') then return .again (.optional shape)
    else return .done shape) shape

/-- One or more types with commas between them, up to a closing mark. Something may be passed over
before each of them. -/
def items (start : Scan Unit) (close : Char) (type : Find Shape) : Find (List Shape) :=
  search (fun shapes => do
    start
    let shape ← type
    if ← eat text (.mark ',') then return .again (shapes ++ [shape])
    else if ← eat text (.mark close) then return .done (shapes ++ [shape])
    else failure) []

/-- An array or a dictionary, behind its opening bracket. -/
def bracketed (type : Find Shape) : Find Shape := do
  let first ← type
  if ← eat text (.mark ':') then
    let value ← type
    if ← eat text (.mark ']') then return .dictionary first value
    else failure
  else if ← eat text (.mark ']') then return .array first
  else failure

/-- A tuple or a type in parentheses, behind the opening one. -/
def parenthesized (type : Find Shape) : Find Shape := do
  if ← eat text (.mark ')') then return .tuple []
  else
    match ← items text (skipLabel text) ')' type with
    | [single] => if ← arrowFollows text then return .tuple [single] else return single
    | elements => return .tuple elements

/-- A type given by its name, with its arguments. -/
def named (type : Find Shape) : Find Shape := do
  let name ← OptionT.mk (name text)
  if ← eat text (.mark '<') then
    let args ← items text (pure ()) '>' type
    return ofName name args
  else return ofName name []

/-- A primary type, given how the types inside it are found. -/
def primary (type : Find Shape) : Find Shape := do
  if ← eat text (.mark '[') then bracketed text type
  else if ← eat text (.mark '(') then parenthesized text type
  else named text type

/-- A primary type with its suffixes. -/
def suffixed (type : Find Shape) : Find Shape := do
  let base ← primary text type
  suffixes text base

/-- A type, given how the types inside it are found. -/
def step (type : Find Shape) : Find Shape := do
  skipModifiers text
  let base ← suffixed text type
  let _ ← skipWords text effectWords
  if ← eat text .arrow then
    let result ← type
    return .function base.asParams result
  else return base

/-- A type in which others nest less deep than a bound. To find one that nests deeper never ends. -/
def upTo : Nat → Find Shape
  | 0 => OptionT.mk fun _ => none
  | depth + 1 => step text (upTo depth)

/-- A type. The types inside it may nest to any depth. -/
def type : Find Shape := OptionT.mk <| limit fun depth => (upTo text depth).run

/-- A type that is all of the text, but for white space. -/
def whole : Find Shape := do
  let shape ← type text
  skipBlanks text
  if (← get) = text.length then return shape
  else failure

end Definitions

end

/-! ### Where a cursor goes -/

variable {text : List Char} {pos p q : Nat}

/-- The tokens ahead of a cursor. -/
def ahead (text : List Char) (pos : Nat) : List Token := Token.scan (text.drop pos)

/-- Whether a cursor comes to a place in the text by moving on, if it moves. -/
structure Reaches (text : List Char) (pos p : Nat) : Prop where
  le : pos ≤ p
  within : p ≤ text.length
  suffix : ahead text p <:+ ahead text pos

/-- Whether a cursor comes to a place in the text by moving past a token. -/
structure Passes (text : List Char) (pos p : Nat) : Prop where
  lt : pos < p
  within : p ≤ text.length
  leaves : Leaves (ahead text pos) (ahead text p)

/-- A cursor comes to where it is. -/
theorem Reaches.refl (h : pos ≤ text.length) : Reaches text pos pos :=
  ⟨Nat.le_refl _, h, List.suffix_refl _⟩

/-- A cursor moves on twice. -/
theorem Reaches.trans (h : Reaches text pos p) (h' : Reaches text p q) : Reaches text pos q :=
  ⟨Nat.le_trans h.le h'.le, h'.within, h'.suffix.trans h.suffix⟩

/-- A cursor that moves past a token moves on. -/
theorem Passes.reaches (h : Passes text pos p) : Reaches text pos p :=
  ⟨Nat.le_of_lt h.lt, h.within, h.leaves.suffix⟩

/-- A cursor that moves on before it moves past a token moves past one. -/
theorem Reaches.trans_passes (h : Reaches text pos p) (h' : Passes text p q) :
    Passes text pos q :=
  ⟨Nat.lt_of_le_of_lt h.le h'.lt, h'.within, h'.leaves.of_suffix_left h.suffix⟩

/-- A cursor that moves on after it moved past a token has moved past one. -/
theorem Passes.trans_reaches (h : Passes text pos p) (h' : Reaches text p q) :
    Passes text pos q :=
  ⟨Nat.lt_of_lt_of_le h.lt h'.le, h'.within, h.leaves.of_suffix_right h'.suffix⟩

/-- A cursor moves past the first token ahead. -/
theorem Passes.of_cons {token : Token} (hlt : pos < p) (hw : p ≤ text.length)
    (h : ahead text pos = token :: ahead text p) : Passes text pos p :=
  ⟨hlt, hw, h ▸ .cons (List.suffix_refl _)⟩

/-- What holds at a place if it holds at all later places holds everywhere in a text. -/
@[elab_as_elim]
theorem forward_induction {motive : Nat → Prop}
    (h : ∀ pos ≤ text.length, (∀ p, pos < p → p ≤ text.length → motive p) → motive pos)
    (pos : Nat) (hpos : pos ≤ text.length) : motive pos := by
  induction hn : text.length - pos using Nat.strongRecOn generalizing pos with
  | ind n ih => exact h pos hpos fun p hlt hp => ih _ (by omega) p hp rfl

/-! ### Steps that end -/

section Ends

variable {α β : Type} {x y : Scan α} {f : α → Scan β} {post mid : α → Nat → Prop}
  {last : β → Nat → Prop}

/-- Whether a step from a place ends, with a result and at a place of which something holds. -/
def Ends (x : Scan α) (pos : Nat) (post : α → Nat → Prop) : Prop :=
  ∃ a p, x pos = some (a, p) ∧ post a p

/-- Whether two steps from a place end alike, with a result and at a place of which something
holds. -/
def Meet (x y : Scan α) (pos : Nat) (post : α → Nat → Prop) : Prop :=
  ∃ a p, x pos = some (a, p) ∧ y pos = some (a, p) ∧ post a p

/-- A step that ends ends like itself. -/
theorem Ends.meet (h : Ends x pos post) : Meet x x pos post :=
  let ⟨a, p, hx, hpost⟩ := h
  ⟨a, p, hx, hx, hpost⟩

/-- A step that ends like another ends. -/
theorem Meet.ends (h : Meet x y pos post) : Ends x pos post :=
  let ⟨a, p, hx, _, hpost⟩ := h
  ⟨a, p, hx, hpost⟩

/-- Two steps that end alike do the same. -/
theorem Meet.eq (h : Meet x y pos post) : x pos = y pos :=
  let ⟨_, _, hx, hy, _⟩ := h
  hx.trans hy.symm

/-- What follows from where two steps end holds there. -/
theorem Meet.imp (hx : Meet x y pos mid) (h : ∀ a p, mid a p → post a p) : Meet x y pos post :=
  let ⟨a, p, hx, hy, hmid⟩ := hx
  ⟨a, p, hx, hy, h a p hmid⟩

/-- What follows from where a step ends holds there. -/
theorem Ends.imp (hx : Ends x pos mid) (h : ∀ a p, mid a p → post a p) : Ends x pos post :=
  (hx.meet.imp h).ends

/-- A result without a step ends in place. -/
theorem Ends.pure {a : α} (h : post a pos) : Ends (pure a) pos post := ⟨a, pos, rfl, h⟩

/-- Two steps end if the first does, and the second from where it ends. -/
theorem Ends.bind (hx : Ends x pos mid) (hf : ∀ a p, mid a p → Ends (f a) p last) :
    Ends (x >>= f) pos last := by
  obtain ⟨a, p, hx, hmid⟩ := hx
  obtain ⟨b, q, hf, hlast⟩ := hf a p hmid
  exact ⟨b, q, by simp [Bind.bind, StateT.bind, hx, hf], hlast⟩

/-- The place of the cursor may be asked for. -/
theorem Ends.get {f : Nat → Scan β} (h : Ends (f pos) pos last) : Ends (get >>= f) pos last := h

/-- The cursor may be put somewhere. -/
theorem Ends.set {f : PUnit → Scan β} (h : Ends (f ()) p last) :
    Ends (MonadStateOf.set p >>= f) pos last := h

end Ends

/-! ### Loops that end -/

section Loops

variable {α β : Type} {body body' : α → Scan (Round α β)} {state next : α} {result : β}
  {inv : α → Nat → Prop} {post : β → Nat → Prop}

/-- The limit ends as the steps do from some bound on. -/
theorem limit_eq_some_iff {x : Nat → Scan α} {r : α × Nat} :
    limit x pos = some r ↔ ∃ bound, ∀ n ≥ bound, x n pos = some r := by
  rw [limit]
  split
  case isTrue hex =>
    obtain ⟨bound, h⟩ := hex.choose_spec
    rw [Option.some_inj]
    refine ⟨fun hr => ⟨bound, hr ▸ h⟩, fun ⟨bound', h'⟩ => Option.some_inj.mp ?_⟩
    rw [← h _ (Nat.le_max_left bound bound'), h' _ (Nat.le_max_right bound bound')]
  case isFalse hno => exact ⟨nofun, fun ⟨bound, h⟩ => absurd ⟨r, bound, h⟩ hno⟩

/-- A loop goes on after a round that is not the last. -/
theorem loop_again (h : body state pos = some (.again next, p)) :
    loop body state pos = loop body next p := by
  have hrounds (bound : Nat) : rounds body (bound + 1) state pos = rounds body bound next p := by
    simp [rounds, bind, StateT.bind, h]
  ext1 r
  rw [loop, loop, limit_eq_some_iff, limit_eq_some_iff]
  constructor
  · rintro ⟨bound, hb⟩
    exact ⟨bound, fun n hn => hrounds n ▸ hb (n + 1) (Nat.le_succ_of_le hn)⟩
  · rintro ⟨bound, hb⟩
    refine ⟨bound + 1, fun n hn => ?_⟩
    obtain ⟨n, rfl⟩ := Nat.exists_eq_add_one_of_ne_zero (Nat.ne_zero_of_lt hn)
    exact hrounds n ▸ hb n (Nat.le_of_succ_le_succ hn)

/-- A loop is over after the last round. -/
theorem loop_done (h : body state pos = some (.done result, p)) :
    loop body state pos = some (result, p) := by
  refine limit_eq_some_iff.mpr ⟨1, fun n hn => ?_⟩
  obtain ⟨n, rfl⟩ := Nat.exists_eq_add_one_of_ne_zero (Nat.ne_zero_of_lt hn)
  simp only [rounds, bind, StateT.bind, h, Option.bind_some]
  rfl

/-- Whether a round has moved the cursor on and an invariant holds, or it was the last round and
what should hold then does. -/
def Advances (text : List Char) (pos : Nat) (inv : α → Nat → Prop) (post : β → Nat → Prop) :
    Round α β → Nat → Prop
  | .again next, p => pos < p ∧ p ≤ text.length ∧ inv next p
  | .done result, p => post result p

/-- Two loops end alike if their rounds do and move the cursor on. -/
theorem loop_meet (inv : α → Nat → Prop)
    (h : ∀ state p, p ≤ text.length → inv state p →
      Meet (body state) (body' state) p (Advances text p inv post))
    (hpos : pos ≤ text.length) (hinv : inv state pos) :
    Meet (loop body state) (loop body' state) pos post := by
  refine forward_induction (fun pos hpos ih state hinv => ?_) pos hpos state hinv
  obtain ⟨round, p, hx, hy, hround⟩ := h state pos hpos hinv
  cases round with
  | done result => exact ⟨result, p, loop_done hx, loop_done hy, hround⟩
  | again next =>
    obtain ⟨hlt, hp, hnext⟩ := hround
    rw [Meet, loop_again hx, loop_again hy]
    exact ih p hlt hp next hnext

/-- A loop ends if its rounds do and move the cursor on. -/
theorem loop_ends (inv : α → Nat → Prop)
    (h : ∀ state p, p ≤ text.length → inv state p →
      Ends (body state) p (Advances text p inv post))
    (hpos : pos ≤ text.length) (hinv : inv state pos) : Ends (loop body state) pos post :=
  (loop_meet inv (fun state p hp hi => (h state p hp hi).meet) hpos hinv).ends

end Loops

end SwiftRelations.Types.Cursor
