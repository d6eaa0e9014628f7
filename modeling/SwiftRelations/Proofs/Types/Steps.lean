import SwiftRelations.Data.List
import SwiftRelations.Proofs.Types.Cursor

/-!
# What the steps of a cursor do

Every step before the recursion ends: on white space, tokens, names, words, labels and suffixes.
Where it leaves the cursor is told along with what that does to the tokens ahead, which are either
as they were or less by what the step moved past.
-/

namespace SwiftRelations.Types.Token

open SwiftRelations.Text

/-- Whether a token is punctuation, which is read wherever its characters are. -/
def isPunctuation : Token → Bool
  | .name _ => false
  | .arrow => true
  | .ellipsis => true
  | .mark c => !isBlank c && !beginsName c && c != '-' && c != '.'

/-- Punctuation is scanned back. -/
theorem scan_punctuation {token : Token} (h : token.isPunctuation = true) (cs : List Char) :
    scan (token.chars ++ cs) = token :: scan cs := by
  cases token with
  | name => cases h
  | arrow => exact scan_arrow
  | ellipsis =>
    have hc : beginsName '.' = false := by decide
    change scan ('.' :: '.' :: '.' :: cs) = _
    rw [scan_cons (by decide), next, hc, if_neg Bool.false_ne_true]
  | mark c =>
    simp only [isPunctuation, Bool.and_eq_true, Bool.not_eq_true', bne_iff_ne] at h
    obtain ⟨⟨⟨hb, hn⟩, hm⟩, hd⟩ := h
    exact scan_mark hb hn hm hd

private theorem length_chars_pos {token : Token} (h : token.isPunctuation = true) :
    0 < token.chars.length := by
  cases token with
  | name => cases h
  | arrow => decide
  | ellipsis => decide
  | mark c => exact Nat.one_pos

/-- A text that does not begin with white space begins with its first token. -/
theorem chars_prefix_of_head? {token : Token} {cs : List Char}
    (hb : ∀ c ∈ cs.head?, isBlank c = false) (h : (scan cs).head? = some token) :
    token.chars <+: cs := by
  cases cs with
  | nil => simp at h
  | cons c cs =>
    rw [scan_cons (hb c rfl)] at h
    obtain rfl : (next c cs).1 = token := by simpa using h
    exact ⟨_, chars_next_append c cs⟩

/-- A name goes on with a character that may be in a name, or with a dot before another name. -/
theorem fst_nameTail_cons (c : Char) (cs : List Char) :
    (nameTail (c :: cs)).1 =
      if continuesName c || (c == '.' && cs.head?.any beginsName) then c :: (nameTail cs).1
      else [] := by
  cases cs with
  | nil => cases hc : continuesName c <;> simp [nameTail, hc]
  | cons d cs =>
    by_cases h : (continuesName c || (c == '.' && beginsName d)) = true
    · simp only [nameTail, if_pos h]
      exact (if_pos h).symm
    · simp only [nameTail, if_neg h]
      exact (if_neg h).symm

/-- A text that begins with a letter begins with a name. -/
theorem scan_of_beginsName {c : Char} (h : beginsName c = true) (cs : List Char) :
    scan (c :: cs) =
      .name (String.ofList (nameTail (c :: cs)).1) :: scan (nameTail (c :: cs)).2 := by
  have hb : isBlank c = false := by
    cases hb : isBlank c with
    | false => rfl
    | true => exact absurd (beginsName_eq_false (continuesName_of_isBlank hb)) (by simp [h])
  rw [scan_cons hb, next_of_beginsName h]

/-- A text that does not begin with white space, but with a name, begins with a letter. -/
theorem any_beginsName_of_scan {cs : List Char} {word : String} {rest : List Token}
    (hb : ∀ c ∈ cs.head?, isBlank c = false) (h : scan cs = .name word :: rest) :
    cs.head?.any beginsName = true := by
  have hspelled : IsSpelled (.name word) := isSpelled_of_mem_scan cs _ (h ▸ List.mem_cons_self)
  obtain ⟨-, c, others, hword, hc⟩ := hspelled
  obtain ⟨tail, rfl⟩ : (name word).chars <+: cs := chars_prefix_of_head? hb (by rw [h]; rfl)
  simp [chars, hword, hc]

end SwiftRelations.Types.Token

namespace SwiftRelations.Types.Cursor

open SwiftRelations.Text SwiftRelations.Types.Shape

variable {text : List Char} {pos p q : Nat}

/-! ### White space and tokens -/

/-- Whether nothing blank is at a place. -/
def Unblank (text : List Char) (pos : Nat) : Prop := ∀ c ∈ text[pos]?, isBlank c = false

/-- Moving past white space ends, in front of the same tokens. -/
theorem skipBlanks_ends (h : pos ≤ text.length) : Ends (skipBlanks text) pos fun _ p =>
    Reaches text pos p ∧ ahead text p = ahead text pos ∧ Unblank text p := by
  refine loop_ends (fun _ p => Reaches text pos p ∧ ahead text p = ahead text pos) ?_ h
    ⟨.refl h, rfl⟩
  rintro _ p hp ⟨hreach, he⟩
  refine .get ?_
  by_cases hb : text[p]?.any isBlank = true
  · obtain ⟨c, hc, hblank⟩ := (Option.any_eq_true _ _).mp hb
    have hahead : ahead text (p + 1) = ahead text p := by
      rw [ahead, ahead, List.drop_eq_cons_of_getElem? hc, Token.scan_blank hblank]
    have hnext : Reaches text p (p + 1) :=
      ⟨Nat.le_succ _, (List.getElem?_eq_some_iff.mp hc).1, hahead ▸ List.suffix_refl _⟩
    rw [if_pos hb]
    exact .set (.pure ⟨Nat.lt_succ_self _, hnext.within, hreach.trans hnext, hahead.trans he⟩)
  · rw [if_neg hb]
    refine .pure ⟨hreach, he, fun c hc => ?_⟩
    simpa [Option.mem_def.mp hc] using hb

/-- Looking for punctuation ends: behind it, or else in front of the same tokens. -/
theorem eat_ends (h : pos ≤ text.length) {token : Token} (ht : token.isPunctuation = true) :
    Ends (eat text token) pos fun found p =>
      (found = true → Passes text pos p ∧ ahead text pos = token :: ahead text p) ∧
      (found = false → Reaches text pos p ∧ ahead text p = ahead text pos ∧
        (ahead text pos).head? ≠ some token) := by
  rw [eat]
  refine (skipBlanks_ends h).bind ?_
  rintro _ p ⟨hp, he, hu⟩
  refine .get ?_
  by_cases hc : token.chars.isPrefixOf (text.drop p) = true
  · obtain ⟨tail, htail⟩ := List.isPrefixOf_iff_prefix.mp hc
    have hdrop : text.drop (p + token.chars.length) = tail := by
      rw [← List.drop_drop, ← htail, List.drop_left]
    have htokens : ahead text p = token :: ahead text (p + token.chars.length) := by
      rw [ahead, ahead, hdrop, ← htail, Token.scan_punctuation ht]
    have hlength : p + token.chars.length ≤ text.length := by
      have := congrArg List.length htail
      simp only [List.length_append, List.length_drop] at this
      have := hp.within
      omega
    have hpos := Token.length_chars_pos ht
    rw [if_pos hc]
    refine .set (.pure ⟨fun _ => ⟨?_, he ▸ htokens⟩, fun h => absurd h.symm Bool.false_ne_true⟩)
    exact hp.trans_passes (.of_cons (Nat.lt_add_of_pos_right hpos) hlength htokens)
  · rw [if_neg hc]
    refine .pure ⟨fun h => absurd h Bool.false_ne_true, fun _ => ⟨hp, he, fun hhead => hc ?_⟩⟩
    rw [← he] at hhead
    refine List.isPrefixOf_iff_prefix.mpr (Token.chars_prefix_of_head? (fun c hm => ?_) hhead)
    rw [List.head?_drop] at hm
    exact hu c hm

/-! ### Names and words -/

/-- Moving to the end of a name ends there. -/
theorem finishName_ends (h : pos ≤ text.length) : Ends (finishName text) pos fun _ p =>
    p = pos + (Token.nameTail (text.drop pos)).1.length := by
  refine loop_ends (fun _ p => p + (Token.nameTail (text.drop p)).1.length =
    pos + (Token.nameTail (text.drop pos)).1.length) ?_ h rfl
  intro _ p hp hinv
  refine .get ?_
  cases hc : text[p]? with
  | none =>
    have hnil : text.drop p = [] := List.drop_eq_nil_of_le (List.getElem?_eq_none_iff.mp hc)
    exact .pure (show p = _ by simpa [hnil, Token.nameTail] using hinv)
  | some c =>
    have htail := Token.fst_nameTail_cons c (text.drop (p + 1))
    rw [← List.drop_eq_cons_of_getElem? hc, List.head?_drop] at htail
    rw [Option.any_some]
    by_cases hn : (continuesName c || (c == '.' && text[p + 1]?.any beginsName)) = true
    · rw [if_pos hn] at htail ⊢
      refine .set (.pure ⟨Nat.lt_succ_self _, (List.getElem?_eq_some_iff.mp hc).1, ?_⟩)
      rw [← hinv, htail, List.length_cons]
      omega
    · rw [if_neg hn] at htail ⊢
      exact .pure (show p = _ by simpa [htail] using hinv)

/-- Looking for a name ends: behind it, or else in front of the same tokens. -/
theorem name_ends (h : pos ≤ text.length) : Ends (name text) pos fun found p =>
    (∀ word, found = some word → Passes text pos p ∧ ahead text pos = .name word :: ahead text p) ∧
    (found = none → Reaches text pos p ∧ ahead text p = ahead text pos ∧
      ∀ word rest, ahead text pos ≠ .name word :: rest) := by
  rw [name]
  refine (skipBlanks_ends h).bind ?_
  rintro _ p ⟨hp, he, hu⟩
  refine .get ?_
  rw [Unblank, ← List.head?_drop] at hu
  by_cases hb : text[p]?.any beginsName = true
  · rw [if_pos hb]
    refine (finishName_ends hp.within).bind fun _ q hq => .get (.pure ⟨?_, nofun⟩)
    obtain ⟨c, hc, hbegins⟩ := (Option.any_eq_true _ _).mp hb
    -- The text from here on is the name and what follows it.
    have hcs := Token.nameTail_append_eq (text.drop p)
    have hdrop : text.drop q = (Token.nameTail (text.drop p)).2 := by
      have := congrArg (List.drop (Token.nameTail (text.drop p)).1.length) hcs
      rwa [List.drop_left, List.drop_drop, ← hq, eq_comm] at this
    have hword : text.extract p q = (Token.nameTail (text.drop p)).1 := by
      have hn : q - p = (Token.nameTail (text.drop p)).1.length := by omega
      have := congrArg (List.take (Token.nameTail (text.drop p)).1.length) hcs
      rw [List.take_left, ← hn] at this
      exact this.symm
    have htokens : ahead text p = .name (String.ofList (text.extract p q)) :: ahead text q := by
      rw [ahead, ahead, hdrop, hword, List.drop_eq_cons_of_getElem? hc,
        Token.scan_of_beginsName hbegins]
    have hlt : p < q := by
      rw [hq, List.drop_eq_cons_of_getElem? hc,
        Token.nameTail_cons (continuesName_of_beginsName hbegins)]
      simp
    have hlength : q ≤ text.length := by
      have hsum := congrArg List.length hcs
      have := hp.within
      simp only [List.length_append, List.length_drop] at hsum
      omega
    rintro word ⟨⟩
    exact ⟨hp.trans_passes (.of_cons hlt hlength htokens), he ▸ htokens⟩
  · rw [if_neg hb]
    refine .pure ⟨nofun, fun _ => ⟨hp, he, fun word rest hw => hb ?_⟩⟩
    rw [← he] at hw
    simpa only [List.head?_drop] using Token.any_beginsName_of_scan hu hw

/-- Whether a token is one of some words. -/
def isWordOf (words : List String) : Token → Bool
  | .name word => word ∈ words
  | _ => false

/-- The effects skipped are the effect words in front. -/
theorem skipEffects_eq (tokens : List Token) :
    skipEffects tokens = tokens.dropWhile (isWordOf effectWords) := by
  fun_induction skipEffects tokens with
  | case1 word rest hw ih => simp [isWordOf, hw, ih]
  | case2 word rest hw => simp [isWordOf, hw]
  | case3 tokens hname =>
    cases tokens with
    | nil => rfl
    | cons token tokens => cases token <;> first | rfl | exact absurd rfl (hname _ _)

/-- Moving past words ends behind the last of them, or where it began. -/
theorem skipWords_ends (h : pos ≤ text.length) (words : List String) :
    Ends (skipWords text words) pos fun found p =>
      Reaches text pos p ∧ ahead text p = (ahead text pos).dropWhile (isWordOf words) ∧
        (found = true → Passes text pos p) ∧ (found = false → p = pos) := by
  refine loop_ends (fun skipped p => Reaches text pos p ∧
    (ahead text p).dropWhile (isWordOf words) = (ahead text pos).dropWhile (isWordOf words) ∧
    (skipped = true → Passes text pos p) ∧ (skipped = false → p = pos)) ?_ h
    ⟨.refl h, rfl, nofun, fun _ => rfl⟩
  rintro skipped p hp ⟨hreach, hdrop, hplace⟩
  refine .get ((name_ends hp).bind ?_)
  rintro found q ⟨hname, hnone⟩
  -- Where none of the words follows, they have all been passed over.
  have hstop (hkeep : (ahead text p).dropWhile (isWordOf words) = ahead text p) :
      Reaches text pos p ∧ ahead text p = (ahead text pos).dropWhile (isWordOf words) ∧
        (skipped = true → Passes text pos p) ∧ (skipped = false → p = pos) :=
    ⟨hreach, hkeep.symm.trans hdrop, hplace⟩
  cases found with
  | none =>
    refine .set (.pure (hstop ?_))
    have hno := (hnone rfl).2.2
    cases ht : ahead text p with
    | nil => rfl
    | cons token rest => cases token <;> first | rfl | exact absurd ht (hno _ _)
  | some word =>
    obtain ⟨hq, htokens⟩ := hname word rfl
    rw [Option.any_some]
    by_cases hw : decide (word ∈ words) = true
    · rw [if_pos hw]
      have hpass := hreach.trans_passes hq
      refine .pure ⟨hq.lt, hq.within, hpass.reaches, ?_, fun _ => hpass, nofun⟩
      rw [← hdrop, htokens, List.dropWhile_cons_of_pos (by simpa [isWordOf] using hw)]
    · rw [if_neg hw]
      refine .set (.pure (hstop ?_))
      rw [htokens, List.dropWhile_cons_of_neg (by simpa [isWordOf] using hw)]

/-- A step that looks for punctuation first. -/
theorem Ends.ifEat {β : Type} {x y : Scan β} {last : β → Nat → Prop} (h : pos ≤ text.length)
    {token : Token} (ht : token.isPunctuation = true)
    (hit : ∀ p, Passes text pos p → ahead text pos = token :: ahead text p → Ends x p last)
    (miss : ∀ p, Reaches text pos p → ahead text p = ahead text pos →
      (ahead text pos).head? ≠ some token → Ends y p last) :
    Ends (eat text token >>= fun found => if found = true then x else y) pos last := by
  refine (eat_ends h ht).bind ?_
  rintro found p ⟨hyes, hno⟩
  cases found with
  | true => exact hit p (hyes rfl).1 (hyes rfl).2
  | false =>
    obtain ⟨hp, he, hhead⟩ := hno rfl
    exact miss p hp he hhead

/-- Modifier words are passed over with all modifiers. -/
theorem skipModifiers_dropWhile (tokens : List Token) :
    Shape.skipModifiers (tokens.dropWhile (isWordOf modifierWords)) =
      Shape.skipModifiers tokens := by
  induction tokens with
  | nil => rfl
  | cons token tokens ih =>
    by_cases hw : isWordOf modifierWords token = true
    · rw [List.dropWhile_cons_of_pos hw, ih]
      cases token <;> simp_all [isWordOf, Shape.skipModifiers]
    · rw [List.dropWhile_cons_of_neg (by simpa [isWordOf] using hw)]

/-- Where neither an `@` nor a modifier word is, nothing is passed over. -/
theorem skipModifiers_eq_self {tokens : List Token} (hat : tokens.head? ≠ some (.mark '@'))
    (hwords : tokens.dropWhile (isWordOf modifierWords) = tokens) :
    Shape.skipModifiers tokens = tokens := by
  unfold Shape.skipModifiers
  split
  case h_1 => exact absurd rfl hat
  case h_2 => exact absurd rfl hat
  case h_3 word rest =>
    refine if_neg fun hw => ?_
    rw [List.dropWhile_cons_of_pos (by simpa [isWordOf] using hw)] at hwords
    have hlength := (hwords ▸ List.dropWhile_suffix (isWordOf modifierWords) : _ <:+ rest).length_le
    exact absurd hlength (Nat.not_succ_le_self _)
  case h_4 => rfl

/-- An `@` is passed over also without a name. -/
theorem skipModifiers_at {tokens : List Token} (h : ∀ word rest, tokens ≠ .name word :: rest) :
    Shape.skipModifiers (.mark '@' :: tokens) = Shape.skipModifiers tokens := by
  rw [Shape.skipModifiers]
  exact h

/-- Moving past modifiers ends behind the last of them. -/
theorem skipModifiers_ends (h : pos ≤ text.length) : Ends (skipModifiers text) pos fun _ p =>
    Reaches text pos p ∧ ahead text p = Shape.skipModifiers (ahead text pos) := by
  refine loop_ends (fun _ p => Reaches text pos p ∧
    Shape.skipModifiers (ahead text p) = Shape.skipModifiers (ahead text pos)) ?_ h ⟨.refl h, rfl⟩
  rintro _ p hp ⟨hreach, hskip⟩
  -- A round that moves on passes over what all rounds pass over.
  have hagain {q : Nat} (hq : Passes text p q)
      (ht : Shape.skipModifiers (ahead text q) = Shape.skipModifiers (ahead text p)) :
      p < q ∧ q ≤ text.length ∧ Reaches text pos q ∧
        Shape.skipModifiers (ahead text q) = Shape.skipModifiers (ahead text pos) :=
    ⟨hq.lt, hq.within, hreach.trans hq.reaches, ht.trans hskip⟩
  refine .ifEat hp (by decide) (fun q hq htokens => ?_) fun q hq he hhead => ?_
  · refine (name_ends hq.within).bind ?_
    rintro found r ⟨hname, hnone⟩
    cases found with
    | some word =>
      obtain ⟨hr, hword⟩ := hname word rfl
      refine .pure (hagain (hq.trans_reaches hr.reaches) ?_)
      rw [htokens, hword, Shape.skipModifiers]
    | none =>
      obtain ⟨hr, he, hno⟩ := hnone rfl
      refine .pure (hagain (hq.trans_reaches hr) ?_)
      rw [htokens, skipModifiers_at hno, he]
  · refine (skipWords_ends hq.within modifierWords).bind ?_
    rintro found r ⟨_, hr, hyes, hno⟩
    rw [he] at hr
    cases found with
    | true =>
      refine .pure (hagain (hq.trans_passes (hyes rfl)) ?_)
      rw [hr, skipModifiers_dropWhile]
    | false =>
      obtain rfl := hno rfl
      refine .pure ⟨hreach.trans hq, ?_⟩
      rw [← hskip, he, skipModifiers_eq_self hhead (hr.symm.trans he)]

/-- Looking for an arrow ends where it began. -/
theorem arrowFollows_ends (h : pos ≤ text.length) : Ends (arrowFollows text) pos fun found p =>
    p = pos ∧ found = Shape.arrowFollows (ahead text pos) := by
  rw [arrowFollows]
  refine .get ((skipWords_ends h effectWords).bind ?_)
  rintro _ p ⟨hp, hrest, -⟩
  refine (eat_ends hp.within (by decide)).bind ?_
  rintro found q ⟨hyes, hno⟩
  refine .set (.pure ⟨rfl, ?_⟩)
  rw [Shape.arrowFollows, skipEffects_eq, ← hrest]
  cases found with
  | true => rw [(hyes rfl).2]
  | false =>
    have hhead := (hno rfl).2.2
    split
    case h_1 rest heq => simp [heq] at hhead
    case h_2 => rfl

/-- Tokens that do not begin with a name have no label. -/
theorem not_label_of_no_name {tokens : List Token} (h : ∀ word rest, tokens ≠ .name word :: rest) :
    ∀ label, IsLabel label → ¬ label <+: tokens := by
  rintro _ (⟨first⟩ | ⟨first, second⟩) ⟨more, rfl⟩
  · exact h first (.mark ':' :: more) rfl
  · exact h first (.name second :: .mark ':' :: more) rfl

/-- Names that no colon follows are no label. -/
theorem not_label_of_no_colon {first : String} {rest : List Token}
    (hfirst : rest.head? ≠ some (.mark ':'))
    (hsecond : ∀ second others, rest = .name second :: others →
      others.head? ≠ some (.mark ':')) :
    ∀ label, IsLabel label → ¬ label <+: .name first :: rest := by
  rintro _ (⟨first⟩ | ⟨first, second⟩) ⟨more, hmore⟩
  · obtain rfl := (List.cons.inj hmore).2
    exact hfirst rfl
  · obtain rfl := (List.cons.inj hmore).2
    exact hsecond second (.mark ':' :: more) rfl rfl

/-- Whether the cursor is behind the label of a tuple element, or where it was if there is none. -/
structure SkipsLabel (text : List Char) (pos p : Nat) : Prop where
  reaches : Reaches text pos p
  tokens : ahead text p = Shape.skipLabel (ahead text pos)
  label : p = pos ∨ ∃ label, IsLabel label ∧ ahead text pos = label ++ ahead text p

/-- Moving past a label ends behind it, or else where it began. -/
theorem skipLabel_ends (h : pos ≤ text.length) :
    Ends (skipLabel text) pos fun _ p => SkipsLabel text pos p := by
  have hback (hnone : ∀ label, IsLabel label → ¬ label <+: ahead text pos) (p : Nat) :
      Ends (set pos : Scan PUnit) p fun _ p => SkipsLabel text pos p :=
    ⟨(), pos, rfl, .refl h, (skipLabel_eq_self hnone).symm, .inl rfl⟩
  have hlabel {p : Nat} {label : List Token} (hp : Passes text pos p) (hl : IsLabel label)
      (ht : ahead text pos = label ++ ahead text p) :
      Ends (pure () : Scan PUnit) p fun _ p => SkipsLabel text pos p :=
    .pure ⟨hp.reaches, by rw [ht, hl.skipLabel_append], .inr ⟨label, hl, ht⟩⟩
  rw [skipLabel]
  refine .get ((name_ends h).bind ?_)
  rintro found p ⟨hname, hnone⟩
  cases found with
  | none => exact hback (not_label_of_no_name (hnone rfl).2.2) p
  | some first =>
    obtain ⟨hp, hfirst⟩ := hname first rfl
    refine .get (.ifEat hp.within (by decide) (fun q hq hcolon => ?_) fun q hq _ hcolon => .set ?_)
    · exact hlabel (hp.trans_reaches hq.reaches) (.one first) (by rw [hfirst, hcolon]; rfl)
    refine (name_ends hp.within).bind ?_
    rintro found r ⟨hname, hnone⟩
    cases found with
    | none =>
      have hno := (hnone rfl).2.2
      refine hback ?_ r
      rw [hfirst]
      exact not_label_of_no_colon hcolon fun second others heq => absurd heq (hno second others)
    | some second =>
      obtain ⟨hr, hsecond⟩ := hname second rfl
      refine .ifEat hr.within (by decide) (fun u hu hcolon' => ?_) fun u hu _ hcolon' => ?_
      · refine hlabel ((hp.trans_reaches hr.reaches).trans_reaches hu.reaches)
          (.two first second) ?_
        rw [hfirst, hsecond, hcolon']
        rfl
      · refine hback ?_ u
        rw [hfirst]
        refine not_label_of_no_colon hcolon fun second' others heq => ?_
        obtain ⟨-, rfl⟩ := List.cons.inj (hsecond.symm.trans heq)
        exact hcolon'

/-- Moving past suffixes ends behind the last of them. -/
theorem suffixes_ends (h : pos ≤ text.length) (shape : Shape) :
    Ends (suffixes text shape) pos fun result p =>
      Reaches text pos p ∧ Shape.suffixed shape (ahead text pos) = (result, ahead text p) := by
  refine loop_ends (fun made p => Reaches text pos p ∧
    Shape.suffixed shape (ahead text pos) = Shape.suffixed made (ahead text p)) ?_ h ⟨.refl h, rfl⟩
  rintro made p hp ⟨hreach, hmade⟩
  -- A suffix is followed by the suffixes of the type that it makes.
  have hagain {token : Token} {next : Shape} {q r : Nat} (hq : Reaches text p q)
      (he : ahead text q = ahead text p) (hr : Passes text q r)
      (htoken : ahead text q = token :: ahead text r)
      (hnext : Shape.suffixed made (token :: ahead text r) = Shape.suffixed next (ahead text r)) :
      p < r ∧ r ≤ text.length ∧ Reaches text pos r ∧
        Shape.suffixed shape (ahead text pos) = Shape.suffixed next (ahead text r) := by
    have hpass := hq.trans_passes hr
    refine ⟨hpass.lt, hpass.within, hreach.trans hpass.reaches, ?_⟩
    rw [hmade, ← he, htoken, hnext]
  refine .ifEat hp (by decide)
    (fun q hq ht => .pure (hagain (.refl hp) rfl hq ht (by rw [Shape.suffixed]))) ?_
  intro q hq he hdots
  refine .ifEat hq.within (by decide)
    (fun r hr ht => .pure (hagain hq he hr ht (by rw [Shape.suffixed]))) ?_
  intro r hr he' hquestion
  have hpr := hq.trans hr
  have hahead := he'.trans he
  refine .ifEat hr.within (by decide)
    (fun v hv ht => .pure (hagain hpr hahead hv ht (by rw [Shape.suffixed]))) ?_
  intro v hv he'' hbang
  refine .pure ⟨hreach.trans (hpr.trans hv), ?_⟩
  rw [he] at hquestion
  rw [hahead] at hbang
  rw [hmade, he'', hahead]
  unfold Shape.suffixed
  split
  case h_1 heq => simp [heq] at hdots
  case h_2 heq => simp [heq] at hquestion
  case h_3 heq => simp [heq] at hbang
  case h_4 => rfl

end SwiftRelations.Types.Cursor
