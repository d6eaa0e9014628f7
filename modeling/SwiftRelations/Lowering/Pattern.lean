import SwiftRelations.Lowering.Expr

/-!
# Lowering of patterns

A pattern may be one tree, or a run of siblings such as the `let .some(x)` of
`if case let .some(x) = y`. A run is read whole before anything is lowered, so that a run which is
no pattern leaves nothing behind.

Inside a binding the names of a pattern introduce constants or variables; elsewhere they are
values to compare with. Every rule is told which by a flag, as `Below.pattern` is.

The rules follow `named_pattern`, `pattern`, `enum_element` and `pattern_run` of `Lowerer`.
-/

namespace SwiftRelations.Lowering

open SwiftRelations.Text

/-- A variable of a known type, bound in the innermost scope, with the pattern that names it. -/
def newVariable (t : Tree) (isLet : Bool) (type : Option TypeId) : Lower PatternId := do
  let name := trim t.text
  let var ← Lower.addDecl (.var name isLet type) t.span
  Lower.declare name var
  Lower.addPattern (.named name (some var)) (some t.span)

/-- A name in a pattern. -/
def namePattern (t : Tree) : Option Bool → Lower PatternId
  | some isLet => newVariable t isLet none
  | none => do
    let expr ← Lower.declRef t (trim t.text)
    Lower.addPattern (.expr expr) (some t.span)

/-- The span from the start of the first tree to the end of the last. -/
def spanOfAll? (ts : List Tree) : Option Span :=
  match ts.head?, ts.getLast? with
  | some first, some last => some (first.span.cover last.span)
  | _, _ => none

/-- The pattern for a payload of an enumeration's case. Several patterns are a tuple. -/
def payloadPattern (below : Below) (binding : Option Bool) : List Tree → Lower (Option PatternId)
  | [] => return none
  | [single] => return some (← below.pattern single binding)
  | many => do
    let elements ← many.mapM (below.pattern · binding)
    return some (← Lower.addPattern (.tuple elements) (spanOfAll? many))

/-- The case of an enumeration, with its payload. -/
def casePattern (below : Below) (name : String) (payload : List Tree) (binding : Option Bool)
    (span : Option Span) : Lower PatternId := do
  let sub ← payloadPattern below binding payload
  Lower.addPattern (.enumElement name sub) span

/-- A pattern whose pieces are siblings. Each form but the last spans its whole run. -/
inductive PatternRun where
  | binding (isLet : Bool) (sub : PatternRun) (span : Option Span)
  | optionalSome (sub : PatternRun) (span : Option Span)
  | isType (type : Tree) (span : Option Span)
  | enumElement (name : String) (payload : List Tree) (span : Option Span)
  /-- A pattern that is one tree. -/
  | single (t : Tree)

namespace PatternRun

/-- Whether a sibling has a part in a run's pattern. -/
def isPiece (t : Tree) : Bool :=
  !t.isComment && t.kind != "case" && t.kind != "type_annotation"

/-- The case of an enumeration that follows a dot: its name, and the patterns after it. -/
def afterDot? (ts : List Tree) (span : Option Span) : Option PatternRun :=
  match ts.dropWhile (·.kind != "simple_identifier") with
  | name :: rest => some (.enumElement (trim name.text) (rest.filter (·.kind == "pattern")) span)
  | [] => none

/-- What a run of pieces spells. -/
def ofPieces? : List Tree → Option PatternRun
  | [] => none
  | first :: rest =>
    let pieces := first :: rest
    let span := spanOfAll? pieces
    if first.kind == "value_binding_pattern" then
      (ofPieces? rest).map (.binding (startsWith (trimStart first.text) "let") · span)
    else if !rest.isEmpty && (pieces.getLast?.map (·.kind)) == some "?" then
      (ofPieces? pieces.dropLast).map (.optionalSome · span)
    else if first.kind == "is" then
      (rest.find? (isTypeKind ·.kind)).map (.isType · span)
    else
      match pieces.dropWhile (·.kind != ".") with
      | _ :: afterDot => afterDot? afterDot span
      | [] =>
        match pieces.filter (·.head.named) with
        | [t] => some (.single t)
        | _ => none
termination_by pieces => pieces.length
decreasing_by
  · simp
  · simp

/-- What a run of siblings spells, or nothing when it is no pattern. -/
def ofSiblings? (ts : List Tree) : Option PatternRun := ofPieces? (ts.filter isPiece)

/-- The pattern a run spells. -/
def lower (below : Below) : PatternRun → Option Bool → Lower PatternId
  | .binding isLet sub span, _ => do
    let sub ← sub.lower below (some isLet)
    Lower.addPattern (.binding isLet sub) span
  | .optionalSome sub span, mode => do
    let sub ← sub.lower below mode
    Lower.addPattern (.optionalSome sub) span
  | .isType type span, _ => do
    let written ← Lower.writtenType type
    Lower.addPattern (.isType written) span
  | .enumElement name payload span, mode => casePattern below name payload mode span
  | .single t, mode => below.pattern t mode

end PatternRun

/-- The pattern a run of siblings spells. -/
def patternRun (below : Below) (ts : List Tree) (binding : Option Bool) :
    Lower (Option PatternId) :=
  match PatternRun.ofSiblings? ts with
  | some run => return some (← run.lower below binding)
  | none => return none

/-- A pattern that is not modelled. -/
def unknownPattern (below : Below) (t : Tree) : Lower PatternId := do
  let children ← below.items t
  Lower.addPattern (.unknown "pattern" children) (some t.span)

/-- A pattern without a form of its own: what it wraps, or else an expression to compare with. -/
def otherPattern (below : Below) (t : Tree) (binding : Option Bool) : Lower PatternId := do
  if t.kind == "pattern" then
    match t.namedParts with
    | [single] => below.pattern single binding
    | _ => unknownPattern below t
  else
    let expr ← exprAt below t
    Lower.addPattern (.expr expr) (some t.span)

/-- The name after the dot of an enumeration's case. -/
def caseName (afterDot : List Char) : String :=
  String.ofList (afterDot.takeWhile continuesName)

/-- The trees after the one that spells `name`. -/
def partsAfterName (name : String) (ts : List Tree) : List Tree :=
  (ts.dropWhile (trim ·.text != name)).drop 1

/-- A pattern that is no binding, by the first form that fits its text: a test of the type, the
case of an enumeration, a tuple, the value of an optional, or another pattern. -/
def unboundPattern (below : Below) (t : Tree) (binding : Option Bool) : Lower PatternId := do
  let text := trim t.text
  let named := t.namedParts
  let type := if startsWith text "is " then named.find? (isTypeKind ·.kind) else none
  match type, text.toList with
  | some type, _ =>
    let written ← Lower.writtenType type
    Lower.addPattern (.isType written) (some t.span)
  | none, '.' :: afterDot =>
    let name := caseName afterDot
    casePattern below name (partsAfterName name named) binding (some t.span)
  | none, cs =>
    if cs.head? == some '(' && t.kind == "pattern" then
      let elements ← named.mapM (below.pattern · binding)
      Lower.addPattern (.tuple elements) (some t.span)
    else
      match named with
      | [sub] =>
        if cs.getLast? == some '?' && t.kind == "pattern" then
          let sub ← below.pattern sub binding
          Lower.addPattern (.optionalSome sub) (some t.span)
        else otherPattern below t binding
      | _ => otherPattern below t binding

/-- Whether a pattern is a binding, and then whether it introduces constants. The keyword is a
node of its own or the beginning of the text. -/
def bindingKeyword? (t : Tree) : Option Bool :=
  let ofText :=
    if startsWith (trim t.text) "let " then some true
    else if startsWith (trim t.text) "var " then some false
    else none
  match t.namedParts with
  | first :: _ =>
    if first.kind == "value_binding_pattern" then some (startsWith (trim first.text) "let")
    else ofText
  | [] => ofText

/-- The pattern under a binding keyword. The pieces of an enumeration's case are siblings of the
keyword. -/
def boundPattern (below : Below) (t : Tree) (isLet : Bool) : Lower (Option PatternId) := do
  let pieces := t.parts.filter fun c => c.kind != "value_binding_pattern" && c.kind != "case"
  let run ←
    if pieces.any (·.kind == ".") then patternRun below pieces (some isLet) else pure none
  match run with
  | some sub => return some sub
  | none =>
    match t.namedParts.find? (·.kind != "value_binding_pattern") with
    | some sub => return some (← below.pattern sub (some isLet))
    | none => return none

/-- A pattern that is neither a name nor a wildcard. -/
def compoundPattern (below : Below) (t : Tree) (binding : Option Bool) : Lower PatternId := do
  match bindingKeyword? t with
  | some isLet =>
    match ← boundPattern below t isLet with
    | some sub => Lower.addPattern (.binding isLet sub) (some t.span)
    | none => unboundPattern below t binding
  | none => unboundPattern below t binding

/-- The rules for patterns. -/
def patternAt (below : Below) (t : Tree) (binding : Option Bool) : Lower PatternId :=
  if t.kind == "simple_identifier" then namePattern t binding
  else if t.kind == "wildcard_pattern" || trim t.text == "_" then
    Lower.addPattern .any (some t.span)
  else
    match t.childByField? "bound_identifier" with
    | some name => namePattern name (binding.orElse fun _ => some true)
    | none => compoundPattern below t binding

end SwiftRelations.Lowering
