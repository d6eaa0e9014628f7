import SwiftRelations.Lowering.Stmt

/-!
# Lowering of declarations

A declaration binds its name in the scope around it before its parts are lowered, so that they can
refer to it. A variable is bound after its initializer.

The rules follow `decl`, `import`, `function`, `param`, `nominal`, `binding_is_let`, `property`,
`type_alias` and `enum_case` of `Lowerer`.
-/

namespace SwiftRelations.Lowering

open SwiftRelations.Text

/-- A declaration that is not modelled. -/
def unknownDecl (below : Below) (t : Tree) : Lower DeclId := do
  let children ← below.items t
  Lower.addDecl (.unknown t.kind children) t.span

/-- The trimmed text of the child of a field. -/
def fieldText? (t : Tree) (field : String) : Option String :=
  (t.childByField? field).map (trim ·.text)

/-- The text after the keyword of an import, which error recovery may leave repeated. -/
def importedText (text : String) : String :=
  let cs := (trim text).toList
  trim (String.ofList (dropCopies "import".toList cs.length cs))

/-- The import of a module. -/
def importDecl (t : Tree) : Lower DeclId :=
  let module := match t.part? "identifier" with
    | some name => trim name.text
    | none => importedText t.text
  Lower.addDecl (.importing module) t.span

/-- The parameter of a function. -/
def param (t : Tree) : Lower DeclId := do
  let name := (fieldText? t "name").getD "_"
  let written ← (t.namedParts.find? (isTypeKind ·.kind)).mapM Lower.writtenType
  let decl ← Lower.addDecl (.param name (fieldText? t "external_name") written) t.span
  Lower.declare name decl
  return decl

/-- A function. Its signature is stated before its body is lowered, so that a recursive call
already has its type. -/
def function (below : Below) (t : Tree) (defaultName : String) : Lower DeclId := do
  let name := (fieldText? t "name").getD defaultName
  let decl ← Lower.addDecl (.func name [] none none) t.span
  Lower.declare name decl
  let (params, result, body) ← Lower.inScope do
    let params ← (t.namedParts.filter (·.kind == "parameter")).mapM param
    let result ← (t.childByField? "return_type").mapM Lower.writtenType
    Lower.setDeclKind decl (.func name params result none)
    let body := (t.childByField? "body").orElse fun _ => t.part? "function_body"
    return (params, result, ← body.mapM (block below))
  Lower.setDeclKind decl (.func name params result body)
  return decl

/-- The kind of a nominal type: what its keyword says. -/
def nominalKind (t : Tree) (defaultKind : NominalKind) : NominalKind :=
  let ofField := (t.childByField? "declaration_kind").bind fun k =>
    NominalKind.ofWord? (trim k.text)
  (ofField.orElse fun _ => t.parts.findSome? (NominalKind.ofWord? ·.kind)).getD defaultKind

/-- The trees of the types that a nominal type inherits from. -/
def inheritedTypes (t : Tree) : List Tree :=
  (t.namedParts.filter (·.kind == "inheritance_specifier")).map fun c =>
    (c.childByField? "inherits_from").getD c

/-- The trees of the members of a nominal type. -/
def memberTrees (t : Tree) : List Tree :=
  let body := (t.childByField? "body").orElse fun _ =>
    t.parts.find? (·.kind ∈ ["class_body", "enum_class_body", "protocol_body"])
  match body with
  | some body => body.namedParts.filter (isDeclKind ·.kind)
  | none => []

/-- The declaration of a nominal type. An extension binds no name. -/
def nominal (below : Below) (t : Tree) (defaultKind : NominalKind) : Lower DeclId := do
  let kind := nominalKind t defaultKind
  let name := (fieldText? t "name").getD ""
  let inherited ← (inheritedTypes t).mapM Lower.writtenType
  let decl ← Lower.addDecl (.nominal kind name inherited []) t.span
  if kind ≠ .extensionType then Lower.declare name decl
  let members ← Lower.inScope ((memberTrees t).mapM below.decl)
  Lower.setDeclKind decl (.nominal kind name inherited members)
  return decl

/-- Whether a property is a constant: what its first binding keyword says. -/
def bindsConstants (t : Tree) : Bool :=
  match t.parts.find? (·.kind ∈ ["value_binding_pattern", "let", "var"]) with
  | some keyword =>
    if keyword.kind == "value_binding_pattern" then startsWith (trimStart keyword.text) "let"
    else keyword.kind == "let"
  | none => false

/-- One `name: annotation = value` of a property. -/
structure PropertyEntry where
  name : Tree
  typeTree : Option Tree := none
  value : Option Tree := none

/-- The entries read so far, the last one first, and the next child of the property. -/
def PropertyEntry.next (entries : List PropertyEntry) (t : Tree) : List PropertyEntry :=
  if t.head.field == some "name" then { name := t } :: entries
  else
    match entries with
    | [] => []
    | entry :: entries =>
      if t.kind == "type_annotation" then { entry with typeTree := some t } :: entries
      else if t.head.field == some "value" then { entry with value := some t } :: entries
      else entry :: entries

/-- The entries of a property, one for each child in the field of names. -/
def propertyEntries (t : Tree) : List PropertyEntry :=
  match t.children.foldl PropertyEntry.next [] with
  | [] =>
    match t.namedParts.find? (·.kind ∈ ["pattern", "simple_identifier"]) with
    | some name => [{ name }]
    | none => []
  | entries => entries.reverse

/-- An entry of a property. Its initializer cannot see the names it initializes. -/
def propertyEntry (below : Below) (isLet : Bool) (entry : PropertyEntry) : Lower BindingEntry := do
  let init ← entry.value.mapM below.expr
  let written ← entry.typeTree.mapM Lower.writtenType
  let initType ← Lower.ofAst fun ast => init.bind ast.exprType?
  let type := (written.bind (·.type)).orElse fun _ => initType
  let name :=
    if entry.name.kind == "simple_identifier" then some entry.name
    else entry.name.childByField? "bound_identifier"
  let pattern ← match name with
    | some name => newVariable name isLet type
    | none => below.pattern entry.name (some isLet)
  let pattern ← match written, entry.typeTree with
    | some written, some typeTree =>
      Lower.addPattern (.typed pattern written) (some (entry.name.span.cover typeTree.span))
    | _, _ => pure pattern
  return { pattern, init }

/-- A declaration of constants or variables. -/
def property (below : Below) (t : Tree) : Lower DeclId := do
  let entries ← (propertyEntries t).mapM (propertyEntry below (bindsConstants t))
  Lower.addDecl (.patternBinding entries) t.span

/-- A type alias. -/
def typeAlias (t : Tree) : Lower DeclId := do
  let name := (fieldText? t "name").getD ""
  let type := (t.childByField? "value").orElse fun _ =>
    (t.namedParts.filter (isTypeKind ·.kind)).getLast?
  let written ← type.mapM Lower.writtenType
  let decl ← Lower.addDecl (.typeAlias name written) t.span
  Lower.declare name decl
  return decl

/-- The names of the cases that a case declaration of an enumeration lists. -/
def caseNames (t : Tree) : List String :=
  let named : List Tree :=
    match t.childrenByField "name" with
    | [] => t.namedParts.filter (·.kind == "simple_identifier")
    | named => named
  named.map (trim ·.text)

/-- The rules for declarations. -/
def declAt (below : Below) (t : Tree) : Lower DeclId :=
  match t.kind with
  | "import_declaration" => importDecl t
  | "function_declaration" | "protocol_function_declaration" => function below t "<anonymous>"
  | "init_declaration" => function below t "init"
  | "deinit_declaration" => function below t "deinit"
  | "class_declaration" => nominal below t .classType
  | "protocol_declaration" => nominal below t .protocolType
  | "property_declaration" | "protocol_property_declaration" => property below t
  | "typealias_declaration" => typeAlias t
  | "enum_entry" => Lower.addDecl (.enumCase (caseNames t)) t.span
  | _ => unknownDecl below t

end SwiftRelations.Lowering
