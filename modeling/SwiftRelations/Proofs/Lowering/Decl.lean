import SwiftRelations.Proofs.Lowering.Stmt

/-!
# What the rules for declarations build

Every rule makes one declaration of the trees it lowers. A function and a nominal type stand
unfinished while their parts are made.
-/

namespace SwiftRelations.Lowering

open SwiftRelations.Text SwiftRelations.Lower

variable {terms : Terms} {opened : List (DeclId × String)} {height : Nat} {below : Below}
  {t : Tree}

private theorem unknownDecl_builds (hb : below.Sound terms height)
    (ht : terms.Admits (height + 1) t) :
    (unknownDecl below t).Builds terms opened [] fun id => [.decl id] :=
  (items_builds hb ht).bind fun _ => .addDecl rfl

/-! ### Functions and types -/

/-- A parameter becomes a declaration. -/
theorem param_builds (t : Tree) : (param t).Builds terms opened [] fun id => [.decl id] := by
  unfold param
  refine (Builds.optionMapM fun u _ => .writtenType u).bind fun written => ?_
  exact .introduce rfl fun d => .pure (.refl _)

private theorem param_quiet (t : Tree) : (param t).Quiet :=
  (Quiet.optionMapM Quiet.writtenType _).bind fun _ => (Quiet.onAst fun _ => rfl).bind fun _ =>
    (Quiet.declare _ _).bind fun _ => .pure _

/-- The parameters and the result of a function, which it is given before its body. -/
def signature (t : Tree) (name : String) (d : DeclId) :
    Lower (List DeclId × Option WrittenType) := do
  let params ← (t.namedParts.filter (·.kind == "parameter")).mapM param
  let result ← (t.childByField? "return_type").mapM Lower.writtenType
  Lower.setDeclKind d (.func name params result none)
  return (params, result)

/-- The body of a function, if it has one. -/
def functionBody (below : Below) (t : Tree) : Lower (Option StmtId) :=
  ((t.childByField? "body").orElse fun _ => t.part? "function_body").mapM (block below)

/-- The parts of a function are its signature and, after that, its body. -/
theorem function_eq (below : Below) (t : Tree) (defaultName : String) :
    function below t defaultName = (do
      let name := (fieldText? t "name").getD defaultName
      let d ← Lower.addDecl (.func name [] none none) t.span
      Lower.declare name d
      let (params, result, body) ← Lower.inScope do
        let (params, result) ← signature t name d
        return (params, result, ← functionBody below t)
      Lower.setDeclKind d (.func name params result body)
      return d) := by
  simp only [function, signature, functionBody, bind_assoc, pure_bind]

private theorem signature_builds (t : Tree) (name : String) (d : DeclId) :
    (signature t name d).Builds terms ((d, name) :: opened) []
      fun r => r.1.map .decl ++ (r.2.map Node.writtenType).toList := by
  refine (Builds.mapM_map fun u _ => param_builds u).bind fun params => ?_
  refine (Builds.optionMapM fun u _ => .writtenType u).seq fun result => ?_
  exact (Builds.setDeclKind List.mem_cons_self rfl (by simp [DeclKind.nodes])).bind
    fun _ => .pure (.refl _)

/-- After its signature is read, a function states it and is not referred to as yet. -/
theorem signature_leaves {s : State} {name : String} {d : DeclId}
    (unreferenced : s.ast.Unreferenced d) :
    (signature t name d).Leaves s fun r ast => ast.Unreferenced d ∧
      ∀ decl, ast.decl? d = some decl → decl.kind = .func name r.1 r.2 none := by
  refine .bind fun params s₁ h₁ => .bind fun result s₂ h₂ => .bind fun _ s₃ h₃ => .pure ⟨?_, ?_⟩
  · have h := (Quiet.mapM param_quiet _).unreferenced unreferenced params s₁ h₁
    have h := (Quiet.optionMapM Quiet.writtenType _).unreferenced h result s₂ h₂
    exact (Quiet.setDeclKind _ _).unreferenced h _ s₃ h₃
  · cases h₃
    intro decl hd
    obtain ⟨_, -, rfl⟩ := Option.map_eq_some_iff.mp ((s₂.ast.decl?_setDeclKind d _).symm.trans hd)
    rfl

private theorem functionBody_builds (hb : below.Sound terms height)
    (ht : terms.Admits (height + 1) t) :
    (functionBody below t).Builds terms opened [] fun id => (id.map Node.stmt).toList :=
  .optionMapM fun _ hu => block_builds hb
    (ht.below (Tree.mem_descendants_of_orElse hu Tree.mem_descendants_of_part?)).succ

private theorem function_builds (hb : below.Sound terms height) (ht : terms.Admits (height + 1) t)
    (defaultName : String) :
    (function below t defaultName).Builds terms opened [] fun id => [.decl id] := by
  rw [function_eq]
  extract_lets name
  have hsignature : ∀ d, (signature t name d).Builds terms ((d, name) :: opened) []
    fun r => r.1.map .decl ++ (r.2.map Node.writtenType).toList := signature_builds t name
  refine .define (fun r => .func name r.1 r.2.1 r.2.2) rfl (by simp [DeclKind.nodes])
    (fun d => .inScope ?_) ?_ (fun d r => rfl) fun r => rfl
  · refine (hsignature d).bind fun r => ?_
    exact (functionBody_builds hb ht).seq fun body => .pure (.refl _)
  · refine fun d s begun => .inScope ?_
    replace begun := begun.enter
    generalize { s with scopes := s.scopes.enter } = s at begun ⊢
    refine .bind fun r s₁ hr => .bind fun body s₂ hbody => .pure ?_
    obtain ⟨-, hu, hready⟩ := (hsignature d).upkeep begun.unfinished begun.ready hr
    obtain ⟨unreferenced, hstates⟩ := signature_leaves begun.unreferenced r s₁ hr
    obtain ⟨decl, hd, -⟩ := Option.map_eq_some_iff.mp (hu _ List.mem_cons_self)
    have hcalled := (functionBody_builds hb ht).called hu (hready.mono (by simp)) hd begun.shown
      unreferenced body s₂ hbody
    rwa [hstates decl hd] at hcalled

/-- The members of a nominal type are below it. -/
theorem admits_memberTrees (ht : terms.Admits (height + 1) t) :
    ∀ u ∈ memberTrees t, terms.Admits height u := by
  intro u hu
  unfold memberTrees at hu
  dsimp only at hu
  split at hu
  case h_1 body h =>
    have hbody : body ∈ t.descendants := Tree.mem_descendants_of_orElse h fun h =>
      Tree.mem_descendants_of_mem_parts (List.mem_of_find?_eq_some h)
    exact ht.below (Tree.descendants_trans hbody
      (Tree.mem_descendants_of_mem_namedParts (List.mem_filter.mp hu).1))
  case h_2 => cases hu

private theorem nominal_builds (hb : below.Sound terms height) (ht : terms.Admits (height + 1) t)
    (defaultKind : NominalKind) :
    (nominal below t defaultKind).Builds terms opened [] fun id => [.decl id] := by
  unfold nominal
  extract_lets kind name
  refine (Builds.mapM_map fun u _ => .writtenType u).bind fun inherited => ?_
  have hmembers : ∀ opened, ((memberTrees t).mapM below.decl).inScope.Builds terms opened []
      (·.map .decl) := by
    intro opened
    have h : ((memberTrees t).mapM below.decl).Builds terms opened [] (·.map .decl) :=
      .mapM_map fun u hu => hb.decl (admits_memberTrees ht u hu)
    exact h.inScope
  have hcalled : ∀ d s,
      Begun opened (inherited.map .writtenType) d name (.nominal kind name inherited []) s →
      ((memberTrees t).mapM below.decl).inScope.Leaves s fun members ast =>
        ast.Called d (.nominal kind name inherited members) := by
    intro d s begun
    obtain ⟨span, hd⟩ := begun.stands
    exact (hmembers opened).called begun.unfinished (begun.ready.mono (by simp)) hd begun.shown
      begun.unreferenced
  split
  · exact .define (fun members => .nominal kind name inherited members) rfl
      (by simp [DeclKind.nodes]) (fun d => (hmembers _).after _) hcalled (fun d r => rfl)
      fun r => rfl
  · exact .defineUnbound (fun members => .nominal kind name inherited members) rfl
      (by simp [DeclKind.nodes]) (fun d => (hmembers _).after _) hcalled (fun d r => rfl)
      fun r => rfl

/-! ### Properties -/

/-- The nodes of an entry of a property. -/
def entryNodes (entry : BindingEntry) : List Node :=
  .pattern entry.pattern :: (entry.init.map Node.expr).toList

/-- Whether an entry of a property is read off admitted trees. -/
structure PropertyEntry.Admitted (terms : Terms) (height : Nat) (entry : PropertyEntry) : Prop where
  name : terms.Admits height entry.name
  value : ∀ u, entry.value = some u → terms.Admits height u

/-- The type of a value is known. -/
theorem initType_builds (init : Option ExprId) :
    (Lower.ofAst fun ast => init.bind ast.exprType?).Builds terms opened [] typeNodes := by
  refine .ofAst loose_typeNodes fun ast ht => covers_typeNodes fun type h => ?_
  obtain ⟨id, -, he⟩ := Option.bind_eq_some_iff.mp h
  exact ht.has_exprType? he

/-- The type of a variable comes with its annotation, or else with its value. -/
theorem exists_node_of_type {written : Option WrittenType} {initType : Option TypeId}
    {type : TypeId} (h : ((written.bind (·.type)).orElse fun _ => initType) = some type) :
    ∃ node ∈ (written.map Node.writtenType).toList ++ typeNodes initType, type ∈ node.types := by
  cases hw : written.bind (·.type) with
  | none =>
    simp only [hw, Option.orElse_none] at h
    exact ⟨.type type, by simp [h], by simp [Node.types]⟩
  | some other =>
    obtain ⟨w, rfl, ht⟩ := Option.bind_eq_some_iff.mp hw
    simp only [hw, Option.orElse_some, Option.some.injEq] at h
    exact ⟨.writtenType w, by simp, by simp [Node.types, ht, h]⟩

/-- The pattern of an entry of a property with a given initializer. -/
def entryPattern (below : Below) (isLet : Bool) (entry : PropertyEntry) (init : Option ExprId) :
    Lower PatternId := do
  let written ← entry.typeTree.mapM Lower.writtenType
  let initType ← Lower.ofAst fun ast => init.bind ast.exprType?
  let type := (written.bind (·.type)).orElse fun _ => initType
  let name :=
    if entry.name.kind == "simple_identifier" then some entry.name
    else entry.name.childByField? "bound_identifier"
  let pattern ← match name with
    | some name => newVariable name isLet type
    | none => below.pattern entry.name (some isLet)
  match written, entry.typeTree with
  | some written, some typeTree =>
    Lower.addPattern (.typed pattern written) (some (entry.name.span.cover typeTree.span))
  | _, _ => return pattern

/-- An entry of a property is its initializer and, after that, its pattern. -/
theorem propertyEntry_eq (below : Below) (isLet : Bool) (entry : PropertyEntry) :
    propertyEntry below isLet entry = (do
      let init ← entry.value.mapM below.expr
      let pattern ← entryPattern below isLet entry init
      return { pattern, init }) := by
  unfold propertyEntry entryPattern
  simp only [bind_assoc]
  refine bind_congr fun init => bind_congr fun written => bind_congr fun initType => ?_
  generalize (if entry.name.kind == "simple_identifier" then some entry.name
    else entry.name.childByField? "bound_identifier") = name
  cases name <;> cases written <;> cases entry.typeTree <;> simp

private theorem entryPattern_builds (hb : below.Sound terms height) (isLet : Bool)
    {entry : PropertyEntry} (he : entry.Admitted terms height) (init : Option ExprId) :
    (entryPattern below isLet entry init).Builds terms opened [] fun id => [.pattern id] := by
  unfold entryPattern
  refine .bind_of_returns (.optionMapM _ _) (Builds.optionMapM fun u _ => .writtenType u)
    fun written hwritten => ?_
  refine (initType_builds init).seq fun initType => ?_
  extract_lets type name next
  have hnext : ∀ pattern, (next pattern).Builds terms opened
      ((written.map Node.writtenType).toList ++ [.pattern pattern]) fun id => [.pattern id] := by
    intro pattern
    cases written with
    | none => exact .pure (.refl _)
    | some written =>
      obtain ⟨typeTree, htree⟩ := Option.isSome_iff_exists.mp hwritten.symm
      dsimp only [next]
      rw [htree]
      exact .weaken_pre (.perm (.swap _ _ [])) .addPattern
  clear_value next name
  split
  case h_1 name =>
    exact .weaken_pre (.retype (by simp) fun id => exists_node_of_type)
      (((newVariable_builds name isLet type).frame _).bind hnext)
  case h_2 => exact .weaken_pre (.forget (by simp)) ((hb.pattern he.name).seq hnext)

/-- An entry of a property takes its value and its pattern. -/
theorem propertyEntry_builds (hb : below.Sound terms height) (isLet : Bool) {entry : PropertyEntry}
    (he : entry.Admitted terms height) :
    (propertyEntry below isLet entry).Builds terms opened [] entryNodes := by
  rw [propertyEntry_eq]
  refine (Builds.optionMapM fun u hu => hb.expr (he.value u hu)).bind fun init => ?_
  refine (entryPattern_builds hb isLet he init).seq fun pattern => ?_
  exact .pure (.perm List.perm_append_comm)

/-- The value of an entry is made first, so that it refers to nothing in the pattern. -/
theorem propertyEntry_ensures (hb : below.Sound terms height) (isLet : Bool) {entry : PropertyEntry}
    (he : entry.Admitted terms height) :
    (propertyEntry below isLet entry).Ensures opened [] fun e ast =>
      ∀ value, e.init = some value → ast.Initialized (hidden opened) (e.pattern, value) := by
  rw [propertyEntry_eq]
  have hinit : (entry.value.mapM below.expr).Builds terms opened []
      fun init => (init.map Node.expr).toList :=
    .optionMapM fun u hu => hb.expr (he.value u hu)
  refine .bind hinit fun init => ((entryPattern_builds hb isLet he init).initializes _).map ?_
  rintro id ast h value rfl
  exact h value (by simp)

/-- The next child of a property adds a name or a value. -/
theorem admitted_next {entries : List PropertyEntry}
    (he : ∀ entry ∈ entries, entry.Admitted terms height) (ht : terms.Admits height t) :
    ∀ entry ∈ PropertyEntry.next entries t, entry.Admitted terms height := by
  intro entry hm
  unfold PropertyEntry.next at hm
  split at hm
  · rcases List.mem_cons.mp hm with rfl | hm
    · exact ⟨ht, by simp⟩
    · exact he entry hm
  · split at hm
    case h_1 => cases hm
    case h_2 first entries =>
      have hfirst := he first List.mem_cons_self
      have hrest : ∀ entry ∈ entries, entry.Admitted terms height := fun entry h =>
        he entry (List.mem_cons_of_mem _ h)
      split at hm
      · rcases List.mem_cons.mp hm with rfl | hm
        · exact ⟨hfirst.name, hfirst.value⟩
        · exact hrest entry hm
      split at hm
      · rcases List.mem_cons.mp hm with rfl | hm
        · exact ⟨hfirst.name, by rintro u ⟨⟩; exact ht⟩
        · exact hrest entry hm
      · exact he entry hm

/-- The entries of a property are made of trees below it. -/
theorem admitted_propertyEntries (ht : terms.Admits (height + 1) t) {entry : PropertyEntry}
    (h : entry ∈ propertyEntries t) : entry.Admitted terms height := by
  have hread : ∀ entry ∈ t.children.foldl PropertyEntry.next [], entry.Admitted terms height := by
    apply List.foldlRecOn
      (motive := fun entries : List PropertyEntry => ∀ entry ∈ entries, entry.Admitted terms height)
    · simp
    · exact fun entries he u hu =>
        admitted_next he (ht.below (Tree.mem_descendants_of_mem_children hu))
  unfold propertyEntries at h
  split at h
  · split at h
    case h_1 name hname =>
      rw [List.mem_singleton.mp h]
      exact ⟨admits_namedParts ht name (List.mem_of_find?_eq_some hname), by simp⟩
    case h_2 => cases h
  · exact hread entry (List.mem_reverse.mp h)

private theorem property_builds (hb : below.Sound terms height) (ht : terms.Admits (height + 1) t) :
    (property below t).Builds terms opened [] fun id => [.decl id] := by
  have he : ∀ entry ∈ propertyEntries t,
      (propertyEntry below (bindsConstants t) entry).Builds terms opened [] entryNodes :=
    fun entry h => propertyEntry_builds hb _ (admitted_propertyEntries ht h)
  refine .bind_of_ensures (.mapM he (fun entry h => propertyEntry_ensures hb _
    (admitted_propertyEntries ht h)) fun entry ast ast' hc hk h value hv =>
      hk.initialized hc (h value hv)) (.mapM_new he) fun entries s hu => ?_
  refine .addDecl hu And.left fun h binding hm => ?_
  obtain ⟨entry, he, hm⟩ := List.mem_filterMap.mp hm
  obtain ⟨value, hv, rfl⟩ := Option.map_eq_some_iff.mp hm
  exact (h.2 entry he value hv).blind

/-! ### Other declarations -/

private theorem typeAlias_builds (t : Tree) :
    (typeAlias t).Builds terms opened [] fun id => [.decl id] := by
  unfold typeAlias
  extract_lets name type
  refine (Builds.optionMapM fun u _ => .writtenType u).bind fun written => ?_
  exact .introduce rfl fun d => .pure (.refl _)

/-- Each kind of declaration makes one declaration. -/
theorem declAt_builds (hb : below.Sound terms height) (ht : terms.Admits (height + 1) t) :
    (declAt below t).Builds terms opened [] fun id => [.decl id] := by
  unfold declAt
  split
  case h_1 => exact .addDecl rfl
  case h_2 | h_3 | h_4 | h_5 => exact function_builds hb ht _
  case h_6 | h_7 => exact nominal_builds hb ht _
  case h_8 | h_9 => exact property_builds hb ht
  case h_10 => exact typeAlias_builds t
  case h_11 => exact .addDecl rfl
  case h_12 => exact unknownDecl_builds hb ht

end SwiftRelations.Lowering
