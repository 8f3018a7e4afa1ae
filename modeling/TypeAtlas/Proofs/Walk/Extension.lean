import TypeAtlas.Proofs.Graph.Search
import TypeAtlas.Proofs.Walk.Held
import TypeAtlas.Proofs.Walk.Step
/-!
# Trees of an extended graph

A walk through a closed graph asks only about types and symbols of the graph, and the answers stay
the same when the graph is extended. So the plan of a type is the same
(`TypeGraph.Extends.plan_eq`), and by induction on the levels so is every tree
(`TypeGraph.Extends.tree_eq`).
-/

namespace TypeAtlas

open Handle (Role)

namespace TypeGraph

variable {g h : TypeGraph}

namespace Extends

variable (hgh : g.Extends h) {id : TypeId}

include hgh

/-! ## Answers about types and symbols of the graph -/

theorem baseTypes_eq (hg : g.InBounds) (hid : g.HasType id) : h.baseTypes id = g.baseTypes id :=
  congrArg (fun object => (Option.map _ object).getD _) (hgh.resolvedObject?_eq hg hid)

theorem implementsTypes_eq (hg : g.InBounds) (hid : g.HasType id) :
    h.implementsTypes id = g.implementsTypes id :=
  congrArg (fun object => (Option.map _ object).getD _) (hgh.resolvedObject?_eq hg hid)

theorem typeArguments_eq (hid : g.HasType id) : h.typeArguments id = g.typeArguments id :=
  congrArg (fun object => (Option.map _ object).getD _) (hgh.object?_eq hid)

theorem tupleShape_eq (hid : g.HasType id) : h.tupleShape id = g.tupleShape id :=
  congrArg (fun object => (Option.bind object _).getD _) (hgh.object?_eq hid)

theorem isReadonlyArray_eq (hid : g.HasType id) : h.isReadonlyArray id = g.isReadonlyArray id := by
  unfold isReadonlyArray
  rw [hgh.object?_eq hid, hgh.globalReadonlyArray]

theorem baseConstraint?_eq (hid : g.HasType id) : h.baseConstraint? id = g.baseConstraint? id := by
  unfold baseConstraint?
  rw [hgh.data?_eq hid]

theorem defaultType?_eq (hid : g.HasType id) : h.defaultType? id = g.defaultType? id := by
  unfold defaultType?
  rw [hgh.data?_eq hid]

theorem declaredTypeOf_eq {symbol : SymbolId} (hsymbol : g.HasSymbol symbol) :
    h.declaredTypeOf symbol = g.declaredTypeOf symbol :=
  congrArg (fun record => (Option.bind record _).getD _) (hgh.symbol?_eq hsymbol)

theorem isOptionalParameter_eq {symbol : SymbolId} (hsymbol : g.HasSymbol symbol) :
    h.isOptionalParameter symbol = g.isOptionalParameter symbol :=
  congrArg (fun record => (Option.map _ record).getD _) (hgh.symbol?_eq hsymbol)

theorem isRestParameter_eq {symbol : SymbolId} (hsymbol : g.HasSymbol symbol) :
    h.isRestParameter symbol = g.isRestParameter symbol :=
  congrArg (fun record => (Option.map _ record).getD _) (hgh.symbol?_eq hsymbol)

/-- A symbol that may be missing is asked for its record. -/
theorem bind_symbol?_eq {symbol : Option SymbolId}
    (hsymbol : ∀ id, symbol = some id → g.HasSymbol id) :
    symbol.bind h.symbol? = symbol.bind g.symbol? := by
  cases symbol with
  | none => rfl
  | some id => exact hgh.symbol?_eq (hsymbol id rfl)

theorem isClassSymbol_eq {symbol : Option SymbolId}
    (hsymbol : ∀ id, symbol = some id → g.HasSymbol id) :
    h.isClassSymbol symbol = g.isClassSymbol symbol := by
  unfold isClassSymbol
  rw [hgh.bind_symbol?_eq hsymbol]

theorem member_eq {symbol : SymbolId} (hsymbol : g.HasSymbol symbol) (inside : Bool) :
    h.member inside symbol = g.member inside symbol := by
  unfold member
  rw [hgh.typeOf_eq hsymbol]

theorem members_eq {symbols : List SymbolId} (h' : ∀ symbol ∈ symbols, g.HasSymbol symbol)
    (inside : Bool) : symbols.map (h.member inside) = symbols.map (g.member inside) :=
  List.map_congr_left fun symbol hsymbol => hgh.member_eq (h' symbol hsymbol) inside

theorem parameterOf_eq {parameter : SymbolId} (hparameter : g.HasSymbol parameter) :
    h.parameterOf parameter = g.parameterOf parameter := by
  unfold parameterOf
  rw [hgh.typeOf_eq hparameter, hgh.isOptionalParameter_eq hparameter]

variable (hg : g.Closed)

include hg

theorem symbolMeta?_eq {symbol : SymbolId} (hsymbol : g.HasSymbol symbol) (optional : Option Bool)
    (inside : Bool) :
    h.symbolMeta? symbol optional inside = g.symbolMeta? symbol optional inside := by
  unfold symbolMeta?
  rw [hgh.symbol?_eq hsymbol, hgh.isRestParameter_eq hsymbol]
  apply Option.map_congr
  intro record hrecord
  have hparent : ∀ parent, record.parent = some parent → g.HasSymbol parent := fun parent hparent =>
    hg.symbol hrecord (.parent hparent)
  rw [hgh.bind_symbol?_eq hparent]

theorem mentionedSymbol?_eq {symbol : Option SymbolId}
    (hsymbol : ∀ id, symbol = some id → g.HasSymbol id) :
    h.mentionedSymbol? symbol = g.mentionedSymbol? symbol := by
  cases symbol with
  | none => rfl
  | some id => exact hgh.symbolMeta?_eq hg (hsymbol id rfl) none false

theorem definedTypeLocation?_eq (hid : g.HasType id) :
    h.definedTypeLocation? id = g.definedTypeLocation? id := by
  unfold definedTypeLocation?
  rw [hgh.type?_eq hid]
  apply Option.bind_congr
  intro record hrecord
  have hsymbols : ∀ symbol ∈ record.aliasSymbol.toList ++ record.symbol.toList,
      g.HasSymbol symbol := by
    intro symbol hmem
    rcases List.mem_append.1 hmem with hmem | hmem
    · exact hg.type hrecord (.aliasSymbol (Option.mem_toList.1 hmem))
    · exact hg.type hrecord (.symbol (Option.mem_toList.1 hmem))
  rw [← List.head?_filterMap, ← List.head?_filterMap]
  refine congrArg _ (List.filterMap_congr fun symbol hmem => ?_)
  rw [hgh.symbol?_eq (hsymbols symbol hmem)]

/-! ## Plans -/

theorem planSignature_eq {s : Signature}
    (hs : ∀ {role : Role} {handle : Handle}, s.Stores role handle → g.Holds handle) :
    h.planSignature s = g.planSignature s := by
  have hsymbol : ∀ id, s.symbol = some id → g.HasSymbol id := fun _ hid => hs (.symbol hid)
  have hparameters : s.parameters.map h.parameterOf = s.parameters.map g.parameterOf :=
    List.map_congr_left fun p hp => hgh.parameterOf_eq (hs (.parameter hp))
  unfold planSignature
  rw [hgh.mentionedSymbol?_eq hg hsymbol, hparameters]

theorem planSignatures_eq {ss : List Signature}
    (hss : ∀ s ∈ ss, ∀ {role : Role} {handle : Handle}, s.Stores role handle → g.Holds handle) :
    ss.map h.planSignature = ss.map g.planSignature :=
  List.map_congr_left fun s hs => hgh.planSignature_eq hg (hss s hs)

theorem planIndexInfos_eq {infos : List IndexInfo}
    (hinfos : ∀ i ∈ infos, ∀ {role : Role} {handle : Handle}, i.Stores role handle →
      g.Holds handle) :
    infos.map h.planIndexInfo = infos.map g.planIndexInfo := by
  refine List.map_congr_left fun i hi => ?_
  have hparameter : ∀ id, i.parameter = some id → g.HasSymbol id := fun _ hid =>
    hinfos i hi (.parameter hid)
  unfold planIndexInfo
  rw [hgh.mentionedSymbol?_eq hg hparameter]

theorem planEnum_eq {record : TypeRecord} (hrecord : g.type? id = some record) :
    h.planEnum record = g.planEnum record := by
  have hsymbol : ∀ id, record.symbol = some id → g.HasSymbol id := fun _ hid =>
    hg.type hrecord (.symbol hid)
  have hparent : ∀ id, (record.symbol.bind g.symbol?).bind (·.parent) = some id →
      g.HasSymbol id := by
    intro id hid
    obtain ⟨member, hmember, hid⟩ := Option.bind_eq_some_iff.1 hid
    obtain ⟨_, -, hmember⟩ := Option.bind_eq_some_iff.1 hmember
    exact hg.symbol hmember (.parent hid)
  unfold planEnum
  rw [hgh.mentionedSymbol?_eq hg hsymbol, hgh.bind_symbol?_eq hsymbol,
    hgh.mentionedSymbol?_eq hg hparent]

theorem constructorsOf_eq {symbol : Option SymbolId}
    (hsymbol : ∀ id, symbol = some id → g.HasSymbol id) (isClass : Bool) :
    h.constructorsOf symbol isClass = g.constructorsOf symbol isClass := by
  cases symbol with
  | none => rfl
  | some symbol =>
    unfold constructorsOf
    dsimp only
    rw [hgh.valueTypeOf_eq (hsymbol symbol rfl),
      hgh.constructSignatures_eq hg.inBounds (hg.inBounds.valueTypeOf symbol)]

theorem planClassLike_eq (hid : g.HasType id) {symbol : Option SymbolId}
    (hsymbol : ∀ id, symbol = some id → g.HasSymbol id) (isClass : Bool) :
    h.planClassLike id symbol isClass = g.planClassLike id symbol isClass := by
  unfold planClassLike
  rw [hgh.mentionedSymbol?_eq hg hsymbol, hgh.properties_eq hg.inBounds hid,
    hgh.members_eq (fun _ => hg.inBounds.properties), hgh.indexInfos_eq hg.inBounds hid,
    hgh.planIndexInfos_eq hg fun _ hi _ _ => hg.indexInfos hi, hgh.baseTypes_eq hg.inBounds hid,
    hgh.implementsTypes_eq hg.inBounds hid, hgh.constructorsOf_eq hg hsymbol,
    hgh.planSignatures_eq hg fun _ hs _ _ => hg.constructorsOf hs]

theorem isConstructorSide_eq {record : TypeRecord} (hrecord : g.type? id = some record) :
    h.isConstructorSide record = g.isConstructorSide record := by
  unfold isConstructorSide
  rw [hgh.isClassSymbol_eq fun _ hid => hg.type hrecord (.symbol hid)]

theorem functionSignatures_eq (hid : g.HasType id) {record : TypeRecord}
    (hrecord : g.type? id = some record) :
    h.functionSignatures id record = g.functionSignatures id record := by
  unfold functionSignatures
  rw [hgh.callSignatures_eq hg.inBounds hid, hgh.isConstructorSide_eq hg hrecord,
    hgh.constructSignatures_eq hg.inBounds hid]

theorem resolvedObjectFlags_eq (hid : g.HasType id) :
    h.resolvedObjectFlags id = g.resolvedObjectFlags id := by
  unfold resolvedObjectFlags
  rw [hgh.objectFlags_eq hid, hgh.object?_eq hid]
  dsimp only
  split
  next target htarget =>
    obtain ⟨object, hobject, htarget⟩ := Option.bind_eq_some_iff.1 htarget
    rw [hgh.objectFlags_eq (hg.object hobject (.target htarget))]
  next => rfl

omit hg in
theorem elementOf_eq (hid : g.HasType id) : h.elementOf id = g.elementOf id := by
  unfold elementOf
  rw [hgh.typeArguments_eq hid]

theorem classOf_eq {record : TypeRecord} (hrecord : g.type? id = some record) :
    h.classOf record = g.classOf record := by
  have hdeclared : record.symbol.map h.declaredTypeOf = record.symbol.map g.declaredTypeOf :=
    Option.map_congr fun _ hid => hgh.declaredTypeOf_eq (hg.type hrecord (.symbol hid))
  unfold classOf
  rw [hgh.isConstructorSide_eq hg hrecord, hdeclared]

theorem planObject_eq (hid : g.HasType id) {record : TypeRecord}
    (hrecord : g.type? id = some record) : h.planObject id record = g.planObject id record := by
  have hsymbol : ∀ id, record.symbol = some id → g.HasSymbol id := fun _ hid =>
    hg.type hrecord (.symbol hid)
  unfold planObject
  dsimp only
  rw [hgh.functionSignatures_eq hg hid hrecord, hgh.resolvedObjectFlags_eq hg hid,
    hgh.planSignatures_eq hg fun _ hs _ _ => hg.functionSignatures hs, hgh.isArray_eq hid,
    hgh.elementOf_eq hid, hgh.isReadonlyArray_eq hid, hgh.isTuple_eq hid, hgh.tupleShape_eq hid,
    hgh.typeArguments_eq hid, hgh.planClassLike_eq hg hid hsymbol,
    hgh.planClassLike_eq hg hid hsymbol, hgh.properties_eq hg.inBounds hid,
    hgh.members_eq (fun _ => hg.inBounds.properties), hgh.indexInfos_eq hg.inBounds hid,
    hgh.planIndexInfos_eq hg fun _ hi _ _ => hg.indexInfos hi, hgh.classOf_eq hg hrecord]

omit hg in
theorem flattenedOnce_eq {types : List TypeId} (htypes : ∀ type ∈ types, g.HasType type) :
    h.flattenedOnce types = g.flattenedOnce types :=
  List.flatMap_congr fun type htype => by rw [hgh.data?_eq (htypes type htype)]

theorem propertiesOfAll_eq {objects : List TypeId} (hobjects : ∀ type ∈ objects, g.HasType type) :
    h.propertiesOfAll objects = g.propertiesOfAll objects := by
  have hproperties : objects.flatMap h.properties = objects.flatMap g.properties :=
    List.flatMap_congr fun type htype => hgh.properties_eq hg.inBounds (hobjects type htype)
  have hsymbols : ∀ property ∈ objects.flatMap g.properties, g.HasSymbol property := by
    intro property hproperty
    obtain ⟨type, -, hmem⟩ := List.mem_flatMap.1 hproperty
    exact hg.inBounds.properties hmem
  -- each property is there, so all of them are pushed
  have hpush : ∀ {k : TypeGraph}, (∀ property ∈ objects.flatMap g.properties,
      (k.symbol? property).isSome) → (objects.flatMap g.properties).foldl (fun found property =>
        if (k.symbol? property).isSome then k.pushUnique found property else found) [] =
      (objects.flatMap g.properties).foldl k.pushUnique [] :=
    fun hsome => List.foldl_ext _ _ _ fun _ property hproperty => if_pos (hsome property hproperty)
  have hsome : ∀ property ∈ objects.flatMap g.properties, (g.symbol? property).isSome := by
    intro property hproperty
    obtain ⟨record, hrecord⟩ := (hsymbols property hproperty).symbol?
    rw [hrecord, Option.isSome_some]
  unfold propertiesOfAll
  rw [hproperties, hpush hsome, hpush fun property hproperty =>
    hgh.symbol?_eq (hsymbols property hproperty) ▸ hsome property hproperty]
  exact hgh.foldl_pushUnique_eq hg.inBounds (List.forall_mem_nil _) hsymbols

theorem planIntersection_eq {types : List TypeId} (htypes : ∀ type ∈ types, g.HasType type) :
    h.planIntersection types = g.planIntersection types := by
  have hflat := hg.flattenedOnce htypes
  have hplain : (g.flattenedOnce types).filter h.isPlainObject =
      (g.flattenedOnce types).filter g.isPlainObject :=
    List.filter_congr fun type htype => hgh.isPlainObject_eq hg.inBounds (hflat type htype)
  have hothers : (g.flattenedOnce types).filter (not ∘ h.isPlainObject) =
      (g.flattenedOnce types).filter (not ∘ g.isPlainObject) :=
    List.filter_congr fun type htype =>
      congrArg not (hgh.isPlainObject_eq hg.inBounds (hflat type htype))
  have hobjects : ∀ type ∈ (g.flattenedOnce types).filter g.isPlainObject, g.HasType type :=
    fun type htype => hflat type (List.mem_filter.1 htype).1
  have hinfos : ((g.flattenedOnce types).filter g.isPlainObject).flatMap h.indexInfos =
      ((g.flattenedOnce types).filter g.isPlainObject).flatMap g.indexInfos :=
    List.flatMap_congr fun type htype => hgh.indexInfos_eq hg.inBounds (hobjects type htype)
  unfold planIntersection
  rw [List.partition_eq_filter_filter, List.partition_eq_filter_filter,
    hgh.flattenedOnce_eq htypes, hplain, hothers]
  dsimp only
  rw [hgh.propertiesOfAll_eq hg hobjects, hgh.members_eq (propertiesOfAll_hasSymbol _), hinfos,
    hgh.planIndexInfos_eq hg]
  intro i hi _ _
  obtain ⟨type, -, hmem⟩ := List.mem_flatMap.1 hi
  exact hg.indexInfos hmem

theorem planOperator_eq {record : TypeRecord} (hrecord : g.type? id = some record) :
    h.planOperator record = g.planOperator record := by
  unfold planOperator
  rw [hgh.mentionedSymbol?_eq hg fun _ hid => hg.type hrecord (.symbol hid)]
  cases hdata : record.data with
  | intersection members =>
    dsimp only
    rw [hgh.planIntersection_eq hg fun _ hmem => hg.typeInData hrecord hdata (.intersection hmem)]
  | _ => rfl

theorem planShape_eq (hid : g.HasType id) : h.planShape id = g.planShape id := by
  unfold planShape
  rw [hgh.type?_eq hid, hgh.baseConstraint?_eq hid, hgh.defaultType?_eq hid]
  cases hrecord : g.type? id with
  | none => rfl
  | some record =>
    dsimp only
    rw [hgh.mentionedSymbol?_eq hg fun _ hid => hg.type hrecord (.symbol hid),
      hgh.planEnum_eq hg hrecord, hgh.planObject_eq hg hid hrecord, hgh.planOperator_eq hg hrecord]

theorem generics_eq (hid : g.HasType id) (kind : NodeKind) :
    h.generics id kind = g.generics id kind := by
  unfold generics
  rw [hgh.type?_eq hid]
  cases hrecord : g.type? id with
  | none => rfl
  | some record =>
    dsimp only
    split
    next aliasSymbol halias =>
      rw [hgh.symbol?_eq (hg.type hrecord (.aliasSymbol halias))]
    split
    · rfl
    split
    · rfl
    next object hobject =>
      split
      next target htarget =>
        have hown : g.object? id = some object := by rw [object?, hrecord]; exact hobject
        rw [hgh.object?_eq (hg.object hown (.target htarget))]
      next => rfl

/-- The plan of a type is the same in the extended graph. -/
theorem plan_eq (hid : g.HasType id) (symbolMeta : Option SymbolMeta) :
    h.plan id symbolMeta = g.plan id symbolMeta := by
  have halias : ∀ symbol, (g.type? id).bind (·.aliasSymbol) = some symbol → g.HasSymbol symbol := by
    intro symbol hsymbol
    obtain ⟨record, hrecord, hsymbol⟩ := Option.bind_eq_some_iff.1 hsymbol
    exact hg.type hrecord (.aliasSymbol hsymbol)
  unfold plan
  dsimp only
  rw [hgh.planShape_eq hg hid, hgh.type?_eq hid, hgh.mentionedSymbol?_eq hg halias,
    hgh.generics_eq hg hid]

/-! ## Walks -/

theorem occurrenceMeta?_eq {place : Occurrence} (hplace : g.HasPlace place) :
    h.occurrenceMeta? place = g.occurrenceMeta? place := by
  unfold occurrenceMeta?
  apply Option.bind_congr
  intro symbol hsymbol
  exact hgh.symbolMeta?_eq hg (hplace.symbol hsymbol) _ _

theorem locationAt?_eq {place : Occurrence} (hplace : g.HasPlace place) (config : TreeConfig)
    (context : WalkContext) :
    h.locationAt? config place context = g.locationAt? config place context := by
  unfold locationAt?
  rw [hgh.definedTypeLocation?_eq hg hplace.type]

/-- By induction on the levels: all children of the node of a type are types of the graph. -/
theorem walk_eq (config : TreeConfig) (levels : Nat) {place : Occurrence}
    (hplace : g.HasPlace place) :
    Walk.walk h config levels place = Walk.walk g config levels place := by
  induction levels generalizing place with
  | zero =>
    funext context
    rw [Walk.walk_zero, Walk.walk_zero, leafOf, leafOf, hgh.occurrenceMeta?_eq hg hplace]
  | succ levels ih =>
    funext context
    have hvisit : Walk.visitPlan h config levels place context =
        Walk.visitPlan g config levels place context := by
      unfold Walk.visitPlan
      rw [hgh.occurrenceMeta?_eq hg hplace, hgh.plan_eq hg hplace.type,
        Layer.mapM_congr fun child hchild =>
          ih (hg.hasPlace_of_mem_plan hplace.type _ child hchild)]
    rw [Walk.walk_succ, Walk.walk_succ, hvisit, hgh.locationAt?_eq hg hplace]
    unfold leafOf
    rw [hgh.occurrenceMeta?_eq hg hplace]

/-- The tree of a type or symbol of the graph is the same in the extended graph. -/
theorem tree_eq {root : TreeRoot} (hroot : g.HasPlace (g.occurrenceOf root)) (config : TreeConfig) :
    h.tree root config = g.tree root config := by
  have hplace : h.occurrenceOf root = g.occurrenceOf root := by
    cases root with
    | symbol symbol =>
      have htype := hgh.typeOf_eq (hroot.symbol rfl)
      unfold occurrenceOf
      dsimp only
      rw [htype]
    | type type | symbolWithType symbol type => rfl
  unfold tree
  rw [hplace, hgh.walk_eq hg config _ hroot]

end Extends

end TypeGraph

end TypeAtlas
