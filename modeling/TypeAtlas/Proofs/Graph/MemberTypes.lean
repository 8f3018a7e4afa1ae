import TypeAtlas.Graph.Builder
import TypeAtlas.Proofs.Graph.Levels
import TypeAtlas.Proofs.Walk.Nodes
/-!
# The types of members

Printing and walking do not ask for the same type of a property or a parameter. A tree shows
`TypeGraph.typeOf`, the first type that is not the error type of the one at the declaration, the one
that is declared and the one of the value; printing takes the last of these at once. So the text of
an object that is printed inline has, for each member, the text of the type of its value
(`TypeGraph.inline_members`). This is the type that a tree shows if no other type comes before it
(`TypeGraph.overridingType?`), and where the member has no type as a value it is printed as `any`
whatever it declares (`TypeGraph.inline_member_declared`).
-/

namespace TypeAtlas

/-! ## Printing in one state -/

namespace Print

variable {α β : Type} {print : Precedence → TypeId → Print String} {q : Printer}
  {T : TypeId → String}

variable (print q T) in
/-- If the computation succeeds in a state, then it gives a value and comes back to the state, and
each of some types is printed in this state by its text. -/
def Writes (types : List TypeId) (x : Print α) (a : α) : Prop :=
  ∀ r, x q = some r → r = (a, q) ∧ ∀ type ∈ types, print .top type q = some (T type, q)

theorem writes_pure (a : α) : Writes print q T [] (pure a) a := by
  intro r h
  exact ⟨(Option.some.inj h).symm, List.forall_mem_nil _⟩

theorem Writes.bind {types more : List TypeId} {x : Print α} {k : α → Print β} {a : α} {b : β}
    (hx : Writes print q T types x a) (hk : Writes print q T more (k a) b) :
    Writes print q T (types ++ more) (x >>= k) b := by
  intro r h
  obtain ⟨⟨a', q'⟩, hxa, hka⟩ := Option.bind_eq_some_iff.1 h
  obtain ⟨heq, htypes⟩ := hx _ hxa
  cases heq
  obtain ⟨hr, hmore⟩ := hk r hka
  exact ⟨hr, List.forall_mem_append.2 ⟨htypes, hmore⟩⟩

theorem Writes.map {types : List TypeId} {x : Print α} {a : α} (hx : Writes print q T types x a)
    (f : α → β) : Writes print q T types (x >>= fun a => pure (f a)) (f a) := by
  have hbind := Writes.bind (k := fun a => pure (f a)) hx (writes_pure (f a))
  rwa [List.append_nil] at hbind

theorem Writes.mapM {types : α → List TypeId} {k : α → Print β} {f : α → β} (as : List α)
    (h : ∀ a ∈ as, Writes print q T (types a) (k a) (f a)) :
    Writes print q T (as.flatMap types) (as.mapM k) (as.map f) := by
  induction as with
  | nil => exact writes_pure []
  | cons a as ih =>
    rw [List.forall_mem_cons] at h
    rw [List.mapM_cons, List.flatMap_cons, List.map_cons]
    exact h.1.bind ((ih h.2).map (f a :: ·))

theorem Writes.mono {types more : List TypeId} {x : Print α} {a : α}
    (hx : Writes print q T types x a) (hsub : more ⊆ types) : Writes print q T more x a :=
  fun r h => (hx r h).imp_right fun htypes type htype => htypes type (hsub htype)

end Print

/-! ## The text of an object -/

namespace TypeGraph

variable (g : TypeGraph)

section

variable (T : TypeId → String) (M : SymbolId → String)

/-- A parameter with its type. -/
def parameterText (parameter : SymbolId) : String :=
  (if g.isRestParameter parameter then "..." else "") ++ (g.symbolName? parameter).getD "arg" ++
    (if g.isOptionalParameter parameter then "?" else "") ++ ": " ++ M parameter

/-- Parameters and a return type. -/
def signatureText (separator : String) (s : Signature) : String :=
  "(" ++ ", ".intercalate (s.parameters.map (g.parameterText M)) ++ ")" ++ separator ++
    T s.returnType

/-- An index signature. -/
def indexText (info : IndexInfo) : String :=
  (if info.isReadonly then "readonly " else "") ++ "[" ++ (g.nameOf? info.parameter).getD "key" ++
    ": " ++ T info.keyType ++ "]: " ++ T info.valueType

/-- A property with its type, if it has a symbol. -/
def propertyText? (property : SymbolId) : Option String :=
  (g.symbol? property).map fun symbol =>
    (if symbol.checkFlags.has CheckFlags.readonly then "readonly " else "") ++ symbol.name ++
      (if symbol.flags.has SymbolFlags.optional then "?" else "") ++ ": " ++ M property

/-- Braces around signatures, index signatures and properties. -/
def bracesText (id : TypeId) : String :=
  Print.braces ((g.callSignatures id).map (g.signatureText T M ": ") ++
    (g.constructSignatures id).map (fun s => "new " ++ g.signatureText T M ": " s) ++
    (g.indexInfos id).map (g.indexText T) ++
    ((g.properties id).map (g.propertyText? M)).reduceOption)

/-- The text of an object, given the texts of types and those of the types of its members. -/
def inlineText (precedence : Precedence) (id : TypeId) : String :=
  match g.properties id, g.indexInfos id, g.constructSignatures id, g.callSignatures id with
  | [], [], [], [call] => Print.parenthesize precedence (g.signatureText T M " => " call)
  | _, _, _, _ => g.bracesText T M id

theorem inlineText_of_arrow (precedence : Precedence) {id : TypeId} {call : Signature}
    (hproperties : g.properties id = []) (hinfos : g.indexInfos id = [])
    (hconstructs : g.constructSignatures id = []) (hcalls : g.callSignatures id = [call]) :
    g.inlineText T M precedence id =
      Print.parenthesize precedence (g.signatureText T M " => " call) := by
  rw [inlineText, hproperties, hinfos, hconstructs, hcalls]

theorem inlineText_of_not_arrow (precedence : Precedence) {id : TypeId}
    (hother : ∀ call, g.properties id = [] → g.indexInfos id = [] →
      g.constructSignatures id = [] → g.callSignatures id = [call] → False) :
    g.inlineText T M precedence id = g.bracesText T M id := by
  unfold inlineText
  split
  next call hproperties hinfos hconstructs hcalls =>
    exact (hother call hproperties hinfos hconstructs hcalls).elim
  next => rfl

end

/-- The signatures of a type. -/
def signatures (id : TypeId) : List Signature :=
  g.callSignatures id ++ g.constructSignatures id

/-- The members of a type: its properties, if they have a symbol, and its parameters. -/
def membersOf (id : TypeId) : List SymbolId :=
  (g.properties id).filter (fun property => (g.symbol? property).isSome) ++
    (g.signatures id).flatMap (·.parameters)

/-- The types in the text of an object: those of its members, of its index signatures, and the
return types. -/
def inlineTypes (id : TypeId) : List TypeId :=
  (g.membersOf id).map g.valueTypeOf ++ (g.signatures id).map (·.returnType) ++
    (g.indexInfos id).flatMap fun info => [info.keyType, info.valueType]

/-- The types in the text of a signature. -/
def signatureTypes (s : Signature) : List TypeId :=
  s.parameters.map g.valueTypeOf ++ [s.returnType]

/-- The type in the text of a property. -/
def propertyTypes (property : SymbolId) : List TypeId :=
  if (g.symbol? property).isSome then [g.valueTypeOf property] else []

/-- The types in the order in which they are printed. -/
theorem inlineTypes_subset (id : TypeId) :
    g.inlineTypes id ⊆ (g.callSignatures id).flatMap g.signatureTypes ++
      ((g.constructSignatures id).flatMap g.signatureTypes ++
        ((g.indexInfos id).flatMap (fun info => [info.keyType, info.valueType]) ++
          (g.properties id).flatMap g.propertyTypes)) := by
  intro type htype
  simp only [inlineTypes, membersOf, signatures, signatureTypes, propertyTypes, List.mem_append,
    List.mem_map, List.mem_filter, List.mem_flatMap] at htype ⊢
  grind

section

variable {g} {print : Precedence → TypeId → Print String} {q : Printer} {T : TypeId → String}
  (hprint : ∀ type, Print.Writes print q T [type] (print .top type) (T type))

include hprint

theorem writes_signature (separator : String) (s : Signature) :
    Print.Writes print q T (g.signatureTypes s)
      (Print.signature g print separator s)
      (g.signatureText T (T ∘ g.valueTypeOf) separator s) := by
  have hparameter : ∀ p ∈ s.parameters, Print.Writes print q T [g.valueTypeOf p] (do
      return (if g.isRestParameter p then "..." else "") ++ (g.symbolName? p).getD "arg" ++
        (if g.isOptionalParameter p then "?" else "") ++ ": " ++
          (← print .top (g.valueTypeOf p)))
      (g.parameterText (T ∘ g.valueTypeOf) p) := fun p _ => (hprint (g.valueTypeOf p)).map _
  have hparameters := (Print.Writes.mapM s.parameters hparameter).map fun texts =>
    "(" ++ ", ".intercalate texts ++ ")"
  rw [← List.map_eq_flatMap] at hparameters
  exact hparameters.bind ((hprint s.returnType).map _)

theorem writes_indexInfo (info : IndexInfo) :
    Print.Writes print q T [info.keyType, info.valueType] (Print.indexInfo g print info)
      (g.indexText T info) :=
  (hprint info.keyType).bind ((hprint info.valueType).map _)

theorem writes_property? (property : SymbolId) :
    Print.Writes print q T (g.propertyTypes property) (Print.property? g print property)
      (g.propertyText? (T ∘ g.valueTypeOf) property) := by
  unfold Print.property? propertyText? propertyTypes
  cases g.symbol? property with
  | none => exact Print.writes_pure none
  | some symbol => exact (hprint (g.valueTypeOf property)).map _

theorem writes_members (id : TypeId) :
    Print.Writes print q T (g.inlineTypes id) (Print.members g print id)
      (g.bracesText T (T ∘ g.valueTypeOf) id) := by
  have hcalls := Print.Writes.mapM (g.callSignatures id) fun s _ =>
    writes_signature (g := g) hprint ": " s
  have hconstructs := Print.Writes.mapM (g.constructSignatures id) fun s _ =>
    (writes_signature (g := g) hprint ": " s).map ("new " ++ ·)
  have hinfos := Print.Writes.mapM (g.indexInfos id) fun info _ =>
    writes_indexInfo (g := g) hprint info
  have hproperties := Print.Writes.mapM (g.properties id) fun property _ =>
    writes_property? (g := g) hprint property
  exact Print.Writes.mono
    (hcalls.bind (hconstructs.bind (hinfos.bind (hproperties.map _)))) (g.inlineTypes_subset id)

/-- An arrow has the types of its only signature, and any other object those of all its members. -/
theorem writes_anonymousObject (precedence : Precedence) (id : TypeId) :
    Print.Writes print q T (g.inlineTypes id) (Print.anonymousObject g print precedence id)
      (g.inlineText T (T ∘ g.valueTypeOf) precedence id) := by
  rw [Print.anonymousObject_eq]
  split
  next call hproperties hinfos hconstructs hcalls =>
    rw [g.inlineText_of_arrow _ _ precedence hproperties hinfos hconstructs hcalls]
    refine ((writes_signature hprint " => " call).map _).mono ?_
    simp [inlineTypes, membersOf, signatures, signatureTypes, hproperties, hinfos, hconstructs,
      hcalls]
  next hother =>
    rw [g.inlineText_of_not_arrow _ _ precedence hother]
    exact writes_members hprint id

end

/-! ## Objects that are printed inline -/

/-- Whether a type is printed by its members: no alias and no name stands for it, and it is an
object that is neither an array nor a tuple. -/
def isInline (id : TypeId) : Bool :=
  match g.type? id with
  | none => false
  | some record =>
    (g.nameOf? record.aliasSymbol).isNone && !record.flags.has TypeFlags.boolean &&
      ((Print.enumMemberName? g record).or (Print.enumName? g record)).isNone &&
      record.object?.isSome && !g.isArray id && !g.isTuple id &&
      ((g.nameOf? record.symbol).isNone ||
        !(g.objectFlags id).meets (ObjectFlags.classOrInterface ||| ObjectFlags.reference) &&
          !g.isClassSymbol record.symbol)

/-- What is known of a type that is printed by its members. -/
structure PrintsInline (id : TypeId) (record : TypeRecord) : Prop where
  type : g.type? id = some record
  aliasName : g.nameOf? record.aliasSymbol = none
  boolean : record.flags.has TypeFlags.boolean = false
  enumName : (Print.enumMemberName? g record).or (Print.enumName? g record) = none
  data : ∃ object, record.data = .object object
  array : g.isArray id = false
  tuple : g.isTuple id = false
  name : g.nameOf? record.symbol = none ∨
    (g.objectFlags id).meets (ObjectFlags.classOrInterface ||| ObjectFlags.reference) = false ∧
      g.isClassSymbol record.symbol = false

variable {g} {id : TypeId} {record : TypeRecord}

theorem exists_printsInline (h : g.isInline id = true) : ∃ record, g.PrintsInline id record := by
  unfold isInline at h
  split at h
  next => cases h
  next record hrecord =>
    simp only [Bool.and_eq_true, Option.isNone_iff_eq_none, Bool.not_eq_true', Bool.or_eq_true] at h
    obtain ⟨⟨⟨⟨⟨⟨halias, hboolean⟩, henum⟩, hobject⟩, harray⟩, htuple⟩, hname⟩ := h
    have hdata : ∃ object, record.data = .object object := by
      cases hdata : record.data with
      | object o => exact ⟨o, rfl⟩
      | _ =>
        rw [TypeRecord.object?, hdata] at hobject
        cases hobject
    exact ⟨record, hrecord, halias, hboolean, henum, hdata, harray, htuple, hname⟩

namespace PrintsInline

variable (h : g.PrintsInline id record)

include h

theorem object_eq (print : Precedence → TypeId → Print String) (precedence : Precedence) :
    Print.object g print precedence id =
      Print.nested id (Print.anonymousObject g print precedence id) := by
  have hsymbol : (g.type? id).bind (·.symbol) = record.symbol := by rw [h.type, Option.bind_some]
  unfold Print.object
  dsimp only
  rw [hsymbol, h.array, h.tuple]
  rcases h.name with hnone | ⟨hflags, hclass⟩
  · rw [hnone]
    rfl
  · have hclass : ((record.symbol.bind g.symbol?).map (·.flags.has SymbolFlags.class')).getD false =
        false := hclass
    rw [hflags, hclass]
    cases g.nameOf? record.symbol <;> rfl

/-- It is printed as an anonymous object. -/
theorem print_succ (levels : Nat) (precedence : Precedence) :
    g.print (levels + 1) precedence id =
      Print.nested id (Print.anonymousObject g (g.print levels) precedence id) := by
  obtain ⟨object, hdata⟩ := h.data
  have hstructure : Print.structure' g (g.print levels) precedence id record =
      Print.object g (g.print levels) precedence id := by
    rw [Print.structure', hdata]
  rw [print, Print.record, h.type]
  simp only [h.aliasName, h.boolean, h.enumName]
  exact hstructure.trans (h.object_eq _ precedence)

/-- Unless it is cut, its text has the texts of the types of its members as values. -/
theorem text_eq {levels : Nat} {precedence : Precedence} {p q : Printer} {text : String}
    (hdepth : p.depth < Printer.depthLimit) (hnew : id ∉ p.inProgress)
    (hprint : g.print (levels + 1) precedence id p = some (text, q)) :
    ∃ T : TypeId → String,
      (∀ type ∈ g.inlineTypes id,
        g.print levels .top type (p.enter id) = some (T type, p.enter id)) ∧
      text = g.inlineText T (T ∘ g.valueTypeOf) precedence id := by
  let T (type : TypeId) : String := ((g.print levels .top type (p.enter id)).map Prod.fst).getD ""
  have hwrites : ∀ type, Print.Writes (g.print levels) (p.enter id) T [type]
      (g.print levels .top type) (T type) := by
    rintro type ⟨typeText, q'⟩ htype
    obtain rfl := print_restores htype
    have hT : T type = typeText := by simp only [T, htype, Option.map_some, Option.getD_some]
    rw [hT]
    exact ⟨rfl, List.forall_mem_singleton.2 (htype.trans (by rw [hT]))⟩
  have hcut : ¬(Printer.depthLimit ≤ p.depth || p.inProgress.contains id) = true := by
    simp [hnew, hdepth]
  rw [h.print_succ, Print.nested_eq, if_neg hcut] at hprint
  obtain ⟨⟨inside, q'⟩, hinside, heq⟩ := Option.map_eq_some_iff.1 hprint
  obtain ⟨hresult, htypes⟩ := writes_anonymousObject hwrites precedence id _ hinside
  exact ⟨T, htypes, (congrArg Prod.fst heq).symm.trans (congrArg Prod.fst hresult)⟩

end PrintsInline

/-! ## The type that a tree shows for a member -/

variable (g)

/-- The type that comes before the type of the value of a symbol: one that is recorded at its
declaration, or else the one that it declares, unless the declaration stands for the value. The
error type says nothing. -/
def overridingType? (symbol : SymbolId) : Option TypeId :=
  let declared := ((g.symbol? symbol).bind (·.declaredType)).filter (· != .error)
  match (g.symbol? symbol).bind (·.primaryDeclaration?) with
  | none => declared
  | some declaration =>
    match declaration.typeAtLocation with
    | none => if g.valueTypeOf symbol = .error then declared else none
    | some recorded => if recorded = .error then declared else some recorded

/-- A type that is not the error type is found first, and the error type is passed over. -/
theorem find?_first (first : TypeId) (rest : List TypeId) :
    ((first :: rest).find? (· != .error)).getD .error =
      if first = .error then (rest.find? (· != .error)).getD .error else first := by
  by_cases hfirst : first = .error <;> simp [hfirst]

theorem find?_declared (declared : Option TypeId) (value : TypeId) :
    ([declared.getD .error, value].find? (· != .error)).getD .error =
      (declared.filter (· != .error)).getD value := by
  have hvalue : ([value].find? (· != .error)).getD .error = value := by
    rw [find?_first]
    split
    next h => exact h.symm
    next => rfl
  rw [find?_first, hvalue]
  cases declared with
  | none => rfl
  | some type =>
    rw [Option.getD_some, Option.filter_some]
    by_cases htype : type = .error <;> simp [htype]

theorem typeOf_eq (symbol : SymbolId) :
    g.typeOf symbol = (g.overridingType? symbol).getD (g.valueTypeOf symbol) := by
  unfold typeOf overridingType?
  dsimp only
  rw [declaredTypeOf]
  cases (g.symbol? symbol).bind (·.primaryDeclaration?) with
  | none => exact find?_declared _ _
  | some declaration =>
    rw [Option.map_some, Option.toList_some, List.singleton_append, find?_first, find?_declared,
      typeAtDeclaration]
    cases hlocated : declaration.typeAtLocation with
    | none =>
      change (if g.valueTypeOf symbol = .error then _ else g.valueTypeOf symbol) = _
      simp only [hlocated]
      split <;> rfl
    | some recorded =>
      change (if recorded = .error then _ else recorded) = _
      simp only [hlocated]
      split <;> rfl

/-- The members that a node of some kind shows: properties or parameters. -/
def shownMembers (kind : NodeKind) (id : TypeId) : List SymbolId :=
  match kind with
  | .function => (g.signatures id).flatMap (·.parameters)
  | .object | .class' | .interface => g.properties id
  | _ => []

end TypeGraph

/-- The children of a node that stand for members. -/
def Shape.members {α : Type} : Shape α → List α
  | .function signatures => signatures.flatMap (·.parameters)
  | .object properties _ _ => properties
  | .class' members => members.properties
  | .interface members => members.properties
  | _ => []

theorem Shape.members_map {α β : Type} (f : α → β) (s : Shape α) :
    (s.map f).members = s.members.map f := by
  cases s with
  | function signatures =>
    simp only [map, members, List.flatMap_map, List.map_flatMap]
    rfl
  | _ => rfl

namespace TypeGraph

namespace PrintsInline

variable {g : TypeGraph} {id : TypeId} {record : TypeRecord} (h : g.PrintsInline id record)

include h

/-- It is not the constructor side of a class, which has a name. -/
theorem isConstructorSide : g.isConstructorSide record = false := by
  have hclass : g.isClassSymbol record.symbol = false := by
    rcases h.name with hnone | ⟨-, hclass⟩
    · rw [isClassSymbol]
      cases hsymbol : record.symbol.bind g.symbol? with
      | none => rfl
      | some symbol =>
        obtain ⟨s, hs, hrecord⟩ := Option.bind_eq_some_iff.1 hsymbol
        rw [hs, nameOf?, Option.bind_some, symbolName?, hrecord] at hnone
        cases hnone
    · exact hclass
  rw [TypeGraph.isConstructorSide, hclass, Bool.false_and]

theorem members_planObject :
    (g.planObject id record).members.map (·.type) =
      (g.shownMembers (g.planObject id record).kind id).map g.typeOf := by
  have hsignatures : g.functionSignatures id record = g.signatures id := by
    rw [functionSignatures, h.isConstructorSide]
    rfl
  have hproperties : ∀ inside, ((g.properties id).map (g.member inside)).map (·.type) =
      (g.properties id).map g.typeOf := fun inside => List.map_map
  unfold planObject
  dsimp only
  rw [hsignatures, h.array, h.tuple]
  split
  next =>
    simp only [Shape.members, shownMembers, Shape.kind, List.flatMap_map, List.map_flatMap]
    exact List.flatMap_congr fun s _ => List.map_map
  next =>
    simp only [Bool.false_eq_true, if_false]
    split
    · exact hproperties true
    split
    · exact hproperties true
    · exact hproperties false

/-- The node that is planned for it shows the members of an object, or none. -/
theorem members_planShape :
    (g.planShape id).members.map (·.type) =
      (g.shownMembers (g.planShape id).kind id).map g.typeOf := by
  obtain ⟨object, hdata⟩ := h.data
  have hobject := h.members_planObject
  have henum : (g.planEnum record).members = [] ∧
      g.shownMembers (g.planEnum record).kind id = [] := by
    unfold planEnum
    rw [hdata]
    dsimp only
    split <;> exact ⟨rfl, rfl⟩
  have hoperator : (g.planOperator record).members = [] ∧
      g.shownMembers (g.planOperator record).kind id = [] := by
    unfold planOperator
    rw [hdata]
    dsimp only
    split <;> exact ⟨rfl, rfl⟩
  unfold planShape
  rw [h.type]
  dsimp only
  rw [hdata]
  split
  · rfl
  split
  · split <;> rfl
  split
  · rfl
  split
  · rw [henum.1, henum.2]
    rfl
  split
  · rfl
  split
  · rfl
  split
  · exact hobject
  · rw [hoperator.1, hoperator.2]
    rfl

end PrintsInline

section

variable {g : TypeGraph} {id : TypeId}

/-- Every member that a node of an object shows has the type that a tree shows for its symbol. -/
theorem IsNode.members {config : TreeConfig} {n : TypeTree} (hn : g.IsNode config n)
    {record : TypeRecord} (h : g.PrintsInline n.id record) :
    n.shape.members.map TypeTree.id = (g.shownMembers n.shape.kind n.id).map g.typeOf := by
  cases hn with
  | cut | met | declared => rfl
  | @shown layer hlayer =>
    have hshape : layer.shape.map TypeTree.label = (g.planShape layer.id).map g.labelOf :=
      congrArg Layer.shape hlayer
    have hkind : layer.shape.kind = (g.planShape layer.id).kind := by
      rw [← Shape.kind_map TypeTree.label, hshape, Shape.kind_map]
    have hmembers := congrArg (fun shape => shape.members.map Prod.fst) hshape
    simp only [Shape.members_map, List.map_map] at hmembers
    change layer.shape.members.map TypeTree.id =
      (g.shownMembers layer.shape.kind layer.id).map g.typeOf
    rw [hkind]
    exact hmembers.trans h.members_planShape

theorem signatureText_congr {T : TypeId → String} {M M' : SymbolId → String} {s : Signature}
    (h : ∀ p ∈ s.parameters, M p = M' p) (separator : String) :
    g.signatureText T M separator s = g.signatureText T M' separator s := by
  have hparameters : s.parameters.map (g.parameterText M) =
      s.parameters.map (g.parameterText M') :=
    List.map_congr_left fun p hp => by rw [parameterText, parameterText, h p hp]
  rw [signatureText, signatureText, hparameters]

theorem propertyText?_congr {M M' : SymbolId → String} {property : SymbolId}
    (h : (g.symbol? property).isSome = true → M property = M' property) :
    g.propertyText? M property = g.propertyText? M' property := by
  rw [propertyText?, propertyText?]
  cases hsymbol : g.symbol? property with
  | none => rfl
  | some symbol => rw [h (by rw [hsymbol]; rfl)]

/-- The text of an object depends on the texts for its members only. -/
theorem inlineText_congr {M M' : SymbolId → String} (h : ∀ s ∈ g.membersOf id, M s = M' s)
    (T : TypeId → String) (precedence : Precedence) :
    g.inlineText T M precedence id = g.inlineText T M' precedence id := by
  have hsignature : ∀ s ∈ g.signatures id, ∀ separator,
      g.signatureText T M separator s = g.signatureText T M' separator s := fun s hs =>
    signatureText_congr fun p hp =>
      h p (List.mem_append_right _ (List.mem_flatMap.2 ⟨s, hs, hp⟩))
  have hcalls : ∀ s ∈ g.callSignatures id, ∀ separator,
      g.signatureText T M separator s = g.signatureText T M' separator s :=
    fun s hs => hsignature s (List.mem_append_left _ hs)
  have hconstructs : ∀ s ∈ g.constructSignatures id,
      "new " ++ g.signatureText T M ": " s = "new " ++ g.signatureText T M' ": " s :=
    fun s hs => congrArg ("new " ++ ·) (hsignature s (List.mem_append_right _ hs) ": ")
  have hproperties : ∀ property ∈ g.properties id,
      g.propertyText? M property = g.propertyText? M' property := fun property hproperty =>
    propertyText?_congr fun hsome =>
      h property (List.mem_append_left _ (List.mem_filter.2 ⟨hproperty, hsome⟩))
  have hbraces : g.bracesText T M id = g.bracesText T M' id := by
    rw [bracesText, bracesText, List.map_congr_left fun s hs => hcalls s hs ": ",
      List.map_congr_left hconstructs, List.map_congr_left hproperties]
  unfold inlineText
  split
  next call _ _ _ hcall =>
    rw [hcalls call (hcall ▸ List.mem_singleton_self call)]
  next => exact hbraces

/-- An object that is printed inline, and not cut, is printed with the types that its members have
as values. These are the types that trees show for the members unless another type comes first. -/
theorem inline_members {levels : Nat} {precedence : Precedence} {p q : Printer} {text : String}
    (hinline : g.isInline id = true) (hdepth : p.depth < Printer.depthLimit)
    (hnew : id ∉ p.inProgress) (hprint : g.print (levels + 1) precedence id p = some (text, q)) :
    (∃ T : TypeId → String,
      (∀ type ∈ g.inlineTypes id,
        g.print levels .top type (p.enter id) = some (T type, p.enter id)) ∧
      text = g.inlineText T (T ∘ g.valueTypeOf) precedence id ∧
      ((∀ s ∈ g.membersOf id, g.typeOf s = g.valueTypeOf s) →
        text = g.inlineText T (T ∘ g.typeOf) precedence id)) ∧
    (∀ s ∈ g.membersOf id, g.typeOf s = g.valueTypeOf s ↔
      ∀ type, g.overridingType? s = some type → type = g.valueTypeOf s) ∧
    ∀ root config, ∀ n ∈ (g.tree root config).preorder, n.id = id →
      n.shape.members.map TypeTree.id = (g.shownMembers n.shape.kind id).map g.typeOf := by
  obtain ⟨record, h⟩ := exists_printsInline hinline
  refine ⟨?_, fun s _ => ?_, ?_⟩
  · obtain ⟨T, htypes, htext⟩ := h.text_eq hdepth hnew hprint
    refine ⟨T, htypes, htext, fun hsame => htext.trans (inlineText_congr (fun s hs => ?_) T _)⟩
    exact congrArg T (hsame s hs).symm
  · rw [typeOf_eq]
    cases g.overridingType? s with
    | none => exact ⟨fun _ _ h => absurd h nofun, fun _ => rfl⟩
    | some type => exact ⟨fun h _ htype => Option.some.inj htype ▸ h, fun h => h type rfl⟩
  · rintro root config n hn rfl
    exact (g.isNode_tree root config hn).members h

end

end TypeGraph

/-! ## Two objects -/

namespace Build

/-- An object with a property whose declaration records the type of its value, and a method. -/
def plainMembers : Build TypeId := do
  let a ← property "a" .number
  declare a
    { kind := .property, location := .point "main.ts" ⟨0, 0⟩, typeAtLocation := some .number }
  let f ← property "f" (← function [← parameter "x" .string] .void)
  object [a, f]

/-- An object with a property that declares a type and has none as a value. -/
def declaredMember : Build TypeId := do
  let a ← createSymbol "a" SymbolFlags.property
  setDeclaredType a .number
  object [a]

end Build

namespace TypeGraph

open Build

/-- Both members have the types that a tree shows. -/
theorem inline_members_plainMembers :
    let id := (plainMembers .initial).1
    let g := (plainMembers .initial).2
    g.isInline id = true ∧
    g.print 4 .top id {} = some ("\x7b a: number; f: (x: string) => void; \x7d", {}) ∧
    (∀ s ∈ g.membersOf id, g.typeOf s = g.valueTypeOf s) ∧
    ∃ T : TypeId → String,
      (∀ type ∈ g.inlineTypes id, g.print 3 .top type (({} : Printer).enter id) =
        some (T type, ({} : Printer).enter id)) ∧
      "\x7b a: number; f: (x: string) => void; \x7d" = g.inlineText T (T ∘ g.typeOf) .top id := by
  have hinline : (plainMembers .initial).2.isInline (plainMembers .initial).1 = true := by
    decide +kernel
  have hprint : (plainMembers .initial).2.print 4 .top (plainMembers .initial).1 {} =
      some ("\x7b a: number; f: (x: string) => void; \x7d", {}) := by decide +kernel
  have hsame : ∀ s ∈ (plainMembers .initial).2.membersOf (plainMembers .initial).1,
      (plainMembers .initial).2.typeOf s = (plainMembers .initial).2.valueTypeOf s := by
    decide +kernel
  obtain ⟨⟨T, htypes, -, htext⟩, -⟩ :=
    inline_members hinline (by decide) List.not_mem_nil hprint
  exact ⟨hinline, hprint, hsame, T, htypes, htext hsame⟩

/-- The property is printed as `any`, although trees show the type that it declares. -/
theorem inline_member_declared :
    let id := (declaredMember .initial).1
    let g := (declaredMember .initial).2
    g.isInline id = true ∧
    g.typeText id = "\x7b a: any; \x7d" ∧
    (g.membersOf id).map (fun s => g.typeText (g.typeOf s)) = ["number"] ∧
    (g.tree (.type id) {}).shape.members.map TypeTree.id = [.number] ∧
    g.inlineText g.typeText (g.typeText ∘ g.typeOf) .top id = "\x7b a: number; \x7d" := by
  decide +kernel

end TypeGraph

end TypeAtlas
