import Mathlib.Logic.Relation
import TypeAtlas.Proofs.Merge.WellFormed
/-!
# What the builders can make

A graph is built if some sequence of builders leads to it from the initial graph, each of them given
handles of records that are there when it is called (`TypeGraph.Built`). In such a graph nothing
dangles, and the intrinsic types are in their places; it can be saved and loaded again
(`TypeGraph.Built.intact`).
-/

namespace TypeAtlas

namespace TypeGraph

/-- A builder is called, with handles of records that are there. -/
inductive Step (g : TypeGraph) : TypeGraph → Prop
  | createSymbol (name : String) (flags : SymbolFlags) :
    Step g (Build.createSymbol name flags g).2
  | declare {symbol : SymbolId} (hsymbol : g.HasSymbol symbol) {declaration : Declaration}
    (htype : ∀ id ∈ declaration.typeAtLocation, g.HasType id) :
    Step g (Build.declare symbol declaration g).2
  | setSymbolType {symbol : SymbolId} (hsymbol : g.HasSymbol symbol) {type : TypeId}
    (htype : g.HasType type) : Step g (Build.setSymbolType symbol type g).2
  | variableAt (name : String) {type : TypeId} (htype : g.HasType type) (location : Location) :
    Step g (Build.variableAt name type location g).2
  | property (name : String) {type : TypeId} (htype : g.HasType type) :
    Step g (Build.property name type g).2
  | optionalProperty (name : String) {type : TypeId} (htype : g.HasType type) :
    Step g (Build.optionalProperty name type g).2
  | readonlyProperty (name : String) {type : TypeId} (htype : g.HasType type) :
    Step g (Build.readonlyProperty name type g).2
  | parameter (name : String) {type : TypeId} (htype : g.HasType type) :
    Step g (Build.parameter name type g).2
  | literalString (value : String) : Step g (Build.literalString value g).2
  | literalNumber (value : Double) : Step g (Build.literalNumber value g).2
  | literalBigInt (value : BigInt) : Step g (Build.literalBigInt value g).2
  | uniqueSymbol {symbol : SymbolId} (hsymbol : g.HasSymbol symbol) :
    Step g (Build.uniqueSymbol symbol g).2
  | newObjectType (objectFlags : ObjectFlags) {symbol : Option SymbolId}
    (hsymbol : ∀ id ∈ symbol, g.HasSymbol id) :
    Step g (Build.newObjectType objectFlags symbol g).2
  | setObjectMembers {id : TypeId} (hid : g.HasType id) {members : ObjectMembers}
    (hmembers : g.HoldsAll (ObjectType.Stores { toObjectMembers := members })) :
    Step g (Build.setObjectMembers id members g).2
  | object {properties : List SymbolId} (hproperties : ∀ p ∈ properties, g.HasSymbol p) :
    Step g (Build.object properties g).2
  | objectWithIndex {properties : List SymbolId} (hproperties : ∀ p ∈ properties, g.HasSymbol p)
    {keyType valueType : TypeId} (hkeyType : g.HasType keyType)
    (hvalueType : g.HasType valueType) :
    Step g (Build.objectWithIndex properties keyType valueType g).2
  | instantiate {target : TypeId} (htarget : g.HasType target) {typeArguments : List TypeId}
    (harguments : ∀ id ∈ typeArguments, g.HasType id) :
    Step g (Build.instantiate target typeArguments g).2
  | arrayOf {element : TypeId} (helement : g.HasType element) :
    Step g (Build.arrayOf element g).2
  | readonlyArrayOf {element : TypeId} (helement : g.HasType element) :
    Step g (Build.readonlyArrayOf element g).2
  | tuple {elements : List TypeId} (helements : ∀ id ∈ elements, g.HasType id)
    (shape : TupleShape) : Step g (Build.tuple elements shape g).2
  | signature {parameters : List SymbolId} (hparameters : ∀ p ∈ parameters, g.HasSymbol p)
    {returnType : TypeId} (hreturnType : g.HasType returnType) :
    Step g (Build.signature parameters returnType g).2
  | functionWithSignatures {callSignatures : List Signature}
    (hcalls : ∀ s ∈ callSignatures, g.HoldsAll s.Stores) :
    Step g (Build.functionWithSignatures callSignatures g).2
  | function {parameters : List SymbolId} (hparameters : ∀ p ∈ parameters, g.HasSymbol p)
    {returnType : TypeId} (hreturnType : g.HasType returnType) :
    Step g (Build.function parameters returnType g).2
  | functionDeclaration (name : String) {parameters : List SymbolId}
    (hparameters : ∀ p ∈ parameters, g.HasSymbol p) {returnType : TypeId}
    (hreturnType : g.HasType returnType) (location : Location) :
    Step g (Build.functionDeclaration name parameters returnType location g).2
  | typeParameter (name : String) {constraint default : Option TypeId}
    (hconstraint : ∀ id ∈ constraint, g.HasType id) (hdefault : ∀ id ∈ default, g.HasType id) :
    Step g (Build.typeParameter name constraint default g).2
  | interface (name : String) {properties : List SymbolId}
    (hproperties : ∀ p ∈ properties, g.HasSymbol p) {baseTypes : List TypeId}
    (hbases : ∀ id ∈ baseTypes, g.HasType id) :
    Step g (Build.interface name properties baseTypes g).2
  | class' (name : String) {properties : List SymbolId}
    (hproperties : ∀ p ∈ properties, g.HasSymbol p) {constructorParameters : List SymbolId}
    (hparameters : ∀ p ∈ constructorParameters, g.HasSymbol p) {baseType : Option TypeId}
    (hbase : ∀ id ∈ baseType, g.HasType id) {implementsTypes : List TypeId}
    (himplements : ∀ id ∈ implementsTypes, g.HasType id) :
    Step g (Build.class' name properties constructorParameters baseType implementsTypes g).2
  | enum (name : String) (members : List (String × EnumValue)) :
    Step g (Build.enum name members g).2
  | typeAlias (name : String) {type : TypeId} (htype : g.HasType type)
    {typeParameters : List TypeId} (hparameters : ∀ id ∈ typeParameters, g.HasType id) :
    Step g (Build.typeAlias name type typeParameters g).2
  | union {types : List TypeId} (htypes : ∀ id ∈ types, g.HasType id) :
    Step g (Build.union types g).2
  | intersection {types : List TypeId} (htypes : ∀ id ∈ types, g.HasType id) :
    Step g (Build.intersection types g).2
  | keyof {target : TypeId} (htarget : g.HasType target) : Step g (Build.keyof target g).2
  | indexedAccess {objectType indexType : TypeId} (hobjectType : g.HasType objectType)
    (hindexType : g.HasType indexType) : Step g (Build.indexedAccess objectType indexType g).2
  | conditional {checkType extendsType : TypeId} {trueType falseType : Option TypeId}
    (hcheckType : g.HasType checkType) (hextendsType : g.HasType extendsType)
    (htrueType : ∀ id ∈ trueType, g.HasType id) (hfalseType : ∀ id ∈ falseType, g.HasType id) :
    Step g (Build.conditional checkType extendsType trueType falseType g).2
  | substitution {baseType constraint : TypeId} (hbaseType : g.HasType baseType)
    (hconstraint : g.HasType constraint) : Step g (Build.substitution baseType constraint g).2
  | templateLiteral (texts : List String) {types : List TypeId}
    (htypes : ∀ id ∈ types, g.HasType id) : Step g (Build.templateLiteral texts types g).2
  | stringMapping (name : String) {target : TypeId} (htarget : g.HasType target) :
    Step g (Build.stringMapping name target g).2
  | newPropertySymbol (name : String) (flags : SymbolFlags) (checkFlags : CheckFlags)
    {type : TypeId} (htype : g.HasType type) {declarations : List Declaration}
    (hdeclarations : ∀ declaration ∈ declarations, ∀ id ∈ declaration.typeAtLocation,
      g.HasType id) :
    Step g (Build.newPropertySymbol name flags checkFlags type declarations g).2
  | cloneWithoutAlias {id : TypeId} (hid : g.HasType id) :
    Step g (Build.cloneWithoutAlias id g).2
  | expand {type : TypeId} (htype : g.HasType type) (config : TreeConfig) :
    Step g (Build.expand type config g).2

/-- A graph made by builders. -/
def Built (g : TypeGraph) : Prop :=
  Relation.ReflTransGen Step initial g

open Build in
theorem WellFormed.step {g h : TypeGraph} (hg : g.WellFormed) (hstep : g.Step h) :
    h.WellFormed := by
  have hrun : ∀ {α : Type} {x : Build α} {Q : TypeGraph → α → Prop}, Build.Yields x g Q →
      (x g).2.WellFormed := fun hx => (hx g (refl_of Grows g) hg).1
  cases hstep with
  | createSymbol name flags => exact hrun (yields_createSymbol name flags)
  | @declare symbol _ _ htype => exact hrun (yields_declare symbol htype)
  | @setSymbolType symbol _ _ htype => exact hrun (yields_setSymbolType symbol htype)
  | variableAt name htype location => exact hrun (yields_variableAt name htype location)
  | property name htype => exact hrun (yields_property name htype)
  | optionalProperty name htype => exact hrun (yields_optionalProperty name htype)
  | readonlyProperty name htype => exact hrun (yields_readonlyProperty name htype)
  | parameter name htype => exact hrun (yields_parameter name htype)
  | literalString value => exact hrun (yields_literalString value)
  | literalNumber value => exact hrun (yields_literalNumber value)
  | literalBigInt value => exact hrun (yields_literalBigInt value)
  | uniqueSymbol hsymbol => exact hrun (yields_uniqueSymbol hsymbol)
  | newObjectType objectFlags hsymbol => exact hrun (yields_newObjectType objectFlags hsymbol)
  | @setObjectMembers id _ _ hmembers => exact hrun (yields_setObjectMembers id hmembers)
  | object hproperties => exact hrun (yields_object hproperties)
  | objectWithIndex hproperties hkeyType hvalueType =>
    exact hrun (yields_objectWithIndex hproperties hkeyType hvalueType)
  | instantiate htarget harguments => exact hrun (yields_instantiate htarget harguments)
  | arrayOf helement => exact hrun (yields_arrayOf helement)
  | readonlyArrayOf helement => exact hrun (yields_readonlyArrayOf helement)
  | tuple helements shape => exact hrun (yields_tuple helements shape)
  | signature hparameters hreturnType => exact hrun (yields_signature hparameters hreturnType)
  | functionWithSignatures hcalls => exact hrun (yields_functionWithSignatures hcalls)
  | function hparameters hreturnType => exact hrun (yields_function hparameters hreturnType)
  | functionDeclaration name hparameters hreturnType location =>
    exact hrun (yields_functionDeclaration name hparameters hreturnType location)
  | typeParameter name hconstraint hdefault =>
    exact hrun (yields_typeParameter name hconstraint hdefault)
  | interface name hproperties hbases => exact hrun (yields_interface name hproperties hbases)
  | class' name hproperties hparameters hbase himplements =>
    exact hrun (yields_class name hproperties hparameters hbase himplements)
  | enum name members => exact hrun (yields_enum name members)
  | typeAlias name htype hparameters => exact hrun (yields_typeAlias name htype hparameters)
  | union htypes => exact hrun (yields_union htypes)
  | intersection htypes => exact hrun (yields_intersection htypes)
  | keyof htarget => exact hrun (yields_keyof htarget)
  | indexedAccess hobjectType hindexType =>
    exact hrun (yields_indexedAccess hobjectType hindexType)
  | conditional hcheckType hextendsType htrueType hfalseType =>
    exact hrun (yields_conditional hcheckType hextendsType htrueType hfalseType)
  | substitution hbaseType hconstraint => exact hrun (yields_substitution hbaseType hconstraint)
  | templateLiteral texts htypes => exact hrun (yields_templateLiteral texts htypes)
  | stringMapping name htarget => exact hrun (yields_stringMapping name htarget)
  | newPropertySymbol name flags checkFlags htype hdeclarations =>
    exact hrun (yields_newPropertySymbol name flags checkFlags htype hdeclarations)
  | cloneWithoutAlias hid => exact hrun (yields_cloneWithoutAlias hid)
  | expand htype config => exact hrun (yields_expand htype config)

theorem wellFormed_initial : initial.WellFormed := by
  decide +kernel

/-- By induction on the builders that were called. -/
theorem Built.wellFormed {g : TypeGraph} (h : g.Built) : g.WellFormed := by
  induction h with
  | refl => exact wellFormed_initial
  | tail _ hstep ih => exact ih.step hstep

/-- **Builders leave graphs intact.** In a graph made by builders, every handle that is stored
anywhere leads to a record, every value declaration is one of the declarations of its symbol, and
the intrinsic types have the flags and the structure that they had in the beginning. So the graph is
accepted when its snapshot is loaded. -/
theorem Built.intact {g : TypeGraph} (h : g.Built) :
    (∀ role handle, g.Stores role handle → g.Holds handle) ∧
      (∀ symbol ∈ g.symbols, ∀ n ∈ symbol.valueDeclaration,
        n.toNat < symbol.declarations.length) ∧
      (∀ n < TypeId.intrinsicCount, ∃ record original, g.types[n]? = some record ∧
        initial.types[n]? = some original ∧ record.flags = original.flags ∧
        record.data = original.data) ∧
      g.validate = .ok () := by
  have hg := h.wellFormed
  refine ⟨fun _ _ => hg.holds, hg.declaresValue, fun n hn => ?_,
    (inBounds_iff_validate g).1 hg.closed.inBounds⟩
  have hrecord := Array.getElem?_eq_getElem (hn.trans_le hg.intrinsicCount_le)
  have horiginal := Array.getElem?_eq_getElem (hn.trans_le wellFormed_initial.intrinsicCount_le)
  have hnature := (hg.intrinsics n hn).trans (wellFormed_initial.intrinsics n hn).symm
  rw [hrecord, horiginal, Option.map_some, Option.map_some, Option.some.injEq] at hnature
  exact ⟨_, _, hrecord, horiginal, congrArg Prod.fst hnature, congrArg Prod.snd hnature⟩

/-- A graph in which `string` has an alias and an object was expanded. Its property has a type that
is an interface and `string` at once. -/
def expandedGraph : TypeGraph :=
  let g := (Build.interface "I" [] [] initial).2
  let g := (Build.intersection [⟨20⟩, .string] g).2
  let g := (Build.property "p" ⟨21⟩ g).2
  let g := (Build.object [⟨7⟩] g).2
  let g := (Build.typeAlias "Text" .string [] g).2
  (Build.expand ⟨22⟩ {} g).2

theorem built_expandedGraph : expandedGraph.Built := by
  refine .tail ?_ (.expand (by decide +kernel) {})
  refine .tail ?_ (.typeAlias "Text" (by decide +kernel) (by decide))
  refine .tail ?_ (.object (by decide +kernel))
  refine .tail ?_ (.property "p" (by decide +kernel))
  refine .tail ?_ (.intersection (by decide +kernel))
  exact .tail .refl (.interface "I" (by decide) (by decide))

theorem intact_expandedGraph :
    expandedGraph.Built ∧
      (∀ role handle, expandedGraph.Stores role handle → expandedGraph.Holds handle) ∧
      (∀ symbol ∈ expandedGraph.symbols, ∀ n ∈ symbol.valueDeclaration,
        n.toNat < symbol.declarations.length) ∧
      (∀ n < TypeId.intrinsicCount, ∃ record original, expandedGraph.types[n]? = some record ∧
        initial.types[n]? = some original ∧ record.flags = original.flags ∧
        record.data = original.data) ∧
      expandedGraph.validate = .ok () :=
  ⟨built_expandedGraph, built_expandedGraph.intact⟩

end TypeGraph

end TypeAtlas
