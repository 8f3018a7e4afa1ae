import TypeAtlas.Proofs.Merge.Growth
import TypeAtlas.Proofs.Merge.Text
import TypeAtlas.Proofs.Graph.Properties
/-!
# The properties of a merged object

The properties of several objects are merged one name after the other, each in the state that the
ones before it lead to (`Merge.mergeProperties_append`). What is made has the names of the groups
and the merged types (`Merge.hasValue_property`), and as the names are different, these are all
properties of the object (`TypeGraph.properties_of_merged`).
-/

namespace TypeAtlas

open TypeGraph

namespace TypeGraph

/-- An object that extends nothing has its own properties. -/
theorem properties_of_merged {g : TypeGraph} {id : TypeId} {members : ObjectMembers}
    (h : g.type? id = some (mergedRecord members))
    (hdistinct : g.DistinctNames members.properties) : g.properties id = members.properties := by
  have hdata : g.data? id = some (.object { toObjectMembers := members }) :=
    data?_of_object? (object?_of_merged h)
  rw [properties, collect_succ, if_neg (by simp), collectAt, hdata]
  dsimp only
  rw [resolvedObject?_of_merged h]
  exact foldl_pushUnique_of_distinct hdistinct

/-- A symbol with a name and a type as a value. -/
def HasValue (g : TypeGraph) (symbol : SymbolId) (name : String) (type : TypeId) : Prop :=
  ∃ record, g.symbol? symbol = some record ∧ record.name = name ∧ record.valueType = some type

namespace HasValue

variable {g h : TypeGraph} {symbol : SymbolId} {name : String} {type : TypeId}

theorem symbolName?_eq (hvalue : g.HasValue symbol name type) :
    g.symbolName? symbol = some name := by
  obtain ⟨record, hrecord, rfl, -⟩ := hvalue
  rw [symbolName?, hrecord]
  rfl

theorem valueTypeOf_eq (hvalue : g.HasValue symbol name type) : g.valueTypeOf symbol = type := by
  obtain ⟨record, hrecord, -, htype⟩ := hvalue
  rw [valueTypeOf, hrecord]
  exact congrArg (Option.getD · _) htype

theorem of_extends (hgh : g.Extends h) (hvalue : g.HasValue symbol name type) :
    h.HasValue symbol name type := by
  obtain ⟨record, hrecord, hname⟩ := hvalue
  exact ⟨record, (hgh.symbol?_eq (hasSymbol_of_symbol? hrecord)).trans hrecord, hname⟩

theorem of_symbols_eq (hsymbols : h.symbols = g.symbols) (hvalue : g.HasValue symbol name type) :
    h.HasValue symbol name type := by
  obtain ⟨record, hrecord, hname⟩ := hvalue
  exact ⟨record, by rwa [symbol?, hsymbols], hname⟩

end HasValue

end TypeGraph

namespace Merge

/-- The record of the property made of several ones. -/
def mergedProperty (name : String) (sources : List SymbolRecord) (type : TypeId) :
    SymbolRecord where
  name
  flags :=
    (if sources.all (·.flags.has SymbolFlags.optional) then SymbolFlags.optional
      else Flags.empty) ||| (SymbolFlags.property ||| SymbolFlags.transient)
  checkFlags :=
    if sources.any (·.checkFlags.has CheckFlags.readonly) then
      CheckFlags.syntheticProperty ||| CheckFlags.readonly
    else CheckFlags.syntheticProperty
  declarations := sources.flatMap (·.declarations)
  valueDeclaration := if (sources.flatMap (·.declarations)).isEmpty then none else some 0
  valueType := some type

variable (merge : List TypeId → Merge TypeId)

theorem property_eq (name : String) (symbols : List SymbolId) (s : MergeContext) :
    property merge name symbols s =
      let type := merge (symbols.map s.graph.typeOf) s
      build (Build.addSymbol (mergedProperty name (symbols.filterMap s.graph.symbol?) type.1))
        type.2 :=
  rfl

theorem made_property (name : String) (symbols : List SymbolId) (s : MergeContext) :
    (property merge name symbols s).2.made = (merge (symbols.map s.graph.typeOf) s).2.made :=
  rfl

/-- After the merged type a property adds a symbol, and nothing else. -/
theorem extends_property (name : String) (symbols : List SymbolId) (s : MergeContext) :
    (merge (symbols.map s.graph.typeOf) s).2.graph.Extends
      (property merge name symbols s).2.graph := by
  rw [property_eq]
  exact .addSymbol _ _

theorem symbol?_property (name : String) (symbols : List SymbolId) (s : MergeContext)
    (hsize : (property merge name symbols s).2.graph.symbols.size ≤ UInt32.size) :
    (property merge name symbols s).2.graph.symbol? (property merge name symbols s).1 =
      some (mergedProperty name (symbols.filterMap s.graph.symbol?)
        (merge (symbols.map s.graph.typeOf) s).1) := by
  rw [property_eq] at hsize ⊢
  exact symbol?_addSymbol _ ((symbols_size_addSymbol _ _).ge.trans hsize)

/-- A merged property has the merged type as a value. -/
theorem hasValue_property (name : String) (symbols : List SymbolId) (s : MergeContext)
    (hsize : (property merge name symbols s).2.graph.symbols.size ≤ UInt32.size) :
    (property merge name symbols s).2.graph.HasValue (property merge name symbols s).1 name
      (merge (symbols.map s.graph.typeOf) s).1 :=
  ⟨_, symbol?_property merge name symbols s hsize, rfl, rfl⟩

theorem mergeProperties_cons (group : String × List SymbolId)
    (groups : List (String × List SymbolId)) (s : MergeContext) :
    mergeProperties merge (group :: groups) s =
      let first := property merge group.1 group.2 s
      let rest := mergeProperties merge groups first.2
      (first.1 :: rest.1, rest.2) := by
  rw [mergeProperties, List.mapM_cons]
  rfl

theorem mergeProperties_append (groups groups' : List (String × List SymbolId)) (s : MergeContext) :
    mergeProperties merge (groups ++ groups') s =
      let first := mergeProperties merge groups s
      let rest := mergeProperties merge groups' first.2
      (first.1 ++ rest.1, rest.2) := by
  rw [mergeProperties, List.mapM_append]
  rfl

variable {merge} (hgrows : ∀ types, Grows (merge types))

include hgrows

/-- The merged properties have the names of the groups. -/
theorem names_mergeProperties {k : TypeGraph} (hsize : k.types.size ≤ UInt32.size)
    (hsymbols : k.symbols.size ≤ UInt32.size) :
    ∀ (groups : List (String × List SymbolId)) (s : MergeContext),
      (mergeProperties merge groups s).2.graph.Extends k →
        (mergeProperties merge groups s).1.map k.symbolName? = groups.map fun group => some group.1
  | [], _, _ => rfl
  | group :: groups, s, hk => by
    rw [mergeProperties_cons] at hk ⊢
    dsimp only at hk ⊢
    have hextends := (grows_mergeProperties hgrows groups).extends_of_extends hk hsize
    have hvalue := hasValue_property merge group.1 group.2 s (hextends.symbols_size.trans hsymbols)
    rw [List.map_cons, List.map_cons, (hvalue.of_extends hextends).symbolName?_eq,
      names_mergeProperties hsize hsymbols groups _ hk]

end Merge

end TypeAtlas
