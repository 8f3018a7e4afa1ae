import TypeAtlas.Graph.Builder
import TypeAtlas.Graph.Codec
import TypeAtlas.Json.Reader
import TypeAtlas.Json.Writer
/-!
# Snapshots

A snapshot is the JSON text of a graph. Loading one checks the handles in it: `TypeGraph.mentions`
lists them in the order in which they are checked, each with the record that holds it, and the first
one that points past the end of its list is the error.
-/

namespace TypeAtlas

/-- The record that holds a handle. -/
inductive Owner where
  | globalArray
  | globalReadonlyArray
  | type (place : Nat)
  | symbol (place : Nat) (name : String)
  deriving DecidableEq, Inhabited, Repr

/-- How messages name the record. -/
def Owner.display : Owner → String
  | globalArray => "global Array"
  | globalReadonlyArray => "global ReadonlyArray"
  | type place => "type " ++ toString place
  | symbol place name => "symbol " ++ toString place ++ " (" ++ name ++ ")"

/-- A handle of either sort. -/
inductive Handle where
  | type (id : TypeId)
  | symbol (id : SymbolId)
  deriving DecidableEq, Inhabited, Repr

/-- Why a snapshot could not be read or written. -/
inductive SnapshotError where
  | read (path : String)
  | write (path : String)
  | malformed
  | missingIntrinsics (found : Nat)
  | danglingType (owner : Owner) (id : TypeId) (count : Nat)
  | danglingSymbol (owner : Owner) (id : SymbolId) (count : Nat)
  deriving DecidableEq, Inhabited, Repr

/-- The error in words. -/
def SnapshotError.message : SnapshotError → String
  | read path => "failed to read snapshot " ++ path
  | write path => "failed to write snapshot " ++ path
  | malformed => "malformed snapshot JSON"
  | missingIntrinsics found =>
    "snapshot is missing intrinsic types (found " ++ toString found ++ " types)"
  | danglingType owner id count =>
    owner.display ++ " refers to type " ++ toString id.index ++ " but the snapshot has " ++
      toString count ++ " types"
  | danglingSymbol owner id count =>
    owner.display ++ " refers to symbol " ++ toString id.index ++ " but the snapshot has " ++
      toString count ++ " symbols"

/-! ## Handles of records -/

/-- Parameters, type parameters and return type. -/
def Signature.handles (s : Signature) : List Handle :=
  s.parameters.map .symbol ++ s.typeParameters.map .type ++ [.type s.returnType]

/-- Properties and signatures first, then all types. -/
def ObjectType.handles (o : ObjectType) : List Handle :=
  o.properties.map .symbol ++
    (o.callSignatures ++ o.constructSignatures).flatMap Signature.handles ++
    (o.indexInfos.flatMap (fun info => [info.keyType, info.valueType]) ++ o.target.toList ++
      o.typeArguments ++ o.typeParameters ++ o.baseTypes ++ o.implementsTypes).map .type

/-- The handles in the structure of a type. -/
def TypeData.handles : TypeData → List Handle
  | intrinsic _ => []
  | literal _ => []
  | object o => o.handles
  | union types => types.map .type
  | intersection types => types.map .type
  | typeParameter constraint default => (constraint.toList ++ default.toList).map .type
  | index target => [.type target]
  | indexedAccess objectType indexType => [.type objectType, .type indexType]
  | conditional checkType extendsType trueType falseType =>
    ([checkType, extendsType] ++ trueType.toList ++ falseType.toList).map .type
  | substitution baseType constraint => [.type baseType, .type constraint]
  | templateLiteral _ types => types.map .type
  | stringMapping target => [.type target]

/-- The handles of a type. -/
def TypeRecord.handles (t : TypeRecord) : List Handle :=
  (t.symbol.toList ++ t.aliasSymbol.toList).map .symbol ++ t.aliasTypeArguments.map .type ++
    t.data.handles

/-- The handles of a symbol. -/
def SymbolRecord.handles (s : SymbolRecord) : List Handle :=
  (s.valueType.toList ++ s.declaredType.toList ++ s.typeParameters ++
      s.declarations.filterMap (·.typeAtLocation)).map .type ++
    s.parent.toList.map .symbol

namespace TypeGraph

variable (g : TypeGraph)

/-- Every handle that is checked, with its owner, in the order of the checks. -/
def mentions : List (Owner × Handle) :=
  [(.globalArray, .type g.globalArray), (.globalReadonlyArray, .type g.globalReadonlyArray)] ++
    g.types.toList.zipIdx.flatMap (fun (record, n) =>
      record.handles.map fun handle => (.type n, handle)) ++
    g.symbols.toList.zipIdx.flatMap (fun (record, n) =>
      record.handles.map fun handle => (.symbol n record.name, handle))

/-- Why a handle is not in the graph, if it is not. -/
def dangling? : Owner × Handle → Option SnapshotError
  | (owner, .type id) =>
    if id.index < g.types.size then none else some (.danglingType owner id g.types.size)
  | (owner, .symbol id) =>
    if id.index < g.symbols.size then none else some (.danglingSymbol owner id g.symbols.size)

/-- Accepts a graph with all its intrinsic types and no checked handle that dangles. -/
def validate : Except SnapshotError Unit :=
  if g.types.size < TypeId.intrinsicCount then .error (.missingIntrinsics g.types.size)
  else
    match g.mentions.findSome? g.dangling? with
    | some error => .error error
    | none => .ok ()

/-- The graph that a JSON value describes. -/
def load (json : Json) : Except SnapshotError TypeGraph :=
  match ofJson? json with
  | some g => g.validate.map fun _ => g
  | none => .error .malformed

/-- The graph that a text describes. -/
def loadText (text : String) : Except SnapshotError TypeGraph :=
  match Json.ofText? text with
  | some json => load json
  | none => .error .malformed

/-- The snapshot of a graph. -/
def snapshotText : String :=
  g.toJson.text

end TypeGraph

/-! ## Comparison -/

/-- The number in a number literal type. -/
def TypeRecord.number? (t : TypeRecord) : Option Double :=
  match t.data with
  | .literal (.number value) => some value
  | _ => none

/-- The type with a negative zero made positive. -/
def TypeRecord.unsignedZero (t : TypeRecord) : TypeRecord :=
  match t.data with
  | .literal (.number value) =>
    if value.isZero then { t with data := .literal (.number .zero) } else t
  | _ => t

/-- Whether two graphs are equal when numbers are compared as numbers: the zeros are equal and a NaN
makes a graph different from every graph, itself included. -/
def TypeGraph.sameAs (a b : TypeGraph) : Bool :=
  !(a.types.toList.any fun t => t.number?.any Double.isNaN) &&
    decide ({ a with types := a.types.map TypeRecord.unsignedZero } =
      { b with types := b.types.map TypeRecord.unsignedZero })

end TypeAtlas
