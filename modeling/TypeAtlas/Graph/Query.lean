import TypeAtlas.Graph.Basic
/-!
# Questions to a type graph

Every question has an answer, whatever the handles in it: a handle that leads nowhere has no flags,
no members and the error type. A reference takes its structural members from its generic target,
one step away (`resolvedObject?`).
-/

namespace TypeAtlas.TypeGraph

variable (g : TypeGraph)

/-- The type at a handle. -/
def type? (id : TypeId) : Option TypeRecord :=
  g.types[id.index]?

/-- The symbol at a handle. -/
def symbol? (id : SymbolId) : Option SymbolRecord :=
  g.symbols[id.index]?

/-- What the type at a handle is made of. -/
def data? (id : TypeId) : Option TypeData :=
  (g.type? id).map (·.data)

/-- The flags of a type. -/
def typeFlags (id : TypeId) : TypeFlags :=
  ((g.type? id).map (·.flags)).getD Flags.empty

/-- The object flags of a type. -/
def objectFlags (id : TypeId) : ObjectFlags :=
  ((g.type? id).map (·.objectFlags)).getD Flags.empty

/-- The name of a symbol. -/
def symbolName? (id : SymbolId) : Option String :=
  (g.symbol? id).map (·.name)

/-- The name of a symbol that may be missing. -/
def nameOf? (id : Option SymbolId) : Option String :=
  id.bind g.symbolName?

/-! ## Types of symbols -/

/-- The type of a symbol as a value. -/
def valueTypeOf (symbol : SymbolId) : TypeId :=
  ((g.symbol? symbol).bind (·.valueType)).getD .error

/-- The type of a symbol at one of its declarations. -/
def typeAtDeclaration (symbol : SymbolId) (declaration : Declaration) : TypeId :=
  (declaration.typeAtLocation.or ((g.symbol? symbol).bind (·.valueType))).getD .error

/-- The type that a symbol declares. -/
def declaredTypeOf (symbol : SymbolId) : TypeId :=
  ((g.symbol? symbol).bind (·.declaredType)).getD .error

/-- The type that a tree shows for a symbol: the first of its type at its declaration, the type it
declares and its type as a value that is not the error type. -/
def typeOf (symbol : SymbolId) : TypeId :=
  let atDeclaration :=
    ((g.symbol? symbol).bind (·.primaryDeclaration?)).map (g.typeAtDeclaration symbol)
  let candidates := atDeclaration.toList ++ [g.declaredTypeOf symbol, g.valueTypeOf symbol]
  (candidates.find? (· != .error)).getD .error

/-! ## Members of types -/

/-- The object type at a handle. -/
def object? (id : TypeId) : Option ObjectType :=
  (g.type? id).bind (·.object?)

/-- The object type that holds the structural members: the target of a reference, if that is an
object type, and the type itself otherwise. -/
def resolvedObject? (id : TypeId) : Option ObjectType :=
  (g.object? id).map fun object =>
    match object.target with
    | some target => if target = id then object else (g.object? target).getD object
    | none => object

/-- The call signatures of a type. -/
def callSignatures (id : TypeId) : List Signature :=
  ((g.resolvedObject? id).map (·.callSignatures)).getD []

/-- The construct signatures of a type. -/
def constructSignatures (id : TypeId) : List Signature :=
  ((g.resolvedObject? id).map (·.constructSignatures)).getD []

/-- The index signatures of a type. -/
def indexInfos (id : TypeId) : List IndexInfo :=
  ((g.resolvedObject? id).map (·.indexInfos)).getD []

/-- The arguments of a reference, or the elements of a tuple. -/
def typeArguments (id : TypeId) : List TypeId :=
  ((g.object? id).map (·.typeArguments)).getD []

/-- The types that a class or an interface extends. -/
def baseTypes (id : TypeId) : List TypeId :=
  ((g.resolvedObject? id).map (·.baseTypes)).getD []

/-- The types that a class implements. -/
def implementsTypes (id : TypeId) : List TypeId :=
  ((g.resolvedObject? id).map (·.implementsTypes)).getD []

/-- The constraint of a type parameter. -/
def baseConstraint? (id : TypeId) : Option TypeId :=
  match g.data? id with
  | some (.typeParameter constraint _) => constraint
  | _ => none

/-- The default of a type parameter. -/
def defaultType? (id : TypeId) : Option TypeId :=
  match g.data? id with
  | some (.typeParameter _ default) => default
  | _ => none

/-- Whether a type is a reference to the read-only array interface. -/
def isReadonlyArray (id : TypeId) : Bool :=
  ((g.object? id).map fun object => object.target == some g.globalReadonlyArray).getD false

/-- Whether a type is a reference to one of the two array interfaces. -/
def isArray (id : TypeId) : Bool :=
  ((g.object? id).map fun object =>
    object.target == some g.globalArray || object.target == some g.globalReadonlyArray).getD false

/-- Whether a type is a tuple. -/
def isTuple (id : TypeId) : Bool :=
  (g.objectFlags id).has ObjectFlags.tuple

/-- The shape of a tuple; a type without one has an open shape. -/
def tupleShape (id : TypeId) : TupleShape :=
  ((g.object? id).bind (·.tuple)).getD {}

/-- An object type that is neither callable nor an array nor a tuple. -/
def isPlainObject (id : TypeId) : Bool :=
  (g.typeFlags id).has TypeFlags.object && (g.callSignatures id).isEmpty && !g.isArray id &&
    !g.isTuple id

/-! ## Parameters -/

/-- Whether a parameter may be left out, by the checker's note on it or by its declaration. -/
def isOptionalParameter (parameter : SymbolId) : Bool :=
  ((g.symbol? parameter).map fun symbol =>
    symbol.checkFlags.has CheckFlags.optionalParameter ||
      (symbol.primaryDeclaration?.map fun declaration =>
        declaration.questionToken || declaration.hasInitializer).getD false).getD false

/-- Whether a parameter takes all remaining arguments. -/
def isRestParameter (parameter : SymbolId) : Bool :=
  ((g.symbol? parameter).map fun symbol =>
    symbol.checkFlags.has CheckFlags.restParameter ||
      (symbol.primaryDeclaration?.map (·.dotDotDotToken)).getD false).getD false

/-! ## Symbols by position -/

/-- Every declaration with its symbol, in the order of the symbols. -/
def declarations : List (SymbolId × Declaration) :=
  g.symbols.toList.zipIdx.flatMap fun (symbol, n) =>
    symbol.declarations.map fun declaration => (.ofIndex n, declaration)

/-- Keeps the best symbol so far, unless the declaration lies strictly inside its range. -/
def narrower (best : Option (SymbolId × Range)) (candidate : SymbolId × Declaration) :
    Option (SymbolId × Range) :=
  let range := candidate.2.location.range
  match best with
  | some (symbol, outer) =>
    if outer.encloses range && outer != range then some (candidate.1, range)
    else some (symbol, outer)
  | none => some (candidate.1, range)

/-- The symbol with the innermost declaration around a position in a file. -/
def symbolAt? (fileName : String) (position : Position) : Option SymbolId :=
  let around := g.declarations.filter fun (_, declaration) =>
    declaration.location.fileName == fileName && declaration.location.range.contains position
  (around.foldl narrower none).map (·.1)

end TypeAtlas.TypeGraph
