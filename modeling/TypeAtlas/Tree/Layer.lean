import TypeAtlas.Tree.Basic
/-!
# Children of a node

`Layer.children` lists the children of a node in the order in which they are visited. `Layer.map`
changes each child and `Layer.traverse?` does so when every change succeeds. `Layer.mapMem` is `map`
for a function that needs to know that its argument is a child, and `TypeTree.fold` builds on it:
the one recursion over trees that the others are instances of.
-/

namespace TypeAtlas

variable {α β : Type}

namespace SignatureLayer

/-- Parameters, return type, type parameters. -/
def children (s : SignatureLayer α) : List α :=
  s.parameters ++ s.returnType.toList ++ s.typeParameters.getD []

def map (f : α → β) (s : SignatureLayer α) : SignatureLayer β where
  symbolMeta := s.symbolMeta
  parameters := s.parameters.map f
  returnType := s.returnType.map f
  typeParameters := s.typeParameters.map (List.map f)

def traverse? (f : α → Option β) (s : SignatureLayer α) : Option (SignatureLayer β) := do
  let parameters ← s.parameters.mapM f
  let returnType ← s.returnType.mapM f
  let typeParameters ← s.typeParameters.mapM (List.mapM f)
  some ⟨s.symbolMeta, parameters, returnType, typeParameters⟩

end SignatureLayer

namespace IndexLayer

/-- Key type, value type. -/
def children (i : IndexLayer α) : List α :=
  i.keyType.toList ++ i.valueType.toList

def map (f : α → β) (i : IndexLayer α) : IndexLayer β where
  keyType := i.keyType.map f
  valueType := i.valueType.map f
  parameterSymbol := i.parameterSymbol
  readonly := i.readonly

def traverse? (f : α → Option β) (i : IndexLayer α) : Option (IndexLayer β) := do
  let keyType ← i.keyType.mapM f
  let valueType ← i.valueType.mapM f
  some ⟨keyType, valueType, i.parameterSymbol, i.readonly⟩

end IndexLayer

namespace ClassLayer

/-- Properties, index signatures, base type, implemented types, construct signatures. -/
def children (c : ClassLayer α) : List α :=
  c.properties ++ c.indexInfos.flatMap IndexLayer.children ++ c.baseType.toList ++
    c.implementsTypes ++ c.constructSignatures.flatMap SignatureLayer.children

def map (f : α → β) (c : ClassLayer α) : ClassLayer β where
  classSymbol := c.classSymbol
  properties := c.properties.map f
  indexInfos := c.indexInfos.map (IndexLayer.map f)
  baseType := c.baseType.map f
  implementsTypes := c.implementsTypes.map f
  constructSignatures := c.constructSignatures.map (SignatureLayer.map f)

def traverse? (f : α → Option β) (c : ClassLayer α) : Option (ClassLayer β) := do
  let properties ← c.properties.mapM f
  let indexInfos ← c.indexInfos.mapM (IndexLayer.traverse? f)
  let baseType ← c.baseType.mapM f
  let implementsTypes ← c.implementsTypes.mapM f
  let constructSignatures ← c.constructSignatures.mapM (SignatureLayer.traverse? f)
  some ⟨c.classSymbol, properties, indexInfos, baseType, implementsTypes, constructSignatures⟩

end ClassLayer

namespace Shape

/-- The children that belong to the kind of the node. -/
def children : Shape α → List α
  | enum _ members => members
  | object properties indexInfos objectClass =>
    properties ++ indexInfos.flatMap IndexLayer.children ++ objectClass.toList
  | class' members => members.children
  | interface members => members.children
  | function signatures => signatures.flatMap SignatureLayer.children
  | array element _ => [element]
  | tuple types .. => types
  | union types => types
  | intersection types properties indexInfos =>
    types ++ properties ++ indexInfos.flatMap IndexLayer.children
  | index keyOf => [keyOf]
  | indexedAccess objectType indexType => [objectType, indexType]
  | conditional checkType extendsType trueType falseType =>
    [checkType, extendsType] ++ trueType.toList ++ falseType.toList
  | substitution baseType substitute => [baseType, substitute]
  | stringMapping _ mapped => [mapped]
  | templateLiteral _ types => types
  | typeParameter _ baseConstraint defaultType => baseConstraint.toList ++ defaultType.toList
  | primitive _ | intrinsic _ | stringLiteral _ | numberLiteral _ | bigintLiteral _
  | booleanLiteral _ | enumLiteral .. | nonPrimitive | reference _ | maxDepth => []

def map (f : α → β) : Shape α → Shape β
  | primitive p => primitive p
  | intrinsic name => intrinsic name
  | stringLiteral value => stringLiteral value
  | numberLiteral value => numberLiteral value
  | bigintLiteral value => bigintLiteral value
  | booleanLiteral value => booleanLiteral value
  | enumLiteral value literal parent => enumLiteral value literal parent
  | enum symbol members => enum symbol (members.map f)
  | object properties indexInfos objectClass =>
    object (properties.map f) (indexInfos.map (IndexLayer.map f)) (objectClass.map f)
  | class' members => class' (members.map f)
  | interface members => interface (members.map f)
  | function signatures => function (signatures.map (SignatureLayer.map f))
  | array element readonly => array (f element) readonly
  | tuple types names readonly minLength => tuple (types.map f) names readonly minLength
  | union types => union (types.map f)
  | intersection types properties indexInfos =>
    intersection (types.map f) (properties.map f) (indexInfos.map (IndexLayer.map f))
  | index keyOf => index (f keyOf)
  | indexedAccess objectType indexType => indexedAccess (f objectType) (f indexType)
  | conditional checkType extendsType trueType falseType =>
    conditional (f checkType) (f extendsType) (trueType.map f) (falseType.map f)
  | substitution baseType substitute => substitution (f baseType) (f substitute)
  | stringMapping symbol mapped => stringMapping symbol (f mapped)
  | templateLiteral texts types => templateLiteral texts (types.map f)
  | typeParameter symbol baseConstraint defaultType =>
    typeParameter symbol (baseConstraint.map f) (defaultType.map f)
  | nonPrimitive => nonPrimitive
  | reference location => reference location
  | maxDepth => maxDepth

theorem kind_map (f : α → β) (s : Shape α) : (s.map f).kind = s.kind := by
  cases s <;> rfl

def traverse? (f : α → Option β) : Shape α → Option (Shape β)
  | primitive p => some (primitive p)
  | intrinsic name => some (intrinsic name)
  | stringLiteral value => some (stringLiteral value)
  | numberLiteral value => some (numberLiteral value)
  | bigintLiteral value => some (bigintLiteral value)
  | booleanLiteral value => some (booleanLiteral value)
  | enumLiteral value literal parent => some (enumLiteral value literal parent)
  | enum symbol members => do some (enum symbol (← members.mapM f))
  | object properties indexInfos objectClass => do
    let properties ← properties.mapM f
    let indexInfos ← indexInfos.mapM (IndexLayer.traverse? f)
    some (object properties indexInfos (← objectClass.mapM f))
  | class' members => do some (class' (← members.traverse? f))
  | interface members => do some (interface (← members.traverse? f))
  | function signatures => do some (function (← signatures.mapM (SignatureLayer.traverse? f)))
  | array element readonly => do some (array (← f element) readonly)
  | tuple types names readonly minLength => do
    some (tuple (← types.mapM f) names readonly minLength)
  | union types => do some (union (← types.mapM f))
  | intersection types properties indexInfos => do
    let types ← types.mapM f
    let properties ← properties.mapM f
    some (intersection types properties (← indexInfos.mapM (IndexLayer.traverse? f)))
  | index keyOf => do some (index (← f keyOf))
  | indexedAccess objectType indexType => do
    some (indexedAccess (← f objectType) (← f indexType))
  | conditional checkType extendsType trueType falseType => do
    let checkType ← f checkType
    let extendsType ← f extendsType
    some (conditional checkType extendsType (← trueType.mapM f) (← falseType.mapM f))
  | substitution baseType substitute => do some (substitution (← f baseType) (← f substitute))
  | stringMapping symbol mapped => do some (stringMapping symbol (← f mapped))
  | templateLiteral texts types => do some (templateLiteral texts (← types.mapM f))
  | typeParameter symbol baseConstraint defaultType => do
    some (typeParameter symbol (← baseConstraint.mapM f) (← defaultType.mapM f))
  | nonPrimitive => some nonPrimitive
  | reference location => some (reference location)
  | maxDepth => some maxDepth

end Shape

namespace Layer

/-- The children of a node: those of its kind, then type arguments, then type parameters. -/
def children (l : Layer α) : List α :=
  l.shape.children ++ l.typeArguments.getD [] ++ l.typeParameters.getD []

def map (f : α → β) (l : Layer α) : Layer β where
  id := l.id
  shape := l.shape.map f
  symbolMeta := l.symbolMeta
  aliasSymbolMeta := l.aliasSymbolMeta
  typeArguments := l.typeArguments.map (List.map f)
  typeParameters := l.typeParameters.map (List.map f)

def traverse? (f : α → Option β) (l : Layer α) : Option (Layer β) := do
  let shape ← l.shape.traverse? f
  let typeArguments ← l.typeArguments.mapM (List.mapM f)
  let typeParameters ← l.typeParameters.mapM (List.mapM f)
  some ⟨l.id, shape, l.symbolMeta, l.aliasSymbolMeta, typeArguments, typeParameters⟩

end Layer

/-! ## The children of a changed node -/

section Map

variable (g : α → β)

@[simp]
theorem SignatureLayer.children_map (s : SignatureLayer α) :
    (s.map g).children = s.children.map g := by
  obtain ⟨symbolMeta, parameters, returnType, typeParameters⟩ := s
  cases returnType <;> cases typeParameters <;> simp [children, map]

@[simp]
theorem IndexLayer.children_map (i : IndexLayer α) : (i.map g).children = i.children.map g := by
  obtain ⟨keyType, valueType, parameterSymbol, readonly⟩ := i
  cases keyType <;> cases valueType <;> rfl

@[simp]
theorem ClassLayer.children_map (c : ClassLayer α) : (c.map g).children = c.children.map g := by
  obtain ⟨classSymbol, properties, indexInfos, baseType, implementsTypes, signatures⟩ := c
  simp [children, map, List.flatMap_map, List.map_flatMap, Option.toList_map]

@[simp]
theorem Shape.children_map (s : Shape α) : (s.map g).children = s.children.map g := by
  cases s <;> simp [children, map, List.flatMap_map, List.map_flatMap, Option.toList_map]

@[simp]
theorem Layer.children_map (l : Layer α) : (l.map g).children = l.children.map g := by
  obtain ⟨id, shape, symbolMeta, aliasSymbolMeta, typeArguments, typeParameters⟩ := l
  cases typeArguments <;> cases typeParameters <;> simp [children, map]

end Map

end TypeAtlas
