import TypeAtlas.Tree.Layer
/-!
# Recursion over trees

`TypeTree.fold` computes a value for a tree from the values of the children of its root, and
`TypeTree.preorder` lists the nodes of a tree. Both end because a child is smaller than its parent
(`TypeTree.sizeOf_lt_of_mem_children`). `Layer.pmap` is `Layer.map` for a function that wants a fact
about each child it is given.
-/

namespace TypeAtlas

variable {α β : Type} {P : α → Prop}

namespace SignatureLayer

def pmap (f : (a : α) → P a → β) (s : SignatureLayer α) (h : ∀ a ∈ s.children, P a) :
    SignatureLayer β where
  symbolMeta := s.symbolMeta
  parameters := s.parameters.pmap f fun a ha => h a (by simp [children, ha])
  returnType := s.returnType.pmap f fun a ha => h a (by simp [children, ha])
  typeParameters := s.typeParameters.pmap (fun xs hxs => xs.pmap f hxs)
    fun xs hxs a ha => h a (by simp [children, hxs, ha])

theorem pmap_eq_map (f : α → β) (s : SignatureLayer α) (h : ∀ a ∈ s.children, P a) :
    s.pmap (fun a _ => f a) h = s.map f := by
  simp only [pmap, map, List.pmap_eq_map, Option.pmap_eq_map]

end SignatureLayer

namespace IndexLayer

def pmap (f : (a : α) → P a → β) (i : IndexLayer α) (h : ∀ a ∈ i.children, P a) :
    IndexLayer β where
  keyType := i.keyType.pmap f fun a ha => h a (by simp [children, ha])
  valueType := i.valueType.pmap f fun a ha => h a (by simp [children, ha])
  parameterSymbol := i.parameterSymbol
  readonly := i.readonly

theorem pmap_eq_map (f : α → β) (i : IndexLayer α) (h : ∀ a ∈ i.children, P a) :
    i.pmap (fun a _ => f a) h = i.map f := by
  simp only [pmap, map, Option.pmap_eq_map]

end IndexLayer

/-- Signatures changed one by one. -/
def pmapSignatures (f : (a : α) → P a → β) (signatures : List (SignatureLayer α))
    (h : ∀ a ∈ signatures.flatMap SignatureLayer.children, P a) : List (SignatureLayer β) :=
  signatures.pmap (fun s hs => s.pmap f hs)
    fun s hs a ha => h a (List.mem_flatMap.2 ⟨s, hs, ha⟩)

/-- Index signatures changed one by one. -/
def pmapIndexInfos (f : (a : α) → P a → β) (infos : List (IndexLayer α))
    (h : ∀ a ∈ infos.flatMap IndexLayer.children, P a) : List (IndexLayer β) :=
  infos.pmap (fun i hi => i.pmap f hi) fun i hi a ha => h a (List.mem_flatMap.2 ⟨i, hi, ha⟩)

theorem pmapSignatures_eq_map (f : α → β) (signatures : List (SignatureLayer α))
    (h : ∀ a ∈ signatures.flatMap SignatureLayer.children, P a) :
    pmapSignatures (fun a _ => f a) signatures h = signatures.map (SignatureLayer.map f) := by
  simp only [pmapSignatures, SignatureLayer.pmap_eq_map, List.pmap_eq_map]

theorem pmapIndexInfos_eq_map (f : α → β) (infos : List (IndexLayer α))
    (h : ∀ a ∈ infos.flatMap IndexLayer.children, P a) :
    pmapIndexInfos (fun a _ => f a) infos h = infos.map (IndexLayer.map f) := by
  simp only [pmapIndexInfos, IndexLayer.pmap_eq_map, List.pmap_eq_map]

namespace ClassLayer

def pmap (f : (a : α) → P a → β) (c : ClassLayer α) (h : ∀ a ∈ c.children, P a) :
    ClassLayer β where
  classSymbol := c.classSymbol
  properties := c.properties.pmap f fun a ha => h a (by simp [children, ha])
  indexInfos := pmapIndexInfos f c.indexInfos fun a ha =>
    h a (by simp only [children, List.mem_append, ha, or_true, true_or])
  baseType := c.baseType.pmap f fun a ha => h a (by simp [children, ha])
  implementsTypes := c.implementsTypes.pmap f fun a ha => h a (by simp [children, ha])
  constructSignatures := pmapSignatures f c.constructSignatures fun a ha =>
    h a (by simp only [children, List.mem_append, ha, or_true])

theorem pmap_eq_map (f : α → β) (c : ClassLayer α) (h : ∀ a ∈ c.children, P a) :
    c.pmap (fun a _ => f a) h = c.map f := by
  simp only [pmap, map, List.pmap_eq_map, Option.pmap_eq_map, pmapIndexInfos_eq_map,
    pmapSignatures_eq_map]

end ClassLayer

namespace Shape

def pmap (f : (a : α) → P a → β) : (s : Shape α) → (∀ a ∈ s.children, P a) → Shape β
  | primitive p, _ => primitive p
  | intrinsic name, _ => intrinsic name
  | stringLiteral value, _ => stringLiteral value
  | numberLiteral value, _ => numberLiteral value
  | bigintLiteral value, _ => bigintLiteral value
  | booleanLiteral value, _ => booleanLiteral value
  | enumLiteral value literal parent, _ => enumLiteral value literal parent
  | enum symbol members, h => enum symbol (members.pmap f fun a ha => h a ha)
  | object properties indexInfos objectClass, h =>
    object (properties.pmap f fun a ha => h a (by simp [children, ha]))
      (pmapIndexInfos f indexInfos fun a ha =>
        h a (by simp only [children, List.mem_append, ha, or_true, true_or]))
      (objectClass.pmap f fun a ha => h a (by simp [children, ha]))
  | class' members, h => class' (members.pmap f fun a ha => h a ha)
  | interface members, h => interface (members.pmap f fun a ha => h a ha)
  | function signatures, h => function (pmapSignatures f signatures fun a ha => h a ha)
  | array element readonly, h => array (f element (h element (by simp [children]))) readonly
  | tuple types names readonly minLength, h =>
    tuple (types.pmap f fun a ha => h a ha) names readonly minLength
  | union types, h => union (types.pmap f fun a ha => h a ha)
  | intersection types properties indexInfos, h =>
    intersection (types.pmap f fun a ha => h a (by simp [children, ha]))
      (properties.pmap f fun a ha => h a (by simp [children, ha]))
      (pmapIndexInfos f indexInfos fun a ha =>
        h a (by simp only [children, List.mem_append, ha, or_true]))
  | index keyOf, h => index (f keyOf (h keyOf (by simp [children])))
  | indexedAccess objectType indexType, h =>
    indexedAccess (f objectType (h objectType (by simp [children])))
      (f indexType (h indexType (by simp [children])))
  | conditional checkType extendsType trueType falseType, h =>
    conditional (f checkType (h checkType (by simp [children])))
      (f extendsType (h extendsType (by simp [children])))
      (trueType.pmap f fun a ha => h a (by simp [children, ha]))
      (falseType.pmap f fun a ha => h a (by simp [children, ha]))
  | substitution baseType substitute, h =>
    substitution (f baseType (h baseType (by simp [children])))
      (f substitute (h substitute (by simp [children])))
  | stringMapping symbol mapped, h =>
    stringMapping symbol (f mapped (h mapped (by simp [children])))
  | templateLiteral texts types, h => templateLiteral texts (types.pmap f fun a ha => h a ha)
  | typeParameter symbol baseConstraint defaultType, h =>
    typeParameter symbol (baseConstraint.pmap f fun a ha => h a (by simp [children, ha]))
      (defaultType.pmap f fun a ha => h a (by simp [children, ha]))
  | nonPrimitive, _ => nonPrimitive
  | reference location, _ => reference location
  | maxDepth, _ => maxDepth

theorem pmap_eq_map (f : α → β) (s : Shape α) (h : ∀ a ∈ s.children, P a) :
    s.pmap (fun a _ => f a) h = s.map f := by
  cases s <;> simp only [pmap, map, List.pmap_eq_map, Option.pmap_eq_map, pmapIndexInfos_eq_map,
    pmapSignatures_eq_map, ClassLayer.pmap_eq_map]

end Shape

namespace Layer

def pmap (f : (a : α) → P a → β) (l : Layer α) (h : ∀ a ∈ l.children, P a) : Layer β where
  id := l.id
  shape := l.shape.pmap f fun a ha => h a (by simp [children, ha])
  symbolMeta := l.symbolMeta
  aliasSymbolMeta := l.aliasSymbolMeta
  typeArguments := l.typeArguments.pmap (fun xs hxs => xs.pmap f hxs)
    fun xs hxs a ha => h a (by simp [children, hxs, ha])
  typeParameters := l.typeParameters.pmap (fun xs hxs => xs.pmap f hxs)
    fun xs hxs a ha => h a (by simp [children, hxs, ha])

theorem pmap_eq_map (f : α → β) (l : Layer α) (h : ∀ a ∈ l.children, P a) :
    l.pmap (fun a _ => f a) h = l.map f := by
  simp only [pmap, map, Shape.pmap_eq_map, List.pmap_eq_map, Option.pmap_eq_map]

end Layer

section Size

variable [SizeOf α] {a : α}

theorem sizeOf_lt_of_mem_optionList {xs : Option (List α)} (h : a ∈ xs.getD []) :
    sizeOf a < sizeOf xs := by
  cases xs with
  | none => simp at h
  | some xs =>
    have := List.sizeOf_lt_of_mem (by simpa using h : a ∈ xs)
    simp; omega

theorem sizeOf_lt_of_mem_option {x : Option α} (h : a ∈ x.toList) : sizeOf a < sizeOf x := by
  cases x with
  | none => simp at h
  | some x => simp at h; subst h; simp

theorem SignatureLayer.sizeOf_lt_of_mem_children {s : SignatureLayer α} (h : a ∈ s.children) :
    sizeOf a < sizeOf s := by
  cases s with
  | mk symbolMeta parameters returnType typeParameters =>
    simp only [children, List.mem_append] at h
    simp only [mk.sizeOf_spec]
    rcases h with (h | h) | h
    · have := List.sizeOf_lt_of_mem h; omega
    · have := sizeOf_lt_of_mem_option h; omega
    · have := sizeOf_lt_of_mem_optionList h; omega

theorem IndexLayer.sizeOf_lt_of_mem_children {i : IndexLayer α} (h : a ∈ i.children) :
    sizeOf a < sizeOf i := by
  cases i with
  | mk keyType valueType parameterSymbol readonly =>
    simp only [children, List.mem_append] at h
    simp only [mk.sizeOf_spec]
    rcases h with h | h
    · have := sizeOf_lt_of_mem_option h; omega
    · have := sizeOf_lt_of_mem_option h; omega

theorem sizeOf_lt_of_mem_signatures {signatures : List (SignatureLayer α)}
    (h : a ∈ signatures.flatMap SignatureLayer.children) : sizeOf a < sizeOf signatures := by
  obtain ⟨s, hs, ha⟩ := List.mem_flatMap.1 h
  have := List.sizeOf_lt_of_mem hs
  have := SignatureLayer.sizeOf_lt_of_mem_children ha
  omega

theorem sizeOf_lt_of_mem_indexInfos {infos : List (IndexLayer α)}
    (h : a ∈ infos.flatMap IndexLayer.children) : sizeOf a < sizeOf infos := by
  obtain ⟨i, hi, ha⟩ := List.mem_flatMap.1 h
  have := List.sizeOf_lt_of_mem hi
  have := IndexLayer.sizeOf_lt_of_mem_children ha
  omega

theorem ClassLayer.sizeOf_lt_of_mem_children {c : ClassLayer α} (h : a ∈ c.children) :
    sizeOf a < sizeOf c := by
  cases c with
  | mk classSymbol properties indexInfos baseType implementsTypes constructSignatures =>
    simp only [children, List.mem_append] at h
    simp only [mk.sizeOf_spec]
    rcases h with (((h | h) | h) | h) | h
    · have := List.sizeOf_lt_of_mem h; omega
    · have := sizeOf_lt_of_mem_indexInfos h; omega
    · have := sizeOf_lt_of_mem_option h; omega
    · have := List.sizeOf_lt_of_mem h; omega
    · have := sizeOf_lt_of_mem_signatures h; omega

theorem Shape.sizeOf_lt_of_mem_children {s : Shape α} (h : a ∈ s.children) :
    sizeOf a < sizeOf s := by
  cases s <;> simp only [children, List.mem_append, List.mem_cons, List.not_mem_nil, or_false] at h
  case enum => have := List.sizeOf_lt_of_mem h; simp; omega
  case object =>
    simp only [object.sizeOf_spec]
    rcases h with (h | h) | h
    · have := List.sizeOf_lt_of_mem h; omega
    · have := sizeOf_lt_of_mem_indexInfos h; omega
    · have := sizeOf_lt_of_mem_option h; omega
  case class' =>
    have := ClassLayer.sizeOf_lt_of_mem_children h
    simp only [class'.sizeOf_spec]
    omega
  case interface =>
    have := ClassLayer.sizeOf_lt_of_mem_children h
    simp only [interface.sizeOf_spec]
    omega
  case function =>
    have := sizeOf_lt_of_mem_signatures h
    simp only [function.sizeOf_spec]
    omega
  case array => subst h; simp only [array.sizeOf_spec]; omega
  case tuple =>
    have := List.sizeOf_lt_of_mem h
    simp only [tuple.sizeOf_spec]
    omega
  case union =>
    have := List.sizeOf_lt_of_mem h
    simp only [union.sizeOf_spec]
    omega
  case intersection =>
    simp only [intersection.sizeOf_spec]
    rcases h with (h | h) | h
    · have := List.sizeOf_lt_of_mem h; omega
    · have := List.sizeOf_lt_of_mem h; omega
    · have := sizeOf_lt_of_mem_indexInfos h; omega
  case index => subst h; simp only [index.sizeOf_spec]; omega
  case indexedAccess =>
    simp only [indexedAccess.sizeOf_spec]
    rcases h with h | h <;> subst h <;> omega
  case conditional =>
    simp only [conditional.sizeOf_spec]
    rcases h with ((h | h) | h) | h
    · subst h; omega
    · subst h; omega
    · have := sizeOf_lt_of_mem_option h; omega
    · have := sizeOf_lt_of_mem_option h; omega
  case substitution =>
    simp only [substitution.sizeOf_spec]
    rcases h with h | h <;> subst h <;> omega
  case stringMapping => subst h; simp only [stringMapping.sizeOf_spec]; omega
  case templateLiteral =>
    have := List.sizeOf_lt_of_mem h
    simp only [templateLiteral.sizeOf_spec]
    omega
  case typeParameter =>
    simp only [typeParameter.sizeOf_spec]
    rcases h with h | h
    · have := sizeOf_lt_of_mem_option h; omega
    · have := sizeOf_lt_of_mem_option h; omega

theorem Layer.sizeOf_lt_of_mem_children {l : Layer α} (h : a ∈ l.children) :
    sizeOf a < sizeOf l := by
  cases l with
  | mk id shape symbolMeta aliasSymbolMeta typeArguments typeParameters =>
    simp only [children, List.mem_append] at h
    simp only [mk.sizeOf_spec]
    rcases h with (h | h) | h
    · have := Shape.sizeOf_lt_of_mem_children h; omega
    · have := sizeOf_lt_of_mem_optionList h; omega
    · have := sizeOf_lt_of_mem_optionList h; omega

end Size

namespace TypeTree

/-- The trees directly below the root. -/
def children (tree : TypeTree) : List TypeTree :=
  tree.layer.children

/-- A child is smaller than its parent. -/
theorem sizeOf_lt_of_mem_children {child tree : TypeTree} (h : child ∈ tree.children) :
    sizeOf child < sizeOf tree := by
  cases tree with
  | node layer =>
    have := Layer.sizeOf_lt_of_mem_children (show child ∈ layer.children from h)
    simp; omega

/-- The value of a tree, when the value of a node is computed from the values of its children. -/
def fold (f : Layer β → β) (tree : TypeTree) : β :=
  f (tree.layer.pmap (P := fun child => child ∈ tree.children) (fun child _ => fold f child)
    fun _ h => h)
termination_by sizeOf tree
decreasing_by exact sizeOf_lt_of_mem_children ‹_›

theorem fold_node (f : Layer β → β) (layer : Layer TypeTree) :
    fold f (node layer) = f (layer.map (fold f)) := by
  rw [fold]
  exact congrArg f (Layer.pmap_eq_map (fold f) layer _)

/-- The nodes of a tree, each before those below it. -/
def preorder (tree : TypeTree) : List TypeTree :=
  tree :: tree.children.attach.flatMap fun ⟨child, _⟩ => preorder child
termination_by sizeOf tree
decreasing_by exact sizeOf_lt_of_mem_children ‹_›

theorem preorder_eq (tree : TypeTree) :
    tree.preorder = tree :: tree.children.flatMap preorder := by
  rw [preorder]
  simp [List.flatMap_subtype]

end TypeTree

end TypeAtlas
