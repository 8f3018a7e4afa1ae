import TypeAtlas.Tree.Basic
/-!
# Views

A `View` is what a reader sees of one node of a type tree: its name, its kind in words, and
descriptions of its children. A child is described either by the tree it would be a view of, or, for
the groups that a view puts its children into, by the view itself.
-/

namespace TypeAtlas

/-- The handle of a view. -/
structure ViewId where
  val : UInt32
  deriving DecidableEq, Inhabited, Repr, Hashable

/-- What a child is to its parent. -/
inductive Purpose where
  | return'
  | parameter
  | classConstructor
  | classBaseType
  | classImplementations
  | objectClass
  | typeParameterList
  | typeArgumentList
  | parameterValue
  | parameterDefault
  | parameterBaseConstraint
  | indexInfo
  | indexParameterType
  | indexValueType
  | conditionalCheck
  | conditionalExtends
  | conditionalTrue
  | conditionalFalse
  | keyof
  | indexedAccessBase
  | indexedAccessIndex
  | substitutionBase
  | substitutionSubstitute
  | stringMappingType
  | templateLiteralText
  deriving DecidableEq, Inhabited, Repr

/-- The groups of generics, which a reader may ask to leave out. -/
def Purpose.isTypeList : Purpose → Bool
  | typeParameterList => true
  | typeArgumentList => true
  | _ => false

/-- What a parent says about a child. -/
structure ChildOptions where
  purpose : Option Purpose := none
  /-- A name that goes before the name of the symbol. -/
  name : Option String := none
  optional : Bool := false
  /-- The argument that is given for a type parameter here. -/
  contextualTypeArgument : Option TypeTree := none
  deriving Inhabited

/-- The description of a child, with views of type `α`. -/
inductive Child (α : Type) where
  | raw (tree : TypeTree) (options : ChildOptions)
  | made (view : α)
  deriving Inhabited

/-- The child with its view changed. -/
def Child.map {α β : Type} (f : α → β) : Child α → Child β
  | raw tree options => raw tree options
  | made view => made (f view)

/-- What a view shows of a symbol. -/
structure ViewSymbol where
  name : String
  anonymous : Bool := false
  insideClassOrInterface : Bool := false
  property : Bool := false
  isArgument : Bool := false
  locations : List Location := []
  deriving DecidableEq, Inhabited, Repr

/-- A view with children that are views of type `α`. -/
structure ViewLayer (α : Type) where
  handle : ViewId
  /-- The kind of the node; a group has none. -/
  kind : Option NodeKind := none
  kindText : Option String := none
  aliasName : Option String := none
  name : Option String := none
  symbol : Option ViewSymbol := none
  purpose : Option Purpose := none
  optional : Bool := false
  rest : Bool := false
  readonly : Bool := false
  /-- How many arrays were unwrapped to reach the node. -/
  dimension : UInt32 := 0
  typeId : Option TypeId := none
  children : List (Child α) := []
  deriving Inhabited

/-- The view with the views in it changed. -/
def ViewLayer.map {α β : Type} (f : α → β) (l : ViewLayer α) : ViewLayer β :=
  { l with children := l.children.map (Child.map f) }

/-- A view of a node, or a group of children. -/
inductive View where
  | node (layer : ViewLayer View)
  deriving Inhabited

/-- What there is to see of a view. -/
def View.layer : View → ViewLayer View
  | node layer => layer

/-- The handle of a view. -/
def View.handle (view : View) : ViewId :=
  view.layer.handle

/-- The descriptions of the children of a view. -/
def View.children (view : View) : List (Child View) :=
  view.layer.children

/-- A view among the children is smaller than its parent. -/
theorem View.sizeOf_lt_of_mem_children {inner view : View} (h : Child.made inner ∈ view.children) :
    sizeOf inner < sizeOf view := by
  cases view with
  | node layer =>
    have hc : Child.made inner ∈ layer.children := h
    have := List.sizeOf_lt_of_mem hc
    cases layer
    simp_all
    omega

/-- What a child is to its parent. -/
def Child.purpose : Child View → Option Purpose
  | raw _ options => options.purpose
  | made view => view.layer.purpose

/-- An error in words, with what led to it. -/
structure ErrorDetails where
  name : String
  message : String
  stack : Option String := none
  deriving DecidableEq, Inhabited, Repr

/-- What a reader sees in place of a node that has no view. -/
structure ViewFailure where
  error : ErrorDetails
  tree : Option TypeTree := none
  deriving Inhabited

/-- A view, or what went wrong. -/
inductive ViewResult where
  | failure (failure : ViewFailure)
  | view (view : View)
  deriving Inhabited

namespace ViewResult

/-- The view, if there is one. -/
def view? : ViewResult → Option View
  | .view v => some v
  | .failure _ => none

/-- Whether something went wrong. -/
def isFailure : ViewResult → Bool
  | .view _ => false
  | .failure _ => true

end ViewResult

end TypeAtlas
