import TypeAtlas.Proofs.View.Agreement
import TypeAtlas.Proofs.Walk.Nodes
/-!
# Where references lead

A node that leaves its type to a location has the location of the definition of a symbol that the
type is named by. A tree at this location is about the type that the symbol defines, so the
reference leads back to its type exactly if that is the type defined
(`Program.reference_leads_back`). The constructor side of a class is named by the symbol of the
class, which defines the type of the instances; a generic type with arguments is named by the symbol
of the generic type.
-/

namespace TypeAtlas

theorem Shape.location?_eq_some_iff {α : Type} {shape : Shape α} {location : Location} :
    shape.location? = some location ↔ shape = .reference (some location) := by
  cases shape <;> simp [Shape.location?]

namespace TypeGraph

variable (g : TypeGraph)

/-- Where a symbol that names a type is declared. -/
def definitionOf? (symbol : SymbolId) : Option Location :=
  (g.symbol? symbol).bind fun record =>
    if record.flags.isDefinedType then record.primaryDeclaration?.map (·.location) else none

/-- The symbols that can name a type: its alias before its own symbol. -/
def namesOf (type : TypeId) : List SymbolId :=
  ((g.type? type).map fun record => record.aliasSymbol.toList ++ record.symbol.toList).getD []

/-- The symbol that names a type: the first of them with a definition. -/
def namingSymbol? (type : TypeId) : Option SymbolId :=
  (g.namesOf type).find? fun symbol => (g.definitionOf? symbol).isSome

/-- The type that a tree at the definition of a symbol is about. -/
def definedType (symbol : SymbolId) : TypeId :=
  if g.declaredTypeOf symbol = .error then g.typeOf symbol else g.declaredTypeOf symbol

variable {g}

theorem exists_symbol?_of_definitionOf? {symbol : SymbolId} {location : Location}
    (h : g.definitionOf? symbol = some location) :
    ∃ record, g.symbol? symbol = some record ∧ record.flags.isDefinedType = true := by
  obtain ⟨record, hrecord, h⟩ := Option.bind_eq_some_iff.1 h
  split at h
  · exact ⟨record, hrecord, ‹_›⟩
  · cases h

theorem definedTypeLocation?_eq_findSome? (type : TypeId) :
    g.definedTypeLocation? type = (g.namesOf type).findSome? g.definitionOf? := by
  unfold definedTypeLocation? namesOf
  cases g.type? type <;> rfl

/-- The location that stands for a type is the definition of the symbol that names it. -/
theorem definedTypeLocation?_eq_some {type : TypeId} {location : Location}
    (h : g.definedTypeLocation? type = some location) :
    ∃ symbol, g.namingSymbol? type = some symbol ∧ g.definitionOf? symbol = some location := by
  rw [definedTypeLocation?_eq_findSome?] at h
  obtain ⟨before, symbol, after, hnames, hdefinition, hbefore⟩ := List.findSome?_eq_some_iff.1 h
  refine ⟨symbol, List.find?_eq_some_iff_append.2 ⟨?_, before, after, hnames, ?_⟩, hdefinition⟩
  · rw [hdefinition, Option.isSome_some]
  · intro other hother
    rw [hbefore other hother, Option.isSome_none, Bool.not_false]

/-- The root of a tree has the type that the tree is about. -/
theorem id_tree (root : TreeRoot) (config : TreeConfig) :
    (g.tree root config).id = (g.occurrenceOf root).type :=
  Walk.id_walk g config _ _ _

end TypeGraph

namespace Program

variable {p : Program} {location : Location} {symbol : SymbolId}

/-- Where a symbol is found by its definition, the tree is about the type that it defines. -/
theorem treeAt?_of_symbolAt? (hdefinition : p.graph.definitionOf? symbol = some location)
    (hsymbol : p.graph.symbolAt? location.fileName location.range.start = some symbol) :
    ∃ tree, p.treeAt? location = some tree ∧ tree.id = p.graph.definedType symbol := by
  obtain ⟨record, hrecord, hflags⟩ := TypeGraph.exists_symbol?_of_definitionOf? hdefinition
  have hroot : p.rootAt? location =
      if p.graph.declaredTypeOf symbol != .error then
        some (.symbolWithType symbol (p.graph.declaredTypeOf symbol))
      else some (.symbol symbol) := by
    simp only [rootAt?, bind, hsymbol, hrecord, Option.bind_some, hflags, Bool.true_and]
  unfold TypeGraph.definedType
  by_cases hdeclared : p.graph.declaredTypeOf symbol = .error
  · rw [if_neg (by simp [hdeclared])] at hroot
    rw [if_pos hdeclared, treeAt?, hroot]
    exact ⟨_, rfl, TypeGraph.id_tree _ _⟩
  · rw [if_pos (by simp [hdeclared])] at hroot
    rw [if_neg hdeclared, treeAt?, hroot]
    exact ⟨_, rfl, TypeGraph.id_tree _ _⟩

/-- **Located references.** In a tree that a program makes, the location of a reference is the
definition of the symbol that names its type. If the start of the location leads to this symbol,
there is a tree at the location, and it shows the type of the reference just when this is the type
that the symbol defines. -/
theorem reference_leads_back (p : Program) (root : TreeRoot) {n : TypeTree} {location : Location}
    (hn : n ∈ (p.graph.tree root p.config).preorder)
    (hshape : n.shape = .reference (some location)) :
    ∃ symbol, p.graph.namingSymbol? n.id = some symbol ∧
      p.graph.definitionOf? symbol = some location ∧
      (p.graph.symbolAt? location.fileName location.range.start = some symbol →
        ∃ tree, p.treeAt? location = some tree ∧
          (tree.id = n.id ↔ p.graph.definedType symbol = n.id)) := by
  obtain ⟨-, hlocation⟩ := (p.graph.isNode_tree root p.config hn).locatedReference hshape
  obtain ⟨symbol, hnames, hdefinition⟩ := TypeGraph.definedTypeLocation?_eq_some hlocation
  refine ⟨symbol, hnames, hdefinition, fun hsymbol => ?_⟩
  obtain ⟨tree, htree, hid⟩ := treeAt?_of_symbolAt? hdefinition hsymbol
  exact ⟨tree, htree, by rw [hid]⟩

/-- Where the class of `makers` is declared. -/
def makerLocation : Location :=
  .point "main.ts" ⟨0, 6⟩

/-- A variable `{ made: Maker; maker: typeof Maker }`: an instance of a class and the class as a
value. -/
def makersVariable : Build SymbolId := do
  let symbol := SymbolId.ofIndex (← get).symbols.size
  let instanceType ← Build.class' "Maker" [] [] none []
  Build.declare symbol { kind := .class', location := makerLocation }
  let made ← Build.property "made" instanceType
  let maker ← Build.property "maker" ((← get).valueTypeOf symbol)
  Build.variableAt "v" (← Build.object [made, maker]) (.point "main.ts" ⟨1, 4⟩)

/-- The program of `makersVariable`. -/
def makers : Program where
  graph := (makersVariable .initial).2
  config := { referenceDefinedTypes := true }

/-- The tree of the variable of `makers`. -/
def makersTree : TypeTree :=
  makers.graph.tree (.symbol (makersVariable .initial).1) makers.config

/-- The instance of the class is a reference that leads back. -/
theorem reference_leads_back_made :
    ∃ n ∈ makersTree.preorder, n.shape = .reference (some makerLocation) ∧
      ∃ tree, makers.treeAt? makerLocation = some tree ∧ tree.id = n.id := by
  have hnode : ∃ n ∈ makersTree.preorder, n.shape.location? = some makerLocation ∧
      n.id = makers.graph.declaredTypeOf (.ofIndex 6) := by decide +kernel
  obtain ⟨n, hn, hlocation, hid⟩ := hnode
  have hshape := Shape.location?_eq_some_iff.1 hlocation
  obtain ⟨symbol, hnames, -, hleads⟩ := reference_leads_back makers _ hn hshape
  have hsymbol : makers.graph.namingSymbol? n.id = some (.ofIndex 6) := by
    rw [hid]
    decide +kernel
  obtain rfl := Option.some.inj (hnames.symm.trans hsymbol)
  obtain ⟨tree, htree, hback⟩ := hleads (by decide +kernel)
  exact ⟨n, hn, hshape, tree, htree, hback.2 (hid ▸ by decide +kernel)⟩

/-- The class as a value is a reference that leads to the instances, though the symbol that has
supplied the location is the one found there. -/
theorem reference_leads_elsewhere_maker :
    ∃ n ∈ makersTree.preorder, n.shape = .reference (some makerLocation) ∧
      ∃ symbol, makers.graph.namingSymbol? n.id = some symbol ∧
        makers.graph.symbolAt? makerLocation.fileName makerLocation.range.start = some symbol ∧
        ∃ tree, makers.treeAt? makerLocation = some tree ∧ tree.id ≠ n.id := by
  have hnode : ∃ n ∈ makersTree.preorder, n.shape.location? = some makerLocation ∧
      makers.graph.namingSymbol? n.id = some (.ofIndex 6) ∧
      ∃ tree ∈ makers.treeAt? makerLocation, tree.id ≠ n.id := by decide +kernel
  obtain ⟨n, hn, hlocation, hnames, tree, htree, hid⟩ := hnode
  exact ⟨n, hn, Shape.location?_eq_some_iff.1 hlocation, _, hnames, by decide +kernel, tree, htree,
    hid⟩

end Program

end TypeAtlas
