import TypeAtlas.Program
import TypeAtlas.Proofs.Merge.Synthesis
import TypeAtlas.Proofs.Merge.Growth
import TypeAtlas.Proofs.Walk.Extension
/-!
# Trees after expansions

Expanding types adds records to the graph of a program, and properties among them that repeat the
declarations of the properties they are made of. Still each location names what it named before
(`Program.Follows.rootAt?_eq`), and has the same tree as before (`Program.treeAt?_afterExpansions`):
nothing that was there before leads to what was added.
-/

namespace TypeAtlas

open TypeGraph

namespace Program

/-- The program after the types at several locations were expanded, one after the other. -/
def afterExpansions (program : Program) (locations : List Location) : Program :=
  locations.foldl (fun program location => (program.expandedAt location).2) program

/-- The second program is the first one after something was added to its graph. -/
structure Follows (p q : Program) : Prop where
  config : q.config = p.config
  appends : p.graph.Appends q.graph
  redeclares : p.graph.Redeclares q.graph

namespace Follows

variable {p q r : Program}

theorem refl (p : Program) : p.Follows p :=
  ⟨rfl, .refl p.graph, .refl p.graph⟩

theorem trans (hpq : p.Follows q) (hqr : q.Follows r) : p.Follows r where
  config := hqr.config.trans hpq.config
  appends := hpq.appends.trans hqr.appends
  redeclares := hpq.redeclares.trans hqr.redeclares

end Follows

theorem expandedAt_of_rootAt? {p : Program} {location : Location} {root : TreeRoot}
    (h : p.rootAt? location = some root) :
    p.expandedAt location =
      (some (Build.expandToText (p.typeOfRoot root) p.config p.graph).1,
        { p with graph := (Build.expand (p.typeOfRoot root) p.config p.graph).2 }) := by
  rw [expandedAt, h]
  rfl

theorem expandedAt_of_rootAt?_eq_none {p : Program} {location : Location}
    (h : p.rootAt? location = none) : p.expandedAt location = (none, p) := by
  rw [expandedAt, h]

/-- One expansion. -/
theorem follows_expandedAt (p : Program) (location : Location) :
    p.Follows (p.expandedAt location).2 := by
  cases hroot : p.rootAt? location with
  | none => exact expandedAt_of_rootAt?_eq_none hroot ▸ .refl p
  | some root =>
    rw [expandedAt_of_rootAt? hroot]
    exact ⟨rfl, Build.expand_appends _ _ _, Build.expand_redeclares _ _ _⟩

/-- By induction on the expansions. -/
theorem follows_afterExpansions (p : Program) (locations : List Location) :
    p.Follows (p.afterExpansions locations) := by
  induction locations generalizing p with
  | nil => exact .refl p
  | cons location locations ih =>
    exact (p.follows_expandedAt location).trans (ih (p.expandedAt location).2)

/-- What a location names is there, and so is its type. -/
theorem hasPlace_of_rootAt? {p : Program} (hp : p.graph.Closed)
    (hsymbols : p.graph.symbols.size ≤ UInt32.size) {location : Location} {root : TreeRoot}
    (h : p.rootAt? location = some root) : p.graph.HasPlace (p.graph.occurrenceOf root) := by
  obtain ⟨symbol, hsymbol, h⟩ := Option.bind_eq_some_iff.1 h
  obtain ⟨record, -, h⟩ := Option.bind_eq_some_iff.1 h
  have hhas := hasSymbol_of_symbolAt? hsymbols hsymbol
  dsimp only at h
  split at h
  · cases h
    exact ⟨hp.inBounds.declaredTypeOf symbol, fun heq => Option.some.inj heq ▸ hhas⟩
  · cases h
    exact ⟨hp.inBounds.typeOf symbol, fun heq => Option.some.inj heq ▸ hhas⟩

namespace Follows

variable {p q : Program} (hpq : p.Follows q) (hp : p.graph.Closed)
  (hsymbols : p.graph.symbols.size ≤ UInt32.size) (htypes : q.graph.types.size ≤ UInt32.size)

include hpq hsymbols htypes

/-- A location names the same as before. -/
theorem rootAt?_eq (location : Location) : q.rootAt? location = p.rootAt? location := by
  have hextends := hpq.appends.extends_of_le htypes
  unfold rootAt?
  simp only [bind]
  rw [hextends.symbolAt?_eq hpq.redeclares]
  apply Option.bind_congr
  intro symbol hsymbol
  have hhas := hasSymbol_of_symbolAt? hsymbols hsymbol
  rw [hextends.symbol?_eq hhas, hextends.declaredTypeOf_eq hhas]

include hp

/-- A location has the same tree as before. -/
theorem treeAt?_eq (location : Location) : q.treeAt? location = p.treeAt? location := by
  unfold treeAt?
  rw [hpq.rootAt?_eq hsymbols htypes, hpq.config]
  apply Option.map_congr
  intro root hroot
  exact (hpq.appends.extends_of_le htypes).tree_eq hp (hasPlace_of_rootAt? hp hsymbols hroot) _

end Follows

/-- Expansions change no tree: after any number of them, at whatever locations, each location has
the tree that it had before. -/
theorem treeAt?_afterExpansions (p : Program) (locations : List Location) (hp : p.graph.Closed)
    (htypes : (p.afterExpansions locations).graph.types.size ≤ UInt32.size)
    (hsymbols : (p.afterExpansions locations).graph.symbols.size ≤ UInt32.size)
    (location : Location) :
    (p.afterExpansions locations).treeAt? location = p.treeAt? location := by
  have hfollows := p.follows_afterExpansions locations
  have hsize := (hfollows.appends.extends_of_le htypes).symbols_size
  exact hfollows.treeAt?_eq hp (hsize.trans hsymbols) htypes location

/-- The place of the variable of `merged`. -/
def mergedLocation : Location :=
  .point "main.ts" ⟨0, 4⟩

/-- A variable whose type is an intersection of two objects that declare a property of the same
name. -/
def mergedVariable : Build SymbolId := do
  let first ← Build.property "a" .string
  Build.declare first { kind := .propertySignature, location := .point "main.ts" ⟨1, 2⟩ }
  let second ← Build.property "a" .number
  Build.declare second { kind := .propertySignature, location := .point "main.ts" ⟨2, 2⟩ }
  let type ← Build.intersection [← Build.object [first], ← Build.object [second]]
  Build.variableAt "v" type mergedLocation

/-- The program of `mergedVariable`. -/
def merged : Program where
  graph := (mergedVariable .initial).2
  config := {}

/-- Expanding the variable twice adds types and properties. -/
theorem treeAt?_afterExpansions_merged :
    merged.graph.symbols.size + 2 ≤
      (merged.afterExpansions [mergedLocation, mergedLocation]).graph.symbols.size ∧
    ∀ location, (merged.afterExpansions [mergedLocation, mergedLocation]).treeAt? location =
      merged.treeAt? location :=
  ⟨by decide +kernel, treeAt?_afterExpansions merged _ (by decide +kernel) (by decide +kernel)
    (by decide +kernel)⟩

end Program

end TypeAtlas
