import TypeAtlas.Graph.Snapshot
import TypeAtlas.Merge
import TypeAtlas.Outline
import TypeAtlas.Tree.Walk
/-!
# Programs

A checked program answers questions about the symbol at a place in its source: as a tree
(`Program.treeAt?`) and as the text of its merged type (`Program.expandedAt`). Merging adds to the
graph of the program, so that answer comes with the program that has grown.
-/

namespace TypeAtlas

/-- A graph and the options for the trees made from it. -/
structure Program where
  graph : TypeGraph
  config : TreeConfig
  deriving Inhabited

namespace Program

/-- What a location names: the type declared there, if a named type is, and else the symbol. Only
the start of the location counts. -/
def rootAt? (program : Program) (location : Location) : Option TreeRoot := do
  let symbol ← program.graph.symbolAt? location.fileName location.range.start
  let record ← program.graph.symbol? symbol
  let declared := program.graph.declaredTypeOf symbol
  if record.flags.isDefinedType && declared != .error then
    some (.symbolWithType symbol declared)
  else some (.symbol symbol)

/-- The tree of what a location names. -/
def treeAt? (program : Program) (location : Location) : Option TypeTree :=
  (program.rootAt? location).map fun root => program.graph.tree root program.config

/-- The type that a root is about. -/
def typeOfRoot (program : Program) : TreeRoot → TypeId
  | .symbol symbol => program.graph.typeOf symbol
  | .type type => type
  | .symbolWithType _ type => type

/-- The text of the merged type of what a location names, and the program with what merging
added. -/
def expandedAt (program : Program) (location : Location) : Option String × Program :=
  match program.rootAt? location with
  | none => (none, program)
  | some root =>
    let (text, graph) :=
      Build.expandToText (program.typeOfRoot root) program.config program.graph
    (some text, { program with graph })

/-- Finds trees in the program itself. -/
def retriever (program : Program) : Retriever :=
  fun location => .ok (program.treeAt? location)

end Program

/-- The outline of a tree, made by a new resolver. -/
def TypeTree.outline (tree : TypeTree) (retriever : Option Retriever)
    (options : OutlineOptions) : String :=
  let steps : Resolve String := do
    Outline.text retriever options (← Resolve.localize retriever (.ofTree tree))
  (steps {}).1

end TypeAtlas
