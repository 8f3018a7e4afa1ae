import TypeAtlas.Config
import TypeAtlas.Graph.Builder
import TypeAtlas.Graph.Printing
/-!
# Merging intersections

`Merge.expand` reduces a type to one in which intersections of objects are merged property by
property: `{ a: A } & { a: B; b: C }` becomes `{ a: A & B; b: C }`, with `A & B` merged in turn.
Unions distribute over intersections: `(A | B) & C` becomes `(A & C) | (B & C)`. What is made is
added to the graph, and nothing that is there already changes.

Merging one type that is being merged further up, or was merged before, gives the type already made
for it. Below the lowest level the constituents are left as they are.
-/

namespace TypeAtlas

/-- The state of merging: the graph, and the type made for each type that was merged by itself. -/
structure MergeContext where
  graph : TypeGraph
  made : List (TypeId × TypeId) := []
  deriving Inhabited

/-- A step of merging. -/
abbrev Merge := StateM MergeContext

namespace TypeGraph

variable (g : TypeGraph)

/-- A union that is neither `boolean` nor an enum. -/
def isDistributableUnion (id : TypeId) : Bool :=
  let flags := g.typeFlags id
  flags.has TypeFlags.union && !flags.meets (TypeFlags.boolean ||| TypeFlags.enum)

/-- The constituents of nested intersections, at most the given number of levels down. -/
def flattenWithin : Nat → TypeId → List TypeId
  | 0, id => [id]
  | levels + 1, id =>
    match g.data? id with
    | some (.intersection types) => types.flatMap (flattenWithin levels)
    | _ => [id]

/-- The constituents of nested intersections. Only an intersection that contains itself is deeper
than the graph has types. -/
def flatten (id : TypeId) : List TypeId :=
  g.flattenWithin (g.types.size + 1) id

/-- Properties by name, the names in the order in which they first occur. -/
def groupByName (properties : List SymbolId) : List (String × List SymbolId) :=
  properties.foldl insertByName []
where
  /-- A property put with those of its name. -/
  insertByName (groups : List (String × List SymbolId)) (property : SymbolId) :
      List (String × List SymbolId) :=
    match g.symbolName? property with
    | none => groups
    | some name =>
      if groups.any (·.1 == name) then
        groups.map fun group => if group.1 == name then (name, group.2 ++ [property]) else group
      else groups ++ [(name, [property])]

end TypeGraph

namespace Merge

/-- A change to the graph. -/
def build (change : Build α) : Merge α := fun context =>
  let (answer, graph) := change context.graph
  (answer, { context with graph })

/-- Notes the type made for a single type. -/
def note (key : List TypeId) (made : TypeId) : Merge Unit :=
  match key with
  | [single] => modify fun context => { context with made := (single, made) :: context.made }
  | _ => pure ()

variable (merge : List TypeId → Merge TypeId)

/-- The property made of the properties of one name. It is optional if all of them are, and
read-only if one of them is. -/
def property (name : String) (symbols : List SymbolId) : Merge SymbolId := do
  let g := (← get).graph
  let records := symbols.filterMap g.symbol?
  let optional := records.all (·.flags.has SymbolFlags.optional)
  let readonly := records.any (·.checkFlags.has CheckFlags.readonly)
  let type ← merge (symbols.map g.typeOf)
  build (Build.newPropertySymbol name (if optional then SymbolFlags.optional else Flags.empty)
    (if readonly then CheckFlags.syntheticProperty ||| CheckFlags.readonly
      else CheckFlags.syntheticProperty)
    type (records.flatMap (·.declarations)))

/-- The object made of several objects. It is noted before its properties are merged, so that a
property may lead back to it. -/
def objects (objects key : List TypeId) : Merge TypeId := do
  let made ← build (Build.newObjectType ObjectFlags.anonymous none)
  note key made
  let g := (← get).graph
  let groups := g.groupByName (objects.flatMap g.properties)
  let properties ← groups.mapM fun (name, symbols) => property merge name symbols
  build (Build.setObjectMembers made
    { properties
      callSignatures := objects.flatMap g.callSignatures
      constructSignatures := objects.flatMap g.constructSignatures
      indexInfos := objects.flatMap g.indexInfos })
  return made

/-- A union among other constituents: each member takes the place of the union. -/
def distribute (before after members key : List TypeId) : Merge TypeId := do
  let merged ← members.mapM fun member => merge (before ++ [member] ++ after)
  let union ← build (Build.union merged)
  note key union
  return union

/-- Constituents without unions among them. -/
def intersect (constituents key : List TypeId) : Merge TypeId := do
  let g := (← get).graph
  let (plain, others) := (Build.distinct constituents).partition g.isPlainObject
  match plain, others with
  | [], [] => return .unknown
  | [], [single] => build (Build.cloneWithoutAlias single)
  | [], _ => build (Build.intersection others)
  | _, [] => objects merge plain key
  | _, _ =>
    let made ← objects merge plain key
    build (Build.intersection (made :: others))

/-- The type made of several types, by what they are. -/
def classified (types : List TypeId) : Merge TypeId := do
  let g := (← get).graph
  let constituents := types.flatMap g.flatten
  match constituents.span (!g.isDistributableUnion ·) with
  | (before, union :: after) =>
    let members := match g.data? union with
      | some (.union members) => members
      | _ => []
    distribute merge before after members types
  | (_, []) => intersect merge constituents types

/-- The type made of several types, with a number of levels left. -/
def mergeWithin : Nat → List TypeId → Merge TypeId
  | levels, types => do
    let context ← get
    let known := match types with
      | [single] => context.made.lookup single
      | _ => none
    match known with
    | some made => return made
    | none =>
      match levels, types with
      | 0, [single] => return single
      | 0, _ => build (Build.intersection types)
      | levels + 1, _ => classified (mergeWithin levels) types

end Merge

namespace Build

/-- Merges a type. The answer is the type that was made for it. -/
def expand (type : TypeId) (config : TreeConfig) : Build TypeId := fun g =>
  let (made, context) := Merge.mergeWithin config.maxDepth.toNat [type] { graph := g }
  (made, context.graph)

/-- Merges a type and prints what was made. -/
def expandToText (type : TypeId) (config : TreeConfig) : Build String := do
  let made ← expand type config
  return (← get).typeText made

end Build

end TypeAtlas
