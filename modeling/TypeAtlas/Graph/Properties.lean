import TypeAtlas.Graph.Query
/-!
# Properties of a type

An object has its own properties and those of its base types, an intersection has the properties of
all its members, and a union those that all its members have; each name counts once. A type met for
the second time on the way contributes nothing more, so the search ends on every graph: a chain of
types, each inside the one before, is never longer than the graph (`collect`).
-/

namespace TypeAtlas.TypeGraph

variable (g : TypeGraph)

/-- Whether a property of the same name is in the list. -/
def hasNameOf (symbols : List SymbolId) (candidate : SymbolId) : Bool :=
  symbols.any fun symbol => g.symbolName? symbol == g.symbolName? candidate

/-- A property added at the end, unless its name is there already. -/
def pushUnique (symbols : List SymbolId) (candidate : SymbolId) : List SymbolId :=
  if g.hasNameOf symbols candidate then symbols else symbols ++ [candidate]

/-- The types met and the properties found so far. -/
structure Found where
  seen : List TypeId := []
  properties : List SymbolId := []

/-- The properties of a type, added to those found so far. -/
def collect : Nat → TypeId → Found → Found
  | 0, _, found => found
  | fuel + 1, id, found =>
    if found.seen.contains id then found
    else
      let seen := id :: found.seen
      match g.data? id with
      | some (.object _) =>
        match g.resolvedObject? id with
        | some object =>
          let own := object.properties.foldl g.pushUnique found.properties
          object.baseTypes.foldl (fun found base => collect fuel base found) ⟨seen, own⟩
        | none => ⟨seen, found.properties⟩
      | some (.intersection types) =>
        types.foldl (fun found member => collect fuel member found) ⟨seen, found.properties⟩
      | some (.union types) =>
        match types.map fun member => (collect fuel member ⟨seen, []⟩).properties with
        | first :: rest =>
          let common := first.filter fun property =>
            rest.all fun properties => g.hasNameOf properties property
          ⟨seen, common.foldl g.pushUnique found.properties⟩
        | [] => ⟨seen, found.properties⟩
      | _ => ⟨seen, found.properties⟩

/-- The properties of a type. -/
def properties (id : TypeId) : List SymbolId :=
  (g.collect (g.types.size + 2) id {}).properties

end TypeAtlas.TypeGraph
