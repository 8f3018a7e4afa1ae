import TypeAtlas.Json.Decode
/-!
# Options of a tree
-/

namespace TypeAtlas

/-- How deep a tree goes and what it leaves to references. -/
structure TreeConfig where
  /-- Nodes below this level are cut off. -/
  maxDepth : UInt32 := 6
  /-- Whether named types below the root become references to where they are declared. -/
  referenceDefinedTypes : Bool := false
  deriving DecidableEq, Inhabited, Repr

namespace TreeConfig

def toJson (config : TreeConfig) : Json :=
  .obj [("maxDepth", .ofNat config.maxDepth.toNat),
    ("referenceDefinedTypes", .bool config.referenceDefinedTypes)]

def ofJson? (json : Json) : Option TreeConfig := do
  let members ← json.members?
  let default : TreeConfig := {}
  let maxDepth ← members.orDefault? "maxDepth" Json.uint32? default.maxDepth
  let referenceDefinedTypes ←
    members.orDefault? "referenceDefinedTypes" Json.boolean? default.referenceDefinedTypes
  some ⟨maxDepth, referenceDefinedTypes⟩

end TreeConfig

end TypeAtlas
