import TypeAtlas.CommandLine.Run
import TypeAtlas.Proofs.View.Agreement
import TypeAtlas.Proofs.Wire.Service
/-!
# Inspecting a served program

A program can be inspected where it is or by asking a server for its trees. Both ways give the same
tree at a location exactly when the numbers in the tree are read back from their texts, and they
give the same outline if this is so for all trees that the outline may be made of
(`Remote.inspection_agrees`). Not every finite number is read back, so there are outlines that
differ (`Remote.inspection_differs`).
-/

namespace TypeAtlas

namespace Program

/-- The locations whose trees an inspection may need: the one that is inspected, and those that
references name in the trees at such locations. -/
inductive Involves (program : Program) (start : Location) : Location → Prop
  | start : Involves program start start
  | reference {location next : Location} {tree : TypeTree}
      (before : Involves program start location) (htree : program.treeAt? location = some tree)
      (hnext : next ∈ tree.locations) : Involves program start next

/-- No other locations are involved than those in a list that is closed under references. -/
theorem Involves.mem {program : Program} {start location : Location} {locations : List Location}
    (h : program.Involves start location) (hstart : start ∈ locations)
    (hclosed : ∀ location ∈ locations, ∀ tree ∈ program.treeAt? location,
      ∀ next ∈ tree.locations, next ∈ locations) : location ∈ locations := by
  induction h with
  | start => exact hstart
  | reference _ htree hnext ih => exact hclosed _ ih _ htree _ hnext

/-- The program and what is served of it agree where all numbers are read back. -/
theorem agree_peer (program : Program) {start : Location}
    (h : ∀ location, program.Involves start location → ∀ t ∈ program.treeAt? location,
      Medium.text.Carries t) :
    Retriever.Agree program.retriever (Remote.retriever program.peer)
      (program.Involves start) where
  eq := fun location hlocation =>
    ((Remote.retriever_eq_iff program location).2 (h location hlocation)).symm
  within := fun _ _ hlocation htree _ hnext => .reference hlocation (Except.ok.inj htree) hnext

end Program

/-- Retrievers that agree from a location on lead to the same outline of what is there. -/
theorem Command.outlineAt_eq {near far : Retriever} {A : Location → Prop}
    (h : near.Agree far A) {start : Location} (hstart : A start) (expandDepth : UInt32) :
    outlineAt far start expandDepth = outlineAt near start expandDepth := by
  rw [outlineAt, outlineAt, ← h.eq start hstart]
  cases hfound : near start with
  | error failure => dsimp only [bind, Except.bind]
  | ok found =>
    dsimp only [bind, Except.bind]
    cases found with
    | none => dsimp only
    | some tree =>
      have htree := h.within start tree hstart hfound
      dsimp only
      rw [TypeTree.outline_eq h htree { expandDepth }]

namespace Remote

/-- **Remote inspection.** A served program gives the tree that the program itself has at a location
exactly when all numbers in the tree are read back from their texts. If this is so at all locations
that an inspection involves, then all trees that are asked for in one conversation are those of the
program, and the outline is the same. -/
theorem inspection_agrees (program : Program) :
    (∀ location, retriever program.peer location = program.retriever location ↔
      ∀ t ∈ program.treeAt? location, ∀ d ∈ t.numbers, d.ReadsBack) ∧
    ∀ start, (∀ location, program.Involves start location →
        ∀ t ∈ program.treeAt? location, ∀ d ∈ t.numbers, d.ReadsBack) →
      (∀ locations : List Location, (∀ location ∈ locations, program.Involves start location) →
        (fetch locations program.conversation).1 = locations.map program.retriever) ∧
      ∀ expandDepth, Command.outlineAt (retriever program.peer) start expandDepth =
        Command.outlineAt program.retriever start expandDepth := by
  have hcarries (t : TypeTree) : Medium.text.Carries t ↔ ∀ d ∈ t.numbers, d.ReadsBack :=
    forall₂_congr fun d _ => Medium.text_number?_eq_self
  simp only [← hcarries]
  refine ⟨retriever_eq_iff program, fun start h => ⟨fun locations hlocations => ?_, ?_⟩⟩
  · exact fetch_eq program program.ready_conversation fun location hlocation =>
      h location (hlocations location hlocation)
  · exact Command.outlineAt_eq (program.agree_peer h) .start

end Remote

/-! ## A number that is read back, and one that is not -/

namespace Program

/-- The place of the variable of `limited`. -/
def limitedLocation : Location :=
  .point "main.ts" ⟨0, 4⟩

/-- The place of the interface of `limited`. -/
def limitsLocation : Location :=
  .point "main.ts" ⟨1, 10⟩

/-- A variable with a property of an interface type, and the interface has a property of a number
literal type. -/
def limitedVariable (limit : Double) : Build SymbolId := do
  let property ← Build.property "limit" (← Build.literalNumber limit)
  let symbol ← Build.createSymbol "Limits" SymbolFlags.interface
  Build.declare symbol { kind := .interface, location := limitsLocation }
  let limits ← Build.newObjectType ObjectFlags.interface (some symbol)
  Build.setObjectMembers limits { properties := [property] }
  Build.setDeclaredType symbol limits
  let type ← Build.object [← Build.property "limits" limits]
  Build.variableAt "v" type limitedLocation

/-- The program of `limitedVariable`. -/
def limited (limit : Double) : Program where
  graph := (limitedVariable limit .initial).2
  config := { referenceDefinedTypes := true }

/-- The number `1e16`, which is read back. -/
def plainLimit : Double :=
  ⟨0x4341C37937E08000⟩

/-- The number `5.0000000000000004e32`, whose text is read as `5e32`. -/
def strayLimit : Double :=
  ⟨0x46B8A6E32246C99D⟩

end Program

namespace Remote

open Program

/-- An inspection that asks for two trees. -/
theorem inspection_limited_agrees :
    (limited plainLimit).Involves limitedLocation limitsLocation ∧
      ∀ expandDepth,
        Command.outlineAt (retriever (limited plainLimit).peer) limitedLocation expandDepth =
          Command.outlineAt (limited plainLimit).retriever limitedLocation expandDepth := by
  have hclosed : ∀ location ∈ [limitedLocation, limitsLocation],
      ∀ tree ∈ (limited plainLimit).treeAt? location, ∀ next ∈ tree.locations,
        next ∈ [limitedLocation, limitsLocation] := by decide +kernel
  have hread : ∀ location ∈ [limitedLocation, limitsLocation],
      ∀ tree ∈ (limited plainLimit).treeAt? location, ∀ d ∈ tree.numbers, d.ReadsBack := by
    decide +kernel
  have hnext : ∃ tree ∈ (limited plainLimit).treeAt? limitedLocation,
      limitsLocation ∈ tree.locations := by decide +kernel
  obtain ⟨tree, htree, hnext⟩ := hnext
  refine ⟨.reference .start htree hnext, ?_⟩
  exact ((inspection_agrees (limited plainLimit)).2 limitedLocation fun location hlocation =>
    hread location (hlocation.mem List.mem_cons_self hclosed)).2

/-- Though all its numbers are finite, a program is shown with another number when it is served. -/
theorem inspection_differs :
    (∀ location, (limited strayLimit).Involves limitedLocation location →
      ∀ tree ∈ (limited strayLimit).treeAt? location, ∀ d ∈ tree.numbers, d.isFinite = true) ∧
    Command.outlineAt (retriever (limited strayLimit).peer) limitedLocation 3 ≠
      Command.outlineAt (limited strayLimit).retriever limitedLocation 3 := by
  have hclosed : ∀ location ∈ [limitedLocation, limitsLocation],
      ∀ tree ∈ (limited strayLimit).treeAt? location, ∀ next ∈ tree.locations,
        next ∈ [limitedLocation, limitsLocation] := by decide +kernel
  have hfinite : ∀ location ∈ [limitedLocation, limitsLocation],
      ∀ tree ∈ (limited strayLimit).treeAt? location, ∀ d ∈ tree.numbers, d.isFinite = true := by
    decide +kernel
  constructor
  · exact fun location hlocation => hfinite location (hlocation.mem List.mem_cons_self hclosed)
  · rw [retriever_eq]
    decide +kernel

end Remote

end TypeAtlas
