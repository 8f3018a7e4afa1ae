import TypeAtlas.Proofs.Merge.Members
import TypeAtlas.Proofs.Merge.Outcome
/-!
# The expansion of an object

Expanding a plain object adds an object, merges the properties of the old one in it one after the
other (`Merge.propertyRun`), and gives the new object what was made as its members
(`Build.expand_plain`). The new object has a property of each name that the old one has
(`Build.names_expand`).
-/

namespace TypeAtlas

open TypeGraph

/-- An object type, by flags and by structure, that is neither callable nor an array nor a tuple. -/
structure TypeGraph.PlainObject (g : TypeGraph) (id : TypeId) : Prop where
  object : ∃ object, g.data? id = some (.object object)
  plain : g.isPlainObject id = true
  notUnion : g.isDistributableUnion id = false

namespace TypeGraph.PlainObject

variable {g : TypeGraph} {id : TypeId} (h : g.PlainObject id)

include h

theorem hasType : g.HasType id :=
  h.object.elim fun _ hdata => hasType_of_data? hdata

theorem flatten_eq : g.flatten id = [id] := by
  obtain ⟨object, hdata⟩ := h.object
  apply flatten_of_not_intersection
  intro types heq
  rw [hdata] at heq
  cases heq

theorem noted : g.Noted id :=
  ⟨id, h.flatten_eq ▸ List.mem_singleton_self id, Or.inr h.plain⟩

end TypeGraph.PlainObject

namespace Merge

variable (g : TypeGraph) (levels : Nat) (object : TypeId)

/-- The state in which an object is expanded: what is made of it was added, and has no members. -/
def start : MergeContext :=
  ({ graph := g } : MergeContext).opened [object]

/-- Merging the properties of an object that is expanded. -/
def propertyRun : List SymbolId × MergeContext :=
  mergeProperties (mergeWithin levels) (g.groupByName (g.properties object)) (start g object)

variable {g levels object}

theorem mergeWithin_plain (hobject : g.PlainObject object) :
    mergeWithin (levels + 1) [object] { graph := g } =
      objects (mergeWithin levels) [object] [object] { graph := g } := by
  have hdistinct : Build.distinct [object] = [object] := rfl
  have hrun : mergeWithin (levels + 1) [object] { graph := g } =
      objects (mergeWithin levels) (Build.distinct [object]) [object] { graph := g } :=
    mergeWithin_of_objects rfl hobject.flatten_eq (List.cons_ne_nil _ _)
      (List.forall_mem_singleton.2 hobject.plain) (List.forall_mem_singleton.2 hobject.notUnion)
  rwa [hdistinct] at hrun

theorem from_start (hobject : g.PlainObject object) : (start g object).From g := by
  refine (from_opened (s := { graph := g }) ⟨.refl g, fun h => ?_⟩ rfl fun _ h => ?_).1
  · cases h
  · exact noted_of_sole hobject.noted h

theorem objects_plain (hg : g.InBounds) (hobject : g.PlainObject object) :
    objects (mergeWithin levels) [object] [object] { graph := g } =
      let run := propertyRun g levels object
      (.ofIndex g.types.size, { run.2 with
        graph := (Build.setObjectMembers (.ofIndex g.types.size)
          (g.mergedMembers [object] run.1) run.2.graph).2 }) := by
  have hrun := objects_of_extends hg (s := { graph := g }) (.refl g)
    (List.forall_mem_singleton.2 hobject.hasType) (mergeWithin levels) [object]
  rw [List.flatMap_singleton] at hrun
  exact hrun

end Merge

namespace Build

variable {g : TypeGraph} {object : TypeId} {config : TreeConfig} {levels : Nat} (hg : g.InBounds)
  (hobject : g.PlainObject object) (hlevels : config.maxDepth.toNat = levels + 1)

include hg hobject hlevels

/-- Expanding a plain object: the merged properties are set as the members of a new object. -/
theorem expand_plain :
    expand object config g =
      let run := Merge.propertyRun g levels object
      (.ofIndex g.types.size, (setObjectMembers (.ofIndex g.types.size)
        (g.mergedMembers [object] run.1) run.2.graph).2) := by
  rw [expand, hlevels, Merge.mergeWithin_plain hobject, Merge.objects_plain hg hobject]

theorem types_size_expand :
    (Merge.propertyRun g levels object).2.graph.types.size =
      (expand object config g).2.types.size := by
  rw [expand_plain hg hobject hlevels]
  exact (types_size_modifyType _ _ _).symm

theorem symbols_expand :
    (expand object config g).2.symbols = (Merge.propertyRun g levels object).2.graph.symbols := by
  rw [expand_plain hg hobject hlevels]
  exact symbols_modifyType _ _ _

/-- Only the new object is changed in the end. -/
theorem type?_expand_of_ne {type : TypeId} (hne : type ≠ (expand object config g).1) :
    (expand object config g).2.type? type =
      (Merge.propertyRun g levels object).2.graph.type? type := by
  rw [expand_plain hg hobject hlevels] at hne ⊢
  exact type?_modifyType_of_ne hne _

variable (htypes : (expand object config g).2.types.size ≤ UInt32.size)

include htypes

theorem propertyRun_extends :
    (Merge.start g object).graph.Extends (Merge.propertyRun g levels object).2.graph := by
  rw [← types_size_expand hg hobject hlevels] at htypes
  exact (Merge.grows_mergeProperties (Merge.grows_mergeWithin levels) _ _).extends_of_le htypes

theorem types_size_start_le : g.types.size + 1 ≤ UInt32.size := by
  have hle := (propertyRun_extends hg hobject hlevels htypes).types_size
  rw [types_size_expand hg hobject hlevels, Merge.start, Merge.types_size_opened] at hle
  exact hle.trans htypes

theorem index_expand : (expand object config g).1.index = g.types.size := by
  rw [expand_plain hg hobject hlevels]
  exact TypeId.index_ofIndex (types_size_start_le hg hobject hlevels htypes)

/-- The merged types keep their records when the members of the object are set. -/
theorem type?_expand_of_le {type : TypeId} {record : TypeRecord}
    (hle : (Merge.start g object).graph.types.size ≤ type.index)
    (h : (Merge.propertyRun g levels object).2.graph.type? type = some record) :
    (expand object config g).2.type? type = some record := by
  rw [Merge.start, Merge.types_size_opened] at hle
  refine (type?_expand_of_ne hg hobject hlevels fun heq => ?_).trans h
  rw [heq, index_expand hg hobject hlevels htypes] at hle
  exact Nat.not_succ_le_self _ hle

theorem type?_expand :
    (expand object config g).2.type? (expand object config g).1 = some (mergedRecord
      (g.mergedMembers [object]
        (Merge.propertyRun g levels object).1)) := by
  have hrecord : (Merge.start g object).graph.type? (.ofIndex g.types.size) =
      some (mergedRecord {}) :=
    Merge.type?_opened _ _ (types_size_start_le hg hobject hlevels htypes)
  have hextends := propertyRun_extends hg hobject hlevels htypes
  rw [← hextends.type?_eq (hasType_of_type? hrecord)] at hrecord
  rw [expand_plain hg hobject hlevels]
  exact type?_modifyType_self hrecord _

variable (hsymbols : (expand object config g).2.symbols.size ≤ UInt32.size)

include hsymbols

/-- The properties that are made have the names of the old ones. -/
theorem names_expand :
    (Merge.propertyRun g levels object).1.map (expand object config g).2.symbolName? =
      (g.properties object).map g.symbolName? := by
  have hnames : (expand object config g).2.symbolName? =
      (Merge.propertyRun g levels object).2.graph.symbolName? := by
    funext symbol
    rw [symbolName?, symbol?, symbols_expand hg hobject hlevels]
    rfl
  rw [symbols_expand hg hobject hlevels] at hsymbols
  rw [← types_size_expand hg hobject hlevels] at htypes
  have hgroups := Merge.names_mergeProperties (Merge.grows_mergeWithin levels) htypes hsymbols
    (g.groupByName (g.properties object)) (Merge.start g object) (.refl _)
  rw [groupByName_of_distinct (distinctNames_properties g object),
    names_soleGroups fun _ => hg.properties,
    ← groupByName_of_distinct (distinctNames_properties g object)] at hgroups
  rw [hnames]
  exact hgroups

/-- The new object has all of them as properties. -/
theorem properties_expand :
    (expand object config g).2.properties (expand object config g).1 =
      (Merge.propertyRun g levels object).1 := by
  refine properties_of_merged (type?_expand hg hobject hlevels htypes) ?_
  have hnames := names_expand hg hobject hlevels htypes hsymbols
  have hdistinct := distinctNames_properties g object
  rw [DistinctNames, ← List.pairwise_map] at hdistinct ⊢
  exact hnames ▸ hdistinct

end Build

end TypeAtlas
