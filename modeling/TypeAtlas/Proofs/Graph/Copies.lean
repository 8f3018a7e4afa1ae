import TypeAtlas.Proofs.Graph.Levels
import TypeAtlas.Proofs.Graph.Properties
/-!
# Types with the same record

When a graph is extended, two new types may get the same record. As long as the record leads to the
old types only, no question tells the two apart (`TypeGraph.Alike`), not even the search for
properties, which remembers the types it has met (`TypeGraph.Alike.properties_eq`). So both have the
same text (`TypeGraph.typeText?_eq_of_copies`).
-/

namespace TypeAtlas.TypeGraph

variable {g h : TypeGraph}

/-- Two types of an extended graph with one record, which leads to types and symbols of the old
graph. Either they are the same or both are new. -/
structure Alike (g h : TypeGraph) (a b : TypeId) : Prop where
  type : h.type? a = h.type? b
  held : ∀ r, h.type? a = some r → ∀ handle ∈ r.handles, g.Holds handle
  old : ∀ id, g.HasType id → (id = a ↔ id = b)

theorem Extends.alike_refl (hgh : g.Extends h) (hg : g.InBounds) {id : TypeId}
    (hid : g.HasType id) : g.Alike h id id where
  type := rfl
  held _ hrecord _ hhandle := hg.type (hgh.type?_eq hid ▸ hrecord) hhandle
  old _ _ := Iff.rfl

namespace Alike

variable {a b : TypeId} (hab : g.Alike h a b)

include hab

theorem symm : g.Alike h b a where
  type := hab.type.symm
  held record hrecord := hab.held record (hab.type.trans hrecord)
  old id hid := (hab.old id hid).symm

theorem data?_eq : h.data? a = h.data? b :=
  congrArg (Option.map _) hab.type

theorem object?_eq : h.object? a = h.object? b :=
  congrArg (Option.bind · _) hab.type

theorem held_data {data : TypeData} (hdata : h.data? a = some data) {handle : Handle}
    (hhandle : handle ∈ data.handles) : g.Holds handle := by
  obtain ⟨record, hrecord, rfl⟩ := Option.map_eq_some_iff.1 hdata
  exact hab.held record hrecord handle (List.mem_append_right _ hhandle)

theorem object {object : ObjectType} (hobject : h.object? a = some object) :
    g.HoldsObject object :=
  fun _ => hab.held_data (data?_of_object? hobject)

/-- An object type that refers to itself is one of the old ones, and then both are the same. -/
theorem resolvedObject?_eq : h.resolvedObject? a = h.resolvedObject? b := by
  unfold resolvedObject?
  rw [← hab.object?_eq]
  apply Option.map_congr
  intro object hobject
  split
  · next target htarget =>
    simp only [hab.old target ((hab.object hobject).target htarget)]
  · rfl

theorem resolvedObject (hgh : g.Extends h) (hg : g.InBounds) {object : ObjectType}
    (hobject : h.resolvedObject? a = some object) : g.HoldsObject object := by
  rcases resolvedObject?_cases hobject with hown | ⟨own, target, hown, htarget, hfound⟩
  · exact hab.object hown
  · exact (hgh.alike_refl hg ((hab.object hown).target htarget)).object hfound

end Alike

/-! ## The search for properties -/

/-- Searches that have found the same old symbols and have met the same of the old types. -/
structure Found.Agrees (g : TypeGraph) (found found' : Found) : Prop where
  properties : found.properties = found'.properties
  held : ∀ property ∈ found.properties, g.HasSymbol property
  seen : ∀ id, g.HasType id → (id ∈ found.seen ↔ id ∈ found'.seen)

section

variable {search : TypeId → Found → Found}
  (hsearch : ∀ {id found found'}, g.HasType id → found.Agrees g found' →
    (search id found).Agrees g (search id found'))

include hsearch

theorem foldl_agrees : ∀ {types : List TypeId} {found found' : Found},
    (∀ type ∈ types, g.HasType type) → found.Agrees g found' →
      (types.foldl (fun found type => search type found) found).Agrees g
        (types.foldl (fun found type => search type found) found')
  | [], _, _, _, hfound => hfound
  | type :: types, found, found', htypes, hfound => by
    rw [List.forall_mem_cons] at htypes
    rw [List.foldl_cons, List.foldl_cons]
    exact foldl_agrees htypes.2 (hsearch htypes.1 hfound)

theorem Alike.collectAt_agrees (hgh : g.Extends h) (hg : g.InBounds) {a b : TypeId}
    (hab : g.Alike h a b) {found found' : Found} (hfound : found.Agrees g found') :
    (h.collectAt search a found).Agrees g (h.collectAt search b found') := by
  have hnil : ∀ property ∈ ([] : List SymbolId), g.HasSymbol property :=
    fun _ h => absurd h List.not_mem_nil
  have hmet : ∀ properties : List SymbolId, (∀ property ∈ properties, g.HasSymbol property) →
      Found.Agrees g ⟨a :: found.seen, properties⟩ ⟨b :: found'.seen, properties⟩ := by
    refine fun properties hheld => ⟨rfl, hheld, fun id hid => ?_⟩
    rw [List.mem_cons, List.mem_cons]
    exact or_congr (hab.old id hid) (hfound.seen id hid)
  unfold collectAt
  rw [← hab.data?_eq, ← hab.resolvedObject?_eq, ← hfound.properties]
  split
  · split
    · next object hobject =>
      have hheld := hab.resolvedObject hgh hg hobject
      refine foldl_agrees hsearch (fun _ => hheld.baseTypes) (hmet _ ?_)
      exact forall_mem_foldl_pushUnique hfound.held fun _ => hheld.properties
    · exact hmet _ hfound.held
  · next types hdata =>
    exact foldl_agrees hsearch (fun type htype => hab.held_data hdata (List.mem_map_of_mem htype))
      (hmet _ hfound.held)
  · next types hdata =>
    have hmember : ∀ member ∈ types, (search member ⟨a :: found.seen, []⟩).Agrees g
        (search member ⟨b :: found'.seen, []⟩) := fun member hmember =>
      hsearch (hab.held_data hdata (List.mem_map_of_mem hmember)) (hmet [] hnil)
    have hmembers : types.map (fun member => (search member ⟨a :: found.seen, []⟩).properties) =
        types.map fun member => (search member ⟨b :: found'.seen, []⟩).properties :=
      List.map_congr_left fun member h => (hmember member h).properties
    rw [← hmembers]
    split
    · next first rest heq =>
      obtain ⟨member, hin, rfl⟩ := List.mem_map.1 (heq ▸ List.mem_cons_self : first ∈ types.map _)
      refine hmet _ (forall_mem_foldl_pushUnique hfound.held fun property hproperty => ?_)
      exact (hmember member hin).held property (List.mem_filter.1 hproperty).1
    · exact hmet _ hfound.held
  · exact hmet _ hfound.held

end

theorem Extends.collect_agrees (hgh : g.Extends h) (hg : g.InBounds) {fuel : Nat} {id : TypeId}
    {found found' : Found} (hid : g.HasType id) (hfound : found.Agrees g found') :
    (h.collect fuel id found).Agrees g (h.collect fuel id found') := by
  induction fuel generalizing id found found' with
  | zero => exact hfound
  | succ fuel ih =>
    have hcontains : found.seen.contains id = found'.seen.contains id := by
      rw [Bool.eq_iff_iff, List.contains_iff_mem, List.contains_iff_mem]
      exact hfound.seen id hid
    rw [collect_succ, collect_succ, hcontains]
    split
    · exact hfound
    · exact (hgh.alike_refl hg hid).collectAt_agrees ih hgh hg hfound

namespace Alike

variable {a b : TypeId} (hab : g.Alike h a b) (hgh : g.Extends h) (hg : g.InBounds)

include hab hgh hg

theorem search_agrees (fuel : Nat) :
    (h.collect (fuel + 1) a {}).Agrees g (h.collect (fuel + 1) b {}) :=
  hab.collectAt_agrees (hgh.collect_agrees hg) hgh hg
    ⟨rfl, fun _ h => absurd h List.not_mem_nil, fun _ _ => Iff.rfl⟩

theorem properties_eq : h.properties a = h.properties b :=
  (hab.search_agrees hgh hg _).properties

theorem hasSymbol_of_mem_properties {property : SymbolId} (h : property ∈ h.properties a) :
    g.HasSymbol property :=
  (hab.search_agrees hgh hg _).held property h

/-- Where old types correspond to themselves, the two print alike. -/
theorem matches_of {T : TypeId → TypeId → Prop} (hT : ∀ id, g.HasType id → T id id) :
    TypeId.Matches h h T a b := by
  have hsymbol : ∀ p, g.HasSymbol p → T (h.valueTypeOf p) (h.valueTypeOf p) := by
    intro p hp
    rw [hgh.valueTypeOf_eq hp]
    exact hT _ (hg.valueTypeOf p)
  have hsignature : ∀ object, h.resolvedObject? a = some object →
      ∀ s ∈ object.callSignatures ++ object.constructSignatures, s.Matches h h T s := by
    intro object hobject s hs
    obtain ⟨hparameters, hreturn⟩ := (hab.resolvedObject hgh hg hobject).signature hs
    exact .same (fun p hp => hsymbol p (hparameters p hp)) (hT _ hreturn)
  constructor
  case flags => exact congrArg (fun r => (Option.map _ r).getD _) hab.type
  case name => rw [hab.type]
  case constructorSide => rw [hab.type]
  case array => unfold isArray; rw [hab.object?_eq]
  case readonlyArray => unfold isReadonlyArray; rw [hab.object?_eq]
  case shape => unfold tupleShape; rw [hab.object?_eq]
  case typeArguments =>
    unfold typeArguments
    rw [← hab.object?_eq]
    cases hobject : h.object? a with
    | none => exact List.Forall₂.nil
    | some object =>
      exact List.forall₂_same.2 fun id hid => hT id ((hab.object hobject).typeArguments hid)
  case properties =>
    rw [← hab.properties_eq hgh hg]
    exact List.forall₂_same.2 fun p hp =>
      .same (hsymbol p (hab.hasSymbol_of_mem_properties hgh hg hp))
  case calls =>
    unfold callSignatures
    rw [← hab.resolvedObject?_eq]
    apply List.forall₂_same.2
    intro s hs
    obtain ⟨object, hobject, hmem⟩ := mem_resolved hs
    exact hsignature object hobject s (List.mem_append_left _ hmem)
  case constructs =>
    unfold constructSignatures
    rw [← hab.resolvedObject?_eq]
    apply List.forall₂_same.2
    intro s hs
    obtain ⟨object, hobject, hmem⟩ := mem_resolved hs
    exact hsignature object hobject s (List.mem_append_right _ hmem)
  case infos =>
    unfold indexInfos
    rw [← hab.resolvedObject?_eq]
    apply List.forall₂_same.2
    intro i hi
    obtain ⟨object, hobject, hmem⟩ := mem_resolved hi
    obtain ⟨hkey, hvalue⟩ := (hab.resolvedObject hgh hg hobject).indexInfo hmem
    exact ⟨rfl, rfl, hT _ hkey, hT _ hvalue⟩

end Alike

/-! ## The text of copies -/

/-- Old types with themselves, and one new type with another. -/
def Copies (g : TypeGraph) (a b : TypeId) (x y : TypeId) : Prop :=
  (g.HasType x ∧ x = y) ∨ (x = a ∧ y = b)

/-- New types with the same record correspond to each other. -/
theorem corresponds_copies (hg : g.InBounds) (hgh : g.Extends h) {a b : TypeId}
    (ha : ¬g.HasType a) (hb : ¬g.HasType b) (hab : g.Alike h a b) :
    h.Corresponds h (g.Copies a b) := by
  have hold : ∀ id, g.HasType id → g.Copies a b id id := fun id hid => Or.inl ⟨hid, rfl⟩
  have halike : ∀ {x y}, g.Copies a b x y → g.Alike h x y := by
    rintro x y (⟨hx, rfl⟩ | ⟨rfl, rfl⟩)
    · exact hgh.alike_refl hg hx
    · exact hab
  constructor
  case unique =>
    rintro x y x' y' (⟨hx, rfl⟩ | ⟨rfl, rfl⟩) (⟨hx', rfl⟩ | ⟨rfl, rfl⟩)
    · exact Iff.rfl
    · exact ⟨fun h => absurd (h ▸ hx) ha, fun h => absurd (h ▸ hx) hb⟩
    · exact ⟨fun h => absurd (h ▸ hx') ha, fun h => absurd (h ▸ hx') hb⟩
    · exact ⟨fun _ => rfl, fun _ => rfl⟩
  case unknown => exact hold _ (hg.intrinsic (by decide))
  case type =>
    intro x y hxy
    rw [← (halike hxy).type]
    cases hrecord : h.type? x with
    | none => exact Option.Rel.none
    | some record =>
      exact Option.Rel.some (.same fun id hid => hold id ((halike hxy).held record hrecord _ hid))
  case members => exact fun hxy => (halike hxy).matches_of hgh hg hold

/-- Two new types with the same record, which leads to old types only, have the same text. -/
theorem typeText?_eq_of_copies (hg : g.InBounds) (hgh : g.Extends h) {a b : TypeId}
    (ha : ¬g.HasType a) (hb : ¬g.HasType b) (hab : g.Alike h a b) :
    h.typeText? a = h.typeText? b := by
  have hto := corresponds_copies hg hgh ha hb hab
  have hfrom := corresponds_copies hg hgh hb ha hab.symm
  exact Option.ext fun text => ⟨hto.typeText?_eq_some (Or.inr ⟨rfl, rfl⟩),
    hfrom.typeText?_eq_some (Or.inr ⟨rfl, rfl⟩)⟩

end TypeAtlas.TypeGraph
