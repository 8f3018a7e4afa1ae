import TypeAtlas.Proofs.Graph.Properties
import TypeAtlas.Proofs.Graph.Renaming
/-!
# The search for properties under other handles

A search asks a graph for the members of types and for the names of symbols. If another graph gives
the same answers under other handles, then a search there takes the same steps
(`Renaming.Searches.collect_eq`) and the properties of a type are the same
(`Renaming.Searches.properties_eq`). In particular they are the same in an extended graph
(`TypeGraph.Extends.properties_eq`).
-/

namespace TypeAtlas

open TypeGraph

/-- What a search has found, under the new handles. -/
def TypeGraph.Found.rename (ρ : Renaming) (found : Found) : Found :=
  ⟨found.seen.map ρ.type, found.properties.map ρ.symbol⟩

/-- What a search has found are types and symbols of the graph. -/
structure TypeGraph.HoldsFound (g : TypeGraph) (found : Found) : Prop where
  seen : ∀ type ∈ found.seen, g.HasType type
  properties : ∀ property ∈ found.properties, g.HasSymbol property

namespace TypeGraph.InBounds

variable {g : TypeGraph} (hg : g.InBounds)

theorem foldl_collect_holds {fuel : Nat}
    (ih : ∀ {id found}, g.HasType id → g.HoldsFound found →
      g.HoldsFound (g.collect fuel id found)) :
    ∀ (types : List TypeId) (found : Found), (∀ type ∈ types, g.HasType type) →
      g.HoldsFound found →
      g.HoldsFound (types.foldl (fun found type => g.collect fuel type found) found)
  | [], _, _, hfound => hfound
  | type :: types, found, htypes, hfound => by
    rw [List.forall_mem_cons] at htypes
    exact foldl_collect_holds ih types _ htypes.2 (ih htypes.1 hfound)

include hg

/-- A search does not leave the graph. -/
theorem collect_holds {fuel : Nat} {id : TypeId} {found : Found} (hid : g.HasType id)
    (hfound : g.HoldsFound found) : g.HoldsFound (g.collect fuel id found) := by
  induction fuel generalizing id found with
  | zero => exact hfound
  | succ fuel ih =>
    have hseen : ∀ type ∈ id :: found.seen, g.HasType type :=
      List.forall_mem_cons.2 ⟨hid, hfound.seen⟩
    refine ⟨?_, hg.collect hfound.properties⟩
    rw [collect_succ]
    split
    · exact hfound.seen
    unfold collectAt
    split
    · split
      next object hobject =>
        have hobjects := hg.resolvedObject hobject
        refine (foldl_collect_holds ih _ ⟨id :: found.seen, _⟩ (fun _ => hobjects.baseTypes)
          ⟨hseen, ?_⟩).seen
        exact forall_mem_foldl_pushUnique hfound.properties fun _ => hobjects.properties
      next => exact hseen
    · next types hdata =>
      exact (foldl_collect_holds ih _ ⟨id :: found.seen, _⟩
        (fun _ htype => hg.members (Or.inr hdata) htype) ⟨hseen, hfound.properties⟩).seen
    · split <;> exact hseen
    · exact hseen

end TypeGraph.InBounds

/-- What a search asks about the first graph has the same answer in the second one, under the new
handles. -/
structure Renaming.Searches (ρ : Renaming) (g h : TypeGraph) : Prop where
  inBounds : g.InBounds
  data? : ∀ {id}, g.HasType id → h.data? (ρ.type id) = (g.data? id).map (TypeData.rename ρ)
  resolvedObject? : ∀ {id}, g.HasType id →
    h.resolvedObject? (ρ.type id) = (g.resolvedObject? id).map (ObjectType.rename ρ)
  symbolName? : ∀ {symbol}, g.HasSymbol symbol →
    h.symbolName? (ρ.symbol symbol) = g.symbolName? symbol
  injective : ∀ {a b}, g.HasType a → g.HasType b → ρ.type a = ρ.type b → a = b
  types_size : g.types.size ≤ h.types.size

namespace Renaming.Searches

variable {ρ : Renaming} {g h : TypeGraph} (hs : ρ.Searches g h) {id : TypeId}

include hs

theorem contains_eq {types : List TypeId} (htypes : ∀ type ∈ types, g.HasType type)
    (hid : g.HasType id) : (types.map ρ.type).contains (ρ.type id) = types.contains id := by
  rw [Bool.eq_iff_iff, List.contains_iff_mem, List.contains_iff_mem, List.mem_map]
  constructor
  · rintro ⟨type, htype, heq⟩
    exact hs.injective (htypes type htype) hid heq ▸ htype
  · exact fun hmem => ⟨id, hmem, rfl⟩

theorem hasNameOf_eq {symbols : List SymbolId} {candidate : SymbolId}
    (hsymbols : ∀ c ∈ symbols, g.HasSymbol c) (hcandidate : g.HasSymbol candidate) :
    h.hasNameOf (symbols.map ρ.symbol) (ρ.symbol candidate) = g.hasNameOf symbols candidate := by
  rw [Bool.eq_iff_iff, hasNameOf_iff, hasNameOf_iff, hs.symbolName? hcandidate]
  simp only [List.mem_map, exists_exists_and_eq_and]
  refine exists_congr fun c => and_congr_right fun hmem => ?_
  rw [hs.symbolName? (hsymbols c hmem)]

theorem pushUnique_eq {symbols : List SymbolId} {candidate : SymbolId}
    (hsymbols : ∀ c ∈ symbols, g.HasSymbol c) (hcandidate : g.HasSymbol candidate) :
    h.pushUnique (symbols.map ρ.symbol) (ρ.symbol candidate) =
      (g.pushUnique symbols candidate).map ρ.symbol := by
  unfold pushUnique
  rw [hs.hasNameOf_eq hsymbols hcandidate]
  split
  · rfl
  · rw [List.map_append]
    rfl

theorem foldl_pushUnique_eq : ∀ {candidates symbols : List SymbolId},
    (∀ c ∈ symbols, g.HasSymbol c) → (∀ c ∈ candidates, g.HasSymbol c) →
      (candidates.map ρ.symbol).foldl h.pushUnique (symbols.map ρ.symbol) =
        (candidates.foldl g.pushUnique symbols).map ρ.symbol
  | [], _, _, _ => rfl
  | c :: candidates, symbols, hsymbols, hall => by
    rw [List.forall_mem_cons] at hall
    rw [List.map_cons, List.foldl_cons, List.foldl_cons, hs.pushUnique_eq hsymbols hall.1]
    exact foldl_pushUnique_eq (forall_mem_pushUnique hsymbols hall.1) hall.2

theorem filter_common_eq {first : List SymbolId} {rest : List (List SymbolId)}
    (hfirst : ∀ c ∈ first, g.HasSymbol c) (hrest : ∀ symbols ∈ rest, ∀ c ∈ symbols, g.HasSymbol c) :
    (first.map ρ.symbol).filter (fun c =>
        (rest.map (List.map ρ.symbol)).all fun symbols => h.hasNameOf symbols c) =
      (first.filter fun c => rest.all fun symbols => g.hasNameOf symbols c).map ρ.symbol := by
  rw [List.filter_map]
  refine congrArg _ (List.filter_congr fun c hmem => ?_)
  rw [Function.comp_apply, List.all_map, Bool.eq_iff_iff, List.all_eq_true, List.all_eq_true]
  refine forall₂_congr fun symbols hsymbols => ?_
  rw [Function.comp_apply, hs.hasNameOf_eq (hrest symbols hsymbols) (hfirst c hmem)]

theorem foldl_collect_eq {fuel : Nat}
    (ih : ∀ {id found}, g.HasType id → g.HoldsFound found →
      h.collect fuel (ρ.type id) (found.rename ρ) = (g.collect fuel id found).rename ρ) :
    ∀ (types : List TypeId) (found : Found), (∀ type ∈ types, g.HasType type) →
      g.HoldsFound found →
      (types.map ρ.type).foldl (fun found type => h.collect fuel type found) (found.rename ρ) =
        (types.foldl (fun found type => g.collect fuel type found) found).rename ρ
  | [], _, _, _ => rfl
  | type :: types, found, htypes, hfound => by
    rw [List.forall_mem_cons] at htypes
    rw [List.map_cons, List.foldl_cons, List.foldl_cons, ih htypes.1 hfound]
    exact foldl_collect_eq ih types _ htypes.2 (hs.inBounds.collect_holds htypes.1 hfound)

/-- With the same fuel, a search finds the same under the new handles. -/
theorem collect_eq {fuel : Nat} {found : Found} (hid : g.HasType id) (hfound : g.HoldsFound found) :
    h.collect fuel (ρ.type id) (found.rename ρ) = (g.collect fuel id found).rename ρ := by
  have hg := hs.inBounds
  induction fuel generalizing id found with
  | zero => rfl
  | succ fuel ih =>
    have hseen : ∀ type ∈ id :: found.seen, g.HasType type :=
      List.forall_mem_cons.2 ⟨hid, hfound.seen⟩
    have hcontains : (found.rename ρ).seen.contains (ρ.type id) = found.seen.contains id :=
      hs.contains_eq hfound.seen hid
    rw [collect_succ, collect_succ, hcontains]
    split
    · rfl
    unfold collectAt
    rw [hs.data? hid, hs.resolvedObject? hid]
    cases hdata : g.data? id with
    | none => rfl
    | some data =>
    cases data with
    | object o =>
      cases hobject : g.resolvedObject? id with
      | none => rfl
      | some object =>
        have hobjects := hg.resolvedObject hobject
        have hown : ∀ c ∈ object.properties, g.HasSymbol c := fun _ => hobjects.properties
        dsimp only [Option.map_some, TypeData.rename, ObjectType.rename, ObjectMembers.rename,
          Found.rename]
        rw [hs.foldl_pushUnique_eq hfound.properties hown]
        exact hs.foldl_collect_eq ih object.baseTypes ⟨id :: found.seen, _⟩
          (fun _ => hobjects.baseTypes)
          ⟨hseen, forall_mem_foldl_pushUnique hfound.properties hown⟩
    | intersection types =>
      exact hs.foldl_collect_eq ih types ⟨id :: found.seen, found.properties⟩
        (fun _ htype => hg.members (Or.inr hdata) htype) ⟨hseen, hfound.properties⟩
    | union types =>
      have hnil : g.HoldsFound ⟨id :: found.seen, []⟩ := ⟨hseen, List.forall_mem_nil _⟩
      have hmembers : ∀ member ∈ types, g.HasType member := fun _ hmem =>
        hg.members (Or.inl hdata) hmem
      have hmap : (types.map ρ.type).map (fun member =>
            (h.collect fuel member ⟨ρ.type id :: (found.rename ρ).seen, []⟩).properties) =
          (types.map fun member => (g.collect fuel member ⟨id :: found.seen, []⟩).properties).map
            (List.map ρ.symbol) := by
        rw [List.map_map, List.map_map]
        exact List.map_congr_left fun member hmember =>
          congrArg Found.properties (ih (hmembers member hmember) hnil)
      have hall : ∀ properties ∈
          types.map (fun member => (g.collect fuel member ⟨id :: found.seen, []⟩).properties),
          ∀ c ∈ properties, g.HasSymbol c := by
        intro properties hproperties
        obtain ⟨member, -, rfl⟩ := List.mem_map.1 hproperties
        exact hg.collect (List.forall_mem_nil _)
      dsimp only [Option.map_some, TypeData.rename]
      rw [hmap]
      generalize types.map (fun member =>
        (g.collect fuel member ⟨id :: found.seen, []⟩).properties) = lists at hall
      cases lists with
      | nil => rfl
      | cons first rest =>
        rw [List.forall_mem_cons] at hall
        have hcommon : ∀ c ∈ first.filter fun property =>
            rest.all fun properties => g.hasNameOf properties property, g.HasSymbol c :=
          fun c hmem => hall.1 c (List.mem_filter.1 hmem).1
        have hpush := hs.foldl_pushUnique_eq hfound.properties hcommon
        rw [← hs.filter_common_eq hall.1 hall.2] at hpush
        exact congrArg (Found.mk _) hpush
    | _ => rfl

/-- The properties of a type are those of its new handle. -/
theorem properties_eq (hid : g.HasType id) :
    h.properties (ρ.type id) = (g.properties id).map ρ.symbol := by
  have hnil : g.HoldsFound {} := ⟨List.forall_mem_nil _, List.forall_mem_nil _⟩
  have hunseen := g.unseen_le []
  have hsize := hs.types_size
  have hcollect : h.collect (h.types.size + 2) (ρ.type id) {} =
      (g.collect (h.types.size + 2) id {}).rename ρ := hs.collect_eq hid hnil
  have hfuel : g.collect (h.types.size + 2) id {} = g.collect (g.types.size + 2) id {} :=
    collect_of_le (Nat.lt_of_le_of_lt hunseen (by omega)) (by omega)
  rw [properties, hcollect, hfuel]
  rfl

end Renaming.Searches

/-! ## The search in an extended graph -/

/-- Every handle in its own place. -/
def Renaming.id : Renaming where
  type type := type
  symbol symbol := symbol

theorem Renaming.id_fixes (handle : Handle) : Renaming.id.Fixes handle := by
  cases handle <;> rfl

namespace TypeGraph.Extends

variable {g h : TypeGraph} (hgh : g.Extends h) (hg : g.InBounds)

include hgh hg

theorem searches : Renaming.id.Searches g h where
  inBounds := hg
  data? hid := (hgh.data?_eq hid).trans
    (optionMap_eq_self fun _ _ => TypeData.rename_eq_self fun _ => Renaming.id_fixes _).symm
  resolvedObject? hid := (hgh.resolvedObject?_eq hg hid).trans
    (optionMap_eq_self fun _ _ => ObjectType.rename_eq_self fun _ => Renaming.id_fixes _).symm
  symbolName? := hgh.symbolName?_eq
  injective _ _ heq := heq
  types_size := hgh.types_size

theorem foldl_pushUnique_eq {candidates symbols : List SymbolId}
    (hsymbols : ∀ c ∈ symbols, g.HasSymbol c) (hall : ∀ c ∈ candidates, g.HasSymbol c) :
    candidates.foldl h.pushUnique symbols = candidates.foldl g.pushUnique symbols := by
  simpa only [Renaming.id, List.map_id'] using (hgh.searches hg).foldl_pushUnique_eq hsymbols hall

/-- The properties of a type are the same in the extended graph. -/
theorem properties_eq {id : TypeId} (hid : g.HasType id) : h.properties id = g.properties id := by
  simpa only [Renaming.id, List.map_id'] using (hgh.searches hg).properties_eq hid

end TypeGraph.Extends

end TypeAtlas
