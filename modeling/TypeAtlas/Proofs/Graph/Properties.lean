import Mathlib.Data.Finset.Card
import TypeAtlas.Graph.Properties
import TypeAtlas.Proofs.Graph.Handles
/-!
# The search for properties

Each type that a search goes into was not met before, so the number of types not met bounds how far
it goes (`TypeGraph.unseen`), and more fuel than that changes nothing (`TypeGraph.collect_fuel`).
What holds of the properties of each object type that is met, and stays true when one of them is
pushed, holds of the properties that are found (`TypeGraph.collect_invariant`).
-/

namespace TypeAtlas

namespace TypeGraph

variable (g : TypeGraph)

/-- What a search does at a type that it has not met, with the search at other types given. -/
def collectAt (search : TypeId → Found → Found) (id : TypeId) (found : Found) : Found :=
  match g.data? id with
  | some (.object _) =>
    match g.resolvedObject? id with
    | some object =>
      object.baseTypes.foldl (fun found base => search base found)
        ⟨id :: found.seen, object.properties.foldl g.pushUnique found.properties⟩
    | none => ⟨id :: found.seen, found.properties⟩
  | some (.intersection types) =>
    types.foldl (fun found member => search member found) ⟨id :: found.seen, found.properties⟩
  | some (.union types) =>
    match types.map fun member => (search member ⟨id :: found.seen, []⟩).properties with
    | first :: rest =>
      ⟨id :: found.seen, (first.filter fun property =>
        rest.all fun properties => g.hasNameOf properties property).foldl g.pushUnique
          found.properties⟩
    | [] => ⟨id :: found.seen, found.properties⟩
  | _ => ⟨id :: found.seen, found.properties⟩

theorem collect_succ (fuel : Nat) (id : TypeId) (found : Found) :
    g.collect (fuel + 1) id found =
      if found.seen.contains id then found else g.collectAt (g.collect fuel) id found :=
  rfl

/-! ## Fuel -/

/-- How many types of a graph a search has not met. -/
def unseen (seen : List TypeId) : Nat :=
  ((Finset.range g.types.size).filter fun n => TypeId.ofIndex n ∉ seen).card

theorem unseen_le_of_subset {seen seen' : List TypeId} (h : seen ⊆ seen') :
    g.unseen seen' ≤ g.unseen seen :=
  Finset.card_le_card
    (Finset.monotone_filter_right _ fun _ _ hn hmem => hn (h hmem))

theorem unseen_le (seen : List TypeId) : g.unseen seen ≤ g.types.size :=
  (Finset.card_filter_le _ _).trans_eq (Finset.card_range _)

variable {g}

theorem unseen_cons_lt {id : TypeId} {seen : List TypeId} (hid : g.HasType id)
    (hnew : id ∉ seen) : g.unseen (id :: seen) < g.unseen seen := by
  have hmem : id.index ∈ (Finset.range g.types.size).filter fun n => TypeId.ofIndex n ∉ seen := by
    rw [Finset.mem_filter, Finset.mem_range, TypeId.ofIndex_index]
    exact ⟨hid, hnew⟩
  refine Finset.card_lt_card (Finset.ssubset_iff_subset_ne.2 ⟨?_, fun heq => ?_⟩)
  · exact Finset.monotone_filter_right _ fun _ _ hn hmem => hn (List.mem_cons_of_mem _ hmem)
  · rw [← heq, Finset.mem_filter, TypeId.ofIndex_index] at hmem
    exact hmem.2 List.mem_cons_self

theorem seen_subset_foldl {search : TypeId → Found → Found}
    (hsearch : ∀ id found, found.seen ⊆ (search id found).seen) :
    ∀ (types : List TypeId) (found : Found),
      found.seen ⊆ (types.foldl (fun found type => search type found) found).seen
  | [], _ => List.Subset.refl _
  | type :: types, found =>
    List.Subset.trans (hsearch type found) (seen_subset_foldl hsearch types (search type found))

theorem seen_subset_collectAt {search : TypeId → Found → Found}
    (hsearch : ∀ id found, found.seen ⊆ (search id found).seen) (id : TypeId) (found : Found) :
    id :: found.seen ⊆ (g.collectAt search id found).seen := by
  unfold collectAt
  split
  · split
    · exact seen_subset_foldl hsearch _ ⟨id :: found.seen, _⟩
    · exact List.Subset.refl _
  · exact seen_subset_foldl hsearch _ ⟨id :: found.seen, _⟩
  · split <;> exact List.Subset.refl _
  · exact List.Subset.refl _

/-- A search forgets no type that it has met. -/
theorem seen_subset_collect (fuel : Nat) (id : TypeId) (found : Found) :
    found.seen ⊆ (g.collect fuel id found).seen := by
  induction fuel generalizing id found with
  | zero => exact List.Subset.refl _
  | succ fuel ih =>
    rw [collect_succ]
    split
    · exact List.Subset.refl _
    · exact List.Subset.trans (List.subset_cons_self _ _) (seen_subset_collectAt ih id found)

theorem foldl_search_congr {search search' : TypeId → Found → Found} {seen : List TypeId}
    (hsubset : ∀ id found, found.seen ⊆ (search id found).seen)
    (h : ∀ id found, seen ⊆ found.seen → search id found = search' id found) :
    ∀ (types : List TypeId) (found : Found), seen ⊆ found.seen →
      types.foldl (fun found type => search type found) found =
        types.foldl (fun found type => search' type found) found
  | [], _, _ => rfl
  | type :: types, found, hseen => by
    rw [List.foldl_cons, List.foldl_cons, ← h type found hseen]
    exact foldl_search_congr hsubset h types _ (List.Subset.trans hseen (hsubset type found))

/-- Only searches that have met the type matter. -/
theorem collectAt_congr {search search' : TypeId → Found → Found} {id : TypeId} {found : Found}
    (hsubset : ∀ id found, found.seen ⊆ (search id found).seen)
    (h : ∀ id' found', id :: found.seen ⊆ found'.seen → search id' found' = search' id' found') :
    g.collectAt search id found = g.collectAt search' id found := by
  have hself : ∀ member,
      search member ⟨id :: found.seen, []⟩ = search' member ⟨id :: found.seen, []⟩ :=
    fun member => h member _ (List.Subset.refl _)
  unfold collectAt
  split
  · split
    · exact foldl_search_congr hsubset h _ _ (List.Subset.refl _)
    · rfl
  · exact foldl_search_congr hsubset h _ _ (List.Subset.refl _)
  · simp only [hself]
  · rfl

/-- More fuel than there are types not met changes nothing. -/
theorem collect_fuel {fuel : Nat} {id : TypeId} {found : Found} (h : g.unseen found.seen < fuel) :
    g.collect (fuel + 1) id found = g.collect fuel id found := by
  induction fuel generalizing id found with
  | zero => exact absurd h (Nat.not_lt_zero _)
  | succ fuel ih =>
    rw [collect_succ, collect_succ]
    split
    · rfl
    next hnew =>
      rw [List.contains_iff_mem] at hnew
      by_cases hid : g.HasType id
      · refine collectAt_congr (seen_subset_collect _) fun id' found' hsubset => ih ?_
        have hle := g.unseen_le_of_subset hsubset
        have hlt := unseen_cons_lt hid hnew
        omega
      · have hdata : g.data? id = none := by
          rw [data?, Option.map_eq_none_iff, ← Option.not_isSome_iff_eq_none]
          intro hsome
          exact hid (hasType_of_type? (Option.eq_some_of_isSome hsome))
        simp only [collectAt, hdata]

theorem collect_of_le {fuel fuel' : Nat} {id : TypeId} {found : Found}
    (h : g.unseen found.seen < fuel) (hle : fuel ≤ fuel') :
    g.collect fuel' id found = g.collect fuel id found := by
  induction hle with
  | refl => rfl
  | step hle ih => rw [collect_fuel (h.trans_le hle), ih]

/-! ## What is found -/

section Invariant

variable {I : List SymbolId → Prop} {C : SymbolId → Prop}

theorem foldl_pushUnique_invariant
    (hpush : ∀ symbols candidate, I symbols → C candidate → I (g.pushUnique symbols candidate)) :
    ∀ (candidates symbols : List SymbolId), I symbols → (∀ c ∈ candidates, C c) →
      I (candidates.foldl g.pushUnique symbols)
  | [], _, h, _ => h
  | c :: candidates, symbols, h, hall => by
    rw [List.forall_mem_cons] at hall
    exact foldl_pushUnique_invariant hpush candidates _ (hpush symbols c h hall.1) hall.2

/-- A property of lists of symbols holds of what is found if it holds of the empty list and is kept
when a property of one of the types on the way is added. -/
theorem collect_invariant (hnil : I []) (hmem : ∀ symbols, I symbols → ∀ c ∈ symbols, C c)
    (hpush : ∀ symbols candidate, I symbols → C candidate → I (g.pushUnique symbols candidate))
    (hown : ∀ id object, g.resolvedObject? id = some object → ∀ c ∈ object.properties, C c)
    {fuel : Nat} {id : TypeId} {found : Found} (h : I found.properties) :
    I (g.collect fuel id found).properties := by
  induction fuel generalizing id found with
  | zero => exact h
  | succ fuel ih =>
    have hfold : ∀ (types : List TypeId) (found : Found), I found.properties →
        I (types.foldl (fun found type => g.collect fuel type found) found).properties := by
      intro types
      induction types with
      | nil => exact fun _ h => h
      | cons type types iht => exact fun found h => iht _ (ih h)
    rw [collect_succ]
    split
    · exact h
    unfold collectAt
    split
    · split
      · next object hobject =>
        exact hfold _ ⟨id :: found.seen, _⟩
          (foldl_pushUnique_invariant hpush _ _ h (hown id object hobject))
      · exact h
    · exact hfold _ ⟨id :: found.seen, _⟩ h
    · next types _ =>
      split
      · next first rest heq =>
        obtain ⟨member, -, hfirst⟩ : ∃ member ∈ types,
            (g.collect fuel member ⟨id :: found.seen, []⟩).properties = first :=
          List.mem_map.1 (heq ▸ List.mem_cons_self)
        have hcommon := hmem _ (hfirst ▸ ih hnil)
        exact foldl_pushUnique_invariant hpush _ _ h
          fun c hc => hcommon c (List.mem_filter.1 hc).1
      · exact h
    · exact h

end Invariant

/-- The symbols of a list have different names. -/
def DistinctNames (g : TypeGraph) (symbols : List SymbolId) : Prop :=
  symbols.Pairwise fun a b => g.symbolName? a ≠ g.symbolName? b

theorem hasNameOf_iff {symbols : List SymbolId} {candidate : SymbolId} :
    g.hasNameOf symbols candidate = true ↔
      ∃ symbol ∈ symbols, g.symbolName? symbol = g.symbolName? candidate := by
  simp [hasNameOf]

theorem DistinctNames.pushUnique {symbols : List SymbolId} (h : g.DistinctNames symbols)
    (candidate : SymbolId) : g.DistinctNames (g.pushUnique symbols candidate) := by
  unfold TypeGraph.pushUnique
  split
  · exact h
  next hnew =>
    rw [hasNameOf_iff] at hnew
    refine List.pairwise_append.2 ⟨h, List.pairwise_singleton _ _, fun a ha b hb => ?_⟩
    rw [List.mem_singleton.1 hb]
    intro heq
    exact hnew ⟨a, ha, heq⟩

/-- Of properties with different names, all are added. -/
theorem foldl_pushUnique_of_distinct : ∀ {candidates symbols : List SymbolId},
    g.DistinctNames (symbols ++ candidates) →
      candidates.foldl g.pushUnique symbols = symbols ++ candidates
  | [], symbols, _ => (List.append_nil symbols).symm
  | c :: candidates, symbols, h => by
    have hnew : g.hasNameOf symbols c = false := by
      rw [← Bool.not_eq_true, hasNameOf_iff]
      rintro ⟨symbol, hsymbol, heq⟩
      exact (List.pairwise_append.1 h).2.2 symbol hsymbol c List.mem_cons_self heq
    rw [List.foldl_cons, TypeGraph.pushUnique, hnew]
    rw [List.append_cons] at h
    exact (foldl_pushUnique_of_distinct h).trans (List.append_cons symbols c candidates).symm

/-- The properties of a type have different names. -/
theorem distinctNames_properties (g : TypeGraph) (id : TypeId) :
    g.DistinctNames (g.properties id) :=
  collect_invariant (I := g.DistinctNames) (C := fun _ => True) List.Pairwise.nil
    (fun _ _ _ _ => trivial) (fun _ c h _ => h.pushUnique c) (fun _ _ _ _ _ => trivial)
    List.Pairwise.nil

theorem forall_mem_pushUnique {P : SymbolId → Prop} {symbols : List SymbolId} {candidate : SymbolId}
    (h : ∀ c ∈ symbols, P c) (hcandidate : P candidate) :
    ∀ c ∈ g.pushUnique symbols candidate, P c := by
  unfold TypeGraph.pushUnique
  split
  · exact h
  · exact List.forall_mem_append.2 ⟨h, List.forall_mem_singleton.2 hcandidate⟩

theorem forall_mem_foldl_pushUnique {P : SymbolId → Prop} {candidates symbols : List SymbolId}
    (h : ∀ c ∈ symbols, P c) (hcandidates : ∀ c ∈ candidates, P c) :
    ∀ c ∈ candidates.foldl g.pushUnique symbols, P c :=
  foldl_pushUnique_invariant (I := fun symbols => ∀ c ∈ symbols, P c) (C := P)
    (fun _ _ => forall_mem_pushUnique) candidates symbols h hcandidates

theorem InBounds.collect (hg : g.InBounds) {fuel : Nat} {id : TypeId} {found : Found}
    (h : ∀ c ∈ found.properties, g.HasSymbol c) :
    ∀ c ∈ (g.collect fuel id found).properties, g.HasSymbol c :=
  collect_invariant (I := fun symbols => ∀ c ∈ symbols, g.HasSymbol c) (C := g.HasSymbol)
    (fun _ h => absurd h List.not_mem_nil) (fun _ h => h) (fun _ _ => forall_mem_pushUnique)
    (fun _ _ hobject _ => (hg.resolvedObject hobject).properties) h

/-- The properties of a type of a graph in bounds are symbols of the graph. -/
theorem InBounds.properties (hg : g.InBounds) {id : TypeId} {property : SymbolId}
    (h : property ∈ g.properties id) : g.HasSymbol property :=
  hg.collect (fun _ h => absurd h List.not_mem_nil) property h

end TypeGraph

end TypeAtlas
