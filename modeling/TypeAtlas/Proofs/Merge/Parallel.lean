import TypeAtlas.Proofs.Graph.Lockstep
import TypeAtlas.Proofs.Merge.Memo
import TypeAtlas.Proofs.Merge.Text
/-!
# Merging in a graph and in one that has grown from it

Merging asks only about types that were there when it began, so in a graph and in an extension of
it, it takes the same steps. The records that it adds on the way get different handles: those of the
extension are further on by the number of records that it has more (`TypeGraph.shift`). Under this
renaming the two runs stay parallel (`Merge.mirrored_mergeWithin`), and the types that they make
have the same text (`Build.expandToText_eq`).
-/

namespace TypeAtlas

open Handle (Role)
open TypeGraph

/-- The handles of a graph are kept, and the ones after them are moved on by what another graph has
more. -/
def TypeGraph.shift (g h : TypeGraph) : Renaming where
  type id :=
    if id.index < g.types.size then id else .ofIndex (id.index + (h.types.size - g.types.size))
  symbol id :=
    if id.index < g.symbols.size then id
    else .ofIndex (id.index + (h.symbols.size - g.symbols.size))

namespace TypeGraph

variable {g h : TypeGraph}

theorem shift_type_of_hasType {id : TypeId} (hid : g.HasType id) : (g.shift h).type id = id :=
  if_pos hid

theorem map_shift_type {types : List TypeId} (htypes : ∀ type ∈ types, g.HasType type) :
    types.map (g.shift h).type = types :=
  map_eq_self fun type htype => shift_type_of_hasType (htypes type htype)

theorem shift_fixes {handle : Handle} (hholds : g.Holds handle) : (g.shift h).Fixes handle := by
  cases handle with
  | type id => exact shift_type_of_hasType hholds
  | symbol id => exact if_pos hholds

/-- A graph is carried to each graph that extends it. -/
theorem Closed.carries_shift (hg : g.Closed) (hgh : g.Extends h) : (g.shift h).Carries g h where
  closed := hg
  type? := by
    intro id hid
    obtain ⟨record, hrecord⟩ := hid.type?
    rw [shift_type_of_hasType hid, hgh.type?_eq hid, hrecord]
    exact congrArg some (record.rename_eq_self fun hstores =>
      shift_fixes (hg.type hrecord hstores)).symm
  symbol? := by
    intro id hid
    obtain ⟨record, hrecord⟩ := hid.symbol?
    rw [show (g.shift h).symbol id = id from if_pos hid, hgh.symbol?_eq hid, hrecord]
    exact congrArg some (record.rename_eq_self fun hstores =>
      shift_fixes (hg.symbol hrecord hstores)).symm
  injective ha hb heq := by rwa [shift_type_of_hasType ha, shift_type_of_hasType hb] at heq
  intrinsic hid := shift_type_of_hasType (hg.inBounds.intrinsic hid)
  globalArray := by rw [hgh.globalArray, shift_type_of_hasType (hg.holds .globalArray)]
  globalReadonlyArray := by
    rw [hgh.globalReadonlyArray, shift_type_of_hasType (hg.holds .globalReadonlyArray)]
  types_size := hgh.types_size

end TypeGraph

/-- Two states of merging, reached in the same way from a graph and from an extension of it. -/
structure MergeContext.Parallel (g h : TypeGraph) (s t : MergeContext) : Prop where
  graph : g.Extends s.graph
  graph' : g.Extends t.graph
  types_size : t.graph.types.size + g.types.size = s.graph.types.size + h.types.size
  symbols_size : t.graph.symbols.size + g.symbols.size = s.graph.symbols.size + h.symbols.size
  carries : (g.shift h).Carries s.graph t.graph
  lookup : ∀ id, t.made.lookup id = (s.made.lookup id).map (g.shift h).type
  made : ∀ {id type}, s.made.lookup id = some type → s.graph.HasType type

open MergeContext (Parallel)

section

variable {g h : TypeGraph} (hgh : g.Extends h) {s t : MergeContext} (hst : Parallel g h s t)

namespace MergeContext.Parallel

theorem start (hg : g.Closed) (hgh : g.Extends h) : Parallel g h { graph := g } { graph := h } where
  graph := .refl g
  graph' := hgh
  types_size := Nat.add_comm _ _
  symbols_size := Nat.add_comm _ _
  carries := hg.carries_shift hgh
  lookup _ := rfl
  made heq := by cases heq

include hst

theorem known?_eq (key : List TypeId) : t.known? key = (s.known? key).map (g.shift h).type := by
  unfold known?
  split
  · exact hst.lookup _
  · rfl

theorem hasType_of_known? {key : List TypeId} {type : TypeId} (hknown : s.known? key = some type) :
    s.graph.HasType type := by
  obtain ⟨id, -, hmade⟩ := lookup_of_known? hknown
  exact hst.made hmade

/-- The same note in both states. -/
theorem note (key : List TypeId) {type : TypeId} (htype : s.graph.HasType type) :
    Parallel g h (Merge.note key type s).2 (Merge.note key ((g.shift h).type type) t).2 where
  graph := Merge.graph_note key type s ▸ hst.graph
  graph' := Merge.graph_note key _ t ▸ hst.graph'
  types_size := by
    rw [Merge.graph_note, Merge.graph_note]
    exact hst.types_size
  symbols_size := by
    rw [Merge.graph_note, Merge.graph_note]
    exact hst.symbols_size
  carries := by
    rw [Merge.graph_note, Merge.graph_note]
    exact hst.carries
  lookup id := by
    rw [Merge.lookup_note, Merge.lookup_note]
    split
    · rfl
    · exact hst.lookup id
  made := by
    intro id made hmade
    rw [Merge.lookup_note] at hmade
    rw [Merge.graph_note]
    split at hmade
    · cases hmade
      exact htype
    · exact hst.made hmade

/-- A new type is changed in both states. -/
theorem modifyType {id : TypeId} {record : TypeRecord} (hid : s.graph.type? id = some record)
    (hnew : g.types.size ≤ id.index) {f f' : TypeRecord → TypeRecord}
    (hf : f' (record.rename (g.shift h)) = (f record).rename (g.shift h))
    (hrecord : ∀ {role : Role} {handle : Handle},
      (f record).Stores role handle → s.graph.Holds handle) :
    Parallel g h { s with graph := (Build.modifyType id f s.graph).2 }
      { t with graph := (Build.modifyType ((g.shift h).type id) f' t.graph).2 } where
  graph := hst.graph.modifyType hnew f
  graph' := by
    refine hst.graph'.modifyType (Nat.le_of_not_lt fun hold => ?_) f'
    -- an old type is its own new handle, so it would be the changed type
    have heq : (g.shift h).type id = id := hst.carries.injective
      (hst.graph.hasType hold) (hasType_of_type? hid) (shift_type_of_hasType hold)
    rw [heq] at hold
    exact Nat.not_lt_of_le hnew hold
  types_size := by
    rw [types_size_modifyType, types_size_modifyType]
    exact hst.types_size
  symbols_size := by
    rw [symbols_modifyType, symbols_modifyType]
    exact hst.symbols_size
  carries := hst.carries.modifyType hid hf hrecord
  lookup := hst.lookup
  made hmade := by
    rw [HasType, types_size_modifyType]
    exact hst.made hmade

include hgh

theorem fits (hfits : t.graph.Fits) : s.graph.Fits where
  types := by
    have := hst.types_size
    have := hgh.types_size
    have := hfits.types
    omega
  symbols := by
    have := hst.symbols_size
    have := hgh.symbols_size
    have := hfits.symbols
    omega

/-- The next types of the two states have the same place among the new ones. -/
theorem shift_nextType (hfits : t.graph.types.size < UInt32.size) :
    (g.shift h).type s.nextType = t.nextType := by
  have hsize := hst.types_size
  have hle := hgh.types_size
  have hs := hst.graph.types_size
  have hindex : s.nextType.index = s.graph.types.size := TypeId.index_ofIndex (by omega)
  have hold : ¬s.nextType.index < g.types.size := by omega
  refine (if_neg hold).trans (congrArg TypeId.ofIndex ?_)
  omega

theorem shift_nextSymbol (hfits : t.graph.symbols.size < UInt32.size) :
    (g.shift h).symbol (.ofIndex s.graph.symbols.size) = .ofIndex t.graph.symbols.size := by
  have hsize := hst.symbols_size
  have hle := hgh.symbols_size
  have hs := hst.graph.symbols_size
  have hindex : (SymbolId.ofIndex s.graph.symbols.size).index = s.graph.symbols.size :=
    SymbolId.index_ofIndex (by omega)
  have hold : ¬(SymbolId.ofIndex s.graph.symbols.size).index < g.symbols.size := by omega
  refine (if_neg hold).trans (congrArg SymbolId.ofIndex ?_)
  omega

end MergeContext.Parallel

end

theorem Renaming.Carries.foldl_distinct {ρ : Renaming} {g h : TypeGraph} (hc : ρ.Carries g h) :
    ∀ {types found : List TypeId}, (∀ type ∈ types, g.HasType type) →
      (∀ type ∈ found, g.HasType type) →
      (types.map ρ.type).foldl
          (fun found type => if found.contains type then found else found ++ [type])
          (found.map ρ.type) =
        (types.foldl (fun found type => if found.contains type then found else found ++ [type])
          found).map ρ.type
  | [], _, _, _ => rfl
  | type :: types, found, htypes, hfound => by
    rw [List.forall_mem_cons] at htypes
    rw [List.map_cons, List.foldl_cons, List.foldl_cons, hc.searches.contains_eq hfound htypes.1]
    split
    · exact hc.foldl_distinct htypes.2 hfound
    · rw [← List.map_singleton, ← List.map_append]
      exact hc.foldl_distinct htypes.2
        (List.forall_mem_append.2 ⟨hfound, List.forall_mem_singleton.2 htypes.1⟩)

/-- Types are distinct under their new handles just if they are distinct. -/
theorem Renaming.Carries.distinct_eq {ρ : Renaming} {g h : TypeGraph} (hc : ρ.Carries g h)
    {types : List TypeId} (htypes : ∀ type ∈ types, g.HasType type) :
    Build.distinct (types.map ρ.type) = (Build.distinct types).map ρ.type :=
  hc.foldl_distinct htypes (List.forall_mem_nil _)

namespace Merge

variable {g h : TypeGraph} {α β ι : Type}

/-- A run of a step, and a run that went the same way from a parallel state: the first answer is of
the graph, and the second one is the same under its new handle. -/
structure Mirrors (g h : TypeGraph) (P : TypeGraph → α → Prop) (f : α → α)
    (run run' : α × MergeContext) : Prop where
  parallel : Parallel g h run.2 run'.2
  holds : P run.2.graph run.1
  answer : run'.1 = f run.1

/-- The second of two steps mirrors the first one, if there is room for all that it adds. -/
def Mirrored (g h : TypeGraph) (P : TypeGraph → α → Prop) (f : α → α) (s t : MergeContext)
    (x y : Merge α) : Prop :=
  (y t).2.graph.Fits → Mirrors g h P f (x s) (y t)

/-- Steps that make types. -/
abbrev MirroredType (g h : TypeGraph) : MergeContext → MergeContext → Merge TypeId → Merge TypeId →
    Prop :=
  Mirrored g h TypeGraph.HasType (g.shift h).type

/-- Steps that make symbols. -/
abbrev MirroredSymbol (g h : TypeGraph) :
    MergeContext → MergeContext → Merge SymbolId → Merge SymbolId → Prop :=
  Mirrored g h TypeGraph.HasSymbol (g.shift h).symbol

/-! ## Rules for `Mirrored` -/

section

variable {P : TypeGraph → α → Prop} {f : α → α} {Q : TypeGraph → β → Prop} {e : β → β}
  {s t : MergeContext}

theorem Mirrored.bind {x y : Merge α} {k l : α → Merge β} (hxy : Mirrored g h P f s t x y)
    (hl : ∀ a, Grows (l a))
    (hkl : Parallel g h (x s).2 (y t).2 → P (x s).2.graph (x s).1 →
      Mirrored g h Q e (x s).2 (y t).2 (k (x s).1) (l (f (x s).1))) :
    Mirrored g h Q e s t (x >>= k) (y >>= l) := by
  intro hfits
  have hrun := hxy ((hl (y t).1 (y t).2).fits hfits)
  have hrest := hkl hrun.parallel hrun.holds
  rw [← hrun.answer] at hrest
  exact hrest hfits

/-- By induction on the list; what was made for the first members is still there in the end. -/
theorem mirrored_mapM (hgh : g.Extends h)
    (hQ : ∀ {k k' : TypeGraph}, k.Extends k' → ∀ {b : β}, Q k b → Q k' b)
    {k : ι → Merge β} (hgrows : ∀ i, Grows (k i)) :
    ∀ {is : List ι} {s t : MergeContext}, Parallel g h s t →
      (∀ i ∈ is, ∀ {s t : MergeContext}, Parallel g h s t → Mirrored g h Q e s t (k i) (k i)) →
      Mirrored g h (fun k bs => ∀ b ∈ bs, Q k b) (List.map e) s t (is.mapM k) (is.mapM k)
  | [], _, _, hst, _ => fun _ => ⟨hst, List.forall_mem_nil _, rfl⟩
  | i :: is, s, t, hst, hk => by
    rw [List.forall_mem_cons] at hk
    have hrest : ∀ b, Grows (is.mapM k >>= fun bs => pure (b :: bs)) := fun b =>
      (grows_mapM hgrows is).bind fun _ => grows_pure _
    rw [List.mapM_cons]
    refine (hk.1 hst).bind hrest fun hpar hb => ?_
    refine (mirrored_mapM hgh hQ hgrows hpar hk.2).bind (fun _ => grows_pure _) fun hpar' hbs => ?_
    intro hfits
    have hextends := (grows_mapM hgrows is (k i s).2).extends_of_fits (hpar'.fits hgh hfits)
    exact ⟨hpar', List.forall_mem_cons.2 ⟨hQ hextends hb, hbs⟩, rfl⟩

end

/-! ## Making types -/

section

variable (hgh : g.Extends h) {s t : MergeContext} (hst : Parallel g h s t)

include hst

/-- A type of the graph for both states. -/
theorem mirrored_pure {type : TypeId} (htype : s.graph.HasType type) :
    MirroredType g h s t (pure type) (pure ((g.shift h).type type)) :=
  fun _ => ⟨hst, htype, rfl⟩

theorem mirrored_pure_old {type : TypeId} (htype : g.HasType type) :
    MirroredType g h s t (pure type) (pure type) :=
  fun _ => ⟨hst, hst.graph.hasType htype, (shift_type_of_hasType htype).symm⟩

include hgh

theorem mirrored_addType (record : TypeRecord) (hrecord : ∀ {role : Role} {handle : Handle},
      record.Stores role handle → s.graph.Holds handle) :
    MirroredType g h s t (build (Build.addType record))
      (build (Build.addType (record.rename (g.shift h)))) := by
  intro hfits
  have hsize' : t.graph.types.size < UInt32.size :=
    (types_size_addType (record.rename (g.shift h)) t.graph).ge.trans hfits.types
  have hsize : s.graph.types.size < UInt32.size := hst.carries.types_size.trans_lt hsize'
  have hnext := hst.shift_nextType hgh hsize'
  refine ⟨⟨hst.graph.trans (.addType _ _), hst.graph'.trans (.addType _ _), ?_, hst.symbols_size,
    hst.carries.addType hsize hsize' hnext fun hstores => ?_, hst.lookup, fun hmade => ?_⟩,
    (hasType_addType hsize).2 (Or.inr rfl), hnext.symm⟩
  · change (Build.addType _ t.graph).2.types.size + _ = (Build.addType _ s.graph).2.types.size + _
    rw [types_size_addType, types_size_addType, Nat.add_right_comm, hst.types_size,
      Nat.add_right_comm]
  · exact (Extends.addType s.graph record).holds (hrecord hstores)
  · exact (hasType_addType hsize).2 (Or.inl (hst.made hmade))

theorem mirrored_addSymbol (record : SymbolRecord) (hrecord : ∀ {role : Role} {handle : Handle},
      record.Stores role handle → s.graph.Holds handle) :
    MirroredSymbol g h s t (build (Build.addSymbol record))
      (build (Build.addSymbol (record.rename (g.shift h)))) := by
  intro hfits
  have hsize' : t.graph.symbols.size < UInt32.size :=
    (symbols_size_addSymbol (record.rename (g.shift h)) t.graph).ge.trans hfits.symbols
  have hsize : s.graph.symbols.size < UInt32.size := by
    have := hst.symbols_size
    have := hgh.symbols_size
    omega
  have hnext := hst.shift_nextSymbol hgh hsize'
  refine ⟨⟨hst.graph.trans (.addSymbol _ _), hst.graph'.trans (.addSymbol _ _), hst.types_size, ?_,
    hst.carries.addSymbol hsize hsize' hnext fun hstores => ?_, hst.lookup, hst.made⟩,
    (hasSymbol_addSymbol hsize).2 (Or.inr rfl), hnext.symm⟩
  · change (Build.addSymbol _ t.graph).2.symbols.size + _ =
      (Build.addSymbol _ s.graph).2.symbols.size + _
    rw [symbols_size_addSymbol, symbols_size_addSymbol, Nat.add_right_comm, hst.symbols_size,
      Nat.add_right_comm]
  · exact (Extends.addSymbol s.graph record).holds (hrecord hstores)

/-- A union or an intersection of types of the two graphs. -/
theorem mirrored_collapse {make : List TypeId → Build TypeId} (record : List TypeId → TypeRecord)
    (hmake : ∀ types,
      (∃ single, Build.distinct types = [single] ∧ make types = pure single) ∨
        (∀ single, Build.distinct types ≠ [single]) ∧
          make types = Build.addType (record (Build.distinct types)))
    (hrename : ∀ types,
      record (types.map (g.shift h).type) = (record types).rename (g.shift h))
    (hstores : ∀ {types : List TypeId} {role : Role} {handle : Handle},
      (record types).Stores role handle → ∃ type ∈ types, handle = .type type)
    {types : List TypeId} (htypes : ∀ type ∈ types, s.graph.HasType type) :
    MirroredType g h s t (build (make types)) (build (make (types.map (g.shift h).type))) := by
  have hdistinct := hst.carries.distinct_eq htypes
  have hmem : ∀ type ∈ Build.distinct types, s.graph.HasType type := fun type hmem =>
    htypes type (Build.mem_distinct.1 hmem)
  rcases hmake types with ⟨single, hsingle, heq⟩ | ⟨hmany, heq⟩ <;>
    rcases hmake (types.map (g.shift h).type) with ⟨single', hsingle', heq'⟩ | ⟨hmany', heq'⟩ <;>
    rw [hdistinct] at * <;> rw [heq, heq']
  · rw [hsingle] at hsingle' hmem
    cases hsingle'
    exact mirrored_pure hst (hmem single List.mem_cons_self)
  · exact absurd (congrArg (List.map _) hsingle) (hmany' _)
  · obtain ⟨single, hsingle⟩ := List.map_eq_singleton_iff.1 hsingle'
    exact absurd hsingle.1 (hmany single)
  · rw [hrename]
    refine mirrored_addType hgh hst _ fun hrecord => ?_
    obtain ⟨type, htype, rfl⟩ := hstores hrecord
    exact hmem type htype

end

end Merge

end TypeAtlas
