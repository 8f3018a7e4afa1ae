import Mathlib.Data.List.Induction
import Mathlib.Logic.Relation
import TypeAtlas.Proofs.Graph.Search
import TypeAtlas.Proofs.Merge.Step
/-!
# Constituents and groups

What merging asks a graph. The constituents of a type do not depend on the number of levels they are
searched for, if no intersection contains itself (`TypeGraph.flattenWithin_eq`), so they are the
same when the graph is extended (`TypeGraph.Extends.flatten_eq`). There is a group of properties for
each name, in the order of the names (`TypeGraph.groupByName_eq_map`), and properties with different
names are groups by themselves (`TypeGraph.groupByName_of_distinct`).
-/

namespace TypeAtlas

namespace Build

/-- The first of several types stays the first when the other ones are added. -/
theorem foldl_distinct_cons (types found : List TypeId) (first : TypeId) :
    ∃ rest, types.foldl
      (fun found type => if found.contains type then found else found ++ [type]) (first :: found) =
        first :: rest := by
  induction types generalizing found with
  | nil => exact ⟨found, rfl⟩
  | cons type types ih =>
    rw [List.foldl_cons]
    split
    · exact ih found
    · exact ih (found ++ [type])

theorem mem_foldl_distinct {types found : List TypeId} {type : TypeId} :
    type ∈ types.foldl
      (fun found type => if found.contains type then found else found ++ [type]) found ↔
        type ∈ found ∨ type ∈ types := by
  induction types generalizing found with
  | nil => simp
  | cons next types ih =>
    rw [List.foldl_cons, ih, List.mem_cons]
    split
    next h =>
      rw [List.contains_iff_mem] at h
      refine ⟨Or.imp_right Or.inr, ?_⟩
      rintro (hfound | rfl | htypes)
      · exact Or.inl hfound
      · exact Or.inl h
      · exact Or.inr htypes
    next => rw [List.mem_append, List.mem_singleton, or_assoc]

theorem mem_distinct {types : List TypeId} {type : TypeId} :
    type ∈ distinct types ↔ type ∈ types := by
  rw [distinct, mem_foldl_distinct]
  simp

theorem nodup_distinct (types : List TypeId) : (distinct types).Nodup := by
  refine List.foldlRecOn (motive := List.Nodup) types _ List.nodup_nil fun found hfound type _ => ?_
  split
  · exact hfound
  next hnew =>
    exact hfound.append (List.nodup_singleton type)
      (List.disjoint_singleton.2 (mt List.contains_iff_mem.2 hnew))

theorem foldl_distinct_of_nodup {types found : List TypeId} (h : (found ++ types).Nodup) :
    types.foldl (fun found type => if found.contains type then found else found ++ [type]) found =
      found ++ types := by
  induction types generalizing found with
  | nil => exact (List.append_nil found).symm
  | cons type types ih =>
    have hnew : type ∉ found := fun hmem =>
      (List.nodup_append.1 h).2.2 type hmem type List.mem_cons_self rfl
    rw [List.append_cons] at h
    rw [List.foldl_cons, if_neg (mt List.contains_iff_mem.1 hnew), ih h, ← List.append_cons]

/-- Types that are all different are left as they are. -/
theorem distinct_of_nodup {types : List TypeId} (h : types.Nodup) : distinct types = types :=
  foldl_distinct_of_nodup (by rwa [List.nil_append])

/-- A type in front of several others stays in front of those that are different. -/
theorem distinct_cons (types : List TypeId) (first : TypeId) :
    ∃ rest, distinct (first :: types) = first :: rest ∧
      ∀ type ∈ types, type ≠ first → type ∈ rest := by
  obtain ⟨rest, hrest⟩ := foldl_distinct_cons types [] first
  refine ⟨rest, hrest, fun type htype hne => ?_⟩
  have hmem : type ∈ distinct (first :: types) := mem_distinct.2 (List.mem_cons_of_mem _ htype)
  rw [distinct, List.foldl_cons] at hmem
  exact (List.mem_cons.1 (hrest ▸ hmem)).resolve_left hne

end Build

namespace TypeGraph

variable {g h : TypeGraph}

/-- The first type is an intersection with the second one among its constituents. -/
def Intersects (g : TypeGraph) (a b : TypeId) : Prop :=
  ∃ types, g.data? a = some (.intersection types) ∧ b ∈ types

/-- No intersection contains itself through intersections. -/
def AcyclicIntersections (g : TypeGraph) : Prop :=
  ∀ id, ¬Relation.TransGen g.Intersects id id

/-- No intersection that a type contains through intersections contains itself in this way. -/
def AcyclicBelow (g : TypeGraph) (id : TypeId) : Prop :=
  ∀ other, Relation.ReflTransGen g.Intersects id other →
    ¬Relation.TransGen g.Intersects other other

theorem AcyclicIntersections.below (h : g.AcyclicIntersections) (id : TypeId) :
    g.AcyclicBelow id :=
  fun other _ => h other

theorem AcyclicBelow.constituent {id type : TypeId} (h : g.AcyclicBelow id)
    (htype : g.Intersects id type) : g.AcyclicBelow type :=
  fun other hother => h other (.head htype hother)

/-- Whether the constituents of intersections come before them, as in a graph that was built bottom
up. -/
def bottomUp (g : TypeGraph) : Bool :=
  g.types.toList.zipIdx.all fun (record, n) =>
    match record.data with
    | .intersection types => types.all (·.index < n)
    | _ => true

theorem index_lt_of_intersects (h : g.bottomUp = true) {a b : TypeId} (hab : g.Intersects a b) :
    b.index < a.index := by
  obtain ⟨types, hdata, hb⟩ := hab
  obtain ⟨record, hrecord, htypes⟩ := Option.map_eq_some_iff.1 hdata
  have hmem : (record, a.index) ∈ g.types.toList.zipIdx := by
    rw [List.mem_zipIdx_iff_getElem?, Array.getElem?_toList]
    exact hrecord
  have hall := List.all_eq_true.1 h _ hmem
  dsimp only at hall
  rw [htypes] at hall
  exact of_decide_eq_true (List.all_eq_true.1 hall b hb)

theorem acyclicIntersections_of_bottomUp (h : g.bottomUp = true) : g.AcyclicIntersections := by
  have hlt : ∀ {a b}, Relation.TransGen g.Intersects a b → b.index < a.index := by
    intro a b hab
    induction hab with
    | single hab => exact index_lt_of_intersects h hab
    | tail _ hbc ih => exact (index_lt_of_intersects h hbc).trans ih
  intro id hcycle
  exact Nat.lt_irrefl _ (hlt hcycle)

theorem hasType_of_data? {id : TypeId} {data : TypeData} (hdata : g.data? id = some data) :
    g.HasType id := by
  obtain ⟨record, hrecord, -⟩ := Option.map_eq_some_iff.1 hdata
  exact hasType_of_type? hrecord

theorem flattenWithin_of_intersection {levels : Nat} {id : TypeId} {types : List TypeId}
    (hdata : g.data? id = some (.intersection types)) :
    g.flattenWithin (levels + 1) id = types.flatMap (g.flattenWithin levels) := by
  rw [flattenWithin, hdata]

theorem flattenWithin_of_not_intersection (levels : Nat) {id : TypeId}
    (hdata : ∀ types, g.data? id ≠ some (.intersection types)) :
    g.flattenWithin levels id = [id] := by
  cases levels with
  | zero => rfl
  | succ levels =>
    unfold flattenWithin
    split
    next types heq => exact absurd heq (hdata types)
    next => rfl

/-- The types above a type are different from it, so there are always more levels than types that
are not above, and the intersections end before the levels do. -/
theorem notIntersection_of_mem_flattenWithin {levels : Nat} {id : TypeId} {above : List TypeId}
    (hacyclic : g.AcyclicBelow id) (hlevels : g.unseen above < levels)
    (habove : ∀ a ∈ above, Relation.TransGen g.Intersects a id) :
    ∀ type ∈ g.flattenWithin levels id, ∀ types, g.data? type ≠ some (.intersection types) := by
  induction levels generalizing id above with
  | zero => exact absurd hlevels (Nat.not_lt_zero _)
  | succ levels ih =>
    by_cases hdata : ∃ types, g.data? id = some (.intersection types)
    · obtain ⟨types, htypes⟩ := hdata
      rw [flattenWithin_of_intersection htypes]
      have hnew : id ∉ above := fun h => hacyclic id .refl (habove id h)
      have hlt : g.unseen (id :: above) < levels := by
        have hunseen := unseen_cons_lt (hasType_of_data? htypes) hnew
        omega
      intro type htype
      obtain ⟨member, hmember, hin⟩ := List.mem_flatMap.1 htype
      have hstep : g.Intersects id member := ⟨types, htypes, hmember⟩
      exact ih (hacyclic.constituent hstep) hlt
        (List.forall_mem_cons.2 ⟨.single hstep, fun a ha => (habove a ha).tail hstep⟩) type hin
    · rw [not_exists] at hdata
      rw [flattenWithin_of_not_intersection _ hdata]
      exact List.forall_mem_singleton.2 hdata

/-- One more level finds nothing if there is no intersection left. -/
theorem flattenWithin_succ {levels : Nat} {id : TypeId}
    (h : ∀ type ∈ g.flattenWithin levels id, ∀ types, g.data? type ≠ some (.intersection types)) :
    g.flattenWithin (levels + 1) id = g.flattenWithin levels id := by
  induction levels generalizing id with
  | zero => exact flattenWithin_of_not_intersection 1 (h id (List.mem_singleton_self id))
  | succ levels ih =>
    by_cases hdata : ∃ types, g.data? id = some (.intersection types)
    · obtain ⟨types, htypes⟩ := hdata
      rw [flattenWithin_of_intersection htypes] at h
      rw [flattenWithin_of_intersection htypes, flattenWithin_of_intersection htypes]
      exact List.flatMap_congr fun member hmember =>
        ih fun type htype => h type (List.mem_flatMap.2 ⟨member, hmember, htype⟩)
    · rw [not_exists] at hdata
      rw [flattenWithin_of_not_intersection _ hdata, flattenWithin_of_not_intersection _ hdata]

/-- With more levels than the graph has types, all constituents are found. -/
theorem flattenWithin_eq {id : TypeId} (hacyclic : g.AcyclicBelow id) {levels : Nat}
    (hlevels : g.types.size < levels) : g.flattenWithin levels id = g.flatten id := by
  induction hlevels with
  | refl => rfl
  | step hle ih =>
    rw [flattenWithin_succ (notIntersection_of_mem_flattenWithin hacyclic
      ((g.unseen_le []).trans_lt hle) (List.forall_mem_nil _)), ih]

theorem notIntersection_of_mem_flatten {id type : TypeId} (hacyclic : g.AcyclicBelow id)
    (htype : type ∈ g.flatten id) (types : List TypeId) :
    g.data? type ≠ some (.intersection types) :=
  notIntersection_of_mem_flattenWithin hacyclic (Nat.lt_succ_of_le (g.unseen_le []))
    (List.forall_mem_nil _) type htype types

theorem flatten_of_not_intersection {id : TypeId}
    (hdata : ∀ types, g.data? id ≠ some (.intersection types)) : g.flatten id = [id] :=
  flattenWithin_of_not_intersection _ hdata

/-! ## Constituents in an extended graph -/

theorem InBounds.flattenWithin (hg : g.InBounds) (levels : Nat) {id : TypeId} (hid : g.HasType id) :
    ∀ type ∈ g.flattenWithin levels id, g.HasType type := by
  induction levels generalizing id with
  | zero => exact List.forall_mem_singleton.2 hid
  | succ levels ih =>
    by_cases hdata : ∃ types, g.data? id = some (.intersection types)
    · obtain ⟨types, htypes⟩ := hdata
      rw [flattenWithin_of_intersection htypes]
      intro type htype
      obtain ⟨member, hmember, hin⟩ := List.mem_flatMap.1 htype
      exact ih (hg.members (Or.inr htypes) hmember) type hin
    · rw [not_exists] at hdata
      rw [flattenWithin_of_not_intersection _ hdata]
      exact List.forall_mem_singleton.2 hid

/-- The constituents of types of a graph in bounds are types of the graph. -/
theorem InBounds.constituents (hg : g.InBounds) {types : List TypeId}
    (htypes : ∀ type ∈ types, g.HasType type) :
    ∀ type ∈ types.flatMap g.flatten, g.HasType type := by
  intro type htype
  obtain ⟨id, hid, hin⟩ := List.mem_flatMap.1 htype
  exact hg.flattenWithin _ (htypes id hid) type hin

theorem InBounds.unionMembers (hg : g.InBounds) (id : TypeId) :
    ∀ member ∈ g.unionMembers id, g.HasType member := by
  unfold TypeGraph.unionMembers
  split
  next members hdata => exact fun _ => hg.members (Or.inl hdata)
  next => exact List.forall_mem_nil _

namespace Extends

variable (hgh : g.Extends h) {id : TypeId}

include hgh

theorem isDistributableUnion_eq (hid : g.HasType id) :
    h.isDistributableUnion id = g.isDistributableUnion id := by
  unfold isDistributableUnion
  rw [hgh.typeFlags_eq hid]

theorem unionMembers_eq (hid : g.HasType id) : h.unionMembers id = g.unionMembers id := by
  unfold unionMembers
  rw [hgh.data?_eq hid]

theorem flattenWithin_eq (hg : g.InBounds) (levels : Nat) (hid : g.HasType id) :
    h.flattenWithin levels id = g.flattenWithin levels id := by
  induction levels generalizing id with
  | zero => rfl
  | succ levels ih =>
    unfold flattenWithin
    rw [hgh.data?_eq hid]
    split
    next types hdata =>
      exact List.flatMap_congr fun member hmember => ih (hg.members (Or.inr hdata) hmember)
    next => rfl

theorem flatten_eq (hg : g.InBounds) (hacyclic : g.AcyclicBelow id) (hid : g.HasType id) :
    h.flatten id = g.flatten id := by
  rw [flatten, hgh.flattenWithin_eq hg _ hid]
  exact TypeGraph.flattenWithin_eq hacyclic (Nat.lt_succ_of_le hgh.types_size)

theorem constituents_eq (hg : g.InBounds) {types : List TypeId}
    (hacyclic : ∀ type ∈ types, g.AcyclicBelow type) (htypes : ∀ type ∈ types, g.HasType type) :
    types.flatMap h.flatten = types.flatMap g.flatten :=
  List.flatMap_congr fun type htype => hgh.flatten_eq hg (hacyclic type htype) (htypes type htype)

end Extends

/-! ## Properties by name -/

/-- The names of some symbols, each once, in the order in which they first occur. -/
def firstNames (g : TypeGraph) (symbols : List SymbolId) : List String :=
  (symbols.filterMap g.symbolName?).eraseDups

/-- The symbols of one name. -/
def named (g : TypeGraph) (symbols : List SymbolId) (name : String) : List SymbolId :=
  symbols.filter fun symbol => g.symbolName? symbol = some name

theorem mem_firstNames {symbols : List SymbolId} {name : String} :
    name ∈ g.firstNames symbols ↔ ∃ symbol ∈ symbols, g.symbolName? symbol = some name := by
  rw [firstNames, List.mem_eraseDups, List.mem_filterMap]

theorem mem_named {symbols : List SymbolId} {name : String} {symbol : SymbolId} :
    symbol ∈ g.named symbols name ↔ symbol ∈ symbols ∧ g.symbolName? symbol = some name := by
  simp only [named, List.mem_filter, decide_eq_true_eq]

section

variable (symbols : List SymbolId) {symbol : SymbolId}

theorem firstNames_append (others : List SymbolId) :
    g.firstNames (symbols ++ others) = g.firstNames symbols ++
      ((others.filterMap g.symbolName?).filter fun name => name ∉ g.firstNames symbols).eraseDups := by
  rw [firstNames, List.filterMap_append, List.eraseDups_append, List.removeAll]
  congr 2
  refine List.filter_congr fun name _ => ?_
  rw [Bool.eq_iff_iff, decide_eq_true_iff, Bool.not_eq_true', Bool.eq_false_iff, ne_eq,
    List.elem_iff, firstNames, List.mem_eraseDups]

theorem firstNames_append_of_mem {name : String} (hname : g.symbolName? symbol = some name)
    (h : name ∈ g.firstNames symbols) :
    g.firstNames (symbols ++ [symbol]) = g.firstNames symbols := by
  rw [firstNames_append]
  simp [hname, h]

theorem firstNames_append_of_notMem {name : String} (hname : g.symbolName? symbol = some name)
    (h : name ∉ g.firstNames symbols) :
    g.firstNames (symbols ++ [symbol]) = g.firstNames symbols ++ [name] := by
  rw [firstNames_append]
  simp [hname, h, List.eraseDups_cons]

theorem nodup_firstNames : (g.firstNames symbols).Nodup := by
  induction symbols using List.reverseRecOn with
  | nil => exact List.nodup_nil
  | append_singleton symbols symbol ih =>
    cases hname : g.symbolName? symbol with
    | none => simpa [firstNames_append, hname] using ih
    | some name =>
      by_cases hmem : name ∈ g.firstNames symbols
      · rwa [firstNames_append_of_mem symbols hname hmem]
      · rw [firstNames_append_of_notMem symbols hname hmem]
        exact ih.append (List.nodup_singleton name) (List.disjoint_singleton.2 hmem)

theorem named_append_singleton (symbol : SymbolId) (name : String) :
    g.named (symbols ++ [symbol]) name =
      g.named symbols name ++ if g.symbolName? symbol = some name then [symbol] else [] := by
  rw [named, List.filter_append, List.filter_singleton]
  simp [named]

/-- One more symbol is put with those of its name, or its name comes last. -/
theorem insertByName_groups (symbol : SymbolId) :
    groupByName.insertByName g
      ((g.firstNames symbols).map fun name => (name, g.named symbols name)) symbol =
        (g.firstNames (symbols ++ [symbol])).map fun name =>
          (name, g.named (symbols ++ [symbol]) name) := by
  simp only [named_append_singleton]
  unfold groupByName.insertByName
  cases hname : g.symbolName? symbol with
  | none =>
    rw [firstNames_append]
    simp [hname]
  | some name =>
    dsimp only
    by_cases hmem : name ∈ g.firstNames symbols
    · rw [if_pos (by simpa using hmem), firstNames_append_of_mem symbols hname hmem, List.map_map]
      refine List.map_congr_left fun other _ => ?_
      by_cases heq : other = name
      · simp [heq]
      · simp [heq, Ne.symm heq]
    · rw [if_neg (by simpa using hmem), firstNames_append_of_notMem symbols hname hmem,
        List.map_append]
      congr 1
      · refine List.map_congr_left fun other hother => ?_
        have hne : name ≠ other := fun heq => hmem (heq ▸ hother)
        simp [hne]
      · have hnone : g.named symbols name = [] := by
          refine List.eq_nil_iff_forall_not_mem.2 fun other hother => hmem ?_
          exact mem_firstNames.2 ⟨other, mem_named.1 hother⟩
        simp [hnone]

/-- The group of a name has all properties of this name. -/
theorem groupByName_eq_map :
    g.groupByName symbols = (g.firstNames symbols).map fun name => (name, g.named symbols name) := by
  induction symbols using List.reverseRecOn with
  | nil => rfl
  | append_singleton symbols symbol ih =>
    rw [groupByName, List.foldl_append, ← groupByName, ih, List.foldl_cons, List.foldl_nil,
      insertByName_groups]

end

/-- What holds of some properties holds of all members of their groups. -/
theorem forall_mem_groupByName {P : SymbolId → Prop} {properties : List SymbolId}
    (h : ∀ property ∈ properties, P property) :
    ∀ group ∈ g.groupByName properties, ∀ symbol ∈ group.2, P symbol := by
  rw [groupByName_eq_map, List.forall_mem_map]
  exact fun name _ symbol hsymbol => h symbol (mem_named.1 hsymbol).1

/-- A property as a group by itself. -/
def soleGroup (g : TypeGraph) (property : SymbolId) : Option (String × List SymbolId) :=
  (g.symbolName? property).map fun name => (name, [property])

theorem soleGroup_of_hasSymbol {property : SymbolId} (h : g.HasSymbol property) :
    ∃ name, g.symbolName? property = some name ∧
      g.soleGroup property = some (name, [property]) := by
  obtain ⟨record, hrecord⟩ := h.symbol?
  have hname : g.symbolName? property = some record.name := by rw [symbolName?, hrecord]; rfl
  exact ⟨record.name, hname, by rw [soleGroup, hname]; rfl⟩

theorem insertByName_of_new {groups : List (String × List SymbolId)} {property : SymbolId}
    (hnew : ∀ group ∈ groups, g.symbolName? property ≠ some group.1) :
    groupByName.insertByName g groups property = groups ++ (g.soleGroup property).toList := by
  unfold groupByName.insertByName soleGroup
  cases hname : g.symbolName? property with
  | none => rw [Option.map_none, Option.toList_none, List.append_nil]
  | some name =>
    have hany : groups.any (·.1 == name) = false := by
      rw [List.any_eq_false]
      intro group hgroup heq
      exact hnew group hgroup (hname.trans (by rw [beq_iff_eq.1 heq]))
    dsimp only
    rw [hany]
    rfl

theorem foldl_insertByName :
    ∀ (properties : List SymbolId) (groups : List (String × List SymbolId)),
    g.DistinctNames properties →
    (∀ property ∈ properties, ∀ group ∈ groups, g.symbolName? property ≠ some group.1) →
      properties.foldl (groupByName.insertByName g) groups =
        groups ++ properties.filterMap g.soleGroup
  | [], groups, _, _ => (List.append_nil groups).symm
  | property :: properties, groups, hdistinct, hnew => by
    obtain ⟨hfirst, hrest⟩ := List.pairwise_cons.1 hdistinct
    rw [List.forall_mem_cons] at hnew
    rw [List.foldl_cons, insertByName_of_new hnew.1, foldl_insertByName properties _ hrest,
      List.append_assoc, List.filterMap_cons]
    · cases g.soleGroup property <;> rfl
    · intro other hother group hgroup
      rcases List.mem_append.1 hgroup with hgroup | hgroup
      · exact hnew.2 other hother group hgroup
      · obtain ⟨name, hname, rfl⟩ := Option.map_eq_some_iff.1 (Option.mem_toList.1 hgroup)
        intro heq
        exact hfirst other hother (hname.trans heq.symm)

theorem names_soleGroups {properties : List SymbolId}
    (h : ∀ property ∈ properties, g.HasSymbol property) :
    (properties.filterMap g.soleGroup).map (fun group => some group.1) =
      properties.map g.symbolName? := by
  induction properties with
  | nil => rfl
  | cons property properties ih =>
    rw [List.forall_mem_cons] at h
    obtain ⟨name, hname, hgroup⟩ := soleGroup_of_hasSymbol h.1
    rw [List.filterMap_cons_some hgroup, List.map_cons, List.map_cons, ih h.2, hname]

theorem Extends.groupByName_eq (hgh : g.Extends h) {properties : List SymbolId}
    (hproperties : ∀ property ∈ properties, g.HasSymbol property) :
    h.groupByName properties = g.groupByName properties := by
  apply List.foldl_ext
  intro groups property hproperty
  unfold groupByName.insertByName
  rw [hgh.symbolName?_eq (hproperties property hproperty)]

/-- Each of several properties with different names is a group by itself. -/
theorem groupByName_of_distinct {properties : List SymbolId} (h : g.DistinctNames properties) :
    g.groupByName properties = properties.filterMap g.soleGroup := by
  rw [groupByName, foldl_insertByName properties [] h fun _ _ => List.forall_mem_nil _]
  rfl

/-! ## Objects of an extended graph -/

theorem InBounds.flatMap_properties (hg : g.InBounds) (objs : List TypeId) :
    ∀ property ∈ objs.flatMap g.properties, g.HasSymbol property := by
  intro property hproperty
  obtain ⟨type, -, hmem⟩ := List.mem_flatMap.1 hproperty
  exact hg.properties hmem

section

variable (hgh : g.Extends h) (hg : g.InBounds) {objs : List TypeId}
  (hobjs : ∀ type ∈ objs, g.HasType type)

include hgh hg hobjs

theorem Extends.groupByName_properties_eq :
    h.groupByName (objs.flatMap h.properties) = g.groupByName (objs.flatMap g.properties) := by
  rw [List.flatMap_congr fun type htype => hgh.properties_eq hg (hobjs type htype),
    hgh.groupByName_eq (hg.flatMap_properties objs)]

theorem Extends.mergedMembers_eq (properties : List SymbolId) :
    h.mergedMembers objs properties = g.mergedMembers objs properties := by
  unfold mergedMembers
  rw [List.flatMap_congr fun type htype => hgh.callSignatures_eq hg (hobjs type htype),
    List.flatMap_congr fun type htype => hgh.constructSignatures_eq hg (hobjs type htype),
    List.flatMap_congr fun type htype => hgh.indexInfos_eq hg (hobjs type htype)]

end

end TypeGraph

namespace Merge

open TypeGraph

theorem extends_opened (s : MergeContext) (key : List TypeId) :
    s.graph.Extends (s.opened key).graph :=
  s.graph_opened key ▸ .addType s.graph _

/-- The object made of several objects of a graph that the state extends. -/
theorem objects_of_extends {g : TypeGraph} (hg : g.InBounds) {s : MergeContext}
    (hgs : g.Extends s.graph) {objs : List TypeId} (hobjs : ∀ type ∈ objs, g.HasType type)
    (merge : List TypeId → Merge TypeId) (key : List TypeId) :
    objects merge objs key s =
      let run := mergeProperties merge (g.groupByName (objs.flatMap g.properties)) (s.opened key)
      (s.nextType, { run.2 with graph := (Build.setObjectMembers s.nextType
        (g.mergedMembers objs run.1) run.2.graph).2 }) := by
  have hopened := hgs.trans (extends_opened s key)
  rw [objects_eq]
  dsimp only
  rw [hopened.groupByName_properties_eq hg hobjs, hopened.mergedMembers_eq hg hobjs]

end Merge

end TypeAtlas
