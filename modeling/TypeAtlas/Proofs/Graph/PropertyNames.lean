import Mathlib.Order.Bounds.Basic
import TypeAtlas.Proofs.Graph.Properties
/-!
# The names of properties

What names the properties of a type have is said by an equation for each type: an object has the
names of its own properties and those of its base types, an intersection the names of all its
members, a union those that all its members have (`TypeGraph.namesAt`). On a graph with cycles these
equations have many solutions. The search for properties finds the least one
(`TypeGraph.properties_least`), although a type that it has met contributes nothing when it is met
again, inside a union as well as outside of it.

`TypeGraph.Collects` is the search without fuel; what is proved about it is proved by induction on a
run. A name that a run does not find is refuted: there is a set of types, with all that were met
among them, none of which has the name as long as only types outside the set have it
(`TypeGraph.Refutes`).
-/

namespace TypeAtlas.TypeGraph

variable {g : TypeGraph}

/-! ## The equations -/

/-- The names of some symbols. -/
def nameSet (g : TypeGraph) (symbols : List SymbolId) : Set String :=
  {name | ∃ symbol ∈ symbols, g.symbolName? symbol = some name}

/-- The names that a type has, when the names that all types have are given. -/
def namesAt (g : TypeGraph) (names : TypeId → Set String) (id : TypeId) : Set String :=
  match g.data? id with
  | some (.object _) =>
    match g.resolvedObject? id with
    | some object => {name | name ∈ g.nameSet object.properties ∨
        ∃ base ∈ object.baseTypes, name ∈ names base}
    | none => ∅
  | some (.intersection types) => {name | ∃ member ∈ types, name ∈ names member}
  | some (.union types) => {name | types ≠ [] ∧ ∀ member ∈ types, name ∈ names member}
  | _ => ∅

/-- The names of the properties that are found for a type. -/
def propertyNames (g : TypeGraph) (id : TypeId) : Set String :=
  g.nameSet (g.properties id)

section

variable {names names' : TypeId → Set String} {name : String} {id : TypeId}

theorem mem_namesAt_object {own object : ObjectType} (hdata : g.data? id = some (.object own))
    (hobject : g.resolvedObject? id = some object) :
    name ∈ g.namesAt names id ↔
      name ∈ g.nameSet object.properties ∨ ∃ base ∈ object.baseTypes, name ∈ names base := by
  simp only [namesAt, hdata, hobject, Set.mem_ofPred_eq]

theorem mem_namesAt_intersection {types : List TypeId}
    (hdata : g.data? id = some (.intersection types)) :
    name ∈ g.namesAt names id ↔ ∃ member ∈ types, name ∈ names member := by
  simp only [namesAt, hdata, Set.mem_ofPred_eq]

theorem mem_namesAt_union {types : List TypeId} (hdata : g.data? id = some (.union types)) :
    name ∈ g.namesAt names id ↔ types ≠ [] ∧ ∀ member ∈ types, name ∈ names member := by
  simp only [namesAt, hdata, Set.mem_ofPred_eq]

/-- Whether a type has a name depends on whether other types have the same name. -/
theorem mem_namesAt_mono (h : ∀ id, name ∈ names id → name ∈ names' id)
    (hname : name ∈ g.namesAt names id) : name ∈ g.namesAt names' id := by
  unfold namesAt at hname ⊢
  split at hname
  · split at hname
    · exact hname.imp_right fun ⟨base, hbase, hin⟩ => ⟨base, hbase, h base hin⟩
    · exact hname
  · obtain ⟨member, hmember, hin⟩ := hname
    exact ⟨member, hmember, h member hin⟩
  · exact ⟨hname.1, fun member hmember => h member (hname.2 member hmember)⟩
  · exact hname

end

/-! ## Names of lists -/

theorem nameSet_append (symbols symbols' : List SymbolId) :
    g.nameSet (symbols ++ symbols') = g.nameSet symbols ∪ g.nameSet symbols' := by
  ext name
  simp only [nameSet, List.mem_append, or_and_right, exists_or, Set.mem_ofPred_eq, Set.mem_union]

/-- A property that is not added has a name that is there. -/
theorem nameSet_pushUnique (symbols : List SymbolId) (candidate : SymbolId) :
    g.nameSet (g.pushUnique symbols candidate) = g.nameSet symbols ∪ g.nameSet [candidate] := by
  unfold pushUnique
  split
  next hsame =>
    refine (Set.union_eq_left.2 fun name hname => ?_).symm
    obtain ⟨c, hc, hname⟩ := hname
    obtain rfl := List.mem_singleton.1 hc
    obtain ⟨symbol, hsymbol, heq⟩ := hasNameOf_iff.1 hsame
    exact ⟨symbol, hsymbol, heq.trans hname⟩
  · exact nameSet_append _ _

theorem nameSet_foldl_pushUnique : ∀ candidates symbols : List SymbolId,
    g.nameSet (candidates.foldl g.pushUnique symbols) = g.nameSet symbols ∪ g.nameSet candidates
  | [], symbols => by
    rw [← nameSet_append, List.append_nil]
    rfl
  | c :: candidates, symbols => by
    rw [List.foldl_cons, nameSet_foldl_pushUnique candidates, nameSet_pushUnique, Set.union_assoc,
      ← nameSet_append]
    rfl

/-- The properties of the first list whose names are in all lists. -/
def common (g : TypeGraph) : List (List SymbolId) → List SymbolId
  | first :: rest => first.filter fun property =>
      rest.all fun properties => g.hasNameOf properties property
  | [] => []

theorem mem_nameSet_common {lists : List (List SymbolId)} {name : String} :
    name ∈ g.nameSet (g.common lists) ↔ lists ≠ [] ∧ ∀ symbols ∈ lists, name ∈ g.nameSet symbols := by
  cases lists with
  | nil => simp [common, nameSet]
  | cons first rest =>
    rw [List.forall_mem_cons, and_iff_right (List.cons_ne_nil _ _)]
    constructor
    · rintro ⟨property, hproperty, hname⟩
      obtain ⟨hfirst, hrest⟩ := List.mem_filter.1 hproperty
      refine ⟨⟨property, hfirst, hname⟩, fun symbols hsymbols => ?_⟩
      obtain ⟨symbol, hsymbol, heq⟩ := hasNameOf_iff.1 (List.all_eq_true.1 hrest symbols hsymbols)
      exact ⟨symbol, hsymbol, heq.trans hname⟩
    · rintro ⟨⟨property, hfirst, hname⟩, hrest⟩
      refine ⟨property, List.mem_filter.2 ⟨hfirst, List.all_eq_true.2 fun symbols hsymbols => ?_⟩,
        hname⟩
      obtain ⟨symbol, hsymbol, heq⟩ := hrest symbols hsymbols
      exact hasNameOf_iff.2 ⟨symbol, hsymbol, heq.trans hname.symm⟩

/-! ## The search without fuel -/

/-- A type that has no properties: it is neither an object nor an intersection nor a union. -/
def IsLeaf (g : TypeGraph) (id : TypeId) : Prop :=
  g.resolvedObject? id = none ∧
    ∀ types, g.data? id ≠ some (.intersection types) ∧ g.data? id ≠ some (.union types)

theorem IsLeaf.namesAt_eq {id : TypeId} (h : g.IsLeaf id) (names : TypeId → Set String) :
    g.namesAt names id = ∅ := by
  unfold namesAt
  split
  · rw [h.1]
  next types hdata => exact absurd hdata (h.2 types).1
  next types hdata => exact absurd hdata (h.2 types).2
  · rfl

/-- The search through some types, one after the other. -/
inductive Collects (g : TypeGraph) : List TypeId → Found → Found → Prop
  | nil {found : Found} : Collects g [] found found
  | met {id : TypeId} {rest : List TypeId} {found final : Found} (hmet : id ∈ found.seen)
      (hrest : Collects g rest found final) : Collects g (id :: rest) found final
  | object {id : TypeId} {rest : List TypeId} {found mid final : Found} {own object : ObjectType}
      (hnew : id ∉ found.seen) (hdata : g.data? id = some (.object own))
      (hobject : g.resolvedObject? id = some object)
      (hbases : Collects g object.baseTypes
        ⟨id :: found.seen, object.properties.foldl g.pushUnique found.properties⟩ mid)
      (hrest : Collects g rest mid final) : Collects g (id :: rest) found final
  | intersection {id : TypeId} {rest types : List TypeId} {found mid final : Found}
      (hnew : id ∉ found.seen) (hdata : g.data? id = some (.intersection types))
      (hmembers : Collects g types ⟨id :: found.seen, found.properties⟩ mid)
      (hrest : Collects g rest mid final) : Collects g (id :: rest) found final
  | union {id : TypeId} {rest types : List TypeId} {found final : Found} {ends : TypeId → Found}
      (hnew : id ∉ found.seen) (hdata : g.data? id = some (.union types))
      (hmembers : ∀ member ∈ types, Collects g [member] ⟨id :: found.seen, []⟩ (ends member))
      (hrest : Collects g rest ⟨id :: found.seen,
        (g.common (types.map fun member => (ends member).properties)).foldl g.pushUnique
          found.properties⟩ final) : Collects g (id :: rest) found final
  | leaf {id : TypeId} {rest : List TypeId} {found final : Found} (hnew : id ∉ found.seen)
      (hleaf : g.IsLeaf id) (hrest : Collects g rest ⟨id :: found.seen, found.properties⟩ final) :
      Collects g (id :: rest) found final

theorem collectAt_union {collect : TypeId → Found → Found} {id : TypeId} {types : List TypeId}
    (hdata : g.data? id = some (.union types)) (found : Found) :
    g.collectAt collect id found = ⟨id :: found.seen,
      (g.common (types.map fun member =>
        (collect member ⟨id :: found.seen, []⟩).properties)).foldl g.pushUnique
          found.properties⟩ := by
  simp only [collectAt, hdata]
  cases types.map fun member => (collect member ⟨id :: found.seen, []⟩).properties <;> rfl

theorem resolvedObject?_of_not_object {id : TypeId}
    (h : ∀ object, g.data? id ≠ some (.object object)) : g.resolvedObject? id = none := by
  rw [resolvedObject?, Option.map_eq_none_iff, Option.eq_none_iff_forall_ne_some]
  exact fun object hobject => h object (data?_of_object? hobject)

/-- Going into a type that was not met, if the search below it takes these steps. -/
theorem Collects.enter {collect : TypeId → Found → Found} {id : TypeId} {rest : List TypeId}
    {found final : Found}
    (hcollect : ∀ {data}, g.data? id = some data → ∀ (types : List TypeId)
      (properties : List SymbolId), g.Collects types ⟨id :: found.seen, properties⟩
        (types.foldl (fun found type => collect type found) ⟨id :: found.seen, properties⟩))
    (hnew : id ∉ found.seen) (hrest : g.Collects rest (g.collectAt collect id found) final) :
    g.Collects (id :: rest) found final := by
  have hleaf : g.collectAt collect id found = ⟨id :: found.seen, found.properties⟩ →
      g.IsLeaf id → g.Collects (id :: rest) found final :=
    fun hsame hid => .leaf hnew hid (hsame ▸ hrest)
  have hnone : (∀ object, g.data? id ≠ some (.object object)) → g.resolvedObject? id = none :=
    resolvedObject?_of_not_object
  cases hdata : g.data? id with
  | none =>
    rw [hdata] at hnone
    exact hleaf (by simp only [collectAt, hdata]) ⟨hnone (by simp), by simp [hdata]⟩
  | some data =>
    cases data with
    | object own =>
      cases hobject : g.resolvedObject? id with
      | none =>
        exact hleaf (by simp only [collectAt, hdata, hobject]) ⟨hobject, by simp [hdata]⟩
      | some object =>
        refine .object hnew hdata hobject (hcollect hdata _ _) ?_
        simp only [collectAt, hdata, hobject] at hrest
        exact hrest
    | intersection types =>
      refine .intersection hnew hdata (hcollect hdata _ _) ?_
      simp only [collectAt, hdata] at hrest
      exact hrest
    | union types =>
      rw [collectAt_union hdata] at hrest
      exact .union hnew hdata (fun member _ => hcollect hdata [member] []) hrest
    | _ =>
      rw [hdata] at hnone
      exact hleaf (by simp only [collectAt, hdata]) ⟨hnone (by simp), by simp [hdata]⟩

/-- The search with fuel for all types that were not met takes these steps. By induction on the fuel,
and on the types that are still to come. -/
theorem collects_foldl {fuel : Nat} (types : List TypeId) {found : Found}
    (hfuel : g.unseen found.seen < fuel) :
    g.Collects types found (types.foldl (fun found type => g.collect fuel type found) found) := by
  induction fuel generalizing types found with
  | zero => exact absurd hfuel (Nat.not_lt_zero _)
  | succ fuel ih =>
    induction types generalizing found with
    | nil => exact .nil
    | cons id rest ihrest =>
      have hrest : g.Collects rest (g.collect (fuel + 1) id found) _ :=
        ihrest ((g.unseen_le_of_subset (seen_subset_collect _ id found)).trans_lt hfuel)
      rw [List.foldl_cons]
      by_cases hmet : id ∈ found.seen
      · have hfound : g.collect (fuel + 1) id found = found := by
          rw [collect_succ, if_pos (List.contains_iff_mem.2 hmet)]
        rw [hfound] at hrest ⊢
        exact .met hmet hrest
      · have hcollect : g.collect (fuel + 1) id found = g.collectAt (g.collect fuel) id found := by
          rw [collect_succ, if_neg (mt List.contains_iff_mem.1 hmet)]
        rw [hcollect] at hrest ⊢
        refine .enter (fun hdata types properties => ih types ?_) hmet hrest
        obtain ⟨record, hrecord, -⟩ := Option.map_eq_some_iff.1 hdata
        have hlt := unseen_cons_lt (hasType_of_type? hrecord) hmet
        exact Nat.lt_of_lt_of_le hlt (Nat.le_of_lt_succ hfuel)

/-- The search for the properties of a type ends. -/
theorem collects_properties (g : TypeGraph) (id : TypeId) :
    ∃ seen, g.Collects [id] {} ⟨seen, g.properties id⟩ :=
  ⟨_, collects_foldl [id] (Nat.lt_of_le_of_lt (g.unseen_le []) (by omega))⟩

/-! ## What the search finds -/

/-- A search loses no name. -/
theorem Collects.nameSet_subset {types : List TypeId} {found final : Found}
    (h : g.Collects types found final) :
    g.nameSet found.properties ⊆ g.nameSet final.properties := by
  induction h with
  | nil => exact subset_rfl
  | met _ _ ih => exact ih
  | object _ _ _ _ _ ihbases ihrest =>
    rw [nameSet_foldl_pushUnique] at ihbases
    exact (Set.subset_union_left.trans ihbases).trans ihrest
  | intersection _ _ _ _ ihmembers ihrest => exact ihmembers.trans ihrest
  | union _ _ _ _ _ ihrest =>
    rw [nameSet_foldl_pushUnique] at ihrest
    exact Set.subset_union_left.trans ihrest
  | leaf _ _ _ ih => exact ih

/-- A search finds only names that the types have by every solution of the equations. -/
theorem Collects.sound {names : TypeId → Set String} (hnames : g.namesAt names ≤ names)
    {types : List TypeId} {found final : Found} (h : g.Collects types found final) {name : String}
    (hname : name ∈ g.nameSet final.properties) :
    name ∈ g.nameSet found.properties ∨ ∃ id ∈ types, name ∈ names id := by
  induction h with
  | nil => exact Or.inl hname
  | met _ _ ih => exact (ih hname).imp_right fun ⟨id, hid, h⟩ => ⟨id, List.mem_cons_of_mem _ hid, h⟩
  | @object id rest _ _ _ own object _ hdata hobject _ _ ihbases ihrest =>
    have hat : _ → name ∈ names id := fun h =>
      hnames id ((mem_namesAt_object hdata hobject).2 h)
    rcases ihrest hname with hmid | ⟨other, hother, h⟩
    · rcases ihbases hmid with hfound | hbase
      · rw [nameSet_foldl_pushUnique] at hfound
        exact hfound.imp_right fun hown => ⟨id, List.mem_cons_self, hat (Or.inl hown)⟩
      · exact Or.inr ⟨id, List.mem_cons_self, hat (Or.inr hbase)⟩
    · exact Or.inr ⟨other, List.mem_cons_of_mem _ hother, h⟩
  | @intersection id rest types _ _ _ _ hdata _ _ ihmembers ihrest =>
    have hat : _ → name ∈ names id := fun h => hnames id ((mem_namesAt_intersection hdata).2 h)
    rcases ihrest hname with hmid | ⟨other, hother, h⟩
    · exact (ihmembers hmid).imp_right fun h => ⟨id, List.mem_cons_self, hat h⟩
    · exact Or.inr ⟨other, List.mem_cons_of_mem _ hother, h⟩
  | @union id rest types _ _ ends _ hdata _ _ ihmembers ihrest =>
    have hat : _ → name ∈ names id := fun h => hnames id ((mem_namesAt_union hdata).2 h)
    rcases ihrest hname with hmid | ⟨other, hother, h⟩
    · rw [nameSet_foldl_pushUnique] at hmid
      refine hmid.imp_right fun hcommon => ⟨id, List.mem_cons_self, hat ?_⟩
      obtain ⟨hne, hall⟩ := mem_nameSet_common.1 hcommon
      refine ⟨fun hnil => hne (hnil ▸ rfl), fun member hmember => ?_⟩
      have hin := hall _ (List.mem_map_of_mem hmember)
      rcases ihmembers member hmember hin with ⟨_, hnone, -⟩ | ⟨other, hother, h⟩
      · exact absurd hnone List.not_mem_nil
      · exact List.mem_singleton.1 hother ▸ h
    · exact Or.inr ⟨other, List.mem_cons_of_mem _ hother, h⟩
  | leaf _ _ _ ih =>
    exact (ih hname).imp_right fun ⟨id, hid, h⟩ => ⟨id, List.mem_cons_of_mem _ hid, h⟩

/-! ## What the search does not find -/

/-- Just the types outside a set have all names. -/
def outside (refuted : Set TypeId) (id : TypeId) : Set String :=
  {_name | id ∉ refuted}

theorem mem_outside {refuted : Set TypeId} {id : TypeId} {name : String} :
    name ∈ outside refuted id ↔ id ∉ refuted :=
  Iff.rfl

/-- No type of a set, apart from those that were met before, has a name if only types outside the set
have it. -/
def Refutes (g : TypeGraph) (name : String) (met : List TypeId) (refuted : Set TypeId) : Prop :=
  ∀ id ∈ refuted, id ∉ met → name ∉ g.namesAt (outside refuted) id

/-- A set that refutes a name for all types of a search that does not find the name. -/
structure Refutation (g : TypeGraph) (name : String) (types before after : List TypeId)
    (refuted : Set TypeId) : Prop where
  refutes : g.Refutes name before refuted
  types : ∀ id ∈ types, id ∈ refuted
  before : ∀ id ∈ before, id ∈ refuted
  after : ∀ id ∈ after, id ∈ refuted

section

variable {name : String} {id : TypeId} {before mid after : List TypeId} {refuted refuted' : Set TypeId}

/-- Less is possible if fewer types may have the name. -/
theorem notMem_namesAt_outside {larger : Set TypeId} (hsubset : refuted ⊆ larger)
    (h : name ∉ g.namesAt (outside refuted) id) : name ∉ g.namesAt (outside larger) id := by
  refine mt (mem_namesAt_mono fun other hout => ?_) h
  exact mem_outside.2 (mt (@hsubset other) (mem_outside.1 hout))

/-- What is met later is refuted as well. -/
theorem Refutes.union (h : g.Refutes name before refuted) (h' : g.Refutes name mid refuted')
    (hmid : ∀ id ∈ mid, id ∈ refuted) : g.Refutes name before (refuted ∪ refuted') := by
  intro id hid hnew
  by_cases hfirst : id ∈ refuted
  · exact notMem_namesAt_outside Set.subset_union_left (h id hfirst hnew)
  · exact notMem_namesAt_outside Set.subset_union_right
      (h' id (hid.resolve_left hfirst) (mt (hmid id) hfirst))

/-- A search through one type, and then through the rest. -/
theorem Refutation.append {rest : List TypeId} (h : g.Refutation name [id] before mid refuted)
    (h' : g.Refutation name rest mid after refuted') :
    g.Refutation name (id :: rest) before after (refuted ∪ refuted') where
  refutes := h.refutes.union h'.refutes h.after
  types := List.forall_mem_cons.2 ⟨Or.inl (h.types id List.mem_cons_self),
    fun other hother => Or.inr (h'.types other hother)⟩
  before other hother := Or.inl (h.before other hother)
  after other hother := Or.inr (h'.after other hother)

/-- A search that goes into a type, if what is refuted below it does not leave it the name. -/
theorem Refutation.enclose {below : List TypeId} (h : g.Refutation name below (id :: before) mid refuted)
    (hid : name ∉ g.namesAt (outside refuted) id) (hafter : ∀ other ∈ after, other ∈ refuted) :
    g.Refutation name [id] before after refuted where
  refutes other hother hnew := by
    by_cases heq : other = id
    · exact heq ▸ hid
    · refine h.refutes other hother fun hmet => ?_
      exact (List.mem_cons.1 hmet).elim heq hnew
  types := List.forall_mem_singleton.2 (h.before id List.mem_cons_self)
  before other hother := h.before other (List.mem_cons_of_mem id hother)
  after := hafter

theorem refutation_nil (name : String) (met : List TypeId) :
    g.Refutation name [] met met {id | id ∈ met} where
  refutes _ hid hnew := absurd hid hnew
  types := List.forall_mem_nil _
  before _ hid := hid
  after _ hid := hid

/-- A type that does not have the name whatever other types have. -/
theorem refutation_leaf (hid : ∀ names, name ∉ g.namesAt names id) :
    g.Refutation name [id] before (id :: before) {other | other ∈ id :: before} :=
  (refutation_nil name (id :: before)).enclose (hid _) fun _ hother => hother

end

/-- A name that a search does not find is refuted. The members of a union are searched one by one,
and one of them that does not have the name is enough. -/
theorem Collects.complete {name : String} {types : List TypeId} {found final : Found}
    (h : g.Collects types found final) (hname : name ∉ g.nameSet final.properties) :
    ∃ refuted, g.Refutation name types found.seen final.seen refuted := by
  induction h with
  | nil => exact ⟨_, refutation_nil name _⟩
  | met hmet hrest ih =>
    obtain ⟨refuted, h⟩ := ih hname
    exact ⟨refuted, { h with types := List.forall_mem_cons.2 ⟨h.before _ hmet, h.types⟩ }⟩
  | @object id rest found mid final own object hnew hdata hobject hbases hrest ihbases ihrest =>
    have hmid : name ∉ g.nameSet mid.properties := fun h => hname (hrest.nameSet_subset h)
    obtain ⟨refuted, hbelow⟩ := ihbases hmid
    obtain ⟨refuted', hafter⟩ := ihrest hname
    refine ⟨_, (hbelow.enclose (fun hin => ?_) hbelow.after).append hafter⟩
    rcases (mem_namesAt_object hdata hobject).1 hin with hown | ⟨base, hbase, hout⟩
    · refine hmid (hbases.nameSet_subset ?_)
      rw [nameSet_foldl_pushUnique]
      exact Or.inr hown
    · exact hout (hbelow.types base hbase)
  | @intersection id rest types found mid final hnew hdata hmembers hrest ihmembers ihrest =>
    obtain ⟨refuted, hbelow⟩ := ihmembers fun h => hname (hrest.nameSet_subset h)
    obtain ⟨refuted', hafter⟩ := ihrest hname
    refine ⟨_, (hbelow.enclose (fun hin => ?_) hbelow.after).append hafter⟩
    obtain ⟨member, hmember, hout⟩ := (mem_namesAt_intersection hdata).1 hin
    exact hout (hbelow.types member hmember)
  | @union id rest types found final ends hnew hdata hmembers hrest ihmembers ihrest =>
    obtain ⟨refuted', hafter⟩ := ihrest hname
    by_cases hall : ∀ member ∈ types, name ∈ g.nameSet (ends member).properties
    · have hnil : types = [] := by
        by_contra hne
        refine hname (hrest.nameSet_subset ?_)
        rw [nameSet_foldl_pushUnique]
        exact Or.inr (mem_nameSet_common.2
          ⟨mt List.map_eq_nil_iff.1 hne, List.forall_mem_map.2 hall⟩)
      exact ⟨_, (refutation_leaf fun names hin =>
        ((mem_namesAt_union hdata).1 hin).1 hnil).append hafter⟩
    · push Not at hall
      obtain ⟨member, hmember, hnot⟩ := hall
      obtain ⟨refuted, hbelow⟩ := ihmembers member hmember hnot
      refine ⟨_, (hbelow.enclose (fun hin => ?_) hbelow.before).append hafter⟩
      exact ((mem_namesAt_union hdata).1 hin).2 member hmember
        (hbelow.types member List.mem_cons_self)
  | @leaf id rest found final hnew hleaf hrest ih =>
    obtain ⟨refuted, hafter⟩ := ih hname
    refine ⟨_, (refutation_leaf fun names hin => ?_).append hafter⟩
    rw [hleaf.namesAt_eq] at hin
    exact hin

/-! ## The least solution -/

/-- The names that are found are in every solution. -/
theorem propertyNames_le {names : TypeId → Set String} (hnames : g.namesAt names ≤ names) :
    g.propertyNames ≤ names := by
  intro id name hname
  obtain ⟨seen, hcollects⟩ := g.collects_properties id
  rcases hcollects.sound hnames hname with ⟨_, hnone, -⟩ | ⟨other, hother, h⟩
  · exact absurd hnone List.not_mem_nil
  · exact List.mem_singleton.1 hother ▸ h

/-- A name that is refuted for a set of types is found for none of them: the types outside the set,
with all other names, are a solution. -/
theorem notMem_of_refutes {name : String} {refuted : Set TypeId}
    (h : g.Refutes name [] refuted) {id : TypeId} (hname : name ∈ g.propertyNames id) :
    id ∉ refuted := by
  let names : TypeId → Set String := fun id => {other | other = name → id ∉ refuted}
  have hnames : g.namesAt names ≤ names := by
    rintro id _ hin rfl hid
    refine h id hid List.not_mem_nil (mem_namesAt_mono (fun other hother => ?_) hin)
    exact mem_outside.2 (hother rfl)
  exact propertyNames_le hnames id hname rfl

/-- What the equations give from the names that are found is found. -/
theorem namesAt_propertyNames_le (g : TypeGraph) :
    g.namesAt g.propertyNames ≤ g.propertyNames := by
  intro id name hname
  by_contra hnot
  obtain ⟨seen, hcollects⟩ := g.collects_properties id
  obtain ⟨refuted, hrefutation⟩ := hcollects.complete hnot
  have hid := hrefutation.types id List.mem_cons_self
  refine hrefutation.refutes id hid List.not_mem_nil (mem_namesAt_mono (fun other hother => ?_) hname)
  exact mem_outside.2 (notMem_of_refutes hrefutation.refutes hother)

/-- On every graph the search for the properties of a type ends, and what it finds have different
names. The names that it finds for all types are the least solution of the equations for objects,
intersections and unions. -/
theorem properties_least (g : TypeGraph) :
    (∀ id, (∃ seen, g.Collects [id] {} ⟨seen, g.properties id⟩) ∧
      g.DistinctNames (g.properties id)) ∧
    IsLeast {names | g.namesAt names = names} g.propertyNames := by
  refine ⟨fun id => ⟨g.collects_properties id, distinctNames_properties g id⟩, ?_,
    fun names hnames => propertyNames_le hnames.le⟩
  have hle := namesAt_propertyNames_le g
  refine le_antisymm hle (propertyNames_le fun id name hname => ?_)
  exact mem_namesAt_mono (fun other hother => hle other hother) hname

end TypeAtlas.TypeGraph
