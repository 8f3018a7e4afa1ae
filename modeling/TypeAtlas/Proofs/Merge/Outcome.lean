import TypeAtlas.Proofs.Merge.Memo
import TypeAtlas.Proofs.Merge.Text
/-!
# What merging a single type gives

A type without a note is merged in one of three ways (`Merge.mergeWithin_sole`). If it has a union
among its constituents, or objects only, then what is made of it is noted. If it has objects and
other types, then the object made of the objects is noted, but the answer is an intersection of this
object with the other types. If it has other types only, nothing is noted, and the answer is added
again each time.
-/

namespace TypeAtlas

open TypeGraph

namespace TypeGraph

variable (g : TypeGraph)

/-- Objects and other types are among the constituents of a type, but no union. -/
def Mixed (id : TypeId) : Prop :=
  (∀ type ∈ g.flatten id, g.isDistributableUnion type = false) ∧
    g.plainOf (g.flatten id) ≠ [] ∧ g.othersOf (g.flatten id) ≠ []

instance (id : TypeId) : Decidable (g.Mixed id) :=
  inferInstanceAs (Decidable (_ ∧ _ ∧ _))

/-- What a type without objects and unions among its constituents is merged to. -/
def leftover (id : TypeId) : Build TypeId :=
  match g.othersOf (g.flatten id) with
  | [] => pure .unknown
  | [single] => Build.cloneWithoutAlias single
  | others => Build.intersection others

variable {g}

theorem mem_plainOf {types : List TypeId} {type : TypeId} :
    type ∈ g.plainOf types ↔ type ∈ types ∧ g.isPlainObject type = true := by
  rw [plainOf, List.mem_filter, Build.mem_distinct]

/-- Constituents that are all objects, or none of which is one. -/
theorem plainOf_of_objects {types : List TypeId}
    (h : ∀ type ∈ types, g.isPlainObject type = true) :
    g.plainOf types = Build.distinct types ∧ g.othersOf types = [] := by
  refine ⟨List.filter_eq_self.2 fun type htype => h type (Build.mem_distinct.1 htype),
    List.filter_eq_nil_iff.2 fun type htype => ?_⟩
  rw [h type (Build.mem_distinct.1 htype)]
  exact Bool.false_ne_true

theorem plainOf_of_no_objects {types : List TypeId}
    (h : ∀ type ∈ types, g.isPlainObject type = false) :
    g.plainOf types = [] ∧ g.othersOf types = Build.distinct types := by
  refine ⟨List.filter_eq_nil_iff.2 fun type htype => ?_,
    List.filter_eq_self.2 fun type htype => ?_⟩ <;> rw [h type (Build.mem_distinct.1 htype)]
  · exact Bool.false_ne_true
  · rfl

theorem hasType_of_isPlainObject {id : TypeId} (h : g.isPlainObject id = true) : g.HasType id := by
  simp only [isPlainObject, Bool.and_eq_true, typeFlags] at h
  cases hrecord : g.type? id with
  | none =>
    rw [hrecord] at h
    cases h.1.1.1
  | some record => exact hasType_of_type? hrecord

theorem callSignatures_of_isPlainObject {id : TypeId} (h : g.isPlainObject id = true) :
    g.callSignatures id = [] := by
  simp only [isPlainObject, Bool.and_eq_true] at h
  exact List.isEmpty_iff.1 h.1.1.2

theorem noted_iff_of_no_union {id : TypeId}
    (h : ∀ type ∈ g.flatten id, g.isDistributableUnion type = false) :
    g.Noted id ↔ g.plainOf (g.flatten id) ≠ [] := by
  constructor
  · rintro ⟨type, htype, hunion | hobject⟩
    · rw [h type htype] at hunion
      cases hunion
    · exact List.ne_nil_of_mem (mem_plainOf.2 ⟨htype, hobject⟩)
  · intro hne
    obtain ⟨type, htype⟩ := List.exists_mem_of_ne_nil _ hne
    exact ⟨type, (mem_plainOf.1 htype).1, Or.inr (mem_plainOf.1 htype).2⟩

variable {h : TypeGraph} (hgh : g.Extends h) (hg : g.InBounds)

include hgh hg

theorem Extends.plainOf_eq {types : List TypeId} (htypes : ∀ type ∈ types, g.HasType type) :
    h.plainOf types = g.plainOf types :=
  List.filter_congr fun type htype =>
    hgh.isPlainObject_eq hg (htypes type (Build.mem_distinct.1 htype))

theorem Extends.othersOf_eq {types : List TypeId} (htypes : ∀ type ∈ types, g.HasType type) :
    h.othersOf types = g.othersOf types :=
  List.filter_congr fun type htype => by
    rw [hgh.isPlainObject_eq hg (htypes type (Build.mem_distinct.1 htype))]

end TypeGraph

/-- An intersection of a type with others that it is not among is added, with all of them. -/
theorem Build.intersection_of_new {type : TypeId} {others : List TypeId} (hne : others ≠ [])
    (hnew : type ∉ others) :
    ∃ rest, rest ≠ [] ∧
      Build.intersection (type :: others) = Build.addType (intersectionRecord (type :: rest)) := by
  obtain ⟨rest, hdistinct, hrest⟩ := Build.distinct_cons others type
  have hrestNe : rest ≠ [] := by
    obtain ⟨other, hother⟩ := List.exists_mem_of_ne_nil _ hne
    exact List.ne_nil_of_mem (hrest other hother fun heq => hnew (heq ▸ hother))
  refine ⟨rest, hrestNe, ?_⟩
  rcases Build.intersection_cases (type :: others) with ⟨single, hsingle, -⟩ | ⟨-, h⟩
  · rw [hdistinct] at hsingle
    exact absurd (List.cons.inj hsingle).2 hrestNe
  · rw [h, hdistinct]
    rfl

namespace Merge

/-- The answer is an intersection of a new object and other types, but the note is the object. -/
structure PartlyNoted (s : MergeContext) (id made : TypeId) (run : TypeId × MergeContext) :
    Prop where
  new : s.graph.types.size ≤ made.index ∧ s.graph.types.size ≤ run.1.index
  note : run.2.made.lookup id = some made
  answer : ∃ rest, rest ≠ [] ∧ run.2.graph.type? run.1 = some (intersectionRecord (made :: rest))
  object : ∃ members, members.callSignatures = [] ∧
    run.2.graph.type? made = some (mergedRecord members)

/-- What a call gives for a type without a note. -/
inductive Outcome (g : TypeGraph) (s : MergeContext) (id : TypeId) (run : TypeId × MergeContext) :
    Prop
  | noted (hnoted : g.Noted id) (hmixed : ¬g.Mixed id) (hnote : run.2.made.lookup id = some run.1)
  | partlyNoted (hmixed : g.Mixed id) (made : TypeId) (hpartly : PartlyNoted s id made run)
  | leftover (hnoted : ¬g.Noted id) (hrun : run = build (g.leftover id) s)

/-- Objects only: they are merged, each of them once. -/
theorem mergeWithin_of_objects {levels : Nat} {id : TypeId} {types : List TypeId}
    {s : MergeContext} (hknown : s.known? [id] = none) (hflatten : s.graph.flatten id = types)
    (hne : types ≠ []) (hplain : ∀ type ∈ types, s.graph.isPlainObject type = true)
    (hno : ∀ type ∈ types, s.graph.isDistributableUnion type = false) :
    mergeWithin (levels + 1) [id] s =
      objects (mergeWithin levels) (Build.distinct types) [id] s := by
  subst hflatten
  have hsole : [id].flatMap s.graph.flatten = s.graph.flatten id := List.flatMap_singleton ..
  obtain ⟨hplainOf, hothersOf⟩ := plainOf_of_objects hplain
  have hsome : s.graph.plainOf (s.graph.flatten id) ≠ [] := by
    obtain ⟨type, htype⟩ := List.exists_mem_of_ne_nil _ hne
    exact List.ne_nil_of_mem (mem_plainOf.2 ⟨htype, hplain type htype⟩)
  rw [mergeWithin_succ hknown, classified_of_no_union _ (hsole ▸ hno), hsole, intersect_eq,
    hothersOf, ← hplainOf]
  cases hobjs : s.graph.plainOf (s.graph.flatten id) with
  | nil => exact absurd hobjs hsome
  | cons object rest => rfl

/-! ## The object made of several objects -/

theorem type?_opened (s : MergeContext) (key : List TypeId)
    (hsize : s.graph.types.size < UInt32.size) :
    (s.opened key).graph.type? s.nextType = some (mergedRecord {}) := by
  rw [s.graph_opened]
  exact type?_addType _ hsize

theorem types_size_opened (s : MergeContext) (key : List TypeId) :
    (s.opened key).graph.types.size = s.graph.types.size + 1 := by
  rw [s.graph_opened]
  exact types_size_addType _ _

section

variable {merge : List TypeId → Merge TypeId} (hgrows : ∀ types, Grows (merge types))

include hgrows

theorem types_size_lt_objects (objs key : List TypeId) (s : MergeContext) :
    s.graph.types.size < (objects merge objs key s).2.graph.types.size := by
  rw [objects_eq]
  dsimp only
  rw [Build.setObjectMembers, Build.modifyObject, types_size_modifyType]
  have hle := (grows_mergeProperties hgrows ((s.opened key).graph.groupByName
    (objs.flatMap (s.opened key).graph.properties)) (s.opened key)).size_le
  rw [types_size_opened] at hle
  exact hle

/-- The object made of several objects has the merged properties, and the signatures of all. -/
theorem type?_objects {g : TypeGraph} (hg : g.InBounds) {s : MergeContext}
    (hgs : g.Extends s.graph) {objs : List TypeId} (hobjs : ∀ type ∈ objs, g.HasType type)
    (key : List TypeId)
    (hsize : (objects merge objs key s).2.graph.types.size ≤ UInt32.size) :
    (objects merge objs key s).2.graph.type? s.nextType =
      some (mergedRecord (g.mergedMembers objs (mergeProperties merge
        (g.groupByName (objs.flatMap g.properties)) (s.opened key)).1)) := by
  have hlt := (types_size_lt_objects hgrows objs key s).trans_le hsize
  rw [objects_of_extends hg hgs hobjs] at hsize ⊢
  dsimp only at hsize ⊢
  rw [Build.setObjectMembers, Build.modifyObject, types_size_modifyType] at hsize
  have hrun := grows_mergeProperties hgrows (g.groupByName (objs.flatMap g.properties))
    (s.opened key)
  have hrecord := type?_opened s key hlt
  rw [← (hrun.extends_of_le hsize).type?_eq (hasType_of_type? hrecord)] at hrecord
  exact type?_modifyType_self hrecord _

end

/-! ## A single type -/

theorem noted_of_sole {g : TypeGraph} {id other : TypeId} (hnoted : g.Noted id)
    (h : [id] = [other]) : g.Noted other :=
  List.singleton_inj.1 h ▸ hnoted

section

variable {g : TypeGraph} (hg : g.InBounds) {merge : List TypeId → Merge TypeId}
  (hmerge : ∀ types, (∀ type ∈ types, g.HasType type) → Sound g (merge types))
  (hgrows : ∀ types, Grows (merge types)) {s : MergeContext} (hs : s.From g) {id : TypeId}
  (hknown : s.known? [id] = none)

include hg hmerge hgrows hs hknown

theorem lookup_objects (hnoted : g.Noted id) {objs : List TypeId}
    (hobjs : ∀ type ∈ objs, g.HasType type)
    (hsize : (objects merge objs [id] s).2.graph.types.size ≤ UInt32.size) :
    (objects merge objs [id] s).2.made.lookup id = some s.nextType := by
  refine (from_objects hg hmerge hgrows hs hknown (fun _ => noted_of_sole hnoted) hobjs
    hsize).2 ?_
  rw [MergeContext.opened, lookup_note, if_pos rfl]

/-- Objects and other types: the object is noted, and the answer has the other types as well. -/
theorem partlyNoted_intersection (hnoted : g.Noted id) {objs others : List TypeId}
    (hobjs : ∀ type ∈ objs, g.HasType type ∧ g.callSignatures type = [])
    (hothers : ∀ type ∈ others, g.HasType type) (hne : others ≠ []) {x : Merge TypeId}
    (hx : x = do
      let made ← objects merge objs [id]
      build (Build.intersection (made :: others)))
    (hsize : (x s).2.graph.types.size ≤ UInt32.size) :
    PartlyNoted s id s.nextType (x s) := by
  have hrun : x s =
      build (Build.intersection (s.nextType :: others)) (objects merge objs [id] s).2 := by
    rw [hx]
    rfl
  have hlt := types_size_lt_objects hgrows objs [id] s
  have hnote := lookup_objects hg hmerge hgrows hs hknown hnoted fun type h => (hobjs type h).1
  have hrecord := type?_objects hgrows hg hs.graph (fun type h => (hobjs type h).1) [id]
  set t := (objects merge objs [id] s).2 with ht
  rw [hrun] at hsize ⊢
  have hle : t.graph.types.size ≤ UInt32.size :=
    (Build.intersection_appends (s.nextType :: others)).size_le.trans hsize
  have hindex : s.nextType.index = s.graph.types.size := TypeId.index_ofIndex (hlt.trans_le hle)
  have hnew : s.nextType ∉ others := by
    intro hmem
    have hold := (hothers _ hmem).trans_le hs.graph.types_size
    rw [hindex] at hold
    exact hold.ne rfl
  obtain ⟨rest, hrest, hbuild⟩ := Build.intersection_of_new hne hnew
  rw [hbuild] at hsize ⊢
  have hadd : t.graph.types.size < UInt32.size :=
    (types_size_addType (intersectionRecord (s.nextType :: rest)) t.graph).ge.trans hsize
  have hobject := hrecord hle
  rw [← (Extends.addType t.graph _).type?_eq (hasType_of_type? hobject)] at hobject
  have hcalls : objs.flatMap g.callSignatures = [] :=
    List.flatMap_eq_nil_iff.2 fun type htype => (hobjs type htype).2
  have hanswer := index_addType (intersectionRecord (s.nextType :: rest)) hadd
  exact ⟨⟨hindex.ge, hlt.le.trans hanswer.ge⟩, hnote hle,
    ⟨rest, hrest, type?_addType _ hadd⟩, ⟨_, hcalls, hobject⟩⟩

/-- Constituents without a union among them. -/
theorem intersect_sole (htypes : ∀ type ∈ g.flatten id, g.HasType type)
    (hno : ∀ type ∈ g.flatten id, g.isDistributableUnion type = false)
    (hsize : (intersect merge (g.flatten id) [id] s).2.graph.types.size ≤ UInt32.size) :
    Outcome g s id (intersect merge (g.flatten id) [id] s) := by
  have hplainOf := hs.graph.plainOf_eq hg htypes
  have hothersOf := hs.graph.othersOf_eq hg htypes
  have hnoted := noted_iff_of_no_union hno
  have hobjs : ∀ type ∈ g.plainOf (g.flatten id), g.HasType type ∧ g.callSignatures type = [] := by
    intro type htype
    obtain ⟨hmem, hobject⟩ := mem_plainOf.1 htype
    exact ⟨htypes type hmem, callSignatures_of_isPlainObject hobject⟩
  rcases intersect_cases merge (g.flatten id) [id] s with
    ⟨hnil, hothers, h⟩ | ⟨single, hnil, hothers, h⟩ | ⟨hnil, hothers, h⟩ | ⟨hne, hothers, h⟩ |
      ⟨hne, hothers, h⟩ <;> rw [hplainOf] at * <;> rw [hothersOf] at * <;> rw [h] at hsize ⊢
  · refine .leftover (fun hn => hnoted.1 hn hnil) ?_
    rw [leftover, hothers]
    rfl
  · refine .leftover (fun hn => hnoted.1 hn hnil) ?_
    rw [leftover, hothers]
  · refine .leftover (fun hn => hnoted.1 hn hnil) ?_
    rw [leftover]
    generalize g.othersOf (g.flatten id) = others at hothers
    rcases others with _ | ⟨first, _ | ⟨second, rest⟩⟩
    · exact absurd hothers (by decide)
    · exact absurd hothers (Nat.lt_irrefl 1)
    · rfl
  · refine .noted (hnoted.2 hne) (fun hmixed => hmixed.2.2 hothers) ?_
    exact lookup_objects hg hmerge hgrows hs hknown (hnoted.2 hne)
      (fun type htype => (hobjs type htype).1) hsize
  · refine .partlyNoted ⟨hno, hne, hothers⟩ s.nextType ?_
    refine partlyNoted_intersection hg hmerge hgrows hs hknown (hnoted.2 hne) hobjs ?_ hothers rfl
      hsize
    intro type htype
    exact htypes type (Build.mem_distinct.1 (List.mem_filter.1 htype).1)

end

/-- A type without a note is merged in one of three ways. -/
theorem mergeWithin_sole {g : TypeGraph} (hg : g.InBounds) (hacyclic : g.AcyclicIntersections)
    (levels : Nat) {id : TypeId} (hid : g.HasType id) {s : MergeContext} (hs : s.From g)
    (hknown : s.known? [id] = none)
    (hsize : (mergeWithin (levels + 1) [id] s).2.graph.types.size ≤ UInt32.size) :
    Outcome g s id (mergeWithin (levels + 1) [id] s) := by
  have hflatten : ∀ type ∈ g.flatten id, g.HasType type := hg.flattenWithin _ hid
  have hsole : [id].flatMap s.graph.flatten = g.flatten id := by
    rw [List.flatMap_singleton, hs.graph.flatten_eq hg (hacyclic.below id) hid]
  rw [mergeWithin_succ hknown] at hsize ⊢
  rcases classified_cases (mergeWithin levels) [id] s with
    ⟨before, union, after, hsplit, -, hunion, h⟩ | ⟨hno, h⟩ <;> rw [h] at hsize ⊢
  · rw [hsole] at hsplit
    have hmem : union ∈ g.flatten id := hsplit ▸ List.mem_append_right _ List.mem_cons_self
    rw [hs.graph.isDistributableUnion_eq (hflatten union hmem)] at hunion
    refine .noted ⟨union, hmem, Or.inl hunion⟩ (fun hmixed => ?_) ?_
    · rw [hmixed.1 union hmem] at hunion
      cases hunion
    · rw [distribute_eq, lookup_note, if_pos rfl]
  · rw [hsole] at hno hsize ⊢
    refine intersect_sole hg (fun types => sound_mergeWithin hg hacyclic levels)
      (grows_mergeWithin levels) hs hknown hflatten (fun type htype => ?_) hsize
    rw [← hs.graph.isDistributableUnion_eq (hflatten type htype)]
    exact hno type htype

end Merge

/-! ## A type that is not noted -/

/-- The answer is the same type each time, or it is added each time with the same record. -/
theorem TypeGraph.leftover_cases {g : TypeGraph} (hg : g.InBounds) {id : TypeId}
    (hid : g.HasType id) :
    (∃ type, ∀ k, g.Extends k → g.leftover id k = (type, k)) ∨
      ∃ r : TypeRecord, (∀ handle ∈ r.handles, g.Holds handle) ∧
        ∀ k, g.Extends k → g.leftover id k = Build.addType r k := by
  have hothers : ∀ type ∈ g.othersOf (g.flatten id), g.HasType type := fun type htype =>
    hg.flattenWithin _ hid type (Build.mem_distinct.1 (List.mem_filter.1 htype).1)
  unfold leftover
  generalize g.othersOf (g.flatten id) = others at hothers
  rcases others with _ | ⟨single, _ | ⟨second, rest⟩⟩
  · exact Or.inl ⟨.unknown, fun _ _ => rfl⟩
  · have hsingle := hothers single List.mem_cons_self
    obtain ⟨r, hr⟩ := hsingle.type?
    have hclone : ∀ k, g.Extends k → Build.cloneWithoutAlias single k = _ := fun k hk =>
      Build.cloneWithoutAlias_eq ((hk.type?_eq hsingle).trans hr)
    by_cases halias : r.aliasSymbol.isNone
    · refine Or.inl ⟨single, fun k hk => ?_⟩
      dsimp only
      rw [hclone k hk, if_pos halias]
    · refine Or.inr ⟨_, fun handle hhandle => ?_, fun k hk => (hclone k hk).trans (if_neg halias)⟩
      apply hg.type hr
      simp only [TypeRecord.handles, Option.toList_none, List.append_nil, List.map_nil,
        List.mem_append, List.map_append] at hhandle ⊢
      exact hhandle.imp_left fun h => Or.inl (Or.inl h)
  · rcases Build.intersection_cases (single :: second :: rest) with ⟨type, -, h⟩ | ⟨-, h⟩
    · exact Or.inl ⟨type, fun k _ => by dsimp only; rw [h]; rfl⟩
    · refine Or.inr ⟨_, fun handle hhandle => ?_, fun k _ => by dsimp only; rw [h]⟩
      obtain ⟨type, htype, rfl⟩ := List.mem_map.1 hhandle
      exact hothers type (Build.mem_distinct.1 htype)

end TypeAtlas
