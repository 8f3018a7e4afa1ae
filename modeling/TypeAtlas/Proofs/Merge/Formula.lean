import TypeAtlas.Proofs.Merge.Constituents
import TypeAtlas.Proofs.Merge.Text
/-!
# Types as formulas

A type is read as a propositional formula (`TypeGraph.form`): an intersection as the conjunction of
its constituents, a union that merging distributes as the disjunction of its members, and any other
type as an atom. An atom stands for its record without the alias, so a valuation is a property of
records, and `TypeGraph.IsTrue` is the value of the formula.

What is here is about graphs: the value of a type is that of all its constituents together
(`TypeGraph.isTrue_iff_flatten`), it is the same in a graph that extends the first one
(`TypeGraph.Extends.isTrue_iff`), and it is known for each record that merging adds.
-/

namespace TypeAtlas

/-- A record without its alias. -/
def TypeRecord.unaliased (record : TypeRecord) : TypeRecord :=
  { record with aliasSymbol := none, aliasTypeArguments := [] }

/-- The record of a union. -/
def unionRecord (types : List TypeId) : TypeRecord where
  flags := TypeFlags.union
  data := .union types

namespace TypeGraph

/-- The top of a formula: all of some types, one of some types, or an atom. -/
inductive Form
  | all (types : List TypeId)
  | any (types : List TypeId)
  | atom
  deriving DecidableEq

/-- The types below the top. -/
def Form.types : Form → List TypeId
  | .all types | .any types => types
  | .atom => []

/-- How a type is read as a formula. Unions are told by their flags, as merging does it; a type with
the flags of one and other data has no members. -/
def form (g : TypeGraph) (id : TypeId) : Form :=
  match g.data? id with
  | some (.intersection types) => .all types
  | _ => if g.isDistributableUnion id then .any (g.unionMembers id) else .atom

/-- The second type is in the formula of the first, directly below its top. -/
def Component (g : TypeGraph) (a b : TypeId) : Prop :=
  b ∈ (g.form a).types

/-- The value of a type as a formula. -/
inductive IsTrue (g : TypeGraph) (v : TypeRecord → Prop) : TypeId → Prop
  | all {id : TypeId} {types : List TypeId} (hform : g.form id = .all types)
      (hall : ∀ type ∈ types, IsTrue g v type) : IsTrue g v id
  | any {id type : TypeId} {types : List TypeId} (hform : g.form id = .any types)
      (hmem : type ∈ types) (hany : IsTrue g v type) : IsTrue g v id
  | atom {id : TypeId} {record : TypeRecord} (hform : g.form id = .atom)
      (hrecord : g.type? id = some record) (hatom : v record.unaliased) : IsTrue g v id

/-- A type whose formula is finite. -/
def Finite (g : TypeGraph) (id : TypeId) : Prop :=
  Acc (Function.swap g.Component) id

/-- A type that is merged without objects. Its formula is finite, there is no intersection of no
types in it, and no atom of it is a plain object. -/
structure Propositional (g : TypeGraph) (id : TypeId) : Prop where
  hasType : g.HasType id
  finite : g.Finite id
  parts : ∀ part, Relation.ReflTransGen g.Component id part →
    g.form part ≠ .all [] ∧ (g.form part = .atom → g.isPlainObject part = false)

/-- A type with only atoms in the intersections of its formula. -/
def Normal (g : TypeGraph) (id : TypeId) : Prop :=
  ∀ part, Relation.ReflTransGen g.Component id part →
    ∀ types, g.form part = .all types → ∀ type ∈ types, g.form type = .atom

variable {g h : TypeGraph} {v : TypeRecord → Prop} {id : TypeId}

/-! ## Forms -/

theorem form_eq_all_iff {types : List TypeId} :
    g.form id = .all types ↔ g.data? id = some (.intersection types) := by
  unfold form
  split
  next found hdata => rw [hdata, Form.all.injEq, Option.some.injEq, TypeData.intersection.injEq]
  next hdata =>
    refine ⟨fun heq => ?_, fun heq => absurd heq (hdata types)⟩
    split at heq <;> cases heq

theorem form_eq_any {types : List TypeId} (h : g.form id = .any types) :
    g.isDistributableUnion id = true ∧ g.unionMembers id = types := by
  unfold form at h
  split at h
  · cases h
  · split at h
    next hunion => exact ⟨hunion, Form.any.inj h⟩
    next => cases h

theorem component_of_all {types : List TypeId} (hform : g.form id = .all types) {type : TypeId}
    (htype : type ∈ types) : g.Component id type := by
  rw [Component, hform]
  exact htype

theorem component_of_any {types : List TypeId} (hform : g.form id = .any types) {type : TypeId}
    (htype : type ∈ types) : g.Component id type := by
  rw [Component, hform]
  exact htype

theorem form_of_union (hdata : ∀ types, g.data? id ≠ some (.intersection types))
    (hunion : g.isDistributableUnion id = true) : g.form id = .any (g.unionMembers id) := by
  unfold form
  split
  next types heq => exact absurd heq (hdata types)
  next => rw [if_pos hunion]

theorem form_of_no_union (hdata : ∀ types, g.data? id ≠ some (.intersection types))
    (hunion : g.isDistributableUnion id = false) : g.form id = .atom := by
  unfold form
  split
  next types heq => exact absurd heq (hdata types)
  next => rw [hunion, if_neg Bool.false_ne_true]

/-- The form depends on the flags and the data of a record only. -/
theorem form_eq_of_type? {other : TypeId} {record record' : TypeRecord}
    (hrecord : g.type? id = some record) (hrecord' : h.type? other = some record')
    (hflags : record.flags = record'.flags) (hdata : record.data = record'.data) :
    h.form other = g.form id := by
  have hsame : h.data? other = g.data? id := by
    rw [data?, data?, hrecord, hrecord', Option.map_some, Option.map_some, hdata]
  have hunion : h.isDistributableUnion other = g.isDistributableUnion id := by
    unfold isDistributableUnion typeFlags
    rw [hrecord, hrecord', Option.map_some, Option.map_some, hflags]
  unfold form unionMembers
  rw [hsame, hunion]

theorem form_of_intersectionRecord {types : List TypeId}
    (hrecord : g.type? id = some (intersectionRecord types)) : g.form id = .all types :=
  form_eq_all_iff.2 (by rw [data?, hrecord]; rfl)

theorem form_of_unionRecord {types : List TypeId}
    (hrecord : g.type? id = some (unionRecord types)) : g.form id = .any types := by
  have hdata : g.data? id = some (.union types) := by rw [data?, hrecord]; rfl
  have hunion : g.isDistributableUnion id = true := by
    rw [isDistributableUnion, typeFlags, hrecord]
    change (TypeFlags.union.has TypeFlags.union &&
      !TypeFlags.union.meets (TypeFlags.boolean ||| TypeFlags.enum)) = true
    decide
  have hmembers : g.unionMembers id = types := by rw [unionMembers, hdata]
  rw [form_of_union (by simp [hdata]) hunion, hmembers]

/-! ## Values -/

theorem isTrue_iff_of_all {types : List TypeId} (hform : g.form id = .all types) :
    g.IsTrue v id ↔ ∀ type ∈ types, g.IsTrue v type := by
  refine ⟨fun h => ?_, .all hform⟩
  cases h with
  | all hform' hall =>
    rw [hform] at hform'
    exact Form.all.inj hform' ▸ hall
  | any hform' => rw [hform] at hform'; cases hform'
  | atom hform' => rw [hform] at hform'; cases hform'

theorem isTrue_iff_of_any {types : List TypeId} (hform : g.form id = .any types) :
    g.IsTrue v id ↔ ∃ type ∈ types, g.IsTrue v type := by
  refine ⟨fun h => ?_, fun ⟨type, hmem, h⟩ => .any hform hmem h⟩
  cases h with
  | all hform' => rw [hform] at hform'; cases hform'
  | any hform' hmem h =>
    rw [hform] at hform'
    exact ⟨_, Form.any.inj hform' ▸ hmem, h⟩
  | atom hform' => rw [hform] at hform'; cases hform'

theorem isTrue_iff_of_atom {record : TypeRecord} (hform : g.form id = .atom)
    (hrecord : g.type? id = some record) : g.IsTrue v id ↔ v record.unaliased := by
  refine ⟨fun h => ?_, .atom hform hrecord⟩
  cases h with
  | all hform' => rw [hform] at hform'; cases hform'
  | any hform' => rw [hform] at hform'; cases hform'
  | atom _ hrecord' hatom => exact Option.some.inj (hrecord.symm.trans hrecord') ▸ hatom

/-- A type holds just when its constituents do, at whatever level the search for them ends. -/
theorem isTrue_iff_flattenWithin (levels : Nat) :
    g.IsTrue v id ↔ ∀ type ∈ g.flattenWithin levels id, g.IsTrue v type := by
  induction levels generalizing id with
  | zero => exact List.forall_mem_singleton.symm
  | succ levels ih =>
    by_cases hdata : ∃ types, g.data? id = some (.intersection types)
    · obtain ⟨types, hdata⟩ := hdata
      rw [flattenWithin_of_intersection hdata, isTrue_iff_of_all (form_eq_all_iff.2 hdata),
        List.forall_mem_flatMap]
      exact forall₂_congr fun type _ => ih
    · rw [not_exists] at hdata
      rw [flattenWithin_of_not_intersection _ hdata]
      exact List.forall_mem_singleton.symm

/-! ## Types that are merged without objects -/

theorem InBounds.component (hg : g.InBounds) {type : TypeId} (htype : g.Component id type) :
    g.HasType type := by
  unfold Component at htype
  cases hform : g.form id with
  | all types =>
    rw [hform] at htype
    exact hg.members (Or.inr (form_eq_all_iff.1 hform)) htype
  | any types =>
    rw [hform] at htype
    obtain ⟨-, rfl⟩ := form_eq_any hform
    exact hg.unionMembers id type htype
  | atom =>
    rw [hform] at htype
    cases htype

theorem component_of_intersects {type : TypeId} (h : g.Intersects id type) :
    g.Component id type := by
  obtain ⟨types, hdata, htype⟩ := h
  exact component_of_all (form_eq_all_iff.2 hdata) htype

theorem Finite.of_parts {part : TypeId} (hid : g.Finite id)
    (hpart : Relation.ReflTransGen g.Component id part) : g.Finite part := by
  induction hpart with
  | refl => exact hid
  | tail _ hstep ih => exact ih.inv hstep

/-- A finite formula does not contain itself. -/
theorem Finite.not_part_of_itself (hid : g.Finite id) : ¬Relation.TransGen g.Component id id := by
  intro hcycle
  have hacc : Acc (Relation.TransGen (Function.swap g.Component)) id := Acc.transGen hid
  rw [← Relation.transGen_swap] at hcycle
  induction hacc with
  | intro id _ ih => exact ih id hcycle (hid.inv_of_transGen hcycle) hcycle

namespace Propositional

variable (hid : g.Propositional id)

include hid

theorem form_ne : g.form id ≠ .all [] :=
  (hid.parts id .refl).1

theorem isPlainObject_of_atom (hform : g.form id = .atom) : g.isPlainObject id = false :=
  (hid.parts id .refl).2 hform

theorem component (hg : g.InBounds) {type : TypeId} (htype : g.Component id type) :
    g.Propositional type where
  hasType := hg.component htype
  finite := hid.finite.inv htype
  parts part hpart := hid.parts part (.head htype hpart)

theorem constituent (hg : g.InBounds) {types : List TypeId}
    (hform : g.form id = .all types) {type : TypeId} (htype : type ∈ types) :
    g.Propositional type :=
  hid.component hg (component_of_all hform htype)

theorem member (hg : g.InBounds) {types : List TypeId} (hform : g.form id = .any types)
    {type : TypeId} (htype : type ∈ types) : g.Propositional type :=
  hid.component hg (component_of_any hform htype)

theorem acyclicBelow : g.AcyclicBelow id := by
  intro other hother hcycle
  have hpart := Relation.ReflTransGen.mono (fun _ _ => component_of_intersects) _ _ hother
  exact (hid.finite.of_parts hpart).not_part_of_itself
    (Relation.TransGen.mono (fun _ _ => component_of_intersects) _ _ hcycle)

theorem flattenWithin (hg : g.InBounds) (levels : Nat) :
    ∀ type ∈ g.flattenWithin levels id, g.Propositional type := by
  induction levels generalizing id with
  | zero => exact List.forall_mem_singleton.2 hid
  | succ levels ih =>
    by_cases hdata : ∃ types, g.data? id = some (.intersection types)
    · obtain ⟨types, hdata⟩ := hdata
      rw [flattenWithin_of_intersection hdata, List.forall_mem_flatMap]
      exact fun type htype => ih (hid.constituent hg (form_eq_all_iff.2 hdata) htype)
    · rw [not_exists] at hdata
      rw [flattenWithin_of_not_intersection _ hdata]
      exact List.forall_mem_singleton.2 hid

/-- There are constituents, since no intersection is of no types. -/
theorem flattenWithin_ne_nil (hg : g.InBounds) (levels : Nat) : g.flattenWithin levels id ≠ [] := by
  induction levels generalizing id with
  | zero => exact List.cons_ne_nil _ _
  | succ levels ih =>
    by_cases hdata : ∃ types, g.data? id = some (.intersection types)
    · obtain ⟨types, hdata⟩ := hdata
      have hform := form_eq_all_iff.2 hdata
      rw [flattenWithin_of_intersection hdata, Ne, List.flatMap_eq_nil_iff]
      intro hnil
      obtain ⟨type, htype⟩ := List.exists_mem_of_ne_nil types fun h => hid.form_ne (h ▸ hform)
      exact ih (hid.constituent hg hform htype) (hnil type htype)
    · rw [not_exists] at hdata
      rw [flattenWithin_of_not_intersection _ hdata]
      exact List.cons_ne_nil _ _

theorem form_of_union_of_mem_flatten {type : TypeId} (htype : type ∈ g.flatten id)
    (hunion : g.isDistributableUnion type = true) : g.form type = .any (g.unionMembers type) :=
  form_of_union (notIntersection_of_mem_flatten hid.acyclicBelow htype) hunion

/-- A constituent without the flags of a union is an atom. -/
theorem form_of_mem_flatten {type : TypeId} (htype : type ∈ g.flatten id)
    (hunion : g.isDistributableUnion type = false) : g.form type = .atom :=
  form_of_no_union (notIntersection_of_mem_flatten hid.acyclicBelow htype) hunion

end Propositional

/-- Several types, each with parts that are among them and that were there before it. -/
theorem propositional_of_bottomUp {ids : List TypeId}
    (h : ∀ id ∈ ids, id.index < g.types.size ∧ g.form id ≠ .all [] ∧
      (g.form id = .atom → g.isPlainObject id = false) ∧
      ∀ type ∈ (g.form id).types, type ∈ ids ∧ type.index < id.index) :
    ∀ id ∈ ids, g.Propositional id := by
  intro id hid
  have hparts : ∀ part, Relation.ReflTransGen g.Component id part → part ∈ ids := by
    intro part hpart
    induction hpart with
    | refl => exact hid
    | tail _ hstep ih => exact ((h _ ih).2.2.2 _ hstep).1
  refine ⟨(h id hid).1, ?_, fun part hpart => ⟨(h part (hparts part hpart)).2.1,
    (h part (hparts part hpart)).2.2.1⟩⟩
  clear hparts
  generalize hn : id.index = n
  induction n using Nat.strong_induction_on generalizing id with
  | _ n ih =>
    subst hn
    refine .intro id fun type htype => ?_
    obtain ⟨hmem, hlt⟩ := (h id hid).2.2.2 type htype
    exact ih type.index hlt type hmem rfl

/-- The constituents of several types that are merged without objects. -/
theorem propositional_of_mem_constituents (hg : g.InBounds) {types : List TypeId}
    (htypes : ∀ type ∈ types, g.Propositional type) :
    ∀ type ∈ types.flatMap g.flatten, g.Propositional type :=
  List.forall_mem_flatMap.2 fun type htype => (htypes type htype).flattenWithin hg _

theorem constituents_ne_nil (hg : g.InBounds) {types : List TypeId} (hne : types ≠ [])
    (htypes : ∀ type ∈ types, g.Propositional type) : types.flatMap g.flatten ≠ [] := by
  rw [Ne, List.flatMap_eq_nil_iff]
  intro hnil
  obtain ⟨type, htype⟩ := List.exists_mem_of_ne_nil _ hne
  exact (htypes type htype).flattenWithin_ne_nil hg _ (hnil type htype)

/-! ## Extended graphs -/

section

variable (hgh : g.Extends h) (hg : g.InBounds)

include hgh

theorem Extends.form_eq (hid : g.HasType id) : h.form id = g.form id := by
  obtain ⟨record, hrecord⟩ := hid.type?
  exact form_eq_of_type? hrecord ((hgh.type?_eq hid).trans hrecord) rfl rfl

include hg

/-- The formula of a type is the same in a graph that extends the first one. -/
theorem Extends.isTrue_iff (hid : g.HasType id) : h.IsTrue v id ↔ g.IsTrue v id := by
  constructor
  · intro htrue
    induction htrue with
    | all hform _ ih =>
      rw [hgh.form_eq hid] at hform
      exact .all hform fun type hmem => ih type hmem (hg.component (component_of_all hform hmem))
    | any hform hmem _ ih =>
      rw [hgh.form_eq hid] at hform
      exact .any hform hmem (ih (hg.component (component_of_any hform hmem)))
    | atom hform hrecord hatom =>
      rw [hgh.form_eq hid] at hform
      exact .atom hform ((hgh.type?_eq hid).symm.trans hrecord) hatom
  · intro htrue
    induction htrue with
    | all hform _ ih =>
      refine .all ((hgh.form_eq hid).trans hform) fun type hmem => ih type hmem ?_
      exact hg.component (component_of_all hform hmem)
    | any hform hmem _ ih =>
      refine .any ((hgh.form_eq hid).trans hform) hmem (ih ?_)
      exact hg.component (component_of_any hform hmem)
    | atom hform hrecord hatom =>
      exact .atom ((hgh.form_eq hid).trans hform) ((hgh.type?_eq hid).trans hrecord) hatom

theorem Extends.finite (hid : g.HasType id) (hfinite : g.Finite id) : h.Finite id := by
  induction hfinite with
  | intro id _ ih =>
    refine .intro id fun type htype => ?_
    have hcomponent : g.Component id type := by
      rw [Component, ← hgh.form_eq hid]
      exact htype
    exact ih type hcomponent (hg.component hcomponent)

end

end TypeGraph

end TypeAtlas
