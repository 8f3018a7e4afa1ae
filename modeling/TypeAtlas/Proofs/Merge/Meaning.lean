import TypeAtlas.Proofs.Merge.Distribution
/-!
# What merging means

Distributing unions does not change the value of a type as a formula, under any valuation and at any
depth (`Build.expand_meaning`). If nothing is cut off at the lowest level, then all unions were pulled
out of the intersections. Both follow from the rules for what is made: each rule makes a type that is
true when all types it is made of are (`Merge.means_rules`), and all but the rule for types that are
cut off make a type in normal form (`Merge.normal_rules`).
-/

namespace TypeAtlas

open TypeGraph

namespace Merge

theorem mem_of_forall₂ {α β : Type} {R : α → β → Prop} {as : List α} {bs : List β}
    (h : List.Forall₂ R as bs) : (∀ a ∈ as, ∃ b ∈ bs, R a b) ∧ ∀ b ∈ bs, ∃ a ∈ as, R a b := by
  induction h with
  | nil => exact ⟨List.forall_mem_nil _, List.forall_mem_nil _⟩
  | cons hfirst _ ih =>
    constructor
    · refine List.forall_mem_cons.2 ⟨⟨_, List.mem_cons_self, hfirst⟩, fun a ha => ?_⟩
      obtain ⟨b, hb, hab⟩ := ih.1 a ha
      exact ⟨b, List.mem_cons_of_mem _ hb, hab⟩
    · refine List.forall_mem_cons.2 ⟨⟨_, List.mem_cons_self, hfirst⟩, fun b hb => ?_⟩
      obtain ⟨a, ha, hab⟩ := ih.2 b hb
      exact ⟨a, List.mem_cons_of_mem _ ha, hab⟩

/-- A type with a finite formula that is true just when several types are. -/
structure Means (k : TypeGraph) (types : List TypeId) (made : TypeId) : Prop where
  finite : k.Finite made
  isTrue_iff : ∀ v, k.IsTrue v made ↔ ∀ type ∈ types, k.IsTrue v type

section

variable {k : TypeGraph} {types : List TypeId} {made : TypeId}

theorem eq_of_distinct_eq (h : Build.distinct types = [made]) :
    made ∈ types ∧ ∀ type ∈ types, type = made :=
  ⟨Build.mem_distinct.1 (h ▸ List.mem_singleton_self made), fun _ htype =>
    List.mem_singleton.1 (h ▸ Build.mem_distinct.2 htype)⟩

theorem finite_of_components {id : TypeId} (h : ∀ type ∈ (k.form id).types, k.Finite type) :
    k.Finite id :=
  .intro id h

theorem finite_of_gathers {record : List TypeId → TypeRecord} (hgathers : k.Gathers record types made)
    (hrecord : ∀ {types}, k.type? made = some (record types) → (k.form made).types = types)
    (h : ∀ type ∈ types, k.Finite type) : k.Finite made := by
  rcases hgathers with hsingle | hmade
  · exact h made (eq_of_distinct_eq hsingle).1
  · refine finite_of_components ?_
    rw [hrecord hmade]
    exact fun type htype => h type (Build.mem_distinct.1 htype)

/-- An intersection is the conjunction of the types in it. -/
theorem means_intersection (hgathers : k.Gathers intersectionRecord types made)
    (h : ∀ type ∈ types, k.Finite type) : Means k types made where
  finite := finite_of_gathers hgathers
    (fun hrecord => by rw [form_of_intersectionRecord hrecord, Form.types]) h
  isTrue_iff v := by
    rcases hgathers with hsingle | hmade
    · obtain ⟨hmem, heq⟩ := eq_of_distinct_eq hsingle
      exact ⟨fun htrue type htype => heq type htype ▸ htrue, fun hall => hall made hmem⟩
    · rw [isTrue_iff_of_all (form_of_intersectionRecord hmade)]
      exact forall_congr' fun type => imp_congr_left Build.mem_distinct

/-- A union is the disjunction of the types in it. -/
theorem isTrue_union_iff (hgathers : k.Gathers unionRecord types made) (v : TypeRecord → Prop) :
    k.IsTrue v made ↔ ∃ type ∈ types, k.IsTrue v type := by
  rcases hgathers with hsingle | hmade
  · obtain ⟨hmem, heq⟩ := eq_of_distinct_eq hsingle
    exact ⟨fun htrue => ⟨made, hmem, htrue⟩, fun ⟨type, htype, htrue⟩ => heq type htype ▸ htrue⟩
  · rw [isTrue_iff_of_any (form_of_unionRecord hmade)]
    exact exists_congr fun type => and_congr_left fun _ => Build.mem_distinct

/-- The union of what the members of a disjunction mean together with other types: the disjunction
with these types. -/
theorem distributed_of_gathers {before after members merged : List TypeId}
    (hmerged : List.Forall₂ (fun member made => Means k (before ++ [member] ++ after) made) members
      merged) (hgathers : k.Gathers unionRecord merged made) :
    k.Finite made ∧ ∀ v, k.IsTrue v made ↔ (∀ type ∈ before, k.IsTrue v type) ∧
      (∃ member ∈ members, k.IsTrue v member) ∧ ∀ type ∈ after, k.IsTrue v type := by
  obtain ⟨hfrom, hto⟩ := mem_of_forall₂ hmerged
  refine ⟨finite_of_gathers hgathers (fun hrecord => ?_) fun type htype => ?_, fun v => ?_⟩
  · rw [form_of_unionRecord hrecord, Form.types]
  · obtain ⟨member, -, hmeans⟩ := hto type htype
    exact hmeans.finite
  have hvalue : ∀ {member type}, Means k (before ++ [member] ++ after) type →
      (k.IsTrue v type ↔ ((∀ type ∈ before, k.IsTrue v type) ∧ k.IsTrue v member) ∧
        ∀ type ∈ after, k.IsTrue v type) := by
    intro member type hmeans
    rw [hmeans.isTrue_iff, List.forall_mem_append, List.forall_mem_append,
      List.forall_mem_singleton]
  rw [isTrue_union_iff hgathers]
  constructor
  · rintro ⟨type, htype, htrue⟩
    obtain ⟨member, hmember, hmeans⟩ := hto type htype
    obtain ⟨⟨hbefore, htrue⟩, hafter⟩ := (hvalue hmeans).1 htrue
    exact ⟨hbefore, ⟨member, hmember, htrue⟩, hafter⟩
  · rintro ⟨hbefore, ⟨member, hmember, htrue⟩, hafter⟩
    obtain ⟨type, htype, hmeans⟩ := hfrom member hmember
    exact ⟨type, htype, (hvalue hmeans).2 ⟨⟨hbefore, htrue⟩, hafter⟩⟩

/-- A copy has the same atom. -/
theorem form_of_copy {g : TypeGraph} {single : TypeId} {record copy : TypeRecord}
    (hrecord : g.type? single = some record) (hcopy : k.type? made = some copy)
    (hsame : copy.unaliased = record.unaliased) : k.form made = g.form single :=
  form_eq_of_type? hrecord hcopy (congrArg TypeRecord.flags hsame).symm
    (congrArg TypeRecord.data hsame).symm

end

section

variable {g k : TypeGraph} (hg : g.InBounds) (hgk : g.Extends k) {types : List TypeId}
  (htypes : ∀ type ∈ types, g.Propositional type)

include hg hgk htypes

/-- Several types are true just when all their constituents are. -/
theorem forall_isTrue_iff (v : TypeRecord → Prop) :
    (∀ type ∈ types, k.IsTrue v type) ↔ ∀ type ∈ types.flatMap g.flatten, k.IsTrue v type := by
  rw [List.forall_mem_flatMap]
  refine forall₂_congr fun type htype => ?_
  rw [flatten, ← hgk.flattenWithin_eq hg _ (htypes type htype).hasType]
  exact isTrue_iff_flattenWithin _

omit hg in
theorem finite_of_propositional (hg : g.InBounds) : ∀ type ∈ types, k.Finite type :=
  fun type htype => hgk.finite hg (htypes type htype).hasType (htypes type htype).finite

end

/-- What is made of several types means all of them. -/
theorem means_rules {g k : TypeGraph} (hg : g.InBounds) (hgk : g.Extends k) :
    Rules g k True (Means k) where
  cutOff _ _ _ htypes hgathers := means_intersection hgathers (finite_of_propositional hgk htypes hg)
  ofUnion {types before after members merged union made} htypes hsplit hform hmerged hgathers := by
    obtain ⟨hfinite, hvalue⟩ := distributed_of_gathers hmerged hgathers
    have hunion : g.HasType union := (propositional_of_mem_constituents hg htypes union
      (hsplit ▸ List.mem_append_right before List.mem_cons_self)).hasType
    refine ⟨hfinite, fun v => ?_⟩
    rw [forall_isTrue_iff hg hgk htypes, hsplit, List.forall_mem_append, List.forall_mem_cons,
      isTrue_iff_of_any ((hgk.form_eq hunion).trans hform), hvalue]
  ofAtom {types single made record copy} htypes hsingle hatom hrecord hcopy hsame := by
    have hmade := (form_of_copy hrecord hcopy hsame).trans hatom
    have hid := hasType_of_type? hrecord
    have hold := (hgk.type?_eq hid).trans hrecord
    obtain ⟨hmem, heq⟩ := eq_of_distinct_eq hsingle
    refine ⟨finite_of_components ?_, fun v => ?_⟩
    · rw [hmade]
      exact List.forall_mem_nil _
    have htrue : k.IsTrue v single ↔ v record.unaliased :=
      isTrue_iff_of_atom ((hgk.form_eq hid).trans hatom) hold
    rw [forall_isTrue_iff hg hgk htypes, isTrue_iff_of_atom hmade hcopy, hsame, ← htrue]
    exact ⟨fun htrue type htype => heq type htype ▸ htrue, fun hall => hall single hmem⟩
  ofAtoms {types made} htypes _ hgathers := by
    have hfinite := finite_of_propositional hgk (propositional_of_mem_constituents hg htypes) hg
    have hmeans := means_intersection hgathers fun type htype =>
      hfinite type (Build.mem_distinct.1 htype)
    refine ⟨hmeans.finite, fun v => ?_⟩
    rw [hmeans.isTrue_iff, forall_isTrue_iff hg hgk htypes]
    exact forall_congr' fun type => imp_congr_left Build.mem_distinct

/-! ## Normal forms -/

section

variable {k : TypeGraph} {id : TypeId}

theorem normal_of_components (hall : ∀ types, k.form id = .all types → ∀ type ∈ types,
    k.form type = .atom) (h : ∀ type ∈ (k.form id).types, k.Normal type) : k.Normal id := by
  intro part hpart
  rcases hpart.cases_head with rfl | ⟨type, htype, hrest⟩
  · exact hall
  · exact h type htype part hrest

theorem normal_of_atom (hform : k.form id = .atom) : k.Normal id :=
  normal_of_components (fun types h => by rw [hform] at h; cases h) (by
    rw [hform]
    exact List.forall_mem_nil _)

end

/-- What is made of several types is in normal form, if nothing is cut off. -/
theorem normal_rules {g k : TypeGraph} (hg : g.InBounds) (hgk : g.Extends k) :
    Rules g k False fun _ made => k.Normal made where
  cutOff h := h.elim
  ofUnion _ _ _ hmerged hgathers := by
    have hnormal := (mem_of_forall₂ hmerged).2
    rcases hgathers with hsingle | hmade
    · obtain ⟨-, -, h⟩ := hnormal _ (eq_of_distinct_eq hsingle).1
      exact h
    have hform := form_of_unionRecord hmade
    refine normal_of_components (fun types h => by rw [hform] at h; cases h) ?_
    rw [hform]
    intro type htype
    obtain ⟨-, -, h⟩ := hnormal type (Build.mem_distinct.1 htype)
    exact h
  ofAtom _ _ hatom hrecord hcopy hsame :=
    normal_of_atom ((form_of_copy hrecord hcopy hsame).trans hatom)
  ofAtoms {types made} htypes hatoms hgathers := by
    have hkept : ∀ type ∈ types.flatMap g.flatten, k.form type = .atom := fun type htype =>
      (hgk.form_eq (propositional_of_mem_constituents hg htypes type htype).hasType).trans
        (hatoms type htype)
    rcases hgathers with hsingle | hmade
    · exact normal_of_atom (hkept made (Build.mem_distinct.1 (eq_of_distinct_eq hsingle).1))
    have hform := form_of_intersectionRecord hmade
    have hmem : ∀ type ∈ (k.form made).types, k.form type = .atom := by
      rw [hform]
      exact fun type htype => hkept type (Build.mem_distinct.1 (Build.mem_distinct.1 htype))
    refine normal_of_components (fun types h => ?_) fun type htype => normal_of_atom (hmem type htype)
    rw [h] at hmem
    exact hmem

end Merge

namespace Build

/-- Expanding a type that is read as a formula gives a type with a finite formula, which has the same
value under every valuation of the atoms. If the bound on the depth is not reached, then there are
only atoms in the intersections of this formula. -/
theorem expand_meaning {g : TypeGraph} (hg : g.InBounds) {type : TypeId}
    (htype : g.Propositional type) (config : TreeConfig)
    (hfits : (expand type config g).2.types.size ≤ UInt32.size) :
    (expand type config g).2.Finite (expand type config g).1 ∧
      (∀ v, (expand type config g).2.IsTrue v (expand type config g).1 ↔ g.IsTrue v type) ∧
      (Merge.cutsOff config.maxDepth.toNat [type] { graph := g } = false →
        (expand type config g).2.Normal (expand type config g).1) := by
  have hgk := (expand_appends type config g).extends_of_le hfits
  have htypes : ∀ other ∈ [type], g.Propositional other := List.forall_mem_singleton.2 htype
  have hstart : ∀ P, Merge.Follows g P { graph := g } := fun P => ⟨.refl g, fun h => by cases h⟩
  have hmeans := (Merge.means_rules hg hgk).keeps hg hfits config.maxDepth.toNat
    (List.cons_ne_nil type []) htypes (hstart _) (fun _ => trivial) (.refl _)
  refine ⟨hmeans.1.finite, fun v => ?_, fun hcut => ?_⟩
  · rw [← hgk.isTrue_iff hg htype.hasType]
    exact (hmeans.1.isTrue_iff v).trans List.forall_mem_singleton
  · exact ((Merge.normal_rules hg hgk).keeps hg hfits config.maxDepth.toNat
      (List.cons_ne_nil type []) htypes (hstart _) (fun h => by rw [hcut] at h; cases h)
        (.refl _)).1

/-- An intersection of a type and a union, which has another intersection among its members. -/
def nestedUnion : Build (List TypeId) := do
  let inner ← intersection [.bigint, .undefined]
  let union ← union [.string, inner]
  let whole ← intersection [.number, union]
  return [whole, union, inner, .number, .string, .bigint, .undefined]

/-- The intersection with its parts, in a graph of its own. -/
def nestedGraph : List TypeId × TypeGraph :=
  nestedUnion .initial

/-- The intersection. -/
def nestedType : TypeId :=
  nestedGraph.1.headD .error

theorem expand_nestedType_meaning :
    let g := nestedGraph.2
    let h := (expand nestedType {} g).2
    let made := (expand nestedType {} g).1
    (g.typeText nestedType = "number & (string | (bigint & undefined))" ∧
      h.typeText made = "(number & string) | (number & bigint & undefined)") ∧
    (g.InBounds ∧ g.Propositional nestedType ∧ h.types.size ≤ UInt32.size) ∧
      h.Finite made ∧ (∀ v, h.IsTrue v made ↔ g.IsTrue v nestedType) ∧ h.Normal made :=
  have hg : nestedGraph.2.InBounds := (inBounds_iff_validate _).2 (by decide +kernel)
  have htypes : ∀ type ∈ nestedGraph.1, nestedGraph.2.Propositional type :=
    propositional_of_bottomUp (by decide +kernel)
  have htype := htypes nestedType (by decide +kernel)
  have hfits : (expand nestedType {} nestedGraph.2).2.types.size ≤ UInt32.size := by decide +kernel
  have hmeaning := expand_meaning hg htype {} hfits
  ⟨by decide +kernel, ⟨hg, htype, hfits⟩, hmeaning.1, hmeaning.2.1,
    hmeaning.2.2 (by decide +kernel)⟩

end Build

end TypeAtlas
