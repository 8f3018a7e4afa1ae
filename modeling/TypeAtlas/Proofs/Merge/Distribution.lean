import TypeAtlas.Proofs.Merge.Formula
import TypeAtlas.Proofs.Merge.Outcome
/-!
# Distributing unions

Merging types without plain objects among their constituents pulls out one union after the other,
and gathers in an intersection what is left. `Merge.Rules` has one rule for each type that such a run
can make, and what follows the rules holds of each answer and each note (`Merge.Rules.run`). The
rules speak of the graph that merging has started from, and of the one that it has led to in the
end.

Merging cuts types off at the lowest level, where it leaves them as they are (`Merge.cutsOff`). The
first rule is only used in runs that do so.
-/

namespace TypeAtlas

open TypeGraph

/-! ## Where merging ends -/

namespace Merge

variable {α β : Type}

/-- Whether there is one of several steps, taken one after the other, with a test that is passed in
the state before the step. -/
def anyAlong (step : α → Merge β) (test : α → MergeContext → Bool) :
    List α → MergeContext → Bool
  | [], _ => false
  | a :: as, s => test a s || anyAlong step test as (step a s).2

/-- Whether merging comes to the lowest level with types of which it is not known what is made of
them. -/
def cutsOff : Nat → List TypeId → MergeContext → Bool
  | 0, types, s => (s.known? types).isNone
  | levels + 1, types, s =>
    (s.known? types).isNone &&
      match (types.flatMap s.graph.flatten).span (!s.graph.isDistributableUnion ·) with
      | (before, union :: after) =>
        anyAlong (fun member => mergeWithin levels (before ++ [member] ++ after))
          (fun member => cutsOff levels (before ++ [member] ++ after))
          (s.graph.unionMembers union) s
      | (constituents, []) =>
        let plain := s.graph.plainOf constituents
        !plain.isEmpty &&
          anyAlong (fun group => property (mergeWithin levels) group.1 group.2)
            (fun group t => cutsOff levels (group.2.map t.graph.typeOf) t)
            ((s.opened types).graph.groupByName (plain.flatMap (s.opened types).graph.properties))
            (s.opened types)

theorem cutsOff_zero {types : List TypeId} {s : MergeContext} (h : s.known? types = none) :
    cutsOff 0 types s = true := by
  rw [cutsOff, h]
  rfl

/-- The first union among the constituents is cut off with one of its members. -/
theorem cutsOff_of_union {levels : Nat} {types before after : List TypeId} {union : TypeId}
    {s : MergeContext} (hknown : s.known? types = none)
    (hsplit : types.flatMap s.graph.flatten = before ++ union :: after)
    (hbefore : ∀ type ∈ before, s.graph.isDistributableUnion type = false)
    (hunion : s.graph.isDistributableUnion union = true) :
    cutsOff (levels + 1) types s =
      anyAlong (fun member => mergeWithin levels (before ++ [member] ++ after))
        (fun member => cutsOff levels (before ++ [member] ++ after))
        (s.graph.unionMembers union) s := by
  rw [cutsOff, hknown, span_of_union hsplit hbefore hunion]
  rfl

end Merge

/-! ## What merging makes -/

/-- What several types are gathered in: the only one of them, or a type with a record for all of
them, each once. -/
def TypeGraph.Gathers (k : TypeGraph) (record : List TypeId → TypeRecord) (types : List TypeId)
    (made : TypeId) : Prop :=
  Build.distinct types = [made] ∨ k.type? made = some (record (Build.distinct types))

namespace Merge

/-- Rules for what is made of several types of the first graph, as far as the second one shows it. Of
types that are cut off it need only be known if the bound is reached. -/
structure Rules (g k : TypeGraph) (bound : Prop) (P : List TypeId → TypeId → Prop) : Prop where
  cutOff : bound → ∀ {types : List TypeId} {made : TypeId},
    (∀ type ∈ types, g.Propositional type) → k.Gathers intersectionRecord types made → P types made
  ofUnion : ∀ {types before after members merged : List TypeId} {union made : TypeId},
    (∀ type ∈ types, g.Propositional type) →
    types.flatMap g.flatten = before ++ union :: after → g.form union = .any members →
    List.Forall₂ (fun member made => P (before ++ [member] ++ after) made) members merged →
    k.Gathers unionRecord merged made → P types made
  ofAtom : ∀ {types : List TypeId} {single made : TypeId} {record copy : TypeRecord},
    (∀ type ∈ types, g.Propositional type) → Build.distinct (types.flatMap g.flatten) = [single] →
    g.form single = .atom → g.type? single = some record → k.type? made = some copy →
    copy.unaliased = record.unaliased → P types made
  ofAtoms : ∀ {types : List TypeId} {made : TypeId},
    (∀ type ∈ types, g.Propositional type) →
    (∀ type ∈ types.flatMap g.flatten, g.form type = .atom) →
    k.Gathers intersectionRecord (Build.distinct (types.flatMap g.flatten)) made → P types made

/-- A state whose notes follow the rules. -/
structure Follows (g : TypeGraph) (P : List TypeId → TypeId → Prop) (s : MergeContext) : Prop where
  graph : g.Extends s.graph
  notes : ∀ {id made : TypeId}, s.made.lookup id = some made → P [id] made

section

variable {α β : Type} {k : TypeGraph} (hfits : k.types.size ≤ UInt32.size)

include hfits

/-- What is added is in every later graph. -/
theorem type?_of_addType {record : TypeRecord} {g : TypeGraph}
    (hk : (Build.addType record g).2.Extends k) :
    k.type? (Build.addType record g).1 = some record := by
  have hlt : g.types.size < UInt32.size :=
    (types_size_addType record g).ge.trans (hk.types_size.trans hfits)
  have hrecord := type?_addType record hlt
  exact (hk.type?_eq (hasType_of_type? hrecord)).trans hrecord

theorem gathers_of_build (record : List TypeId → TypeRecord) {x : Build TypeId}
    {types : List TypeId}
    (hx : (∃ single, Build.distinct types = [single] ∧ x = pure single) ∨
      (∀ single, Build.distinct types ≠ [single]) ∧ x = Build.addType (record (Build.distinct types)))
    {s : MergeContext} (hk : (build x s).2.graph.Extends k) :
    k.Gathers record types (build x s).1 := by
  rcases hx with ⟨single, hsingle, rfl⟩ | ⟨-, rfl⟩
  · exact Or.inl hsingle
  · exact Or.inr (type?_of_addType hfits hk)

/-- A copy without the alias has the same record otherwise. -/
theorem copy_of_build {id : TypeId} {record : TypeRecord} {s : MergeContext}
    (hrecord : s.graph.type? id = some record)
    (hk : (build (Build.cloneWithoutAlias id) s).2.graph.Extends k) :
    ∃ copy, k.type? (build (Build.cloneWithoutAlias id) s).1 = some copy ∧
      copy.unaliased = record.unaliased := by
  have hclone := Build.cloneWithoutAlias_eq hrecord
  unfold build at hk ⊢
  by_cases halias : record.aliasSymbol.isNone
  · rw [if_pos halias] at hclone
    rw [hclone] at hk ⊢
    exact ⟨record, (hk.type?_eq (hasType_of_type? hrecord)).trans hrecord, rfl⟩
  · rw [if_neg halias] at hclone
    rw [hclone] at hk ⊢
    exact ⟨_, type?_of_addType hfits hk, rfl⟩

/-- Several steps, one after the other, if each of them gives what it should and keeps what the next
one needs. -/
theorem mapM_along {step : α → Merge β} (hgrows : ∀ a, Grows (step a))
    {test : α → MergeContext → Bool} {bound : Prop} {I : MergeContext → Prop} {Q : α → β → Prop} :
    ∀ {as : List α} {s : MergeContext},
      (∀ a ∈ as, ∀ {s : MergeContext}, I s → (test a s = true → bound) →
        (step a s).2.graph.Extends k → Q a (step a s).1 ∧ I (step a s).2) →
      I s → (anyAlong step test as s = true → bound) → (as.mapM step s).2.graph.Extends k →
        List.Forall₂ Q as (as.mapM step s).1 ∧ I (as.mapM step s).2
  | [], _, _, hs, _, _ => ⟨.nil, hs⟩
  | a :: as, s, hstep, hs, hbound, hk => by
    rw [List.forall_mem_cons] at hstep
    rw [anyAlong, Bool.or_eq_true] at hbound
    rw [List.mapM_cons] at hk ⊢
    have hrest := (grows_mapM hgrows as).extends_of_extends (s := (step a s).2) hk hfits
    obtain ⟨hfirst, hnext⟩ := hstep.1 hs (fun h => hbound (Or.inl h)) hrest
    obtain ⟨hall, hend⟩ := mapM_along hgrows hstep.2 hnext (fun h => hbound (Or.inr h)) hk
    exact ⟨.cons hfirst hall, hend⟩

end

/-! ## A run -/

section

variable (g k : TypeGraph) (bound : Prop) (P : List TypeId → TypeId → Prop)

/-- A step whose answer for several types, and whose notes, are as they should be if the graph that
it leads to is extended by the last one. It may cut types off if the bound is reached. -/
def KeepsAt (types : List TypeId) (x : Merge TypeId) (cut : Bool) (s : MergeContext) : Prop :=
  (cut = true → bound) → (x s).2.graph.Extends k → P types (x s).1 ∧ Follows g P (x s).2

/-- Merging is such a step for types that are read as formulas. -/
def Keeps (merge : List TypeId → Merge TypeId) (cut : List TypeId → MergeContext → Bool) : Prop :=
  ∀ {types : List TypeId}, types ≠ [] → (∀ type ∈ types, g.Propositional type) →
    ∀ {s : MergeContext}, Follows g P s → KeepsAt g k bound P types (merge types) (cut types s) s

end

section

variable {g k : TypeGraph} {bound : Prop} {P : List TypeId → TypeId → Prop}
  {types : List TypeId} {s : MergeContext}

theorem Follows.note {made : TypeId} (hs : Follows g P s) (hmade : P types made) :
    Follows g P (Merge.note types made s).2 where
  graph := graph_note types made s ▸ hs.graph
  notes {id made'} h := by
    rw [lookup_note] at h
    split at h
    next heq => exact heq ▸ Option.some.inj h ▸ hmade
    next => exact hs.notes h

theorem Follows.known {made : TypeId} (hs : Follows g P s) (h : s.known? types = some made) :
    P types made := by
  obtain ⟨id, rfl, hmade⟩ := MergeContext.lookup_of_known? h
  exact hs.notes hmade

variable (hrules : Rules g k bound P) (hg : g.InBounds) (hfits : k.types.size ≤ UInt32.size)
  (htypes : ∀ type ∈ types, g.Propositional type) (hs : Follows g P s)

include hfits hs

/-- A builder leaves the notes as they are. -/
theorem Follows.build {x : Build TypeId} (hx : ∀ g : TypeGraph, g.Appends (x g).2)
    (hk : (Merge.build x s).2.graph.Extends k) : Follows g P (Merge.build x s).2 :=
  ⟨hs.graph.trans ((hx s.graph).extends_of_le (hk.types_size.trans hfits)), hs.notes⟩

include hrules hg htypes

theorem Rules.distribute {merge : List TypeId → Merge TypeId}
    (hgrows : ∀ types, Grows (merge types)) {cut : List TypeId → MergeContext → Bool}
    (hmerge : Keeps g k bound P merge cut) {before after : List TypeId} {union : TypeId}
    (hsplit : types.flatMap g.flatten = before ++ union :: after)
    (hunion : g.isDistributableUnion union = true) :
    KeepsAt g k bound P types (Merge.distribute merge before after (g.unionMembers union) types)
      (anyAlong (fun member => merge (before ++ [member] ++ after))
        (fun member => cut (before ++ [member] ++ after)) (g.unionMembers union) s) s := by
  intro hbound hk
  obtain ⟨owner, howner, hmem⟩ := List.mem_flatMap.1
    (hsplit ▸ List.mem_append_right before List.mem_cons_self : union ∈ types.flatMap g.flatten)
  have hform := (htypes owner howner).form_of_union_of_mem_flatten hmem hunion
  have hconstituents := propositional_of_mem_constituents hg htypes
  rw [hsplit, List.forall_mem_append, List.forall_mem_cons] at hconstituents
  obtain ⟨hbefore, hmid, hafter⟩ := hconstituents
  have hinputs : ∀ member ∈ g.unionMembers union, ∀ type ∈ before ++ [member] ++ after,
      g.Propositional type := fun member hmember =>
    List.forall_mem_append.2 ⟨List.forall_mem_append.2
      ⟨hbefore, List.forall_mem_singleton.2 (hmid.member hg hform hmember)⟩, hafter⟩
  rw [distribute_eq] at hk ⊢
  dsimp only at hk ⊢
  rw [graph_note] at hk
  obtain ⟨hmerged, hend⟩ := mapM_along hfits
    (fun member => hgrows (before ++ [member] ++ after))
    (fun member hmember s hs => hmerge (by simp) (hinputs member hmember) hs) hs hbound
    ((grows_build fun _ => Build.union_appends _).extends_of_extends hk hfits)
  have hmade : P types (distributed merge before after (g.unionMembers union) s).1 :=
    hrules.ofUnion htypes hsplit hform hmerged
      (gathers_of_build hfits unionRecord (Build.union_cases _) hk)
  exact ⟨hmade, (hend.build hfits (fun _ => Build.union_appends _) hk).note hmade⟩

/-- Atoms are gathered in an intersection; a single one is copied. -/
theorem Rules.intersect (hne : types ≠ []) (merge : List TypeId → Merge TypeId)
    (hno : ∀ type ∈ types.flatMap g.flatten, g.isDistributableUnion type = false)
    (hk : (Merge.intersect merge (types.flatMap g.flatten) types s).2.graph.Extends k) :
    P types (Merge.intersect merge (types.flatMap g.flatten) types s).1 ∧
      Follows g P (Merge.intersect merge (types.flatMap g.flatten) types s).2 := by
  have hconstituents := propositional_of_mem_constituents hg htypes
  have hhas : ∀ type ∈ types.flatMap g.flatten, g.HasType type :=
    fun type htype => (hconstituents type htype).hasType
  have hatoms : ∀ type ∈ types.flatMap g.flatten, g.form type = .atom := by
    intro type htype
    obtain ⟨owner, howner, hmem⟩ := List.mem_flatMap.1 htype
    exact (htypes owner howner).form_of_mem_flatten hmem (hno type htype)
  have hplain : ∀ type ∈ types.flatMap g.flatten, s.graph.isPlainObject type = false := by
    intro type htype
    rw [hs.graph.isPlainObject_eq hg (hhas type htype)]
    exact (hconstituents type htype).isPlainObject_of_atom (hatoms type htype)
  obtain ⟨hplainOf, hothersOf⟩ := plainOf_of_no_objects hplain
  rcases intersect_cases merge (types.flatMap g.flatten) types s with
    ⟨-, hnil, -⟩ | ⟨single, -, hsingle, h⟩ | ⟨-, -, h⟩ | ⟨hsome, -⟩ | ⟨hsome, -⟩
  · obtain ⟨type, htype⟩ := List.exists_mem_of_ne_nil _ (constituents_ne_nil hg hne htypes)
    rw [← Build.mem_distinct, ← hothersOf, hnil] at htype
    cases htype
  · rw [hothersOf] at hsingle
    rw [h] at hk ⊢
    have hmem : single ∈ types.flatMap g.flatten :=
      Build.mem_distinct.1 (hsingle ▸ List.mem_singleton_self single)
    obtain ⟨record, hrecord⟩ := (hhas single hmem).type?
    obtain ⟨copy, hcopy, hsame⟩ := copy_of_build hfits ((hs.graph.type?_eq (hhas single hmem)).trans
      hrecord) hk
    exact ⟨hrules.ofAtom htypes hsingle (hatoms single hmem) hrecord hcopy hsame,
      hs.build hfits (fun _ => Build.cloneWithoutAlias_appends single) hk⟩
  · rw [hothersOf] at h
    rw [h] at hk ⊢
    exact ⟨hrules.ofAtoms htypes hatoms
      (gathers_of_build hfits intersectionRecord (Build.intersection_cases _) hk),
      hs.build hfits (fun _ => Build.intersection_appends _) hk⟩
  · exact absurd hplainOf hsome
  · exact absurd hplainOf hsome

end

/-- By induction on the levels: merging follows the rules. -/
theorem Rules.keeps {g k : TypeGraph} {bound : Prop} {P : List TypeId → TypeId → Prop}
    (hrules : Rules g k bound P) (hg : g.InBounds) (hfits : k.types.size ≤ UInt32.size)
    (levels : Nat) : Keeps g k bound P (mergeWithin levels) (cutsOff levels) := by
  induction levels with
  | zero =>
    intro types hne htypes s hs hbound hk
    rcases mergeWithin_cases 0 types s with
      ⟨made, hknown, h⟩ | ⟨hknown, -, single, rfl, h⟩ | ⟨hknown, -, -, h⟩ | ⟨-, below, hbelow, -⟩
    · rw [h]
      exact ⟨hs.known hknown, hs⟩
    · rw [h]
      exact ⟨hrules.cutOff (hbound (cutsOff_zero hknown)) htypes (Or.inl rfl), hs⟩
    · rw [h] at hk ⊢
      exact ⟨hrules.cutOff (hbound (cutsOff_zero hknown)) htypes
        (gathers_of_build hfits intersectionRecord (Build.intersection_cases _) hk),
        hs.build hfits (fun _ => Build.intersection_appends _) hk⟩
    · cases hbelow
  | succ levels ih =>
    intro types hne htypes s hs hbound hk
    rcases mergeWithin_cases (levels + 1) types s with
      ⟨made, hknown, h⟩ | ⟨-, hlevels, -⟩ | ⟨-, hlevels, -⟩ | ⟨hknown, below, hbelow, h⟩
    · rw [h]
      exact ⟨hs.known hknown, hs⟩
    · cases hlevels
    · cases hlevels
    · obtain rfl := Nat.succ.inj hbelow
      have hsame := hs.graph.constituents_eq hg
        (fun type htype => (htypes type htype).acyclicBelow)
        fun type htype => (htypes type htype).hasType
      have hhas := fun type htype => (propositional_of_mem_constituents hg htypes type htype).hasType
      rw [h] at hk ⊢
      rcases classified_cases (mergeWithin levels) types s with
        ⟨before, union, after, hsplit, hbefore, hunion, hrun⟩ | ⟨hno, hrun⟩
      · rw [cutsOff_of_union hknown hsplit hbefore hunion] at hbound
        rw [hsame] at hsplit
        have hmid := hhas union (hsplit ▸ List.mem_append_right before List.mem_cons_self)
        rw [hs.graph.isDistributableUnion_eq hmid] at hunion
        rw [hs.graph.unionMembers_eq hmid] at hrun hbound
        rw [hrun] at hk ⊢
        exact hrules.distribute hg hfits htypes hs (grows_mergeWithin levels) ih hsplit
          hunion hbound hk
      · rw [hsame] at hno hrun
        rw [hrun] at hk ⊢
        refine hrules.intersect hg hfits htypes hs hne _ ?_ hk
        exact fun type htype => hs.graph.isDistributableUnion_eq (hhas type htype) ▸ hno type htype

end Merge

end TypeAtlas
