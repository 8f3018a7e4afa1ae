import TypeAtlas.Proofs.Graph.Search
import TypeAtlas.Proofs.Merge.Constituents
import TypeAtlas.Proofs.Merge.Growth
/-!
# What merging remembers

The type made for a single type is noted under it, before or after its parts are merged. No note is
ever replaced by a later one: a type that was noted when a call began has the same note when the
call ends (`Merge.sound_mergeWithin`). Only types with an object or a union among their constituents
are noted (`TypeGraph.Noted`), so merging any other type twice does the same work twice.
-/

namespace TypeAtlas

open TypeGraph

/-- A type that is noted when it is merged by itself: an object or a union is among its
constituents. -/
def TypeGraph.Noted (g : TypeGraph) (id : TypeId) : Prop :=
  ∃ type ∈ g.flatten id, g.isDistributableUnion type = true ∨ g.isPlainObject type = true

namespace MergeContext

/-- A state that merging can be in when it has started from a graph. -/
structure From (g : TypeGraph) (s : MergeContext) : Prop where
  graph : g.Extends s.graph
  noted : ∀ {id made : TypeId}, s.made.lookup id = some made → g.Noted id

/-- A state with all notes of an earlier one. -/
def Remembers (s t : MergeContext) : Prop :=
  ∀ ⦃id made : TypeId⦄, s.made.lookup id = some made → t.made.lookup id = some made

theorem Remembers.trans {s t u : MergeContext} (hst : s.Remembers t) (htu : t.Remembers u) :
    s.Remembers u :=
  fun _ _ h => htu (hst h)

end MergeContext

namespace Merge

variable {α β : Type} {g : TypeGraph}

theorem lookup_note (key : List TypeId) (made id : TypeId) (s : MergeContext) :
    (note key made s).2.made.lookup id = if key = [id] then some made else s.made.lookup id := by
  rcases key with _ | ⟨single, _ | ⟨second, rest⟩⟩
  · rfl
  · change List.lookup id ((single, made) :: s.made) = _
    rw [List.lookup_cons]
    by_cases h : id = single
    · rw [h, beq_self_eq_true, if_pos rfl]
    · rw [beq_false_of_ne h, if_neg (by simpa using Ne.symm h)]
  · rw [if_neg (by simp)]
    rfl

theorem graph_note (key : List TypeId) (made : TypeId) (s : MergeContext) :
    (note key made s).2.graph = s.graph := by
  unfold note
  split <;> rfl

/-! ## Rules for `Sound` -/

/-- A step after which the state is again one that merging can be in and has all notes of the state
before, if no handle was given twice. -/
def SoundAt (g : TypeGraph) (s : MergeContext) (x : Merge α) : Prop :=
  (x s).2.graph.types.size ≤ UInt32.size → (x s).2.From g ∧ s.Remembers (x s).2

/-- A step that is sound at each state that merging can be in. -/
structure Sound (g : TypeGraph) (x : Merge α) : Prop where
  grows : Grows x
  sound : ∀ {s : MergeContext}, s.From g → SoundAt g s x

theorem soundAt_of_made_eq {s : MergeContext} (hs : s.From g) {x : Merge α} (hgrows : Grows x)
    (hmade : (x s).2.made = s.made) : SoundAt g s x := by
  intro hsize
  have hgraph := hs.graph.trans ((hgrows s).extends_of_le hsize)
  refine ⟨⟨hgraph, fun h => hs.noted (hmade ▸ h)⟩, fun _ _ h => ?_⟩
  rw [hmade]
  exact h

theorem SoundAt.bind {s : MergeContext} {x : Merge α} {k : α → Merge β} (hx : SoundAt g s x)
    (hk : ∀ a, Sound g (k a)) : SoundAt g s (x >>= k) := by
  intro hsize
  obtain ⟨hfrom, hremembers⟩ := hx (((hk _).grows _).size_le.trans hsize)
  obtain ⟨hfrom', hremembers'⟩ := (hk (x s).1).sound hfrom hsize
  exact ⟨hfrom', hremembers.trans hremembers'⟩

theorem sound_pure (a : α) : Sound g (pure a) :=
  ⟨grows_pure a, fun hs => soundAt_of_made_eq hs (grows_pure a) rfl⟩

theorem Sound.bind {x : Merge α} {k : α → Merge β} (hx : Sound g x) (hk : ∀ a, Sound g (k a)) :
    Sound g (x >>= k) :=
  ⟨hx.grows.bind fun a => (hk a).grows, fun hs => (hx.sound hs).bind hk⟩

theorem sound_build {x : Build α} (h : ∀ g : TypeGraph, g.Appends (x g).2) : Sound g (build x) :=
  ⟨grows_build h, fun hs => soundAt_of_made_eq hs (grows_build h) rfl⟩

theorem sound_mapM {k : α → Merge β} : ∀ {as : List α}, (∀ a ∈ as, Sound g (k a)) →
    Sound g (as.mapM k)
  | [], _ => sound_pure []
  | a :: as, h => by
    rw [List.forall_mem_cons] at h
    rw [List.mapM_cons]
    exact h.1.bind fun b => (sound_mapM h.2).bind fun bs => sound_pure _

/-- A note under a type that had none in an earlier state. -/
theorem from_note {s t : MergeContext} {key : List TypeId} (made : TypeId) (ht : t.From g)
    (hst : s.Remembers t) (hknown : s.known? key = none) (hkey : ∀ id, key = [id] → g.Noted id) :
    (note key made t).2.From g ∧ s.Remembers (note key made t).2 := by
  refine ⟨⟨graph_note key made t ▸ ht.graph, fun h => ?_⟩, fun _ _ h => ?_⟩
  · rw [lookup_note] at h
    split at h
    · next heq => exact hkey _ heq
    · exact ht.noted h
  · rw [lookup_note, if_neg]
    · exact hst h
    · rintro rfl
      rw [MergeContext.known?, h] at hknown
      cases hknown

/-! ## The steps -/

section

variable (hg : g.InBounds) {merge : List TypeId → Merge TypeId}
  (hmerge : ∀ types, (∀ type ∈ types, g.HasType type) → Sound g (merge types))
  (hgrows : ∀ types, Grows (merge types))

include hg hmerge hgrows

theorem sound_property (name : String) {symbols : List SymbolId}
    (hsymbols : ∀ symbol ∈ symbols, g.HasSymbol symbol) :
    Sound g (property merge name symbols) := by
  refine ⟨grows_property hgrows name symbols, fun {s} hs => ?_⟩
  have htypes : ∀ type ∈ symbols.map s.graph.typeOf, g.HasType type := by
    intro type htype
    obtain ⟨symbol, hsymbol, rfl⟩ := List.mem_map.1 htype
    rw [hs.graph.typeOf_eq (hsymbols symbol hsymbol)]
    exact hg.typeOf symbol
  exact ((hmerge _ htypes).sound hs).bind fun _ =>
    sound_build fun _ => Build.newPropertySymbol_appends _ _ _ _ _

theorem sound_mergeProperties {groups : List (String × List SymbolId)}
    (hgroups : ∀ group ∈ groups, ∀ symbol ∈ group.2, g.HasSymbol symbol) :
    Sound g (mergeProperties merge groups) :=
  sound_mapM fun group hgroup => sound_property hg hmerge hgrows group.1 (hgroups group hgroup)

variable {s : MergeContext} (hs : s.From g) {key : List TypeId} (hknown : s.known? key = none)
  (hkey : ∀ id, key = [id] → g.Noted id)

include hs hknown hkey

omit hg hmerge hgrows in
theorem from_opened : (s.opened key).From g ∧ s.Remembers (s.opened key) :=
  from_note s.nextType ⟨hs.graph.trans (.addType _ _), hs.noted⟩ (fun _ _ h => h) hknown hkey

/-- What is noted before the properties are merged is still noted afterwards. -/
theorem from_objects {objs : List TypeId} (hobjs : ∀ type ∈ objs, g.HasType type)
    (hsize : (objects merge objs key s).2.graph.types.size ≤ UInt32.size) :
    (objects merge objs key s).2.From g ∧
      (s.opened key).Remembers (objects merge objs key s).2 := by
  have hextends := (grows_objects hgrows objs key s).extends_of_le hsize
  obtain ⟨hopened, -⟩ := from_opened hs hknown hkey
  rw [objects_of_extends hg hs.graph hobjs] at hsize hextends ⊢
  dsimp only at hsize hextends ⊢
  rw [Build.setObjectMembers, Build.modifyObject, types_size_modifyType] at hsize
  obtain ⟨hrun, hremembers⟩ := (sound_mergeProperties hg hmerge hgrows
    (forall_mem_groupByName (hg.flatMap_properties objs))).sound hopened hsize
  exact ⟨⟨hs.graph.trans hextends, hrun.noted⟩, hremembers⟩

theorem soundAt_objects {objs : List TypeId} (hobjs : ∀ type ∈ objs, g.HasType type) :
    SoundAt g s (objects merge objs key) := by
  intro hsize
  obtain ⟨hfrom, hremembers⟩ := from_objects hg hmerge hgrows hs hknown hkey hobjs hsize
  exact ⟨hfrom, (from_opened hs hknown hkey).2.trans hremembers⟩

omit hg hgrows in
theorem soundAt_distribute {before after members : List TypeId}
    (hbefore : ∀ type ∈ before, g.HasType type) (hafter : ∀ type ∈ after, g.HasType type)
    (hmembers : ∀ type ∈ members, g.HasType type) :
    SoundAt g s (distribute merge before after members key) := by
  have hdistributed : Sound g (distributed merge before after members) := by
    refine (sound_mapM fun member hmember => hmerge _ ?_).bind fun _ =>
      sound_build fun _ => Build.union_appends _
    exact List.forall_mem_append.2 ⟨List.forall_mem_append.2
      ⟨hbefore, List.forall_mem_singleton.2 (hmembers member hmember)⟩, hafter⟩
  intro hsize
  rw [distribute_eq] at hsize ⊢
  dsimp only at hsize ⊢
  rw [graph_note] at hsize
  obtain ⟨hrun, hremembers⟩ := hdistributed.sound hs hsize
  exact from_note _ hrun hremembers hknown hkey

omit hkey in
theorem soundAt_intersect {constituents : List TypeId}
    (hconstituents : ∀ type ∈ constituents, g.HasType type)
    (hkey : ∀ id, key = [id] → constituents = g.flatten id) :
    SoundAt g s (intersect merge constituents key) := by
  have hplain : ∀ type ∈ s.graph.plainOf constituents, type ∈ constituents ∧
      s.graph.isPlainObject type = true := by
    intro type htype
    obtain ⟨hmem, hobject⟩ := List.mem_filter.1 htype
    exact ⟨Build.mem_distinct.1 hmem, hobject⟩
  have hobjects : s.graph.plainOf constituents ≠ [] →
      SoundAt g s (objects merge (s.graph.plainOf constituents) key) := by
    intro hne
    refine soundAt_objects hg hmerge hgrows hs hknown (fun id hid => ?_)
      fun type htype => hconstituents type (hplain type htype).1
    obtain ⟨type, htype⟩ := List.exists_mem_of_ne_nil _ hne
    obtain ⟨hmem, hobject⟩ := hplain type htype
    rw [hs.graph.isPlainObject_eq hg (hconstituents type hmem)] at hobject
    exact ⟨type, hkey id hid ▸ hmem, Or.inr hobject⟩
  have hbuild : ∀ {x : Build TypeId}, (∀ g : TypeGraph, g.Appends (x g).2) →
      SoundAt g s (build x) := fun h => (sound_build h).sound hs
  unfold SoundAt
  rcases intersect_cases merge constituents key s with
    ⟨-, -, h⟩ | ⟨single, -, -, h⟩ | ⟨-, -, h⟩ | ⟨hne, -, h⟩ | ⟨hne, -, h⟩ <;> rw [h]
  · exact (sound_pure (g := g) TypeId.unknown).sound hs
  · exact hbuild fun _ => Build.cloneWithoutAlias_appends single
  · exact hbuild fun _ => Build.intersection_appends _
  · exact hobjects hne
  · exact (hobjects hne).bind fun _ => sound_build fun _ => Build.intersection_appends _

omit hknown hkey in
theorem soundAt_classified (hacyclic : g.AcyclicIntersections) {types : List TypeId}
    (htypes : ∀ type ∈ types, g.HasType type) (hknown : s.known? types = none) :
    SoundAt g s (classified merge types) := by
  have hconstituents := hg.constituents htypes
  have hsole : ∀ id, types = [id] → types.flatMap g.flatten = g.flatten id := by
    rintro id rfl
    rw [List.flatMap_singleton]
  unfold SoundAt
  rcases classified_cases merge types s with
    ⟨before, union, after, hsplit, -, hunion, h⟩ | ⟨-, h⟩ <;> rw [h]
  · rw [hs.graph.constituents_eq hg (fun type _ => hacyclic.below type) htypes] at hsplit
    rw [hsplit, List.forall_mem_append, List.forall_mem_cons] at hconstituents
    obtain ⟨hbefore, hmid, hafter⟩ := hconstituents
    refine soundAt_distribute hmerge hs hknown (fun id hid => ⟨union, ?_, Or.inl ?_⟩) hbefore
      hafter ?_
    · rw [← hsole id hid, hsplit]
      exact List.mem_append_right _ List.mem_cons_self
    · rw [← hs.graph.isDistributableUnion_eq hmid, hunion]
    · rw [hs.graph.unionMembers_eq hmid]
      exact hg.unionMembers union
  · rw [hs.graph.constituents_eq hg (fun type _ => hacyclic.below type) htypes]
    exact soundAt_intersect hg hmerge hgrows hs hknown hconstituents hsole

end

/-- By induction on the levels: whatever merging is started on, it only adds notes, and only for
types that have an object or a union among their constituents. -/
theorem sound_mergeWithin (hg : g.InBounds) (hacyclic : g.AcyclicIntersections) (levels : Nat)
    {types : List TypeId} (htypes : ∀ type ∈ types, g.HasType type) :
    Sound g (mergeWithin levels types) := by
  refine ⟨grows_mergeWithin levels types, ?_⟩
  induction levels generalizing types with
  | zero =>
    intro s hs
    unfold SoundAt
    rcases mergeWithin_cases 0 types s with
      ⟨made, -, h⟩ | ⟨-, -, single, -, h⟩ | ⟨-, -, -, h⟩ | ⟨-, below, hbelow, h⟩
    · rw [h]
      exact (sound_pure (g := g) made).sound hs
    · rw [h]
      exact (sound_pure (g := g) single).sound hs
    · rw [h]
      exact (sound_build fun _ => Build.intersection_appends _).sound hs
    · cases hbelow
  | succ levels ih =>
    intro s hs
    unfold SoundAt
    rcases mergeWithin_cases (levels + 1) types s with
      ⟨made, -, h⟩ | ⟨-, hlevels, -⟩ | ⟨-, hlevels, -⟩ | ⟨hknown, below, hbelow, h⟩
    · rw [h]
      exact (sound_pure (g := g) made).sound hs
    · cases hlevels
    · cases hlevels
    · obtain rfl : levels = below := Nat.succ.inj hbelow
      rw [h]
      exact soundAt_classified hg (fun types htypes => ⟨grows_mergeWithin levels types, ih htypes⟩)
        (grows_mergeWithin levels) hs hacyclic htypes hknown

end Merge

end TypeAtlas
