import TypeAtlas.Proofs.Graph.Copies
import TypeAtlas.Proofs.Merge.Expansion
/-!
# Properties of the same type

When an object is expanded, two of its properties with the same type are merged one after the other.
The texts of the merged types agree, with one exception (`Build.expand_shared_text_iff`): the first
time an intersection of objects with other types is merged, what is noted is the object without the
other types, and the second property gets this object.
-/

namespace TypeAtlas

open TypeGraph

namespace Merge

variable {g : TypeGraph}

theorem noted_of_mixed {id : TypeId} (h : g.Mixed id) : g.Noted id :=
  (noted_iff_of_no_union h.1).2 h.2.1

/-! ## A type merged twice -/

/-- What is added twice for a type that is not noted has the same text. -/
theorem typeText?_leftover_eq (hg : g.InBounds) {id : TypeId} (hid : g.HasType id)
    {h k k' : TypeGraph} (hgh : g.Extends h) (hk : g.Extends k) (hk' : g.Extends k')
    (hsize : (g.leftover id k).2.types.size ≤ UInt32.size)
    (hsize' : (g.leftover id k').2.types.size ≤ UInt32.size)
    (hkept : ∀ type record, k.types.size ≤ type.index →
      (g.leftover id k).2.type? type = some record → h.type? type = some record)
    (hkept' : ∀ type record, k'.types.size ≤ type.index →
      (g.leftover id k').2.type? type = some record → h.type? type = some record) :
    h.typeText? (g.leftover id k).1 = h.typeText? (g.leftover id k').1 := by
  rcases leftover_cases hg hid with ⟨type, hfixed⟩ | ⟨r, hheld, hadd⟩
  · rw [hfixed k hk, hfixed k' hk']
  · rw [hadd k hk] at hsize hkept ⊢
    rw [hadd k' hk'] at hsize' hkept' ⊢
    have hlt := (types_size_addType r k).ge.trans hsize
    have hlt' := (types_size_addType r k').ge.trans hsize'
    have hrecord := hkept _ r (index_addType r hlt).ge (type?_addType r hlt)
    have hrecord' := hkept' _ r (index_addType r hlt').ge (type?_addType r hlt')
    have hnew := (hk.types_size.trans (index_addType r hlt).ge).not_gt
    have hnew' := (hk'.types_size.trans (index_addType r hlt').ge).not_gt
    refine typeText?_eq_of_copies hg hgh hnew hnew' ⟨hrecord.trans hrecord'.symm, ?_, ?_⟩
    · intro r' hr' handle hhandle
      rw [hrecord] at hr'
      exact hheld handle (Option.some.inj hr' ▸ hhandle)
    · exact fun other hother =>
        ⟨fun heq => absurd (heq ▸ hother) hnew, fun heq => absurd (heq ▸ hother) hnew'⟩

/-- Merging a type in one state and then again in a later state of a run that ends with a graph. The
types made by the two calls keep their records to the end. -/
structure Twice (g h : TypeGraph) (levels : Nat) (id : TypeId) (s t : MergeContext) : Prop where
  first : s.From g
  second : t.From g
  remembers : (mergeWithin levels [id] s).2.Remembers t
  /-- At the lowest level nothing is noted. -/
  bottom : levels = 0 → t.made = s.made
  graph : g.Extends h
  firstSize : (mergeWithin levels [id] s).2.graph.types.size ≤ UInt32.size
  secondSize : (mergeWithin levels [id] t).2.graph.types.size ≤ UInt32.size
  firstKept : ∀ type record, s.graph.types.size ≤ type.index →
    (mergeWithin levels [id] s).2.graph.type? type = some record → h.type? type = some record
  secondKept : ∀ type record, t.graph.types.size ≤ type.index →
    (mergeWithin levels [id] t).2.graph.type? type = some record → h.type? type = some record

/-- The call that merges an intersection of objects with other types for the first time. -/
def Loses (g : TypeGraph) (levels : Nat) (id : TypeId) (s : MergeContext) : Prop :=
  1 ≤ levels ∧ g.Mixed id ∧ s.known? [id] = none

instance (g : TypeGraph) (levels : Nat) (id : TypeId) (s : MergeContext) :
    Decidable (Loses g levels id s) :=
  inferInstanceAs (Decidable (_ ∧ _ ∧ _))

section

variable {h : TypeGraph} {levels : Nat} {id : TypeId} {s t : MergeContext}
  (htwice : Twice g h levels id s t) (hg : g.InBounds) (hacyclic : g.AcyclicIntersections)
  (hid : g.HasType id)

include htwice hg hacyclic hid

/-- Nothing is lost: the second answer is the first one, or the same is made twice. -/
theorem Twice.typeText?_eq (hloses : ¬Loses g levels id s) :
    h.typeText? (mergeWithin levels [id] s).1 = h.typeText? (mergeWithin levels [id] t).1 := by
  have hremembers := htwice.remembers
  have hknows : ∀ made, (mergeWithin levels [id] s).2.made.lookup id = some made →
      (mergeWithin levels [id] t).1 = made := by
    intro made hmade
    have ht : t.known? [id] = some made := hremembers hmade
    rw [mergeWithin_of_known ht]
  cases hknown : s.known? [id] with
  | some made =>
    have hs : mergeWithin levels [id] s = (made, s) := mergeWithin_of_known hknown
    rw [hs] at hknows ⊢
    rw [hknows made hknown]
  | none =>
    obtain _ | levels := levels
    · have ht : t.known? [id] = none := by
        rw [MergeContext.known?, htwice.bottom rfl]
        exact hknown
      rw [mergeWithin_zero hknown, mergeWithin_zero ht]
    rcases mergeWithin_sole hg hacyclic levels hid htwice.first hknown htwice.firstSize with
      ⟨-, -, hnote⟩ | ⟨hmixed, -⟩ | ⟨hnot, hs⟩
    · rw [hknows _ hnote]
    · exact absurd ⟨Nat.le_add_left 1 levels, hmixed, hknown⟩ hloses
    have ht : t.known? [id] = none := Option.eq_none_iff_forall_ne_some.2 fun _ hmade =>
      hnot (htwice.second.noted hmade)
    rcases mergeWithin_sole hg hacyclic levels hid htwice.second ht htwice.secondSize with
      ⟨hnoted, -⟩ | ⟨hmixed, -⟩ | ⟨-, ht⟩
    · exact absurd hnoted hnot
    · exact absurd (noted_of_mixed hmixed) hnot
    have hfirstSize := htwice.firstSize
    have hsecondSize := htwice.secondSize
    have hfirstKept := htwice.firstKept
    have hsecondKept := htwice.secondKept
    rw [hs] at hfirstSize hfirstKept ⊢
    rw [ht] at hsecondSize hsecondKept ⊢
    exact typeText?_leftover_eq hg hid htwice.graph htwice.first.graph htwice.second.graph
      hfirstSize hsecondSize hfirstKept hsecondKept

/-- The second answer is the object alone, so its text is shorter. -/
theorem Twice.typeText?_ne (hloses : Loses g levels id s)
    (htext : h.typeText? (mergeWithin levels [id] s).1 ≠ none) :
    h.typeText? (mergeWithin levels [id] s).1 ≠ h.typeText? (mergeWithin levels [id] t).1 := by
  obtain ⟨hlevels, hmixed, hknown⟩ := hloses
  obtain ⟨below, rfl⟩ : ∃ below, levels = below + 1 := ⟨levels - 1, by omega⟩
  rcases mergeWithin_sole hg hacyclic below hid htwice.first hknown htwice.firstSize with
    ⟨-, hnot, -⟩ | ⟨-, made, hpartly⟩ | ⟨hnot, -⟩
  · exact absurd hmixed hnot
  · obtain ⟨rest, hrest, hanswer⟩ := hpartly.answer
    obtain ⟨members, hcalls, hobject⟩ := hpartly.object
    have ht : t.known? [id] = some made := htwice.remembers hpartly.note
    rw [mergeWithin_of_known ht]
    exact typeText?_ne_of_merged hrest (htwice.firstKept _ _ hpartly.new.2 hanswer)
      (htwice.firstKept _ _ hpartly.new.1 hobject) hcalls htext
  · exact absurd (noted_of_mixed hmixed) hnot

end

/-! ## Two properties of the same type -/

theorem made_mergeWithin_zero (types : List TypeId) (s : MergeContext) :
    (mergeWithin 0 types s).2.made = s.made := by
  rcases mergeWithin_cases 0 types s with
    ⟨made, -, h⟩ | ⟨-, -, single, -, h⟩ | ⟨-, -, -, h⟩ | ⟨-, below, hbelow, -⟩
  · rw [h]
  · rw [h]
  · rw [h]
    rfl
  · cases hbelow

theorem made_mergeProperties_zero (groups : List (String × List SymbolId)) (s : MergeContext) :
    (mergeProperties (mergeWithin 0) groups s).2.made = s.made := by
  induction groups generalizing s with
  | nil => rfl
  | cons group groups ih =>
    rw [mergeProperties_cons]
    dsimp only
    rw [ih, made_property, made_mergeWithin_zero]

section

variable {levels : Nat} {k : TypeGraph}

/-- A property that is a group by itself gets what its type is merged to. -/
theorem property_sole {p : SymbolId} (hp : g.HasSymbol p) {s : MergeContext} (hs : s.From g)
    (name : String) (hk : (property (mergeWithin levels) name [p] s).2.graph.Extends k)
    (hsymbols : k.symbols.size ≤ UInt32.size) :
    (property (mergeWithin levels) name [p] s).2.made =
        (mergeWithin levels [g.typeOf p] s).2.made ∧
      (mergeWithin levels [g.typeOf p] s).2.graph.Extends k ∧
      k.HasValue (property (mergeWithin levels) name [p] s).1 name
        (mergeWithin levels [g.typeOf p] s).1 := by
  have htypeOf : [p].map s.graph.typeOf = [g.typeOf p] :=
    congrArg (fun type => [type]) (hs.graph.typeOf_eq hp)
  have hmade := made_property (mergeWithin levels) name [p] s
  have hadded := extends_property (mergeWithin levels) name [p] s
  have hvalue := hasValue_property (mergeWithin levels) name [p] s
    (hk.symbols_size.trans hsymbols)
  rw [htypeOf] at hmade hadded hvalue
  exact ⟨hmade, hadded.trans hk, hvalue.of_extends hk⟩

/-- Two merges of a type, the second one in a state that knows what the first one leads to. -/
theorem twice_of_extends (hsize : k.types.size ≤ UInt32.size) {id : TypeId} {s t : MergeContext}
    (hs : s.From g) (ht : t.From g)
    (hremembers : (mergeWithin levels [id] s).2.Remembers t)
    (hbottom : levels = 0 → t.made = s.made)
    (hle : s.graph.types.size ≤ t.graph.types.size)
    (hfirst : (mergeWithin levels [id] s).2.graph.Extends k)
    (hsecond : (mergeWithin levels [id] t).2.graph.Extends k) {h : TypeGraph} (hgh : g.Extends h)
    (hkept : ∀ type record, s.graph.types.size ≤ type.index →
      k.type? type = some record → h.type? type = some record) :
    Twice g h levels id s t where
  first := hs
  second := ht
  remembers := hremembers
  bottom := hbottom
  graph := hgh
  firstSize := hfirst.types_size.trans hsize
  secondSize := hsecond.types_size.trans hsize
  firstKept := by
    intro type record hnew hrecord
    apply hkept type record hnew
    exact (hfirst.type?_eq (hasType_of_type? hrecord)).trans hrecord
  secondKept := by
    intro type record hnew hrecord
    apply hkept type record (hle.trans hnew)
    exact (hsecond.type?_eq (hasType_of_type? hrecord)).trans hrecord

end

/-- A run over groups of properties in which two properties of the same type are groups by
themselves. -/
theorem twice_of_groups (hg : g.InBounds) (hacyclic : g.AcyclicIntersections) {levels : Nat}
    {before between after : List (String × List SymbolId)} {name name' : String} {p q : SymbolId}
    (hgroups : ∀ group ∈ before ++ (name, [p]) :: (between ++ (name', [q]) :: after),
      ∀ symbol ∈ group.2, g.HasSymbol symbol)
    (htype : g.typeOf p = g.typeOf q) {s : MergeContext} (hs : s.From g)
    {run : List SymbolId × MergeContext} (hrun : run = mergeProperties (mergeWithin levels)
      (before ++ (name, [p]) :: (between ++ (name', [q]) :: after)) s)
    (hsize : run.2.graph.types.size ≤ UInt32.size)
    (hsymbols : run.2.graph.symbols.size ≤ UInt32.size)
    {h : TypeGraph} (hgh : g.Extends h)
    (hkept : ∀ type record, s.graph.types.size ≤ type.index →
      run.2.graph.type? type = some record → h.type? type = some record) :
    ∃ t, Twice g h levels (g.typeOf p) (mergeProperties (mergeWithin levels) before s).2 t ∧
      ∃ p' ∈ run.1, ∃ q' ∈ run.1,
        run.2.graph.HasValue p' name (mergeWithin levels [g.typeOf p]
          (mergeProperties (mergeWithin levels) before s).2).1 ∧
        run.2.graph.HasValue q' name' (mergeWithin levels [g.typeOf p] t).1 := by
  simp only [mergeProperties_append, mergeProperties_cons] at hrun
  set s₁ := (mergeProperties (mergeWithin levels) before s).2
  set first := property (mergeWithin levels) name [p] s₁
  set s₂ := (mergeProperties (mergeWithin levels) between first.2).2
  set second := property (mergeWithin levels) name' [q] s₂
  set rest := mergeProperties (mergeWithin levels) after second.2
  have hgrows := grows_mergeWithin levels
  have hmerge : ∀ types, (∀ type ∈ types, g.HasType type) → Sound g (mergeWithin levels types) :=
    fun types => sound_mergeWithin hg hacyclic levels
  obtain ⟨hbefore, hgroups⟩ := List.forall_mem_append.1 hgroups
  obtain ⟨hp, hgroups⟩ := List.forall_mem_cons.1 hgroups
  obtain ⟨hbetween, hgroups⟩ := List.forall_mem_append.1 hgroups
  obtain ⟨hq, -⟩ := List.forall_mem_cons.1 hgroups
  -- the graph of the run extends that of each state on the way, which the last one shows first
  have hend : rest.2.graph.Extends run.2.graph := by
    rw [hrun]
    exact .refl _
  have hsecond : second.2.graph.Extends run.2.graph :=
    (grows_mergeProperties hgrows after).extends_of_extends hend hsize
  have hs₂k : s₂.graph.Extends run.2.graph :=
    (grows_property hgrows name' [q]).extends_of_extends hsecond hsize
  have hfirst : first.2.graph.Extends run.2.graph :=
    (grows_mergeProperties hgrows between).extends_of_extends hs₂k hsize
  have hs₁k : s₁.graph.Extends run.2.graph :=
    (grows_property hgrows name [p]).extends_of_extends hfirst hsize
  have hstart : s.graph.types.size ≤ s₁.graph.types.size :=
    (grows_mergeProperties hgrows before s).size_le
  have hgrown : s₁.graph.types.size ≤ s₂.graph.types.size :=
    (grows_property hgrows name [p] s₁).size_le.trans
      (grows_mergeProperties hgrows between first.2).size_le
  -- each state is one that merging can be in, and knows what the ones before it know
  obtain ⟨hs₁, -⟩ := (sound_mergeProperties hg hmerge hgrows hbefore).sound hs
    (hs₁k.types_size.trans hsize)
  obtain ⟨hfrom, -⟩ := (sound_property hg hmerge hgrows name hp).sound hs₁
    (hfirst.types_size.trans hsize)
  obtain ⟨hs₂, hremembers⟩ := (sound_mergeProperties hg hmerge hgrows hbetween).sound hfrom
    (hs₂k.types_size.trans hsize)
  obtain ⟨hmade, hadded, hvalue⟩ := property_sole (hp p List.mem_cons_self) hs₁ name hfirst hsymbols
  obtain ⟨-, hadded', hvalue'⟩ :=
    property_sole (hq q List.mem_cons_self) hs₂ name' hsecond hsymbols
  rw [← htype] at hadded' hvalue'
  have htwice : Twice g h levels (g.typeOf p) s₁ s₂ := by
    refine twice_of_extends hsize hs₁ hs₂ ?_ ?_ hgrown hadded hadded' hgh ?_
    · intro id made hid
      exact hremembers (hmade ▸ hid)
    · intro hbottom
      subst hbottom
      exact (made_mergeProperties_zero _ _).trans (hmade.trans (made_mergeWithin_zero _ _))
    · intro type record hle
      exact hkept type record (hstart.trans hle)
  refine ⟨s₂, htwice, first.1, ?_, second.1, ?_, hvalue, hvalue'⟩
  · rw [hrun]
    exact List.mem_append_right _ List.mem_cons_self
  · rw [hrun]
    refine List.mem_append_right _ (List.mem_cons_of_mem _ ?_)
    exact List.mem_append_right _ List.mem_cons_self

/-- The state in which the first of two properties of an object is merged when it is expanded. -/
def stateBefore (g : TypeGraph) (levels : Nat) (object : TypeId) (p q : SymbolId) : MergeContext :=
  (mergeProperties (mergeWithin levels) (g.groupByName
    ((g.properties object).takeWhile fun property => property != p && property != q))
    (start g object)).2

end Merge

/-- The text of the type of a symbol as a value. -/
def TypeGraph.valueText? (g : TypeGraph) (symbol : SymbolId) : Option String :=
  g.typeText? (g.valueTypeOf symbol)

/-- The groups of the properties of an object, two of which are told apart from the others. -/
theorem TypeGraph.InBounds.groupByName_ordered {g : TypeGraph} (hg : g.InBounds) {object : TypeId}
    {p q : SymbolId} {before between after : List SymbolId}
    (hsplit : g.properties object = before ++ p :: (between ++ q :: after)) :
    ∃ name name' between' after', g.symbolName? p = some name ∧ g.symbolName? q = some name' ∧
      g.groupByName (g.properties object) =
        g.groupByName before ++ (name, [p]) :: (between' ++ (name', [q]) :: after') := by
  have hdistinct := distinctNames_properties g object
  have hp : p ∈ g.properties object := by simp [hsplit]
  have hq : q ∈ g.properties object := by simp [hsplit]
  obtain ⟨name, hname, hgroup⟩ := soleGroup_of_hasSymbol (hg.properties hp)
  obtain ⟨name', hname', hgroup'⟩ := soleGroup_of_hasSymbol (hg.properties hq)
  have hbefore : g.groupByName before = before.filterMap g.soleGroup :=
    groupByName_of_distinct (hdistinct.sublist (hsplit ▸ List.sublist_append_left _ _))
  refine ⟨name, name', between.filterMap g.soleGroup, after.filterMap g.soleGroup, hname, hname',
    ?_⟩
  rw [hbefore, groupByName_of_distinct hdistinct, hsplit, List.filterMap_append,
    List.filterMap_cons_some hgroup, List.filterMap_append, List.filterMap_cons_some hgroup']

namespace Build

section

variable {g : TypeGraph} (hg : g.InBounds) (hacyclic : g.AcyclicIntersections) {object : TypeId}
  (hobject : g.PlainObject object) {p q : SymbolId} (htype : g.typeOf p = g.typeOf q)
  {config : TreeConfig} {levels : Nat} (hlevels : config.maxDepth.toNat = levels + 1)
  (htypes : (expand object config g).2.types.size ≤ UInt32.size)
  (hsymbols : (expand object config g).2.symbols.size ≤ UInt32.size)

include hg hacyclic hobject htype hlevels htypes hsymbols

/-- The properties in the order in which the object has them. -/
theorem expand_ordered {before between after : List SymbolId}
    (hsplit : g.properties object = before ++ p :: (between ++ q :: after)) :
    ∃ p' ∈ (expand object config g).2.properties (expand object config g).1,
      ∃ q' ∈ (expand object config g).2.properties (expand object config g).1,
        (expand object config g).2.symbolName? p' = g.symbolName? p ∧
        (expand object config g).2.symbolName? q' = g.symbolName? q ∧
        ((expand object config g).2.valueText? p' ≠ none →
          ((expand object config g).2.valueText? p' = (expand object config g).2.valueText? q' ↔
            ¬Merge.Loses g levels (g.typeOf p) (Merge.mergeProperties (Merge.mergeWithin levels)
              (g.groupByName before) (Merge.start g object)).2)) := by
  obtain ⟨name, name', between', after', hname, hname', hgroups⟩ := hg.groupByName_ordered hsplit
  have hrun : Merge.propertyRun g levels object = _ :=
    congrArg (Merge.mergeProperties (Merge.mergeWithin levels) · (Merge.start g object)) hgroups
  have hsize := (types_size_expand hg hobject hlevels).trans_le htypes
  have hsymbolsEq := symbols_expand hg hobject hlevels
  obtain ⟨t, htwice, p', hp', q', hq', hvalue, hvalue'⟩ := Merge.twice_of_groups hg hacyclic
    (hgroups ▸ forall_mem_groupByName fun _ => hg.properties) htype (Merge.from_start hobject) hrun
    hsize (hsymbolsEq ▸ hsymbols) (expand_extends object config g htypes).1
    fun _ _ => type?_expand_of_le hg hobject hlevels htypes
  replace hvalue := hvalue.of_symbols_eq hsymbolsEq
  replace hvalue' := hvalue'.of_symbols_eq hsymbolsEq
  have hproperties := properties_expand hg hobject hlevels htypes hsymbols
  refine ⟨p', hproperties ▸ hp', q', hproperties ▸ hq', hvalue.symbolName?_eq.trans hname.symm,
    hvalue'.symbolName?_eq.trans hname'.symm, ?_⟩
  rw [valueText?, valueText?, hvalue.valueTypeOf_eq, hvalue'.valueTypeOf_eq]
  intro htext
  constructor
  · intro heq hloses
    exact htwice.typeText?_ne hg hacyclic (hg.typeOf p) hloses htext heq
  · exact htwice.typeText?_eq hg hacyclic (hg.typeOf p)

end

/-- One of two properties comes first, after those that are neither. -/
theorem properties_split {g : TypeGraph} {object : TypeId} {p q : SymbolId}
    (hp : p ∈ g.properties object) (hq : q ∈ g.properties object) (hpq : p ≠ q) :
    ∃ between after,
      g.properties object = (g.properties object).takeWhile (fun s => s != p && s != q) ++
        p :: (between ++ q :: after) ∨
      g.properties object = (g.properties object).takeWhile (fun s => s != p && s != q) ++
        q :: (between ++ p :: after) := by
  set other : SymbolId → Bool := fun s => s != p && s != q with hother
  have hsplit := List.takeWhile_append_dropWhile (p := other) (l := g.properties object)
  have hnot : ∀ s ∈ (g.properties object).takeWhile other, s ≠ p ∧ s ≠ q := by
    intro s hs
    simpa [hother] using List.mem_takeWhile_imp hs
  have hhead := List.head?_dropWhile_not other (g.properties object)
  rw [← hsplit] at hp hq
  cases hdrop : (g.properties object).dropWhile other with
  | nil =>
    rw [hdrop, List.append_nil] at hp
    exact absurd rfl (hnot p hp).1
  | cons first rest =>
    rw [hdrop] at hsplit hp hq hhead
    have hfirst : first = p ∨ first = q := by
      by_contra hne
      rw [not_or] at hne
      simp [hother, hne] at hhead
    rcases hfirst with rfl | rfl
    · have hmem : q ∈ rest := by
        rcases List.mem_append.1 hq with h | h
        · exact absurd rfl (hnot q h).2
        · exact (List.mem_cons.1 h).resolve_left hpq.symm
      obtain ⟨between, after, hrest⟩ := List.append_of_mem hmem
      exact ⟨between, after, Or.inl (by rw [← hrest, hsplit])⟩
    · have hmem : p ∈ rest := by
        rcases List.mem_append.1 hp with h | h
        · exact absurd rfl (hnot p h).1
        · exact (List.mem_cons.1 h).resolve_left hpq
      obtain ⟨between, after, hrest⟩ := List.append_of_mem hmem
      exact ⟨between, after, Or.inr (by rw [← hrest, hsplit])⟩

/-- When an object is expanded, two of its properties with the same type get types of the same text,
unless the first of them to be merged loses constituents for the second: there is a level left to
merge the type at, it mixes objects with other types, and it was not merged before. -/
theorem expand_shared_text_iff {g : TypeGraph} (hg : g.InBounds) (hacyclic : g.AcyclicIntersections)
    {object : TypeId} (hobject : g.PlainObject object) {p q : SymbolId}
    (hp : p ∈ g.properties object) (hq : q ∈ g.properties object) (hpq : p ≠ q)
    (htype : g.typeOf p = g.typeOf q) {config : TreeConfig} (hdepth : 1 ≤ config.maxDepth.toNat)
    (htypes : (expand object config g).2.types.size ≤ UInt32.size)
    (hsymbols : (expand object config g).2.symbols.size ≤ UInt32.size) :
    ∃ p' ∈ (expand object config g).2.properties (expand object config g).1,
      ∃ q' ∈ (expand object config g).2.properties (expand object config g).1,
        (expand object config g).2.symbolName? p' = g.symbolName? p ∧
        (expand object config g).2.symbolName? q' = g.symbolName? q ∧
        ((expand object config g).2.valueText? p' ≠ none →
          (expand object config g).2.valueText? q' ≠ none →
          ((expand object config g).2.valueText? p' = (expand object config g).2.valueText? q' ↔
            ¬Merge.Loses g (config.maxDepth.toNat - 1) (g.typeOf p)
              (Merge.stateBefore g (config.maxDepth.toNat - 1) object p q))) := by
  have hlevels : config.maxDepth.toNat = config.maxDepth.toNat - 1 + 1 := by omega
  obtain ⟨between, after, hsplit | hsplit⟩ := properties_split hp hq hpq
  · obtain ⟨p', hp', q', hq', hname, hname', hiff⟩ :=
      expand_ordered hg hacyclic hobject htype hlevels htypes hsymbols hsplit
    exact ⟨p', hp', q', hq', hname, hname', fun htext _ => hiff htext⟩
  · obtain ⟨q', hq', p', hp', hname', hname, hiff⟩ :=
      expand_ordered hg hacyclic hobject htype.symm hlevels htypes hsymbols hsplit
    refine ⟨p', hp', q', hq', hname, hname', fun _ htext' => ?_⟩
    rw [htype, eq_comm]
    exact hiff htext'

/-- Both properties of the shared object have the intersection as their type, and the second one
loses the primitive type. -/
theorem expand_sharedObject_text_ne :
    let (expanded, graph) := expand sharedObject {} sharedGraph
    ∃ p' ∈ graph.properties expanded, ∃ q' ∈ graph.properties expanded,
      graph.valueText? p' ≠ graph.valueText? q' := by
  have hbounds : sharedGraph.InBounds := sharedGraph.inBounds_iff_validate.2 (by decide +kernel)
  have hobject : sharedGraph.PlainObject sharedObject :=
    ⟨⟨{ properties := [⟨8⟩, ⟨9⟩] }, by decide +kernel⟩, by decide +kernel, by decide +kernel⟩
  have htypes : (expand sharedObject {} sharedGraph).2.types.size ≤ UInt32.size := by decide +kernel
  have hsymbols : (expand sharedObject {} sharedGraph).2.symbols.size ≤ UInt32.size := by
    decide +kernel
  obtain ⟨p', hp', q', hq', -, -, hiff⟩ := expand_shared_text_iff hbounds
    (acyclicIntersections_of_bottomUp (by decide +kernel)) hobject (p := ⟨8⟩) (q := ⟨9⟩)
    (by decide +kernel) (by decide +kernel) (by decide) (by decide +kernel) (by decide) htypes
    hsymbols
  have htext : ∀ s ∈ (expand sharedObject {} sharedGraph).2.properties
      (expand sharedObject {} sharedGraph).1,
        (expand sharedObject {} sharedGraph).2.valueText? s ≠ none := by decide +kernel
  refine ⟨p', hp', q', hq', fun heq => ?_⟩
  exact (hiff (htext p' hp') (htext q' hq')).1 heq (by decide +kernel)

end Build

end TypeAtlas
