import TypeAtlas.Proofs.Graph.Positions
/-!
# The innermost declaration around a position

A position leads to a symbol just when a declaration of the file lies around it. The symbol is then
the first one with a declaration of some range, and no declaration around the position lies strictly
inside this range (`TypeGraph.symbolAt?_innermost`).

The scan keeps one range at a time and gives it up only for a range strictly inside it, so the
ranges that it keeps never come back, and each of them is kept at the first declaration that has it
(`TypeGraph.find?_of_scan`).
-/

namespace TypeAtlas

theorem Range.StrictlyEncloses.trans {r s t : Range} (hrs : r.StrictlyEncloses s)
    (hst : s.StrictlyEncloses t) : r.StrictlyEncloses t :=
  ⟨encloses_trans hrs.1 hst.1, fun h => not_strictlyEncloses_of_encloses hst.1 (h ▸ hrs)⟩

/-- A declaration in a file with a range that contains a position. -/
structure Declaration.Around (declaration : Declaration) (fileName : String)
    (position : Position) : Prop where
  fileName : declaration.location.fileName = fileName
  contains : declaration.location.range.contains position = true

namespace TypeGraph

/-- Whether a declaration is in a file with a range that contains a position. -/
def isAround (fileName : String) (position : Position) (declaration : Declaration) : Bool :=
  declaration.location.fileName == fileName && declaration.location.range.contains position

theorem isAround_iff {fileName : String} {position : Position} {declaration : Declaration} :
    isAround fileName position declaration = true ↔ declaration.Around fileName position := by
  rw [isAround, Bool.and_eq_true, beq_iff_eq]
  exact ⟨fun h => ⟨h.1, h.2⟩, fun h => ⟨h.fileName, h.contains⟩⟩

/-- A declaration of the symbol at a place. -/
def DeclaresAt (g : TypeGraph) (n : Nat) (declaration : Declaration) : Prop :=
  ∃ record, g.symbols[n]? = some record ∧ declaration ∈ record.declarations

/-- The symbol at a place declares an innermost range around a position, and no symbol before it
declares the same range. -/
structure Innermost (g : TypeGraph) (fileName : String) (position : Position) (n : Nat)
    (range : Range) : Prop where
  declared : ∃ declaration, g.DeclaresAt n declaration ∧ declaration.Around fileName position ∧
    declaration.location.range = range
  minimal : ∀ declaration, g.Declares declaration → declaration.Around fileName position →
    ¬range.StrictlyEncloses declaration.location.range
  first : ∀ m < n, ∀ declaration, g.DeclaresAt m declaration →
    declaration.location.fileName = fileName → declaration.location.range ≠ range

variable {g : TypeGraph}

/-! ## The first of several equal ranges -/

/-- Whether a declaration has a range. -/
def hasRange (range : Range) (declaration : Declaration) : Bool :=
  declaration.location.range == range

/-- A range that replaces the one that was kept is found at the first candidate that has it. -/
theorem find?_of_scan {candidates : List (SymbolId × Declaration)} {first last : SymbolId × Range}
    (h : candidates.foldl narrower (some first) = some last) :
    last = first ∨ first.2.StrictlyEncloses last.2 ∧
      ∃ declaration, candidates.find? (hasRange last.2 ·.2) = some (last.1, declaration) := by
  induction candidates generalizing first with
  | nil => exact Or.inl (Option.some.inj h).symm
  | cons candidate candidates ih =>
    rw [List.foldl_cons] at h
    by_cases hstrict : first.2.StrictlyEncloses candidate.2.location.range
    · rw [narrower_of_strictlyEncloses hstrict] at h
      rcases ih h with rfl | ⟨hinside, declaration, hfind⟩
      · exact Or.inr ⟨hstrict, candidate.2, List.find?_cons_of_pos (beq_self_eq_true _)⟩
      · refine Or.inr ⟨hstrict.trans hinside, declaration, ?_⟩
        rwa [List.find?_cons_of_neg]
        exact fun heq => hinside.2 (eq_of_beq heq)
    · rw [narrower_of_not_strictlyEncloses hstrict] at h
      rcases ih h with rfl | ⟨hinside, declaration, hfind⟩
      · exact Or.inl rfl
      · refine Or.inr ⟨hinside, declaration, ?_⟩
        rwa [List.find?_cons_of_neg]
        exact fun heq => hstrict (eq_of_beq heq ▸ hinside)

/-- The scan of some candidates ends at an innermost range, at the first candidate that has it. -/
theorem exists_innermost_of_scan {candidates : List (SymbolId × Declaration)}
    (hne : candidates ≠ []) :
    ∃ id declaration,
      candidates.foldl narrower none = some (id, declaration.location.range) ∧
      candidates.find? (hasRange declaration.location.range ·.2) = some (id, declaration) ∧
      ∀ candidate ∈ candidates,
        ¬declaration.location.range.StrictlyEncloses candidate.2.location.range := by
  obtain ⟨first, rest, rfl⟩ := List.exists_cons_of_ne_nil hne
  obtain ⟨last, hlast, hinside, hnone⟩ := exists_scan rest (first.1, first.2.location.range)
  have hminimal : ∀ candidate ∈ first :: rest,
      ¬last.2.StrictlyEncloses candidate.2.location.range :=
    List.forall_mem_cons.2 ⟨Range.not_strictlyEncloses_of_encloses hinside, hnone⟩
  rcases find?_of_scan hlast with rfl | ⟨hstrict, declaration, hfind⟩
  · exact ⟨first.1, first.2, hlast, List.find?_cons_of_pos (beq_self_eq_true _), hminimal⟩
  · have htest := List.find?_some (p := (hasRange last.2 ∘ Prod.snd)) hfind
    have hrange : declaration.location.range = last.2 := eq_of_beq htest
    refine ⟨last.1, declaration, hrange ▸ hlast, ?_, hrange ▸ hminimal⟩
    rw [hrange, List.find?_cons_of_neg, hfind]
    exact fun heq => hstrict.2 (eq_of_beq heq)

/-! ## Places of declarations -/

/-- The first declaration that passes a test belongs to the first symbol that has such a
declaration. -/
theorem exists_place_of_find? (test : Declaration → Bool) {id : SymbolId}
    {declaration : Declaration}
    (h : g.declarations.find? (fun candidate => test candidate.2) = some (id, declaration)) :
    ∃ n, id = .ofIndex n ∧ g.DeclaresAt n declaration ∧
      ∀ m < n, ∀ other, g.DeclaresAt m other → test other = false := by
  rw [declarations, List.find?_flatMap] at h
  obtain ⟨before, ⟨record, n⟩, after, hsplit, hfound, hnone⟩ := List.findSome?_eq_some_iff.1 h
  have hplace : (before ++ (record, n) :: after)[before.length]? = some (record, n) := by
    rw [List.getElem?_append_right le_rfl, Nat.sub_self]
    rfl
  rw [← hsplit, List.getElem?_zipIdx] at hplace
  obtain ⟨_, hrecord, heq⟩ := Option.map_eq_some_iff.1 hplace
  obtain ⟨rfl, rfl⟩ := Prod.mk.inj heq
  obtain ⟨_, hmem, heq⟩ := List.mem_map.1 (List.mem_of_find?_eq_some hfound)
  obtain ⟨rfl, rfl⟩ := Prod.mk.inj heq
  refine ⟨_, rfl, ⟨_, ?_, hmem⟩, fun m hm other hother => ?_⟩
  · rw [Nat.zero_add, ← Array.getElem?_toList]
    exact hrecord
  · obtain ⟨record', hrecord', hmem'⟩ := hother
    rw [Nat.zero_add] at hm
    have hbefore : (record', m) ∈ before := by
      refine List.mem_of_getElem? (i := m) ?_
      rw [← List.getElem?_append_left hm, ← hsplit, List.getElem?_zipIdx, Array.getElem?_toList,
        hrecord', Option.map_some, Nat.zero_add]
    have hnot := List.find?_eq_none.1 (hnone _ hbefore) _ (List.mem_map_of_mem hmem')
    exact eq_false_of_ne_true hnot

/-- The declarations in a file around a position, with their symbols. -/
def around (g : TypeGraph) (fileName : String) (position : Position) :
    List (SymbolId × Declaration) :=
  g.declarations.filter fun candidate => isAround fileName position candidate.2

section

variable {fileName : String} {position : Position}

theorem symbolAt?_eq :
    g.symbolAt? fileName position = ((g.around fileName position).foldl narrower none).map (·.1) :=
  rfl

theorem Declares.exists_mem_around {declaration : Declaration} (hdeclares : g.Declares declaration)
    (haround : declaration.Around fileName position) :
    ∃ id, (id, declaration) ∈ g.around fileName position := by
  obtain ⟨id, hmem⟩ := hdeclares.exists_mem
  exact ⟨id, List.mem_filter.2 ⟨hmem, isAround_iff.2 haround⟩⟩

theorem around_eq_nil_iff :
    g.around fileName position = [] ↔
      ∀ declaration, g.Declares declaration → ¬declaration.Around fileName position := by
  constructor
  · intro hnil declaration hdeclares haround
    obtain ⟨id, hmem⟩ := hdeclares.exists_mem_around haround
    rw [hnil] at hmem
    cases hmem
  · refine fun h => List.filter_eq_nil_iff.2 fun candidate hmem htest => ?_
    exact h candidate.2 (mem_declarations hmem) (isAround_iff.1 htest)

/-- The first declaration around a position with an innermost range makes its symbol the first one
that declares this range. -/
theorem exists_innermost {id : SymbolId} {declaration : Declaration}
    (hfind : (g.around fileName position).find? (hasRange declaration.location.range ·.2) =
      some (id, declaration))
    (hminimal : ∀ candidate ∈ g.around fileName position,
      ¬declaration.location.range.StrictlyEncloses candidate.2.location.range) :
    ∃ n, id = .ofIndex n ∧ g.Innermost fileName position n declaration.location.range := by
  have haround : declaration.Around fileName position :=
    isAround_iff.1 (List.mem_filter.1 (List.mem_of_find?_eq_some hfind)).2
  rw [around, List.find?_filter] at hfind
  obtain ⟨n, hid, hdeclares, hfirst⟩ := exists_place_of_find?
    (fun other => isAround fileName position other = true ∧
      hasRange declaration.location.range other = true) hfind
  refine ⟨n, hid, ⟨declaration, hdeclares, haround, rfl⟩, fun other hother hin => ?_,
    fun m hm other hother hfile hrange => ?_⟩
  · obtain ⟨id', hmem⟩ := hother.exists_mem_around hin
    exact hminimal _ hmem
  · -- with the same range, the other declaration is around the position too
    have hin : other.Around fileName position := ⟨hfile, hrange ▸ haround.contains⟩
    refine of_decide_eq_false (hfirst m hm other hother) ⟨isAround_iff.2 hin, ?_⟩
    exact beq_iff_eq.2 hrange

end

/-! ## The symbol at a position -/

/-- There is a symbol at a position just when a declaration lies around it. It is then the first one
that declares some innermost range. -/
theorem symbolAt?_innermost (g : TypeGraph) (fileName : String) (position : Position) :
    (g.symbolAt? fileName position = none ↔
      ∀ declaration, g.Declares declaration → ¬declaration.Around fileName position) ∧
    ∀ id, g.symbolAt? fileName position = some id →
      ∃ n range, id = .ofIndex n ∧ g.Innermost fileName position n range := by
  rw [← around_eq_nil_iff, symbolAt?_eq]
  by_cases hnil : g.around fileName position = []
  · rw [hnil]
    exact ⟨⟨fun _ => rfl, fun _ => rfl⟩, fun id h => absurd h.symm (Option.some_ne_none id)⟩
  · obtain ⟨kept, declaration, hscan, hfind, hminimal⟩ := exists_innermost_of_scan hnil
    rw [hscan]
    refine ⟨⟨fun h => absurd h (Option.some_ne_none _), fun h => absurd h hnil⟩, fun id h => ?_⟩
    obtain ⟨n, hkept, hinnermost⟩ := exists_innermost hfind hminimal
    exact ⟨n, _, (Option.some.inj h).symm.trans hkept, hinnermost⟩

end TypeGraph

end TypeAtlas
