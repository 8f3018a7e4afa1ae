import TypeAtlas.Proofs.Graph.Handles
/-!
# Symbols by position

The scan for the symbol at a position keeps a declaration until it meets one strictly inside it, so
in the end no declaration around the position lies strictly inside the one that was kept
(`TypeGraph.exists_scan`). Declarations after these that are copies of them change nothing then,
whatever ranges overlap (`TypeGraph.Extends.symbolAt?_eq`).
-/

namespace TypeAtlas

/-! ## Ranges inside each other -/

namespace Position

theorem upTo_iff {a b : Position} :
    a.upTo b = true ↔ a.line.toNat < b.line.toNat ∨
      a.line.toNat = b.line.toNat ∧ a.character.toNat ≤ b.character.toNat := by
  simp only [upTo, before, Bool.not_eq_true', Bool.or_eq_false_iff, decide_eq_false_iff_not,
    Bool.and_eq_false_iff, beq_eq_false_iff_ne, ne_eq, ← UInt32.toNat_inj, UInt32.lt_iff_toNat_lt]
  omega

theorem upTo_trans {a b c : Position} (hab : a.upTo b = true) (hbc : b.upTo c = true) :
    a.upTo c = true := by
  rw [upTo_iff] at *
  omega

theorem upTo_antisymm {a b : Position} (hab : a.upTo b = true) (hba : b.upTo a = true) : a = b := by
  rw [upTo_iff] at *
  obtain ⟨line, character⟩ := a
  obtain ⟨line', character'⟩ := b
  rw [mk.injEq, ← UInt32.toNat_inj, ← UInt32.toNat_inj]
  dsimp only at hab hba
  omega

end Position

namespace Range

theorem encloses_iff {r s : Range} :
    r.encloses s = true ↔ r.start.upTo s.start = true ∧ s.stop.upTo r.stop = true :=
  Bool.and_eq_true_iff

theorem encloses_trans {r s t : Range} (hrs : r.encloses s = true) (hst : s.encloses t = true) :
    r.encloses t = true := by
  rw [encloses_iff] at *
  exact ⟨Position.upTo_trans hrs.1 hst.1, Position.upTo_trans hst.2 hrs.2⟩

theorem encloses_antisymm {r s : Range} (hrs : r.encloses s = true) (hsr : s.encloses r = true) :
    r = s := by
  rw [encloses_iff] at *
  obtain ⟨start, stop⟩ := r
  obtain ⟨start', stop'⟩ := s
  rw [mk.injEq]
  exact ⟨Position.upTo_antisymm hrs.1 hsr.1, Position.upTo_antisymm hsr.2 hrs.2⟩

theorem encloses_refl (r : Range) : r.encloses r = true := by
  simp [encloses_iff, Position.upTo_iff]

/-- The other range lies in this one and is not the same. -/
def StrictlyEncloses (r s : Range) : Prop :=
  r.encloses s = true ∧ r ≠ s

/-- Nothing strictly encloses a range that encloses it. -/
theorem not_strictlyEncloses_of_encloses {r s : Range} (h : r.encloses s = true) :
    ¬s.StrictlyEncloses r :=
  fun hstrict => hstrict.2 (encloses_antisymm hstrict.1 h)

end Range

/-- A declaration of one of the symbols of a graph. -/
def TypeGraph.Declares (g : TypeGraph) (declaration : Declaration) : Prop :=
  ∃ record ∈ g.symbols, declaration ∈ record.declarations

/-- All declarations of the second graph are declarations of the first one. -/
def TypeGraph.Redeclares (g h : TypeGraph) : Prop :=
  ∀ declaration : Declaration, h.Declares declaration → g.Declares declaration

namespace TypeGraph

variable {g h k : TypeGraph}

theorem Redeclares.refl (g : TypeGraph) : g.Redeclares g :=
  fun _ => id

theorem Redeclares.trans (hgh : g.Redeclares h) (hhk : h.Redeclares k) : g.Redeclares k :=
  fun declaration => hgh declaration ∘ hhk declaration

/-! ## The scan -/

theorem narrower_of_strictlyEncloses {symbol : SymbolId} {outer : Range}
    {candidate : SymbolId × Declaration}
    (h : outer.StrictlyEncloses candidate.2.location.range) :
    narrower (some (symbol, outer)) candidate =
      some (candidate.1, candidate.2.location.range) := by
  simp [narrower, h.1, h.2]

theorem narrower_of_not_strictlyEncloses {best : SymbolId × Range}
    {candidate : SymbolId × Declaration}
    (h : ¬best.2.StrictlyEncloses candidate.2.location.range) :
    narrower (some best) candidate = some best := by
  simp only [narrower]
  refine if_neg fun hstrict => h ?_
  simpa [Range.StrictlyEncloses] using hstrict

/-- What is kept in the end lies in what was kept before, and no candidate lies strictly in it. -/
theorem exists_scan (candidates : List (SymbolId × Declaration)) (first : SymbolId × Range) :
    ∃ last : SymbolId × Range, candidates.foldl narrower (some first) = some last ∧
      first.2.encloses last.2 = true ∧
      ∀ candidate ∈ candidates, ¬last.2.StrictlyEncloses candidate.2.location.range := by
  induction candidates generalizing first with
  | nil => exact ⟨first, rfl, first.2.encloses_refl, List.forall_mem_nil _⟩
  | cons candidate candidates ih =>
    rw [List.foldl_cons]
    by_cases hstrict : first.2.StrictlyEncloses candidate.2.location.range
    · rw [narrower_of_strictlyEncloses hstrict]
      obtain ⟨last, hlast, hinside, hnone⟩ := ih (candidate.1, candidate.2.location.range)
      refine ⟨last, hlast, Range.encloses_trans hstrict.1 hinside, ?_⟩
      exact List.forall_mem_cons.2 ⟨Range.not_strictlyEncloses_of_encloses hinside, hnone⟩
    · rw [narrower_of_not_strictlyEncloses hstrict]
      obtain ⟨last, hlast, hinside, hnone⟩ := ih first
      refine ⟨last, hlast, hinside, List.forall_mem_cons.2 ⟨fun hin => ?_, hnone⟩⟩
      -- the candidate would lie in what was kept before, so it would be the same range
      by_cases heq : first.2 = candidate.2.location.range
      · exact Range.not_strictlyEncloses_of_encloses (heq ▸ hinside) hin
      · exact hstrict ⟨Range.encloses_trans hinside hin.1, heq⟩

/-- Candidates that do not lie strictly in what was kept change nothing. -/
theorem scan_of_not_strictlyEncloses {best : SymbolId × Range}
    {candidates : List (SymbolId × Declaration)}
    (h : ∀ candidate ∈ candidates, ¬best.2.StrictlyEncloses candidate.2.location.range) :
    candidates.foldl narrower (some best) = some best := by
  induction candidates with
  | nil => rfl
  | cons candidate candidates ih =>
    rw [List.forall_mem_cons] at h
    rw [List.foldl_cons, narrower_of_not_strictlyEncloses h.1, ih h.2]

/-- Candidates after the ones whose declarations they repeat change nothing. -/
theorem scan_append_copies {candidates copies : List (SymbolId × Declaration)}
    (h : ∀ copy ∈ copies, ∃ candidate ∈ candidates, candidate.2 = copy.2) :
    (candidates ++ copies).foldl narrower none = candidates.foldl narrower none := by
  rw [List.foldl_append]
  cases candidates with
  | nil =>
    have hnil : copies = [] :=
      List.eq_nil_iff_forall_not_mem.2 fun copy hcopy => by simpa using h copy hcopy
    rw [hnil]
    rfl
  | cons first candidates =>
    rw [List.foldl_cons]
    obtain ⟨last, hlast, hinside, hnone⟩ :=
      exists_scan candidates (first.1, first.2.location.range)
    have hkept : candidates.foldl narrower (narrower none first) = some last := hlast
    rw [hkept]
    refine scan_of_not_strictlyEncloses fun copy hcopy => ?_
    obtain ⟨candidate, hcandidate, heq⟩ := h copy hcopy
    rw [← heq]
    rcases List.mem_cons.1 hcandidate with rfl | hmem
    · exact Range.not_strictlyEncloses_of_encloses hinside
    · exact hnone candidate hmem

/-- What is kept is one of the candidates. -/
theorem mem_of_scan {candidates : List (SymbolId × Declaration)} {best : Option (SymbolId × Range)}
    {last : SymbolId × Range} (h : candidates.foldl narrower best = some last) :
    best = some last ∨ ∃ candidate ∈ candidates, candidate.1 = last.1 := by
  induction candidates generalizing best with
  | nil => exact Or.inl h
  | cons candidate candidates ih =>
    rw [List.foldl_cons] at h
    rcases ih h with hkept | ⟨later, hlater, heq⟩
    · have hcases : narrower best candidate = best ∨
          narrower best candidate = some (candidate.1, candidate.2.location.range) := by
        rcases best with _ | ⟨symbol, outer⟩
        · exact Or.inr rfl
        · unfold narrower
          dsimp only
          split
          · exact Or.inr rfl
          · exact Or.inl rfl
      rcases hcases with hsame | hnew
      · exact Or.inl (hsame ▸ hkept)
      · refine Or.inr ⟨candidate, List.mem_cons_self, ?_⟩
        rw [hnew] at hkept
        exact congrArg Prod.fst (Option.some.inj hkept)
    · exact Or.inr ⟨later, List.mem_cons_of_mem _ hlater, heq⟩

/-- The symbol at a position is a symbol of the graph. -/
theorem hasSymbol_of_symbolAt? (hsize : g.symbols.size ≤ UInt32.size) {fileName : String}
    {position : Position} {id : SymbolId} (hid : g.symbolAt? fileName position = some id) :
    g.HasSymbol id := by
  obtain ⟨last, hlast, rfl⟩ := Option.map_eq_some_iff.1 hid
  rcases mem_of_scan hlast with hnone | ⟨candidate, hcandidate, heq⟩
  · cases hnone
  obtain ⟨⟨record, n⟩, hrecord, hmem⟩ := List.mem_flatMap.1 (List.mem_filter.1 hcandidate).1
  obtain ⟨declaration, -, rfl⟩ := List.mem_map.1 hmem
  have hn : n < g.symbols.size :=
    (Array.getElem?_eq_some_iff.1
      (Array.getElem?_toList.symm.trans (List.mem_zipIdx_iff_getElem?.1 hrecord))).1
  rw [← heq, HasSymbol, SymbolId.index_ofIndex (hn.trans_le hsize)]
  exact hn

/-! ## Symbols of an extended graph -/

theorem mem_declarations {id : SymbolId} {declaration : Declaration}
    (hmem : (id, declaration) ∈ g.declarations) : g.Declares declaration := by
  obtain ⟨⟨record, n⟩, hrecord, hdeclaration⟩ := List.mem_flatMap.1 hmem
  obtain ⟨_, h, heq⟩ := List.mem_map.1 hdeclaration
  obtain ⟨-, rfl⟩ := Prod.mk.inj heq
  exact ⟨record, Array.mem_toList_iff.1 (List.fst_mem_of_mem_zipIdx hrecord), h⟩

theorem Declares.exists_mem {declaration : Declaration} (hdeclares : g.Declares declaration) :
    ∃ id, (id, declaration) ∈ g.declarations := by
  obtain ⟨record, hrecord, hdeclaration⟩ := hdeclares
  obtain ⟨n, hn⟩ := Array.mem_iff_getElem?.1 hrecord
  refine ⟨.ofIndex n, List.mem_flatMap.2 ⟨(record, n), ?_, List.mem_map_of_mem hdeclaration⟩⟩
  exact List.mem_zipIdx_iff_getElem?.2 (Array.getElem?_toList.trans hn)

theorem Extends.declarations_eq (hgh : g.Extends h) :
    ∃ rest, h.declarations = g.declarations ++ rest := by
  have hbefore : h.symbols.toList = g.symbols.toList ++ h.symbols.toList.drop g.symbols.size := by
    rw [← List.take_append_drop g.symbols.size h.symbols.toList]
    congr 1
    · apply List.ext_getElem?
      intro n
      rw [List.getElem?_take]
      split
      · next hn => rw [Array.getElem?_toList, Array.getElem?_toList, hgh.symbols n hn]
      · next hn => exact (List.getElem?_eq_none (not_lt.1 hn)).symm
    · rw [List.take_append_drop]
  unfold declarations
  rw [hbefore, List.zipIdx_append, List.flatMap_append]
  exact ⟨_, rfl⟩

/-- When all declarations of an extended graph are declarations of the graph, each position leads to
the same symbol as before. -/
theorem Extends.symbolAt?_eq (hgh : g.Extends h) (hcopies : g.Redeclares h) (fileName : String)
    (position : Position) : h.symbolAt? fileName position = g.symbolAt? fileName position := by
  obtain ⟨rest, hrest⟩ := hgh.declarations_eq
  unfold symbolAt?
  dsimp only
  rw [hrest, List.filter_append, scan_append_copies]
  rintro ⟨id, declaration⟩ hcopy
  obtain ⟨hmem, haround⟩ := List.mem_filter.1 hcopy
  have hdeclares : h.Declares declaration :=
    mem_declarations (hrest ▸ List.mem_append_right g.declarations hmem)
  obtain ⟨id', hid'⟩ := (hcopies declaration hdeclares).exists_mem
  exact ⟨(id', declaration), List.mem_filter.2 ⟨hid', haround⟩, rfl⟩

end TypeGraph

end TypeAtlas
