import TypeAtlas.Proofs.View.Unwrap
/-!
# The way to the node that is viewed

Unwrapping passes one array or reference after the other (`Passes`). A reference leads to any tree,
so the way need not lead down, and it may come back to where it was; but unwrapping follows
`maxReferenceHops` references and no more, and below each of them it only goes down. Either it ends
at a node that is neither an array nor a reference, with one dimension for each array that it
passed, or at a reference that is a dead end or one too many (`Unwrapped.unwrapping_ends`).
-/

namespace TypeAtlas

/-- What is passed on the way: an array or a reference. -/
inductive Passage where
  | array (readonly : Bool)
  | reference (location : Option Location)
  deriving DecidableEq, Inhabited, Repr

namespace Passage

/-- The arrays that were passed, each with whether it is read-only. -/
def arrays (passed : List Passage) : List Bool :=
  passed.filterMap fun
    | array readonly => some readonly
    | reference _ => none

/-- The references that were passed, each with its location. -/
def references (passed : List Passage) : List (Option Location) :=
  passed.filterMap fun
    | array _ => none
    | reference location => some location

end Passage

open Passage

/-- A node with the root in whose scope it is. -/
structure Place where
  node : TypeTree
  root : Root

namespace Unwrapped

/-- The place that unwrapping has come to. -/
def place (u : Unwrapped) : Place :=
  ⟨u.node, u.root⟩

end Unwrapped

/-- What a retriever answers for a location. -/
def answer? (retriever : Option Retriever) (location : Location) :
    Option (Except Failure (Option TypeTree)) :=
  retriever.map (· location)

/-- The way from one place to another: from an array to its element, from a reference to the node of
its id in the scope, and from a reference with a location to the tree that is retrieved. -/
inductive Passes (retriever : Option Retriever) : Place → List Passage → Place → Prop
  | stop (place : Place) : Passes retriever place [] place
  | array {place last : Place} {element : TypeTree} {readonly : Bool} {passed : List Passage} :
      place.node.shape = .array element readonly →
      Passes retriever ⟨element, place.root⟩ passed last →
      Passes retriever place (.array readonly :: passed) last
  | inScope {place last : Place} {target : TypeTree} {passed : List Passage} :
      place.node.shape = .reference none →
      place.root.scope.get? place.node.id = some target →
      Passes retriever ⟨target, place.root⟩ passed last →
      Passes retriever place (.reference none :: passed) last
  | retrieved {place last : Place} {location : Location} {tree : TypeTree}
      {passed : List Passage} :
      place.node.shape = .reference (some location) →
      answer? retriever location = some (.ok (some tree)) →
      Passes retriever ⟨tree, .ofTree tree⟩ passed last →
      Passes retriever place (.reference (some location) :: passed) last

/-- A reference that leads nowhere, and why. -/
inductive DeadEnd (retriever : Option Retriever) (place : Place) : ViewError → Prop
  | outOfScope : place.node.shape = .reference none →
      place.root.scope.get? place.node.id = none →
      DeadEnd retriever place (.invalidReference place.node.id)
  | noRetriever {location : Location} : place.node.shape = .reference (some location) →
      answer? retriever location = none → DeadEnd retriever place (.missingRetriever location)
  | failed {location : Location} {failure : Failure} :
      place.node.shape = .reference (some location) →
      answer? retriever location = some (.error failure) →
      DeadEnd retriever place (.retriever failure)
  | nothing {location : Location} : place.node.shape = .reference (some location) →
      answer? retriever location = some (.ok none) →
      DeadEnd retriever place (.unresolvedLocation location)

section

variable {retriever : Option Retriever}

theorem Passes.trans {a b c : Place} {passed more : List Passage}
    (hab : Passes retriever a passed b) (hbc : Passes retriever b more c) :
    Passes retriever a (passed ++ more) c := by
  induction hab with
  | stop place => exact hbc
  | array hshape _ ih => exact .array hshape (ih hbc)
  | inScope hshape htarget _ ih => exact .inScope hshape htarget (ih hbc)
  | retrieved hshape htree _ ih => exact .retrieved hshape htree (ih hbc)

theorem DeadEnd.isReference {place : Place} {error : ViewError}
    (h : DeadEnd retriever place error) : place.node.shape.isReference = true := by
  cases h with
  | outOfScope hshape _ => exact Shape.isReference_iff.2 ⟨_, hshape⟩
  | noRetriever hshape _ => exact Shape.isReference_iff.2 ⟨_, hshape⟩
  | failed hshape _ => exact Shape.isReference_iff.2 ⟨_, hshape⟩
  | nothing hshape _ => exact Shape.isReference_iff.2 ⟨_, hshape⟩

end

namespace Unwrapped

variable {retriever : Option Retriever}

/-- What has been counted after something was passed. -/
structure Counts (u : Unwrapped) (passed : List Passage) (v : Unwrapped) : Prop where
  dimension : v.dimension = u.dimension + (arrays passed).length
  readonlyArray : v.readonlyArray = (u.readonlyArray || (arrays passed).contains true)

theorem Counts.trans {u v w : Unwrapped} {passed more : List Passage} (huv : u.Counts passed v)
    (hvw : v.Counts more w) : u.Counts (passed ++ more) w where
  dimension := by
    rw [hvw.dimension, huv.dimension, arrays, arrays, arrays, List.filterMap_append,
      List.length_append, Nat.add_assoc]
  readonlyArray := by
    rw [hvw.readonlyArray, huv.readonlyArray, arrays, arrays, arrays, List.filterMap_append,
      List.contains_append, Bool.or_assoc]

/-- Peeling passes arrays and nothing else. -/
theorem exists_passes_peel (retriever : Option Retriever) (u : Unwrapped) :
    ∃ passed, Passes retriever u.place passed u.peel.place ∧ references passed = [] ∧
      u.Counts passed u.peel := by
  refine peel_rec (motive := fun u v => ∃ passed, Passes retriever u.place passed v.place ∧
    references passed = [] ∧ u.Counts passed v) (fun u _ => ?_)
    (fun u element readonly hshape ih => ?_) u
  · exact ⟨[], .stop _, rfl, rfl, by simp [arrays]⟩
  · obtain ⟨passed, hpasses, hnone, hcounts⟩ := ih
    refine ⟨.array readonly :: passed, .array hshape hpasses, hnone, ?_, ?_⟩
    · rw [hcounts.dimension]
      simp only [inside, arrays, List.filterMap_cons, List.length_cons]
      omega
    · rw [hcounts.readonlyArray]
      simp [inside, arrays, Bool.or_assoc]

/-- Following a reference passes it, unless it is a dead end. -/
theorem follow_cases (retriever : Option Retriever) {u : Unwrapped} {location : Option Location}
    (hshape : u.node.shape = .reference location) :
    (∃ next, u.follow retriever location = .ok next ∧
      Passes retriever u.place [.reference location] next.place ∧
      u.Counts [.reference location] next) ∨
    ∃ error, u.follow retriever location = .error error ∧ DeadEnd retriever u.place error := by
  have hcounts : ∀ next : Unwrapped, next.dimension = u.dimension →
      next.readonlyArray = u.readonlyArray → u.Counts [.reference location] next :=
    fun next hdimension hreadonly => ⟨hdimension, hreadonly.trans (Bool.or_false _).symm⟩
  cases location with
  | none =>
    cases htarget : u.root.scope.get? u.node.id with
    | none =>
      refine Or.inr ⟨.invalidReference u.node.id, ?_, .outOfScope hshape htarget⟩
      simp only [follow, htarget]
    | some target =>
      refine Or.inl ⟨{ u with node := target }, ?_, ?_, hcounts _ rfl rfl⟩
      · simp only [follow, htarget]
      · exact .inScope hshape htarget (.stop _)
  | some location =>
    cases retriever with
    | none => exact Or.inr ⟨_, rfl, .noRetriever hshape rfl⟩
    | some retrieve =>
      cases hanswer : retrieve location with
      | error failure =>
        exact Or.inr ⟨_, by simp only [follow, hanswer], .failed hshape (congrArg some hanswer)⟩
      | ok answer =>
        cases answer with
        | none =>
          exact Or.inr ⟨_, by simp only [follow, hanswer], .nothing hshape (congrArg some hanswer)⟩
        | some tree =>
          refine Or.inl ⟨{ u with
            node := tree
            root := .ofTree tree
            symbol := u.symbol.or tree.symbolMeta }, by simp only [follow, hanswer], ?_,
            hcounts _ rfl rfl⟩
          exact .retrieved hshape (congrArg some hanswer) (.stop _)

/-- How unwrapping can end if it follows a number of references and no more. -/
inductive Ends (retriever : Option Retriever) (hops : Nat) (u : Unwrapped) :
    Except ViewError Unwrapped → Prop
  | reached {v : Unwrapped} {passed : List Passage} :
      Passes retriever u.place passed v.place → (references passed).length ≤ hops →
      v.node.shape.isUnwrapped = true → u.Counts passed v → Ends retriever hops u (.ok v)
  | deadEnd {last : Place} {passed : List Passage} {error : ViewError} :
      Passes retriever u.place passed last → (references passed).length < hops →
      DeadEnd retriever last error → Ends retriever hops u (.error error)
  | tooMany {last : Place} {passed : List Passage} :
      Passes retriever u.place passed last → (references passed).length = hops →
      last.node.shape.isReference = true →
      Ends retriever hops u (.error (.referenceChainTooLong maxReferenceHops))

/-- What is passed first is passed as well. -/
theorem Ends.after {hops : Nat} {u next : Unwrapped} {passed : List Passage}
    {result : Except ViewError Unwrapped} (hnext : next.Ends retriever hops result)
    (hpasses : Passes retriever u.place passed next.place) (hcounts : u.Counts passed next) :
    u.Ends retriever ((references passed).length + hops) result := by
  have hlength : ∀ more, (references (passed ++ more)).length =
      (references passed).length + (references more).length := fun more => by
    rw [references, List.filterMap_append, List.length_append, references, references]
  cases hnext with
  | reached hmore hle hend hcounts' =>
    refine .reached (hpasses.trans hmore) ?_ hend (hcounts.trans hcounts')
    rw [hlength]
    omega
  | deadEnd hmore hlt hdead =>
    refine .deadEnd (hpasses.trans hmore) ?_ hdead
    rw [hlength]
    omega
  | tooMany hmore heq hreference =>
    refine .tooMany (hpasses.trans hmore) ?_ hreference
    rw [hlength, heq]

theorem Ends.of_peel {hops : Nat} {u : Unwrapped} {result : Except ViewError Unwrapped}
    (h : u.peel.Ends retriever hops result) : u.Ends retriever hops result := by
  obtain ⟨passed, hpasses, hnone, hcounts⟩ := u.exists_passes_peel retriever
  have hafter := h.after hpasses hcounts
  rwa [hnone, List.length_nil, Nat.zero_add] at hafter

theorem Ends.of_isUnwrapped {hops : Nat} {u : Unwrapped} (h : u.node.shape.isUnwrapped = true) :
    u.Ends retriever hops (.ok u) :=
  .reached (.stop _) (Nat.zero_le _) h ⟨rfl, (Bool.or_false _).symm⟩

/-- By induction on the number of references that may be followed; between two of them, unwrapping
goes down to elements. -/
theorem ends_resolve (retriever : Option Retriever) (hops : Nat) (u : Unwrapped) :
    u.Ends retriever hops (u.resolve retriever hops) := by
  refine Ends.of_peel ?_
  induction hops generalizing u with
  | zero =>
    rcases u.resolve_cases retriever 0 with
      ⟨hend, heq⟩ | ⟨location, hshape, ⟨-, heq⟩ | ⟨below, hbelow, -⟩⟩
    · rw [heq]
      exact .of_isUnwrapped hend
    · rw [heq]
      exact .tooMany (.stop _) rfl (Shape.isReference_iff.2 ⟨location, hshape⟩)
    · cases hbelow
  | succ hops ih =>
    rcases u.resolve_cases retriever (hops + 1) with
      ⟨hend, heq⟩ | ⟨location, hshape, ⟨hzero, -⟩ | ⟨below, hbelow, heq⟩⟩
    · rw [heq]
      exact .of_isUnwrapped hend
    · cases hzero
    · cases hbelow
      rw [heq]
      rcases follow_cases retriever hshape with
        ⟨next, hfollow, hreference, hcounts⟩ | ⟨error, hfollow, hdead⟩ <;> rw [hfollow]
      · have hafter := (Ends.of_peel (ih next)).after hreference hcounts
        rwa [Nat.add_comm] at hafter
      · exact .deadEnd (.stop _) (Nat.succ_pos hops) hdead

/-! ## What is retrieved -/

theorem follow_congr {other : Option Retriever} {u : Unwrapped} {location : Option Location}
    (h : ∀ asked ∈ location.toList, answer? other asked = answer? retriever asked) :
    u.follow other location = u.follow retriever location := by
  cases location with
  | none => rfl
  | some location =>
    have hsame := h location (List.mem_singleton_self location)
    rcases other with _ | retrieve' <;> rcases retriever with _ | retrieve
    · rfl
    · cases hsame
    · cases hsame
    · have hanswer : retrieve' location = retrieve location := Option.some.inj hsame
      simp only [follow, hanswer]

/-- What unwrapping gives depends on what the retriever answers for a few locations only, at most
one for each reference that may be followed. -/
theorem exists_asked (retriever : Option Retriever) (hops : Nat) (u : Unwrapped) :
    ∃ asked : List Location, asked.length ≤ hops ∧ ∀ other : Option Retriever,
      (∀ location ∈ asked, answer? other location = answer? retriever location) →
        u.resolve other hops = u.resolve retriever hops := by
  induction hops generalizing u with
  | zero =>
    refine ⟨[], Nat.le_refl 0, fun other _ => ?_⟩
    by_cases hend : u.peel.node.shape.isReference = true
    · obtain ⟨location, hshape⟩ := Shape.isReference_iff.1 hend
      rw [resolve_zero hshape, resolve_zero hshape]
    · rw [resolve_of_peel (Bool.eq_false_iff.2 hend), resolve_of_peel (Bool.eq_false_iff.2 hend)]
  | succ hops ih =>
    by_cases hend : u.peel.node.shape.isReference = true
    · obtain ⟨location, hshape⟩ := Shape.isReference_iff.1 hend
      have hlocation : location.toList.length ≤ 1 := Option.length_toList_le
      cases hfollow : u.peel.follow retriever location with
      | error error =>
        refine ⟨location.toList, by omega, fun other hother => ?_⟩
        rw [resolve_succ hshape, resolve_succ hshape, follow_congr hother, hfollow]
        rfl
      | ok next =>
        obtain ⟨asked, hlength, hasked⟩ := ih next
        refine ⟨location.toList ++ asked, ?_, fun other hother => ?_⟩
        · rw [List.length_append]
          omega
        · rw [List.forall_mem_append] at hother
          rw [resolve_succ hshape, resolve_succ hshape, follow_congr hother.1, hfollow]
          exact hasked other hother.2
    · refine ⟨[], Nat.zero_le _, fun other _ => ?_⟩
      rw [resolve_of_peel (Bool.eq_false_iff.2 hend), resolve_of_peel (Bool.eq_false_iff.2 hend)]

/-- Unwrapping a node ends for every tree and every retriever. It passes at most 64 references and
asks the retriever for at most 64 locations. Either it comes to a node that is neither an array nor
a reference, with the number of arrays that it passed and whether one of them was read-only, or to a
reference that is a dead end, or that comes after 64 others. -/
theorem unwrapping_ends (retriever : Option Retriever) (tree : TypeTree) (root : Root)
    (symbol : Option SymbolMeta) :
    let start : Unwrapped := { node := tree, root, symbol }
    (∃ passed last, Passes retriever ⟨tree, root⟩ passed last ∧
      (references passed).length ≤ 64 ∧
      ((∃ v, start.resolve retriever maxReferenceHops = .ok v ∧ v.place = last ∧
          v.node.shape.isUnwrapped = true ∧ v.dimension = (arrays passed).length ∧
          (v.readonlyArray = true ↔ true ∈ arrays passed)) ∨
        ∃ error, start.resolve retriever maxReferenceHops = .error error ∧
          last.node.shape.isReference = true ∧
          (DeadEnd retriever last error ∧ (references passed).length < 64 ∨
            error = .referenceChainTooLong 64 ∧ (references passed).length = 64))) ∧
    ∃ asked : List Location, asked.length ≤ 64 ∧ ∀ other : Option Retriever,
      (∀ location ∈ asked, answer? other location = answer? retriever location) →
        start.resolve other maxReferenceHops = start.resolve retriever maxReferenceHops := by
  intro start
  refine ⟨?_, exists_asked retriever maxReferenceHops start⟩
  have hends := ends_resolve retriever maxReferenceHops start
  cases hresult : start.resolve retriever maxReferenceHops with
  | ok v =>
    rw [hresult] at hends
    obtain ⟨hpasses, hle, hend, hcounts⟩ := hends
    refine ⟨_, _, hpasses, hle, Or.inl ⟨v, rfl, rfl, hend, ?_, ?_⟩⟩
    · rw [hcounts.dimension, Nat.zero_add]
    · rw [hcounts.readonlyArray, Bool.false_or, List.contains_iff_mem]
  | error error =>
    rw [hresult] at hends
    cases hends with
    | deadEnd hpasses hlt hdead =>
      exact ⟨_, _, hpasses, Nat.le_of_lt hlt,
        Or.inr ⟨error, rfl, hdead.isReference, Or.inl ⟨hdead, hlt⟩⟩⟩
    | tooMany hpasses heq hreference =>
      exact ⟨_, _, hpasses, Nat.le_of_eq heq, Or.inr ⟨_, rfl, hreference, Or.inr ⟨rfl, heq⟩⟩⟩

end Unwrapped

end TypeAtlas
