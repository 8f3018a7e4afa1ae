import TypeAtlas.Proofs.Merge.Mirror
import TypeAtlas.Proofs.Program.Frame
/-!
# Expansions after expansions

The answer to an expansion does not depend on the expansions before it
(`Program.expandedAt_afterExpansions`): the location names the same type of the program as in the
beginning, and merging this type in the grown graph takes the same steps under other handles.
-/

namespace TypeAtlas

open TypeGraph

namespace Program

/-- Printing what is made of the type that a location names comes to an end. -/
def Prints (p : Program) (location : Location) : Prop :=
  ∀ root ∈ p.rootAt? location,
    (Build.expand (p.typeOfRoot root) p.config p.graph).2.Prints
      (Build.expand (p.typeOfRoot root) p.config p.graph).1

instance (p : Program) (location : Location) : Decidable (p.Prints location) :=
  inferInstanceAs (Decidable (∀ root ∈ p.rootAt? location, _))

theorem type_occurrenceOf (p : Program) (root : TreeRoot) :
    (p.graph.occurrenceOf root).type = p.typeOfRoot root := by
  cases root <;> rfl

namespace Follows

variable {p q : Program} (hpq : p.Follows q)

include hpq

/-- What a location names has the same type as before. -/
theorem typeOfRoot_eq (htypes : q.graph.types.size ≤ UInt32.size) {root : TreeRoot}
    (hroot : p.graph.HasPlace (p.graph.occurrenceOf root)) :
    q.typeOfRoot root = p.typeOfRoot root := by
  cases root with
  | symbol symbol => exact (hpq.appends.extends_of_le htypes).typeOf_eq (hroot.symbol rfl)
  | type type => rfl
  | symbolWithType symbol type => rfl

/-- An expansion has the same answer as before. -/
theorem expandedAt_eq (hp : p.graph.Closed) (hacyclic : p.graph.AcyclicIntersections)
    {location : Location} (hfits : (q.expandedAt location).2.graph.Fits)
    (hprints : p.Prints location) : (q.expandedAt location).1 = (p.expandedAt location).1 := by
  have hroom : q.graph.Fits := (q.follows_expandedAt location).appends.fits hfits
  have hextends := hpq.appends.extends_of_fits hroom
  have hsymbols : p.graph.symbols.size ≤ UInt32.size :=
    hextends.symbols_size.trans hroom.symbols
  have hsame := hpq.rootAt?_eq hsymbols hroom.types location
  cases hroot : p.rootAt? location with
  | none =>
    rw [expandedAt_of_rootAt?_eq_none hroot,
      expandedAt_of_rootAt?_eq_none (hsame.trans hroot)]
  | some root =>
    have hplace := hasPlace_of_rootAt? hp hsymbols hroot
    have htype : p.graph.HasType (p.typeOfRoot root) := p.type_occurrenceOf root ▸ hplace.type
    rw [expandedAt_of_rootAt? (hsame.trans hroot), hpq.typeOfRoot_eq hroom.types hplace,
      hpq.config] at hfits ⊢
    rw [expandedAt_of_rootAt? hroot]
    exact congrArg some (Build.expandToText_eq hp hacyclic hextends htype p.config hfits
      (prints_iff.1 (hprints root hroot)))

end Follows

/-- Expansions are repeatable: after any number of them, at whatever locations, each location is
expanded to the text that it has in the program as it was. -/
theorem expandedAt_afterExpansions (p : Program) (earlier : List Location) (location : Location)
    (hp : p.graph.Closed) (hacyclic : p.graph.AcyclicIntersections) (hprints : p.Prints location)
    (hfits : ((p.afterExpansions earlier).expandedAt location).2.graph.Fits) :
    ((p.afterExpansions earlier).expandedAt location).1 = (p.expandedAt location).1 :=
  (p.follows_afterExpansions earlier).expandedAt_eq hp hacyclic hfits hprints

/-- The variable of `merged`, for the third time. -/
theorem expandedAt_afterExpansions_merged :
    (merged.expandedAt mergedLocation).1 = some "\x7b a: string & number; \x7d" ∧
      ((merged.afterExpansions [mergedLocation, mergedLocation]).expandedAt mergedLocation).1 =
        (merged.expandedAt mergedLocation).1 :=
  ⟨by decide +kernel, expandedAt_afterExpansions merged _ _ (by decide +kernel)
    (acyclicIntersections_of_bottomUp (by decide +kernel)) (by decide +kernel) (by decide +kernel)⟩

end Program

end TypeAtlas
