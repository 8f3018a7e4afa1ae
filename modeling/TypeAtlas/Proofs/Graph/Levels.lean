import Mathlib.Data.Finset.Card
import Mathlib.Order.Monotone.Basic
import TypeAtlas.Graph.Builder
import TypeAtlas.Proofs.Graph.Printing
/-!
# How many levels printing needs

`TypeGraph.printLevels` is enough: a type that has a text with any number of levels has this text
with so many (`TypeGraph.typeText?_eq_some_iff`).

Printing goes on in the state that it began in until it enters an anonymous object. In one state,
each level prints what it can from what the level below prints, so once a level prints no more types
than the one below it, no level does (`TypeGraph.Settles.succ`). This happens after at most as many
levels as there are types, and anonymous objects are entered at most `Printer.depthLimit` times.

Since printing comes back to the state that it began in, a printer can be used for one type after
the other (`TypeGraph.printer_reusable`).
-/

namespace TypeAtlas

/-- The state inside of one more anonymous object. -/
def Printer.enter (p : Printer) (id : TypeId) : Printer where
  inProgress := id :: p.inProgress
  depth := p.depth + 1

/-- Both are in the same, given state. -/
def Printer.At (s p q : Printer) : Prop :=
  p = s ∧ q = s

namespace Print

variable {α β : Type} {s : Printer}

theorem refines_at_iff {x y : Print α} :
    Refines s.At x y ↔ ∀ a p, x s = some (a, p) → y s = some (a, p) ∧ p = s := by
  constructor
  · intro h a p hx
    obtain ⟨q, hy, rfl, rfl⟩ := h ⟨rfl, rfl⟩ hx
    exact ⟨hy, rfl⟩
  · rintro h _ _ ⟨rfl, rfl⟩ a p hx
    obtain ⟨hy, rfl⟩ := h a p hx
    exact ⟨_, hy, rfl, rfl⟩

/-- Printing goes on inside of an object and comes back to the state that it began in. -/
theorem refines_nested_at {id : TypeId} {x y : Print String}
    (h : s.depth < Printer.depthLimit → Refines (s.enter id).At x y) :
    Refines s.At (nested id x) (nested id y) := by
  rw [refines_at_iff]
  intro text p hp
  rw [nested_eq] at hp ⊢
  split
  next hcut =>
    rw [if_pos hcut] at hp
    cases hp
    exact ⟨rfl, rfl⟩
  next hcut =>
    rw [if_neg hcut] at hp
    have hdepth : s.depth < Printer.depthLimit :=
      Nat.lt_of_not_le fun hle => hcut (by simp [hle])
    obtain ⟨⟨text', p'⟩, hx, heq⟩ := Option.map_eq_some_iff.1 hp
    obtain ⟨hy, rfl⟩ := refines_at_iff.1 (h hdepth) text' p' hx
    cases heq
    refine ⟨Option.map_eq_some_iff.2 ⟨_, hy, rfl⟩, ?_⟩
    simp [Printer.enter]

/-! ## Printing without regard to the text -/

/-- Two computations that succeed in the same states and leave the same states behind. -/
def InStep (x y : Print α) : Prop :=
  ∀ p, (x p).map Prod.snd = (y p).map Prod.snd

theorem inStep_refl (x : Print α) : InStep x x :=
  fun _ => rfl

theorem inStep_bind (x : Print α) {k k' : α → Print β} (h : ∀ a, InStep (k a) (k' a)) :
    InStep (x >>= k) (x >>= k') := by
  intro p
  change ((x p).bind fun r => k r.1 r.2).map Prod.snd =
    ((x p).bind fun r => k' r.1 r.2).map Prod.snd
  cases x p with
  | none => rfl
  | some r => exact h r.1 r.2

theorem inStep_pure (a b : α) : InStep (pure a) (pure b) :=
  fun _ => rfl

theorem inStep_nested (id : TypeId) {x y : Print String} (h : InStep x y) :
    InStep (nested id x) (nested id y) := by
  intro p
  rw [nested_eq, nested_eq]
  split
  · rfl
  · have hinside := congrArg
      (Option.map fun q : Printer =>
        ({ inProgress := q.inProgress.erase id, depth := q.depth - 1 } : Printer))
      (h { inProgress := id :: p.inProgress, depth := p.depth + 1 })
    simpa only [Option.map_map, Function.comp_def] using hinside

section

variable (g : TypeGraph) {print : Precedence → TypeId → Print String}
  (hprint : ∀ precedence precedence' id, InStep (print precedence id) (print precedence' id))
  (precedence precedence' : Precedence)

theorem inStep_anonymousObject (id : TypeId) :
    InStep (anonymousObject g print precedence id) (anonymousObject g print precedence' id) := by
  rw [anonymousObject_eq, anonymousObject_eq]
  split
  · exact inStep_bind _ fun _ => inStep_pure _ _
  · exact inStep_refl _

theorem inStep_object (id : TypeId) :
    InStep (object g print precedence id) (object g print precedence' id) := by
  have hnested : InStep (nested id (anonymousObject g print precedence id))
      (nested id (anonymousObject g print precedence' id)) :=
    inStep_nested id (inStep_anonymousObject g precedence precedence' id)
  unfold object
  dsimp only
  split
  · exact inStep_refl _
  split
  · exact inStep_refl _
  split
  · split
    · exact inStep_refl _
    split
    · exact inStep_refl _
    · exact hnested
  · exact hnested

include hprint

theorem inStep_structure (id : TypeId) (record : TypeRecord) :
    InStep (structure' g print precedence id record)
      (structure' g print precedence' id record) := by
  unfold structure'
  cases record.data with
  | union types => exact inStep_bind _ fun _ => inStep_pure _ _
  | intersection types => exact inStep_bind _ fun _ => inStep_pure _ _
  | conditional checkType extendsType trueType falseType =>
    refine inStep_bind _ fun _ => inStep_bind _ fun _ => ?_
    exact inStep_bind _ fun _ => inStep_bind _ fun _ => inStep_pure _ _
  | substitution baseType constraint => exact hprint precedence precedence' baseType
  | object o => exact inStep_object g precedence precedence' id
  | _ => exact inStep_refl _

theorem inStep_record (id : TypeId) :
    InStep (record g print precedence id) (record g print precedence' id) := by
  unfold record
  split
  · exact inStep_refl _
  split
  · exact inStep_refl _
  split
  · exact inStep_refl _
  split
  · exact inStep_refl _
  · exact inStep_structure g hprint precedence precedence' id _

end

end Print

namespace TypeGraph

variable (g : TypeGraph)

/-- Where a type stands makes no difference to whether it is printed. -/
theorem print_inStep (levels : Nat) (precedence precedence' : Precedence) (id : TypeId) :
    Print.InStep (g.print levels precedence id) (g.print levels precedence' id) := by
  induction levels generalizing precedence precedence' id with
  | zero => exact Print.inStep_refl _
  | succ levels ih => exact Print.inStep_record g ih precedence precedence' id

/-- With one more level nothing more is printed in a state. -/
def Settles (s : Printer) (levels : Nat) : Prop :=
  ∀ precedence id, Print.Refines s.At (g.print (levels + 1) precedence id)
    (g.print levels precedence id)

variable {g} {s : Printer}

/-- From what two levels print in a state and in the states inside of it follows what the levels
above them print. -/
theorem refines_print_succ {levels levels' : Nat}
    (h : ∀ precedence id, Print.Refines s.At (g.print levels precedence id)
      (g.print levels' precedence id))
    (hinside : s.depth < Printer.depthLimit → ∀ object precedence id,
      Print.Refines (s.enter object).At (g.print levels precedence id)
        (g.print levels' precedence id))
    (precedence : Precedence) (id : TypeId) :
    Print.Refines s.At (g.print (levels + 1) precedence id)
      (g.print (levels' + 1) precedence id) := by
  refine Print.refines_record (Corresponds.refl g) (T := Eq) ?_ ?_ precedence rfl
  · rintro precedence id _ rfl
    exact h precedence id
  · rintro precedence id _ rfl
    refine Print.refines_nested_at fun hdepth => ?_
    refine Print.refines_anonymousObject (T := Eq) ?_ precedence ((Corresponds.refl g).members rfl)
    rintro precedence id' _ rfl
    exact hinside hdepth id precedence id'

/-- Printing comes back to the state that it began in. -/
theorem refines_print (s : Printer) (levels : Nat) (precedence : Precedence) (id : TypeId) :
    Print.Refines s.At (g.print levels precedence id) (g.print levels precedence id) := by
  induction levels generalizing s precedence id with
  | zero => exact fun _ _ _ _ _ h => absurd h (Option.some_ne_none _).symm
  | succ levels ih =>
    exact refines_print_succ (ih s) (fun _ object => ih (s.enter object)) precedence id

theorem Settles.succ {levels : Nat} (h : g.Settles s levels)
    (hinside : s.depth < Printer.depthLimit → ∀ object, g.Settles (s.enter object) levels) :
    g.Settles s (levels + 1) :=
  refines_print_succ h hinside

theorem print_of_type?_eq_none {id : TypeId} (h : g.type? id = none) (levels : Nat)
    (precedence : Precedence) : g.print (levels + 1) precedence id = pure "unknown" := by
  simp only [print, Print.record, h]

variable (g s)

/-- The types that are printed in a state. -/
def printed (levels : Nat) : Finset Nat :=
  (Finset.range g.types.size).filter fun n => (g.print levels .top (.ofIndex n) s).isSome

variable {g s}

theorem index_mem_printed_iff {levels : Nat} {id : TypeId} (hid : g.HasType id)
    (precedence : Precedence) :
    id.index ∈ g.printed s levels ↔ ∃ r, g.print levels precedence id s = some r := by
  have hsame := congrArg Option.isSome (g.print_inStep levels .top precedence id s)
  rw [Option.isSome_map, Option.isSome_map] at hsame
  rw [printed, Finset.mem_filter, Finset.mem_range, TypeId.ofIndex_index, hsame,
    Option.isSome_iff_exists]
  exact and_iff_right hid

theorem printed_subset_succ (levels : Nat) : g.printed s levels ⊆ g.printed s (levels + 1) := by
  refine Finset.monotone_filter_right _ fun n _ hn => ?_
  obtain ⟨r, hr⟩ := Option.isSome_iff_exists.1 hn
  exact Option.isSome_iff_exists.2 ⟨r, g.print_mono (Nat.le_succ levels) hr⟩

theorem Settles.card_eq {levels : Nat} (h : g.Settles s levels) :
    (g.printed s levels).card = (g.printed s (levels + 1)).card := by
  refine congrArg Finset.card ((printed_subset_succ levels).antisymm ?_)
  refine Finset.monotone_filter_right _ fun n _ hn => ?_
  obtain ⟨⟨text, p⟩, hr⟩ := Option.isSome_iff_exists.1 hn
  exact Option.isSome_iff_exists.2 ⟨_, (Print.refines_at_iff.1 (h .top _) text p hr).1⟩

/-- A level that prints as many types as the next one prints everything that the next one does. -/
theorem settles_of_card_eq {levels : Nat} (hpos : 0 < levels)
    (h : (g.printed s levels).card = (g.printed s (levels + 1)).card) : g.Settles s levels := by
  intro precedence id
  rw [Print.refines_at_iff]
  intro text p hr
  refine ⟨?_, (Print.refines_at_iff.1 (refines_print s _ precedence id) text p hr).2⟩
  cases htype : g.type? id with
  | none =>
    obtain ⟨below, rfl⟩ : ∃ n, levels = n + 1 := ⟨levels - 1, by omega⟩
    rw [print_of_type?_eq_none htype] at hr ⊢
    exact hr
  | some record =>
    have hid : g.HasType id := hasType_of_type? htype
    have hmem : id.index ∈ g.printed s (levels + 1) :=
      (index_mem_printed_iff hid precedence).2 ⟨_, hr⟩
    rw [← Finset.eq_of_subset_of_card_le (printed_subset_succ levels) h.ge] at hmem
    obtain ⟨r, hr'⟩ := (index_mem_printed_iff hid precedence).1 hmem
    rw [hr', ← g.print_mono (Nat.le_succ _) hr', hr]

/-- As soon as what is printed inside of objects is settled, at most as many levels as there are
types print more than the ones below them. -/
theorem settles_of_inside {levels : Nat} (hpos : 0 < levels)
    (hinside : s.depth < Printer.depthLimit → ∀ object, ∀ n ≥ levels,
      g.Settles (s.enter object) n) {n : Nat} (hn : levels + g.types.size ≤ n) :
    g.Settles s n := by
  have hstops : ∀ m ≥ g.types.size, (g.printed s (levels + m)).card =
      (g.printed s (levels + g.types.size)).card := by
    intro m hm
    refine Nat.stabilises_of_monotone (f := fun m => (g.printed s (levels + m)).card)
      (monotone_nat_of_le_succ fun m => Finset.card_le_card (printed_subset_succ _))
      (fun m => ?_) (fun m heq => ?_) hm
    · exact (Finset.card_filter_le _ _).trans_eq (Finset.card_range _)
    · have hsettles : g.Settles s (levels + m) := settles_of_card_eq (by omega) heq
      exact (hsettles.succ fun hdepth object =>
        hinside hdepth object _ (Nat.le_add_right levels m)).card_eq
  obtain ⟨m, rfl⟩ : ∃ m, n = levels + m := ⟨n - levels, by omega⟩
  refine settles_of_card_eq (by omega) ?_
  exact (hstops m (by omega)).trans (hstops (m + 1) (by omega)).symm

/-- By induction on how many more anonymous objects may be entered. -/
theorem settles_of_depth (more : Nat) (hmore : Printer.depthLimit ≤ s.depth + more) {levels : Nat}
    (hlevels : (more + 1) * g.types.size + 1 ≤ levels) : g.Settles s levels := by
  induction more generalizing s levels with
  | zero =>
    exact settles_of_inside Nat.one_pos (fun hdepth => absurd hdepth (by omega)) (by omega)
  | succ more ih =>
    have hinside : ∀ object, ∀ n ≥ (more + 1) * g.types.size + 1,
        g.Settles (s.enter object) n :=
      fun object n hn => ih (by simp only [Printer.enter]; omega) hn
    refine settles_of_inside (Nat.succ_pos _) (fun _ => hinside) ?_
    rw [Nat.succ_mul] at hlevels
    omega

/-- Printing succeeds with `printLevels` levels if it does with any number of them. -/
theorem print_printLevels {levels : Nat} {precedence : Precedence} {id : TypeId}
    {r : String × Printer} (h : g.print levels precedence id {} = some r) :
    g.print g.printLevels precedence id {} = some r := by
  have hsettles : ∀ n ≥ g.printLevels, g.Settles {} n := fun n hn =>
    settles_of_depth Printer.depthLimit (Nat.le_add_left _ _) (by
      simp only [printLevels, Nat.mul_add] at hn
      omega)
  rcases Nat.le_total levels g.printLevels with hle | hle
  · exact g.print_mono hle h
  · induction levels, hle using Nat.le_induction with
    | base => exact h
    | succ n hn ih => exact ih (Print.refines_at_iff.1 (hsettles n hn precedence id) _ _ h).1

/-- A text of a type is one that is printed with some number of levels. -/
theorem typeText?_eq_some_iff {id : TypeId} {text : String} :
    g.typeText? id = some text ↔ ∃ levels p, g.print levels .top id {} = some (text, p) := by
  constructor
  · intro h
    obtain ⟨⟨_, p⟩, hprint, rfl⟩ := Option.map_eq_some_iff.1 h
    exact ⟨_, p, hprint⟩
  · rintro ⟨levels, p, h⟩
    exact Option.map_eq_some_iff.2 ⟨_, print_printLevels h, rfl⟩

/-- A type that corresponds to another one has its text. -/
theorem Corresponds.typeText?_eq_some {h : TypeGraph} {T : TypeId → TypeId → Prop}
    (hc : g.Corresponds h T) {a b : TypeId} (hab : T a b) {text : String}
    (htext : g.typeText? a = some text) : h.typeText? b = some text := by
  obtain ⟨levels, p, hprint⟩ := typeText?_eq_some_iff.1 htext
  obtain ⟨q, hq, -⟩ := hc.print_refines le_rfl .top hab ⟨List.Forall₂.nil, rfl⟩ hprint
  exact typeText?_eq_some_iff.2 ⟨levels, q, hq⟩

variable (g)

/-- Printing a type comes to an end. -/
def Prints (id : TypeId) : Prop :=
  ∃ levels, g.print levels .top id {} ≠ none

variable {g}

theorem prints_iff {id : TypeId} : g.Prints id ↔ g.typeText? id ≠ none := by
  constructor
  · rintro ⟨levels, h⟩
    obtain ⟨⟨text, p⟩, hr⟩ := Option.ne_none_iff_exists'.1 h
    exact Option.ne_none_iff_exists'.2 ⟨text, typeText?_eq_some_iff.2 ⟨levels, p, hr⟩⟩
  · intro h
    exact ⟨_, fun hnone => h (Option.map_eq_none_iff.2 hnone)⟩

instance (id : TypeId) : Decidable (g.Prints id) :=
  decidable_of_iff _ prints_iff.symm

/-! ## One printer for several types -/

/-- A printer that has printed a type is in the state that it was in before. -/
theorem print_restores {levels : Nat} {precedence : Precedence} {id : TypeId} {p q : Printer}
    {text : String} (h : g.print levels precedence id p = some (text, q)) : q = p := by
  obtain ⟨_, _, hq, _⟩ := refines_print p levels precedence id ⟨rfl, rfl⟩ h
  exact hq

/-- A printer prints one type after the other as a printer in its first state prints each. -/
theorem mapM_print (levels : Nat) (precedence : Precedence) (ids : List TypeId) (p : Printer) :
    ids.mapM (g.print levels precedence) p =
      (ids.mapM fun id => (g.print levels precedence id p).map Prod.fst).map (·, p) := by
  induction ids with
  | nil => rfl
  | cons id ids ih =>
    rw [List.mapM_cons, List.mapM_cons]
    cases hfirst : g.print levels precedence id p with
    | none =>
      change (g.print levels precedence id p).bind _ = none
      rw [hfirst]
      rfl
    | some r =>
      obtain ⟨text, q⟩ := r
      obtain rfl : q = p := print_restores hfirst
      change (g.print levels precedence id q).bind _ = _
      rw [hfirst]
      change (ids.mapM (g.print levels precedence) q).bind _ = _
      rw [ih]
      cases ids.mapM fun id => (g.print levels precedence id q).map Prod.fst <;> rfl

/-- With enough levels a fresh printer prints the text of a type that has one. -/
theorem Prints.print_eq {id : TypeId} (h : g.Prints id) {levels : Nat}
    (hlevels : g.printLevels ≤ levels) :
    g.print levels .top id {} = some (g.typeText id, {}) := by
  obtain ⟨text, htext⟩ := Option.ne_none_iff_exists'.1 (prints_iff.1 h)
  obtain ⟨⟨_, p⟩, hprint, rfl⟩ := Option.map_eq_some_iff.1 htext
  obtain rfl := print_restores hprint
  rw [typeText, htext]
  exact g.print_mono hlevels hprint

/-- Fresh printers print the texts of types that have one. -/
theorem mapM_print_fresh {ids : List TypeId} (h : ∀ id ∈ ids, g.Prints id) {levels : Nat}
    (hlevels : g.printLevels ≤ levels) :
    (ids.mapM fun id => (g.print levels .top id {}).map Prod.fst) = some (ids.map g.typeText) := by
  induction ids with
  | nil => rfl
  | cons id ids ih =>
    obtain ⟨hid, hids⟩ := List.forall_mem_cons.1 h
    rw [List.mapM_cons, hid.print_eq hlevels, ih hids]
    rfl

variable (g)

/-- A printer comes back from each type, however deep inside of other types it is, in the state that
it had before. Used for one type after the other it prints what a fresh one prints for each, with
any number of levels; with enough of them these are the texts of the types. -/
theorem printer_reusable (ids : List TypeId) (hids : ∀ id ∈ ids, g.Prints id) :
    (∀ levels precedence id p text q, g.print levels precedence id p = some (text, q) → q = p) ∧
    (∀ levels, ids.mapM (g.print levels .top) {} =
      (ids.mapM fun id => (g.print levels .top id {}).map Prod.fst).map (·, {})) ∧
    ∀ levels ≥ g.printLevels,
      ids.mapM (g.print levels .top) {} = some (ids.map g.typeText, {}) := by
  refine ⟨fun _ _ _ _ _ _ => print_restores, fun levels => mapM_print levels .top ids {},
    fun levels hlevels => ?_⟩
  rw [mapM_print, mapM_print_fresh hids hlevels]
  rfl

end TypeGraph

namespace Build

/-- An object with itself as its only property. -/
def selfObject : Build TypeId := do
  let next ← property "next" .unknown
  let id ← object [next]
  setSymbolType next id
  return id

end Build

namespace TypeGraph

/-- The second printing of the object is not taken for one inside of the first. -/
theorem printer_reusable_selfObject :
    let (id, g) := Build.selfObject .initial
    (∀ type ∈ [id, .string, id], g.Prints type) ∧
    [id, .string, id].mapM (g.print g.printLevels .top) {} = some
      (["\x7b next: \x7b ... \x7d; \x7d", "string", "\x7b next: \x7b ... \x7d; \x7d"], {}) := by
  have hprints : ∀ type ∈ [(Build.selfObject .initial).1, .string, (Build.selfObject .initial).1],
      (Build.selfObject .initial).2.Prints type := by decide +kernel
  have htexts := (printer_reusable _ _ hprints).2.2 _ le_rfl
  exact ⟨hprints, htexts.trans (by decide +kernel)⟩

end TypeGraph

end TypeAtlas
