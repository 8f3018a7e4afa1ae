import TypeAtlas.Proofs.Graph.Growth
import TypeAtlas.Proofs.Merge.Step
/-!
# What merging does to a graph, step by step

A relation between the graph before and the graph after is one that merging leads to as soon as it
can be put together from steps, holds when a type is added, and holds for the two places at which
merging does more than that: the objects made of several objects, whose members are set in the end,
and the properties in between (`Merge.leads_mergeWithin`).
-/

namespace TypeAtlas

namespace Build

theorem union_cases (types : List TypeId) :
    (∃ single, distinct types = [single] ∧ union types = pure single) ∨
      (∀ single, distinct types ≠ [single]) ∧
        union types = addType { flags := TypeFlags.union, data := .union (distinct types) } := by
  rcases h : distinct types with _ | ⟨single, _ | ⟨second, rest⟩⟩ <;> simp [union, h]

theorem intersection_cases (types : List TypeId) :
    (∃ single, distinct types = [single] ∧ intersection types = pure single) ∨
      (∀ single, distinct types ≠ [single]) ∧
        intersection types =
          addType { flags := TypeFlags.intersection, data := .intersection (distinct types) } := by
  rcases h : distinct types with _ | ⟨single, _ | ⟨second, rest⟩⟩ <;> simp [intersection, h]

/-- A copy is the type itself, or a type that is added. -/
theorem cloneWithoutAlias_eq {g : TypeGraph} {id : TypeId} {r : TypeRecord}
    (h : g.type? id = some r) :
    cloneWithoutAlias id g =
      if r.aliasSymbol.isNone then (id, g)
      else addType { r with aliasSymbol := none, aliasTypeArguments := [] } g := by
  simp only [cloneWithoutAlias, bind, StateT.bind, get, getThe, MonadStateOf.get, StateT.get, pure,
    h]
  split <;> rfl

theorem cloneWithoutAlias_of_type?_eq_none {g : TypeGraph} {id : TypeId} (h : g.type? id = none) :
    cloneWithoutAlias id g = (id, g) := by
  simp only [cloneWithoutAlias, bind, StateT.bind, get, getThe, MonadStateOf.get, StateT.get, pure,
    h]
  rfl

end Build

/-- A relation that is put together from steps, one of which is to add a type. -/
structure Accumulates (R : TypeGraph → TypeGraph → Prop) : Prop where
  refl (g : TypeGraph) : R g g
  trans {g h k : TypeGraph} : R g h → R h k → R g k
  addType (g : TypeGraph) (record : TypeRecord) : R g (Build.addType record g).2

namespace Accumulates

variable {R : TypeGraph → TypeGraph → Prop} (hR : Accumulates R) {g : TypeGraph}

include hR

theorem union (types : List TypeId) : R g (Build.union types g).2 := by
  rcases Build.union_cases types with ⟨single, -, h⟩ | ⟨-, h⟩ <;> rw [h]
  · exact hR.refl g
  · exact hR.addType g _

theorem intersection (types : List TypeId) : R g (Build.intersection types g).2 := by
  rcases Build.intersection_cases types with ⟨single, -, h⟩ | ⟨-, h⟩ <;> rw [h]
  · exact hR.refl g
  · exact hR.addType g _

theorem cloneWithoutAlias (id : TypeId) : R g (Build.cloneWithoutAlias id g).2 := by
  cases hid : g.type? id with
  | none =>
    rw [Build.cloneWithoutAlias_of_type?_eq_none hid]
    exact hR.refl g
  | some record =>
    rw [Build.cloneWithoutAlias_eq hid]
    split
    · exact hR.refl g
    · exact hR.addType g _

end Accumulates

namespace Merge

variable {R : TypeGraph → TypeGraph → Prop} {α β : Type}

/-- A step of merging with the graph before and the graph after in a relation. -/
def Leads (R : TypeGraph → TypeGraph → Prop) (x : Merge α) : Prop :=
  ∀ s : MergeContext, R s.graph (x s).2.graph

theorem leads_build {x : Build α} (h : ∀ g : TypeGraph, R g (x g).2) : Leads R (build x) :=
  fun s => h s.graph

section

variable (hR : Accumulates R)

include hR

theorem leads_pure (a : α) : Leads R (pure a : Merge α) :=
  fun s => hR.refl s.graph

theorem leads_bind {x : Merge α} {k : α → Merge β} (hx : Leads R x) (hk : ∀ a, Leads R (k a)) :
    Leads R (x >>= k) :=
  fun s => hR.trans (hx s) (hk (x s).1 (x s).2)

theorem leads_mapM {k : α → Merge β} (hk : ∀ a, Leads R (k a)) :
    ∀ as : List α, Leads R (as.mapM k)
  | [], s => hR.refl s.graph
  | a :: as, s => by
    rw [List.mapM_cons]
    exact leads_bind hR (hk a)
      (fun b => leads_bind hR (leads_mapM hk as) fun bs => leads_pure hR _) s

theorem leads_note (key : List TypeId) (made : TypeId) : Leads R (note key made) := by
  unfold note
  split
  · exact fun s => hR.refl s.graph
  · exact leads_pure hR _

section

variable {merge : List TypeId → Merge TypeId} (hmerge : ∀ types, Leads R (merge types))

include hmerge

theorem leads_distribute (before after members key : List TypeId) :
    Leads R (distribute merge before after members key) :=
  leads_bind hR (leads_mapM hR (fun _ => hmerge _) members) fun _ =>
    leads_bind hR (leads_build fun _ => hR.union _) fun _ =>
      leads_bind hR (leads_note hR key _) fun _ => leads_pure hR _

variable (hobjects : ∀ objs key, Leads R (objects merge objs key))

include hobjects

omit hmerge in
theorem leads_intersect (constituents key : List TypeId) :
    Leads R (intersect merge constituents key) := by
  intro s
  rcases intersect_cases merge constituents key s with
    ⟨-, -, h⟩ | ⟨single, -, -, h⟩ | ⟨-, -, h⟩ | ⟨-, -, h⟩ | ⟨-, -, h⟩ <;> rw [h]
  · exact hR.refl s.graph
  · exact hR.cloneWithoutAlias single
  · exact hR.intersection _
  · exact hobjects _ key s
  · exact leads_bind hR (hobjects _ key) (fun _ => leads_build fun _ => hR.intersection _) s

theorem leads_classified (types : List TypeId) : Leads R (classified merge types) := by
  intro s
  rcases classified_cases merge types s with ⟨before, union, after, -, -, -, h⟩ | ⟨-, h⟩ <;> rw [h]
  · exact leads_distribute hR hmerge before after _ types s
  · exact leads_intersect hR hobjects _ types s

end

/-- By induction on the levels. -/
theorem leads_mergeWithin
    (hobjects : ∀ merge : List TypeId → Merge TypeId, (∀ types, Leads R (merge types)) →
      ∀ objs key, Leads R (objects merge objs key)) (levels : Nat) (types : List TypeId) :
    Leads R (mergeWithin levels types) := by
  induction levels generalizing types with
  | zero =>
    intro s
    rcases mergeWithin_cases 0 types s with
      ⟨made, -, h⟩ | ⟨-, -, single, -, h⟩ | ⟨-, -, -, h⟩ | ⟨-, below, hbelow, h⟩
    · exact h ▸ hR.refl s.graph
    · exact h ▸ hR.refl s.graph
    · exact h ▸ hR.intersection types
    · cases hbelow
  | succ levels ih =>
    intro s
    rcases mergeWithin_cases (levels + 1) types s with
      ⟨made, -, h⟩ | ⟨-, hlevels, -⟩ | ⟨-, hlevels, -⟩ | ⟨-, below, hbelow, h⟩
    · exact h ▸ hR.refl s.graph
    · cases hlevels
    · cases hlevels
    · obtain rfl : levels = below := Nat.succ.inj hbelow
      rw [h]
      exact leads_classified hR ih (hobjects _ ih) types s

end

end Merge

end TypeAtlas
