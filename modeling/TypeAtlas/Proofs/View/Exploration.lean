import TypeAtlas.Proofs.View.Session
import TypeAtlas.Proofs.Walk.Closure
import TypeAtlas.Proofs.Walk.Nodes
/-!
# Exploring a generated tree

A reference in a generated tree leads to a concrete node of the tree, so following references goes
on only through arrays whose elements are references again. Each of these arrays is nested in the
one before, in the graph too. So where the graph nests no 64 arrays, no chain of references is too
long, and exploring the tree never fails (`TypeGraph.exploration_succeeds`).
-/

namespace TypeAtlas

open TypeTree

namespace TypeGraph

variable (g : TypeGraph)

/-- A type is the outermost of so many arrays, each the element of the one before. -/
def NestedArrays : Nat → TypeId → Prop
  | 0, _ => True
  | n + 1, type => g.isArray type = true ∧ NestedArrays n (g.elementOf type)

theorem NestedArrays.of_succ : ∀ {n : Nat} {type : TypeId},
    g.NestedArrays (n + 1) type → g.NestedArrays n type
  | 0, _, _ => trivial
  | _ + 1, _, h => ⟨h.1, of_succ h.2⟩

/-- A tree whose references lead on within a root and whose arrays are arrays of the graph. -/
structure Explorable (root : Root) (tree : TypeTree) : Prop where
  reference {n : TypeTree} {location : Option Location} : n ∈ tree.preorder →
    n.shape = .reference location → location = none ∧ ∃ target, root.scope.get? n.id = some target
  array {n element : TypeTree} {readonly : Bool} : n ∈ tree.preorder →
    n.shape = .array element readonly → g.isArray n.id = true ∧ element.id = g.elementOf n.id

variable {g}

namespace Explorable

variable {root : Root} {tree : TypeTree}

theorem node (h : g.Explorable root tree) {n : TypeTree} (hn : n ∈ tree.preorder) :
    g.Explorable root n where
  reference hm := h.reference (mem_preorder_trans hm tree hn)
  array hm := h.array (mem_preorder_trans hm tree hn)

theorem child (h : g.Explorable root tree) {n : TypeTree} (hn : n ∈ tree.children) :
    g.Explorable root n :=
  h.node (mem_preorder_of_mem_children hn (mem_preorder_self n))

/-- A node that is neither a reference nor an array asks for nothing itself. -/
theorem of_children (hunwrapped : tree.shape.isUnwrapped = true)
    (h : ∀ n ∈ tree.children, g.Explorable root n) : g.Explorable root tree where
  reference {n} _ hn hshape := by
    rcases mem_preorder_iff.1 hn with rfl | ⟨c, hc, hn⟩
    · rw [hshape] at hunwrapped
      cases hunwrapped
    · exact (h c hc).reference hn hshape
  array {n} _ _ hn hshape := by
    rcases mem_preorder_iff.1 hn with rfl | ⟨c, hc, hn⟩
    · rw [hshape] at hunwrapped
      cases hunwrapped
    · exact (h c hc).array hn hshape

theorem closedUnderFunctions (root : Root) :
    Resolve.ClosedUnderFunctions (g.Explorable root) := by
  intro id signatures h
  exact of_children rfl fun n hn => h n (Resolve.children_function id signatures ▸ hn)

/-- A reference in a root that is explorable leads to an explorable concrete node of the same id. -/
theorem target (hroot : g.Explorable (.ofTree tree) tree) {n : TypeTree}
    (hn : g.Explorable (.ofTree tree) n) {location : Option Location}
    (hshape : n.shape = .reference location) :
    location = none ∧ ∃ c, (Root.ofTree tree).scope.get? n.id = some c ∧
      g.Explorable (.ofTree tree) c ∧ c.shape.isConcrete = true ∧ c.id = n.id := by
  obtain ⟨hlocation, c, hc⟩ := hn.reference (mem_preorder_self n) hshape
  obtain ⟨hmem, hconcrete, hid⟩ := Scope.get?_ofTree_eq_some hc
  exact ⟨hlocation, c, hc, hroot.node hmem, hconcrete, hid⟩

end Explorable

/-! ## Unwrapping in an explorable root -/

/-- Every step from an array to its element leaves one array less to come. -/
theorem not_nestedArrays_peel {root : Root} (u : Unwrapped) :
    g.Explorable root u.node → u.node.shape.isReference = false →
      u.peel.node.shape.isReference = true →
        ∀ n, ¬ g.NestedArrays (n + 1) u.node.id → ¬ g.NestedArrays n u.peel.node.id := by
  refine Unwrapped.peel_rec
    (motive := fun u v => g.Explorable root u.node → u.node.shape.isReference = false →
      v.node.shape.isReference = true →
        ∀ n, ¬ g.NestedArrays (n + 1) u.node.id → ¬ g.NestedArrays n v.node.id)
    (fun u _ _ hstart hend => ?_) (fun u element readonly hshape ih hu _ hend n hn => ?_) u
  · rw [hstart] at hend
    cases hend
  · obtain ⟨harray, hid⟩ := hu.array (mem_preorder_self _) hshape
    have helement : ¬ g.NestedArrays n element.id := fun h => hn ⟨harray, hid ▸ h⟩
    by_cases href : element.shape.isReference = true
    · -- the element is where peeling stops
      have hpeel : (u.inside element readonly).peel = u.inside element readonly :=
        Unwrapped.peel_of_ne_array fun _ _ h => by
          rw [Unwrapped.inside] at h
          rw [h] at href
          cases href
      rwa [hpeel]
    · exact ih (hu.child (mem_children_of_array hshape)) (Bool.eq_false_iff.2 href) hend n
        (mt (NestedArrays.of_succ g) helement)

/-- What unwrapping reaches. -/
def Reached (root : Root) (u : Unwrapped) : Prop :=
  u.root = root ∧ u.node.shape.isUnwrapped = true ∧ g.Explorable root u.node

/-- Following a reference in an explorable root. -/
theorem follow_eq {tree : TypeTree} (hroot : g.Explorable (.ofTree tree) tree) {u : Unwrapped}
    (hu : g.Explorable (.ofTree tree) u.node) (hur : u.root = .ofTree tree)
    {location : Option Location} (hshape : u.node.shape = .reference location) :
    ∃ c, u.follow none location = .ok { u with node := c } ∧ g.Explorable (.ofTree tree) c ∧
      c.shape.isConcrete = true ∧ c.id = u.node.id := by
  obtain ⟨rfl, c, hc, hexplorable, hconcrete, hid⟩ := hroot.target hu hshape
  refine ⟨c, ?_, hexplorable, hconcrete, hid⟩
  rw [Unwrapped.follow, hur, hc]

/-- By induction on the references that may be followed: each but the first is inside an array. -/
theorem resolve_concrete {tree : TypeTree} (hroot : g.Explorable (.ofTree tree) tree)
    (hops : Nat) (u : Unwrapped) (hu : g.Explorable (.ofTree tree) u.node)
    (hur : u.root = .ofTree tree) (hstart : u.node.shape.isReference = false)
    (hn : ¬ g.NestedArrays (hops + 1) u.node.id) :
    ∃ v, u.resolve none hops = .ok v ∧ Reached (g := g) (.ofTree tree) v := by
  induction hops generalizing u with
  | zero =>
    have hend : u.peel.node.shape.isReference = false := by
      rw [Bool.eq_false_iff]
      intro h
      exact not_nestedArrays_peel u hu hstart h 0 hn trivial
    exact ⟨_, Unwrapped.resolve_of_peel hend, u.peel_root.trans hur,
      Unwrapped.isUnwrapped_peel hend, hu.node u.peel_node_mem⟩
  | succ hops ih =>
    by_cases hend : u.peel.node.shape.isReference = true
    · have hpeel := hu.node u.peel_node_mem
      have hnested := not_nestedArrays_peel u hu hstart hend (hops + 1) hn
      obtain ⟨location, hshape⟩ := Shape.isReference_iff.1 hend
      obtain ⟨c, hfollow, hexplorable, hconcrete, hid⟩ :=
        follow_eq hroot hpeel (u.peel_root.trans hur) hshape
      rw [Unwrapped.resolve_succ hshape, hfollow]
      exact ih { u.peel with node := c } hexplorable (u.peel_root.trans hur)
        (Shape.isReference_of_isConcrete hconcrete) (hid ▸ hnested)
    · rw [Bool.not_eq_true] at hend
      exact ⟨_, Unwrapped.resolve_of_peel hend, u.peel_root.trans hur,
        Unwrapped.isUnwrapped_peel hend, hu.node u.peel_node_mem⟩

/-- A reference that is met as it is uses up one of the references that may be followed. -/
theorem resolve_explorable {tree : TypeTree} (hroot : g.Explorable (.ofTree tree) tree)
    (harrays : ∀ type, ¬ g.NestedArrays 64 type) {start : TypeTree}
    (hstart : g.Explorable (.ofTree tree) start) :
    ∃ v, (Unwrapped.start start (.ofTree tree)).resolve none maxReferenceHops = .ok v ∧
      Reached (g := g) (.ofTree tree) v := by
  by_cases href : start.shape.isReference = true
  · obtain ⟨location, hshape⟩ := Shape.isReference_iff.1 href
    obtain ⟨c, hfollow, hexplorable, hconcrete, hid⟩ := follow_eq hroot
      (u := Unwrapped.start start (.ofTree tree)) hstart rfl hshape
    have hpeel := Unwrapped.peel_of_ne_array (u := Unwrapped.start start (.ofTree tree))
      fun _ _ h => by cases hshape.symm.trans h
    rw [maxReferenceHops, Unwrapped.resolve_succ (by rwa [hpeel]), hpeel, hfollow]
    exact resolve_concrete hroot 63 _ hexplorable rfl
      (Shape.isReference_of_isConcrete hconcrete) (harrays _)
  · exact resolve_concrete hroot 64 _ hstart rfl (Bool.eq_false_iff.2 href)
      (mt (NestedArrays.of_succ g) (harrays _))

/-- Exploring an explorable tree stays within the tree and shows no error. -/
def exploration {tree : TypeTree} (hroot : g.Explorable (.ofTree tree) tree)
    (harrays : ∀ type, ¬ g.NestedArrays 64 type) : Regime none where
  IsRoot := (· = .ofTree tree)
  IsItem root tree argument := g.Explorable root tree ∧ ∀ a ∈ argument, g.Explorable root a
  IsError _ := False
  tree := by
    rintro _ rfl
    exact ⟨hroot, fun _ h => by cases h⟩
  functions := by
    rintro root - id signatures h
    exact ⟨Explorable.closedUnderFunctions root id signatures fun tree htree => (h tree htree).1,
      fun _ h => by cases h⟩
  error := by
    rintro _ tree argument e rfl hitem he
    obtain ⟨v, hv, -⟩ := resolve_explorable hroot harrays hitem.1
    cases hv.symm.trans he
  root := by
    rintro _ tree argument u rfl hitem hu
    obtain ⟨v, hv, hreached⟩ := resolve_explorable hroot harrays hitem.1
    obtain rfl := Except.ok.inj (hv.symm.trans hu)
    exact hreached.1
  child := by
    rintro _ tree argument u rfl hitem hu child hchild
    obtain ⟨v, hv, hvroot, -, hexplorable⟩ := resolve_explorable hroot harrays hitem.1
    obtain rfl := Except.ok.inj (hv.symm.trans hu)
    exact ⟨hvroot ▸ hexplorable.child hchild, fun _ h => by cases h⟩
  pair := by
    rintro _ tree argument u rfl hitem hu p hp
    obtain ⟨v, hv, hvroot, -, hexplorable⟩ := resolve_explorable hroot harrays hitem.1
    obtain rfl := Except.ok.inj (hv.symm.trans hu)
    obtain ⟨hparameter, hargument⟩ := mem_children_of_mem_pairs hp
    refine ⟨hvroot ▸ hexplorable.child hparameter, fun a ha => ?_⟩
    obtain rfl := Option.some.inj ha
    exact hvroot ▸ hexplorable.child hargument
  argument := by
    rintro _ tree argument u rfl hitem hu -
    obtain ⟨v, hv, hvroot, -⟩ := resolve_explorable hroot harrays hitem.1
    obtain rfl := Except.ok.inj (hv.symm.trans hu)
    exact ⟨hvroot ▸ hitem.2 argument rfl, fun _ h => by cases h⟩

variable (g) (root : TreeRoot) (config : TreeConfig)

/-- A generated tree without locations is explorable. -/
theorem explorable_tree (hconfig : config.referenceDefinedTypes = false) :
    g.Explorable (.ofTree (g.tree root config)) (g.tree root config) where
  reference {n location} hn hshape := by
    obtain rfl := (g.isNode_tree root config hn).reference hconfig hshape
    obtain ⟨c, hc, hconcrete, hid⟩ := g.closed_tree root config n hn hshape
    refine ⟨rfl, c, ?_⟩
    rw [← hid]
    exact Scope.get?_ofTree_id (g.nodup_concreteIds_tree root config) hc hconcrete
  array hn hshape :=
    let h := (g.isNode_tree root config hn).array hshape
    ⟨h.1, h.2.1⟩

/-- Exploring a generated tree never fails: in every session with a resolver that has no retriever,
all calls give views and nothing else. -/
theorem exploration_succeeds (hconfig : config.referenceDefinedTypes = false)
    (harrays : ∀ type, ¬ g.NestedArrays 64 type) {state : ResolverState} {answers : List Answer}
    (h : Session none (· = .ofTree (g.tree root config)) state answers) :
    ∀ answer ∈ answers, ∃ results, answer = .ok results ∧
      ∀ result ∈ results, result.isFailure = false := by
  have hroot := g.explorable_tree root config hconfig
  have hkept := h.keeps (exploration hroot harrays) id
    (Or.inl fun {_ _} (ha : _ = _) (hb : _ = _) => ha.trans hb.symm)
  intro answer hanswer
  obtain ⟨results, rfl, hresults⟩ := hkept.results answer hanswer
  refine ⟨results, rfl, fun result hresult => ?_⟩
  cases result with
  | view view => rfl
  | failure failure =>
    obtain ⟨_, herror, -⟩ := hresults _ hresult
    exact herror.elim

/-- A node with an array of nodes as its only property. -/
def linkedNodes : TypeGraph where
  types := #[
    { flags := TypeFlags.object, data := .object { properties := [⟨0⟩] } },
    { flags := TypeFlags.object, data := .object { target := some ⟨2⟩, typeArguments := [⟨0⟩] } }]
  symbols := #[{ name := "next", flags := SymbolFlags.property, valueType := some ⟨1⟩ }]
  globalArray := ⟨2⟩
  globalReadonlyArray := ⟨3⟩

theorem not_nestedArrays_linkedNodes (type : TypeId) : ¬ linkedNodes.NestedArrays 64 type := by
  rintro ⟨h₀, h₁, -⟩
  have htype : type = .ofIndex type.index := by
    rw [TypeId.ofIndex, TypeId.index, UInt32.ofNat_toNat]
  match hn : type.index with
  | 0 => rw [htype, hn] at h₀; exact absurd h₀ (by decide)
  | 1 => rw [htype, hn] at h₁; exact absurd h₁ (by decide)
  | n + 2 =>
    have hnone : linkedNodes.type? type = none := by
      rw [type?, hn]
      rfl
    rw [isArray, object?, hnone] at h₀
    cases h₀

/-- The root of a tree with a reference inside an array, and then its children. -/
theorem exploration_linkedNodes_succeeds :
    ∃ state answers,
      Session none (· = .ofTree (linkedNodes.tree (.type ⟨0⟩) {})) state answers ∧
      answers.length = 2 ∧
      ∀ answer ∈ answers, ∃ results, answer = .ok results ∧
        ∀ result ∈ results, result.isFailure = false := by
  have hsession : Session none (· = .ofTree (linkedNodes.tree (.type ⟨0⟩) {})) _ _ :=
    .localize .new rfl
  obtain ⟨results, hresults, hviews⟩ := linkedNodes.exploration_succeeds (.type ⟨0⟩) {} rfl
    not_nestedArrays_linkedNodes hsession _ (List.mem_singleton_self _)
  obtain rfl := Except.ok.inj hresults
  have hview := hviews _ (List.mem_singleton_self _)
  generalize hresult : (Resolve.localize none _ {}).1 = result at hview
  cases result with
  | failure => cases hview
  | view view =>
  have hoffered : Offered _ view := ⟨_, List.mem_singleton_self _, view,
    List.mem_singleton.2 hresult.symm, Or.inl rfl⟩
  have hchildren := hsession.children hoffered true
  exact ⟨_, _, hchildren, rfl, linkedNodes.exploration_succeeds (.type ⟨0⟩) {} rfl
    not_nestedArrays_linkedNodes hchildren⟩

end TypeGraph

end TypeAtlas
