import TypeAtlas.Proofs.Tree.RoundTrip
import TypeAtlas.Proofs.View.Handles
import TypeAtlas.View.Codec
/-!
# Views are read back

A view shows trees: those its children would be views of, and the arguments given for type
parameters. It is read back if these are (`ViewResult.ofJson?_through`). A failure and a view are
told apart by the members that all failures and all views have.
-/

namespace TypeAtlas

variable (m : Medium)

namespace Purpose

@[simp]
theorem through_toJson (purpose : Purpose) : purpose.toJson.through m = purpose.toJson :=
  Json.through_str m purpose.documentName

@[simp]
theorem ofJson?_toJson (purpose : Purpose) : ofJson? purpose.toJson = some purpose := by
  cases purpose <;> rfl

@[simp]
theorem toJson_ne_null (purpose : Purpose) : purpose.toJson ≠ .null :=
  Json.noConfusion

end Purpose

namespace ViewSymbol

@[simp]
theorem through_toJson (s : ViewSymbol) : s.toJson.through m = s.toJson := by
  simp [toJson]

@[simp]
theorem ofJson?_toJson (s : ViewSymbol) : ofJson? s.toJson = some s := by
  simp -implicitDefEqProofs [ofJson?, toJson]

@[simp]
theorem toJson_ne_null (s : ViewSymbol) : s.toJson ≠ .null :=
  Json.noConfusion

end ViewSymbol

/-! ## Children -/

theorem ChildOptions.ofJson?_through {o : ChildOptions}
    (h : ∀ t ∈ o.contextualTypeArgument, m.Carries t) : ofJson? (o.toJson.through m) = some o := by
  have hargument : (o.contextualTypeArgument.mapM fun t => TypeTree.ofJson? (t.toJson.through m)) =
      some o.contextualTypeArgument :=
    mapM_option_eq_some_self.2 fun t ht => (TypeTree.ofJson?_through_eq_some_self m).2 (h t ht)
  simp -implicitDefEqProofs [ofJson?, toJson, TypeTree.through_toJson_ne_null, hargument]

namespace Child

variable {α : Type}

/-- The trees in a child, those of its view included. -/
def trees (f : α → List TypeTree) : Child α → List TypeTree
  | raw tree options => tree :: options.contextualTypeArgument.toList
  | made view => f view

theorem ofJson?_through {c : Child Json} (h : ∀ t ∈ c.trees fun _ => [], m.Carries t) :
    ofJson? (c.toJson.through m) = some (c.map (Json.through m)) := by
  cases c with
  | raw tree options =>
    rw [trees, List.forall_mem_cons] at h
    have htree := (TypeTree.ofJson?_through_eq_some_self m).2 h.1
    have hoptions := ChildOptions.ofJson?_through m fun t ht => h.2 t (Option.mem_toList.2 ht)
    simp [ofJson?, toJson, map, htree, hoptions]
  | made view => simp [ofJson?, toJson, map]

end Child

/-! ## Views -/

theorem mapM_eq_some_map {α β : Type} {f : α → Option β} {g : α → β} {xs : List α}
    (h : ∀ a ∈ xs, f a = some (g a)) : xs.mapM f = some (xs.map g) := by
  induction xs with
  | nil => rfl
  | cons x xs ih =>
    rw [List.mapM_cons, h x List.mem_cons_self, ih fun a ha => h a (List.mem_cons_of_mem _ ha)]
    rfl

namespace ViewLayer

section Dimension

variable (l : ViewLayer Json)

/-- The dimension is left out when it is zero. -/
def dimensionMembers : Members :=
  if l.dimension == 0 then [] else Json.field "dimension" (.ofNat l.dimension.toNat)

@[simp]
theorem through_dimensionMembers : l.dimensionMembers.through m = l.dimensionMembers := by
  by_cases h : l.dimension = 0 <;> simp [dimensionMembers, h]

@[simp]
theorem named_dimensionMembers (name : String) :
    l.dimensionMembers.named name = if "dimension" = name then l.dimensionMembers else [] := by
  by_cases h : l.dimension = 0 <;> simp [dimensionMembers, h]

@[simp]
theorem orDefaultOf_dimensionMembers :
    Members.orDefaultOf Json.uint32? 0 l.dimensionMembers = some l.dimension := by
  by_cases h : l.dimension = 0 <;> simp -implicitDefEqProofs [dimensionMembers, h]

end Dimension

/-- The members of a view. -/
def toMembers (l : ViewLayer Json) : Members :=
  Json.field "handle" (.ofNat l.handle.val.toNat) ++
    Json.fieldIfSome "kind" NodeKind.toJson l.kind ++
    Json.fieldIfSome "kindText" Json.str l.kindText ++
    Json.fieldIfSome "alias" Json.str l.aliasName ++
    Json.fieldIfSome "name" Json.str l.name ++
    Json.fieldIfSome "symbol" ViewSymbol.toJson l.symbol ++
    Json.fieldIfSome "purpose" Purpose.toJson l.purpose ++
    Json.fieldIfTrue "optional" l.optional ++ Json.fieldIfTrue "rest" l.rest ++
    Json.fieldIfTrue "readonly" l.readonly ++ l.dimensionMembers ++
    Json.fieldIfSome "typeId" TypeId.toJson l.typeId ++
    Json.fieldIfNonempty "children" Child.toJson l.children

theorem toJson_eq (l : ViewLayer Json) : l.toJson = .obj l.toMembers :=
  rfl

/-- A view arrives with what arrives of the views in it, if its trees arrive. -/
theorem ofJson?_through {l : ViewLayer Json}
    (h : ∀ c ∈ l.children, ∀ t ∈ c.trees fun _ => [], m.Carries t) :
    ofJson? (l.toJson.through m) = some (l.map (Json.through m)) := by
  have hmembers : l.toJson.through m = .obj (l.toMembers.through m) := by
    rw [toJson_eq, Json.through_obj]
  generalize hM : l.toMembers.through m = members at hmembers
  have hhandle : members.required? "handle" Json.uint32? = some l.handle.val := by
    simp -implicitDefEqProofs [← hM, toMembers]
  have hkind : members.optional? "kind" NodeKind.ofJson? = some l.kind := by
    simp [← hM, toMembers]
  have hkindText : members.optional? "kindText" Json.string? = some l.kindText := by
    simp [← hM, toMembers]
  have halias : members.optional? "alias" Json.string? = some l.aliasName := by
    simp [← hM, toMembers]
  have hname : members.optional? "name" Json.string? = some l.name := by
    simp [← hM, toMembers]
  have hsymbol : members.optional? "symbol" ViewSymbol.ofJson? = some l.symbol := by
    simp [← hM, toMembers]
  have hpurpose : members.optional? "purpose" Purpose.ofJson? = some l.purpose := by
    simp [← hM, toMembers]
  have hoptional : members.orDefault? "optional" Json.boolean? false = some l.optional := by
    simp [← hM, toMembers]
  have hrest : members.orDefault? "rest" Json.boolean? false = some l.rest := by
    simp [← hM, toMembers]
  have hreadonly : members.orDefault? "readonly" Json.boolean? false = some l.readonly := by
    simp [← hM, toMembers]
  have hdimension : members.orDefault? "dimension" Json.uint32? 0 = some l.dimension := by
    simp [← hM, toMembers]
  have htypeId : members.optional? "typeId" TypeId.ofJson? = some l.typeId := by
    simp -implicitDefEqProofs [← hM, toMembers]
  have hchildren : members.orDefault? "children" (Json.list? Child.ofJson?) [] =
      some (l.children.map (Child.map (Json.through m))) := by
    have hread : (l.children.mapM fun c => Child.ofJson? (c.toJson.through m)) =
        some (l.children.map (Child.map (Json.through m))) :=
      mapM_eq_some_map fun c hc => Child.ofJson?_through m (h c hc)
    simp [← hM, toMembers, hread]
  rw [hmembers, ofJson?, Json.members?_obj, Option.bind_eq_bind, Option.bind_some, hhandle, hkind,
    hkindText, halias, hname, hsymbol, hpurpose, hoptional, hrest, hreadonly, hdimension, htypeId,
    hchildren]
  rfl

end ViewLayer

namespace View

theorem toJson_node (l : ViewLayer View) : (node l).toJson = (l.map toJson).toJson := by
  rw [toJson]
  refine congrArg (fun children => ViewLayer.toJson { l with children })
    (attach_map_eq_map fun ⟨c, _⟩ => ?_)
  cases c <;> rfl

/-- The trees in a view, those of the views in it included. -/
def trees (view : View) : List TypeTree :=
  view.children.attach.flatMap fun
    | ⟨.raw tree options, _⟩ => tree :: options.contextualTypeArgument.toList
    | ⟨.made inner, _⟩ => trees inner
termination_by sizeOf view
decreasing_by exact sizeOf_lt_of_mem_children ‹_›

theorem trees_node (l : ViewLayer View) :
    (node l).trees = l.children.flatMap (Child.trees trees) := by
  rw [trees, List.flatMap_def, List.flatMap_def]
  refine congrArg List.flatten (attach_map_eq_map fun ⟨c, _⟩ => ?_)
  cases c <;> rfl

/-- What arrives of a view in a view is not as deep as what arrives of the whole. -/
theorem depth_through_toJson_le {l : ViewLayer View} {levels : ℕ} {inner : View}
    (h : ((l.map toJson).toJson.through m).depth ≤ levels + 1) (hinner : .made inner ∈ l.children) :
    (inner.toJson.through m).depth ≤ levels := by
  have hP := (Json.descending_depth levels).through m
  rw [ViewLayer.toJson_eq, Json.through_obj, Json.depth_obj_le_iff] at h
  have hparts : (l.map toJson).toMembers.Each fun json => (json.through m).depth ≤ levels :=
    fun member hmember => h _ (List.mem_map_of_mem hmember)
  rw [ViewLayer.toMembers, Members.each_append, Members.each_fieldIfNonempty] at hparts
  have hmem : Child.made inner.toJson ∈ (l.map toJson).children :=
    List.mem_map_of_mem (f := Child.map toJson) hinner
  have hchild := hP.arr _ (hparts.2 (List.ne_nil_of_mem hmem)) _ (List.mem_map_of_mem hmem)
  exact hP.obj _ hchild ("localized", inner.toJson) List.mem_cons_self

theorem ofJsonWithin?_through {levels : ℕ} {v : View} (hdepth : (v.toJson.through m).depth ≤ levels)
    (h : ∀ t ∈ v.trees, m.Carries t) : ofJsonWithin? levels (v.toJson.through m) = some v := by
  induction levels generalizing v with
  | zero => exact absurd hdepth (Nat.not_le.2 (Json.depth_pos _))
  | succ levels ih =>
    obtain ⟨l⟩ := v
    rw [trees_node, List.forall_mem_flatMap] at h
    rw [toJson_node] at hdepth ⊢
    have hlayer : ViewLayer.ofJson? ((l.map toJson).toJson.through m) =
        some ((l.map toJson).map (Json.through m)) := by
      refine ViewLayer.ofJson?_through m (List.forall_mem_map.2 fun c hc => ?_)
      cases c with
      | raw tree options => exact h _ hc
      | made view => exact List.forall_mem_nil _
    have hchildren : ((l.map toJson).map (Json.through m)).children.mapM
        (Child.traverse? (ofJsonWithin? levels)) = some l.children := by
      rw [ViewLayer.map, ViewLayer.map, List.mapM_map, List.mapM_map, mapM_eq_some_self]
      intro c hc
      cases c with
      | raw tree options => rfl
      | made inner =>
        have hinner := ih (depth_through_toJson_le m hdepth hc) (h _ hc)
        change (ofJsonWithin? levels (inner.toJson.through m)).bind _ = _
        rw [hinner]
        rfl
    rw [ofJsonWithin?, hlayer]
    rw [Option.bind_eq_bind, Option.bind_some, hchildren]
    rfl

/-- A view arrives if its trees do. -/
theorem ofJson?_through {v : View} (h : ∀ t ∈ v.trees, m.Carries t) :
    ofJson? (v.toJson.through m) = some v :=
  ofJsonWithin?_through m (Nat.le_refl _) h

end View

/-! ## Failures -/

@[simp]
theorem ErrorDetails.through_toJson (e : ErrorDetails) : e.toJson.through m = e.toJson := by
  simp [toJson]

@[simp]
theorem ErrorDetails.ofJson?_toJson (e : ErrorDetails) : ofJson? e.toJson = some e := by
  simp [ofJson?, toJson]

theorem ViewFailure.ofJson?_through {f : ViewFailure} (h : ∀ t ∈ f.tree, m.Carries t) :
    ofJson? (f.toJson.through m) = some f := by
  have htree : (f.tree.mapM fun t => TypeTree.ofJson? (t.toJson.through m)) = some f.tree :=
    mapM_option_eq_some_self.2 fun t ht => (TypeTree.ofJson?_through_eq_some_self m).2 (h t ht)
  simp [ofJson?, toJson, TypeTree.through_toJson_ne_null, htree]

namespace ViewResult

/-- The trees in a result. -/
def trees : ViewResult → List TypeTree
  | failure f => f.tree.toList
  | view v => v.trees

/-- A view is never read as a failure. -/
theorem failureOfJson?_through_view (v : View) :
    failureOfJson? ((view v).toJson.through m) = none := by
  obtain ⟨l⟩ := v
  have hnamed : (Members.through m (l.map View.toJson).toMembers).named "error" = [] := by
    simp [ViewLayer.toMembers]
  rw [toJson, View.toJson_node, ViewLayer.toJson_eq, Json.through_obj, failureOfJson?,
    Json.members?_obj, Option.bind_eq_bind, Option.bind_some, Members.required?_eq, hnamed,
    Members.requiredOf_nil]

/-- A failure is never read as a view. -/
theorem view_ofJson?_through_failure (f : ViewFailure) :
    View.ofJson? ((failure f).toJson.through m) = none := by
  have hlayer : ViewLayer.ofJson? ((failure f).toJson.through m) = none := by
    rw [toJson, Json.through_obj]
    rfl
  rw [View.ofJson?]
  cases ((failure f).toJson.through m).depth with
  | zero => rfl
  | succ levels =>
    rw [View.ofJsonWithin?, hlayer]
    rfl

/-- A result arrives if its trees do. -/
theorem ofJson?_through {r : ViewResult} (h : ∀ t ∈ r.trees, m.Carries t) :
    ofJson? (r.toJson.through m) = some r := by
  cases r with
  | failure f =>
    have hfailure := ViewFailure.ofJson?_through m fun t ht => h t (Option.mem_toList.2 ht)
    simp [ofJson?, failureOfJson?, toJson, hfailure]
  | view v =>
    rw [ofJson?, failureOfJson?_through_view]
    exact congrArg (Option.map view) (View.ofJson?_through m h)

/-! ## Documents -/

/-- Documents of trees and of results come back as they were, if their numbers are finite, and no
document is read as both a view and a failure. -/
theorem documents_come_back :
    (∀ t : TypeTree, (∀ d ∈ t.numbers, d.isFinite = true) → TypeTree.ofJson? t.toJson = some t) ∧
      (∀ r : ViewResult, (∀ t ∈ r.trees, ∀ d ∈ t.numbers, d.isFinite = true) →
        ofJson? r.toJson = some r) ∧
      (∀ v : View, failureOfJson? (view v).toJson = none) ∧
      ∀ f : ViewFailure, View.ofJson? (failure f).toJson = none := by
  refine ⟨fun t ht => ?_, fun r hr => ?_, fun v => ?_, fun f => ?_⟩
  · have htree := (TypeTree.ofJson?_through_eq_some_self .exact).2 (Medium.exact_carries.2 ht)
    rwa [Json.through_exact] at htree
  · have hresult := ofJson?_through .exact fun t ht => Medium.exact_carries.2 (hr t ht)
    rwa [Json.through_exact] at hresult
  · have hview := failureOfJson?_through_view .exact v
    rwa [Json.through_exact] at hview
  · have hfailure := view_ofJson?_through_failure .exact f
    rwa [Json.through_exact] at hfailure

/-- A view of a type parameter, whose argument is a union with a number, in a group of its own. -/
def numberArgument : View :=
  .node
    { handle := ⟨0⟩
      children := [.made (.node
        { handle := ⟨1⟩
          kind := some .typeParameter
          dimension := 2
          children := [.raw (.node { id := ⟨5⟩, shape := .typeParameter none none none })
            { purpose := some .parameterValue
              contextualTypeArgument := some (.node
                { id := ⟨6⟩
                  shape := .union [.node { id := ⟨7⟩, shape := .numberLiteral (Double.ofInt 3) },
                    .node { id := ⟨8⟩, shape := .enumLiteral (.number (Double.ofInt 4)) none none }]
                  }) }] })] }

theorem numberArgument_comes_back :
    (∀ t ∈ (view numberArgument).trees, ∀ d ∈ t.numbers, d.isFinite = true) ∧
      ofJson? (view numberArgument).toJson = some (view numberArgument) := by
  have hfinite : ∀ t ∈ (view numberArgument).trees, ∀ d ∈ t.numbers, d.isFinite = true := by
    simp [trees, numberArgument, View.trees_node, Child.trees, TypeTree.numbers_node,
      Shape.number?, Layer.children, Shape.children]
    decide
  exact ⟨hfinite, documents_come_back.2.1 (view numberArgument) hfinite⟩

end ViewResult

end TypeAtlas
