import TypeAtlas.Proofs.Tree.Codec
/-!
# What a written node is made of

A property that is handed up from the parts of a value to the value holds of a written tree as soon
as it holds of its numbers (`TypeTree.hereditary_toJson`), and one that is handed down holds of the
children of a node when it holds of the node (`Layer.descending_toMembers`). The first is used to
see that a tree can be read and repeats no member, the second that a child is not as deep as its
parent.
-/

namespace TypeAtlas

open Members

/-! ## Handed down -/

section Descending

variable {P : Json → Prop} (hP : Json.Descending P)

include hP

theorem Json.Descending.optionArr {xs : Option (List Json)} (h : ∀ items ∈ xs, P (.arr items)) :
    ∀ c ∈ xs.getD [], P c := by
  cases xs with
  | none => exact fun c hc => absurd hc List.not_mem_nil
  | some items => exact hP.arr items (h items rfl)

theorem SignatureLayer.descending_toJson {s : SignatureLayer Json} (h : P s.toJson) :
    ∀ c ∈ s.children, P c := by
  have hparts := hP.obj _ h
  simp only [each_append, each_field, each_fieldIfSome] at hparts
  obtain ⟨⟨⟨-, hparameters⟩, hreturn⟩, htypes⟩ := hparts
  intro c hc
  simp only [children, List.mem_append, Option.mem_toList] at hc
  rcases hc with (hc | hc) | hc
  · exact hP.arr _ hparameters c hc
  · exact hreturn c hc
  · exact hP.optionArr htypes c hc

theorem IndexLayer.descending_toJson {i : IndexLayer Json} (h : P i.toJson) :
    ∀ c ∈ i.children, P c := by
  have hparts := hP.obj _ h
  simp only [each_append, each_fieldIfSome] at hparts
  obtain ⟨⟨⟨hkey, hvalue⟩, -⟩, -⟩ := hparts
  intro c hc
  simp only [children, List.mem_append, Option.mem_toList] at hc
  rcases hc with hc | hc
  · exact hkey c hc
  · exact hvalue c hc

theorem Json.Descending.indexInfos {infos : List (IndexLayer Json)}
    (h : infos ≠ [] → P (.ofList IndexLayer.toJson infos)) :
    ∀ c ∈ infos.flatMap IndexLayer.children, P c := by
  intro c hc
  obtain ⟨i, hi, hc⟩ := List.mem_flatMap.1 hc
  exact IndexLayer.descending_toJson hP
    (hP.arr _ (h (List.ne_nil_of_mem hi)) _ (List.mem_map_of_mem hi)) c hc

theorem Json.Descending.signatures {signatures : List (SignatureLayer Json)}
    (h : signatures ≠ [] → P (.ofList SignatureLayer.toJson signatures)) :
    ∀ c ∈ signatures.flatMap SignatureLayer.children, P c := by
  intro c hc
  obtain ⟨s, hs, hc⟩ := List.mem_flatMap.1 hc
  exact SignatureLayer.descending_toJson hP
    (hP.arr _ (h (List.ne_nil_of_mem hs)) _ (List.mem_map_of_mem hs)) c hc

theorem Json.Descending.ofList {xs : List Json} (h : xs ≠ [] → P (.ofList id xs)) :
    ∀ c ∈ xs, P c := by
  intro c hc
  have hitems := hP.arr _ (h (List.ne_nil_of_mem hc))
  rw [List.map_id] at hitems
  exact hitems c hc

theorem ClassLayer.descending_toMembers {c : ClassLayer Json} (h : Each P c.toMembers) :
    ∀ child ∈ c.children, P child := by
  simp only [toMembers, each_append, each_field, each_fieldIfSome, each_fieldIfNonempty] at h
  obtain ⟨⟨⟨⟨⟨-, hproperties⟩, hinfos⟩, hbase⟩, himplements⟩, hsignatures⟩ := h
  intro child hchild
  simp only [children, List.mem_append, Option.mem_toList] at hchild
  rcases hchild with (((hchild | hchild) | hchild) | hchild) | hchild
  · exact hP.arr _ hproperties child hchild
  · exact hP.indexInfos hinfos child hchild
  · exact hbase child hchild
  · exact hP.ofList himplements child hchild
  · exact hP.signatures hsignatures child hchild

theorem Shape.descending_toMembers {s : Shape Json} (h : Each P s.toMembers) :
    ∀ c ∈ s.children, P c := by
  cases s with
  | class' members => exact ClassLayer.descending_toMembers hP h
  | interface members => exact ClassLayer.descending_toMembers hP h
  | function signatures => exact hP.signatures fun _ => (each_field _ _).1 h
  | object properties indexInfos objectClass =>
    simp only [toMembers, each_append, each_field, each_fieldIfSome, each_fieldIfNonempty] at h
    obtain ⟨⟨hproperties, hinfos⟩, hclass⟩ := h
    intro c hc
    simp only [children, List.mem_append, Option.mem_toList] at hc
    rcases hc with (hc | hc) | hc
    · exact hP.arr _ hproperties c hc
    · exact hP.indexInfos hinfos c hc
    · exact hclass c hc
  | intersection types properties indexInfos =>
    simp only [toMembers, each_append, each_field, each_fieldIfNonempty] at h
    obtain ⟨⟨htypes, hproperties⟩, hinfos⟩ := h
    intro c hc
    simp only [children, List.mem_append] at hc
    rcases hc with (hc | hc) | hc
    · exact hP.arr _ htypes c hc
    · exact hP.arr _ hproperties c hc
    · exact hP.indexInfos hinfos c hc
  | _ =>
    have harr := hP.arr
    simp only [toMembers, each_append, each_field, each_fieldIfSome, children, List.mem_append,
      List.mem_cons, List.not_mem_nil, Option.mem_toList, Option.mem_def, id_eq] at h ⊢
    grind

theorem Layer.descending_toMembers {l : Layer Json} (h : Each P l.toMembers) :
    ∀ c ∈ l.children, P c := by
  simp only [toMembers, each_append, each_field, each_fieldIfSome] at h
  obtain ⟨⟨⟨⟨⟨-, hshape⟩, -⟩, -⟩, harguments⟩, hparameters⟩ := h
  intro c hc
  simp only [children, List.mem_append] at hc
  rcases hc with (hc | hc) | hc
  · exact Shape.descending_toMembers hP hshape c hc
  · exact hP.optionArr harguments c hc
  · exact hP.optionArr hparameters c hc

end Descending

/-! ## Names -/

/-- The names of the members that belong to a kind, in their order. -/
def NodeKind.memberNames : NodeKind → List String
  | primitive => ["primitive"]
  | intrinsic => ["name"]
  | stringLiteral | numberLiteral | bigintLiteral | booleanLiteral => ["value"]
  | enumLiteral => ["value", "literalSymbol", "parentSymbol"]
  | enum => ["enumSymbol", "members"]
  | object => ["properties", "indexInfos", "objectClass"]
  | class' | interface =>
    ["classSymbol", "properties", "indexInfos", "baseType", "implementsTypes",
      "constructSignatures"]
  | function => ["signatures"]
  | array => ["type", "readonly"]
  | tuple => ["types", "names", "readonly", "minLength"]
  | union => ["types"]
  | intersection => ["types", "properties", "indexInfos"]
  | index => ["keyOf"]
  | indexedAccess => ["objectType", "indexType"]
  | conditional => ["checkType", "extendsType", "trueType", "falseType"]
  | substitution => ["baseType", "substitute"]
  | stringMapping => ["typeSymbol", "type"]
  | templateLiteral => ["texts", "types"]
  | typeParameter => ["typeSymbol", "baseConstraint", "defaultType"]
  | nonPrimitive | maxDepth => []
  | reference => ["location"]

theorem ClassLayer.within_toMembers (c : ClassLayer Json) :
    Within c.toMembers NodeKind.class'.memberNames :=
  (((((within_fieldIfSome _ _ _).append (within_field _ _)).append
    (within_fieldIfNonempty _ _ _)).append (within_fieldIfSome _ _ _)).append
    (within_fieldIfNonempty _ _ _)).append (within_fieldIfNonempty _ _ _)

theorem Shape.within_toMembers : ∀ s : Shape Json, Within s.toMembers s.kind.memberNames
  | primitive _ | intrinsic _ | stringLiteral _ | numberLiteral _ | bigintLiteral _
  | booleanLiteral _ | function _ | union _ | index _ => within_field _ _
  | indexedAccess .. | substitution .. | templateLiteral .. =>
    (within_field _ _).append (within_field _ _)
  | enum .. | stringMapping .. => (within_fieldIfSome _ _ _).append (within_field _ _)
  | array .. => (within_field _ _).append (within_fieldIfTrue _ _)
  | class' members => members.within_toMembers
  | interface members => members.within_toMembers
  | enumLiteral .. =>
    ((within_field _ _).append (within_fieldIfSome _ _ _)).append (within_fieldIfSome _ _ _)
  | object .. =>
    ((within_field _ _).append (within_fieldIfNonempty _ _ _)).append (within_fieldIfSome _ _ _)
  | tuple .. =>
    (((within_field _ _).append (within_fieldIfSome _ _ _)).append
      (within_fieldIfTrue _ _)).append (within_fieldIfSome _ _ _)
  | intersection .. =>
    ((within_field _ _).append (within_field _ _)).append (within_fieldIfNonempty _ _ _)
  | conditional .. =>
    (((within_field _ _).append (within_field _ _)).append
      (within_fieldIfSome _ _ _)).append (within_fieldIfSome _ _ _)
  | typeParameter .. =>
    ((within_fieldIfSome _ _ _).append (within_fieldIfSome _ _ _)).append
      (within_fieldIfSome _ _ _)
  | reference _ => within_fieldIfSome _ _ _
  | nonPrimitive | maxDepth => List.Sublist.refl _

/-- No member is written twice in a node. -/
theorem Layer.nodup_toMembers (l : Layer Json) : (l.toMembers.map Prod.fst).Nodup := by
  have hnames : ∀ kind : NodeKind,
      (["id"] ++ ["kind"] ++ kind.memberNames ++ ["symbolMeta"] ++ ["aliasSymbolMeta"] ++
        ["typeArguments"] ++ ["typeParameters"]).Nodup := by
    intro kind
    cases kind <;> decide
  exact Within.nodup ((((((( within_field _ _).append (within_field _ _)).append
    l.shape.within_toMembers).append (within_fieldIfSome _ _ _)).append
    (within_fieldIfSome _ _ _)).append (within_fieldIfSome _ _ _)).append
    (within_fieldIfSome _ _ _)) (hnames l.shape.kind)

/-! ## Handed up -/

section Hereditary

variable {P : Json → Prop} (hP : Json.Hereditary P)

include hP

theorem SymbolMeta.hereditary_toJson (s : SymbolMeta) : P s.toJson := by
  have hdeclaration : ∀ l : Location, P (.obj [("location", l.toJson)]) :=
    fun l => hP.obj _ (by simp [l.hereditary_toJson hP]) (by simp)
  refine hP.obj _ ?_ ?_
  · simp [hP.str, hP.bool, s.flags.hereditary_toJson hP, hP.ofList, hdeclaration]
  · exact Within.nodup (((((((( within_field _ _).append (within_field _ _)).append
      (within_fieldIfTrue _ _)).append (within_fieldIfTrue _ _)).append
      (within_fieldIfTrue _ _)).append (within_fieldIfTrue _ _)).append
      (within_fieldIfTrue _ _)).append (within_fieldIfNonempty _ _ _)) (by decide)

theorem SignatureLayer.hereditary_toJson {s : SignatureLayer Json} (h : ∀ c ∈ s.children, P c) :
    P s.toJson := by
  simp only [children, List.forall_mem_append] at h
  obtain ⟨⟨hparameters, hreturn⟩, htypes⟩ := h
  refine hP.obj _ ?_ ?_
  · simp only [each_append, each_field, each_fieldIfSome]
    refine ⟨⟨⟨fun _ _ => SymbolMeta.hereditary_toJson hP _, hP.arr _ hparameters⟩,
      fun c hc => hreturn c (Option.mem_toList.2 hc)⟩, fun items hitems => hP.arr _ ?_⟩
    rw [hitems] at htypes
    exact htypes
  · exact Within.nodup ((((within_fieldIfSome _ _ _).append (within_field _ _)).append
      (within_fieldIfSome _ _ _)).append (within_fieldIfSome _ _ _)) (by decide)

theorem IndexLayer.hereditary_toJson {i : IndexLayer Json} (h : ∀ c ∈ i.children, P c) :
    P i.toJson := by
  simp only [children, List.forall_mem_append, Option.mem_toList] at h
  refine hP.obj _ ?_ ?_
  · simp only [each_append, each_fieldIfSome, each_fieldIfTrue]
    exact ⟨⟨h, fun _ _ => SymbolMeta.hereditary_toJson hP _⟩, fun _ => hP.bool true⟩
  · exact Within.nodup ((((within_fieldIfSome _ _ _).append (within_fieldIfSome _ _ _)).append
      (within_fieldIfSome _ _ _)).append (within_fieldIfTrue _ _)) (by decide)

theorem Json.Hereditary.indexInfos {infos : List (IndexLayer Json)}
    (h : ∀ c ∈ infos.flatMap IndexLayer.children, P c) : P (.ofList IndexLayer.toJson infos) :=
  hP.ofList fun i hi => IndexLayer.hereditary_toJson hP fun c hc =>
    h c (List.mem_flatMap.2 ⟨i, hi, hc⟩)

theorem Json.Hereditary.signatures {signatures : List (SignatureLayer Json)}
    (h : ∀ c ∈ signatures.flatMap SignatureLayer.children, P c) :
    P (.ofList SignatureLayer.toJson signatures) :=
  hP.ofList fun s hs => SignatureLayer.hereditary_toJson hP fun c hc =>
    h c (List.mem_flatMap.2 ⟨s, hs, hc⟩)

theorem ClassLayer.each_toMembers {c : ClassLayer Json} (h : ∀ child ∈ c.children, P child) :
    Each P c.toMembers := by
  simp only [children, List.forall_mem_append, Option.mem_toList] at h
  obtain ⟨⟨⟨⟨hproperties, hinfos⟩, hbase⟩, himplements⟩, hsignatures⟩ := h
  simp only [toMembers, each_append, each_field, each_fieldIfSome, each_fieldIfNonempty]
  exact ⟨⟨⟨⟨⟨fun _ _ => SymbolMeta.hereditary_toJson hP _, hP.arr _ hproperties⟩,
    fun _ => hP.indexInfos hinfos⟩, hbase⟩, fun _ => hP.ofList himplements⟩,
    fun _ => hP.signatures hsignatures⟩

theorem Shape.each_toMembers {s : Shape Json} (h : ∀ c ∈ s.children, P c)
    (hnumber : ∀ d ∈ s.number?, P (.ofDouble d)) : Each P s.toMembers := by
  cases s with
  | class' members => exact ClassLayer.each_toMembers hP h
  | interface members => exact ClassLayer.each_toMembers hP h
  | function signatures => exact (each_field _ _).2 (hP.signatures h)
  | numberLiteral value => exact (each_field _ _).2 (hnumber value rfl)
  | enumLiteral value literalSymbol parentSymbol =>
    have hvalue : P value.toJson :=
      value.hereditary_toJson hP fun d hd => hnumber d (by rw [hd]; rfl)
    simp [toMembers, hvalue, SymbolMeta.hereditary_toJson hP]
  | object properties indexInfos objectClass =>
    simp only [children, List.forall_mem_append, Option.mem_toList] at h
    simp only [toMembers, each_append, each_field, each_fieldIfSome, each_fieldIfNonempty]
    exact ⟨⟨hP.arr _ h.1.1, fun _ => hP.indexInfos h.1.2⟩, h.2⟩
  | intersection types properties indexInfos =>
    simp only [children, List.forall_mem_append] at h
    simp only [toMembers, each_append, each_field, each_fieldIfNonempty]
    exact ⟨⟨hP.arr _ h.1.1, hP.arr _ h.1.2⟩, fun _ => hP.indexInfos h.2⟩
  | enum | tuple | union | templateLiteral =>
    have harr := hP.arr _ h
    simp only [children] at harr
    simp [toMembers, harr, hP.str, hP.bool, hP.ofList, hP.uint64, SymbolMeta.hereditary_toJson hP]
  | _ =>
    simp only [children, List.forall_mem_append, List.forall_mem_cons, Option.mem_toList] at h
    simp +contextual [toMembers, h, hP.str, hP.bool, SymbolMeta.hereditary_toJson hP,
      BigInt.hereditary_toJson hP, Location.hereditary_toJson hP]

theorem Layer.hereditary_toJson {l : Layer Json} (h : ∀ c ∈ l.children, P c)
    (hnumber : ∀ d ∈ l.shape.number?, P (.ofDouble d)) : P l.toJson := by
  simp only [children, List.forall_mem_append] at h
  obtain ⟨⟨hshape, harguments⟩, hparameters⟩ := h
  have hoption : ∀ {xs : Option (List Json)}, (∀ c ∈ xs.getD [], P c) →
      ∀ items ∈ xs, P (.arr items) := by
    intro xs hxs items hitems
    rw [hitems] at hxs
    exact hP.arr _ hxs
  refine hP.obj _ ?_ l.nodup_toMembers
  simp only [each_append, each_field, each_fieldIfSome]
  exact ⟨⟨⟨⟨⟨⟨l.id.hereditary_toJson hP, hP.str _⟩, Shape.each_toMembers hP hshape hnumber⟩,
    fun _ _ => SymbolMeta.hereditary_toJson hP _⟩, fun _ _ => SymbolMeta.hereditary_toJson hP _⟩,
    hoption harguments⟩, hoption hparameters⟩

end Hereditary

end TypeAtlas
