import Mathlib.Data.List.Perm.Basic
import TypeAtlas.Proofs.Walk.Plan
/-!
# Visiting a layer with a state

`Layer.mapM` with a state visits the children of a layer one after the other. Three facts about one
visit carry over to the whole layer:

* what a visit does to the state and what it answers, for every relation that can be put together
  step by step and does not look at the order of the answers (`Layer.mapM_emits`);
* a part of the answer that depends on the argument only (`Layer.map_mapM`);
* that it is the same as another visit, for the children of the layer, whatever the answers are
  (`Layer.mapM_congr`) or as long as they have a property (`Layer.mapM_agree`).
-/

namespace TypeAtlas

variable {σ α β γ : Type}

/-- A relation between the state before, the answers given and the state after that holds of several
steps when it holds of each, in whatever order the answers are listed. -/
structure Composes (R : σ → List β → σ → Prop) : Prop where
  nil (s : σ) : R s [] s
  append {s t u : σ} {xs ys : List β} : R s xs t → R t ys u → R s (xs ++ ys) u
  perm {s t : σ} {xs ys : List β} : xs.Perm ys → R s xs t → R s ys t

/-- A computation gives answers that are in the relation with its states. -/
def Emits (R : σ → List β → σ → Prop) (answers : γ → List β) (x : StateM σ γ) : Prop :=
  ∀ s, R s (answers (x s).1) (x s).2

/-! ## What a visit does -/

section Emits

variable {R : σ → List β → σ → Prop} {f : α → StateM σ β}

theorem emits_flatMap (hR : Composes R) {answers : γ → List β} {k : α → StateM σ γ}
    (hk : ∀ a, Emits R answers (k a)) :
    ∀ as : List α, Emits R (List.flatMap answers) (as.mapM k)
  | [], s => hR.nil s
  | a :: as, s => by
    rw [List.mapM_cons]
    exact hR.append (hk a s) (emits_flatMap hR hk as _)

theorem emits_list (hR : Composes R) (hf : ∀ a, Emits R ([·]) (f a)) (as : List α) :
    Emits R (fun bs => bs) (as.mapM f) := by
  intro s
  have h := emits_flatMap hR hf as s
  rwa [List.flatMap_singleton'] at h

theorem emits_option (hR : Composes R) (hf : ∀ a, Emits R ([·]) (f a)) :
    ∀ a : Option α, Emits R Option.toList (a.mapM f)
  | none, s => hR.nil s
  | some a, s => hf a s

theorem emits_optionList (hR : Composes R) (hf : ∀ a, Emits R ([·]) (f a)) :
    ∀ as : Option (List α), Emits R (·.getD []) (as.mapM (List.mapM f))
  | none, s => hR.nil s
  | some as, s => emits_list hR hf as s

theorem SignatureLayer.mapM_emits (hR : Composes R) (hf : ∀ a, Emits R ([·]) (f a))
    (l : SignatureLayer α) : Emits R children (l.mapM f) := by
  intro s
  have h₁ := emits_list hR hf l.parameters s
  have h₂ := hR.append h₁ (emits_option hR hf l.returnType _)
  exact hR.append h₂ (emits_optionList hR hf l.typeParameters _)

theorem IndexLayer.mapM_emits (hR : Composes R) (hf : ∀ a, Emits R ([·]) (f a))
    (l : IndexLayer α) : Emits R children (l.mapM f) := by
  intro s
  have h₁ := emits_option hR hf l.keyType s
  exact hR.append h₁ (emits_option hR hf l.valueType _)

theorem ClassLayer.mapM_emits (hR : Composes R) (hf : ∀ a, Emits R ([·]) (f a))
    (l : ClassLayer α) : Emits R children (l.mapM f) := by
  intro s
  have h₁ := emits_list hR hf l.properties s
  have h₂ := hR.append h₁ (emits_flatMap hR (IndexLayer.mapM_emits hR hf) l.indexInfos _)
  have h₃ := hR.append h₂ (emits_option hR hf l.baseType _)
  have h₄ := hR.append h₃ (emits_list hR hf l.implementsTypes _)
  exact hR.append h₄
    (emits_flatMap hR (SignatureLayer.mapM_emits hR hf) l.constructSignatures _)

theorem Shape.mapM_emits (hR : Composes R) (hf : ∀ a, Emits R ([·]) (f a)) (l : Shape α) :
    Emits R children (l.mapM f) := by
  intro s
  have infos := emits_flatMap hR (IndexLayer.mapM_emits hR hf)
  cases l with
  | enum _ members => exact emits_list hR hf members s
  | object properties indexInfos objectClass =>
    -- the class is visited first and listed last
    have h₁ := emits_option hR hf objectClass s
    have h₂ := hR.append (emits_list hR hf properties (objectClass.mapM f s).2) (infos indexInfos _)
    exact hR.perm List.perm_append_comm (hR.append h₁ h₂)
  | class' members => exact members.mapM_emits hR hf s
  | interface members => exact members.mapM_emits hR hf s
  | function signatures => exact emits_flatMap hR (SignatureLayer.mapM_emits hR hf) signatures s
  | array element _ => exact hf element s
  | tuple types => exact emits_list hR hf types s
  | union types => exact emits_list hR hf types s
  | intersection types properties indexInfos =>
    have h₁ := emits_list hR hf types s
    have h₂ := hR.append h₁ (emits_list hR hf properties _)
    exact hR.append h₂ (infos indexInfos _)
  | index keyOf => exact hf keyOf s
  | indexedAccess objectType indexType => exact hR.append (hf objectType s) (hf indexType _)
  | conditional checkType extendsType trueType falseType =>
    have h₁ := hR.append (hf checkType s) (hf extendsType _)
    have h₂ := hR.append h₁ (emits_option hR hf trueType _)
    exact hR.append h₂ (emits_option hR hf falseType _)
  | substitution baseType substitute => exact hR.append (hf baseType s) (hf substitute _)
  | stringMapping _ mapped => exact hf mapped s
  | templateLiteral _ types => exact emits_list hR hf types s
  | typeParameter _ baseConstraint defaultType =>
    have h₁ := emits_option hR hf baseConstraint s
    exact hR.append h₁ (emits_option hR hf defaultType _)
  | primitive | intrinsic | stringLiteral | numberLiteral | bigintLiteral | booleanLiteral
  | enumLiteral | nonPrimitive | reference | maxDepth => exact hR.nil s

/-- What every visit does, the visits of all children of a layer do together. -/
theorem Layer.mapM_emits (hR : Composes R) (hf : ∀ a, Emits R ([·]) (f a)) (l : Layer α) :
    Emits R children (l.mapM f) := by
  intro s
  have h₁ := l.shape.mapM_emits hR hf s
  have h₂ := hR.append h₁ (emits_optionList hR hf l.typeArguments _)
  exact hR.append h₂ (emits_optionList hR hf l.typeParameters _)

end Emits

/-! ## What an answer keeps of its argument -/

section Tags

variable {f : α → StateM σ β} {tag : β → γ} {tag' : α → γ}

theorem map_mapM_list {δ ε ζ : Type} {k : δ → StateM σ ε} {p : ε → ζ} {q : δ → ζ}
    (h : ∀ a s, p (k a s).1 = q a) : ∀ (as : List δ) (s : σ), (as.mapM k s).1.map p = as.map q
  | [], _ => rfl
  | a :: as, s => by
    rw [List.mapM_cons]
    exact congrArg₂ List.cons (h a s) (map_mapM_list h as _)

theorem map_mapM_option {δ ε ζ : Type} {k : δ → StateM σ ε} {p : ε → ζ} {q : δ → ζ}
    (h : ∀ a s, p (k a s).1 = q a) : ∀ (a : Option δ) (s : σ), (a.mapM k s).1.map p = a.map q
  | none, _ => rfl
  | some a, s => congrArg some (h a s)

theorem SignatureLayer.map_mapM (h : ∀ a s, tag (f a s).1 = tag' a) (l : SignatureLayer α)
    (s : σ) : (l.mapM f s).1.map tag = l.map tag' := by
  have h₁ := map_mapM_list h l.parameters s
  have h₂ := map_mapM_option h l.returnType
  have h₃ := map_mapM_option (map_mapM_list h) l.typeParameters
  exact congr (congr (congrArg (mk l.symbolMeta) h₁) (h₂ _)) (h₃ _)

theorem IndexLayer.map_mapM (h : ∀ a s, tag (f a s).1 = tag' a) (l : IndexLayer α) (s : σ) :
    (l.mapM f s).1.map tag = l.map tag' := by
  have h₁ := map_mapM_option h l.keyType s
  have h₂ := map_mapM_option h l.valueType
  exact congr (congr (congr (congrArg mk h₁) (h₂ _)) rfl) rfl

theorem ClassLayer.map_mapM (h : ∀ a s, tag (f a s).1 = tag' a) (l : ClassLayer α) (s : σ) :
    (l.mapM f s).1.map tag = l.map tag' := by
  have h₁ := map_mapM_list h l.properties s
  have h₂ := map_mapM_list (IndexLayer.map_mapM h) l.indexInfos
  have h₃ := map_mapM_option h l.baseType
  have h₄ := map_mapM_list h l.implementsTypes
  have h₅ := map_mapM_list (SignatureLayer.map_mapM h) l.constructSignatures
  exact congr (congr (congr (congr (congrArg (mk l.classSymbol) h₁) (h₂ _)) (h₃ _)) (h₄ _)) (h₅ _)

theorem Shape.map_mapM (h : ∀ a s, tag (f a s).1 = tag' a) (l : Shape α) (s : σ) :
    (l.mapM f s).1.map tag = l.map tag' := by
  have list := map_mapM_list h
  have option := map_mapM_option h
  have infos := map_mapM_list (IndexLayer.map_mapM h)
  cases l with
  | enum symbol members => exact congrArg (enum symbol) (list members s)
  | object properties indexInfos objectClass =>
    exact congr (congr (congrArg object (list properties _)) (infos indexInfos _))
      (option objectClass s)
  | class' members => exact congrArg class' (members.map_mapM h s)
  | interface members => exact congrArg interface (members.map_mapM h s)
  | function signatures =>
    exact congrArg function (map_mapM_list (SignatureLayer.map_mapM h) signatures s)
  | array element readonly => exact congr (congrArg array (h element s)) rfl
  | tuple types names readonly minLength =>
    exact congr (congr (congr (congrArg tuple (list types s)) rfl) rfl) rfl
  | union types => exact congrArg union (list types s)
  | intersection types properties indexInfos =>
    exact congr (congr (congrArg intersection (list types s)) (list properties _))
      (infos indexInfos _)
  | index keyOf => exact congrArg index (h keyOf s)
  | indexedAccess objectType indexType =>
    exact congr (congrArg indexedAccess (h objectType s)) (h indexType _)
  | conditional checkType extendsType trueType falseType =>
    exact congr (congr (congr (congrArg conditional (h checkType s)) (h extendsType _))
      (option trueType _)) (option falseType _)
  | substitution baseType substitute =>
    exact congr (congrArg substitution (h baseType s)) (h substitute _)
  | stringMapping symbol mapped => exact congrArg (stringMapping symbol) (h mapped s)
  | templateLiteral texts types => exact congrArg (templateLiteral texts) (list types s)
  | typeParameter symbol baseConstraint defaultType =>
    exact congr (congrArg (typeParameter symbol) (option baseConstraint s)) (option defaultType _)
  | primitive | intrinsic | stringLiteral | numberLiteral | bigintLiteral | booleanLiteral
  | enumLiteral | nonPrimitive | reference | maxDepth => rfl

/-- A part of the answers that depends on the arguments only can be read off the layer of the
arguments. -/
theorem Layer.map_mapM (h : ∀ a s, tag (f a s).1 = tag' a) (l : Layer α) (s : σ) :
    (l.mapM f s).1.map tag = l.map tag' := by
  have h₁ := l.shape.map_mapM h s
  have h₂ := map_mapM_option (map_mapM_list h) l.typeArguments
  have h₃ := map_mapM_option (map_mapM_list h) l.typeParameters
  exact congr (congr (congr (congr (congrArg (mk l.id) h₁) rfl) rfl) (h₂ _)) (h₃ _)

end Tags

/-! ## Visits that agree on the children -/

/-- The second computation does what the first one does, from every state from which all answers of
the first one have a property. -/
def Agree (P : β → Prop) (answers : γ → List β) (x x' : StateM σ γ) : Prop :=
  ∀ s, (∀ b ∈ answers (x s).1, P b) → x' s = x s

section Agree

variable {P : β → Prop} {f f' : α → StateM σ β}

theorem agree_refl {answers : γ → List β} (x : StateM σ γ) : Agree P answers x x :=
  fun _ _ => rfl

/-- The answers of the first part are among those of the whole. -/
theorem Agree.bind {δ : Type} {first : γ → List β} {answers : δ → List β} {x x' : StateM σ γ}
    {k k' : γ → StateM σ δ} (hx : Agree P first x x') (hk : ∀ c, Agree P answers (k c) (k' c))
    (hsub : ∀ c s, first c ⊆ answers (k c s).1) : Agree P answers (x >>= k) (x' >>= k') := by
  intro s h
  have hfirst : x' s = x s := hx s fun b hb => h b (hsub (x s).1 (x s).2 hb)
  change k' (x' s).1 (x' s).2 = k (x s).1 (x s).2
  rw [hfirst]
  exact hk (x s).1 (x s).2 h

theorem Agree.map {δ : Type} {first : γ → List β} {answers : δ → List β} {x x' : StateM σ γ}
    {make : γ → δ} (hx : Agree P first x x') (hsub : ∀ c, first c ⊆ answers (make c)) :
    Agree P answers (do return make (← x)) (do return make (← x')) :=
  hx.bind (fun c => agree_refl (pure (make c))) fun c _ => hsub c

theorem agree_flatMap {γ δ : Type} {k k' : γ → StateM σ δ} {children : γ → List α}
    {answers : δ → List β}
    (hk : ∀ {l : γ}, (∀ a ∈ children l, Agree P ([·]) (f a) (f' a)) → Agree P answers (k l) (k' l)) :
    ∀ {ls : List γ}, (∀ a ∈ ls.flatMap children, Agree P ([·]) (f a) (f' a)) →
      Agree P (List.flatMap answers) (ls.mapM k) (ls.mapM k')
  | [], _ => agree_refl _
  | l :: ls, h => by
    rw [List.flatMap_cons, List.forall_mem_append] at h
    rw [List.mapM_cons, List.mapM_cons]
    exact (hk h.1).bind
      (fun c => (agree_flatMap hk h.2).map fun _ => List.subset_append_right _ _)
      fun c s => List.subset_append_left _ _

theorem agree_list {as : List α} (h : ∀ a ∈ as, Agree P ([·]) (f a) (f' a)) :
    Agree P (fun bs => bs) (as.mapM f) (as.mapM f') := by
  have hlist : Agree P (List.flatMap ([·])) (as.mapM f) (as.mapM f') :=
    agree_flatMap (fun {a} (ha : ∀ b ∈ [a], Agree P ([·]) (f b) (f' b)) => ha a List.mem_cons_self)
      (by rwa [List.flatMap_singleton'])
  intro s hs
  exact hlist s (by rwa [List.flatMap_singleton'])

theorem agree_option {a : Option α} (h : ∀ b ∈ a.toList, Agree P ([·]) (f b) (f' b)) :
    Agree P Option.toList (a.mapM f) (a.mapM f') := by
  cases a with
  | none => exact agree_refl _
  | some a => exact (h a List.mem_cons_self).map fun _ => List.Subset.refl _

theorem agree_optionList {as : Option (List α)}
    (h : ∀ a ∈ as.getD [], Agree P ([·]) (f a) (f' a)) :
    Agree P (·.getD []) (as.mapM (List.mapM f)) (as.mapM (List.mapM f')) := by
  cases as with
  | none => exact agree_refl _
  | some as => exact (agree_list h).map fun _ => List.Subset.refl _

theorem SignatureLayer.mapM_agree {l : SignatureLayer α}
    (h : ∀ a ∈ l.children, Agree P ([·]) (f a) (f' a)) :
    Agree P children (l.mapM f) (l.mapM f') := by
  simp only [children, List.forall_mem_append] at h
  obtain ⟨⟨hparameters, hreturn⟩, htypes⟩ := h
  refine (agree_list hparameters).bind (fun parameters => ?_) fun _ _ _ hb =>
    List.mem_append_left _ (List.mem_append_left _ hb)
  refine (agree_option hreturn).bind (fun returnType => ?_) fun _ _ _ hb =>
    List.mem_append_left _ (List.mem_append_right _ hb)
  exact (agree_optionList htypes).map fun _ => List.subset_append_right _ _

theorem IndexLayer.mapM_agree {l : IndexLayer α}
    (h : ∀ a ∈ l.children, Agree P ([·]) (f a) (f' a)) :
    Agree P children (l.mapM f) (l.mapM f') := by
  simp only [children, List.forall_mem_append] at h
  refine (agree_option h.1).bind (fun keyType => ?_) fun _ _ => List.subset_append_left _ _
  exact (agree_option h.2).map fun _ => List.subset_append_right _ _

theorem ClassLayer.mapM_agree {l : ClassLayer α}
    (h : ∀ a ∈ l.children, Agree P ([·]) (f a) (f' a)) :
    Agree P children (l.mapM f) (l.mapM f') := by
  simp only [children, List.forall_mem_append] at h
  obtain ⟨⟨⟨⟨hproperties, hinfos⟩, hbase⟩, himplements⟩, hconstructs⟩ := h
  refine (agree_list hproperties).bind (fun properties => ?_) fun _ _ _ hb =>
    List.mem_append_left _ (List.mem_append_left _ (List.mem_append_left _
      (List.mem_append_left _ hb)))
  refine (agree_flatMap IndexLayer.mapM_agree hinfos).bind (fun infos => ?_) fun _ _ _ hb =>
    List.mem_append_left _ (List.mem_append_left _ (List.mem_append_left _
      (List.mem_append_right _ hb)))
  refine (agree_option hbase).bind (fun base => ?_) fun _ _ _ hb =>
    List.mem_append_left _ (List.mem_append_left _ (List.mem_append_right _ hb))
  refine (agree_list himplements).bind (fun implements => ?_) fun _ _ _ hb =>
    List.mem_append_left _ (List.mem_append_right _ hb)
  exact (agree_flatMap SignatureLayer.mapM_agree hconstructs).map fun _ =>
    List.subset_append_right _ _

theorem Shape.mapM_agree {l : Shape α} (h : ∀ a ∈ l.children, Agree P ([·]) (f a) (f' a)) :
    Agree P children (l.mapM f) (l.mapM f') := by
  cases l with
  | object properties infos objectClass =>
    simp only [children, List.forall_mem_append] at h
    obtain ⟨⟨hproperties, hinfos⟩, hclass⟩ := h
    -- the class is visited first and listed last
    refine (agree_option hclass).bind (fun objectClass => ?_) fun _ _ =>
      List.subset_append_right _ _
    refine (agree_list hproperties).bind (fun properties => ?_) fun _ _ _ hb =>
      List.mem_append_left _ (List.mem_append_left _ hb)
    exact (agree_flatMap IndexLayer.mapM_agree hinfos).map fun _ _ hb =>
      List.mem_append_left _ (List.mem_append_right _ hb)
  | class' members | interface members =>
    exact (ClassLayer.mapM_agree h).map fun _ => List.Subset.refl _
  | function signatures =>
    exact (agree_flatMap SignatureLayer.mapM_agree h).map fun _ => List.Subset.refl _
  | array child | index child | stringMapping _ child =>
    exact (h child List.mem_cons_self).map fun _ => List.Subset.refl _
  | enum _ types | tuple types | union types | templateLiteral _ types =>
    exact (agree_list h).map fun _ => List.Subset.refl _
  | intersection types properties infos =>
    simp only [children, List.forall_mem_append] at h
    obtain ⟨⟨htypes, hproperties⟩, hinfos⟩ := h
    refine (agree_list htypes).bind (fun types => ?_) fun _ _ _ hb =>
      List.mem_append_left _ (List.mem_append_left _ hb)
    refine (agree_list hproperties).bind (fun properties => ?_) fun _ _ _ hb =>
      List.mem_append_left _ (List.mem_append_right _ hb)
    exact (agree_flatMap IndexLayer.mapM_agree hinfos).map fun _ => List.subset_append_right _ _
  | indexedAccess first second | substitution first second =>
    simp only [children, List.forall_mem_cons] at h
    refine h.1.bind (fun first => ?_) fun _ _ => List.subset_append_left [_] _
    exact h.2.1.map fun _ => List.subset_cons_self _ _
  | conditional checkType extendsType trueType falseType =>
    simp only [children, List.forall_mem_append, List.forall_mem_cons] at h
    obtain ⟨⟨⟨hcheck, hextends, -⟩, htrue⟩, hfalse⟩ := h
    refine hcheck.bind (fun checked => ?_) fun _ _ => List.subset_append_left [_] _
    refine hextends.bind (fun extended => ?_) fun _ _ _ hb =>
      List.mem_append_left _ (List.mem_append_left _ (List.mem_cons_of_mem _ hb))
    refine (agree_option htrue).bind (fun whenTrue => ?_) fun _ _ _ hb =>
      List.mem_append_left _ (List.mem_append_right _ hb)
    exact (agree_option hfalse).map fun _ => List.subset_append_right _ _
  | typeParameter symbol constraint default =>
    simp only [children, List.forall_mem_append] at h
    refine (agree_option h.1).bind (fun constraint => ?_) fun _ _ => List.subset_append_left _ _
    exact (agree_option h.2).map fun _ => List.subset_append_right _ _
  | primitive | intrinsic | stringLiteral | numberLiteral | bigintLiteral | booleanLiteral
  | enumLiteral | nonPrimitive | reference | maxDepth => exact agree_refl _

/-- Visits that agree on the children of a layer, as far as the answers have a property, agree on
the layer. -/
theorem Layer.mapM_agree {l : Layer α} (h : ∀ a ∈ l.children, Agree P ([·]) (f a) (f' a)) :
    Agree P children (l.mapM f) (l.mapM f') := by
  simp only [children, List.forall_mem_append] at h
  obtain ⟨⟨hshape, harguments⟩, hparameters⟩ := h
  refine (Shape.mapM_agree hshape).bind (fun shape => ?_) fun _ _ _ hb =>
    List.mem_append_left _ (List.mem_append_left _ hb)
  refine (agree_optionList harguments).bind (fun arguments => ?_) fun _ _ _ hb =>
    List.mem_append_left _ (List.mem_append_right _ hb)
  exact (agree_optionList hparameters).map fun _ => List.subset_append_right _ _

/-- Visits that do the same for the children of a layer do the same for the layer. -/
theorem Layer.mapM_congr {l : Layer α} (h : ∀ a ∈ l.children, f a = f' a) :
    l.mapM f = l.mapM f' := by
  have hagree : Agree (fun _ => True) children (l.mapM f) (l.mapM f') :=
    mapM_agree fun a ha => h a ha ▸ agree_refl (f a)
  funext s
  exact (hagree s fun _ _ => trivial).symm

end Agree

end TypeAtlas
