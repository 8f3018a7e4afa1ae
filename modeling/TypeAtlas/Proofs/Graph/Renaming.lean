import TypeAtlas.Proofs.Graph.Stored
/-!
# Records under other handles

A renaming says which handles take the place of others. A record keeps everything else when its
handles are renamed, and it stays as it is if the renaming fixes the handles in it
(`TypeRecord.rename_eq_self`, `SymbolRecord.rename_eq_self`).
-/

namespace TypeAtlas

open Handle (Role)

/-- Handles that take the place of others. -/
structure Renaming where
  type : TypeId → TypeId
  symbol : SymbolId → SymbolId

/-- A handle that is its own replacement. -/
def Renaming.Fixes (ρ : Renaming) : Handle → Prop
  | .type id => ρ.type id = id
  | .symbol id => ρ.symbol id = id

variable (ρ : Renaming)

/-! ## Renamed records -/

def Signature.rename (s : Signature) : Signature where
  symbol := s.symbol.map ρ.symbol
  typeParameters := s.typeParameters.map ρ.type
  parameters := s.parameters.map ρ.symbol
  returnType := ρ.type s.returnType
  minArgumentCount := s.minArgumentCount

def IndexInfo.rename (i : IndexInfo) : IndexInfo where
  keyType := ρ.type i.keyType
  valueType := ρ.type i.valueType
  isReadonly := i.isReadonly
  parameter := i.parameter.map ρ.symbol

def ObjectMembers.rename (o : ObjectMembers) : ObjectMembers where
  properties := o.properties.map ρ.symbol
  callSignatures := o.callSignatures.map (Signature.rename ρ)
  constructSignatures := o.constructSignatures.map (Signature.rename ρ)
  indexInfos := o.indexInfos.map (IndexInfo.rename ρ)

def ObjectType.rename (o : ObjectType) : ObjectType where
  toObjectMembers := o.toObjectMembers.rename ρ
  target := o.target.map ρ.type
  typeArguments := o.typeArguments.map ρ.type
  typeParameters := o.typeParameters.map ρ.type
  tuple := o.tuple
  baseTypes := o.baseTypes.map ρ.type
  implementsTypes := o.implementsTypes.map ρ.type

def TypeData.rename : TypeData → TypeData
  | intrinsic name => intrinsic name
  | literal value => literal value
  | object o => object (o.rename ρ)
  | union types => union (types.map ρ.type)
  | intersection types => intersection (types.map ρ.type)
  | typeParameter constraint default =>
    typeParameter (constraint.map ρ.type) (default.map ρ.type)
  | index target => index (ρ.type target)
  | indexedAccess objectType indexType => indexedAccess (ρ.type objectType) (ρ.type indexType)
  | conditional checkType extendsType trueType falseType =>
    conditional (ρ.type checkType) (ρ.type extendsType) (trueType.map ρ.type)
      (falseType.map ρ.type)
  | substitution baseType constraint => substitution (ρ.type baseType) (ρ.type constraint)
  | templateLiteral texts types => templateLiteral texts (types.map ρ.type)
  | stringMapping target => stringMapping (ρ.type target)

def TypeRecord.rename (t : TypeRecord) : TypeRecord where
  flags := t.flags
  objectFlags := t.objectFlags
  symbol := t.symbol.map ρ.symbol
  aliasSymbol := t.aliasSymbol.map ρ.symbol
  aliasTypeArguments := t.aliasTypeArguments.map ρ.type
  data := t.data.rename ρ

def Declaration.rename (d : Declaration) : Declaration :=
  { d with typeAtLocation := d.typeAtLocation.map ρ.type }

def SymbolRecord.rename (s : SymbolRecord) : SymbolRecord where
  name := s.name
  flags := s.flags
  checkFlags := s.checkFlags
  declarations := s.declarations.map (Declaration.rename ρ)
  valueDeclaration := s.valueDeclaration
  parent := s.parent.map ρ.symbol
  valueType := s.valueType.map ρ.type
  declaredType := s.declaredType.map ρ.type
  typeParameters := s.typeParameters.map ρ.type

/-! ## Fixed handles -/

section Fixed

variable {ρ}

theorem map_eq_self {α : Type} {f : α → α} {as : List α} (h : ∀ a ∈ as, f a = a) :
    as.map f = as :=
  (List.map_congr_left h).trans (List.map_id as)

theorem optionMap_eq_self {α : Type} {f : α → α} {a : Option α} (h : ∀ b, a = some b → f b = b) :
    a.map f = a := by
  cases a with
  | none => rfl
  | some b => exact congrArg some (h b rfl)

theorem Signature.rename_eq_self {s : Signature}
    (h : ∀ {role : Role} {handle : Handle}, s.Stores role handle → ρ.Fixes handle) :
    s.rename ρ = s := by
  have hsymbol : s.symbol.map ρ.symbol = s.symbol := optionMap_eq_self fun _ hid => h (.symbol hid)
  have htypes : s.typeParameters.map ρ.type = s.typeParameters :=
    map_eq_self fun _ hid => h (.typeParameter hid)
  have hparameters : s.parameters.map ρ.symbol = s.parameters :=
    map_eq_self fun _ hid => h (.parameter hid)
  have hreturn : ρ.type s.returnType = s.returnType := h .returnType
  rw [rename, hsymbol, htypes, hparameters, hreturn]

theorem IndexInfo.rename_eq_self {i : IndexInfo}
    (h : ∀ {role : Role} {handle : Handle}, i.Stores role handle → ρ.Fixes handle) :
    i.rename ρ = i := by
  have hkey : ρ.type i.keyType = i.keyType := h .keyType
  have hvalue : ρ.type i.valueType = i.valueType := h .valueType
  have hparameter : i.parameter.map ρ.symbol = i.parameter :=
    optionMap_eq_self fun _ hid => h (.parameter hid)
  rw [rename, hkey, hvalue, hparameter]

theorem ObjectType.rename_eq_self {o : ObjectType}
    (h : ∀ {role : Role} {handle : Handle}, o.Stores role handle → ρ.Fixes handle) :
    o.rename ρ = o := by
  have hproperties : o.properties.map ρ.symbol = o.properties :=
    map_eq_self fun _ hid => h (.property hid)
  have hcalls : o.callSignatures.map (Signature.rename ρ) = o.callSignatures :=
    map_eq_self fun _ hs => Signature.rename_eq_self fun hstores => h (.callSignature hs hstores)
  have hconstructs : o.constructSignatures.map (Signature.rename ρ) = o.constructSignatures :=
    map_eq_self fun _ hs =>
      Signature.rename_eq_self fun hstores => h (.constructSignature hs hstores)
  have hinfos : o.indexInfos.map (IndexInfo.rename ρ) = o.indexInfos :=
    map_eq_self fun _ hi => IndexInfo.rename_eq_self fun hstores => h (.indexInfo hi hstores)
  have htarget : o.target.map ρ.type = o.target := optionMap_eq_self fun _ hid => h (.target hid)
  have harguments : o.typeArguments.map ρ.type = o.typeArguments :=
    map_eq_self fun _ hid => h (.typeArgument hid)
  have hparameters : o.typeParameters.map ρ.type = o.typeParameters :=
    map_eq_self fun _ hid => h (.typeParameter hid)
  have hbases : o.baseTypes.map ρ.type = o.baseTypes := map_eq_self fun _ hid => h (.baseType hid)
  have himplements : o.implementsTypes.map ρ.type = o.implementsTypes :=
    map_eq_self fun _ hid => h (.implementsType hid)
  rw [rename, ObjectMembers.rename, hproperties, hcalls, hconstructs, hinfos, htarget, harguments,
    hparameters, hbases, himplements]

theorem TypeData.rename_eq_self {data : TypeData}
    (h : ∀ {role : Role} {handle : Handle}, data.Stores role handle → ρ.Fixes handle) :
    data.rename ρ = data := by
  cases data with
  | intrinsic | literal => rfl
  | object o => exact congrArg object (ObjectType.rename_eq_self fun hstores => h (.object hstores))
  | union types => exact congrArg union (map_eq_self fun _ hid => h (.union hid))
  | intersection types =>
    exact congrArg intersection (map_eq_self fun _ hid => h (.intersection hid))
  | typeParameter constraint default =>
    refine congrArg₂ typeParameter (optionMap_eq_self ?_) (optionMap_eq_self ?_)
    · rintro id rfl
      exact h .constraint
    · rintro id rfl
      exact h .default
  | index target => exact congrArg index (h .index)
  | indexedAccess objectType indexType =>
    exact congrArg₂ indexedAccess (h .indexedObject) (h .indexType)
  | conditional checkType extendsType trueType falseType =>
    have hcheck : ρ.type checkType = checkType := h .checkType
    have hextends : ρ.type extendsType = extendsType := h .extendsType
    rw [rename, hcheck, hextends]
    refine congrArg₂ (conditional checkType extendsType) (optionMap_eq_self ?_)
      (optionMap_eq_self ?_)
    · rintro id rfl
      exact h .trueType
    · rintro id rfl
      exact h .falseType
  | substitution baseType constraint =>
    exact congrArg₂ substitution (h .baseType) (h .substitute)
  | templateLiteral texts types =>
    exact congrArg (templateLiteral texts) (map_eq_self fun _ hid => h (.templateLiteral hid))
  | stringMapping target => exact congrArg stringMapping (h .stringMapping)

theorem TypeRecord.rename_eq_self {t : TypeRecord}
    (h : ∀ {role : Role} {handle : Handle}, t.Stores role handle → ρ.Fixes handle) :
    t.rename ρ = t := by
  have hsymbol : t.symbol.map ρ.symbol = t.symbol := optionMap_eq_self fun _ hid => h (.symbol hid)
  have halias : t.aliasSymbol.map ρ.symbol = t.aliasSymbol :=
    optionMap_eq_self fun _ hid => h (.aliasSymbol hid)
  have harguments : t.aliasTypeArguments.map ρ.type = t.aliasTypeArguments :=
    map_eq_self fun _ hid => h (.aliasTypeArgument hid)
  rw [rename, hsymbol, halias, harguments, TypeData.rename_eq_self fun hstores => h (.data hstores)]

theorem Declaration.rename_eq_self {d : Declaration}
    (h : ∀ id, d.typeAtLocation = some id → ρ.type id = id) : d.rename ρ = d := by
  rw [rename, optionMap_eq_self h]

theorem SymbolRecord.rename_eq_self {s : SymbolRecord}
    (h : ∀ {role : Role} {handle : Handle}, s.Stores role handle → ρ.Fixes handle) :
    s.rename ρ = s := by
  have hdeclarations : s.declarations.map (Declaration.rename ρ) = s.declarations :=
    map_eq_self fun _ hmem => Declaration.rename_eq_self fun _ hid =>
      h (.typeAtDeclaration hmem hid)
  have hparent : s.parent.map ρ.symbol = s.parent := optionMap_eq_self fun _ hid => h (.parent hid)
  have hvalue : s.valueType.map ρ.type = s.valueType :=
    optionMap_eq_self fun _ hid => h (.valueType hid)
  have hdeclared : s.declaredType.map ρ.type = s.declaredType :=
    optionMap_eq_self fun _ hid => h (.declaredType hid)
  have hparameters : s.typeParameters.map ρ.type = s.typeParameters :=
    map_eq_self fun _ hid => h (.typeParameter hid)
  rw [rename, hdeclarations, hparent, hvalue, hdeclared, hparameters]

end Fixed

end TypeAtlas
