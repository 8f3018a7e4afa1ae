import TypeAtlas.Proofs.Json.Records
import TypeAtlas.Tree.Codec
/-!
# Trees are read back

A node is written with its children written already, and is read with its children unread. On any
medium a node arrives with what arrives of its children and of its number (`Layer.ofJson?_toJson`),
whatever its kind; the rest is one induction over trees.
-/

namespace TypeAtlas

variable (m : Medium)

namespace SymbolMeta

@[simp]
theorem through_toJson (s : SymbolMeta) : s.toJson.through m = s.toJson := by
  simp [toJson]

@[simp]
theorem declarationOfJson?_toJson (l : Location) :
    declarationOfJson? (.obj [("location", l.toJson)]) = some l := by
  simp -implicitDefEqProofs [declarationOfJson?]

@[simp]
theorem ofJson?_toJson (s : SymbolMeta) : ofJson? s.toJson = some s := by
  simp -implicitDefEqProofs [ofJson?, toJson]

@[simp]
theorem toJson_ne_null (s : SymbolMeta) : s.toJson ≠ .null :=
  Json.noConfusion

end SymbolMeta

namespace Primitive

@[simp]
theorem innerName?_name (p : Primitive) : (Json.str p.name).innerName? names = some p := by
  cases p <;> rfl

end Primitive

namespace NodeKind

@[simp]
theorem through_toJson (kind : NodeKind) : kind.toJson.through m = kind.toJson :=
  Json.through_str m kind.name

@[simp]
theorem ofTag?_toJson (kind : NodeKind) : ofTag? kind.toJson = some kind := by
  cases kind <;> rfl

@[simp]
theorem ofJson?_toJson (kind : NodeKind) : ofJson? kind.toJson = some kind := by
  cases kind <;> rfl

@[simp]
theorem toJson_ne_null (kind : NodeKind) : kind.toJson ≠ .null :=
  Json.noConfusion

end NodeKind

/-! ## Layers -/

section Layers

variable {α : Type} (encode : α → Json) (hencode : ∀ a, (encode a).through m ≠ .null)

namespace SignatureLayer

include hencode in
theorem ofJson?_toJson (s : SignatureLayer α) :
    ofJson? ((toJson (s.map encode)).through m) = some (s.map fun a => (encode a).through m) := by
  simp -implicitDefEqProofs [ofJson?, toJson, map, unread, hencode, Function.comp_def]

end SignatureLayer

namespace IndexLayer

include hencode in
theorem ofJson?_toJson (i : IndexLayer α) :
    ofJson? ((toJson (i.map encode)).through m) = some (i.map fun a => (encode a).through m) := by
  simp -implicitDefEqProofs [ofJson?, toJson, map, unread, hencode]

end IndexLayer

/-- The members of a node. -/
def Layer.toMembers (l : Layer Json) : Members :=
  Json.field "id" l.id.toJson ++ Json.field "kind" l.shape.kind.toJson ++
    l.shape.toMembers ++ Json.fieldIfSome "symbolMeta" SymbolMeta.toJson l.symbolMeta ++
    Json.fieldIfSome "aliasSymbolMeta" SymbolMeta.toJson l.aliasSymbolMeta ++
    Json.fieldIfSome "typeArguments" Json.arr l.typeArguments ++
    Json.fieldIfSome "typeParameters" Json.arr l.typeParameters

/-- The shape with its number replaced, if it has one. -/
def Shape.renumber? (f : Double → Option Double) : Shape α → Option (Shape α)
  | .numberLiteral value => (f value).map .numberLiteral
  | .enumLiteral value literalSymbol parentSymbol =>
    (value.renumber? f).map fun value => .enumLiteral value literalSymbol parentSymbol
  | shape => some shape

/-- The number of the shape, if it has one. -/
def Shape.number? : Shape α → Option Double
  | .numberLiteral value => some value
  | .enumLiteral (.number value) _ _ => some value
  | _ => none

theorem Shape.number?_map {β : Type} (f : α → β) (s : Shape α) : (s.map f).number? = s.number? := by
  cases s with
  | enumLiteral value => cases value <;> rfl
  | _ => rfl

theorem Shape.renumber?_eq_some_self {f : Double → Option Double} {s : Shape α} :
    s.renumber? f = some s ↔ ∀ d ∈ s.number?, f d = some d := by
  cases s with
  | numberLiteral value => simp [renumber?, number?]
  | enumLiteral value literalSymbol parentSymbol =>
    cases value <;> simp [renumber?, number?, EnumValue.renumber?]
  | _ => simp [renumber?, number?]

include hencode

/-- A shape is read from among the members of its node. -/
theorem Shape.ofMembers?_toMembers (l : Layer α) :
    ofMembers? l.shape.kind ((l.map encode).toMembers.through m) =
      (l.shape.renumber? m.number?).map (map fun a => (encode a).through m) := by
  obtain ⟨id, shape, symbolMeta, aliasSymbolMeta, typeArguments, typeParameters⟩ := l
  cases shape with
  | numberLiteral d =>
    have hd : ((Json.ofDouble d).through m).double? = m.number? d := rfl
    simp -implicitDefEqProofs [ofMembers?, Layer.toMembers, toMembers, kind, Layer.map, map, hd,
      renumber?]
    cases m.number? d <;> rfl
  | enumLiteral value literalSymbol parentSymbol =>
    simp -implicitDefEqProofs [ofMembers?, Layer.toMembers, toMembers, kind, Layer.map, map,
      renumber?, EnumValue.ofJson?_toJson]
    cases value.renumber? m.number? <;> rfl
  | _ =>
    simp -implicitDefEqProofs [ofMembers?, Layer.toMembers, toMembers, kind, Layer.map, map,
      renumber?, unread, hencode, Function.comp_def, ClassLayer.ofMembers?, ClassLayer.toMembers,
      ClassLayer.map, SignatureLayer.ofJson?_toJson m encode hencode,
      IndexLayer.ofJson?_toJson m encode hencode]

namespace Layer

omit hencode

/-- The names in the members of a shape are not those that all nodes have. -/
theorem named_toMembers (s : Shape Json) {name : String}
    (h : name ∈ ["id", "kind", "symbolMeta", "aliasSymbolMeta", "typeArguments",
      "typeParameters"]) : Members.named (Members.through m s.toMembers) name = [] := by
  simp only [List.mem_cons, List.not_mem_nil, or_false] at h
  rcases h with rfl | rfl | rfl | rfl | rfl | rfl <;>
    cases s <;> simp [Shape.toMembers, ClassLayer.toMembers]

/-- The node with its number replaced, if it has one. -/
def renumber? (f : Double → Option Double) (l : Layer α) : Option (Layer α) :=
  (l.shape.renumber? f).map fun shape => { l with shape }

include hencode in
/-- A node arrives with what arrives of its children, if its number arrives. -/
theorem ofJson?_toJson (l : Layer α) : ofJson? ((toJson (l.map encode)).through m) =
    (l.renumber? m.number?).map (map fun a => (encode a).through m) := by
  have hmembers : (toJson (l.map encode)).through m =
      .obj ((l.map encode).toMembers.through m) := Json.through_obj m _
  have hshape := Shape.ofMembers?_toMembers m encode hencode l
  generalize hM : (l.map encode).toMembers.through m = members at hmembers hshape
  have hid : members.required? "id" TypeId.ofJson? = some l.id := by
    simp -implicitDefEqProofs [← hM, toMembers, named_toMembers, map]
  have hkind : members.required? "kind" NodeKind.ofTag? = some l.shape.kind := by
    simp [← hM, toMembers, named_toMembers, map, Shape.kind_map]
  have hsymbol : members.optional? "symbolMeta" SymbolMeta.ofJson? = some l.symbolMeta := by
    simp [← hM, toMembers, named_toMembers, map]
  have halias : members.optional? "aliasSymbolMeta" SymbolMeta.ofJson? =
      some l.aliasSymbolMeta := by
    simp [← hM, toMembers, named_toMembers, map]
  have harguments : members.optional? "typeArguments" (Json.list? unread) =
      some (l.typeArguments.map (List.map fun a => (encode a).through m)) := by
    simp [← hM, toMembers, named_toMembers, map, unread, Function.comp_def]
  have hparameters : members.optional? "typeParameters" (Json.list? unread) =
      some (l.typeParameters.map (List.map fun a => (encode a).through m)) := by
    simp [← hM, toMembers, named_toMembers, map, unread, Function.comp_def]
  rw [hmembers, ofJson?, Json.members?_obj]
  simp only [Option.bind_eq_bind, Option.bind_some, hid, hsymbol, halias, harguments, hparameters,
    hkind, hshape, renumber?]
  cases l.shape.renumber? m.number? <;> rfl

end Layer

end Layers

end TypeAtlas
