import TypeAtlas.Graph.Codec
import TypeAtlas.Proofs.Json.Records
/-!
# Graphs are read back

Each record of a graph arrives as it was on every medium, except that the number of a literal type
may be another one or none at all. So a graph arrives with its numbers replaced by those that
arrive, and it does not arrive if one of them does not (`TypeGraph.ofJson?_toJson`).
-/

namespace TypeAtlas

variable (m : Medium)

namespace DeclarationKind

@[simp]
theorem through_toJson (kind : DeclarationKind) : kind.toJson.through m = kind.toJson :=
  Json.through_str m kind.name

@[simp]
theorem ofJson?_toJson (kind : DeclarationKind) : ofJson? kind.toJson = some kind := by
  cases kind <;> rfl

end DeclarationKind

namespace Declaration

@[simp]
theorem through_toJson (d : Declaration) : d.toJson.through m = d.toJson := by
  simp [toJson]

@[simp]
theorem ofJson?_toJson (d : Declaration) : ofJson? d.toJson = some d := by
  simp -implicitDefEqProofs [ofJson?, toJson]

end Declaration

namespace Signature

@[simp]
theorem through_toJson (s : Signature) : s.toJson.through m = s.toJson := by
  simp [toJson]

@[simp]
theorem ofJson?_toJson (s : Signature) : ofJson? s.toJson = some s := by
  simp -implicitDefEqProofs [ofJson?, toJson]

@[simp]
theorem isReadable_toJson (s : Signature) : s.toJson.isReadable = true := by
  simp [toJson]

end Signature

namespace IndexInfo

@[simp]
theorem through_toJson (i : IndexInfo) : i.toJson.through m = i.toJson := by
  simp [toJson]

@[simp]
theorem ofJson?_toJson (i : IndexInfo) : ofJson? i.toJson = some i := by
  simp -implicitDefEqProofs [ofJson?, toJson]

@[simp]
theorem isReadable_toJson (i : IndexInfo) : i.toJson.isReadable = true := by
  simp [toJson]

end IndexInfo

namespace TupleShape

@[simp]
theorem through_toJson (t : TupleShape) : t.toJson.through m = t.toJson := by
  simp [toJson]

@[simp]
theorem ofJson?_toJson (t : TupleShape) : ofJson? t.toJson = some t := by
  simp -implicitDefEqProofs [ofJson?, toJson]

@[simp]
theorem toJson_ne_null (t : TupleShape) : t.toJson ≠ .null :=
  Json.noConfusion

@[simp]
theorem isReadable_toJson (t : TupleShape) : t.toJson.isReadable = true := by
  simp [toJson]

end TupleShape

namespace ObjectType

@[simp]
theorem through_toMembers (o : ObjectType) : Members.through m o.toMembers = o.toMembers := by
  simp [toMembers]

theorem ofMembers?_append (kind : Json) (o : ObjectType) :
    ofMembers? (Json.field "kind" kind ++ o.toMembers) = some o := by
  simp -implicitDefEqProofs [ofMembers?, toMembers]

end ObjectType

namespace TypeData

/-- The data with the number of a literal replaced, if it is one. -/
def renumber? (f : Double → Option Double) : TypeData → Option TypeData
  | literal value => (value.renumber? f).map literal
  | data => some data

theorem ofMembers?_toMembers (data : TypeData) :
    ofMembers? data.kindName
        (Json.field "kind" (.str data.kindName) ++ Members.through m data.toMembers) =
      data.renumber? m.number? := by
  cases data with
  | object o =>
    rw [toMembers, ObjectType.through_toMembers]
    change (ObjectType.ofMembers? _).bind _ = _
    rw [ObjectType.ofMembers?_append]
    rfl
  | literal value =>
    simp -implicitDefEqProofs [ofMembers?, toMembers, kindName, renumber?, Literal.ofJson?_toJson,
      Option.map_eq_bind]
  | _ => simp -implicitDefEqProofs [ofMembers?, toMembers, kindName, renumber?]

/-- A type whose number arrives, if it has one, arrives readable. -/
theorem isReadable_toJson (data : TypeData)
    (hnumber : ∀ d, data = .literal (.number d) → (m.number? d).isSome = true) :
    (data.toJson.through m).isReadable = true := by
  cases data with
  | object o => simp [toJson, toMembers, ObjectType.toMembers]
  | literal value =>
    cases value with
    | number d => simp [toJson, toMembers, Literal.toJson, Json.isReadable_ofDouble (hnumber d rfl)]
    | _ => simp [toJson, toMembers, Literal.toJson]
  | _ => simp [toJson, toMembers]

theorem through_toJson (data : TypeData) : data.toJson.through m =
    .obj (Json.field "kind" (.str data.kindName) ++ Members.through m data.toMembers) := by
  simp [toJson]

theorem named_kind (data : TypeData) :
    Members.named (Members.through m data.toMembers) "kind" = [] := by
  cases data <;> simp [toMembers, ObjectType.toMembers]

/-- A type is read by its kind when all of it can be read. -/
theorem ofJson?_toJson (data : TypeData) :
    ofJson? (data.toJson.through m) = data.renumber? m.number? := by
  by_cases hread : (data.toJson.through m).isReadable = true
  · have hkind : Members.required?
        (Json.field "kind" (.str data.kindName) ++ Members.through m data.toMembers) "kind"
          Json.string? = some data.kindName := by
      simp [named_kind]
    rw [ofJson?, guard, if_pos hread, through_toJson, Json.members?_obj]
    change (Members.required? _ _ _).bind _ = _
    rw [hkind]
    exact ofMembers?_toMembers m data
  · have hnumber : ∃ d, data = .literal (.number d) ∧ m.number? d = none := by
      by_contra hall
      refine hread (isReadable_toJson m data fun d hd => ?_)
      rw [Option.isSome_iff_ne_none]
      exact fun hnone => hall ⟨d, hd, hnone⟩
    obtain ⟨d, rfl, hnone⟩ := hnumber
    rw [ofJson?, guard, if_neg hread, renumber?, Literal.renumber?, hnone]
    rfl

end TypeData

namespace TypeRecord

/-- The type with its number replaced, if it is a number literal. -/
def renumber? (f : Double → Option Double) (t : TypeRecord) : Option TypeRecord :=
  (t.data.renumber? f).map fun data => { t with data }

theorem ofJson?_toJson (t : TypeRecord) :
    ofJson? (t.toJson.through m) = t.renumber? m.number? := by
  simp -implicitDefEqProofs [ofJson?, toJson, renumber?, TypeData.ofJson?_toJson,
    Option.map_eq_bind]

end TypeRecord

namespace SymbolRecord

@[simp]
theorem through_toJson (s : SymbolRecord) : s.toJson.through m = s.toJson := by
  simp [toJson]

@[simp]
theorem ofJson?_toJson (s : SymbolRecord) : ofJson? s.toJson = some s := by
  simp -implicitDefEqProofs [ofJson?, toJson]

end SymbolRecord

namespace TypeGraph

/-- A graph arrives with the numbers that arrive, if all of them do. -/
theorem ofJson?_toJson (g : TypeGraph) : ofJson? (g.toJson.through m) =
    (g.types.toList.mapM (TypeRecord.renumber? m.number?)).map fun types =>
      { g with types := types.toArray } := by
  simp -implicitDefEqProofs [ofJson?, toJson, TypeRecord.ofJson?_toJson,
    Option.map_eq_bind]

end TypeGraph

end TypeAtlas
