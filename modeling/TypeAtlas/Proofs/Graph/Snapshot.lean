import TypeAtlas.Graph.Snapshot
import TypeAtlas.Proofs.Graph.Codec
import TypeAtlas.Proofs.Json.Text
/-!
# Snapshots never come back different

Only the numbers of a graph may be lost on the way to a document and back. A number that is not
finite is always lost, and then the document describes no graph at all; so a graph comes back, or
there is an error (`TypeGraph.snapshot_restores`).
-/

namespace TypeAtlas

/-! ## Numbers -/

/-- The numbers of the literal types. -/
def TypeGraph.numbers (g : TypeGraph) : List Double :=
  g.types.toList.filterMap TypeRecord.number?

namespace TypeRecord

variable {f : Double → Option Double} {t : TypeRecord}

/-- A record is left alone by a change that leaves its number alone. -/
theorem renumber?_eq_self (h : ∀ d ∈ t.number?, f d = some d) : t.renumber? f = some t := by
  obtain ⟨flags, objectFlags, symbol, aliasSymbol, aliasTypeArguments, data⟩ := t
  cases data with
  | literal value =>
    cases value with
    | number d => rw [renumber?, TypeData.renumber?, Literal.renumber?, h d rfl]; rfl
    | _ => rfl
  | _ => rfl

/-- A record does not survive the loss of its number. -/
theorem renumber?_eq_none {d : Double} (hd : d ∈ t.number?) (h : f d = none) :
    t.renumber? f = none := by
  obtain ⟨flags, objectFlags, symbol, aliasSymbol, aliasTypeArguments, data⟩ := t
  cases data with
  | literal value =>
    cases value with
    | number e =>
      have he : e = d := Option.some.inj hd
      rw [renumber?, TypeData.renumber?, Literal.renumber?, he, h]
      rfl
    | _ => cases hd
  | _ => cases hd

end TypeRecord

namespace TypeGraph

variable (m : Medium) {g : TypeGraph}

theorem ofJson?_eq_self (h : ∀ d ∈ g.numbers, m.number? d = some d) :
    ofJson? (g.toJson.through m) = some g := by
  have htypes : g.types.toList.mapM (TypeRecord.renumber? m.number?) = some g.types.toList :=
    mapM_eq_some_self.2 fun t ht => TypeRecord.renumber?_eq_self fun d hd =>
      h d (List.mem_filterMap.2 ⟨t, ht, hd⟩)
  rw [ofJson?_toJson, htypes]
  rfl

theorem ofJson?_eq_none {d : Double} (hd : d ∈ g.numbers) (h : m.number? d = none) :
    ofJson? (g.toJson.through m) = none := by
  obtain ⟨t, ht, hd⟩ := List.mem_filterMap.1 hd
  rw [ofJson?_toJson, mapM_eq_none ht (TypeRecord.renumber?_eq_none hd h)]
  rfl

/-- What is loaded, on a medium that carries the finite numbers of the graph. -/
theorem load_through (hm : ∀ d ∈ g.numbers, d.isFinite = true → m.number? d = some d) :
    load (g.toJson.through m) =
      if ∀ d ∈ g.numbers, d.isFinite = true then g.validate.map fun _ => g
      else .error .malformed := by
  unfold load
  split_ifs with hfinite
  · rw [ofJson?_eq_self m fun d hd => hm d hd (hfinite d hd)]
  · obtain ⟨d, hall⟩ := not_forall.1 hfinite
    obtain ⟨hd, hinfinite⟩ := Classical.not_imp.1 hall
    rw [ofJson?_eq_none m hd (m.number?_of_not_isFinite (Bool.eq_false_iff.2 hinfinite))]

/-! ## Snapshots -/

/-- What loading a snapshot of a graph may give: the graph, when it is valid and its numbers are
finite, or else an error. -/
structure Restores (g : TypeGraph) (result : Except SnapshotError TypeGraph) : Prop where
  eq_ok_iff : result = .ok g ↔ g.validate = .ok () ∧ ∀ d ∈ g.numbers, d.isFinite = true
  eq_of_ok : ∀ other, result = .ok other → other = g

theorem validate_map_eq_ok {other : TypeGraph} :
    (g.validate.map fun _ => g) = .ok other ↔ other = g ∧ g.validate = .ok () := by
  cases g.validate with
  | error error => exact ⟨fun h => (nomatch h), fun h => (nomatch h.2)⟩
  | ok => exact ⟨fun h => ⟨(Except.ok.inj h).symm, rfl⟩, fun h => by rw [h.1]; rfl⟩

theorem restores_load (hm : ∀ d ∈ g.numbers, d.isFinite = true → m.number? d = some d) :
    g.Restores (load (g.toJson.through m)) := by
  rw [load_through m hm]
  split_ifs with hfinite
  · exact ⟨validate_map_eq_ok.trans ⟨fun h => ⟨h.2, hfinite⟩, fun h => ⟨rfl, h.1⟩⟩,
      fun other h => (validate_map_eq_ok.1 h).1⟩
  · exact ⟨⟨fun h => (nomatch h), fun h => absurd h.2 hfinite⟩, fun other h => (nomatch h)⟩

/-- A snapshot is never loaded as another graph: it gives the graph back exactly when the graph is
valid and all its numbers are finite. This holds of the document as a value, and of its text if the
finite numbers in it are read back from their texts. -/
theorem snapshot_restores (g : TypeGraph) :
    g.Restores (load g.toJson) ∧
      ((∀ d ∈ g.numbers, d.isFinite = true → d.ReadsBack) →
        g.Restores (loadText g.snapshotText)) := by
  constructor
  · have hload := restores_load (g := g) .exact fun d _ hd =>
      (Medium.exact_number? d).trans (if_pos hd)
    rwa [Json.through_exact] at hload
  · intro hread
    rw [loadText, snapshotText, Json.ofText?_text]
    exact restores_load .text fun d hd hfinite => Medium.text_number?_eq_self.2 (hread d hd hfinite)

/-- A graph with the literal type `1e16`. -/
def largeLiteral : TypeGraph :=
  (Build.addType
    { flags := TypeFlags.numberLiteral
      data := .literal (.number ⟨0x4341C37937E08000⟩) } initial).2

/-- The graph with a large number comes back from its snapshot. -/
theorem largeLiteral_restores :
    largeLiteral.numbers = [⟨0x4341C37937E08000⟩] ∧
      loadText largeLiteral.snapshotText = .ok largeLiteral := by
  have hread : ∀ d ∈ largeLiteral.numbers, d.isFinite = true → d.ReadsBack := by decide +kernel
  exact ⟨by decide +kernel, ((snapshot_restores largeLiteral).2 hread).eq_ok_iff.2
    ⟨by decide +kernel, by decide +kernel⟩⟩

end TypeGraph

end TypeAtlas
