import TypeAtlas.Merge
import TypeAtlas.Proofs.Graph.Levels
/-!
# The text of what merging makes

The object made of several objects has no name, so its text is that of its members, and it has no
call signatures if they had none: it never needs parentheses. An intersection with other types is
printed with `&` between its members, so its text is longer than that of the first member alone
(`TypeGraph.typeText?_ne_of_merged`).
-/

namespace TypeAtlas

/-- The record of the object made of several objects. -/
def mergedRecord (members : ObjectMembers) : TypeRecord where
  flags := TypeFlags.object
  objectFlags := ObjectFlags.anonymous
  data := .object { toObjectMembers := members }

/-- The record of an intersection. -/
def intersectionRecord (types : List TypeId) : TypeRecord where
  flags := TypeFlags.intersection
  data := .intersection types

namespace TypeGraph

variable {g : TypeGraph} {id : TypeId} {members : ObjectMembers}

/-- A type that no name stands for is printed by its structure. -/
theorem print_of_unnamed {r : TypeRecord} (h : g.type? id = some r) (halias : r.aliasSymbol = none)
    (hflags : r.flags.has TypeFlags.boolean = false ∧ r.flags.has TypeFlags.enumLiteral = false ∧
      r.flags.has TypeFlags.enum = false) (levels : Nat) (precedence : Precedence) :
    g.print (levels + 1) precedence id =
      Print.structure' g (g.print levels) precedence id r := by
  obtain ⟨hboolean, hmember, henum⟩ := hflags
  have hname : g.nameOf? r.aliasSymbol = none := by rw [halias]; rfl
  have hmemberName : Print.enumMemberName? g r = none := by
    rw [Print.enumMemberName?, hmember]; rfl
  have henumName : Print.enumName? g r = none := by rw [Print.enumName?, henum]; rfl
  rw [print, Print.record, h]
  dsimp only
  rw [hname, hboolean, hmemberName, henumName]
  rfl

theorem object?_of_merged (h : g.type? id = some (mergedRecord members)) :
    g.object? id = some { toObjectMembers := members } := by
  rw [object?, h]
  rfl

theorem resolvedObject?_of_merged (h : g.type? id = some (mergedRecord members)) :
    g.resolvedObject? id = some { toObjectMembers := members } := by
  rw [resolvedObject?, object?_of_merged h]
  rfl

/-- Without call signatures there is no arrow, so it does not matter where the type stands. -/
theorem print_of_merged (h : g.type? id = some (mergedRecord members))
    (hcalls : members.callSignatures = []) (levels : Nat) (precedence : Precedence) :
    g.print (levels + 1) precedence id =
      Print.nested id (Print.members g (g.print levels) id) := by
  have hobject := object?_of_merged h
  have harray : g.isArray id = false := by rw [isArray, hobject]; rfl
  have hflags : g.objectFlags id = ObjectFlags.anonymous := by rw [objectFlags, h]; rfl
  have htuple : g.isTuple id = false := by rw [isTuple, hflags]; rfl
  have hnone : g.callSignatures id = [] := by
    rw [callSignatures, resolvedObject?_of_merged h]
    exact hcalls
  have hunnamed : TypeFlags.object.has TypeFlags.boolean = false ∧
      TypeFlags.object.has TypeFlags.enumLiteral = false ∧
      TypeFlags.object.has TypeFlags.enum = false := by decide
  have hprint : g.print (levels + 1) precedence id =
      Print.object g (g.print levels) precedence id :=
    print_of_unnamed h rfl hunnamed levels precedence
  rw [hprint, Print.object, harray, htuple, h]
  change Print.nested id (Print.anonymousObject g (g.print levels) precedence id) = _
  rw [Print.anonymousObject_eq, hnone]
  split
  next heq => cases heq
  next => rfl

theorem print_of_intersection {types : List TypeId}
    (h : g.type? id = some (intersectionRecord types)) (levels : Nat) :
    g.print (levels + 1) .top id = Print.list (g.print levels) types " & " .operand := by
  have hunnamed : TypeFlags.intersection.has TypeFlags.boolean = false ∧
      TypeFlags.intersection.has TypeFlags.enumLiteral = false ∧
      TypeFlags.intersection.has TypeFlags.enum = false := by decide
  rw [print_of_unnamed h rfl hunnamed]
  exact bind_pure _

theorem printLevels_eq (g : TypeGraph) : ∃ levels, g.printLevels = levels + 1 :=
  Nat.exists_eq_succ_of_ne_zero (Nat.mul_ne_zero (by decide) (Nat.succ_ne_zero _))

/-- A list of at least two types is printed longer than the first of them. -/
theorem list_ne_head {print : Precedence → TypeId → Print String} {first : TypeId}
    {rest : List TypeId} (hrest : rest ≠ []) {p q : Printer} {text : String}
    (h : Print.list print (first :: rest) " & " .operand p = some (text, q)) :
    ∃ head p', print .operand first p = some (head, p') ∧ text ≠ head := by
  obtain ⟨second, others, rfl⟩ := List.exists_cons_of_ne_nil hrest
  obtain ⟨⟨texts, _⟩, htexts, htext⟩ := Option.bind_eq_some_iff.1 h
  rw [List.mapM_cons, List.mapM_cons] at htexts
  obtain ⟨⟨head, p'⟩, hhead, htail⟩ := Option.bind_eq_some_iff.1 htexts
  obtain ⟨⟨tail, _⟩, hmap, hcons⟩ := Option.bind_eq_some_iff.1 htail
  obtain ⟨⟨next, _⟩, -, hothers⟩ := Option.bind_eq_some_iff.1 hmap
  obtain ⟨⟨ends, _⟩, -, hends⟩ := Option.bind_eq_some_iff.1 hothers
  cases hends
  cases hcons
  cases htext
  refine ⟨head, p', hhead, fun heq => ?_⟩
  have hlength := congrArg String.length heq
  rw [String.intercalate_cons_cons, String.length_append, String.length_append] at hlength
  have hseparator : " & ".length = 3 := rfl
  omega

/-- An intersection of a merged object and other types does not have the text of the object. -/
theorem typeText?_ne_of_merged {whole : TypeId} {rest : List TypeId} (hrest : rest ≠ [])
    (hwhole : g.type? whole = some (intersectionRecord (id :: rest)))
    (hmerged : g.type? id = some (mergedRecord members)) (hcalls : members.callSignatures = [])
    (htext : g.typeText? whole ≠ none) : g.typeText? whole ≠ g.typeText? id := by
  obtain ⟨levels, hlevels⟩ := g.printLevels_eq
  obtain ⟨text, htext⟩ := Option.ne_none_iff_exists'.1 htext
  obtain ⟨⟨text', p⟩, hprint, heq⟩ := Option.map_eq_some_iff.1 htext
  obtain rfl : text' = text := heq
  rw [hlevels, print_of_intersection hwhole] at hprint
  obtain ⟨head, p', hhead, hne⟩ := list_ne_head hrest hprint
  -- the object is printed the same outside of the intersection
  have halone : g.typeText? id = some head := by
    obtain _ | below := levels
    · cases hhead
    rw [print_of_merged hmerged hcalls, ← print_of_merged hmerged hcalls below .top] at hhead
    exact typeText?_eq_some_iff.2 ⟨_, _, hhead⟩
  rw [htext, halone]
  intro h
  exact hne (Option.some.inj h)

end TypeGraph

end TypeAtlas
