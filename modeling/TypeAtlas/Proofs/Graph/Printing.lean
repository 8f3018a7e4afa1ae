import Mathlib.Data.List.Forall2
import Mathlib.Data.Option.Basic
import TypeAtlas.Graph.Printing
import TypeAtlas.Proofs.Graph.Handles
/-!
# Printing corresponding types

Two types, of one graph or of two, correspond if printing reads the same names and flags in them and
goes on to types that correspond again (`TypeGraph.Corresponds`). Whatever text one of them has, the
other has with as many levels or more (`TypeGraph.Corresponds.print_refines`). In particular more
levels change no text (`TypeGraph.print_mono`).
-/

namespace TypeAtlas

variable {T : TypeId → TypeId → Prop} {R : Printer → Printer → Prop} {α β γ : Type}

/-- Two printers inside of corresponding types. -/
structure Printer.Matches (T : TypeId → TypeId → Prop) (p q : Printer) : Prop where
  inProgress : List.Forall₂ T p.inProgress q.inProgress
  depth : p.depth = q.depth

theorem Printer.matches_eq_iff {p q : Printer} : p.Matches Eq q ↔ p = q := by
  obtain ⟨types, depth⟩ := p
  obtain ⟨types', depth'⟩ := q
  rw [Printer.mk.injEq]
  constructor
  · rintro ⟨htypes, hdepth⟩
    rw [List.forall₂_eq_eq_eq] at htypes
    exact ⟨htypes, hdepth⟩
  · rintro ⟨rfl, rfl⟩
    exact ⟨List.forall₂_refl _, rfl⟩

namespace Print

/-! ## Rules for `Refines` -/

/-- Whatever the first computation prints in some state, the second one prints in each state that is
related to it. -/
def Refines (R : Printer → Printer → Prop) (x y : Print α) : Prop :=
  ∀ ⦃p q : Printer⦄, R p q → ∀ ⦃a : α⦄ ⦃p' : Printer⦄, x p = some (a, p') →
    ∃ q' : Printer, y q = some (a, q') ∧ R p' q'

theorem refines_pure (a : α) : Refines R (pure a) (pure a) := by
  intro p q hpq b p' h
  cases h
  exact ⟨q, rfl, hpq⟩

theorem Refines.bind {x y : Print α} {k k' : α → Print β} (hx : Refines R x y)
    (hk : ∀ a, Refines R (k a) (k' a)) : Refines R (x >>= k) (y >>= k') := by
  intro p q hpq b p' h
  obtain ⟨⟨a, p₁⟩, hxa, hka⟩ := Option.bind_eq_some_iff.1 h
  obtain ⟨q₁, hya, hq₁⟩ := hx hpq hxa
  obtain ⟨q', hkb, hq'⟩ := hk a hq₁ hka
  exact ⟨q', Option.bind_eq_some_iff.2 ⟨(a, q₁), hya, hkb⟩, hq'⟩

theorem refines_mapM {S : α → β → Prop} {as : List α} {bs : List β} (h : List.Forall₂ S as bs)
    {k : α → Print γ} {k' : β → Print γ} (hk : ∀ a b, S a b → Refines R (k a) (k' b)) :
    Refines R (as.mapM k) (bs.mapM k') := by
  induction h with
  | nil => exact refines_pure []
  | cons hab _ ih =>
    rw [List.mapM_cons, List.mapM_cons]
    exact (hk _ _ hab).bind fun c => ih.bind fun cs => refines_pure (c :: cs)

theorem nested_eq (id : TypeId) (body : Print String) (p : Printer) :
    nested id body p =
      if Printer.depthLimit ≤ p.depth || p.inProgress.contains id then some (ellipsis, p)
      else (body { inProgress := id :: p.inProgress, depth := p.depth + 1 }).map fun result =>
        (result.1,
          { inProgress := result.2.inProgress.erase id, depth := result.2.depth - 1 }) := by
  have h : nested id body p =
      (if Printer.depthLimit ≤ p.depth || p.inProgress.contains id then return ellipsis
      else do
        set ({ inProgress := id :: p.inProgress, depth := p.depth + 1 } : Printer)
        let text ← body
        modify fun printer =>
          { inProgress := printer.inProgress.erase id, depth := printer.depth - 1 }
        return text : Print String) p := rfl
  rw [h]
  split
  · rfl
  · change Option.bind _ _ = _
    cases body { inProgress := id :: p.inProgress, depth := p.depth + 1 } <;> rfl

section

variable (unique : ∀ {a b a' b'}, T a b → T a' b' → (a = a' ↔ b = b'))

include unique

theorem contains_eq {a b : TypeId} (hab : T a b) {as bs : List TypeId} (h : List.Forall₂ T as bs) :
    as.contains a = bs.contains b := by
  induction h with
  | nil => rfl
  | cons hab' _ ih =>
    rw [List.contains_cons, List.contains_cons, ih, Bool.eq_iff_iff]
    simp only [Bool.or_eq_true, beq_iff_eq, unique hab hab']

theorem forall₂_erase {a b : TypeId} (hab : T a b) {as bs : List TypeId}
    (h : List.Forall₂ T as bs) : List.Forall₂ T (as.erase a) (bs.erase b) := by
  induction h with
  | nil => exact List.Forall₂.nil
  | @cons a' b' as bs hab' hrest ih =>
    rw [List.erase_cons, List.erase_cons]
    by_cases heq : a' = a
    · rw [if_pos (beq_iff_eq.2 heq), if_pos (beq_iff_eq.2 ((unique hab' hab).1 heq))]
      exact hrest
    · rw [if_neg (fun h => heq (beq_iff_eq.1 h)),
        if_neg fun h => heq ((unique hab' hab).2 (beq_iff_eq.1 h))]
      exact List.Forall₂.cons hab' ih

theorem refines_nested {a b : TypeId} (hab : T a b) {x y : Print String}
    (h : Refines (Printer.Matches T) x y) :
    Refines (Printer.Matches T) (nested a x) (nested b y) := by
  intro p q hpq text p' hp'
  rw [nested_eq] at hp' ⊢
  rw [← hpq.depth, ← contains_eq unique hab hpq.inProgress]
  split
  next hcut =>
    rw [if_pos hcut] at hp'
    cases hp'
    exact ⟨q, rfl, hpq⟩
  next hcut =>
    rw [if_neg hcut] at hp'
    obtain ⟨⟨text', p₁⟩, hx, heq⟩ := Option.map_eq_some_iff.1 hp'
    cases heq
    have hinside : Printer.Matches T { inProgress := a :: p.inProgress, depth := p.depth + 1 }
        { inProgress := b :: q.inProgress, depth := p.depth + 1 } :=
      ⟨List.Forall₂.cons hab hpq.inProgress, rfl⟩
    obtain ⟨q₁, hy, hq₁⟩ := h hinside hx
    refine ⟨_, Option.map_eq_some_iff.2 ⟨_, hy, rfl⟩, forall₂_erase unique hab hq₁.inProgress, ?_⟩
    exact congrArg (· - 1) hq₁.depth

end

end Print

/-! ## What printing reads -/

variable (g h : TypeGraph)

/-- What printing reads in a symbol that is a property. -/
def SymbolRecord.face (record : SymbolRecord) : String × Bool × Bool :=
  (record.name, record.checkFlags.has CheckFlags.readonly, record.flags.has SymbolFlags.optional)

/-- Symbols that print alike as properties and as parameters. -/
structure SymbolId.Matches (T : TypeId → TypeId → Prop) (p q : SymbolId) : Prop where
  face : (g.symbol? p).map (·.face) = (h.symbol? q).map (·.face)
  rest : g.isRestParameter p = h.isRestParameter q
  optional : g.isOptionalParameter p = h.isOptionalParameter q
  valueType : T (g.valueTypeOf p) (h.valueTypeOf q)

theorem SymbolId.Matches.symbolName?_eq {p q : SymbolId} (hpq : p.Matches g h T q) :
    g.symbolName? p = h.symbolName? q := by
  have hname := congrArg (Option.map Prod.fst) hpq.face
  rw [Option.map_map, Option.map_map] at hname
  exact hname

/-- Signatures that print alike. -/
structure Signature.Matches (T : TypeId → TypeId → Prop) (s t : Signature) : Prop where
  parameters : List.Forall₂ (SymbolId.Matches g h T) s.parameters t.parameters
  returnType : T s.returnType t.returnType

/-- Index signatures that print alike. -/
structure IndexInfo.Matches (T : TypeId → TypeId → Prop) (i j : IndexInfo) : Prop where
  readonly : i.isReadonly = j.isReadonly
  name : g.nameOf? i.parameter = h.nameOf? j.parameter
  keyType : T i.keyType j.keyType
  valueType : T i.valueType j.valueType

/-- Structures of types that print alike; those of objects are compared elsewhere. -/
inductive TypeData.Matches (T : TypeId → TypeId → Prop) : TypeData → TypeData → Prop
  | intrinsic (name : String) : Matches T (.intrinsic name) (.intrinsic name)
  | literal (value : Literal) : Matches T (.literal value) (.literal value)
  | object (o o' : ObjectType) : Matches T (.object o) (.object o')
  | union {ts ts' : List TypeId} (types : List.Forall₂ T ts ts') :
    Matches T (.union ts) (.union ts')
  | intersection {ts ts' : List TypeId} (types : List.Forall₂ T ts ts') :
    Matches T (.intersection ts) (.intersection ts')
  | typeParameter (c d c' d' : Option TypeId) :
    Matches T (.typeParameter c d) (.typeParameter c' d')
  | index {a b : TypeId} (target : T a b) : Matches T (.index a) (.index b)
  | indexedAccess {a b a' b' : TypeId} (objectType : T a a') (indexType : T b b') :
    Matches T (.indexedAccess a b) (.indexedAccess a' b')
  | conditional {a b a' b' : TypeId} {c d c' d' : Option TypeId} (checkType : T a a')
    (extendsType : T b b') (trueType : Option.Rel T c c') (falseType : Option.Rel T d d') :
    Matches T (.conditional a b c d) (.conditional a' b' c' d')
  | substitution {a b : TypeId} (baseType : T a b) (c c' : TypeId) :
    Matches T (.substitution a c) (.substitution b c')
  | templateLiteral (texts : List String) {ts ts' : List TypeId} (types : List.Forall₂ T ts ts') :
    Matches T (.templateLiteral texts ts) (.templateLiteral texts ts')
  | stringMapping {a b : TypeId} (target : T a b) : Matches T (.stringMapping a) (.stringMapping b)

/-- Records that print alike, apart from the members of object types. -/
structure TypeRecord.Matches (T : TypeId → TypeId → Prop) (r s : TypeRecord) : Prop where
  aliasName : g.nameOf? r.aliasSymbol = h.nameOf? s.aliasSymbol
  aliasArguments : List.Forall₂ T r.aliasTypeArguments s.aliasTypeArguments
  boolean : r.flags.has TypeFlags.boolean = s.flags.has TypeFlags.boolean
  enumMember : Print.enumMemberName? g r = Print.enumMemberName? h s
  enum : Print.enumName? g r = Print.enumName? h s
  name : g.nameOf? r.symbol = h.nameOf? s.symbol
  data : r.data.Matches T s.data

/-- Object types that print alike. -/
structure TypeId.Matches (T : TypeId → TypeId → Prop) (a b : TypeId) : Prop where
  flags : g.objectFlags a = h.objectFlags b
  name : g.nameOf? ((g.type? a).bind (·.symbol)) = h.nameOf? ((h.type? b).bind (·.symbol))
  constructorSide :
    ((((g.type? a).bind (·.symbol)).bind g.symbol?).map (·.flags.has SymbolFlags.class')).getD
        false =
      ((((h.type? b).bind (·.symbol)).bind h.symbol?).map (·.flags.has SymbolFlags.class')).getD
        false
  array : g.isArray a = h.isArray b
  readonlyArray : g.isReadonlyArray a = h.isReadonlyArray b
  shape : g.tupleShape a = h.tupleShape b
  typeArguments : List.Forall₂ T (g.typeArguments a) (h.typeArguments b)
  properties : List.Forall₂ (SymbolId.Matches g h T) (g.properties a) (h.properties b)
  calls : List.Forall₂ (Signature.Matches g h T) (g.callSignatures a) (h.callSignatures b)
  constructs :
    List.Forall₂ (Signature.Matches g h T) (g.constructSignatures a) (h.constructSignatures b)
  infos : List.Forall₂ (IndexInfo.Matches g h T) (g.indexInfos a) (h.indexInfos b)

/-- A relation between the types of two graphs under which related types print alike. A type has at
most one partner, so that a type is met again just when its partner is. -/
structure TypeGraph.Corresponds (T : TypeId → TypeId → Prop) : Prop where
  unique : ∀ {a b a' b'}, T a b → T a' b' → (a = a' ↔ b = b')
  unknown : T .unknown .unknown
  type : ∀ {a b}, T a b → Option.Rel (TypeRecord.Matches g h T) (g.type? a) (h.type? b)
  members : ∀ {a b}, T a b → TypeId.Matches g h T a b

namespace Print

/-! ## One level of printing -/

/-- An object type by its members. -/
def members (print : Precedence → TypeId → Print String) (id : TypeId) : Print String := do
  let callTexts ← (g.callSignatures id).mapM (signature g print ": ")
  let constructTexts ← (g.constructSignatures id).mapM fun construct => do
    return "new " ++ (← signature g print ": " construct)
  let indexTexts ← (g.indexInfos id).mapM (indexInfo g print)
  let propertyTexts ← (g.properties id).mapM (property? g print)
  return braces (callTexts ++ constructTexts ++ indexTexts ++ propertyTexts.reduceOption)

theorem anonymousObject_eq (print : Precedence → TypeId → Print String) (precedence : Precedence)
    (id : TypeId) :
    anonymousObject g print precedence id =
      match g.properties id, g.indexInfos id, g.constructSignatures id, g.callSignatures id with
      | [], [], [], [call] => do
        return parenthesize precedence (← signature g print " => " call)
      | _, _, _, _ => members g print id :=
  rfl

/-- A branch of a conditional type. -/
def branch (print : Precedence → TypeId → Print String) : Option TypeId → Print String
  | some type => print .top type
  | none => return "unknown"

/-- A text of a template literal type and the type after it. -/
def piece (print : Precedence → TypeId → Print String) (text : String) :
    Option TypeId → Print String
  | some type => do return text ++ "$\x7b" ++ (← print .top type) ++ "\x7d"
  | none => return text

theorem forall₂_zipIdx {as bs : List TypeId} (hab : List.Forall₂ T as bs) (n : Nat) :
    List.Forall₂ (fun a b => T a.1 b.1 ∧ a.2 = b.2) (as.zipIdx n) (bs.zipIdx n) := by
  induction hab generalizing n with
  | nil => exact List.Forall₂.nil
  | cons hab _ ih => exact List.Forall₂.cons ⟨hab, rfl⟩ (ih (n + 1))

theorem rel_getElem? {as bs : List TypeId} (hab : List.Forall₂ T as bs) (n : Nat) :
    Option.Rel T as[n]? bs[n]? := by
  induction hab generalizing n with
  | nil => exact Option.Rel.none
  | cons hab _ ih =>
    cases n with
    | zero => exact Option.Rel.some hab
    | succ n => exact ih n

section

variable {g h} (hc : g.Corresponds h T) {print print' : Precedence → TypeId → Print String}
  (hprint : ∀ precedence {a b}, T a b → Refines R (print precedence a) (print' precedence b))

include hprint

theorem refines_list {as bs : List TypeId} (hab : List.Forall₂ T as bs) (separator : String)
    (precedence : Precedence) :
    Refines R (list print as separator precedence) (list print' bs separator precedence) :=
  (refines_mapM hab fun _ _ => hprint precedence).bind fun _ => refines_pure _

theorem refines_withArguments (name : String) {as bs : List TypeId} (hab : List.Forall₂ T as bs) :
    Refines R (withArguments print name as) (withArguments print' name bs) := by
  cases hab with
  | nil => exact refines_pure name
  | cons ha hrest =>
    exact (refines_list hprint (List.Forall₂.cons ha hrest) ", " .top).bind fun _ => refines_pure _

theorem refines_parameters {s t : Signature} (hst : s.Matches g h T t) :
    Refines R (parameters g print s) (parameters h print' t) := by
  refine Refines.bind (refines_mapM hst.parameters fun p q hpq => ?_) fun texts => refines_pure _
  have hname : g.symbolName? p = h.symbolName? q := hpq.symbolName?_eq
  simp only [hname, hpq.rest, hpq.optional]
  exact (hprint .top hpq.valueType).bind fun _ => refines_pure _

theorem refines_signature (separator : String) {s t : Signature} (hst : s.Matches g h T t) :
    Refines R (signature g print separator s) (signature h print' separator t) :=
  (refines_parameters hprint hst).bind fun _ =>
    (hprint .top hst.returnType).bind fun _ => refines_pure _

theorem refines_indexInfo {i j : IndexInfo} (hij : i.Matches g h T j) :
    Refines R (indexInfo g print i) (indexInfo h print' j) := by
  unfold indexInfo
  rw [hij.readonly, hij.name]
  exact (hprint .top hij.keyType).bind fun _ =>
    (hprint .top hij.valueType).bind fun _ => refines_pure _

theorem refines_property? {p q : SymbolId} (hpq : p.Matches g h T q) :
    Refines R (property? g print p) (property? h print' q) := by
  have hface := hpq.face
  unfold property?
  cases hp : g.symbol? p with
  | none =>
    rw [hp, Option.map_none] at hface
    rw [Option.map_eq_none_iff.1 hface.symm]
    exact refines_pure none
  | some r =>
    rw [hp, Option.map_some] at hface
    obtain ⟨r', hr', heq⟩ := Option.map_eq_some_iff.1 hface.symm
    simp only [SymbolRecord.face, Prod.mk.injEq] at heq
    rw [hr']
    simp only [heq]
    exact (hprint .top hpq.valueType).bind fun _ => refines_pure _

theorem refines_members {a b : TypeId} (hab : a.Matches g h T b) :
    Refines R (members g print a) (members h print' b) := by
  have hconstruct : ∀ s t : Signature, s.Matches g h T t →
      Refines R (do return "new " ++ (← signature g print ": " s))
        (do return "new " ++ (← signature h print' ": " t)) :=
    fun s t hst => (refines_signature hprint ": " hst).bind fun _ => refines_pure _
  refine (refines_mapM hab.calls fun _ _ => refines_signature hprint ": ").bind fun _ => ?_
  refine (refines_mapM hab.constructs hconstruct).bind fun _ => ?_
  refine (refines_mapM hab.infos fun _ _ => refines_indexInfo hprint).bind fun _ => ?_
  refine (refines_mapM hab.properties fun _ _ => refines_property? hprint).bind fun _ => ?_
  exact refines_pure _

/-- A type that is an arrow corresponds to one that is an arrow. -/
theorem refines_anonymousObject (precedence : Precedence) {a b : TypeId}
    (hab : a.Matches g h T b) :
    Refines R (anonymousObject g print precedence a) (anonymousObject h print' precedence b) := by
  have hmembers := refines_members hprint hab
  obtain ⟨-, -, -, -, -, -, -, hproperties, hcalls, hconstructs, hinfos⟩ := hab
  rw [anonymousObject_eq, anonymousObject_eq]
  generalize g.properties a = ps, h.properties b = ps' at hproperties
  generalize g.indexInfos a = is, h.indexInfos b = is' at hinfos
  generalize g.constructSignatures a = ks, h.constructSignatures b = ks' at hconstructs
  generalize g.callSignatures a = cs, h.callSignatures b = cs' at hcalls
  cases hproperties with
  | cons _ _ => exact hmembers
  | nil =>
    cases hinfos with
    | cons _ _ => exact hmembers
    | nil =>
      cases hconstructs with
      | cons _ _ => exact hmembers
      | nil =>
        rcases hcalls with _ | ⟨hcall, _ | ⟨_, _⟩⟩
        · exact hmembers
        · exact (refines_signature hprint " => " hcall).bind fun _ => refines_pure _
        · exact hmembers

theorem refines_tuple {a b : TypeId} (hab : a.Matches g h T b) :
    Refines R (tuple g print a) (tuple h print' b) := by
  unfold tuple
  rw [hab.shape]
  refine Refines.bind (refines_mapM (forall₂_zipIdx hab.typeArguments 0) ?_) fun _ => refines_pure _
  rintro ⟨element, n⟩ ⟨element', n'⟩ ⟨helement, hn⟩
  obtain rfl : n = n' := hn
  refine Refines.bind (hprint .top helement) fun text => ?_
  dsimp only
  split <;> exact refines_pure _

theorem refines_array (hunknown : T .unknown .unknown) {a b : TypeId} (hab : a.Matches g h T b) :
    Refines R (array g print a) (array h print' b) := by
  have hhead : T ((g.typeArguments a).head?.getD .unknown)
      ((h.typeArguments b).head?.getD .unknown) := by
    have htypes := hab.typeArguments
    generalize g.typeArguments a = as, h.typeArguments b = bs at htypes
    cases htypes with
    | nil => exact hunknown
    | cons hhead _ => exact hhead
  unfold array
  rw [hab.readonlyArray]
  exact (hprint .element hhead).bind fun _ => refines_pure _

theorem refines_branch {a b : Option TypeId} (hab : Option.Rel T a b) :
    Refines R (branch print a) (branch print' b) := by
  cases hab with
  | none => exact refines_pure _
  | some hab => exact hprint .top hab

theorem refines_piece (text : String) {a b : Option TypeId} (hab : Option.Rel T a b) :
    Refines R (piece print text a) (piece print' text b) := by
  cases hab with
  | none => exact refines_pure _
  | some hab => exact (hprint .top hab).bind fun _ => refines_pure _

variable (hnested : ∀ precedence {a b}, T a b →
  Refines R (nested a (anonymousObject g print precedence a))
    (nested b (anonymousObject h print' precedence b)))

include hc hnested

theorem refines_object (precedence : Precedence) {a b : TypeId} (hab : T a b) :
    Refines R (object g print precedence a) (object h print' precedence b) := by
  have hmembers := hc.members hab
  have htuple : g.isTuple a = h.isTuple b := congrArg (Flags.has · _) hmembers.flags
  unfold object
  dsimp only
  rw [hmembers.array, htuple, hmembers.name, hmembers.constructorSide, hmembers.flags]
  split
  · exact refines_array hprint hc.unknown hmembers
  split
  · exact refines_tuple hprint hmembers
  split
  · split
    · exact refines_withArguments hprint _ hmembers.typeArguments
    split
    · exact refines_pure _
    · exact hnested precedence hab
  · exact hnested precedence hab

theorem refines_structure (precedence : Precedence) {a b : TypeId} (hab : T a b) {r s : TypeRecord}
    (hrs : r.Matches g h T s) :
    Refines R (structure' g print precedence a r) (structure' h print' precedence b s) := by
  have hdata := hrs.data
  unfold structure'
  rw [hrs.name]
  generalize r.data = data, s.data = data' at hdata
  cases hdata with
  | intrinsic name => exact refines_pure _
  | literal value => exact refines_pure _
  | object o o' => exact refines_object hc hprint hnested precedence hab
  | union htypes =>
    exact (refines_list hprint htypes " | " .operand).bind fun _ => refines_pure _
  | intersection htypes =>
    exact (refines_list hprint htypes " & " .operand).bind fun _ => refines_pure _
  | typeParameter c d c' d' => exact refines_pure _
  | index htarget => exact (hprint .element htarget).bind fun _ => refines_pure _
  | indexedAccess hobject hindex =>
    exact (hprint .element hobject).bind fun _ => (hprint .top hindex).bind fun _ => refines_pure _
  | conditional hcheck hextends htrue hfalse =>
    refine (hprint .operand hcheck).bind fun _ => (hprint .top hextends).bind fun _ => ?_
    refine (refines_branch hprint htrue).bind fun _ => ?_
    refine (refines_branch hprint hfalse).bind fun _ => ?_
    exact refines_pure _
  | substitution hbase c c' => exact hprint precedence hbase
  | templateLiteral texts htypes =>
    have hsame : List.Forall₂ Eq texts.zipIdx texts.zipIdx := List.forall₂_refl _
    refine (refines_mapM hsame ?_).bind fun _ => refines_pure _
    rintro ⟨text, n⟩ _ rfl
    exact refines_piece hprint text (rel_getElem? htypes n)
  | stringMapping htarget => exact (hprint .top htarget).bind fun _ => refines_pure _

theorem refines_record (precedence : Precedence) {a b : TypeId} (hab : T a b) :
    Refines R (record g print precedence a) (record h print' precedence b) := by
  have htype := hc.type hab
  unfold record
  generalize g.type? a = r, h.type? b = s at htype
  cases htype with
  | none => exact refines_pure _
  | @some r s hrs =>
    dsimp only
    rw [hrs.aliasName, hrs.boolean, hrs.enumMember, hrs.enum]
    split
    · exact refines_withArguments hprint _ hrs.aliasArguments
    split
    · exact refines_pure _
    split
    · exact refines_pure _
    · exact refines_structure hc hprint hnested precedence hab hrs

end

end Print

namespace TypeGraph

variable {g h}

/-- With at least as many levels, a type that corresponds to another one is printed the same. -/
theorem Corresponds.print_refines (hc : g.Corresponds h T) {levels levels' : Nat}
    (hle : levels ≤ levels') (precedence : Precedence) {a b : TypeId} (hab : T a b) :
    Print.Refines (Printer.Matches T) (g.print levels precedence a)
      (h.print levels' precedence b) := by
  induction levels generalizing levels' precedence a b with
  | zero => exact fun _ _ _ _ _ h => absurd h (Option.some_ne_none _).symm
  | succ levels ih =>
    obtain ⟨levels', rfl⟩ : ∃ n, levels' = n + 1 := ⟨levels' - 1, by omega⟩
    have hprint : ∀ precedence {a b}, T a b → Print.Refines (Printer.Matches T)
        (g.print levels precedence a) (h.print levels' precedence b) :=
      fun precedence _ _ => ih (Nat.le_of_succ_le_succ hle) precedence
    exact Print.refines_record hc hprint (fun precedence _ _ hab =>
      Print.refines_nested hc.unique hab
        (Print.refines_anonymousObject hprint precedence (hc.members hab))) precedence hab

end TypeGraph

/-! ## The same record twice -/

section Same

variable {g h}

theorem SymbolId.Matches.same {p : SymbolId} (hp : T (g.valueTypeOf p) (g.valueTypeOf p)) :
    p.Matches g g T p :=
  ⟨rfl, rfl, rfl, hp⟩

theorem Signature.Matches.same {s : Signature}
    (hparameters : ∀ p ∈ s.parameters, T (g.valueTypeOf p) (g.valueTypeOf p))
    (hreturn : T s.returnType s.returnType) : s.Matches g g T s :=
  ⟨List.forall₂_same.2 fun p hp => .same (hparameters p hp), hreturn⟩

theorem TypeData.Matches.same {data : TypeData} (hT : ∀ id, .type id ∈ data.handles → T id id) :
    data.Matches T data := by
  have hlist : ∀ ids : List TypeId, ids.map .type ⊆ data.handles → List.Forall₂ T ids ids :=
    fun ids hsub => List.forall₂_same.2 fun id hid => hT id (hsub (List.mem_map_of_mem hid))
  have hoption : ∀ id : Option TypeId, (∀ type, id = some type → .type type ∈ data.handles) →
      Option.Rel T id id := by
    rintro (_ | id) hmem
    · exact Option.Rel.none
    · exact Option.Rel.some (hT id (hmem id rfl))
  cases data with
  | intrinsic name => exact .intrinsic name
  | literal value => exact .literal value
  | object o => exact .object o o
  | union types => exact .union (hlist types (List.Subset.refl _))
  | intersection types => exact .intersection (hlist types (List.Subset.refl _))
  | typeParameter c d => exact .typeParameter c d c d
  | index target => exact .index (hT _ (by simp [handles]))
  | indexedAccess a b => exact .indexedAccess (hT _ (by simp [handles])) (hT _ (by simp [handles]))
  | conditional a b c d =>
    refine .conditional (hT _ (by simp [handles])) (hT _ (by simp [handles])) (hoption c ?_)
      (hoption d ?_)
    · rintro type rfl
      simp [handles]
    · rintro type rfl
      simp [handles]
  | substitution a c => exact .substitution (hT _ (by simp [handles])) c c
  | templateLiteral texts types => exact .templateLiteral texts (hlist types (List.Subset.refl _))
  | stringMapping target => exact .stringMapping (hT _ (by simp [handles]))

theorem TypeRecord.Matches.same {record : TypeRecord}
    (hT : ∀ id, .type id ∈ record.handles → T id id) : record.Matches g g T record where
  aliasName := rfl
  aliasArguments := List.forall₂_same.2 fun id hid => hT id (by simp [handles, hid])
  boolean := rfl
  enumMember := rfl
  enum := rfl
  name := rfl
  data := .same fun id hid => hT id (List.mem_append_right _ hid)

end Same

namespace TypeGraph

/-- Every type corresponds to itself. -/
theorem Corresponds.refl (g : TypeGraph) : g.Corresponds g Eq where
  unique := by rintro a _ a' _ rfl rfl; rfl
  unknown := rfl
  type := by
    rintro a _ rfl
    cases g.type? a with
    | none => exact Option.Rel.none
    | some record => exact Option.Rel.some (.same fun _ _ => rfl)
  members := by
    rintro a _ rfl
    have hsignature : ∀ s : Signature, s.Matches g g Eq s := fun s => .same (fun _ _ => rfl) rfl
    exact ⟨rfl, rfl, rfl, rfl, rfl, rfl, List.forall₂_refl _,
      List.forall₂_same.2 fun p _ => .same rfl, List.forall₂_same.2 fun s _ => hsignature s,
      List.forall₂_same.2 fun s _ => hsignature s,
      List.forall₂_same.2 fun i _ => ⟨rfl, rfl, rfl, rfl⟩⟩

/-- More levels change no text. -/
theorem print_mono (g : TypeGraph) {levels levels' : Nat} (hle : levels ≤ levels')
    {precedence : Precedence} {id : TypeId} {p : Printer} {result : String × Printer}
    (h : g.print levels precedence id p = some result) :
    g.print levels' precedence id p = some result := by
  obtain ⟨q, hq, hpq⟩ :=
    (Corresponds.refl g).print_refines hle precedence rfl (Printer.matches_eq_iff.2 rfl) h
  rw [hq, ← Printer.matches_eq_iff.1 hpq]

end TypeGraph

end TypeAtlas
