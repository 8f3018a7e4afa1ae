import TypeAtlas.Proofs.Graph.Phrase
/-!
# Trees of operators

Types that are made of named types by unions, intersections, arrays, `keyof` and indexed access
(`Operators`), and what is left of such a tree in its text (`Operators.phrase`). Brackets always go
around what stands before them as far back as the next mark, whether the operator of the mark is
below the one of the brackets or above it. So trees in which no operator with a mark is right below
one with brackets are told apart by their phrases (`Operators.Clear.eq_of_phrase_eq`), and other
ones need not be.
-/

namespace TypeAtlas

/-- A type that is made by operators. -/
inductive Operators where
  | leaf (name : Identifier)
  | joined (op : Connective) (first second : Operators) (rest : List Operators)
  | array (readonly : Bool) (element : Operators)
  | keyof (target : Operators)
  | access (object index : Operators)

/-- The operator of a tree that is not below another one. -/
inductive Outermost where
  | leaf
  | joined
  | array (readonly : Bool)
  | keyof
  | access

namespace Phrase

/-- Whether a mark stands before all else. -/
def isMarked : Phrase → Bool
  | .marked .. => true
  | _ => false

/-- The operator of the last brackets. -/
def outermostBrackets (brackets : List (Option Phrase)) : Option Outermost :=
  brackets.getLast?.map fun index => if index.isSome then .access else .array false

/-- The operator of the first mark, or else of the last brackets. -/
def outermost : Phrase → Outermost
  | .word _ brackets => (outermostBrackets brackets).getD .leaf
  | .group _ _ _ _ brackets => (outermostBrackets brackets).getD .joined
  | .marked .keyof _ => .keyof
  | .marked .readonly _ => .array true

/-- A phrase with one more pair of brackets after it. -/
def bracketed (index : Option Phrase) : Phrase → Phrase
  | .word name brackets => .word name (brackets ++ [index])
  | .group op first second rest brackets => .group op first second rest (brackets ++ [index])
  | .marked mark phrase => .marked mark (phrase.bracketed index)

theorem bracketed_inj {index index' : Option Phrase} : ∀ {phrase phrase' : Phrase},
    phrase.bracketed index = phrase'.bracketed index' → phrase = phrase' ∧ index = index'
  | .word .., .word .., h => by simpa [bracketed, and_assoc] using h
  | .group .., .group .., h => by simpa [bracketed, and_assoc] using h
  | .marked .., .marked .., h => by
    obtain ⟨rfl, hphrase⟩ := Phrase.marked.inj h
    obtain ⟨rfl, hindex⟩ := bracketed_inj hphrase
    exact ⟨rfl, hindex⟩
  | .word .., .group .., h | .word .., .marked .., h | .group .., .word .., h
  | .group .., .marked .., h | .marked .., .word .., h | .marked .., .group .., h => by cases h

theorem isMarked_bracketed (index : Option Phrase) (phrase : Phrase) :
    (phrase.bracketed index).isMarked = phrase.isMarked := by
  cases phrase <;> rfl

theorem outermost_bracketed (index : Option Phrase) {phrase : Phrase}
    (h : phrase.isMarked = false) :
    (phrase.bracketed index).outermost = if index.isSome then .access else .array false := by
  cases phrase with
  | word name brackets | group op first second rest brackets =>
    simp [bracketed, outermost, outermostBrackets]
  | marked mark phrase => cases h

/-- A mark, if there is one. -/
def markedIf (readonly : Bool) (phrase : Phrase) : Phrase :=
  if readonly then .marked .readonly phrase else phrase

theorem markedIf_inj {readonly : Bool} {phrase phrase' : Phrase}
    (h : phrase.markedIf readonly = phrase'.markedIf readonly) : phrase = phrase' := by
  cases readonly with
  | true => exact (Phrase.marked.inj h).2
  | false => exact h

end Phrase

namespace Operators

open Phrase

/-- What the text of a tree shows. -/
def phrase : Operators → Phrase
  | .leaf name => .word name []
  | .joined op first second rest => .group op first.phrase second.phrase (rest.map phrase) []
  | .array readonly element => (element.phrase.bracketed none).markedIf readonly
  | .keyof target => .marked .keyof target.phrase
  | .access object index => object.phrase.bracketed (some index.phrase)

/-- The operator that is not below another one. -/
def outermost : Operators → Outermost
  | .leaf _ => .leaf
  | .joined .. => .joined
  | .array readonly _ => .array readonly
  | .keyof _ => .keyof
  | .access .. => .access

/-- Whether the outermost operator is one with a mark. -/
def isPrefixed : Operators → Bool
  | .array readonly _ => readonly
  | .keyof _ => true
  | _ => false

/-- A tree in which no operator with a mark is right below one with brackets. -/
inductive Clear : Operators → Prop
  | leaf (name : Identifier) : Clear (.leaf name)
  | joined {op : Connective} {first second : Operators} {rest : List Operators} :
      (∀ tree ∈ first :: second :: rest, Clear tree) → Clear (.joined op first second rest)
  | array {readonly : Bool} {element : Operators} :
      element.isPrefixed = false → Clear element → Clear (.array readonly element)
  | keyof {target : Operators} : Clear target → Clear (.keyof target)
  | access {object index : Operators} :
      object.isPrefixed = false → Clear object → Clear index → Clear (.access object index)

theorem Clear.isMarked_phrase {tree : Operators} (h : tree.Clear) :
    tree.phrase.isMarked = tree.isPrefixed := by
  induction h with
  | leaf name => rw [phrase]; rfl
  | joined _ _ => rw [phrase]; rfl
  | @array readonly element helement _ ih =>
    rw [phrase]
    cases readonly with
    | true => rfl
    | false => exact (isMarked_bracketed none _).trans (ih.trans helement)
  | keyof _ _ => rw [phrase]; rfl
  | access hobject _ _ ih _ =>
    rw [phrase]
    exact (isMarked_bracketed _ _).trans (ih.trans hobject)

theorem Clear.outermost_phrase {tree : Operators} (h : tree.Clear) :
    tree.phrase.outermost = tree.outermost := by
  cases h with
  | leaf name => rw [phrase]; rfl
  | joined _ => rw [phrase]; rfl
  | @array readonly element helement hclear =>
    rw [phrase]
    cases readonly with
    | true => rfl
    | false => exact outermost_bracketed none (hclear.isMarked_phrase.trans helement)
  | keyof _ => rw [phrase]; rfl
  | @access object index hobject hclear _ =>
    rw [phrase]
    exact outermost_bracketed (some _) (hclear.isMarked_phrase.trans hobject)

theorem eq_of_map_phrase_eq {trees others : List Operators}
    (hinj : ∀ tree ∈ trees, ∀ {other : Operators}, other.Clear → tree.phrase = other.phrase →
      tree = other)
    (hothers : ∀ tree ∈ others, tree.Clear) (heq : trees.map phrase = others.map phrase) :
    trees = others := by
  induction trees generalizing others with
  | nil => exact (List.map_eq_nil_iff.1 heq.symm).symm
  | cons tree trees ih =>
    cases others with
    | nil => cases heq
    | cons other others =>
      rw [List.forall_mem_cons] at hinj hothers
      obtain ⟨hfirst, hrest⟩ := List.cons.inj heq
      rw [hinj.1 hothers.1 hfirst, ih hinj.2 hothers.2 hrest]

theorem Clear.outermost_eq {tree other : Operators} (htree : tree.Clear) (hother : other.Clear)
    (h : tree.phrase = other.phrase) : tree.outermost = other.outermost := by
  rw [← htree.outermost_phrase, h, hother.outermost_phrase]

/-- Clear trees are told apart by their phrases. -/
theorem Clear.eq_of_phrase_eq {tree other : Operators} (htree : tree.Clear) (hother : other.Clear)
    (h : tree.phrase = other.phrase) : tree = other := by
  induction htree generalizing other with
  | leaf name =>
    have hsame := (Clear.leaf name).outermost_eq hother h
    cases hother with
    | leaf name' => simpa [phrase] using h
    | _ => cases hsame
  | @joined op first second rest hclear ih =>
    have hsame := (Clear.joined hclear).outermost_eq hother h
    cases hother with
    | @joined op' first' second' rest' hclear' =>
      rw [phrase, phrase] at h
      obtain ⟨rfl, hfirst, hsecond, hrest, -⟩ := Phrase.group.inj h
      have htrees : first :: second :: rest = first' :: second' :: rest' :=
        eq_of_map_phrase_eq ih hclear' (by simp [hfirst, hsecond, hrest])
      obtain ⟨rfl, htail⟩ := List.cons.inj htrees
      obtain ⟨rfl, rfl⟩ := List.cons.inj htail
      rfl
    | _ => cases hsame
  | @array readonly element helement hclear ih =>
    have hsame := (Clear.array helement hclear).outermost_eq hother h
    cases hother with
    | @array readonly' element' _ hclear' =>
      obtain rfl : readonly = readonly' := Outermost.array.inj hsame
      rw [phrase, phrase] at h
      obtain ⟨hphrase, -⟩ := bracketed_inj (markedIf_inj h)
      rw [ih hclear' hphrase]
    | _ => cases hsame
  | keyof hclear ih =>
    have hsame := (Clear.keyof hclear).outermost_eq hother h
    cases hother with
    | keyof hclear' =>
      rw [phrase, phrase] at h
      rw [ih hclear' (Phrase.marked.inj h).2]
    | _ => cases hsame
  | access hobject hclear hindex ih ihIndex =>
    have hsame := (Clear.access hobject hclear hindex).outermost_eq hother h
    cases hother with
    | access _ hclear' hindex' =>
      rw [phrase, phrase] at h
      obtain ⟨hphrase, hinside⟩ := bracketed_inj h
      rw [ih hclear' hphrase, ihIndex hindex' (Option.some.inj hinside)]
    | _ => cases hsame

end Operators

end TypeAtlas
