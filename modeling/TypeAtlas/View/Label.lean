import TypeAtlas.View.Message
/-!
# Labels

What a list of views shows of each: a label that names it, such as `items?` or `...rest`, and a
description that says what it is, such as `string[]`. A view without a name is labelled by its
description.
-/

namespace TypeAtlas

/-- The label of a node that could not be viewed. -/
def ViewResult.failureLabel : String := "<error>"

/-- The label of a parameter without a name. -/
def View.unnamedParameter : String := "<parameter>"

namespace View

/-- The alias, or else the kind in words; before it whether arrays are read-only and after it how
many there are. -/
def description (view : View) : String :=
  let l := view.layer
  let base := (l.aliasName.or l.kindText).getD ""
  let readonly := if l.readonly && 0 < l.dimension then "readonly " else ""
  readonly ++ base ++ String.join (List.replicate l.dimension.toNat "[]")

/-- The name that a view goes by: its own, that of its symbol, or that of its purpose. -/
def baseName? (view : View) : Option String :=
  let l := view.layer
  let symbolName := l.symbol.bind fun symbol =>
    if symbol.anonymous || symbol.name.isEmpty then none else some symbol.name
  let purposeName := l.purpose.map fun purpose =>
    if purpose = .parameter then unnamedParameter else Message.purposeText purpose
  l.name.or (symbolName.or purposeName)

/-- The name, marked when it is a rest parameter or optional. -/
def label (view : View) : String :=
  match view.baseName? with
  | some name =>
    (if view.layer.rest then "..." else "") ++ name ++ (if view.layer.optional then "?" else "")
  | none => view.description

end View

namespace ViewResult

/-- What names a result. -/
def label : ViewResult → String
  | .view v => v.label
  | .failure _ => failureLabel

/-- What a result is. -/
def description : ViewResult → String
  | .view v => v.description
  | .failure f => f.error.message

end ViewResult

end TypeAtlas
