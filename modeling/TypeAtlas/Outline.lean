import TypeAtlas.Text.Styled
import TypeAtlas.View.Label
import TypeAtlas.View.Resolver
/-!
# Outlines

A view and the views below it as lines of text, each child indented under its parent. A node with
children that are not shown ends in an ellipsis.
-/

namespace TypeAtlas

/-- How an outline is made. -/
structure OutlineOptions where
  /-- How many levels below the root are shown. -/
  expandDepth : UInt32 := 3
  /-- Whether the groups of type parameters and type arguments are shown. -/
  typeArguments : Bool := true
  /-- Whether the text is styled. -/
  color : Bool := false
  deriving DecidableEq, Inhabited, Repr

namespace Outline

open Text (Style)

/-- The mark of a node whose children are not shown. -/
def collapsedMarker : String := "…"

/-- The blanks before a node on a level. -/
def indent (depth : Nat) : String :=
  String.join (List.replicate depth "  ")

/-- The line of a node: its label and, if that is something else, its description. -/
def line (color : Bool) (depth : Nat) (result : ViewResult) (collapsed : Bool) : String :=
  let label := result.label
  let description := result.description
  let body :=
    if result.isFailure then
      Style.redBold.paint color label ++ ": " ++ Style.red.paint color description
    else if label == description then Style.bold.paint color label
    else Style.bold.paint color label ++ ": " ++ Style.cyan.paint color description
  let mark := if collapsed then " " ++ Style.dimmed.paint color collapsedMarker else ""
  indent depth ++ body ++ mark ++ "\n"

/-- The lines of a node and of those below it, with a number of levels left to be shown. -/
def render (retriever : Option Retriever) (options : OutlineOptions) :
    Nat → Nat → ViewResult → Resolve String
  | levels, depth, result => do
    match result.view? with
    | none => return line options.color depth result false
    | some view =>
      match levels with
      | 0 => return line options.color depth result !view.children.isEmpty
      | levels + 1 =>
        let head := line options.color depth result false
        if view.children.isEmpty then return head
        else
          match ← Resolve.children retriever view options.typeArguments with
          | .ok children =>
            let texts ← children.mapM (render retriever options levels (depth + 1))
            return head ++ String.join texts
          | .error error =>
            return head ++ indent (depth + 1) ++ Style.red.paint options.color error.message ++ "\n"

/-- The outline of a view. -/
def text (retriever : Option Retriever) (options : OutlineOptions) (result : ViewResult) :
    Resolve String :=
  render retriever options options.expandDepth.toNat 0 result

end Outline

end TypeAtlas
