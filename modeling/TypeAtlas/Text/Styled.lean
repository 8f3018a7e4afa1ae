import TypeAtlas.Text.Replace
/-!
# Styled text

Text with colours and weights for a terminal. A style is switched on before the text and everything
is reset after it; where the text itself holds a reset, the style is switched on again.
-/

namespace TypeAtlas.Text

/-- How a piece of output is shown. -/
inductive Style where
  | bold
  | red
  | redBold
  | cyan
  | dimmed
  deriving DecidableEq, Inhabited, Repr

/-- The parameters of the escape sequence. -/
def Style.code : Style → String
  | bold => "1"
  | red => "31"
  | redBold => "1;31"
  | cyan => "36"
  | dimmed => "2"

/-- The escape sequence that ends all styles. -/
def styleReset : String := "\x1b[0m"

/-- The escape sequence that starts a style. -/
def Style.start (style : Style) : String :=
  "\x1b[" ++ style.code ++ "m"

/-- A text in a style; without colour, the text as it is. -/
def Style.paint (color : Bool) (style : Style) (text : String) : String :=
  if color then
    style.start ++ replaceAll styleReset (styleReset ++ style.start) text ++ styleReset
  else text

end TypeAtlas.Text
