import TypeAtlas.Text.Replace
import TypeAtlas.Tree.Codec
import TypeAtlas.View.Codec
/-!
# Messages

The words for kinds of nodes and for purposes of children. A message has a key, under which it can
be looked up, and a template with numbered places for values (`Message.format`).
-/

namespace TypeAtlas

/-- A text with places for values, under a key. -/
structure Message where
  key : String
  template : String
  deriving DecidableEq, Inhabited, Repr

namespace Message

/-- The place for the value with a number. -/
def place (n : Nat) : String :=
  "\x7b" ++ toString n ++ "\x7d"

/-- The template with the values put into their places, one value after the other. -/
def format (template : String) (values : List String) : String :=
  values.zipIdx.foldl (fun text (value, n) => Text.replaceAll (place n) value text) template

/-- The template of a kind. -/
def kindTemplate : NodeKind → String
  | .primitive => place 0
  | .intrinsic => "intrinsic"
  | .stringLiteral => "\"" ++ place 0 ++ "\""
  | .numberLiteral => place 0
  | .bigintLiteral => place 0 ++ "n"
  | .booleanLiteral => place 0
  | .enumLiteral => place 0
  | .enum => "enum"
  | .object => "object"
  | .class' => "class"
  | .interface => "interface"
  | .function => "function"
  | .array => "array"
  | .tuple => "tuple"
  | .union => "union"
  | .intersection => "intersection"
  | .index => "keyof"
  | .indexedAccess => "access"
  | .conditional => "conditional"
  | .substitution => "substitution"
  | .stringMapping => "string mapping"
  | .templateLiteral => "template literal"
  | .typeParameter => "type parameter"
  | .nonPrimitive => "object"
  | .reference => "reference"
  | .maxDepth => "max depth exceeded"

/-- The message of a kind. -/
def ofKind (kind : NodeKind) : Message :=
  ⟨"kind." ++ kind.name, kindTemplate kind⟩

/-- The words for an index signature. -/
def indexInfo : Message :=
  ⟨"kind.index_info", "index"⟩

/-- The words for the text in a template literal. -/
def textSegment : Message :=
  ⟨"kind.text_segment", "\"" ++ place 0 ++ "\""⟩

/-- The words for a purpose. -/
def purposeText : Purpose → String
  | .return' => "return"
  | .parameter => "parameter"
  | .classConstructor => "constructor"
  | .classBaseType => "extends"
  | .classImplementations => "implements"
  | .objectClass => "class"
  | .typeParameterList => "type parameters"
  | .typeArgumentList => "type arguments"
  | .parameterValue => "value"
  | .parameterDefault => "default"
  | .parameterBaseConstraint => "constraint"
  | .indexInfo => "index"
  | .indexParameterType => "key"
  | .indexValueType => "value"
  | .conditionalCheck => "check"
  | .conditionalExtends => "extends"
  | .conditionalTrue => "true branch"
  | .conditionalFalse => "false branch"
  | .keyof => "keyof"
  | .indexedAccessBase => "base"
  | .indexedAccessIndex => "index"
  | .substitutionBase => "base"
  | .substitutionSubstitute => "substitute"
  | .stringMappingType => "type"
  | .templateLiteralText => "text"

/-- The message of a purpose. -/
def ofPurpose (purpose : Purpose) : Message :=
  ⟨"purpose." ++ purpose.documentName, purposeText purpose⟩

/-- All messages. -/
def all : List Message :=
  NodeKind.all.map ofKind ++ [indexInfo, textSegment] ++ Purpose.all.map ofPurpose

/-- The message with a key. -/
def ofKey? (key : String) : Option Message :=
  all.find? (·.key == key)

end Message

/-- What a node is, in words; a literal is its value. -/
def Shape.text {α : Type} (shape : Shape α) : String :=
  let template := Message.kindTemplate shape.kind
  match shape with
  | .primitive p => Message.format template [p.keyword]
  | .stringLiteral value => Message.format template [value]
  | .numberLiteral value => Message.format template [value.display]
  | .bigintLiteral value => Message.format template [value.display]
  | .booleanLiteral value => Message.format template [if value then "true" else "false"]
  | .enumLiteral value .. => Message.format template [value.display]
  | .intrinsic name => name
  | _ => template

end TypeAtlas
