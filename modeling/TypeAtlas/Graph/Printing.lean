import TypeAtlas.Graph.Properties
import TypeAtlas.Text.Quoted
/-!
# Types as text

Types in the syntax of the language: aliases, classes and interfaces by name, object types by their
members, functions as arrows. A `Printer` remembers which anonymous object types it is inside of;
one that would be nested in itself, or deeper than `Printer.depthLimit`, prints as an ellipsis.

A type that contains itself without an anonymous object in between has no finite text. The printing
functions take a number of levels and fail when they need more; `TypeGraph.printLevels` is enough
for every type that has a text.
-/

namespace TypeAtlas

/-- The state of printing: the anonymous object types being printed, and how many they are. -/
structure Printer where
  inProgress : List TypeId := []
  depth : Nat := 0
  deriving DecidableEq, Inhabited, Repr

/-- How many anonymous object types are printed inside each other. -/
def Printer.depthLimit : Nat := 8

/-- Printing that may need more levels than it has. -/
abbrev Print := StateT Printer Option

/-- Where a type stands. -/
inductive Precedence where
  | top
  /-- In a union or an intersection: operators and functions need parentheses. -/
  | operand
  /-- Before brackets or after `keyof`: operators and functions need parentheses. -/
  | element
  deriving DecidableEq, Inhabited, Repr

namespace Print

/-- Parentheses around a text that does not stand alone. -/
def parenthesize (precedence : Precedence) (text : String) : String :=
  if precedence = .top then text else "(" ++ text ++ ")"

/-- The value of a literal type. -/
def literalText : Literal → String
  | .string value => Text.quoted value
  | .number value => value.display
  | .bigInt value => value.display ++ "n"
  | .boolean value => if value then "true" else "false"

/-- Braces around the members of an object type. -/
def braces (members : List String) : String :=
  if members.isEmpty then "\x7b\x7d" else "\x7b " ++ "; ".intercalate members ++ "; \x7d"

/-- What stands for an object type that is not printed again, or not so deep. -/
def ellipsis : String := "\x7b ... \x7d"

variable (g : TypeGraph) (print : Precedence → TypeId → Print String)

/-- Types with a separator between them. -/
def list (types : List TypeId) (separator : String) (precedence : Precedence) : Print String := do
  return separator.intercalate (← types.mapM (print precedence))

/-- A name with type arguments, if there are any. -/
def withArguments (name : String) (arguments : List TypeId) : Print String := do
  if arguments.isEmpty then return name
  else return name ++ "<" ++ (← list print arguments ", " .top) ++ ">"

/-- A parameter list in parentheses. -/
def parameters (signature : Signature) : Print String := do
  let texts ← signature.parameters.mapM fun parameter => do
    let name := (g.symbolName? parameter).getD "arg"
    let rest := if g.isRestParameter parameter then "..." else ""
    let optional := if g.isOptionalParameter parameter then "?" else ""
    return rest ++ name ++ optional ++ ": " ++ (← print .top (g.valueTypeOf parameter))
  return "(" ++ ", ".intercalate texts ++ ")"

/-- A parameter list and a return type. -/
def signature (separator : String) (signature : Signature) : Print String := do
  let parameters ← parameters g print signature
  return parameters ++ separator ++ (← print .top signature.returnType)

/-- An index signature as a member. -/
def indexInfo (info : IndexInfo) : Print String := do
  let readonly := if info.isReadonly then "readonly " else ""
  let name := (g.nameOf? info.parameter).getD "key"
  let key ← print .top info.keyType
  return readonly ++ "[" ++ name ++ ": " ++ key ++ "]: " ++ (← print .top info.valueType)

/-- A property as a member; nothing if its symbol does not exist. -/
def property? (property : SymbolId) : Print (Option String) := do
  match g.symbol? property with
  | none => return none
  | some symbol =>
    let readonly := if symbol.checkFlags.has CheckFlags.readonly then "readonly " else ""
    let optional := if symbol.flags.has SymbolFlags.optional then "?" else ""
    let type ← print .top (g.valueTypeOf property)
    return some (readonly ++ symbol.name ++ optional ++ ": " ++ type)

/-- An anonymous object type: an arrow if it is nothing but a call signature, else its members. -/
def anonymousObject (precedence : Precedence) (id : TypeId) : Print String := do
  let properties := g.properties id
  let calls := g.callSignatures id
  let constructs := g.constructSignatures id
  let infos := g.indexInfos id
  match properties, infos, constructs, calls with
  | [], [], [], [call] => return parenthesize precedence (← signature g print " => " call)
  | _, _, _, _ =>
    let callTexts ← calls.mapM (signature g print ": ")
    let constructTexts ← constructs.mapM fun construct => do
      return "new " ++ (← signature g print ": " construct)
    let indexTexts ← infos.mapM (indexInfo g print)
    let propertyTexts ← properties.mapM (property? g print)
    return braces (callTexts ++ constructTexts ++ indexTexts ++ propertyTexts.reduceOption)

/-- A tuple type. -/
def tuple (id : TypeId) : Print String := do
  let shape := g.tupleShape id
  let elements ← (g.typeArguments id).zipIdx.mapM fun (element, n) => do
    let text ← print .top element
    let optional := shape.minLength.any fun min => min.toNat ≤ n
    match shape.labels.bind (·[n]?) with
    | some label => return label ++ (if optional then "?: " else ": ") ++ text
    | none => return text ++ (if optional then "?" else "")
  return (if shape.readonly then "readonly " else "") ++ "[" ++ ", ".intercalate elements ++ "]"

/-- An array type. -/
def array (id : TypeId) : Print String := do
  let element ← print .element ((g.typeArguments id).head?.getD .unknown)
  return (if g.isReadonlyArray id then "readonly " else "") ++ element ++ "[]"

/-- Prints an anonymous object type inside those in progress, unless it is one of them or they are
too many. -/
def nested (id : TypeId) (body : Print String) : Print String := do
  let printer ← get
  if Printer.depthLimit ≤ printer.depth || printer.inProgress.contains id then return ellipsis
  else
    set ({ inProgress := id :: printer.inProgress, depth := printer.depth + 1 } : Printer)
    let text ← body
    modify fun printer =>
      { inProgress := printer.inProgress.erase id, depth := printer.depth - 1 }
    return text

/-- An object type. -/
def object (precedence : Precedence) (id : TypeId) : Print String := do
  let flags := g.objectFlags id
  let symbol := (g.type? id).bind (·.symbol)
  if g.isArray id then array g print id
  else if g.isTuple id then tuple g print id
  else
    match g.nameOf? symbol with
    | some name =>
      if flags.meets (ObjectFlags.classOrInterface ||| ObjectFlags.reference) then
        withArguments print name (g.typeArguments id)
      else if ((symbol.bind g.symbol?).map (·.flags.has SymbolFlags.class')).getD false then
        return "typeof " ++ name
      else nested id (anonymousObject g print precedence id)
    | none => nested id (anonymousObject g print precedence id)

/-- A type that a name does not stand for. -/
def structure' (precedence : Precedence) (id : TypeId) (record : TypeRecord) : Print String := do
  match record.data with
  | .intrinsic name => return if name == "error" then "any" else name
  | .literal value => return literalText value
  | .union types => return parenthesize precedence (← list print types " | " .operand)
  | .intersection types => return parenthesize precedence (← list print types " & " .operand)
  | .typeParameter .. => return (g.nameOf? record.symbol).getD "T"
  | .index target => return "keyof " ++ (← print .element target)
  | .indexedAccess objectType indexType =>
    let objectText ← print .element objectType
    return objectText ++ "[" ++ (← print .top indexType) ++ "]"
  | .conditional checkType extendsType trueType falseType =>
    let branch (type : Option TypeId) : Print String :=
      match type with
      | some type => print .top type
      | none => return "unknown"
    let check ← print .operand checkType
    let extended ← print .top extendsType
    let whenTrue ← branch trueType
    let whenFalse ← branch falseType
    return parenthesize precedence
      (check ++ " extends " ++ extended ++ " ? " ++ whenTrue ++ " : " ++ whenFalse)
  | .substitution baseType _ => print precedence baseType
  | .templateLiteral texts types =>
    let pieces ← texts.zipIdx.mapM fun (text, n) => do
      match types[n]? with
      | some type => return text ++ "$\x7b" ++ (← print .top type) ++ "\x7d"
      | none => return text
    return "`" ++ "".intercalate pieces ++ "`"
  | .stringMapping target =>
    return (g.nameOf? record.symbol).getD "Intrinsic" ++ "<" ++ (← print .top target) ++ ">"
  | .object _ => object g print precedence id

/-- The name of an enum member, after the name of its enum. -/
def enumMemberName? (record : TypeRecord) : Option String :=
  if record.flags.has TypeFlags.enumLiteral && !record.flags.has TypeFlags.union then
    (record.symbol.bind g.symbol?).map fun member =>
      match g.nameOf? member.parent with
      | some parent => parent ++ "." ++ member.name
      | none => member.name
  else none

/-- The name of an enum. -/
def enumName? (record : TypeRecord) : Option String :=
  if record.flags.has TypeFlags.enum then g.nameOf? record.symbol else none

/-- A type: by its alias, by the name it has otherwise, or by its structure. -/
def record (precedence : Precedence) (id : TypeId) : Print String := do
  match g.type? id with
  | none => return "unknown"
  | some record =>
    match g.nameOf? record.aliasSymbol with
    | some name => withArguments print name record.aliasTypeArguments
    | none =>
      if record.flags.has TypeFlags.boolean then return "boolean"
      else
        match (enumMemberName? g record).or (enumName? g record) with
        | some name => return name
        | none => structure' g print precedence id record

end Print

namespace TypeGraph

variable (g : TypeGraph)

/-- Prints a type with at most the given number of levels. -/
def print : Nat → Precedence → TypeId → Print String
  | 0, _, _ => fun _ => none
  | levels + 1, precedence, id => Print.record g (print levels) precedence id

/-- Between two anonymous objects no type occurs twice inside itself, and anonymous objects are
nested at most `Printer.depthLimit` times. -/
def printLevels : Nat :=
  (Printer.depthLimit + 1) * (g.types.size + 2)

/-- The text of a type, if it has a finite one. -/
def typeText? (id : TypeId) : Option String :=
  (g.print g.printLevels .top id {}).map (·.1)

/-- The text of a type. -/
def typeText (id : TypeId) : String :=
  (g.typeText? id).getD Print.ellipsis

end TypeGraph

end TypeAtlas
