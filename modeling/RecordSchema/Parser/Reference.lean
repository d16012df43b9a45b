import RecordSchema.Parser.Condition
import RecordSchema.Schema.Rendering

/-!
# Reading members (specification, 4.2)

Fields, branches, and the references to types in them. There is one reader for each of the rules
`field`, `branch`, `reference`, `values` and `simpleType`. The number of values is checked where a
list of them is written; where none is, the number of parameters does not matter.
-/

namespace RecordSchema.Parser

variable (sub : Rule → Parser Node)

/-- Widths are below this. -/
def widthLimit : Nat := Nat.pow 2 32

/-- The width that a token gives, an underscore and digits. It is neither zero nor too large, but
may have leading zeros. -/
def widthOf (token : Token) : Parser Nat :=
  let value := Text.decimalValue (token.text.toList.drop 1)
  if 0 < value ∧ value < widthLimit then return value
  else fail (.invalidNumber token.text token.offset)

/-- The built-in type of a kind that is one of `Rule.typeWords`. -/
def builtinOf : TokenKind → Builtin
  | .uint => .uint
  | .bitString => .bitString
  | _ => .bool

/-- A built-in type. A width has to touch the keyword, and only a type that takes one has it. -/
def simpleType : Parser SimpleType := do
  let word ← take Rule.typeWords
  let builtin := builtinOf word.kind
  let token ← look
  if builtin.takesWidth ∧ token.kind = .width ∧ token.offset = word.stop then
    advance
    return ⟨builtin, some (← widthOf token)⟩
  else return ⟨builtin, none⟩

/-- Whether a further value comes: behind a comma always, and else if an operand begins. -/
def moreValues : Parser Bool := do
  if ← accept .comma then return true else canStart .operand

/-- Bracketed values, with or without commas between them. -/
def values : Parser (List Operand) := do
  let _ ← take [.leftSquare]
  let items ← many1 moreValues fun _ => descend sub .operand
  let _ ← take [.identifier, .number, .comma, .rightSquare]
  return items

/-- The type of a reference, by the name it is written with: what it refers to, and how many
parameters that has. -/
def target : Parser (Name × Target × Nat) := do
  if ← canStart .simpleType then
    let token ← look
    let type : SimpleType ← descend sub .simpleType
    return (⟨type.builtin.keyword, token.offset⟩, .builtin type, 0)
  else
    let name ← name
    let (id, parameters) ← resolveType name
    return (name, .declared id, parameters)

/-- A type and perhaps values for its parameters. A list of values has to be as long as that of the
parameters, but it can be left out whatever the type. -/
def reference : Parser Reference := do
  let (name, target, parameters) ← target sub
  if ← canStart .values then
    let values : List Operand ← descend sub .values
    if values.length = parameters then return ⟨name, target, some values⟩
    else fail (.valueCount name.text parameters values.length name.offset)
  else return ⟨name, target, none⟩

/-- A name and its type. The name is in scope only behind the type. -/
def field : Parser Field := do
  let name ← name
  let type : Reference ← descend sub .reference
  declareName name
  return ⟨name, type⟩

/-- A type and the condition on it in parentheses. -/
def branch : Parser Branch := do
  let type : Reference ← descend sub .reference
  let _ ← take [.leftParen]
  let condition : Condition ← descend sub .condition
  let _ ← take [.rightParen]
  return ⟨type, condition⟩

end RecordSchema.Parser
