import RecordSchema.Parser.Reference

/-!
# Reading declarations (specification, 4.2)

A declaration and the kinds of body it can have. There is one reader for each of the rules
`declaration`, `sequence`, `array`, `choice` and `parameters`. The number of parameters of an array
is checked before its fields are read, and a second default branch of a choice as soon as it is
read; that a choice has one is checked behind its closing brace.
-/

namespace RecordSchema.Parser

variable (sub : Rule → Parser Node)

/-- A name that becomes a parameter of the open declaration. -/
def parameter : Parser Name := do
  let name ← name
  declareName name
  return name

/-- Whether a further parameter comes: behind a comma always, and else unless the list closes. -/
def moreParameters : Parser Bool := do
  if ← accept .comma then return true
  else
    let token ← expect [.identifier, .comma, .rightSquare]
    return token.kind ≠ .rightSquare

/-- Bracketed parameter names, with or without commas between them. -/
def parameters : Parser (List Name) := do
  let _ ← take [.leftSquare]
  let names ← many1 moreParameters fun _ => parameter
  let _ ← take [.rightSquare]
  return names

/-- One or more fields in braces. -/
def fields : Parser (List Field) := do
  let _ ← take [.leftCurly]
  let items ← many1 (canStart .field) fun _ => descend sub .field
  let _ ← take [.identifier, .rightCurly]
  return items

/-- A sequence; its parameters can be left out. -/
def sequence : Parser Body := do
  let _ ← take [.sequence]
  let parameters : List Name ←
    if ← canStart .parameters then descend sub .parameters else pure []
  return .sequence parameters (← fields sub)

/-- An array, which has exactly one parameter. -/
def array : Parser Body := do
  let _ ← take [.array]
  let parameters : List Name ← descend sub .parameters
  match parameters with
  | [count] => return .array count (← fields sub)
  | _ =>
    let name ← declaring
    fail (.parameterCount name.text 1 parameters.length name.offset)

/-- The offset of the type of the default branch among some branches. -/
def defaultOffset? (branches : List Branch) : Option Nat :=
  (branches.find? (·.condition.isDefault)).map (·.type.name.offset)

/-- A branch behind others, of which no second one can be the default. -/
def nextBranch (before : List Branch) : Parser Branch := do
  let branch : Branch ← descend sub .branch
  match defaultOffset? before, branch.condition.isDefault with
  | some first, true =>
    let name ← declaring
    fail (.duplicateDefault name.text name.offset first)
  | _, _ => return branch

/-- A choice, which has exactly one default branch. -/
def choice : Parser Body := do
  let _ ← take [.choice]
  let parameters : List Name ← descend sub .parameters
  let _ ← take [.leftCurly]
  let branches ← many1 (canStart .branch) (nextBranch sub)
  let _ ← take (Rule.branch.first ++ [.rightCurly])
  if (defaultOffset? branches).isNone then
    let name ← declaring
    fail (.missingDefault name.text name.offset)
  else return .choice parameters branches

/-- What stands behind `::=`. -/
def body : Parser Body := do
  match ← dispatch sub Rule.bodies with
  | ⟨.simpleType, type⟩ => return .simple type
  | ⟨.sequence, body⟩ | ⟨.array, body⟩ | ⟨.choice, body⟩ => return body
  | _ => wrongNode .declaration

/-- A declaration, which becomes known to those behind it. -/
def declaration : Parser Declaration := do
  let name ← name
  ensureFree name
  let _ ← take [.assignment]
  openDeclaration name
  let body ← body sub
  closeDeclaration
  let count := body.parameters.length
  let id ← declareType name count
  record (.typeDeclared name.text id.index count)
  return ⟨name, body⟩

end RecordSchema.Parser
