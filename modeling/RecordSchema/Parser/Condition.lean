import RecordSchema.Parser.Basic
import RecordSchema.Text.Decimal

/-!
# Reading conditions (specification, 4.2)

The guard of a branch. `and` binds tighter than `or`, and parentheses group. There is one reader for
each of the rules `condition`, `disjunction`, `conjunction`, `term`, `comparison` and `operand`.
-/

namespace RecordSchema.Parser

variable (sub : Rule → Parser Node)

/-- Integers are below this. -/
def integerLimit : Nat := Nat.pow 2 64

/-- A name in scope, or an integer. -/
def operand : Parser Operand := do
  let token ← take Rule.operandStart
  if token.kind = .identifier then
    let name : Name := ⟨token.text, token.offset⟩
    resolveName name
    return .name name
  else
    let value := Text.decimalValue token.text.toList
    if value < integerLimit then return .integer value
    else fail (.invalidNumber token.text token.offset)

/-- Kinds of the relations. -/
def relationKinds : List TokenKind :=
  [.equal, .notEqual, .less, .lessEqual, .greater, .greaterEqual]

/-- The relation of a kind that is one of `relationKinds`. -/
def relationOf : TokenKind → Relation
  | .equal => .equal
  | .notEqual => .notEqual
  | .less => .less
  | .lessEqual => .lessEqual
  | .greater => .greater
  | _ => .greaterEqual

/-- `left relation right` -/
def comparison : Parser Term := do
  let left : Operand ← descend sub .operand
  let token ← take relationKinds
  let right : Operand ← descend sub .operand
  return .comparison left (relationOf token.kind) right

/-- A comparison, or a disjunction in parentheses. -/
def term : Parser Term := do
  if ← accept .leftParen then
    let alternatives : Disjunction ← descend sub .disjunction
    let _ ← take [.and, .or, .rightParen]
    return .group alternatives
  else descend sub .comparison

/-- Terms joined by `and`. -/
def conjunction : Parser Conjunction := many1 (accept .and) fun _ => descend sub .term

/-- Conjunctions joined by `or`. -/
def disjunction : Parser Disjunction := many1 (accept .or) fun _ => descend sub .conjunction

/-- `DEFAULT`, or a disjunction. -/
def condition : Parser Condition := do
  if ← accept .default then return .default
  else return .expression (← descend sub .disjunction)

end RecordSchema.Parser
