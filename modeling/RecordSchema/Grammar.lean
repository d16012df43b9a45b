import RecordSchema.Token

/-!
# Grammar rules (specification, 4.1)

The grammar has sixteen rules. `Rule.first` lists the kinds of token that a rule can begin with,
in the order a fault names them; of the rules that compete at one place, at most one begins with a
given kind, so that one token of look-ahead decides.
-/

namespace RecordSchema

/-- A rule of the grammar. -/
inductive Rule where
  /-- `name ::= body` -/
  | declaration
  | simpleType
  | sequence
  | array
  | choice
  /-- Bracketed parameter names of a declaration. -/
  | parameters
  /-- A named member of a sequence or array. -/
  | field
  | reference
  /-- Bracketed values of a reference. -/
  | values
  /-- A guarded member of a choice. -/
  | branch
  | condition
  | disjunction
  | conjunction
  | term
  | comparison
  | operand
deriving DecidableEq, Repr

namespace Rule

/-- Every rule, from the outermost inward. -/
def all : List Rule := [
  declaration, simpleType, sequence, array, choice, parameters, field, reference, values, branch,
  condition, disjunction, conjunction, term, comparison, operand]

/-- The name of the rule in the log and in internal faults. -/
def label : Rule → String
  | declaration => "TypeDeclaration"
  | simpleType => "SimpleType"
  | sequence => "SequenceDeclaration"
  | array => "ArrayDeclaration"
  | choice => "ChoiceDeclaration"
  | parameters => "Arguments"
  | field => "Attribute"
  | reference => "TypeReference"
  | values => "Values"
  | branch => "ChoiceBranch"
  | condition => "Condition"
  | disjunction => "OrExpression"
  | conjunction => "AndExpression"
  | term => "SimpleExpression"
  | comparison => "Comparison"
  | operand => "Operand"

/-- Kinds that begin a built-in type. -/
def typeWords : List TokenKind := [.uint, .bitString, .bool]

/-- Kinds that begin an operand. -/
def operandStart : List TokenKind := [.identifier, .number]

/-- Kinds that begin a term, and so whatever begins with one. -/
def termStart : List TokenKind := .leftParen :: operandStart

/-- The kinds of token that a rule can begin with. -/
def first : Rule → List TokenKind
  | declaration | field => [.identifier]
  | simpleType => typeWords
  | sequence => [.sequence]
  | array => [.array]
  | choice => [.choice]
  | parameters | values => [.leftSquare]
  | reference | branch => typeWords ++ [.identifier]
  | condition => .default :: termStart
  | disjunction | conjunction | term => termStart
  | comparison | operand => operandStart

/-- Whether a rule can begin with a kind of token. -/
def canStart (rule : Rule) (kind : TokenKind) : Bool := kind ∈ rule.first

/-- The rules for what stands behind `::=`. -/
def bodies : List Rule := [simpleType, sequence, array, choice]

/-- The kinds that begin some rule of a list, each once. -/
def firstOfAny (rules : List Rule) : List TokenKind := (rules.flatMap first).eraseDups

/-- At most one rule for a body begins with a given kind. -/
theorem bodies_disjoint :
    ∀ r ∈ bodies, ∀ s ∈ bodies, ∀ kind ∈ r.first, kind ∈ s.first → r = s := by
  decide

end Rule

end RecordSchema
