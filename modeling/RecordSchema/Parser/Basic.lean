import RecordSchema.Event
import RecordSchema.Parser.Node
import RecordSchema.Scope
import RecordSchema.Token.Lexeme

/-!
# Parsing (specification, 4.2 and 4.3)

A parser reads tokens from a state and gives a result or a fault; the state goes on either way,
since the log in it is kept when a fault ends the reading. A parser looks at one token at a time,
the current one, and the comments before a token enter the log when the token is first looked at.

Rules are read by functions that take the reader of their sub-rules as an argument, `sub`;
`descend` is how they use it. `within` counts the rules that are open.

Each check of 4.3 is made where its name is read: `declareName`, `resolveName`, `resolveType` and
`ensureFree` fail with the cause of their own.
-/

namespace RecordSchema

/-- What a parser knows: the tokens ahead, the names in scope, and the log so far. -/
structure Parser.State where
  source : SourceId
  lexemes : Lexemes
  scope : Scope := {}
  types : TypeTable := {}
  /-- The name of the open declaration. -/
  declaring : Name := ⟨"", 0⟩
  /-- How many rules are open. -/
  depth : Nat := 0
  /-- What happened, newest first. -/
  log : List Event := []

/-- A reader of tokens that may end in a fault. -/
abbrev Parser (α : Type) := EStateM Fault Parser.State α

namespace Parser

variable {α : Type}

/-! ## State -/

namespace State

/-- The state after looking at the current token: the comments before it are in the log. -/
def passComments (s : State) : State :=
  let current := s.lexemes.current
  { s with
    lexemes := { s.lexemes with current := { current with comments := [] } }
    log := (current.comments.map .commentSkipped).reverse ++ s.log }

/-- The state behind the current token. -/
def advance (s : State) : State := { s with lexemes := s.lexemes.advance }

/-- The state with one more entry in the log. -/
def record (s : State) (event : Event) : State := { s with log := event :: s.log }

end State

/-! ## Faults and the log -/

/-- Ends in a fault of the text that is read. -/
def fail (cause : Cause) : Parser α := fun s => .error ⟨s.source, cause⟩ s

/-- Adds an event to the log. -/
def record (event : Event) : Parser Unit := fun s => .ok () (s.record event)

/-! ## Tokens -/

/-- The current token. -/
def look : Parser Token := fun s =>
  let s := s.passComments
  .ok s.lexemes.current.token s

/-- Moves behind the current token. -/
def advance : Parser Unit := fun s => .ok () s.advance

/-- Finds the current token to be none of the kinds expected here. -/
def unexpected (expected : List TokenKind) : Parser α := do
  let token ← look
  fail (.unexpectedToken expected token.kind token.offset token.length)

/-- The current token, which has to be of one of the kinds. Every caller names a kind at least, so
the case that no kinds let any token pass is left out. -/
def expect (kinds : List TokenKind) : Parser Token := do
  let token ← look
  if token.kind ∈ kinds then return token else unexpected kinds

/-- Reads a token of one of the kinds. -/
def take (kinds : List TokenKind) : Parser Token := do
  let token ← expect kinds
  advance
  return token

/-- Reads a token if it is of the kind. -/
def accept (kind : TokenKind) : Parser Bool := do
  let token ← look
  if token.kind = kind then
    advance
    return true
  else return false

/-- Reads an identifier. -/
def name : Parser Name := do
  let token ← take [.identifier]
  return ⟨token.text, token.offset⟩

/-- Whether a rule can begin here. -/
def canStart (rule : Rule) : Parser Bool := do
  let token ← look
  return rule.canStart token.kind

/-! ## Names -/

/-- Adds a parameter or field to the scope. -/
def declareName (name : Name) : Parser Unit := fun s =>
  match s.scope.declare name with
  | .ok scope => .ok () { s with scope }
  | .error first => fail (.nameInUse name.text name.offset first) s

/-- Refuses a name that is not in scope. -/
def resolveName (name : Name) : Parser Unit := fun s =>
  match s.scope.find? name.text with
  | some _ => .ok () s
  | none => fail (.undeclaredName name.text name.offset) s

/-- The position and parameter count of a declared type. -/
def resolveType (name : Name) : Parser (TypeId × Nat) := fun s =>
  match s.types.find? name.text with
  | some (id, type) => .ok (id, type.parameters) s
  | none => fail (.undeclaredType name.text name.offset) s

/-- Refuses a name that is a declared type. -/
def ensureFree (name : Name) : Parser Unit := fun s =>
  match s.types.ensureFree name with
  | .ok () => .ok () s
  | .error first => fail (.nameInUse name.text name.offset first) s

/-- Adds a type to those declared, and tells its position. -/
def declareType (name : Name) (parameters : Nat) : Parser TypeId := fun s =>
  match s.types.declare name parameters with
  | .ok (id, types) => .ok id { s with types }
  | .error first => fail (.nameInUse name.text name.offset first) s

/-- Starts a declaration with an empty scope. -/
def openDeclaration (name : Name) : Parser Unit := fun s =>
  .ok () { s with scope := {}, declaring := name }

/-- Drops the scope of a declaration. -/
def closeDeclaration : Parser Unit := fun s => .ok () { s with scope := {} }

/-- The name of the open declaration. -/
def declaring : Parser Name := fun s => .ok s.declaring s

/-! ## Rules -/

/-- How many rules can be open at once. -/
def nestingLimit : Nat := 256

/-- Runs a parser with one more rule open, and closes the rule whatever the outcome. -/
def within (body : Parser α) : Parser α := fun s =>
  match body { s with depth := s.depth + 1 } with
  | .ok a s => .ok a { s with depth := s.depth - 1 }
  | .error fault s => .error fault { s with depth := s.depth - 1 }

/-- Finds the rules nested too deep. -/
def tooDeep : Parser α := do
  let token ← look
  fail (.nestedTooDeep token.offset)

/-- Refuses a rule that cannot begin here, or that would exceed the limit. -/
def ensureStart (rule : Rule) : Parser Unit := do
  unless ← canStart rule do unexpected rule.first
  if nestingLimit ≤ (← get).depth then tooDeep

/-- Finds a rule to have given the node of another one. -/
def wrongNode (rule : Rule) : Parser α := do
  let token ← look
  fail (.unexpectedNode rule token.offset)

/-- Reads a sub-rule for what it reads. -/
def descend (sub : Rule → Parser Node) (rule : Rule) : Parser rule.Output := do
  let node ← sub rule
  if h : node.rule = rule then return h ▸ node.output else wrongNode rule

/-- Reads the one of the rules that can begin here. -/
def dispatch (sub : Rule → Parser Node) (rules : List Rule) : Parser Node := do
  let token ← look
  match rules.find? (·.canStart token.kind) with
  | some rule => sub rule
  | none => unexpected (Rule.firstOfAny rules)

/-! ## Repetition -/

/-- Reads items while `more` answers yes, at most `n` of them. An item is read with those before it
at hand, newest first. -/
def manyWithin (more : Parser Bool) (item : List α → Parser α) :
    Nat → List α → Parser (List α)
  | 0, before => return before.reverse
  | n + 1, before => do
    if ← more then
      let a ← item before
      manyWithin more item n (a :: before)
    else return before.reverse

/-- More than the number of items that can follow, if each takes a token. -/
def tokensLeft : Parser Nat := fun s => .ok (s.lexemes.later.length + 1) s

/-- Reads items while `more` answers yes. -/
def many (more : Parser Bool) (item : List α → Parser α) : Parser (List α) := do
  manyWithin more item (← tokensLeft) []

/-- Reads one item, and further ones while `more` answers yes. -/
def many1 (more : Parser Bool) (item : List α → Parser α) : Parser (List α) := do
  let first ← item []
  manyWithin more item (← tokensLeft) [first]

end Parser

end RecordSchema
