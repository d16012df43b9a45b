import RecordSchema.Cursor
import RecordSchema.Parser.Declaration

/-!
# Reading a whole text (specification, 4.2)

`readRule` closes the loop: it reads a rule by the function for it, with itself as the reader of
sub-rules. Its first argument is how many rules may open one inside the other; since a rule that
would exceed `nestingLimit` is refused, that many are enough, and `rule` starts with them.
-/

namespace RecordSchema

namespace Parser

/-- Reads a rule by the function for it. -/
def build (sub : Rule → Parser Node) : Rule → Parser Node
  | .declaration => return ⟨.declaration, ← declaration sub⟩
  | .simpleType => return ⟨.simpleType, ← simpleType⟩
  | .sequence => return ⟨.sequence, ← sequence sub⟩
  | .array => return ⟨.array, ← array sub⟩
  | .choice => return ⟨.choice, ← choice sub⟩
  | .parameters => return ⟨.parameters, ← parameters⟩
  | .field => return ⟨.field, ← field sub⟩
  | .reference => return ⟨.reference, ← reference sub⟩
  | .values => return ⟨.values, ← values sub⟩
  | .branch => return ⟨.branch, ← branch sub⟩
  | .condition => return ⟨.condition, ← condition sub⟩
  | .disjunction => return ⟨.disjunction, ← disjunction sub⟩
  | .conjunction => return ⟨.conjunction, ← conjunction sub⟩
  | .term => return ⟨.term, ← term sub⟩
  | .comparison => return ⟨.comparison, ← comparison sub⟩
  | .operand => return ⟨.operand, ← operand⟩

/-- Reads a rule with up to `levels` rules open inside one another. -/
def readRule : Nat → Rule → Parser Node
  | 0, rule => do
    ensureStart rule
    tooDeep
  | levels + 1, rule => do
    ensureStart rule
    let token ← look
    record (.ruleBegun rule token.offset)
    within (build (readRule levels) rule)

/-- Reads a rule. -/
def rule : Rule → Parser Node := readRule nestingLimit

/-- Whether tokens are left. -/
def moreTokens : Parser Bool := do
  let token ← look
  return token.kind ≠ .endOfInput

/-- Reads declarations up to the end of input. -/
def declarations : Parser (List Declaration) :=
  many moreTokens fun _ => descend rule .declaration

/-- Reads a schema, and enters the outcome into the log. -/
def schema : Parser Schema := fun s =>
  match declarations s with
  | .ok items s => .ok ⟨items⟩ (s.record (.parseFinished s.types.names))
  | .error fault s => .error fault (s.record (.parseAborted fault))

end Parser

/-- The result of reading a text, and the log of it. -/
structure Outcome where
  result : Except Fault Schema
  log : List Event
deriving Repr

namespace Parser

/-- Reads lexemes as the text of a source. -/
def run (source : SourceId) (lexemes : Lexemes) : Outcome :=
  match schema { source, lexemes } with
  | .ok result s => ⟨.ok result, s.log.reverse⟩
  | .error fault s => ⟨.error fault, s.log.reverse⟩

end Parser

/-- Reads the tokens from a cursor on, and leaves the cursor where it is. -/
def Cursor.parse (c : Cursor) : Outcome := Parser.run c.source c.remaining

/-- Reads the text of a source. -/
def Schema.parse (source : SourceId) (text : String) : Outcome :=
  match Cursor.ofText source text with
  | .ok cursor => cursor.parse
  | .error fault => ⟨.error fault, []⟩

end RecordSchema
