import RecordSchema.Grammar
import RecordSchema.SourceId

/-!
# Faults (specification, 7)

A text that is no schema has one fault: the first that reading it meets. A fault is a cause and the
number of the text; the cause knows its message and the span of text it is about.
-/

namespace RecordSchema

/-- A range of byte offsets; an empty one marks a single place. -/
structure Span where
  start : Nat
  stop : Nat
deriving DecidableEq, Repr

/-- Why a text is no schema. -/
inductive Cause where
  /-- The token `got` stands where only the expected kinds may. -/
  | unexpectedToken (expected : List TokenKind) (got : TokenKind) (offset length : Nat)
  /-- A number that does not fit, or a width that does not fit or is zero. -/
  | invalidNumber (text : String) (offset : Nat)
  /-- A declaration has a wrong number of parameters for its kind. -/
  | parameterCount (name : String) (expected got : Nat) (offset : Nat)
  /-- A name is declared again; the first declaration of it is at `first`. -/
  | nameInUse (name : String) (offset first : Nat)
  /-- A type is used that is neither built in nor declared before. -/
  | undeclaredType (name : String) (offset : Nat)
  /-- A type is given a wrong number of values. -/
  | valueCount (name : String) (expected got : Nat) (offset : Nat)
  /-- A choice has no default branch. -/
  | missingDefault (name : String) (offset : Nat)
  /-- A choice has a second default branch; the first is at `first`. -/
  | duplicateDefault (name : String) (offset first : Nat)
  /-- A value or operand is neither a parameter nor a field before it. -/
  | undeclaredName (name : String) (offset : Nat)
  /-- Rules are nested beyond the limit. -/
  | nestedTooDeep (offset : Nat)
  /-- A rule gave the node of another one. -/
  | unexpectedNode (rule : Rule) (offset : Nat)
  /-- The text is not in normalization form C. -/
  | notNormalized
deriving DecidableEq, Repr

/-- A cause in a text. -/
structure Fault where
  source : SourceId
  cause : Cause
deriving DecidableEq, Repr

/-- Lists alternatives the way a sentence does. -/
def alternatives : List String → String
  | [] => "nothing"
  | [item] => item
  | [item, last] => item ++ " or " ++ last
  | item :: rest => item ++ ", " ++ alternatives rest

namespace Cause

/-- The kinds expected and the kind found. -/
def expectation (expected : List TokenKind) (got : TokenKind) : String :=
  let kinds := alternatives (expected.map (·.description))
  s!"expected {kinds}, found {got.description}"

/-- What is wrong with a choice that lacks a default branch. -/
def missingDefaultText : String := "choice has no DEFAULT branch"

/-- What is wrong with a choice that has two default branches. -/
def duplicateDefaultText : String := "choice has more than one DEFAULT branch"

/-- The message of a cause in one line. -/
def message : Cause → String
  | unexpectedToken expected got _ _ => expectation expected got
  | invalidNumber text _ => s!"invalid number `{text}`"
  | parameterCount name expected got _ =>
    s!"`{name}` must declare exactly {expected} parameter, found {got}"
  | nameInUse name _ _ => s!"name `{name}` is already in use"
  | undeclaredType name _ => s!"type `{name}` has not been declared"
  | valueCount name expected got _ => s!"type `{name}` expects {expected} argument(s), found {got}"
  | missingDefault name _ => s!"{missingDefaultText} in `{name}`"
  | duplicateDefault name _ _ => s!"{duplicateDefaultText} in `{name}`"
  | undeclaredName name _ => s!"name `{name}` has not been declared"
  | nestedTooDeep _ => "expression nesting is too deep"
  | unexpectedNode rule _ => s!"internal error: rule {rule.label} produced an unexpected node"
  | notNormalized => "source text is not in unicode normalization form C"

/-- The span of a text that begins at an offset. -/
def spanOf (text : String) (offset : Nat) : Span := ⟨offset, offset + text.utf8ByteSize⟩

/-- The span of text that a cause is about. Its end is the sum of an offset and a length, which
`Fault.IsAddressable` compares with the last offset there is. -/
def span : Cause → Span
  | unexpectedToken _ _ offset length => ⟨offset, offset + length⟩
  | invalidNumber text offset => spanOf text offset
  | parameterCount name _ _ offset
  | nameInUse name offset _
  | undeclaredType name offset
  | valueCount name _ _ offset
  | missingDefault name offset
  | duplicateDefault name offset _
  | undeclaredName name offset => spanOf name offset
  | nestedTooDeep offset
  | unexpectedNode _ offset => ⟨offset, offset⟩
  | notNormalized => ⟨0, 0⟩

end Cause

namespace Fault

/-- The message of the cause. -/
def message (f : Fault) : String := f.cause.message

/-- The span of text that the fault is about. -/
def span (f : Fault) : Span := f.cause.span

end Fault

end RecordSchema
