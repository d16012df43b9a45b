import RecordSchema.Fault

/-!
# Diagnostics (specification, 7)

A diagnostic presents a problem to the user: a code, a severity, a name, and labels that each say
something, about a span of a source, about a source as a whole, or about nothing in particular.
Every fault has a diagnostic, whose first label is about the span of the fault.
-/

namespace RecordSchema

/-- How bad a problem is. -/
inductive Severity where
  | error
  | warning
  | note
deriving DecidableEq, Repr

/-- The word for a severity. -/
def Severity.label : Severity → String
  | error => "Error"
  | warning => "Warning"
  | note => "Note"

/-- A message about a place, or about none. -/
structure Label where
  source : Option SourceId
  location : Option Span
  message : String
deriving DecidableEq, Repr

namespace Label

/-- A label about no place. -/
def general (message : String) : Label := ⟨none, none, message⟩

/-- A label about a span of a source. -/
def located (source : SourceId) (location : Span) (message : String) : Label :=
  ⟨some source, some location, message⟩

end Label

/-- A problem as shown to the user. -/
structure Diagnostic where
  severity : Severity
  code : String
  name : String
  labels : List Label
deriving DecidableEq, Repr

/-- Blanks behind a text until it has a number of characters; a longer text stays. -/
def padTo (width : Nat) (text : String) : String :=
  text ++ String.ofList (List.replicate (width - text.length) ' ')

namespace Diagnostic

/-- The line of a label that has a source. -/
def sourceLine? (severity : Severity) (l : Label) : Option String :=
  l.source.map fun source =>
    let place := match l.location with
      | none => ""
      | some span => s!"@{span.start}..{span.stop}"
    s!"\n\t{severity.label} [{source.label}{place}]: {l.message}"

/-- The line of a label that has none. -/
def plainLine? (severity : Severity) (l : Label) : Option String :=
  match l.source with
  | none => some s!"\n\t{severity.label}: {l.message}"
  | some _ => none

/-- The diagnostic as text: a header, the labels with a source, and then those without. -/
def text (d : Diagnostic) : String :=
  let header := s!"{d.severity.label} {padTo 4 d.code}: {d.name}"
  header ++ String.join (d.labels.filterMap (sourceLine? d.severity)) ++
    String.join (d.labels.filterMap (plainLine? d.severity))

end Diagnostic

/-- The diagnostic of a fault. -/
def Fault.diagnostic (f : Fault) : Diagnostic :=
  let here := Label.located f.source f.span
  let error := Diagnostic.mk .error
  match f.cause with
  | .unexpectedToken expected got _ _ =>
    error "0001" "Syntax error" [here (Cause.expectation expected got)]
  | .invalidNumber text _ =>
    error "0002" "Invalid number" [
      here s!"`{text}` is not a valid number here",
      .general "bit widths must be greater than zero and numbers must fit in 64 bits"]
  | .parameterCount name expected got _ =>
    error "0003" "Wrong number of declared parameters" [
      here s!"`{name}` declares {got} parameters, expected {expected}"]
  | .nameInUse name _ first =>
    error "0004" s!"Name `{name}` is already in use" [
      here "declared again here",
      .located f.source (Cause.spanOf name first) "first declared here"]
  | .undeclaredType name _ =>
    error "0005" "Undeclared type" [
      here s!"type `{name}` is not declared before this point",
      .general "a type can only be used after it has been declared"]
  | .valueCount name expected got _ =>
    error "0006" "Wrong number of values" [
      here s!"`{name}` takes {expected} values, but {got} were given"]
  | .missingDefault name _ =>
    error "0007" s!"Invalid declaration of `{name}`" [
      here Cause.missingDefaultText,
      .general "add a branch with the condition `DEFAULT`"]
  | .duplicateDefault name _ first =>
    error "0007" s!"Invalid declaration of `{name}`" [
      here Cause.duplicateDefaultText,
      .located f.source ⟨first, first⟩ "first DEFAULT branch here"]
  | .undeclaredName name _ =>
    error "0008" "Undeclared name" [
      here s!"`{name}` is not a parameter or an earlier field of this declaration"]
  | .nestedTooDeep _ =>
    error "0009" "Nesting too deep" [here "expression nested too deeply"]
  | .unexpectedNode rule _ =>
    error "0010" "Internal parser error" [
      here s!"rule {rule.label} produced an unexpected node"]
  | .notNormalized =>
    error "0011" "Source text is not normalized" [
      here "source text must be in unicode normalization form C"]

end RecordSchema
