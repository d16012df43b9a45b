import RecordSchema.Diagnostic

/-!
# Reports (specification, 4.8 and 7)

A report shows a diagnostic next to the text it is about. The labels that have a source and a span
in it are drawn there; the messages of all others are joined to one note below. A diagnostic
without a label to draw has no report, and neither has one with a label that cannot be drawn since
its span ends before it begins. Offsets are words of 64 bits, so a fault whose span would end beyond
the last of them has no report either: its labels cannot be made.

Out of scope: how a report is drawn, with the lines of text, the arrows and the colours.
-/

namespace RecordSchema

/-- The span ends at its start or behind it. -/
def Span.IsForward (span : Span) : Prop := span.start ≤ span.stop

instance : DecidablePred Span.IsForward := fun _ => inferInstanceAs (Decidable (_ ≤ _))

/-- Offsets are less than this. -/
def offsetLimit : Nat := Nat.pow 2 64

/-- A label to draw: a span of a source and the message at it. -/
structure Mark where
  source : SourceId
  location : Span
  message : String
deriving DecidableEq, Repr

/-- The place of a label, if it has both a source and a span. -/
def Label.mark? (l : Label) : Option Mark :=
  match l.source, l.location with
  | some source, some location => some ⟨source, location, l.message⟩
  | _, _ => none

/-- A diagnostic laid out for its text. The place is where the first label is drawn. -/
structure Report where
  kind : String
  code : String
  message : String
  place : SourceId × Nat
  marks : List Mark
  note : Option String
deriving DecidableEq, Repr

/-- Why a diagnostic has no report. -/
inductive ReportFailure where
  /-- No label has both a source and a span. -/
  | noLocation
  /-- A label to draw has a span that ends before it begins. -/
  | backwards
  /-- A label is about a span whose end is no offset. -/
  | overflow
deriving DecidableEq, Repr

/-- The message of a failure. -/
def ReportFailure.message : ReportFailure → String
  | noLocation => "Unable to get source location from diagnostic"
  | backwards => "Label start is after its end"
  | overflow => "attempt to add with overflow"

namespace Report

/-- The kind of report for a severity. -/
def kindOf : Severity → String
  | .error => "Error"
  | .warning => "Warning"
  | .note => "Advice"

/-- The messages of the labels that are not drawn, a line each. -/
def noteOf (labels : List Label) : Option String :=
  match labels.filter (·.mark?.isNone) with
  | [] => none
  | rest => some ("\n".intercalate (rest.map (·.message)))

/-- The report of a diagnostic. Codes are shown with two characters at least. -/
def ofDiagnostic (d : Diagnostic) : Except ReportFailure Report :=
  match d.labels.filterMap (·.mark?) with
  | [] => .error .noLocation
  | mark :: rest =>
    if ∀ m ∈ mark :: rest, m.location.IsForward then .ok {
      kind := kindOf d.severity
      code := padTo 2 d.code
      message := d.name
      place := (mark.source, mark.location.start)
      marks := mark :: rest
      note := noteOf d.labels }
    else .error .backwards

/-- The line above a report. -/
def header (r : Report) : String := s!"[{r.code}] {r.kind}: {r.message}"

end Report

namespace Fault

/-- The spans that the labels of the fault are about end at offsets. -/
def IsAddressable (f : Fault) : Prop :=
  ∀ l ∈ f.diagnostic.labels, ∀ span ∈ l.location, span.stop < offsetLimit

instance : DecidablePred IsAddressable :=
  fun f => inferInstanceAs (Decidable (∀ l ∈ f.diagnostic.labels, ∀ _ ∈ l.location, _))

/-- The report of a fault. -/
def report (f : Fault) : Except ReportFailure Report :=
  if f.IsAddressable then Report.ofDiagnostic f.diagnostic else .error .overflow

end Fault

end RecordSchema
