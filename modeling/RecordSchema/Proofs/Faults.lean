import RecordSchema.Diagnostic
import RecordSchema.Proofs.Refusal

/-!
# Faults point at their text

What the cause of a fault says about offsets and names is read off tokens, and tokens are pieces of
their text. So the span of a fault covers what it is about, wherever in the text that stands, and
the labels of its diagnostic can be shown in the text.

Results:
* `Cause.Located.pointsInto`: a located cause points into the text of the tokens.
* `Schema.pointsInto_of_fault`: the cause of the fault of a text does.
* `Schema.parse_fault_points`: the fault of any text points into it, and so do its labels.
-/

namespace RecordSchema

/-! ## Spans -/

/-- The span has both its ends between characters of the text. -/
def Span.ValidIn (span : Span) (text : String) : Prop := ∃ part, span.Covers text part

namespace Span.ValidIn

variable {span : Span} {text : String}

theorem start_le_stop (h : span.ValidIn text) : span.start ≤ span.stop := by
  obtain ⟨part, h⟩ := h
  exact h.start_le_stop

theorem stop_le (h : span.ValidIn text) : span.stop ≤ text.utf8ByteSize := by
  obtain ⟨part, h⟩ := h
  exact h.stop_le

end Span.ValidIn

/-- The empty span in front of a text. -/
theorem Span.covers_start (text : String) : Span.Covers ⟨0, 0⟩ text "" :=
  ⟨[], text.toList, rfl, rfl, rfl⟩

/-! ## Causes -/

/-- The span of a cause covers what the cause is about: a token of the kind found, the name that is
wrong, or an empty piece. A name in use ends where it was first declared in front of the span, and
the first default branch of a choice begins behind the name of the choice. -/
def Cause.PointsInto (text : String) (c : Cause) : Prop :=
  match c with
  | unexpectedToken _ got _ _ => ∃ t ∈ Text.stream text, t.kind = got ∧ c.span = t.span ∧
      c.span.Covers text t.text ∧ (got = .endOfInput → t.text = "" ∧
        c.span = ⟨text.utf8ByteSize, text.utf8ByteSize⟩)
  | invalidNumber number _ => ∃ t ∈ Text.stream text, (t.kind = .number ∨ t.kind = .width) ∧
      t.text = number ∧ c.span = t.span ∧ c.span.Covers text number
  | nameInUse name offset first => c.span.Covers text name ∧
      (spanOf name first).Covers text name ∧ (spanOf name first).stop ≤ offset
  | duplicateDefault name offset first => c.span.Covers text name ∧
      ∃ t u, [t, u].Sublist (Text.stream text) ∧ t.text = name ∧ t.offset = offset ∧
        u.offset = first
  | parameterCount name _ _ _
  | undeclaredType name _
  | valueCount name _ _ _
  | missingDefault name _
  | undeclaredName name _ => c.span.Covers text name
  | nestedTooDeep offset => c.span = ⟨offset, offset⟩ ∧ c.span.Covers text "" ∧
      ∃ t ∈ Text.stream text, t.kind ≠ .endOfInput ∧ t.offset = offset
  | unexpectedNode _ _ => False
  | notNormalized => c.span = ⟨0, 0⟩

namespace Cause

variable {text : String} {c : Cause}

/-- The span of a token is that of its text at its offset. -/
theorem span_token (t : Token) : spanOf t.text t.offset = t.span := rfl

/-- A token for a built-in type is its keyword. -/
theorem text_of_word {t : Token} {b : Builtin} (hp : t.Proper) (h : t.kind = b.word) :
    t.text = b.keyword := by
  have hword : (b.keyword, t.kind) ∈ keywords := by rw [h]; cases b <;> decide
  have hknown : t.kind ≠ .unrecognised := by rw [h]; cases b <;> decide
  have hconnective : t.kind ∉ [.and, .or] := by rw [h]; cases b <;> decide
  exact String.toList_inj.mp ((hp hknown).keyword_eq hword hconnective)

/-- **A located cause points into the text** of the tokens. -/
theorem Located.pointsInto (h : Located (Text.stream text) c) : c.PointsInto text := by
  have hplaced := Text.stream_placed text
  cases h with
  | @unexpected kinds t ht =>
    refine ⟨t, ht, rfl, rfl, hplaced.covers t ht, fun hend => ?_⟩
    obtain ⟨hempty, hoffset⟩ := hplaced.atEnd t ht hend
    refine ⟨hempty, ?_⟩
    simp [span, Token.length, hempty, hoffset]
  | @number t ht hkind => exact ⟨t, ht, hkind, rfl, rfl, hplaced.covers t ht⟩
  | @nested t ht hkind => exact ⟨rfl, (hplaced.covers t ht).empty, t, ht, hkind, rfl⟩
  | undeclaredName ht => exact hplaced.covers _ ht
  | undeclaredType ht => exact hplaced.covers _ ht
  | valueCount ht => exact hplaced.covers _ ht
  | @builtinCount k b _ _ hk hkind =>
    have hword : k.kind ≠ .endOfInput := by rw [hkind]; cases b <;> decide
    have hcovers := hplaced.covers k hk
    rw [← span_token, text_of_word (hplaced.proper k hk hword).1 hkind] at hcovers
    exact hcovers
  | parameterCount ht => exact hplaced.covers _ ht
  | missingDefault ht => exact hplaced.covers _ ht
  | @nameInUse u t hpair _ htext =>
    have hordered := List.pairwise_pair.mp (hplaced.ordered.sublist hpair)
    have hu := hplaced.covers u (hpair.subset List.mem_cons_self)
    have ht := hplaced.covers t (hpair.subset (List.mem_cons_of_mem _ List.mem_cons_self))
    rw [← span_token, htext] at hu
    refine ⟨ht, hu, ?_⟩
    rw [← htext]
    exact hordered
  | @duplicateDefault t u hpair =>
    exact ⟨hplaced.covers t (hpair.subset List.mem_cons_self), t, u, hpair, rfl, rfl, rfl⟩

/-- A cause that points into a text has a span there. -/
theorem PointsInto.valid (h : c.PointsInto text) : c.span.ValidIn text := by
  cases c with
  | unexpectedToken _ _ _ _ =>
    obtain ⟨t, -, -, -, hcovers, -⟩ := h
    exact ⟨_, hcovers⟩
  | invalidNumber _ _ =>
    obtain ⟨t, -, -, -, -, hcovers⟩ := h
    exact ⟨_, hcovers⟩
  | nameInUse _ _ _ => exact ⟨_, h.1⟩
  | duplicateDefault _ _ _ => exact ⟨_, h.1⟩
  | nestedTooDeep _ => exact ⟨_, h.2.1⟩
  | unexpectedNode _ _ => exact absurd h id
  | notNormalized => exact ⟨"", Span.covers_start text⟩
  | _ => exact ⟨_, h⟩

end Cause

/-! ## Labels -/

/-- A label with a location is about a valid span of the source. -/
def Label.ValidIn (l : Label) (source : SourceId) (text : String) : Prop :=
  ∀ span ∈ l.location, l.source = some source ∧ span.ValidIn text

theorem Label.validIn_general {source : SourceId} {text message : String} :
    (general message).ValidIn source text :=
  fun _ h => absurd h (by simp [general])

theorem Label.validIn_located {source : SourceId} {text message : String} {span : Span}
    (h : span.ValidIn text) : (located source span message).ValidIn source text := by
  intro span' hspan
  obtain rfl : span = span' := by simpa [located] using hspan
  exact ⟨rfl, h⟩

/-- **The labels of a fault** that points into a text are valid there. -/
theorem Fault.labels_valid {f : Fault} {text : String} (h : f.cause.PointsInto text) :
    ∀ l ∈ f.diagnostic.labels, l.ValidIn f.source text := by
  obtain ⟨source, cause⟩ := f
  have hspan : Span.ValidIn (Fault.span ⟨source, cause⟩) text := h.valid
  cases cause with
  | nameInUse name offset first =>
    have hfirst : (Cause.spanOf name first).ValidIn text := ⟨name, h.2.1⟩
    simpa [Fault.diagnostic] using ⟨Label.validIn_located hspan, Label.validIn_located hfirst⟩
  | duplicateDefault name offset first =>
    have hfirst : Span.ValidIn ⟨first, first⟩ text := by
      obtain ⟨-, t, u, hpair, -, -, rfl⟩ := h
      have hu : u ∈ Text.stream text :=
        hpair.subset (List.mem_cons_of_mem _ List.mem_cons_self)
      exact ⟨"", ((Text.stream_placed text).covers u hu).empty⟩
    simpa [Fault.diagnostic] using ⟨Label.validIn_located hspan, Label.validIn_located hfirst⟩
  | _ =>
    simp [Fault.diagnostic, Label.validIn_located hspan, Label.validIn_general]

/-! ## Texts that are refused -/

/-- The fault of a text is of the source that is read, and its cause points into the text. -/
theorem Schema.pointsInto_of_fault {source : SourceId} {text : String} {f : Fault}
    (h : (Schema.parse source text).result = .error f) :
    f.source = source ∧ f.cause.PointsInto text := by
  cases hnormal : Text.isNormalized text.toList with
  | false =>
    rw [Schema.parse_of_not_normalized hnormal] at h
    obtain rfl := Except.error.inj h
    exact ⟨rfl, rfl⟩
  | true =>
    rw [Schema.parse_of_normalized hnormal] at h
    obtain ⟨hsource, hlocated⟩ := Parser.located_of_run (Scan.lexemes_closed _) h
    exact ⟨hsource, hlocated.pointsInto⟩

/-- **The fault of a text points into it.** It is of the source that is read; its span lies between
two characters of the text and covers what the fault is about; and all labels of its diagnostic that
have a location are valid in that source. The text may be any, normalized or not, and begin with a
byte order mark or not. -/
theorem Schema.parse_fault_points {source : SourceId} {text : String} {f : Fault}
    (h : (Schema.parse source text).result = .error f) :
    f.source = source ∧ f.span.start ≤ f.span.stop ∧ f.span.stop ≤ text.utf8ByteSize ∧
      f.span.ValidIn text ∧ f.cause.PointsInto text ∧
      ∀ l ∈ f.diagnostic.labels, l.ValidIn source text := by
  obtain ⟨hsource, hpoints⟩ := Schema.pointsInto_of_fault h
  have hvalid : f.span.ValidIn text := hpoints.valid
  refine ⟨hsource, hvalid.start_le_stop, hvalid.stop_le, hvalid, hpoints, ?_⟩
  rw [← hsource]
  exact Fault.labels_valid hpoints

/-- A built-in type with values, behind a byte order mark and a comment with an accent. -/
theorem Schema.parse_fault_points_builtin :
    ∃ text f, text = "\ufeff--é\na ::= SEQUENCE \x7b b UINT[1] \x7d" ∧
      f = ⟨⟨3⟩, .valueCount "UINT" 0 1 27⟩ ∧ (Schema.parse ⟨3⟩ text).result = .error f ∧
      f.source = ⟨3⟩ ∧ f.span.stop ≤ text.utf8ByteSize ∧ f.span.ValidIn text ∧
      f.cause.PointsInto text ∧ ∀ l ∈ f.diagnostic.labels, l.ValidIn ⟨3⟩ text := by
  have h : (Schema.parse ⟨3⟩ "\ufeff--é\na ::= SEQUENCE \x7b b UINT[1] \x7d").result =
      .error ⟨⟨3⟩, .valueCount "UINT" 0 1 27⟩ := by
    decide +kernel
  obtain ⟨hsource, -, hstop, hvalid, hpoints, hlabels⟩ := Schema.parse_fault_points h
  exact ⟨_, _, rfl, rfl, h, hsource, hstop, hvalid, hpoints, hlabels⟩

end RecordSchema
