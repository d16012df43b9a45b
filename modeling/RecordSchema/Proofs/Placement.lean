import Mathlib.Data.List.Basic
import RecordSchema.Fault
import RecordSchema.Proofs.Words

/-!
# Where tokens stand

A token is a piece of its text: the bytes from its offset on are those of its text, and tokens
stand in their order without overlapping. `Span.Covers` says what part of a text a span is, which
includes that both its ends lie between characters. The stream of a text is its tokens and the end
of input behind them, which stands behind the last character.

Results:
* `Scan.stream_placed`: the stream of any place in a text is placed there.
* `Text.stream_placed`: so is that of the whole text, whether or not a byte order mark is passed.
* `Placed.increasing`: every token has an offset of its own, in order.
-/

namespace RecordSchema

open Text

/-! ## Parts of a text -/

theorem Text.byteLength_toList (text : String) : byteLength text.toList = text.utf8ByteSize := by
  rw [← utf8ByteSize_ofList, String.ofList_toList]

/-- The span of a text is a part of it, between two characters at either end. -/
def Span.Covers (span : Span) (text part : String) : Prop :=
  ∃ before after, text.toList = before ++ (part.toList ++ after) ∧
    span.start = byteLength before ∧ span.stop = byteLength before + byteLength part.toList

namespace Span.Covers

variable {span : Span} {text part : String}

theorem start_le_stop (h : span.Covers text part) : span.start ≤ span.stop := by
  obtain ⟨before, after, -, hstart, hstop⟩ := h
  omega

theorem stop_le (h : span.Covers text part) : span.stop ≤ text.utf8ByteSize := by
  obtain ⟨before, after, htext, -, hstop⟩ := h
  have hlength := congrArg byteLength htext
  rw [byteLength_toList, byteLength_append, byteLength_append] at hlength
  omega

/-- The empty span in front of a part. -/
theorem empty (h : span.Covers text part) : Span.Covers ⟨span.start, span.start⟩ text "" := by
  obtain ⟨before, after, htext, hstart, -⟩ := h
  exact ⟨before, part.toList ++ after, htext, hstart, hstart⟩

end Span.Covers

/-- The span that a token takes. -/
def Token.span (t : Token) : Span := ⟨t.offset, t.stop⟩

theorem Token.stop_eq (t : Token) : t.stop = t.offset + byteLength t.text.toList := by
  rw [stop, length, byteLength_toList]

/-! ## Streams -/

namespace Lexemes

/-- The tokens up to the end of input, and that as well. -/
def stream (ls : Lexemes) : List Token := ls.toList.map (·.token)

@[simp] theorem stream_single (l : Lexeme) : stream ⟨l, []⟩ = [l.token] := rfl

@[simp] theorem stream_cons (l : Lexeme) (ls : Lexemes) :
    (cons l ls).stream = l.token :: ls.stream := rfl

theorem stream_eq (ls : Lexemes) : ls.stream = ls.tokens ++ [ls.last] := by
  obtain ⟨current, later⟩ := ls
  induction later generalizing current with
  | nil => rfl
  | cons l rest ih =>
    rw [tokens_pair, last_pair, List.cons_append, ← ih l]
    rfl

end Lexemes

/-- Tokens that stand in a text one behind the other. Only the end of input is empty, and it stands
at the end of the text. -/
structure Placed (text : String) (ts : List Token) : Prop where
  covers : ∀ t ∈ ts, t.span.Covers text t.text
  ordered : ts.Pairwise fun t u => t.stop ≤ u.offset
  proper : ∀ t ∈ ts, t.kind ≠ .endOfInput → t.Proper ∧ t.offset < t.stop
  atEnd : ∀ t ∈ ts, t.kind = .endOfInput → t.text = "" ∧ t.offset = text.utf8ByteSize

/-! ## Lexemes -/

namespace Scan

/-- A scan has come to the end of some characters of a text. -/
def Behind (s : Scan) (text : String) (passed : List Char) : Prop :=
  text.toList = passed ++ s.rest ∧ s.offset = byteLength passed

theorem ofText_behind (text : String) : ∃ passed, (ofText text.toList).Behind text passed := by
  unfold ofText
  split
  · rename_i rest htext
    exact ⟨['\ufeff'], htext, rfl⟩
  · exact ⟨[], rfl, rfl⟩

/-- A lexeme stands behind what was passed, and the place behind it behind its token. -/
theorem Behind.lexeme {s : Scan} {text : String} {passed : List Char} (h : s.Behind text passed) :
    s.lexeme.1.token.span.Covers text s.lexeme.1.token.text ∧
      s.offset ≤ s.lexeme.1.token.offset ∧ s.lexeme.2.offset = s.lexeme.1.token.stop ∧
      ∃ passed', s.lexeme.2.Behind text passed' := by
  obtain ⟨skipped, cs, hrest, hcs, hoffset, hstop⟩ := lexeme_splits s
  obtain ⟨htext, hpassed⟩ := h
  have hcover : s.lexeme.1.token.text.toList = cs := by rw [hcs, String.toList_ofList]
  have hstart : s.lexeme.1.token.offset = byteLength (passed ++ skipped) := by
    rw [hoffset, hpassed, byteLength_append]
  have hend := Token.stop_eq s.lexeme.1.token
  rw [hcover] at hend
  refine ⟨⟨passed ++ skipped, s.lexeme.2.rest, ?_, hstart, ?_⟩, by omega, hstop,
    passed ++ skipped ++ cs, ?_, ?_⟩
  · rw [htext, hrest, hcover, List.append_assoc]
  · rw [← hstart, hcover]
    exact hend
  · rw [htext, hrest, List.append_assoc, List.append_assoc]
  · rw [hstop, hend, hstart, ← byteLength_append]

/-- The end of input is read where nothing is left behind the gap. -/
theorem lexeme_end {s : Scan} (h : s.lexeme.1.token.kind = .endOfInput) :
    s.lexeme.1.token.text = "" ∧
      s.lexeme.1.token.offset = s.offset + byteLength s.rest := by
  obtain ⟨skipped, hrest, hstop⟩ := gap_splits s.offset s.rest
  cases hg : (gap s.offset s.rest).rest with
  | nil =>
    rw [hg, List.append_nil] at hrest
    refine ⟨by simp [Scan.lexeme, hg], ?_⟩
    show (gap s.offset s.rest).stop = _
    rw [hstop, hrest]
  | cons c rest =>
    have hkind := (Spelling.leading_cons c rest).2.2
    simp only [Scan.lexeme, hg] at h
    exact absurd h hkind

/-- Any other lexeme has a text. -/
theorem lexeme_pos {s : Scan} (h : s.lexeme.1.token.kind ≠ .endOfInput) :
    s.lexeme.1.token.offset < s.lexeme.1.token.stop := by
  rw [Token.stop_eq]
  cases hg : (gap s.offset s.rest).rest with
  | nil => exact absurd (by simp [Scan.lexeme, hg, Spelling.leading]) h
  | cons c rest =>
    obtain ⟨n, hn⟩ := Nat.exists_eq_succ_of_ne_zero
      (Nat.ne_of_gt (Spelling.leading_cons c rest).1)
    have htext : s.lexeme.1.token.text.toList = c :: rest.take n := by
      simp only [Scan.lexeme, hg, hn, List.take_succ_cons, String.toList_ofList]
    have hpos := c.utf8Size_pos
    rw [htext, byteLength_cons]
    omega

/-- **The stream of a place in a text** stands in the text behind that place. -/
theorem stream_placed (s : Scan) {text : String} {passed : List Char} (h : s.Behind text passed) :
    Placed text s.lexemes.stream ∧ ∀ t ∈ s.lexemes.stream, s.offset ≤ t.offset := by
  obtain ⟨hcovers, hle, hnext, passed', hbehind⟩ := h.lexeme
  by_cases hend : s.lexeme.1.token.kind = .endOfInput
  · obtain ⟨htext, hoffset⟩ := lexeme_end hend
    have hsize : s.offset + byteLength s.rest = text.utf8ByteSize := by
      rw [h.2, ← byteLength_append, ← h.1, byteLength_toList]
    rw [lexemes_of_end hend, Lexemes.stream_single]
    simp only [List.forall_mem_singleton]
    refine ⟨⟨?_, List.pairwise_singleton _ _, ?_, ?_⟩, hle⟩
    · exact List.forall_mem_singleton.mpr hcovers
    · exact List.forall_mem_singleton.mpr fun hne => absurd hend hne
    · exact List.forall_mem_singleton.mpr fun _ => ⟨htext, hoffset.trans hsize⟩
  · have hshort := lexeme_shorter hend
    have hpos := lexeme_pos hend
    obtain ⟨hplaced, hlater⟩ := stream_placed s.lexeme.2 hbehind
    rw [hnext] at hlater
    rw [lexemes_of_token hend, Lexemes.stream_cons]
    refine ⟨⟨List.forall_mem_cons.mpr ⟨hcovers, hplaced.covers⟩,
      List.pairwise_cons.mpr ⟨hlater, hplaced.ordered⟩, ?_, ?_⟩, ?_⟩
    · exact List.forall_mem_cons.mpr ⟨fun _ => ⟨lexeme_proper hend, hpos⟩, hplaced.proper⟩
    · exact List.forall_mem_cons.mpr ⟨fun he => absurd he hend, hplaced.atEnd⟩
    · refine List.forall_mem_cons.mpr ⟨hle, fun t ht => ?_⟩
      have hafter := hlater t ht
      omega
termination_by s.rest.length

end Scan

/-! ## Texts -/

/-- The tokens of a text, and the end of input behind them. -/
def Text.stream (text : String) : List Token := (Scan.ofText text.toList).lexemes.stream

/-- **The tokens of a text are parts of it**, in their order. -/
theorem Text.stream_placed (text : String) : Placed text (Text.stream text) := by
  obtain ⟨passed, hbehind⟩ := Scan.ofText_behind text
  exact (Scan.stream_placed _ hbehind).1

/-- Every token has an offset of its own: the one before has the lower one. -/
theorem Placed.increasing {text : String} {ts : List Token} {last : Token}
    (h : Placed text (ts ++ [last])) (hinner : ∀ t ∈ ts, t.kind ≠ .endOfInput) :
    (ts ++ [last]).Pairwise fun t u => t.offset < u.offset := by
  obtain ⟨hts, -, hlast⟩ := List.pairwise_append.mp h.ordered
  have hpos : ∀ t ∈ ts, t.offset < t.stop := fun t ht =>
    (h.proper t (List.mem_append_left _ ht) (hinner t ht)).2
  refine List.pairwise_append.mpr ⟨?_, List.pairwise_singleton _ _, fun t ht u hu => ?_⟩
  · exact hts.imp_of_mem fun ht _ hle => Nat.lt_of_lt_of_le (hpos _ ht) hle
  · exact Nat.lt_of_lt_of_le (hpos t ht) (hlast t ht u hu)

end RecordSchema
