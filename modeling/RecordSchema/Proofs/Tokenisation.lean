import RecordSchema.Proofs.Faults
import RecordSchema.Proofs.Gaps

/-!
# Tokenisation loses nothing

A text is gaps and tokens in turn. `Tiled` says so about the characters from an offset on: a filler
stands in front of every token, the token stands behind it with its own text, and behind the last
filler stands the end of input. Counting characters or bytes makes no difference to a token, except
to one that is a single character, and so both ends of every token lie between characters.

Results:
* `Cursor.walk_eq`: walking on hands out the tokens in order, and then the end of input for ever.
* `Scan.tiled`: the stream of a place in a text tiles the rest of it.
* `Cursor.ofText_partition`: the tokens a cursor hands out partition its text.
-/

namespace RecordSchema

open Text

/-! ## Walking -/

namespace Cursor

/-- The tokens that the next `n` moves hand out. -/
def walk : Nat → Cursor → List Token
  | 0, _ => []
  | n + 1, c => c.next.1 :: walk n c.next.2

/-- A move hands out the current token and goes on to the next lexeme. -/
theorem next_eq (c : Cursor) :
    c.next.1 = c.remaining.current.token ∧ c.next.2.remaining = c.remaining.advance := by
  obtain ⟨source, held, scan⟩ := c
  cases held with
  | cons l held => exact ⟨rfl, rfl⟩
  | nil =>
    by_cases hend : scan.lexeme.1.token.kind = .endOfInput
    · simp [next, Lookahead.next, Std.Stream.next?, hend, remaining, tokenOr,
        Scan.lexemes_of_end hend, Lexemes.advance]
    · simp [next, Lookahead.next, Std.Stream.next?, hend, remaining, tokenOr,
        Scan.lexemes_of_token hend, Lexemes.advance, Lexemes.cons, Lexemes.toList]

/-- On the last lexeme a walk stays. -/
theorem walk_of_last {l : Lexeme} (n : Nat) {c : Cursor} (h : c.remaining = ⟨l, []⟩) :
    c.walk n = List.replicate n l.token := by
  obtain ⟨htoken, hnext⟩ := c.next_eq
  rw [h] at htoken hnext
  cases n with
  | zero => rfl
  | succ n => rw [walk, walk_of_last n hnext, htoken, List.replicate_succ]

/-- **A walk hands out the tokens in order**, and then the last one again and again. -/
theorem walk_eq (n : Nat) {c : Cursor} {ls : Lexemes} (h : c.remaining = ls) :
    c.walk (ls.tokens.length + (n + 1)) = ls.tokens ++ List.replicate (n + 1) ls.last := by
  obtain ⟨current, later⟩ := ls
  induction later generalizing c current with
  | nil =>
    rw [Lexemes.tokens_single, List.length_nil, Nat.zero_add, walk_of_last _ h]
    rfl
  | cons l later ih =>
    obtain ⟨htoken, hnext⟩ := c.next_eq
    rw [h] at htoken hnext
    rw [Lexemes.tokens_pair, Lexemes.last_pair, List.length_cons, Nat.add_right_comm, walk,
      ih l hnext, htoken, List.cons_append]

end Cursor

/-! ## Characters and bytes -/

namespace Text

/-- Characters that take one byte each are as many as their bytes. -/
theorem byteLength_of_single {cs : List Char} (h : ∀ c ∈ cs, c.utf8Size = 1) :
    byteLength cs = cs.length := by
  induction cs with
  | nil => rfl
  | cons c cs ih =>
    obtain ⟨hc, hcs⟩ := List.forall_mem_cons.mp h
    rw [byteLength_cons, hc, ih hcs, List.length_cons, Nat.add_comm]

end Text

namespace Spelling

theorem utf8Size_of_isAlphanum {c : Char} (h : c.isAlphanum = true) : c.utf8Size = 1 := by
  have hle : c.toNat ≤ 127 := by
    rcases (Bool.or_eq_true _ _).mp h with h | h
    · have := toNat_of_isAlpha h
      omega
    · have := toNat_of_isDigit h
      omega
  exact Char.utf8Size_eq_one_iff.mpr hle

/-- Every mark is made of characters of one byte. -/
theorem marks_single : ∀ mark ∈ marks, mark.1.all (fun c => c.utf8Size == 1) = true := by
  decide

theorem single_of_mem_marks {kind : TokenKind} {cs : List Char} (h : (cs, kind) ∈ marks) :
    ∀ c ∈ cs, c.utf8Size = 1 :=
  fun c hc => beq_iff_eq.mp (List.all_eq_true.mp (marks_single _ h) c hc)

/-- What spells a token is made of characters of one byte. -/
theorem Spells.single {kind : TokenKind} {cs : List Char} (h : Spells kind cs) :
    ∀ c ∈ cs, c.utf8Size = 1 := by
  cases h with
  | mark h => exact single_of_mem_marks h
  | name hc ht =>
    refine List.forall_mem_cons.mpr ⟨utf8Size_of_isAlphanum (isAlphanum_of_isAlpha hc), ?_⟩
    intro c hmem
    rcases mem_of_nameTail ht c hmem with hc | rfl
    · exact utf8Size_of_isAlphanum hc
    · decide
  | number hc hr _ =>
    exact List.forall_mem_cons.mpr ⟨utf8Size_of_isAlphanum (isAlphanum_of_isDigit hc),
      fun c hmem => utf8Size_of_isAlphanum (isAlphanum_of_isDigit (hr c hmem))⟩
  | width _ hd =>
    exact List.forall_mem_cons.mpr ⟨by decide,
      fun c hmem => utf8Size_of_isAlphanum (isAlphanum_of_isDigit (hd c hmem))⟩

/-- What begins a text is a single character, or made of characters of one byte. -/
theorem single_of_leading (cs : List Char) :
    (leading cs).2 = 1 ∨ ∀ c ∈ cs.take (leading cs).2, c.utf8Size = 1 := by
  cases cs with
  | nil => exact .inr (by simp)
  | cons c rest =>
    have hdigits : c.utf8Size = 1 → ∀ d ∈ (c :: rest).take (digitRun rest + 1), d.utf8Size = 1 := by
      intro hc
      rw [List.take_succ_cons]
      exact List.forall_mem_cons.mpr ⟨hc, fun d hd =>
        utf8Size_of_isAlphanum (isAlphanum_of_isDigit (take_digitRun rest d hd))⟩
    cases hmark : markAt? (c :: rest) with
    | some token =>
      obtain ⟨mark, hfind, rfl⟩ := Option.map_eq_some_iff.mp hmark
      have hprefix : mark.1.isPrefixOf (c :: rest) = true := by simpa using List.find?_some hfind
      have htake := List.prefix_iff_eq_take.mp (List.isPrefixOf_iff_prefix.mp hprefix)
      simp only [leading, hmark, ← htake]
      exact .inr (single_of_mem_marks (List.mem_of_find?_eq_some hfind))
    | none =>
      simp only [leading, hmark]
      split
      · rename_i hc
        exact .inr (Spells.name hc (nameTail_take rest)).single
      · split
        · rename_i hdigit
          exact .inr (hdigits (utf8Size_of_isAlphanum (isAlphanum_of_isDigit hdigit)))
        · split
          · rename_i hunder
            exact .inr (hdigits (by rw [beq_iff_eq.mp hunder]; decide))
          · exact .inl rfl

end Spelling

/-- The characters of the token are as many as its bytes, or there is one. -/
def Token.Counted (t : Token) : Prop :=
  t.text.length = 1 ∨ t.length = t.text.length

/-! ## Gaps and tokens in turn -/

/-- The characters, which begin at the offset, are made up of the tokens with a filler in front of
each. The last token is the end of input, behind all of them. -/
inductive Tiled : Nat → List Char → List Token → Prop
  | last {offset : Nat} {gap : List Char} (hgap : Filler gap []) :
      Tiled offset gap [⟨.endOfInput, "", offset + byteLength gap⟩]
  | token {offset : Nat} {gap behind : List Char} {t : Token} {ts : List Token}
      (hgap : Filler gap (t.text.toList ++ behind)) (hkind : t.kind ≠ .endOfInput)
      (hoffset : t.offset = offset + byteLength gap) (htext : t.text ≠ "")
      (hbegins : ¬ OpensGap (t.text.toList ++ behind)) (hbehind : Tiled t.stop behind ts) :
      Tiled offset (gap ++ (t.text.toList ++ behind)) (t :: ts)

namespace Scan

/-- **A token has as many characters as bytes**, or is a single character. -/
theorem lexeme_counted (s : Scan) : s.lexeme.1.token.Counted := by
  have htext : s.lexeme.1.token.text.toList = (gap s.offset s.rest).rest.take
      (Spelling.leading (gap s.offset s.rest).rest).2 := by
    simp [lexeme]
  unfold Token.Counted Token.length
  rw [← String.length_toList, ← byteLength_toList, htext]
  rcases Spelling.single_of_leading (gap s.offset s.rest).rest with hone | hsingle
  · left
    cases hrest : (gap s.offset s.rest).rest with
    | nil =>
      rw [hrest] at hone
      exact absurd hone Nat.zero_ne_one
    | cons c rest =>
      rw [hrest] at hone
      rw [hone, List.take_succ_cons, List.take_zero, List.length_singleton]
  · exact .inr (byteLength_of_single hsingle)

/-- **The stream of a place tiles the text from there on.** -/
theorem tiled (s : Scan) : Tiled s.offset s.rest s.lexemes.stream := by
  obtain ⟨skipped, hrest, hstop, hfiller, hbegins⟩ := gap_fills s.offset s.rest
  by_cases hend : s.lexeme.1.token.kind = .endOfInput
  · obtain ⟨htext, hoffset⟩ := lexeme_end hend
    rw [rest_of_end hend] at hrest hfiller
    rw [List.append_nil] at hrest
    have htoken : s.lexeme.1.token = ⟨.endOfInput, "", s.offset + byteLength skipped⟩ := by
      rw [← hrest, ← hend, ← htext, ← hoffset]
    rw [lexemes_of_end hend, Lexemes.stream_single, htoken, hrest]
    exact .last hfiller
  · obtain ⟨-, -, -, -, -, hnext⟩ := lexeme_splits s
    have hshort := lexeme_shorter hend
    have hpos := lexeme_pos hend
    have hlater := tiled s.lexeme.2
    rw [hnext] at hlater
    rw [rest_of_gap] at hrest hfiller hbegins
    rw [lexemes_of_token hend, Lexemes.stream_cons, hrest]
    refine .token hfiller hend hstop (fun hempty => ?_) hbegins hlater
    rw [Token.stop, Token.length, hempty] at hpos
    exact absurd hpos (Nat.lt_irrefl _)
termination_by s.rest.length

/-- Every token takes a character, so there are no more of them. -/
theorem length_tokens_le (s : Scan) : s.lexemes.tokens.length ≤ s.rest.length := by
  by_cases hend : s.lexeme.1.token.kind = .endOfInput
  · rw [lexemes_of_end hend]
    exact Nat.zero_le _
  · have hshort := lexeme_shorter hend
    have ih := length_tokens_le s.lexeme.2
    rw [lexemes_of_token hend, Lexemes.tokens_cons, List.length_cons]
    omega
termination_by s.rest.length

end Scan

/-! ## Whole texts -/

/-- The token behind all others of a text. -/
def Text.endToken (text : String) : Token := ⟨.endOfInput, "", text.utf8ByteSize⟩

/-- The tokens and the end of input behind them partition the text: but for one byte order mark in
front, it is made of them and of the fillers between them, and it can be cut at both ends of every
token, whether its end is counted in characters or in bytes. -/
structure Text.Partition (text : String) (ts : List Token) : Prop where
  tiled : ∃ mark cs, text.toList = mark ++ cs ∧
    (mark = ['\ufeff'] ∨ mark = [] ∧ cs.head? ≠ some '\ufeff') ∧
    Tiled (byteLength mark) cs (ts ++ [endToken text])
  placed : Placed text (ts ++ [endToken text])
  inner : ∀ t ∈ ts, t.kind ≠ .endOfInput ∧ t.text ≠ "" ∧ t.offset < t.stop
  counted : ∀ t ∈ ts, t.Counted
  sliced : ∀ t ∈ ts ++ [endToken text], t.span.ValidIn text ∧
    Span.ValidIn ⟨t.offset, text.utf8ByteSize⟩ text
  length_le : ts.length ≤ text.length

/-- A part of a text goes on to the end of the text. -/
theorem Span.Covers.suffix {span : Span} {text part : String} (h : span.Covers text part) :
    Span.ValidIn ⟨span.start, text.utf8ByteSize⟩ text := by
  obtain ⟨before, after, htext, hstart, -⟩ := h
  refine ⟨part ++ String.ofList after, before, [], ?_, hstart, ?_⟩
  · rw [htext, String.toList_append, String.toList_ofList, List.append_nil]
  · have hlength := congrArg byteLength htext
    rw [byteLength_toList, byteLength_append] at hlength
    rw [hlength, String.toList_append, String.toList_ofList]

theorem Text.stream_eq (text : String) : stream text = tokens text ++ [endToken text] := by
  have hclosed := Scan.lexemes_closed (Scan.ofText text.toList)
  have hmem : (Scan.ofText text.toList).lexemes.last ∈ stream text := by
    rw [stream, Lexemes.stream_eq]
    exact List.mem_concat_self
  obtain ⟨hempty, hoffset⟩ := (stream_placed text).atEnd _ hmem hclosed.last
  rw [stream, Lexemes.stream_eq]
  congr 2
  rw [endToken, ← hclosed.last, ← hempty, ← hoffset]

/-- The place behind a byte order mark, and the mark in front of it. -/
theorem Scan.ofText_mark (cs : List Char) : ∃ mark, cs = mark ++ (ofText cs).rest ∧
    (mark = ['\ufeff'] ∨ mark = [] ∧ (ofText cs).rest.head? ≠ some '\ufeff') ∧
    (ofText cs).offset = byteLength mark := by
  unfold ofText
  split
  · exact ⟨['\ufeff'], rfl, .inl rfl, rfl⟩
  · rename_i hmark
    refine ⟨[], rfl, .inr ⟨rfl, fun hhead => ?_⟩, rfl⟩
    obtain ⟨rest, rfl⟩ := List.head?_eq_some_iff.mp hhead
    exact hmark rest rfl

/-- **The tokens of a text partition it.** -/
theorem Text.partition (text : String) : Partition text (tokens text) := by
  have hplaced := stream_placed text
  obtain ⟨mark, htext, hmark, hoffset⟩ := Scan.ofText_mark text.toList
  have htiled := Scan.tiled (Scan.ofText text.toList)
  have hlength := Scan.length_tokens_le (Scan.ofText text.toList)
  have hinner : ∀ t ∈ tokens text, t.kind ≠ .endOfInput :=
    (Scan.lexemes_closed (Scan.ofText text.toList)).inner
  have hcounted : ∀ t ∈ tokens text, t.Counted :=
    Scan.forall_tokens (fun s _ => s.lexeme_counted) (Scan.ofText text.toList)
  rw [hoffset, ← stream, stream_eq] at htiled
  rw [stream_eq] at hplaced
  refine ⟨⟨mark, _, htext, hmark, htiled⟩, hplaced, fun t ht => ?_, hcounted, fun t ht => ?_, ?_⟩
  · have hpos := (hplaced.proper t (List.mem_append_left _ ht) (hinner t ht)).2
    refine ⟨hinner t ht, fun hempty => ?_, hpos⟩
    rw [Token.stop, Token.length, hempty] at hpos
    exact absurd hpos (Nat.lt_irrefl _)
  · have hcovers := hplaced.covers t ht
    exact ⟨⟨_, hcovers⟩, hcovers.suffix⟩
  · have hchars := congrArg List.length htext
    rw [String.length_toList, List.length_append] at hchars
    exact hlength.trans (by omega)

/-- **Tokenisation loses nothing.** A cursor on a normalized text hands out the tokens of the text
in order and then the end of input for ever, and those tokens partition the text. -/
theorem Cursor.ofText_partition {source : SourceId} {text : String} {c : Cursor}
    (h : Cursor.ofText source text = .ok c) :
    (∀ n, c.walk ((Text.tokens text).length + (n + 1)) =
      Text.tokens text ++ List.replicate (n + 1) (Text.endToken text)) ∧
      Text.Partition text (Text.tokens text) := by
  refine ⟨fun n => ?_, Text.partition text⟩
  have hremaining : c.remaining = (Scan.ofText text.toList).lexemes := by
    unfold Cursor.ofText at h
    split at h
    · obtain rfl := Except.ok.inj h
      rfl
    · cases h
  have hlast : (Scan.ofText text.toList).lexemes.last = Text.endToken text := by
    have hstream := Text.stream_eq text
    rw [Text.stream, Lexemes.stream_eq] at hstream
    exact List.singleton_inj.mp (List.append_cancel_left hstream)
  rw [Text.tokens, ← hlast]
  exact c.walk_eq n hremaining

/-- Odd runs of hyphens, hyphens that do not break, and characters of two and three bytes. -/
theorem Cursor.ofText_partition_hyphens :
    ∃ text c, text = "\ufeffa--é---\u2011b\né ::=007--x" ∧ Cursor.ofText ⟨0⟩ text = .ok c ∧
      c.walk 6 = [⟨.identifier, "a", 3⟩, ⟨.unrecognised, "é", 16⟩, ⟨.assignment, "::=", 19⟩,
        ⟨.unrecognised, "007", 22⟩, Text.endToken text, Text.endToken text] ∧
      Text.Partition text (Text.tokens text) := by
  have h : Cursor.ofText ⟨0⟩ "\ufeffa--é---\u2011b\né ::=007--x" =
      .ok ⟨⟨0⟩, .ofStream (.ofText "\ufeffa--é---\u2011b\né ::=007--x".toList)⟩ :=
    if_pos (by decide +kernel)
  obtain ⟨hwalk, hpartition⟩ := Cursor.ofText_partition h
  have htokens : Text.tokens "\ufeffa--é---\u2011b\né ::=007--x" =
      [⟨.identifier, "a", 3⟩, ⟨.unrecognised, "é", 16⟩, ⟨.assignment, "::=", 19⟩,
        ⟨.unrecognised, "007", 22⟩] := by
    decide +kernel
  have hsix := hwalk 1
  rw [htokens] at hsix
  exact ⟨_, _, rfl, h, hsix, hpartition⟩

end RecordSchema
