import RecordSchema.Proofs.Tokenisation

/-!
# The comments of a text

A lexeme comes with the offsets of the comments in front of its token. Here they are tied to the
characters of the text: `Noted` is a filler with the offsets at which its comments begin, and
`Annotated` is a text made up of fillers and tokens in turn, with the offsets of all its comments.
No function that passes over a comment is mentioned in either.

Results:
* `gap_notes`: a gap notes each comment of what it passes over, where it begins.
* `Text.annotated`: the comments of a text are those that its lexemes come with.
* `Text.places_increasing`: comments and tokens stand at offsets that increase.
-/

namespace RecordSchema

open Text

/-! ## Comments of a gap -/

/-- Blanks and comments from an offset on, in front of a text, with the offsets of the comments. -/
inductive Noted : Nat → List Char → List Char → List Nat → Prop
  | nil {offset : Nat} {rest : List Char} : Noted offset [] rest []
  | blank {offset : Nat} {c : Char} {cs rest : List Char} {os : List Nat} (hc : isBlank c = true)
      (h : Noted (offset + c.utf8Size) cs rest os) : Noted offset (c :: cs) rest os
  | comment {offset : Nat} {c d : Char} {tail cs rest : List Char} {os : List Nat}
      (hc : isHyphen c = true) (hd : isHyphen d = true) (htail : Comment tail (cs ++ rest))
      (h : Noted (offset + byteLength (c :: d :: tail)) cs rest os) :
      Noted offset (c :: d :: (tail ++ cs)) rest (offset :: os)

/-- The comments begin inside the filler, one behind the other. -/
theorem Noted.increasing {offset : Nat} {cs rest : List Char} {os : List Nat}
    (h : Noted offset cs rest os) :
    os.Pairwise (· < ·) ∧ ∀ o ∈ os, offset ≤ o ∧ o < offset + byteLength cs := by
  induction h with
  | nil => exact ⟨.nil, by simp⟩
  | @blank offset c cs rest os hc h ih =>
    refine ⟨ih.1, fun o ho => ?_⟩
    have hbounds := ih.2 o ho
    rw [byteLength_cons]
    omega
  | @comment offset c d tail cs rest os hc hd htail h ih =>
    have hpos := c.utf8Size_pos
    have hbounds : ∀ o ∈ os, offset + byteLength (c :: d :: tail) ≤ o ∧
        o < offset + byteLength (c :: d :: tail) + byteLength cs := ih.2
    simp only [byteLength_cons, byteLength_append] at hbounds ⊢
    refine ⟨List.pairwise_cons.mpr ⟨fun o ho => ?_, ih.1⟩, List.forall_mem_cons.mpr ⟨?_, ?_⟩⟩
    · have := hbounds o ho
      omega
    · omega
    · intro o ho
      have := hbounds o ho
      omega

namespace Gap

/-- The gap passed over a filler of a text that begins at `offset`, and noted its comments. -/
def Notes (g : Gap) (offset : Nat) (cs : List Char) : Prop :=
  ∃ skipped, cs = skipped ++ g.rest ∧ Noted offset skipped g.rest g.comments

/-- The gap passed over the rest of a comment and the filler behind it, and noted the comments
there. -/
def NotesBehind (g : Gap) (offset : Nat) (cs : List Char) : Prop :=
  ∃ tail skipped, cs = tail ++ (skipped ++ g.rest) ∧ Comment tail (skipped ++ g.rest) ∧
    Noted (offset + byteLength tail) skipped g.rest g.comments

variable {g : Gap} {offset : Nat} {c d : Char} {cs : List Char}

theorem Notes.nothing : Notes ⟨[], offset, cs⟩ offset cs := ⟨[], rfl, .nil⟩

theorem Notes.blank (h : g.Notes (offset + c.utf8Size) cs) (hc : isBlank c = true) :
    g.Notes offset (c :: cs) := by
  obtain ⟨skipped, hcs, hnoted⟩ := h
  exact ⟨c :: skipped, by rw [hcs]; rfl, .blank hc hnoted⟩

/-- A pair of hyphens opens a comment, which is noted. -/
theorem NotesBehind.opened (h : g.NotesBehind (offset + c.utf8Size + d.utf8Size) cs)
    (hc : isHyphen c = true) (hd : isHyphen d = true) :
    Notes { g with comments := offset :: g.comments } offset (c :: d :: cs) := by
  obtain ⟨tail, skipped, hcs, htail, hnoted⟩ := h
  refine ⟨c :: d :: (tail ++ skipped), by simp [hcs], .comment hc hd htail ?_⟩
  rw [byteLength_cons, byteLength_cons]
  simpa [Nat.add_assoc] using hnoted

/-- A filler behind a pair of hyphens, which closes a comment. -/
theorem Notes.closed (h : g.Notes (offset + c.utf8Size + d.utf8Size) cs)
    (hc : isHyphen c = true) (hd : isHyphen d = true) : g.NotesBehind offset (c :: d :: cs) := by
  obtain ⟨skipped, hcs, hnoted⟩ := h
  refine ⟨[c, d], skipped, by rw [hcs]; rfl, ?_, ?_⟩
  · exact .pair [] (by simp) (List.isChain_singleton c) hc hd
  · simpa [byteLength_cons, Nat.add_assoc] using hnoted

/-- A filler that a comment ends in front of. -/
theorem Notes.ended (h : g.Notes offset cs) (hend : ∀ c ∈ cs.head?, isLineEnd c = true) :
    g.NotesBehind offset cs := by
  obtain ⟨skipped, hcs, hnoted⟩ := h
  exact ⟨[], skipped, hcs, .line [] (by simp) List.isChain_nil (hcs ▸ hend), hnoted⟩

theorem NotesBehind.cons (h : g.NotesBehind (offset + c.utf8Size) cs) (hline : isLineEnd c = false)
    (hfirst : ∀ d ∈ cs.head?, (isHyphen c && isHyphen d) = false) :
    g.NotesBehind offset (c :: cs) := by
  obtain ⟨tail, skipped, hcs, htail, hnoted⟩ := h
  refine ⟨c :: tail, skipped, by rw [hcs]; rfl, htail.cons hline fun d hd => hfirst d ?_, ?_⟩
  · rw [hcs, List.head?_append, Option.mem_def.mp hd]
    rfl
  · rwa [byteLength_cons, ← Nat.add_assoc]

end Gap

mutual

/-- **A gap notes the comments** of what it passes over. -/
theorem gap_notes (offset : Nat) : ∀ cs, (gap offset cs).Notes offset cs
  | [] => .nothing
  | [c] => by
    unfold gap
    split
    · rename_i hc
      exact .blank .nothing hc
    · exact .nothing
  | c :: d :: rest => by
    unfold gap
    split
    · rename_i hc
      exact (gap_notes _ _).blank hc
    · split
      · rename_i hpair
        obtain ⟨hc, hd⟩ := Bool.and_eq_true_iff.mp hpair
        exact (comment_notes _ rest).opened hc hd
      · exact .nothing

/-- The same of a comment that is open. -/
theorem comment_notes (offset : Nat) : ∀ cs, (comment offset cs).NotesBehind offset cs
  | [] => Gap.Notes.ended .nothing (by simp)
  | [c] => by
    unfold comment
    by_cases hline : isLineEnd c = true
    · exact Gap.Notes.ended (.blank .nothing (isBlank_of_isLineEnd hline)) (by simpa using hline)
    · exact Gap.NotesBehind.cons (Gap.Notes.ended .nothing (by simp)) (eq_false_of_ne_true hline)
        (by simp)
  | c :: d :: rest => by
    unfold comment
    split
    · rename_i hline
      exact Gap.Notes.ended ((gap_notes _ _).blank (isBlank_of_isLineEnd hline))
        (by simpa using hline)
    · rename_i hline
      split
      · rename_i hpair
        obtain ⟨hc, hd⟩ := Bool.and_eq_true_iff.mp hpair
        exact (gap_notes _ rest).closed hc hd
      · rename_i hpair
        exact (comment_notes _ _).cons (eq_false_of_ne_true hline) (by simpa using hpair)

end

/-! ## Comments of a text -/

/-- The offsets of the comments that lexemes come with. -/
def Lexemes.comments (ls : Lexemes) : List Nat := ls.toList.flatMap (·.comments)

/-- The offsets of comments and tokens in the order of the text. -/
def Lexemes.places (ls : Lexemes) : List Nat :=
  ls.toList.flatMap fun l => l.comments ++ [l.token.offset]

/-- The offsets of the comments of a text. -/
def Text.comments (text : String) : List Nat := (Scan.ofText text.toList).lexemes.comments

/-- The characters, which begin at the offset, are made up of the tokens with a filler in front of
each, and the comments of the fillers begin at the offsets that are listed. -/
inductive Annotated : Nat → List Char → List Token → List Nat → Prop
  | last {offset : Nat} {gap : List Char} {os : List Nat} (hgap : Noted offset gap [] os) :
      Annotated offset gap [⟨.endOfInput, "", offset + byteLength gap⟩] os
  | token {offset : Nat} {gap behind : List Char} {t : Token} {ts : List Token}
      {os later : List Nat} (hgap : Noted offset gap (t.text.toList ++ behind) os)
      (hkind : t.kind ≠ .endOfInput) (hoffset : t.offset = offset + byteLength gap)
      (htext : t.text ≠ "") (hbegins : ¬ OpensGap (t.text.toList ++ behind))
      (hbehind : Annotated t.stop behind ts later) :
      Annotated offset (gap ++ (t.text.toList ++ behind)) (t :: ts) (os ++ later)

/-- The comments of the text begin at the offsets: those of the fillers between its tokens, but for
one byte order mark in front. -/
def Text.HasComments (text : String) (os : List Nat) : Prop := ∃ mark cs,
  text.toList = mark ++ cs ∧ (mark = ['\ufeff'] ∨ mark = [] ∧ cs.head? ≠ some '\ufeff') ∧
    Annotated (byteLength mark) cs (stream text) os

namespace Lexemes

@[simp] theorem comments_single (l : Lexeme) : comments ⟨l, []⟩ = l.comments :=
  List.append_nil l.comments

@[simp] theorem comments_cons (l : Lexeme) (ls : Lexemes) :
    (cons l ls).comments = l.comments ++ ls.comments := rfl

@[simp] theorem places_single (l : Lexeme) :
    places ⟨l, []⟩ = l.comments ++ [l.token.offset] :=
  List.append_nil (l.comments ++ [l.token.offset])

@[simp] theorem places_cons (l : Lexeme) (ls : Lexemes) :
    (cons l ls).places = l.comments ++ [l.token.offset] ++ ls.places := rfl

end Lexemes

namespace Scan

/-- A lexeme notes the comments of the filler in front of its token. -/
theorem lexeme_noted (s : Scan) : ∃ skipped,
    s.rest = skipped ++ (s.lexeme.1.token.text.toList ++ s.lexeme.2.rest) ∧
      Noted s.offset skipped (s.lexeme.1.token.text.toList ++ s.lexeme.2.rest)
        s.lexeme.1.comments ∧
      s.lexeme.1.token.offset = s.offset + byteLength skipped ∧
      ¬ OpensGap (s.lexeme.1.token.text.toList ++ s.lexeme.2.rest) := by
  obtain ⟨skipped, hrest, hnoted⟩ := gap_notes s.offset s.rest
  obtain ⟨skipped', hrest', hstop, -, hbegins⟩ := gap_fills s.offset s.rest
  obtain rfl := List.append_cancel_right (hrest.symm.trans hrest')
  rw [rest_of_gap] at hrest hnoted hbegins
  exact ⟨skipped, hrest, hnoted, hstop, hbegins⟩

/-- **The comments of a place** are those of the text from there on. -/
theorem annotated (s : Scan) : Annotated s.offset s.rest s.lexemes.stream s.lexemes.comments := by
  obtain ⟨skipped, hrest, hnoted, hoffset, hbegins⟩ := s.lexeme_noted
  by_cases hend : s.lexeme.1.token.kind = .endOfInput
  · have hnil := rest_of_gap s
    rw [rest_of_end hend] at hnil
    have htoken : s.lexeme.1.token = ⟨.endOfInput, "", s.offset + byteLength skipped⟩ := by
      rw [← hend, ← (lexeme_end hend).1, ← hoffset]
    rw [← hnil] at hrest hnoted
    rw [lexemes_of_end hend, Lexemes.stream_single, Lexemes.comments_single, htoken, hrest,
      List.append_nil]
    exact .last hnoted
  · obtain ⟨-, -, -, -, -, hnext⟩ := lexeme_splits s
    have hshort := lexeme_shorter hend
    have hpos := lexeme_pos hend
    have hlater := annotated s.lexeme.2
    rw [hnext] at hlater
    rw [lexemes_of_token hend, Lexemes.stream_cons, Lexemes.comments_cons, hrest]
    refine .token hnoted hend hoffset (fun hempty => ?_) hbegins hlater
    rw [Token.stop, Token.length, hempty] at hpos
    exact absurd hpos (Nat.lt_irrefl _)
termination_by s.rest.length

/-- **Comments and tokens stand at offsets that increase**, from that of the place on. -/
theorem places_increasing (s : Scan) :
    s.lexemes.places.Pairwise (· < ·) ∧ ∀ o ∈ s.lexemes.places, s.offset ≤ o := by
  obtain ⟨skipped, -, hnoted, hoffset, -⟩ := s.lexeme_noted
  obtain ⟨hcomments, hbounds⟩ := hnoted.increasing
  rw [← hoffset] at hbounds
  have hlexeme : (s.lexeme.1.comments ++ [s.lexeme.1.token.offset]).Pairwise (· < ·) :=
    List.pairwise_append.mpr ⟨hcomments, List.pairwise_singleton _ _, by simpa using
      fun o ho => (hbounds o ho).2⟩
  have hinside : ∀ o ∈ s.lexeme.1.comments ++ [s.lexeme.1.token.offset],
      s.offset ≤ o ∧ o ≤ s.lexeme.1.token.offset := by
    intro o ho
    rcases List.mem_append.mp ho with ho | ho
    · exact ⟨(hbounds o ho).1, (hbounds o ho).2.le⟩
    · rw [List.mem_singleton.mp ho]
      omega
  by_cases hend : s.lexeme.1.token.kind = .endOfInput
  · rw [lexemes_of_end hend, Lexemes.places_single]
    exact ⟨hlexeme, fun o ho => (hinside o ho).1⟩
  · obtain ⟨-, -, -, -, -, hnext⟩ := lexeme_splits s
    have hshort := lexeme_shorter hend
    have hpos := lexeme_pos hend
    obtain ⟨hlater, hbehind⟩ := places_increasing s.lexeme.2
    rw [hnext] at hbehind
    rw [lexemes_of_token hend, Lexemes.places_cons]
    refine ⟨List.pairwise_append.mpr ⟨hlexeme, hlater, fun o ho u hu => ?_⟩, fun o ho => ?_⟩
    · have := (hinside o ho).2
      have := hbehind u hu
      omega
    · rcases List.mem_append.mp ho with ho | ho
      · exact (hinside o ho).1
      · have := hbehind o ho
        omega
termination_by s.rest.length

end Scan

namespace Text

/-- **The comments of a text** are those of the fillers between its tokens. -/
theorem annotated (text : String) : HasComments text (comments text) := by
  obtain ⟨mark, htext, hmark, hoffset⟩ := Scan.ofText_mark text.toList
  have hannotated := Scan.annotated (Scan.ofText text.toList)
  rw [hoffset] at hannotated
  exact ⟨mark, _, htext, hmark, hannotated⟩

/-- **Comments and tokens of a text** stand at offsets that increase. -/
theorem places_increasing (text : String) :
    (Scan.ofText text.toList).lexemes.places.Pairwise (· < ·) :=
  (Scan.places_increasing _).1

end Text

end RecordSchema
