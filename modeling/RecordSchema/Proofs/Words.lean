import RecordSchema.Proofs.Spelling
import RecordSchema.Proofs.Tokens

/-!
# Words of a text

The word of a token is its kind and its text, without its place. `ReadsAs cs ws` says that the
characters `cs` are read as the words `ws` wherever they stand, and that they are normalized. It is
built up from the end of a text: a blank in front changes no words, and what spells a token adds
one if the text behind stops it.

Results:
* `Scan.tokens_proper`: the text of every token of a text spells it.
* `ReadsAs.token`, `ReadsAs.blank`: one token or one blank more.
* `ReadsAs.tokens`: what a whole text is read as.
-/

namespace RecordSchema

open Text Spelling

/-! ## Words -/

namespace Token

/-- The text of the token spells it, unless it is unrecognised. -/
def Proper (t : Token) : Prop := t.kind ≠ .unrecognised → Spells t.kind t.text.toList

/-- The kind and the text of a token. -/
def word (t : Token) : TokenKind × String := (t.kind, t.text)

/-- Braces and commas do not stay in a rendering. -/
def isKept (t : Token) : Bool := t.kind ∉ [.leftCurly, .rightCurly, .comma]

/-- The word a rendering has for the token. Connectives are in lower case and widths without leading
zeros; nothing else changes. -/
def canonical (t : Token) : TokenKind × String :=
  match t.kind with
  | .and => (.and, "and")
  | .or => (.or, "or")
  | .width => (.width, "_" ++ String.ofList (stripZeros (t.text.toList.drop 1)))
  | _ => t.word

end Token

/-- The words of a rendering of some tokens. -/
def words (ts : List Token) : List (TokenKind × String) :=
  (ts.filter Token.isKept).map Token.canonical

@[simp] theorem words_append (us ts : List Token) : words (us ++ ts) = words us ++ words ts := by
  simp [words]

theorem words_cons (t : Token) (ts : List Token) : words (t :: ts) = words [t] ++ words ts :=
  words_append [t] ts

theorem words_kept {t : Token} (h : t.isKept = true) : words [t] = [t.canonical] := by
  simp [words, h]

theorem words_dropped {t : Token} (h : t.isKept = false) : words [t] = [] := by
  simp [words, h]

/-! ## Lexemes -/

theorem gap_of_blank {c : Char} (h : isBlank c = true) (offset : Nat) (rest : List Char) :
    gap offset (c :: rest) = gap (offset + c.utf8Size) rest := by
  cases rest with
  | nil => simp only [gap, h, if_true]
  | cons d rest => rw [gap, if_pos h]

theorem gap_of_begins {c : Char} (h : isBlank c = false ∧ isHyphen c = false) (offset : Nat)
    (rest : List Char) : gap offset (c :: rest) = ⟨[], offset, c :: rest⟩ := by
  cases rest with
  | nil => rw [gap, if_neg (by rw [h.1]; exact Bool.false_ne_true)]
  | cons d rest =>
    rw [gap, if_neg (by rw [h.1]; exact Bool.false_ne_true), h.2, Bool.false_and,
      if_neg Bool.false_ne_true]

namespace Scan

/-- A blank in front of a text is part of the gap before its first lexeme. -/
theorem lexeme_of_blank {c : Char} (h : isBlank c = true) (offset : Nat) (rest : List Char) :
    lexeme ⟨c :: rest, offset⟩ = lexeme ⟨rest, offset + c.utf8Size⟩ := by
  unfold lexeme
  rw [gap_of_blank h]

theorem lexemes_of_blank {c : Char} (h : isBlank c = true) (offset : Nat) (rest : List Char) :
    lexemes ⟨c :: rest, offset⟩ = lexemes ⟨rest, offset + c.utf8Size⟩ := by
  have hlexeme := lexeme_of_blank h offset rest
  by_cases hend : (lexeme ⟨rest, offset + c.utf8Size⟩).1.token.kind = .endOfInput
  · rw [lexemes_of_end hend, lexemes_of_end (hlexeme ▸ hend), hlexeme]
  · rw [lexemes_of_token hend, lexemes_of_token (hlexeme ▸ hend), hlexeme]

/-- What spells a token at the front of a text is its first lexeme. -/
theorem lexeme_of_spells {kind : TokenKind} {cs rest : List Char} (h : Spells kind cs)
    (hleading : leading (cs ++ rest) = (kind, cs.length)) (offset : Nat) :
    lexeme ⟨cs ++ rest, offset⟩ =
      (⟨[], ⟨kind, String.ofList cs, offset⟩⟩, ⟨rest, offset + byteLength cs⟩) := by
  obtain ⟨c, tail, rfl, hbegins⟩ := h.begins
  have hgap := gap_of_begins hbegins offset (tail ++ rest)
  rw [← List.cons_append] at hgap
  simp only [lexeme, hgap, hleading, List.take_left', List.drop_left']

theorem lexeme_proper {s : Scan} (h : s.lexeme.1.token.kind ≠ .endOfInput) :
    s.lexeme.1.token.Proper := by
  intro hknown
  have hspells := spells_of_leading h hknown
  rwa [← String.toList_ofList (l := List.take _ _)] at hspells

/-- What holds of a lexeme wherever it is read, holds of every token. -/
theorem forall_tokens {P : Token → Prop}
    (h : ∀ s : Scan, s.lexeme.1.token.kind ≠ .endOfInput → P s.lexeme.1.token) (s : Scan) :
    ∀ t ∈ s.lexemes.tokens, P t := by
  by_cases hend : s.lexeme.1.token.kind = .endOfInput
  · rw [lexemes_of_end hend, Lexemes.tokens_single]
    exact fun t ht => absurd ht List.not_mem_nil
  · have hshort := lexeme_shorter hend
    rw [lexemes_of_token hend, Lexemes.tokens_cons]
    exact List.forall_mem_cons.mpr ⟨h s hend, forall_tokens h s.lexeme.2⟩
termination_by s.rest.length

/-- **The text of every token spells it**, unless it is unrecognised. -/
theorem tokens_proper : ∀ (s : Scan), ∀ t ∈ s.lexemes.tokens, t.Proper :=
  forall_tokens fun _ => lexeme_proper

/-- A text that begins with a normalized character has no mark in front. -/
theorem ofText_of_plain {cs : List Char} (h : ∀ c ∈ cs.head?, isPlain c = true) :
    ofText cs = ⟨cs, 0⟩ := by
  unfold ofText
  split
  · exact absurd (h '\ufeff' rfl) (by decide)
  · rfl

end Scan

/-! ## What a text is read as -/

/-- The characters are normalized, and are read as tokens with the words. -/
structure ReadsAs (cs : List Char) (ws : List (TokenKind × String)) : Prop where
  plain : ∀ c ∈ cs, isPlain c = true
  words : ∀ offset, (Scan.lexemes ⟨cs, offset⟩).tokens.map Token.word = ws

namespace ReadsAs

variable {cs rest : List Char} {ws : List (TokenKind × String)}

theorem nil : ReadsAs [] [] := by
  refine ⟨fun c hc => absurd hc List.not_mem_nil, fun offset => ?_⟩
  rw [Scan.lexemes_of_end (Scan.lexeme_of_nil rfl), Lexemes.tokens_single, List.map_nil]

/-- A blank in front changes no words. -/
theorem blank {c : Char} (h : ReadsAs rest ws) (hblank : isBlank c = true)
    (hplain : isPlain c = true) : ReadsAs (c :: rest) ws := by
  refine ⟨List.forall_mem_cons.mpr ⟨hplain, h.plain⟩, fun offset => ?_⟩
  rw [Scan.lexemes_of_blank hblank]
  exact h.words _

/-- **What spells a token** adds its word, in front of a text that it is read apart from. -/
theorem token {kind : TokenKind} (h : ReadsAs rest ws) (hspells : Spells kind cs)
    (hleading : leading (cs ++ rest) = (kind, cs.length)) :
    ReadsAs (cs ++ rest) ((kind, String.ofList cs) :: ws) := by
  refine ⟨List.forall_mem_append.mpr ⟨hspells.plain, h.plain⟩, fun offset => ?_⟩
  have hlexeme := Scan.lexeme_of_spells hspells hleading offset
  have hend : (Scan.lexeme ⟨cs ++ rest, offset⟩).1.token.kind ≠ .endOfInput := by
    rw [hlexeme]
    exact hspells.kind_ne
  rw [Scan.lexemes_of_token hend, hlexeme, Lexemes.tokens_cons, List.map_cons, h.words]
  rfl

/-- It has no mark in front. -/
theorem ofText (h : ReadsAs cs ws) : Scan.ofText cs = ⟨cs, 0⟩ :=
  Scan.ofText_of_plain fun c hc => h.plain c (List.mem_of_mem_head? hc)

/-- **What a whole text is read as.** -/
theorem tokens {text : String} (h : ReadsAs text.toList ws) :
    isNormalized text.toList = true ∧ (Text.tokens text).map Token.word = ws := by
  refine ⟨?_, ?_⟩
  · rw [isNormalized, List.all_eq_true.mpr h.plain, Bool.true_or]
  · rw [Text.tokens, h.ofText]
    exact h.words 0

end ReadsAs

end RecordSchema
