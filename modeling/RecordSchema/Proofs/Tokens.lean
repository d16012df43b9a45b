import Mathlib.Data.List.Basic
import RecordSchema.Parser.Rules

/-!
# The tokens of a text

The lexemes of a text end with the end of input and hold it nowhere else, which is `Closed`. What
comes before it are the tokens of the text, `Text.tokens`.

Results:
* `Scan.lexemes_closed`: the lexemes of a place in a text are closed.
* `Scan.lexemes_of_token`: scanning needs no bound. A lexeme that is not the end of input is
  followed by the lexemes of the place behind it.
* `Schema.parse_of_normalized`: a text in normalization form C is read from its lexemes.
-/

namespace RecordSchema

namespace Lexemes

/-- The tokens before the last one. -/
def tokens (ls : Lexemes) : List Token := (ls.toList.map (·.token)).dropLast

/-- The last token. -/
def last (ls : Lexemes) : Token := (ls.later.getLast?.getD ls.current).token

/-- The last token is the end of input, and no other one is. -/
structure Closed (ls : Lexemes) : Prop where
  last : ls.last.kind = .endOfInput
  inner : ∀ t ∈ ls.tokens, t.kind ≠ .endOfInput

@[simp] theorem tokens_single (l : Lexeme) : tokens ⟨l, []⟩ = [] := rfl

@[simp] theorem tokens_pair (l m : Lexeme) (rest : List Lexeme) :
    tokens ⟨l, m :: rest⟩ = l.token :: tokens ⟨m, rest⟩ := rfl

@[simp] theorem last_pair (l m : Lexeme) (rest : List Lexeme) :
    last ⟨l, m :: rest⟩ = last ⟨m, rest⟩ := by
  simp [last, List.getLast?_cons]

@[simp] theorem tokens_cons (l : Lexeme) (ls : Lexemes) :
    (cons l ls).tokens = l.token :: ls.tokens := rfl

@[simp] theorem last_cons (l : Lexeme) (ls : Lexemes) : (cons l ls).last = ls.last :=
  last_pair l ls.current ls.later

/-- As many tokens as there are lexemes behind the current one. -/
theorem length_tokens (ls : Lexemes) : ls.tokens.length = ls.later.length := by
  simp [tokens, toList]

theorem closed_single {l : Lexeme} (h : l.token.kind = .endOfInput) : Closed ⟨l, []⟩ :=
  ⟨h, fun _ ht => absurd ht List.not_mem_nil⟩

theorem Closed.cons {l : Lexeme} {ls : Lexemes} (h : ls.Closed)
    (hl : l.token.kind ≠ .endOfInput) : (cons l ls).Closed := by
  refine ⟨by rw [last_cons]; exact h.last, fun t ht => ?_⟩
  rw [tokens_cons] at ht
  rcases List.mem_cons.mp ht with rfl | ht
  · exact hl
  · exact h.inner t ht

/-- Closed lexemes on a token that is not the end of input can move on. -/
theorem Closed.advance {ls : Lexemes} (h : ls.Closed)
    (hc : ls.current.token.kind ≠ .endOfInput) :
    ls.tokens = ls.current.token :: ls.advance.tokens ∧ ls.advance.Closed ∧
      ls.advance.last = ls.last := by
  obtain ⟨current, later⟩ := ls
  cases later with
  | nil => exact absurd h.last hc
  | cons l rest =>
    refine ⟨tokens_pair current l rest, ⟨?_, fun t ht => ?_⟩, (last_pair current l rest).symm⟩
    · exact (last_pair current l rest).symm ▸ h.last
    · exact h.inner t (by rw [tokens_pair]; exact List.mem_cons_of_mem _ ht)

/-- Closed lexemes are on the end of input exactly if no tokens are left. -/
theorem Closed.current_iff {ls : Lexemes} (h : ls.Closed) :
    ls.current.token.kind = .endOfInput ↔ ls.tokens = [] := by
  constructor
  · intro hc
    obtain ⟨current, later⟩ := ls
    cases later with
    | nil => rfl
    | cons l rest => exact absurd hc (h.inner _ (by simp))
  · intro ht
    by_contra hc
    rw [(h.advance hc).1] at ht
    exact absurd ht (by simp)

end Lexemes

/-! ## Scanning without a bound -/

namespace Scan

/-- What is left at the end of input is no text. -/
theorem lexeme_of_nil {s : Scan} (h : s.rest = []) : s.lexeme.1.token.kind = .endOfInput := by
  obtain ⟨rest, offset⟩ := s
  subst h
  rfl

/-- The bound on the number of lexemes does not matter once it is large enough. -/
theorem lexemesWithin_eq : ∀ (n m : Nat) (s : Scan), s.rest.length ≤ n → s.rest.length ≤ m →
    s.lexemesWithin n = s.lexemesWithin m
  | 0, m, s, hn, _ => by
    have hend := lexeme_of_nil (List.length_eq_zero_iff.mp (Nat.le_zero.mp hn))
    cases m with
    | zero => rfl
    | succ m => simp [lexemesWithin, hend]
  | n + 1, 0, s, _, hm => by
    have hend := lexeme_of_nil (List.length_eq_zero_iff.mp (Nat.le_zero.mp hm))
    simp [lexemesWithin, hend]
  | n + 1, m + 1, s, hn, hm => by
    by_cases hend : s.lexeme.1.token.kind = .endOfInput
    · simp [lexemesWithin, hend]
    · have hshort := lexeme_shorter hend
      simp only [lexemesWithin, if_neg hend]
      rw [lexemesWithin_eq n m s.lexeme.2 (by omega) (by omega)]

/-- The end of input is the only lexeme there. -/
theorem lexemes_of_end {s : Scan} (h : s.lexeme.1.token.kind = .endOfInput) :
    s.lexemes = ⟨s.lexeme.1, []⟩ := by
  unfold lexemes
  cases s.rest.length with
  | zero => rfl
  | succ n => rw [lexemesWithin, if_pos h]

/-- A lexeme that is not the end of input comes before those of the place behind it. -/
theorem lexemes_of_token {s : Scan} (h : s.lexeme.1.token.kind ≠ .endOfInput) :
    s.lexemes = .cons s.lexeme.1 s.lexeme.2.lexemes := by
  have hshort := lexeme_shorter h
  unfold lexemes
  cases hn : s.rest.length with
  | zero => omega
  | succ n =>
    rw [lexemesWithin, if_neg h, lexemesWithin_eq n _ s.lexeme.2 (by omega) (Nat.le_refl _)]

theorem lexemesWithin_closed : ∀ (n : Nat) (s : Scan), s.rest.length ≤ n →
    (s.lexemesWithin n).Closed
  | 0, _, hn =>
    Lexemes.closed_single (lexeme_of_nil (List.length_eq_zero_iff.mp (Nat.le_zero.mp hn)))
  | n + 1, s, hn => by
    unfold lexemesWithin
    split
    · rename_i hend
      exact Lexemes.closed_single hend
    · rename_i hend
      have hshort := lexeme_shorter hend
      exact (lexemesWithin_closed n s.lexeme.2 (by omega)).cons hend

/-- **The lexemes of a place end with the end of input**, and only there. -/
theorem lexemes_closed (s : Scan) : s.lexemes.Closed := lexemesWithin_closed _ s (Nat.le_refl _)

end Scan

/-! ## Texts -/

/-- The tokens of a text. -/
def Text.tokens (text : String) : List Token := (Scan.ofText text.toList).lexemes.tokens

/-- A normalized text is read from its lexemes. -/
theorem Schema.parse_of_normalized {source : SourceId} {text : String}
    (h : Text.isNormalized text.toList = true) :
    Schema.parse source text = Parser.run source (Scan.ofText text.toList).lexemes := by
  unfold Schema.parse Cursor.ofText
  rw [if_pos h]
  rfl

/-- A text that is not normalized is not read at all. -/
theorem Schema.parse_of_not_normalized {source : SourceId} {text : String}
    (h : Text.isNormalized text.toList = false) :
    Schema.parse source text = ⟨.error ⟨source, .notNormalized⟩, []⟩ := by
  unfold Schema.parse Cursor.ofText
  rw [if_neg (by rw [h]; exact Bool.false_ne_true)]

end RecordSchema
