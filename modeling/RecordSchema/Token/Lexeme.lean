import RecordSchema.Text.Measure
import RecordSchema.Token.Gap
import RecordSchema.Token.Spelling

/-!
# Lexemes (specification, 4.5)

A lexeme is a token together with the comments of the gap before it. A scan is a place in a text,
and `Scan.lexeme` reads the lexeme there. The lexemes of a text are never none: the last one, and
only that, is the end of input, and `Lexemes` keeps them as the one to look at and those after it.

`lexeme_splits` ties offsets to the text: a lexeme lies behind the bytes of its gap, and the place
behind it behind its own bytes. `lexeme_shorter` says that every lexeme but the end of input takes
a character.
-/

namespace RecordSchema

open Text

/-- A token and the offsets of the comments passed on the way to it. -/
structure Lexeme where
  comments : List Nat
  token : Token
deriving DecidableEq, Repr

/-- A place in a text: what is left to read, and the offset it begins at. -/
structure Scan where
  rest : List Char
  offset : Nat
deriving DecidableEq, Repr

/-- A nonempty list of lexemes. -/
structure Lexemes where
  current : Lexeme
  later : List Lexeme
deriving DecidableEq, Repr

namespace Lexemes

/-- The lexemes as a list. -/
def toList (ls : Lexemes) : List Lexeme := ls.current :: ls.later

/-- Puts a lexeme in front. -/
def cons (l : Lexeme) (ls : Lexemes) : Lexemes := ⟨l, ls.toList⟩

/-- Moves on by one lexeme, and stays on the last. -/
def advance (ls : Lexemes) : Lexemes :=
  match ls.later with
  | [] => ls
  | l :: rest => ⟨l, rest⟩

end Lexemes

namespace Scan

/-- The start of a text. A byte order mark there is passed over, but offsets count its bytes. -/
def ofText (cs : List Char) : Scan :=
  match cs with
  | '\ufeff' :: rest => ⟨rest, '\ufeff'.utf8Size⟩
  | _ => ⟨cs, 0⟩

/-- The lexeme at a place, and the place behind it. -/
def lexeme (s : Scan) : Lexeme × Scan :=
  let g := gap s.offset s.rest
  let (kind, n) := Spelling.leading g.rest
  let text := g.rest.take n
  (⟨g.comments, ⟨kind, String.ofList text, g.stop⟩⟩, ⟨g.rest.drop n, g.stop + byteLength text⟩)

/-- The lexemes from a place on, the end of input last; at most `n` of them come before it. -/
def lexemesWithin : Nat → Scan → Lexemes
  | 0, s => ⟨s.lexeme.1, []⟩
  | n + 1, s =>
    if s.lexeme.1.token.kind = .endOfInput then ⟨s.lexeme.1, []⟩
    else .cons s.lexeme.1 (lexemesWithin n s.lexeme.2)

/-- All lexemes from a place on. Each but the last takes a character. -/
def lexemes (s : Scan) : Lexemes := s.lexemesWithin s.rest.length

/-- The lexemes before the end of input, as a stream. -/
instance : Std.Stream Scan Lexeme where
  next? s := if s.lexeme.1.token.kind = .endOfInput then none else some s.lexeme

/-! ## Progress -/

/-- **What a lexeme takes** is a gap and the text of its token, and offsets count their bytes. -/
theorem lexeme_splits (s : Scan) :
    ∃ skipped text, s.rest = skipped ++ (text ++ s.lexeme.2.rest) ∧
      s.lexeme.1.token.text = String.ofList text ∧
      s.lexeme.1.token.offset = s.offset + byteLength skipped ∧
      s.lexeme.2.offset = s.lexeme.1.token.stop := by
  obtain ⟨skipped, hrest, hstop⟩ := gap_splits s.offset s.rest
  refine ⟨skipped, (gap s.offset s.rest).rest.take (Spelling.leading (gap s.offset s.rest).rest).2,
    ?_, rfl, hstop, ?_⟩
  · exact hrest.trans (congrArg (skipped ++ ·) (List.take_append_drop _ _).symm)
  · simp [lexeme, Token.stop, Token.length, utf8ByteSize_ofList]

/-- **Every lexeme but the end of input takes a character.** -/
theorem lexeme_shorter {s : Scan} (h : s.lexeme.1.token.kind ≠ .endOfInput) :
    s.lexeme.2.rest.length < s.rest.length := by
  obtain ⟨skipped, hrest, -⟩ := gap_splits s.offset s.rest
  have hle : (gap s.offset s.rest).rest.length ≤ s.rest.length := by
    have := congrArg List.length hrest
    rw [List.length_append] at this
    omega
  cases hg : (gap s.offset s.rest).rest with
  | nil => exact absurd (by simp [lexeme, hg, Spelling.leading]) h
  | cons c rest =>
    obtain ⟨hpos, -, -⟩ := Spelling.leading_cons c rest
    rw [hg, List.length_cons] at hle
    simp only [lexeme, hg, List.length_drop, List.length_cons]
    omega

end Scan

end RecordSchema
