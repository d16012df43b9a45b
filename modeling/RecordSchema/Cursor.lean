import RecordSchema.Fault
import RecordSchema.Lookahead
import RecordSchema.Text.Normalization
import RecordSchema.Token.Lexeme

/-!
# Cursors (specification, 4.5)

A cursor walks over the tokens of one text. It scans no further than it was asked to: looking at a
token reads that token and holds it, and moving on hands out the one it holds. At the end of the
text it stays on the end of input. Cursors are values, so that a copy keeps its place. Tokens are
the only items that are held: below them is the list of the characters left. By
`Lookahead.ofStream_characters` a buffer of characters looked at early would answer as that list.
-/

namespace RecordSchema

/-- A place among the tokens of a text. -/
structure Cursor where
  source : SourceId
  ahead : Lookahead Scan Lexeme

namespace Cursor

/-- A cursor on the first token of a text, which has to be in normalization form C. -/
def ofText (source : SourceId) (text : String) : Except Fault Cursor :=
  if Text.isNormalized text.toList then .ok ⟨source, .ofStream (.ofText text.toList)⟩
  else .error ⟨source, .notNormalized⟩

/-- The token that a stream gave; of an ended stream, the end of input. -/
def tokenOr (l : Option Lexeme) (s : Scan) : Token :=
  match l with
  | some l => l.token
  | none => s.lexeme.1.token

/-- The token under the cursor. -/
def peek (c : Cursor) : Token × Cursor :=
  let (l, ahead) := c.ahead.peek 0
  (tokenOr l ahead.source, { c with ahead })

/-- The token under the cursor, and the cursor behind it. -/
def next (c : Cursor) : Token × Cursor :=
  let (l, ahead) := c.ahead.next
  (tokenOr l ahead.source, { c with ahead })

/-- Whether the cursor is on the end of input. -/
def isAtEnd (c : Cursor) : Bool × Cursor :=
  let (token, c) := c.peek
  (token.kind == .endOfInput, c)

/-- The offset of the token under the cursor. -/
def offset (c : Cursor) : Nat × Cursor :=
  let (token, c) := c.peek
  (token.offset, c)

/-- The lexemes from the cursor on. -/
def remaining (c : Cursor) : Lexemes :=
  c.ahead.held.foldr .cons c.ahead.source.lexemes

end Cursor

end RecordSchema
