/-!
# Tokens (specification, 4.5)

A token is a kind, the text it was read from and the byte offset of that text. Kinds are listed in
one fixed order, `TokenKind.all`, and each has the description that faults show to the user.
Offsets have no limit here; none that reading finds is more than the bytes of its text.
-/

namespace RecordSchema

/-- What a token is. -/
inductive TokenKind where
  | leftCurly
  | rightCurly
  | leftParen
  | rightParen
  | leftSquare
  | rightSquare
  | comma
  | less
  | greater
  | identifier
  | number
  /-- A bit width, an underscore and digits. -/
  | width
  | assignment
  | equal
  | notEqual
  | lessEqual
  | greaterEqual
  | sequence
  | array
  | choice
  | uint
  | bitString
  | bool
  | default
  | and
  | or
  /-- Follows the last token of a text, without end. -/
  | endOfInput
  /-- Text that begins no token. -/
  | unrecognised
deriving DecidableEq, Repr

namespace TokenKind

/-- Every kind, in order. -/
def all : List TokenKind := [
  leftCurly, rightCurly, leftParen, rightParen, leftSquare, rightSquare, comma, less, greater,
  identifier, number, width, assignment, equal, notEqual, lessEqual, greaterEqual, sequence, array,
  choice, uint, bitString, bool, default, and, or, endOfInput, unrecognised]

/-- How a fault names the kind. -/
def description : TokenKind → String
  | leftCurly => "`\x7b`"
  | rightCurly => "`\x7d`"
  | leftParen => "`(`"
  | rightParen => "`)`"
  | leftSquare => "`[`"
  | rightSquare => "`]`"
  | comma => "`,`"
  | less => "`<`"
  | greater => "`>`"
  | identifier => "identifier"
  | number => "number"
  | width => "bit width"
  | assignment => "`::=`"
  | equal => "`==`"
  | notEqual => "`!=`"
  | lessEqual => "`<=`"
  | greaterEqual => "`>=`"
  | sequence => "`SEQUENCE`"
  | array => "`ARRAY`"
  | choice => "`CHOICE`"
  | uint => "`UINT`"
  | bitString => "`BITSTRING`"
  | bool => "`BOOL`"
  | default => "`DEFAULT`"
  | and => "`AND`"
  | or => "`OR`"
  | endOfInput => "end of input"
  | unrecognised => "unrecognised character"

end TokenKind

/-- A token with its place in the text. -/
structure Token where
  kind : TokenKind
  text : String
  offset : Nat
deriving DecidableEq, Repr

namespace Token

/-- Bytes the token takes. -/
def length (t : Token) : Nat := t.text.utf8ByteSize

/-- The offset just behind the token. -/
def stop (t : Token) : Nat := t.offset + t.length

end Token

/-- The reserved words. The two connectives may be written in either case, but not in a mix. -/
def keywords : List (String × TokenKind) := [
  ("SEQUENCE", .sequence), ("ARRAY", .array), ("CHOICE", .choice), ("UINT", .uint),
  ("BITSTRING", .bitString), ("BOOL", .bool), ("DEFAULT", .default), ("AND", .and),
  ("and", .and), ("OR", .or), ("or", .or)]

end RecordSchema
