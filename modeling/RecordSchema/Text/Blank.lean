/-!
# Blanks, line ends and hyphens

The characters that separate tokens. Every line end is a blank, which is what lets a comment leave
the line end after it to the blanks that follow.
-/

namespace RecordSchema.Text

/-- Line feed, vertical tab, form feed and carriage return end a line. -/
def isLineEnd (c : Char) : Bool :=
  c == '\n' || c == '\x0b' || c == '\x0c' || c == '\r'

/-- Tab, space, no-break space and the line ends separate tokens. -/
def isBlank (c : Char) : Bool :=
  c == '\t' || c == ' ' || c == '\u00a0' || isLineEnd c

/-- A hyphen of a comment mark: the plain one or the non-breaking one. -/
def isHyphen (c : Char) : Bool := c == '-' || c == '\u2011'

end RecordSchema.Text
