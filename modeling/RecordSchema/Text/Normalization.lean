import RecordSchema.Text.CombiningClass
import RecordSchema.Text.Decomposition

/-!
# Canonical composition (specification, 4.5)

A text is in normalization form C when full canonical decomposition, canonical ordering and
canonical composition give it back. `isNormalized` decides that by computing the form. No
character before U+0300 takes part in a composition with its neighbours, so a text of such
characters alone is normalized.
-/

namespace RecordSchema.Text

/-! ## Hangul

A syllable is a leading consonant, a vowel and perhaps a trailing consonant, laid out so that its
code point is computed from theirs. -/

/-- The code point of the syllable of leading consonant 0, vowel 0 and no trailing consonant. -/
def hangulBase : Nat := 0xAC00

/-- The parts of a syllable. -/
def hangulParts? (n : Nat) : Option (List Nat) :=
  if 0xAC00 ≤ n ∧ n ≤ 0xD7A3 then
    let i := n - hangulBase
    let syllable := [0x1100 + i / 588, 0x1161 + i % 588 / 28]
    some (if i % 28 = 0 then syllable else syllable ++ [0x11A7 + i % 28])
  else none

/-- A leading consonant with a vowel, or a syllable of those two with a trailing consonant. -/
def hangulSyllable? (first second : Nat) : Option Nat :=
  if 0x1100 ≤ first ∧ first ≤ 0x1112 ∧ 0x1161 ≤ second ∧ second ≤ 0x1175 then
    some (hangulBase + ((first - 0x1100) * 21 + (second - 0x1161)) * 28)
  else if 0xAC00 ≤ first ∧ first ≤ 0xD7A3 ∧ (first - hangulBase) % 28 = 0 ∧
      0x11A8 ≤ second ∧ second ≤ 0x11C2 then
    some (first + (second - 0x11A7))
  else none

/-! ## Decomposition -/

/-- The first and second character that compose to a character. -/
def compositeParts? (n : Nat) : Option (List Nat) :=
  composites.findSome? fun row =>
    (row.2.find? fun entry => entry.2 == n).map fun entry => [entry.1, row.1]

/-- The two characters of an excluded pair. -/
def excludedParts? (n : Nat) : Option (List Nat) :=
  (excludedPairs.find? fun entry => entry.1 == n).map fun entry => [entry.2.1, entry.2.2]

/-- The one character that a singleton stands for. -/
def singletonPart? (n : Nat) : Option (List Nat) :=
  singletons.findSome? fun run =>
    if run.1 ≤ n then run.2[n - run.1]?.map fun target => [target] else none

/-- One step of decomposition. No character before U+00C0 has one. -/
def decomposeOnce? (n : Nat) : Option (List Nat) :=
  if n < 0x00C0 then none
  else hangulParts? n <|> compositeParts? n <|> excludedParts? n <|> singletonPart? n

/-- Decomposes the characters of a list up to `steps` times each. -/
def decomposeSteps : Nat → Nat → List Nat
  | 0, n => [n]
  | steps + 1, n =>
    match decomposeOnce? n with
    | some parts => parts.flatMap (decomposeSteps steps)
    | none => [n]

/-- The full decomposition of a character. The longest chain of the tables has three steps. -/
def decomposition (c : Char) : List Char := (decomposeSteps 3 c.toNat).map Char.ofNat

/-! ## Ordering -/

/-- Puts a character before a list of ordered marks, or behind those of a lower class. -/
def insertMark (c : Char) : List Char → List Char
  | [] => [c]
  | d :: rest =>
    if 0 < combiningClass d ∧ combiningClass d < combiningClass c then d :: insertMark c rest
    else c :: d :: rest

/-- Sorts every run of marks by class, keeping the order of those with one class. -/
def orderMarks (cs : List Char) : List Char := cs.foldr insertMark []

/-! ## Composition -/

/-- The character that two characters compose to. -/
def composite? (first second : Char) : Option Char :=
  let code := hangulSyllable? first.toNat second.toNat <|>
    (composites.find? fun row => row.1 == second.toNat).bind fun row =>
      (row.2.find? fun entry => entry.1 == first.toNat).map fun entry => entry.2
  code.map Char.ofNat

/-- A mark between a starter and a character blocks them unless its class is the lower one. -/
def isBlocked (marks : List Char) (c : Char) : Bool :=
  match marks with
  | [] => false
  | last :: _ => combiningClass c ≤ combiningClass last

/-- Composes what follows a starter with it; `marks` are those left between, newest first. -/
def composeAfter (starter : Char) (marks : List Char) : List Char → List Char
  | [] => starter :: marks.reverse
  | c :: rest =>
    match if isBlocked marks c then none else composite? starter c with
    | some composed => composeAfter composed marks rest
    | none =>
      if isStarter c then starter :: marks.reverse ++ composeAfter c [] rest
      else composeAfter starter (c :: marks) rest

/-- Composes every combining sequence; marks before the first starter stay. -/
def composeAll : List Char → List Char
  | [] => []
  | c :: rest => if isStarter c then composeAfter c [] rest else c :: composeAll rest

/-! ## Normalization form C -/

/-- The text in normalization form C. -/
def normalize (cs : List Char) : List Char := composeAll (orderMarks (cs.flatMap decomposition))

/-- Characters that no composition or decomposition of a normalized text concerns. -/
def isPlain (c : Char) : Bool := c.toNat < 0x0300

/-- A text is normalized when normalization keeps it. -/
def isNormalized (cs : List Char) : Bool := cs.all isPlain || normalize cs == cs

end RecordSchema.Text
