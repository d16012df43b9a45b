import RecordSchema.Text.Blank
import RecordSchema.Text.Measure

/-!
# Gaps between tokens (specification, 4.5)

Blanks and comments separate tokens. Two adjacent hyphens open a comment, and it closes behind the
next two adjacent hyphens, before a line end, or at the end of the text. `gap` passes over all of
that and reports where each comment began.

`gap_splits` says that what is passed over and what is left make up the text, and that the end of a
gap lies behind the bytes passed over.
-/

namespace RecordSchema

open Text

/-- A gap: the offsets of its comments in order, the offset it ends at, and the text behind it. -/
structure Gap where
  comments : List Nat
  stop : Nat
  rest : List Char
deriving DecidableEq, Repr

mutual

/-- Passes over the blanks and comments at the front of a text that begins at `offset`. A hyphen
without a second one beside it is not part of the gap. -/
def gap (offset : Nat) : List Char → Gap
  | [] => ⟨[], offset, []⟩
  | [c] => if isBlank c then ⟨[], offset + c.utf8Size, []⟩ else ⟨[], offset, [c]⟩
  | c :: d :: rest =>
    if isBlank c then gap (offset + c.utf8Size) (d :: rest)
    else if isHyphen c && isHyphen d then
      let g := comment (offset + c.utf8Size + d.utf8Size) rest
      { g with comments := offset :: g.comments }
    else ⟨[], offset, c :: d :: rest⟩

/-- Passes over the rest of an open comment and the gap behind it. A line end closes the comment
and is a blank of that gap. -/
def comment (offset : Nat) : List Char → Gap
  | [] => ⟨[], offset, []⟩
  | [c] => ⟨[], offset + c.utf8Size, []⟩
  | c :: d :: rest =>
    if isLineEnd c then gap (offset + c.utf8Size) (d :: rest)
    else if isHyphen c && isHyphen d then gap (offset + c.utf8Size + d.utf8Size) rest
    else comment (offset + c.utf8Size) (d :: rest)

end

/-! ## Nothing is lost -/

/-- What a gap passed over and what it left make up a text that begins at `offset`. -/
def Gap.Splits (g : Gap) (offset : Nat) (cs : List Char) : Prop :=
  ∃ skipped, cs = skipped ++ g.rest ∧ g.stop = offset + byteLength skipped

theorem Gap.Splits.refl (comments : List Nat) (offset : Nat) (cs : List Char) :
    Gap.Splits ⟨comments, offset, cs⟩ offset cs :=
  ⟨[], rfl, rfl⟩

theorem Gap.Splits.cons {g : Gap} {offset : Nat} {cs : List Char} (c : Char)
    (h : g.Splits (offset + c.utf8Size) cs) : g.Splits offset (c :: cs) := by
  obtain ⟨skipped, hcs, hstop⟩ := h
  exact ⟨c :: skipped, by rw [hcs]; rfl, by rw [hstop, byteLength_cons]; omega⟩

mutual

theorem gap_splits (offset : Nat) : ∀ cs, (gap offset cs).Splits offset cs
  | [] => .refl [] _ _
  | [c] => by
    unfold gap
    split
    · exact .cons c (.refl [] _ _)
    · exact .refl [] _ _
  | c :: d :: rest => by
    unfold gap
    split
    · exact .cons c (gap_splits _ _)
    · split
      · obtain ⟨skipped, h⟩ := Gap.Splits.cons c (.cons d (comment_splits _ rest))
        exact ⟨skipped, h⟩
      · exact .refl [] _ _

theorem comment_splits (offset : Nat) : ∀ cs, (comment offset cs).Splits offset cs
  | [] => .refl [] _ _
  | [c] => .cons c (.refl [] _ _)
  | c :: d :: rest => by
    unfold comment
    split
    · exact .cons c (gap_splits _ _)
    · split
      · exact .cons c (.cons d (gap_splits _ _))
      · exact .cons c (comment_splits _ _)

end

end RecordSchema
