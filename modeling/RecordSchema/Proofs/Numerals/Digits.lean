import RecordSchema.Proofs.LongestMatch

/-!
# Digits as tokens

A run of digits is one token, a number, unless it has a leading zero; with one it is one token as
well, but not recognised. Behind an underscore it is a width, whatever it begins with. All that
matters of the text behind it is that it does not go on with a digit.

Results:
* `Scan.lexeme_of_digits`, `Scan.lexeme_of_width`: what is read where digits stand.
* `Text.kind_of_digits`, `Text.kind_of_width`: the kind of a token with digits for its text.
-/

namespace RecordSchema

open Text

namespace Spelling

/-- Decimal digits, and at least one of them. -/
structure Digits (d : List Char) : Prop where
  ne_nil : d ≠ []
  digits : ∀ c ∈ d, c.isDigit = true

instance (d : List Char) : Decidable (Digits d) :=
  decidable_of_iff (d ≠ [] ∧ d.all Char.isDigit = true)
    ⟨fun h => ⟨h.1, List.all_eq_true.mp h.2⟩, fun h => ⟨h.ne_nil, List.all_eq_true.mpr h.digits⟩⟩

instance : (r : List Char) → Decidable (LeadingZero r)
  | [] => isFalse fun ⟨_, _, h, _⟩ => List.cons_ne_nil _ _ h.symm
  | c :: rest => decidable_of_iff (c = '0' ∧ digitRun rest ≠ 0) leadingZero_cons.symm

/-- The kind of the token that digits are. -/
def digitsKind (d : List Char) : TokenKind := if LeadingZero d then .unrecognised else .number

namespace Digits

variable {d rest : List Char} (hd : Digits d)

include hd

/-- A zero in front is told by the digits alone. -/
theorem leadingZero_append (hrest : ∀ c ∈ rest.head?, c.isDigit = false) :
    LeadingZero (d ++ rest) ↔ LeadingZero d := by
  obtain ⟨hne, hdigits⟩ := hd
  cases d with
  | nil => exact absurd rfl hne
  | cons c d =>
    have hd := (List.forall_mem_cons.mp hdigits).2
    have hend : digitRun (d ++ []) = d.length := digitRun_append hd (by simp)
    rw [List.append_nil] at hend
    rw [List.cons_append, leadingZero_cons, leadingZero_cons, digitRun_append hd hrest, hend]

/-- Digits are one token. -/
theorem leading (hrest : ∀ c ∈ rest.head?, c.isDigit = false) :
    leading (d ++ rest) = (digitsKind d, d.length) := by
  have hzero := hd.leadingZero_append hrest
  obtain ⟨hne, hdigits⟩ := hd
  cases d with
  | nil => exact absurd rfl hne
  | cons c d =>
    obtain ⟨hc, hd⟩ := List.forall_mem_cons.mp hdigits
    rw [List.cons_append, leadingZero_cons, digitRun_append hd hrest] at hzero
    rw [List.cons_append, leading_digits hc hd hrest]
    simp [digitsKind, ← hzero]

theorem byteLength_eq : byteLength d = d.length :=
  byteLength_of_single fun c hc => utf8Size_of_isAlphanum (isAlphanum_of_isDigit (hd.digits c hc))

/-! ## Kinds of tokens -/

/-- Without a leading zero digits spell a number. -/
theorem spells (hz : ¬ LeadingZero d) : Spells .number d := by
  obtain ⟨hne, hdigits⟩ := hd
  cases d with
  | nil => exact absurd rfl hne
  | cons c d =>
    obtain ⟨hc, hd⟩ := List.forall_mem_cons.mp hdigits
    refine .number hc hd fun hzero => ?_
    by_contra hrest
    obtain ⟨e, tail, rfl⟩ := List.exists_cons_of_ne_nil hrest
    exact hz ⟨e, tail, by rw [hzero], hd e List.mem_cons_self⟩

/-- Without a leading zero digits are those of their value. -/
theorem toDigits_eq (hz : ¬ LeadingZero d) : Nat.toDigits 10 (decimalValue d) = d :=
  (hd.spells hz).number_digits rfl

/-- **A token with digits for its text** is a number, but for a leading zero. -/
theorem kind_eq {r : List Char} {kind : TokenKind} (h : LongestMatch r kind d) :
    kind = digitsKind d := by
  cases h with
  | zeros hz hr _ hrest =>
    rw [hr, hd.leadingZero_append hrest] at hz
    exact (if_pos hz).symm
  | longest _ _ hm _ =>
    have hread := (matches_iff.mp hm).leading_append stops_nil
    rw [hd.leading (by simp)] at hread
    exact (Prod.mk.inj hread).1.symm
  | @other c rest _ hr hnone =>
    have hz : ¬ LeadingZero [c] := fun ⟨_, _, hcons, _⟩ =>
      List.cons_ne_nil _ _ (List.cons.inj hcons).2.symm
    exact absurd (matches_iff.mpr (hd.spells hz)) (hnone _ _ ⟨rest, hr.symm⟩)

/-- **A token with digits behind an underscore** is a width. -/
theorem kind_eq_width {r : List Char} {kind : TokenKind} (h : LongestMatch r kind ('_' :: d)) :
    kind = .width := by
  generalize hcs : '_' :: d = cs at h
  cases h with
  | zeros _ _ hdigits _ =>
    have hdigit : '_'.isDigit = true := hdigits '_' (hcs ▸ List.mem_cons_self)
    exact absurd hdigit (by decide)
  | longest _ _ hm _ =>
    have hread := (matches_iff.mp hm).leading_append stops_nil
    rw [List.append_nil, ← hcs] at hread
    have hwidth : Spelling.leading ('_' :: (d ++ [])) = _ :=
      Spelling.leading_width hd.ne_nil hd.digits (by simp)
    rw [List.append_nil] at hwidth
    exact (Prod.mk.inj (hread.symm.trans hwidth)).1
  | other => exact absurd (List.cons.inj hcs).2 hd.ne_nil

end Digits

end Spelling

/-! ## Where digits stand -/

namespace Scan

open Spelling

variable {d rest : List Char} (hd : Digits d) (hrest : ∀ c ∈ rest.head?, c.isDigit = false)

include hd hrest

/-- **Digits at a place** are the lexeme there. -/
theorem lexeme_of_digits (offset : Nat) : lexeme ⟨d ++ rest, offset⟩ =
    (⟨[], ⟨digitsKind d, String.ofList d, offset⟩⟩, ⟨rest, offset + d.length⟩) := by
  have hgap : gap offset (d ++ rest) = ⟨[], offset, d ++ rest⟩ := by
    obtain ⟨c, tail, rfl⟩ := List.exists_cons_of_ne_nil hd.ne_nil
    have hc := isAlphanum_of_isDigit (hd.digits c List.mem_cons_self)
    exact gap_of_begins (begins_of_isAlphanum hc) offset _
  simp only [lexeme, hgap, hd.leading hrest, List.take_left', List.drop_left', hd.byteLength_eq]

/-- **Digits behind an underscore** are the lexeme at its place. -/
theorem lexeme_of_width (offset : Nat) : lexeme ⟨'_' :: (d ++ rest), offset⟩ =
    (⟨[], ⟨.width, "_" ++ String.ofList d, offset⟩⟩, ⟨rest, offset + d.length + 1⟩) := by
  have hspells : Spells .width ('_' :: d) := .width hd.ne_nil hd.digits
  have htext : String.ofList ('_' :: d) = "_" ++ String.ofList d := by
    rw [← List.singleton_append, String.ofList_append]
  have hlength : byteLength ('_' :: d) = d.length + 1 := by
    rw [byteLength_cons, hd.byteLength_eq, Nat.add_comm]
    rfl
  have hlexeme := lexeme_of_spells hspells (leading_width hd.ne_nil hd.digits hrest) offset
  rwa [htext, hlength] at hlexeme

end Scan

namespace Text

open Spelling

variable {text : String} {t : Token} {d : List Char}

theorem toList_underscore (d : List Char) : ("_" ++ String.ofList d).toList = '_' :: d := by
  rw [String.toList_append, String.toList_ofList, String.toList_ofList, List.singleton_append]

/-- A token of a text is the longest match where it stands. -/
theorem exists_longestMatch (ht : t ∈ tokens text) : ∃ r, LongestMatch r t.kind t.text.toList := by
  obtain ⟨passed, hbehind⟩ := Scan.ofText_behind text
  have hmem : t ∈ stream text := by
    rw [stream_eq]
    exact List.mem_append_left _ ht
  obtain ⟨_, r, -, -, hlongest⟩ := Scan.stream_isLongest _ hbehind t hmem
  refine ⟨r, hlongest.resolve_left fun hend => ?_⟩
  exact (Scan.lexemes_closed _).inner t ht hend.2.1

/-- **A token of a text with digits for its own** is a number, but for a leading zero. -/
theorem kind_of_digits (hd : Digits d) (ht : t ∈ tokens text) (htext : t.text = String.ofList d) :
    t.kind = digitsKind d := by
  obtain ⟨r, hlongest⟩ := exists_longestMatch ht
  rw [htext, String.toList_ofList] at hlongest
  exact hd.kind_eq hlongest

/-- **A token of a text with digits behind an underscore** is a width. -/
theorem kind_of_width (hd : Digits d) (ht : t ∈ tokens text)
    (htext : t.text = "_" ++ String.ofList d) : t.kind = .width := by
  obtain ⟨r, hlongest⟩ := exists_longestMatch ht
  rw [htext, toList_underscore] at hlongest
  exact hd.kind_eq_width hlongest

end Text

end RecordSchema
