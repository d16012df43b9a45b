import RecordSchema.Token

/-!
# Spelling of tokens (specification, 4.5)

Which token a text begins with, as its kind and its length in characters. Marks have fixed
spellings, and the table lists a longer one before any that begins it; names, numbers and widths
are told by the character they start with. What begins none of these is one unrecognised character.
The text is the list of the characters that are left. No queue of characters that were looked at
early is kept, since one would give the same (`Lookahead.yields_list`).

`leading_cons` says that a token takes a character or more and no more than there are, and that
only the empty text is at the end of input.
-/

namespace RecordSchema.Spelling

/-! ## Marks -/

/-- The marks and their kinds, longer ones first. -/
def marks : List (List Char × TokenKind) := [
  ([':', ':', '='], .assignment), (['=', '='], .equal), (['!', '='], .notEqual),
  (['<', '='], .lessEqual), (['>', '='], .greaterEqual), (['<'], .less), (['>'], .greater),
  (['\x7b'], .leftCurly), (['\x7d'], .rightCurly), (['('], .leftParen), ([')'], .rightParen),
  (['['], .leftSquare), ([']'], .rightSquare), ([','], .comma)]

/-- The mark at the front of a text. -/
def markAt? (cs : List Char) : Option (TokenKind × Nat) :=
  (marks.find? fun mark => mark.1.isPrefixOf cs).map fun mark => (mark.2, mark.1.length)

/-! ## Names, numbers and widths -/

/-- Characters of a name that go on from its first: letters, digits, and a hyphen wherever a letter
or digit follows it. -/
def nameTail : List Char → Nat
  | [] => 0
  | [c] => if c.isAlphanum then 1 else 0
  | c :: d :: rest =>
    if c.isAlphanum then nameTail (d :: rest) + 1
    else if c == '-' && d.isAlphanum then nameTail (d :: rest) + 1
    else 0

/-- The kind of a name: that of a reserved word, or an identifier. -/
def nameKind (name : String) : TokenKind := (keywords.lookup name).getD .identifier

/-- A name that begins with a letter. -/
def nameAt (c : Char) (rest : List Char) : TokenKind × Nat :=
  let n := nameTail rest
  (nameKind (String.ofList (c :: rest.take n)), n + 1)

/-- Digits at the front of a text. -/
def digitRun (cs : List Char) : Nat := (cs.takeWhile Char.isDigit).length

/-- A number that begins with a digit. With a leading zero it is unrecognised as a whole. -/
def numberAt (c : Char) (rest : List Char) : TokenKind × Nat :=
  let n := digitRun rest
  (if c == '0' && n != 0 then .unrecognised else .number, n + 1)

/-- A width behind its underscore, or the underscore alone. -/
def widthAt (rest : List Char) : TokenKind × Nat :=
  let n := digitRun rest
  (if n == 0 then .unrecognised else .width, n + 1)

/-! ## Tokens -/

/-- The token at the front of a text. -/
def leading : List Char → TokenKind × Nat
  | [] => (.endOfInput, 0)
  | c :: rest =>
    match markAt? (c :: rest) with
    | some token => token
    | none =>
      if c.isAlpha then nameAt c rest
      else if c.isDigit then numberAt c rest
      else if c == '_' then widthAt rest
      else (.unrecognised, 1)

/-! ## Bounds -/

/-- A token of at least one and at most `n` characters that is not the end of input. -/
def Fits (n : Nat) (token : TokenKind × Nat) : Prop :=
  0 < token.2 ∧ token.2 ≤ n ∧ token.1 ≠ .endOfInput

/-- No mark is empty or the end of input. -/
theorem marks_proper : ∀ mark ∈ marks, 0 < mark.1.length ∧ mark.2 ≠ .endOfInput := by
  decide

theorem markAt?_fits {cs : List Char} {token : TokenKind × Nat} (h : markAt? cs = some token) :
    Fits cs.length token := by
  obtain ⟨mark, hmark, rfl⟩ := Option.map_eq_some_iff.mp h
  obtain ⟨hpos, hkind⟩ := marks_proper mark (List.mem_of_find?_eq_some hmark)
  have hprefix : mark.1.isPrefixOf cs = true := by simpa using List.find?_some hmark
  have hle := (List.isPrefixOf_iff_prefix.mp hprefix).length_le
  exact ⟨hpos, hle, hkind⟩

theorem nameTail_le (cs : List Char) : nameTail cs ≤ cs.length := by
  induction cs using nameTail.induct with
  | case1 => exact Nat.le_refl 0
  | case2 c h => simp [nameTail, h]
  | case3 c h => simp [nameTail, h]
  | case4 c d rest h ih =>
    rw [nameTail, if_pos h]
    exact Nat.succ_le_succ ih
  | case5 c d rest h hhyphen ih =>
    rw [nameTail, if_neg h, if_pos hhyphen]
    exact Nat.succ_le_succ ih
  | case6 c d rest h hhyphen =>
    rw [nameTail, if_neg h, if_neg hhyphen]
    exact Nat.zero_le _

/-- No reserved word is the end of input. -/
theorem keywords_proper : ∀ entry ∈ keywords, entry.2 ≠ .endOfInput := by
  decide

theorem nameKind_ne (name : String) : nameKind name ≠ .endOfInput := by
  unfold nameKind
  cases h : keywords.lookup name with
  | none => simp
  | some kind =>
    obtain ⟨before, after, he, -⟩ := List.lookup_eq_some_iff.mp h
    exact keywords_proper (name, kind) (by simp [he])

theorem nameAt_fits (c : Char) (rest : List Char) : Fits (rest.length + 1) (nameAt c rest) :=
  ⟨Nat.succ_pos _, Nat.succ_le_succ (nameTail_le rest), nameKind_ne _⟩

theorem digitRun_le (cs : List Char) : digitRun cs ≤ cs.length :=
  (List.takeWhile_sublist Char.isDigit).length_le

theorem numberAt_fits (c : Char) (rest : List Char) : Fits (rest.length + 1) (numberAt c rest) := by
  refine ⟨Nat.succ_pos _, Nat.succ_le_succ (digitRun_le rest), ?_⟩
  unfold numberAt
  dsimp only
  split <;> simp

theorem widthAt_fits (rest : List Char) : Fits (rest.length + 1) (widthAt rest) := by
  refine ⟨Nat.succ_pos _, Nat.succ_le_succ (digitRun_le rest), ?_⟩
  unfold widthAt
  dsimp only
  split <;> simp

/-- **A text that is not empty begins with a token** of one character or more. -/
theorem leading_cons (c : Char) (rest : List Char) :
    Fits (rest.length + 1) (leading (c :: rest)) := by
  simp only [leading]
  split
  · rename_i token htoken
    exact markAt?_fits htoken
  · split
    · exact nameAt_fits c rest
    · split
      · exact numberAt_fits c rest
      · split
        · exact widthAt_fits rest
        · exact ⟨Nat.one_pos, by simp, by simp⟩

end RecordSchema.Spelling
