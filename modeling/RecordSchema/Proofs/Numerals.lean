import RecordSchema.Proofs.Numerals.Digits
import RecordSchema.Proofs.Numerals.Replacement

/-!
# Numbers in texts

Digits of any length are told by their value. Where a text is valid but for a number or a width, it
is read exactly if that fits, and is read as what the digits are worth; nothing wraps around. If it
does not fit, the fault shows the digits as a whole.

A text is valid but for a token if other tokens in its place spell a well-formed schema: a zero in
the place of a number, a one in that of a width, and none in that of a width that no keyword has.

Results:
* `Schema.operandExact`, `Schema.widthExact`: digits as an operand and as the width of a type.
* `Schema.parse_numerals`: digits wherever they stand.
-/

namespace RecordSchema

open Text Spelling

namespace Schema

/-- What becomes of a text that has the digits `d` for an operand, and would be read as `p` if there
were a zero. -/
structure OperandExact (source : SourceId) (text : String) (p : Schema) (pre post : List Token)
    (offset : Nat) (d : List Char) : Prop where
  accepted_iff : (∃ q, (Schema.parse source text).result = .ok q) ↔
    ¬ LeadingZero d ∧ decimalValue d < 2 ^ 64
  exact : ∀ q, (Schema.parse source text).result = .ok q → q.unnumbered = p.unnumbered ∧
    q.widths = p.widths ∧ q.integers = numerals pre ++ decimalValue d :: numerals post
  rendered : ∀ q, (Schema.parse source text).result = .ok q →
    (Operand.integer (decimalValue d)).render = String.ofList d ∧
    (tokens q.render).map Token.word = words pre ++ (.number, String.ofList d) :: words post
  large : ¬ LeadingZero d → 2 ^ 64 ≤ decimalValue d →
    (Schema.parse source text).result = .error ⟨source, .invalidNumber (String.ofList d) offset⟩
  zeros : LeadingZero d → ∃ kinds, (Schema.parse source text).result =
    .error ⟨source, .unexpectedToken kinds .unrecognised offset d.length⟩

/-- What becomes of a text that has the digits `d` for the width of a type with the keyword `k`, and
would be read as `p` if there were a one. -/
structure WidthExact (source : SourceId) (text : String) (p : Schema) (pre : List Token) (k : Token)
    (post : List Token) (offset : Nat) (d : List Char) : Prop where
  accepted_iff : (∃ q, (Schema.parse source text).result = .ok q) ↔
    1 ≤ decimalValue d ∧ decimalValue d < 2 ^ 32
  exact : ∀ q, (Schema.parse source text).result = .ok q → q.unnumbered = p.unnumbered ∧
    q.integers = p.integers ∧ q.widths = bitWidths pre ++ decimalValue d :: bitWidths post
  rendered : ∀ q, (Schema.parse source text).result = .ok q →
    (∀ b : Builtin, SimpleType.render ⟨b, some (decimalValue d)⟩ =
      b.keyword ++ "_" ++ String.ofList (stripZeros d)) ∧
    (tokens q.render).map Token.word = words pre ++ (k.kind, k.text) ::
      (.width, "_" ++ String.ofList (stripZeros d)) :: words post
  refused : ¬ (1 ≤ decimalValue d ∧ decimalValue d < 2 ^ 32) → (Schema.parse source text).result =
    .error ⟨source, .invalidNumber ("_" ++ String.ofList d) offset⟩

variable (source : SourceId) {text : String} {p : Schema} {pre post : List Token} {t : Token}
  {d : List Char} (hd : Digits d)

include hd

/-- **Digits as an operand.** Without a leading zero the token is a number and may fit or not; with
one it is not recognised. -/
theorem operandExact (htokens : tokens text = pre ++ t :: post) (htext : t.text = String.ofList d)
    (hvalid : OtherwiseValid text (pre ++ ⟨.number, "0", t.offset⟩ :: post) p) :
    OperandExact source text p pre post t.offset d := by
  have hmem : t ∈ tokens text := by simp [htokens]
  have hkind : t.kind = digitsKind d := kind_of_digits hd hmem htext
  by_cases hz : LeadingZero d
  · rw [digitsKind, if_pos hz] at hkind
    have hlength : t.length = d.length := by
      rw [Token.length, htext, utf8ByteSize_ofList, hd.byteLength_eq]
    obtain ⟨kinds, herror⟩ := zeros_error source htokens hvalid hkind rfl rfl
    rw [hkind, hlength] at herror
    have hnot (q : Schema) (h : (Schema.parse source text).result = .ok q) : False := by
      rw [herror] at h
      cases h
    exact ⟨iff_of_false (not_exists.mpr hnot) fun h => h.1 hz, fun q hq => absurd hq (hnot q),
      fun q hq => absurd hq (hnot q), fun h => absurd hz h, fun _ => ⟨kinds, herror⟩⟩
  · rw [digitsKind, if_neg hz] at hkind
    have hfit : Fitting [t] ↔ decimalValue d < 2 ^ 64 := by
      rw [fitting_number hkind, htext, String.toList_ofList]
      rfl
    obtain ⟨haccepted, hexact⟩ :=
      replaced_ok source htokens hvalid hkind rfl List.mem_cons_self
    refine ⟨?_, fun q hq => ?_, fun q hq => ?_, fun _ hlarge => ?_, fun h => absurd h hz⟩
    · rw [haccepted, hfit]
      exact ⟨fun h => ⟨hz, h⟩, fun h => h.2⟩
    · obtain ⟨hsame, hintegers, hwidths, -⟩ := hexact q hq
      have hp : p.widths = bitWidths pre ++ bitWidths post := by
        rw [widths_eq hvalid.spelled, bitWidths_append, bitWidths_other (by simp)]
      refine ⟨hsame, ?_, ?_⟩
      · rw [hwidths, htokens, bitWidths_append, bitWidths_other (by rw [hkind]; decide), hp]
      · rw [hintegers, htokens, numerals_append, numerals_number hkind, htext,
          String.toList_ofList]
    · obtain ⟨-, -, -, hwords⟩ := hexact q hq
      have hword : words [t] = [(.number, String.ofList d)] := by
        rw [Prints.words_of_kind (by rw [hkind]; decide), hkind, htext]
      refine ⟨?_, ?_⟩
      · rw [Operand.render, Nat.toString_eq_ofList_toDigits, hd.toDigits_eq hz]
      · rw [hwords, htokens, words_append, words_cons, hword, List.singleton_append]
    · rw [← htext]
      exact replaced_error source htokens hvalid hkind rfl List.mem_cons_self
        (hfit.not.mpr (Nat.not_lt_of_le hlarge))

/-- **Digits as the width of a type.** The token is a width and may fit or not. -/
theorem widthExact {k w : Token} (htokens : tokens text = pre ++ k :: w :: post)
    (htext : w.text = "_" ++ String.ofList d) (hk : k.kind ∈ [TokenKind.uint, .bitString])
    (hvalid : OtherwiseValid text (pre ++ k :: ⟨.width, "_1", w.offset⟩ :: post) p) :
    WidthExact source text p pre k post w.offset d := by
  have hmem : w ∈ tokens text := by simp [htokens]
  have hkind : w.kind = .width := kind_of_width hd hmem htext
  have hdrop : w.text.toList.drop 1 = d := by
    rw [htext, toList_underscore, List.drop_one, List.tail_cons]
  have hfit : Fitting [w] ↔ 1 ≤ decimalValue d ∧ decimalValue d < 2 ^ 32 := by
    rw [fitting_width hkind, hdrop]
    rfl
  have hkeyword : ∀ kind ∈ [TokenKind.uint, .bitString], kind ≠ .width ∧ kind ∉ alteredKinds := by
    decide
  rw [List.append_cons] at htokens hvalid
  have hone : TokenKind.width ∈ [TokenKind.number, .width] := by decide
  obtain ⟨haccepted, hexact⟩ := replaced_ok source htokens hvalid hkind rfl hone
  refine ⟨haccepted.trans hfit, fun q hq => ?_, fun q hq => ?_, fun hlarge => ?_⟩
  · obtain ⟨hsame, hintegers, hwidths, -⟩ := hexact q hq
    have hp : p.integers = numerals (pre ++ [k]) ++ numerals post := by
      rw [integers_eq hvalid.spelled, numerals_append, numerals_other (by simp)]
    have hpre : bitWidths (pre ++ [k]) = bitWidths pre := by
      rw [bitWidths_append, bitWidths_other (hkeyword _ hk).1]
      exact List.append_nil _
    refine ⟨hsame, ?_, ?_⟩
    · rw [hintegers, htokens, numerals_append, numerals_other (by rw [hkind]; decide), hp]
    · rw [hwidths, htokens, bitWidths_append, bitWidths_width hkind, hdrop, hpre]
  · obtain ⟨-, -, -, hwords⟩ := hexact q hq
    have hk : words [k] = [(k.kind, k.text)] := Prints.words_of_kind (hkeyword _ hk).2
    have hw : words [w] = [(.width, "_" ++ String.ofList (stripZeros d))] := by
      rw [words_kept (by rw [Token.isKept, hkind]; rfl), Token.canonical, hkind, hdrop]
    refine ⟨fun b => ?_, ?_⟩
    · have hdigits := toDigits_decimalValue hd.ne_nil hd.digits
      show b.keyword ++ ("_" ++ toString (decimalValue d)) = _
      rw [Nat.toString_eq_ofList_toDigits, hdigits, String.append_assoc]
    · rw [hwords, htokens, words_append, words_append, words_cons w, hk, hw, List.append_assoc]
      rfl
  · rw [← htext]
    exact replaced_error source htokens hvalid hkind rfl hone (hfit.not.mpr hlarge)

/-- **Digits are exact at every length.** Where no digit follows them they are one token, which is a
number unless a leading zero makes it unrecognised, and a width behind an underscore. An operand is
accepted exactly if its digits have no leading zero and are worth less than `2 ^ 64`, and a width
directly behind `UINT` or `BITSTRING` if its digits are worth one or more and less than `2 ^ 32`.
What is read has exactly that number there, and is rendered with its digits, those of a width
without leading zeros. Any other text fails: for the digits as a whole where the number does not
fit, for an unrecognised token where an operand has a leading zero. A width behind `BOOL`, or not
directly behind its keyword, is unexpected. -/
theorem parse_numerals (source : SourceId) (text : String) (p : Schema) (pre post : List Token) :
    (∀ rest offset, (∀ c ∈ rest.head?, c.isDigit = false) →
      Scan.lexeme ⟨d ++ rest, offset⟩ =
        (⟨[], ⟨digitsKind d, String.ofList d, offset⟩⟩, ⟨rest, offset + d.length⟩) ∧
      Scan.lexeme ⟨'_' :: (d ++ rest), offset⟩ =
        (⟨[], ⟨.width, "_" ++ String.ofList d, offset⟩⟩, ⟨rest, offset + d.length + 1⟩)) ∧
    (∀ t, tokens text = pre ++ t :: post → t.text = String.ofList d →
      OtherwiseValid text (pre ++ ⟨.number, "0", t.offset⟩ :: post) p →
      OperandExact source text p pre post t.offset d) ∧
    (∀ k w, tokens text = pre ++ k :: w :: post → w.text = "_" ++ String.ofList d →
      k.kind ∈ [TokenKind.uint, .bitString] → w.offset = k.stop →
      OtherwiseValid text (pre ++ k :: ⟨.width, "_1", w.offset⟩ :: post) p →
      WidthExact source text p pre k post w.offset d) ∧
    (∀ k w, tokens text = pre ++ k :: w :: post → w.text = "_" ++ String.ofList d →
      k.kind ∈ Rule.typeWords → k.kind = .bool ∨ w.offset ≠ k.stop →
      OtherwiseValid text (pre ++ k :: post) p →
      ∃ kinds, (Schema.parse source text).result =
        .error ⟨source, .unexpectedToken kinds .width w.offset w.length⟩) := by
  refine ⟨fun rest offset hrest => ?_, fun t => operandExact source hd,
    fun k w htokens htext hk _ => widthExact source hd htokens htext hk,
    fun k w htokens htext hk hdetached hvalid => ?_⟩
  · exact ⟨Scan.lexeme_of_digits hd hrest offset, Scan.lexeme_of_width hd hrest offset⟩
  · have hmem : w ∈ tokens text := by simp [htokens]
    have hkind : w.kind = .width := kind_of_width hd hmem htext
    have hapart : ¬ w.Widens k := by
      rintro ⟨htakes, -, hoffset⟩
      rcases hdetached with hbool | hne
      · rw [hbool] at htakes
        exact absurd htakes (by decide)
      · exact hne hoffset
    rw [← hkind]
    exact detached_error source htokens hvalid hk hkind hapart

omit hd

/-- The largest operand, the smallest width that is too large, and a width behind a comment. -/
theorem parse_numerals_limits :
    (∃ q, (Schema.parse ⟨0⟩
        "c ::= CHOICE[k] \x7b BOOL(k < 18446744073709551615) BOOL(DEFAULT) \x7d").result = .ok q ∧
      q.integers = [18446744073709551615]) ∧
    (Schema.parse ⟨0⟩ "w ::= BITSTRING_04294967296").result =
      .error ⟨⟨0⟩, .invalidNumber "_04294967296" 15⟩ ∧
    ∃ kinds, (Schema.parse ⟨0⟩ "w ::= UINT --8-- _8").result =
      .error ⟨⟨0⟩, .unexpectedToken kinds .width 17 2⟩ := by
  let name : List Token := [⟨.identifier, "w", 0⟩, ⟨.assignment, "::=", 2⟩]
  refine ⟨?_, ?_, ?_⟩
  · let text : String := "c ::= CHOICE[k] \x7b BOOL(k < 18446744073709551615) BOOL(DEFAULT) \x7d"
    let zero : String := "c ::= CHOICE[k] \x7b BOOL(k < 0                   ) BOOL(DEFAULT) \x7d"
    let front : List Token := [⟨.identifier, "c", 0⟩, ⟨.assignment, "::=", 2⟩,
      ⟨.choice, "CHOICE", 6⟩, ⟨.leftSquare, "[", 12⟩, ⟨.identifier, "k", 13⟩,
      ⟨.rightSquare, "]", 14⟩, ⟨.leftCurly, "\x7b", 16⟩, ⟨.bool, "BOOL", 18⟩,
      ⟨.leftParen, "(", 22⟩, ⟨.identifier, "k", 23⟩, ⟨.less, "<", 25⟩]
    let behind : List Token := [⟨.rightParen, ")", 47⟩, ⟨.bool, "BOOL", 49⟩, ⟨.leftParen, "(", 53⟩,
      ⟨.default, "DEFAULT", 54⟩, ⟨.rightParen, ")", 61⟩, ⟨.rightCurly, "\x7d", 63⟩]
    have h : (Schema.parse ⟨0⟩ zero).result = .ok ⟨[⟨⟨"c", 0⟩, .choice [⟨"k", 13⟩]
        [⟨⟨⟨"BOOL", 18⟩, .builtin ⟨.bool, none⟩, none⟩, .expression
          [[.comparison (.name ⟨"k", 23⟩) .less (.integer 0)]]⟩,
        ⟨⟨⟨"BOOL", 49⟩, .builtin ⟨.bool, none⟩, none⟩, .default⟩]⟩]⟩ := by
      decide +kernel
    have hzero : tokens zero = front ++ ⟨.number, "0", 27⟩ :: behind := by
      decide +kernel
    obtain ⟨-, hoperand, -⟩ := parse_numerals (d := "18446744073709551615".toList)
      (by decide +kernel) ⟨0⟩ text _ front behind
    have hexact := hoperand ⟨.number, "18446744073709551615", 27⟩ (by decide +kernel)
      (by decide +kernel) (.of_parse (by decide +kernel) hzero h)
    obtain ⟨q, hq⟩ := hexact.accepted_iff.mpr (by decide +kernel)
    refine ⟨q, hq, (hexact.exact q hq).2.2.trans ?_⟩
    decide +kernel
  · have h : (Schema.parse ⟨0⟩ "w ::= BITSTRING_1").result =
        .ok ⟨[⟨⟨"w", 0⟩, .simple ⟨.bitString, some 1⟩⟩]⟩ := by
      decide +kernel
    have hone : tokens "w ::= BITSTRING_1" =
        name ++ ⟨.bitString, "BITSTRING", 6⟩ :: ⟨.width, "_1", 15⟩ :: [] := by
      decide +kernel
    obtain ⟨-, -, hwidth, -⟩ := parse_numerals (d := "04294967296".toList) (by decide +kernel) ⟨0⟩
      "w ::= BITSTRING_04294967296" _ name []
    have hexact := hwidth ⟨.bitString, "BITSTRING", 6⟩ ⟨.width, "_04294967296", 15⟩
      (by decide +kernel) (by decide +kernel) (by decide) (by decide +kernel)
      (.of_parse (by decide +kernel) hone h)
    exact hexact.refused (by decide +kernel)
  · have h : (Schema.parse ⟨0⟩ "w ::= UINT").result =
        .ok ⟨[⟨⟨"w", 0⟩, .simple ⟨.uint, none⟩⟩]⟩ := by
      decide +kernel
    have hbare : tokens "w ::= UINT" = name ++ ⟨.uint, "UINT", 6⟩ :: [] := by
      decide +kernel
    obtain ⟨-, -, -, hdetached⟩ := parse_numerals (d := ['8']) (by decide) ⟨0⟩
      "w ::= UINT --8-- _8" _ name []
    exact hdetached ⟨.uint, "UINT", 6⟩ ⟨.width, "_8", 17⟩ (by decide +kernel) (by decide +kernel)
      (by decide) (.inr (by decide +kernel)) (.of_parse (by decide +kernel) hbare h)

end Schema

end RecordSchema
