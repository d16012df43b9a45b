import RecordSchema.Proofs.Depth
import RecordSchema.Proofs.Nesting.Refusal
import RecordSchema.Proofs.Refusal

/-!
# The nesting limit

The limit is on the rules that are open at once, and the depth of a state counts exactly these. For
the reader of a text it is a limit on the parentheses in conditions: those of a text that meets
every other rule may be nested 82 deep and no deeper. A text that nests them deeper is refused at
the first parenthesis of the level behind; the one around the condition is counted too, so that
this is where the level becomes 84.

Results:
* `Schema.parse_nested`: a text that nests deeper.
* `Schema.parse_nesting`: the limit and the depth, for every text and every run.
-/

namespace RecordSchema

/-! ## Texts that nest too deep -/

namespace Parser

/-- A run on lexemes that spell a schema with a condition nested too deep ends at the overflow. -/
theorem run_nested {source : SourceId} {lexemes : Lexemes} {p : Schema} (hclosed : lexemes.Closed)
    (h : p.SpelledBy lexemes.tokens) (hwf : p.ungrouped.WellFormed)
    (hdeep : ¬ ∀ c ∈ p.conditions, c.nesting ≤ Condition.nestingLimit) :
    ∃ v, Overflow (Condition.nestingLimit + 2) lexemes.tokens v ∧
      (run source lexemes).result = .error ⟨source, .nestedTooDeep v.offset⟩ := by
  have hready : Ready nestingLimit { source, lexemes } := ⟨hclosed, Nat.zero_add _⟩
  have hbad : ¬ ∀ d ∈ p.declarations, ∀ c ∈ d.body.conditions,
      c.nesting ≤ Condition.nestingLimit := by
    refine fun hall => hdeep fun c hc => ?_
    obtain ⟨d, hd, hc⟩ := List.mem_flatMap.mp hc
    exact hall d hd c hc
  obtain ⟨⟨fsource, cause⟩, s', v, hrun, rfl, hv⟩ := declarations_overrun hready rfl h hwf hbad
  have herror := run_error.mpr ⟨s', hrun⟩
  obtain ⟨rfl, -⟩ := Finished.slip_of_error hclosed herror
  exact ⟨v, hv, herror⟩

end Parser

namespace Schema

variable {source : SourceId} {text : String} {p : Schema}

/-- **A text whose conditions nest too deep** and that meets every other rule is refused at the
overflow of its tokens. -/
theorem parse_nested (hnormal : Text.isNormalized text.toList = true)
    (h : p.SpelledBy (Text.tokens text)) (hwf : p.ungrouped.WellFormed)
    (hdeep : ¬ ∀ c ∈ p.conditions, c.nesting ≤ Condition.nestingLimit) :
    ∃ v, Overflow (Condition.nestingLimit + 2) (Text.tokens text) v ∧
      (Schema.parse source text).result = .error ⟨source, .nestedTooDeep v.offset⟩ := by
  rw [Schema.parse_of_normalized hnormal]
  exact Parser.run_nested (Scan.lexemes_closed _) h hwf hdeep

/-- **The nesting limit is exact and the depth balanced.**

Of any lexemes, every run of the parser is a sequence of moments, at each of which the depth is the
number of open rules and within the limit; it is zero behind every declaration. Reading a rule
leaves the depth as it was, whatever the outcome.

A text that spells a schema which is well-formed but for the nesting of its conditions is read if
none of these is nested deeper than the limit. Otherwise it is refused, at the one token that
`Overflow` tells. -/
theorem parse_nesting :
    (∀ (source : SourceId) (lexemes : Lexemes),
      (∃ ms, Parser.Trace Parser.declarations { source, lexemes } ms) ∧
      (∀ ms, Parser.Trace Parser.declarations { source, lexemes } ms → ∀ m ∈ ms,
        m.state.depth = m.opened.length ∧ m.state.depth ≤ Parser.nestingLimit) ∧
      ∀ ds s, Parser.Finished source lexemes ds s → s.depth = 0) ∧
    (∀ (n : Nat) (rule : Rule) (s : Parser.State),
      (Parser.final (Parser.readRule n rule s)).depth = s.depth) ∧
    ∀ (source : SourceId) (text : String) (p : Schema),
      Text.isNormalized text.toList = true → p.SpelledBy (Text.tokens text) →
      p.ungrouped.WellFormed →
      ((Schema.parse source text).result = .ok p ↔
        ∀ c ∈ p.conditions, c.nesting ≤ Condition.nestingLimit) ∧
      ((¬ ∀ c ∈ p.conditions, c.nesting ≤ Condition.nestingLimit) →
        (∃ v, Overflow (Condition.nestingLimit + 2) (Text.tokens text) v) ∧
        ∀ v, Overflow (Condition.nestingLimit + 2) (Text.tokens text) v →
          (Schema.parse source text).result = .error ⟨source, .nestedTooDeep v.offset⟩) := by
  refine ⟨fun source lexemes => ⟨Parser.Built.declarations.trace _, fun ms hms m hm => ?_,
    fun ds s h => h.depth_eq⟩, Parser.depth_readRule, fun source text p hnormal h hwf => ⟨?_, ?_⟩⟩
  · have hbalanced := hms.balanced
    exact ⟨(hbalanced.counted m hm).trans (Nat.zero_add _),
      hbalanced.bounded (Nat.zero_le _) m hm⟩
  · rw [Schema.parse_ok_iff, Schema.wellFormed_iff]
    exact ⟨fun hok => hok.2.2.2, fun hshallow => ⟨hnormal, h, hwf, hshallow⟩⟩
  · intro hdeep
    obtain ⟨v, hv, hresult⟩ := parse_nested hnormal h hwf hdeep
    exact ⟨⟨v, hv⟩, fun w hw => Overflow.unique hv hw ▸ hresult⟩

end Schema

/-! ## A text with one pair of parentheses too many -/

/-- A disjunction in so many pairs of parentheses. -/
def Disjunction.wrapped (d : Disjunction) : Nat → Disjunction
  | 0 => d
  | n + 1 => [[.group (d.wrapped n)]]

/-- Tokens with pairs of parentheses around them, the pair of number 0 inside. -/
def enclosing (opening closing : Nat → Token) (ts : List Token) : Nat → List Token
  | 0 => ts
  | n + 1 => opening n :: (enclosing opening closing ts n ++ [closing n])

theorem Disjunction.spelledBy_wrapped {d : Disjunction} {ts : List Token}
    {opening closing : Nat → Token} (h : Disjunction.SpelledBy d ts)
    (ho : ∀ i, (opening i).kind = .leftParen) (hc : ∀ i, (closing i).kind = .rightParen) :
    ∀ n, Disjunction.SpelledBy (d.wrapped n) (enclosing opening closing ts n)
  | 0 => h
  | n + 1 => .of_single (.of_single (.group (ho n) (spelledBy_wrapped h ho hc n) (hc n)))

/-- A condition in 83 pairs of parentheses is refused at the operand inside them. -/
theorem Schema.parse_nesting_wrapped :
    ∃ (text : String) (p : Schema), Text.isNormalized text.toList = true ∧
      p.SpelledBy (Text.tokens text) ∧ p.ungrouped.WellFormed ∧
      p.conditions.map (·.nesting) = [83, 0] ∧
      (Schema.parse ⟨0⟩ text).result = .error ⟨⟨0⟩, .nestedTooDeep 108⟩ := by
  let text : String := "A ::= CHOICE [x] \x7b BOOL (" ++
    "(((((((((((((((((((((((((((((((((((((((((((((((((((((((((((((((((((((((((((((((((((" ++
    "x == 1" ++
    ")))))))))))))))))))))))))))))))))))))))))))))))))))))))))))))))))))))))))))))))))))" ++
    ") BOOL (DEFAULT) \x7d"
  let core : Disjunction := [[.comparison (.name ⟨"x", 108⟩) .equal (.integer 1)]]
  let type (i : Nat) : Reference := ⟨⟨"BOOL", i⟩, .builtin ⟨.bool, none⟩, none⟩
  let p : Schema := ⟨[⟨⟨"A", 0⟩, .choice [⟨"x", 14⟩]
    [⟨type 19, .expression (core.wrapped 83)⟩, ⟨type 199, .default⟩]⟩]⟩
  have hname (x : String) (i : Nat) : Name.SpelledBy ⟨x, i⟩ [⟨.identifier, x, i⟩] :=
    .mk (t := ⟨.identifier, x, i⟩) rfl
  have htype (i : Nat) : (type i).SpelledBy [⟨.bool, "BOOL", i⟩] :=
    .builtin (k := ⟨.bool, "BOOL", i⟩) (.bare (b := .bool) rfl) .none
  have hcore : Disjunction.SpelledBy core
      [⟨.identifier, "x", 108⟩, ⟨.equal, "==", 110⟩, ⟨.number, "1", 113⟩] :=
    .of_single (.of_single (.comparison (s := ⟨.equal, "==", 110⟩) (.name (hname "x" 108)) rfl
      (.integer (t := ⟨.number, "1", 113⟩) rfl)))
  let opening (i : Nat) : Token := ⟨.leftParen, "(", 107 - i⟩
  let closing (i : Nat) : Token := ⟨.rightParen, ")", 114 + i⟩
  have hwrapped : Disjunction.SpelledBy (core.wrapped 83) (enclosing opening closing _ 83) :=
    Disjunction.spelledBy_wrapped hcore (fun _ => rfl) (fun _ => rfl) 83
  have hfirst := Branch.SpelledBy.mk (htype 19) (Enclosed.mk (o := ⟨.leftParen, "(", 24⟩)
    (c := ⟨.rightParen, ")", 197⟩) rfl (Condition.SpelledBy.expression hwrapped) rfl)
  have hsecond := Branch.SpelledBy.mk (htype 199) (Enclosed.mk (o := ⟨.leftParen, "(", 204⟩)
    (c := ⟨.rightParen, ")", 212⟩) rfl
    (Condition.SpelledBy.default (t := ⟨.default, "DEFAULT", 205⟩) rfl) rfl)
  have hparameters : Bracketed Name.SpelledBy [⟨"x", 14⟩]
      [⟨.leftSquare, "[", 13⟩, ⟨.identifier, "x", 14⟩, ⟨.rightSquare, "]", 15⟩] :=
    Enclosed.mk (o := ⟨.leftSquare, "[", 13⟩) (c := ⟨.rightSquare, "]", 15⟩) rfl
      (Listed.of_single (hname "x" 14)) rfl
  have hnothing : nothing [] := rfl
  have hbranches := Enclosed.mk (o := ⟨.leftCurly, "\x7b", 17⟩) (c := ⟨.rightCurly, "\x7d", 214⟩)
    rfl (Listed.mk hfirst (.cons hnothing hsecond .nil)) rfl
  have hchoice := Declaration.SpelledBy.mk (a := ⟨.assignment, "::=", 2⟩) (hname "A" 0) rfl
    (Body.SpelledBy.choice (k := ⟨.choice, "CHOICE", 6⟩) rfl hparameters hbranches)
  -- the tokens of the text are computed once
  let ts : List Token :=
    [⟨.identifier, "A", 0⟩, ⟨.assignment, "::=", 2⟩, ⟨.choice, "CHOICE", 6⟩,
      ⟨.leftSquare, "[", 13⟩, ⟨.identifier, "x", 14⟩, ⟨.rightSquare, "]", 15⟩,
      ⟨.leftCurly, "\x7b", 17⟩, ⟨.bool, "BOOL", 19⟩, ⟨.leftParen, "(", 24⟩] ++
    enclosing opening closing
      [⟨.identifier, "x", 108⟩, ⟨.equal, "==", 110⟩, ⟨.number, "1", 113⟩] 83 ++
    [⟨.rightParen, ")", 197⟩, ⟨.bool, "BOOL", 199⟩, ⟨.leftParen, "(", 204⟩,
      ⟨.default, "DEFAULT", 205⟩, ⟨.rightParen, ")", 212⟩, ⟨.rightCurly, "\x7d", 214⟩]
  have htokens : Text.tokens text = ts := by decide +kernel
  have hspelled : p.SpelledBy (Text.tokens text) := by
    rw [htokens]
    refine cast (congrArg (Schema.SpelledBy _) ?_) (Trail.cons hnothing hchoice .nil)
    decide +kernel
  have hoverflow : Overflow (Condition.nestingLimit + 2) (Text.tokens text)
      ⟨.identifier, "x", 108⟩ := by
    have hlow : ∀ q ∈ (ts.take 91).inits, level q ≤ 83 := by decide +kernel
    rw [htokens]
    exact ⟨ts.take 91, ⟨.leftParen, "(", 107⟩, ts.drop 92, by decide +kernel, rfl,
      by decide +kernel, fun q hq => hlow q ((List.mem_inits _ _).mpr hq),
      .inl ⟨ts.drop 93, by decide +kernel, by decide⟩⟩
  have hnormal : Text.isNormalized text.toList = true := by decide +kernel
  have hwf : p.ungrouped.WellFormed := by decide +kernel
  have hdeep : ¬ ∀ c ∈ p.conditions, c.nesting ≤ Condition.nestingLimit := by decide +kernel
  have hresult := (parse_nesting.2.2 ⟨0⟩ text p hnormal hspelled hwf).2 hdeep
  exact ⟨text, p, hnormal, hspelled, hwf, by decide +kernel, hresult.2 _ hoverflow⟩

end RecordSchema
