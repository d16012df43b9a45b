import Mathlib.Logic.Relation
import RecordSchema.Proofs.Progress.Levels
import RecordSchema.Proofs.Tokenisation

/-!
# Reading ends

Whatever the text is, reading it comes to an end. Everything that is passed over between tokens has
a character, and so has every token, so that the stream of a text ends. A rule that is read has
taken a token, and so has every turn of a loop; what is left of levels and tokens gets less with
every rule that is opened and with every turn.

Results:
* `Scan.progresses`: what reading one lexeme takes, and that the stream of lexemes ends.
* `Parser.Runs.eq_around`, `Parser.Loop.runs`: which loops there are, and where they are run.
* `Parser.State.Closed.progresses`: what reading a rule and turning a loop take, and that neither
  goes on for ever.
* `Text.finishes`: the declarations of a text are read in no more turns than it has tokens.
* `Schema.parse_progresses`: all of that, for every text and every state.
-/

namespace RecordSchema

open Text

/-! ## Lexemes -/

/-- A blank or a comment at the front of a text is passed over. -/
inductive Skips : List Char → List Char → Prop
  | blank {c : Char} {rest : List Char} (hc : isBlank c = true) : Skips (c :: rest) rest
  | comment {c d : Char} {tail rest : List Char} (hc : isHyphen c = true)
      (hd : isHyphen d = true) (htail : Comment tail rest) : Skips (c :: d :: (tail ++ rest)) rest

/-- **What is passed over has a character.** -/
theorem Skips.shorter {cs rest : List Char} (h : Skips cs rest) : rest.length < cs.length := by
  cases h with
  | blank => exact Nat.lt_succ_self _
  | comment =>
    rw [List.length_cons, List.length_cons, List.length_append]
    omega

/-- A filler is passed over one blank or comment after the other. -/
theorem Filler.skips {skipped rest : List Char} (h : Filler skipped rest) :
    Relation.ReflTransGen Skips (skipped ++ rest) rest := by
  induction h with
  | nil => exact .refl
  | blank hc _ ih => exact ih.head (.blank hc)
  | @comment c d tail cs rest hc hd htail _ ih =>
    have hskips : Skips (c :: d :: (tail ++ cs) ++ rest) (cs ++ rest) := by
      rw [List.cons_append, List.cons_append, List.append_assoc]
      exact .comment hc hd htail
    exact ih.head hskips

/-- What reading lexemes takes, at a place in a text. -/
structure Scan.Progresses (s : Scan) : Prop where
  /-- Blanks and comments are passed over one by one, up to the token. -/
  passes : ∃ cs, Relation.ReflTransGen Skips s.rest cs ∧ ¬ OpensGap cs ∧
    cs = s.lexeme.1.token.text.toList ++ s.lexeme.2.rest
  /-- A token takes a character. -/
  takes : s.lexeme.1.token.kind ≠ .endOfInput →
    s.lexeme.1.token.text ≠ "" ∧ s.lexeme.2.rest.length < s.rest.length
  /-- The end of input is where nothing is left, and takes none. -/
  stays : s.lexeme.1.token.kind = .endOfInput →
    s.lexeme.1.token.text = "" ∧ s.lexeme.2.rest = []
  /-- The stream ends, behind no more tokens than characters. -/
  ends : ∃ ls, Lookahead.Yields s ls ∧ ls.map (·.token) = s.lexemes.tokens ∧
    ls.length ≤ s.rest.length
  /-- Behind them is the end of input, and it is not among them. -/
  closed : s.lexemes.Closed

namespace Scan

/-- **The stream of lexemes** has the tokens of a place, and ends. -/
theorem yields (s : Scan) :
    ∃ ls, Lookahead.Yields s ls ∧ ls.map (·.token) = s.lexemes.tokens := by
  by_cases hend : s.lexeme.1.token.kind = .endOfInput
  · refine ⟨[], .ended (if_pos hend), ?_⟩
    rw [lexemes_of_end hend]
    rfl
  · have hshort := lexeme_shorter hend
    obtain ⟨ls, hls, htokens⟩ := yields s.lexeme.2
    refine ⟨s.lexeme.1 :: ls, .item (if_neg hend) hls, ?_⟩
    rw [lexemes_of_token hend, Lexemes.tokens_cons, List.map_cons, htokens]
termination_by s.rest.length

/-- **Reading lexemes goes on and ends.** -/
theorem progresses (s : Scan) : s.Progresses := by
  obtain ⟨skipped, hrest, -, hfiller, hbegins⟩ := gap_fills s.offset s.rest
  obtain ⟨ls, hls, htokens⟩ := s.yields
  refine ⟨⟨_, ?_, hbegins, s.rest_of_gap⟩, fun hend => ⟨fun hempty => ?_, lexeme_shorter hend⟩,
    fun hend => ⟨(lexeme_end hend).1, ?_⟩, ⟨ls, hls, htokens, ?_⟩, s.lexemes_closed⟩
  · have hskips := hfiller.skips
    rwa [← hrest] at hskips
  · have hpos := lexeme_pos hend
    rw [Token.stop, Token.length, hempty] at hpos
    exact absurd hpos (Nat.lt_irrefl _)
  · have hnil := s.rest_of_gap
    rw [rest_of_end hend] at hnil
    exact (List.append_eq_nil_iff.mp hnil.symm).2
  · have hlength := congrArg List.length htokens
    rw [List.length_map] at hlength
    exact hlength ▸ s.length_tokens_le

end Scan

/-! ## Rules and loops -/

namespace Parser

variable {α : Type}

/-- The loops of the rules and that over the declarations: what tells whether to go on, and the
item. -/
inductive Loop : {α : Type} → Parser Bool → ((Rule → Parser Node) → List α → Parser α) → Prop
  | declarations : Loop moreTokens fun sub _ => descend sub .declaration
  | parameters : Loop moreParameters fun _ _ => parameter
  | fields : Loop (canStart .field) fun sub _ => descend sub .field
  | branches : Loop (canStart .branch) nextBranch
  | values : Loop moreValues fun sub _ => descend sub .operand
  | disjunction : Loop (accept .or) fun sub _ => descend sub .conjunction
  | conjunction : Loop (accept .and) fun sub _ => descend sub .term

namespace Loop

variable {more : Parser Bool} {item : (Rule → Parser Node) → List α → Parser α}

theorem composed (h : Loop more item) : Composed fun _ => more := by
  cases h with
  | declarations => exact .moreTokens
  | parameters => exact .moreParameters
  | fields => exact .canStart _
  | branches => exact .canStart _
  | values => exact .moreValues
  | disjunction => exact .accept _
  | conjunction => exact .accept _

/-- **An item of a loop** is not read without taking a token. -/
theorem taking (h : Loop more item) (before : List α) : Taking fun sub => item sub before := by
  cases h with
  | declarations => exact .descend _
  | parameters => exact .parameter
  | fields => exact .descend _
  | branches => exact .nextBranch before
  | values => exact .descend _
  | disjunction => exact .descend _
  | conjunction => exact .descend _

theorem built_more (h : Loop more item) : Built more :=
  h.composed.built (Built.readRule nestingLimit)

theorem built_item (h : Loop more item) (before : List α) : Built (item rule before) :=
  (h.taking before).composed.built (Built.readRule nestingLimit)

theorem consumes (h : Loop more item) (before : List α) : Consumes (item rule before) :=
  (h.taking before).consumes (Built.readRule nestingLimit) (consumes_readRule nestingLimit)

end Loop

/-- What a function for a rule does around its loop: what it reads in front of the items, and what
it makes of them behind. -/
structure Frame (α β : Type) where
  Front : Type
  front : (Rule → Parser Node) → Parser Front
  back : Front → List α → Parser β

namespace Frame

variable {β : Type}

/-- The loop between what is read in front of it and what is made of its items. -/
def around (frame : Frame α β) (loop : Parser (List α)) (sub : Rule → Parser Node) : Parser β := do
  let front ← frame.front sub
  let items ← loop
  frame.back front items

/-- Nothing but the loop. -/
def plain : Frame α (List α) := ⟨Unit, fun _ => pure (), fun _ => pure⟩

/-- A token in front of the items, and one behind them. -/
def between (opening closing : List TokenKind) : Frame α (List α) where
  Front := Token
  front _ := take opening
  back _ items := do
    let _ ← take closing
    return items

/-- What a choice is around its branches. -/
def choice : Frame Branch Body where
  Front := List Name
  front sub := do
    let _ ← take [.choice]
    let parameters : List Name ← descend sub .parameters
    let _ ← take [.leftCurly]
    return parameters
  back parameters branches := do
    let _ ← take (Rule.branch.first ++ [.rightCurly])
    if (defaultOffset? branches).isNone then
      let name ← declaring
      fail (.missingDefault name.text name.offset)
    else return .choice parameters branches

end Frame

/-- The functions that run a loop, each with what it does around it. -/
inductive Runs : {α β : Type} → ((Rule → Parser Node) → Parser β) → Parser Bool →
    ((Rule → Parser Node) → List α → Parser α) → Frame α β → Prop
  | parameters : Runs (fun _ => parameters) moreParameters (fun _ _ => parameter)
      (.between [.leftSquare] [.rightSquare])
  | fields : Runs fields (canStart .field) (fun sub _ => descend sub .field)
      (.between [.leftCurly] [.identifier, .rightCurly])
  | choice : Runs choice (canStart .branch) nextBranch .choice
  | values : Runs values moreValues (fun sub _ => descend sub .operand)
      (.between [.leftSquare] [.identifier, .number, .comma, .rightSquare])
  | disjunction : Runs disjunction (accept .or) (fun sub _ => descend sub .conjunction) .plain
  | conjunction : Runs conjunction (accept .and) (fun sub _ => descend sub .term) .plain

namespace Runs

variable {β : Type} {x : (Rule → Parser Node) → Parser β} {more : Parser Bool}
  {item : (Rule → Parser Node) → List α → Parser α} {frame : Frame α β}

theorem loop (h : Runs x more item frame) : Loop more item := by
  cases h with
  | parameters => exact .parameters
  | fields => exact .fields
  | choice => exact .branches
  | values => exact .values
  | disjunction => exact .disjunction
  | conjunction => exact .conjunction

/-- **A function that runs a loop** reads one item at least, in its frame. -/
theorem eq_around (h : Runs x more item frame) (sub : Rule → Parser Node) :
    x sub = frame.around (many1 more (item sub)) sub := by
  cases h with
  | parameters => rfl
  | fields => rfl
  | choice => simp only [Parser.choice, Frame.around, Frame.choice, bind_assoc, pure_bind]
  | values => rfl
  | disjunction => exact (bind_pure _).symm
  | conjunction => exact (bind_pure _).symm

end Runs

/-- Every loop but that over the declarations is run by a function for a rule. -/
theorem Loop.runs {more : Parser Bool} {item : (Rule → Parser Node) → List α → Parser α}
    (h : Loop more item) :
    more = moreTokens ∨ ∃ (β : Type) (x : (Rule → Parser Node) → Parser β) (frame : Frame α β),
      Runs x more item frame := by
  cases h with
  | declarations => exact .inl rfl
  | parameters => exact .inr ⟨_, _, _, .parameters⟩
  | fields => exact .inr ⟨_, _, _, .fields⟩
  | branches => exact .inr ⟨_, _, _, .choice⟩
  | values => exact .inr ⟨_, _, _, .values⟩
  | disjunction => exact .inr ⟨_, _, _, .disjunction⟩
  | conjunction => exact .inr ⟨_, _, _, .conjunction⟩

/-- A turn of a loop that does not leave it: `more` answers yes and an item is read. Where a loop
begins with an item, its turns are an item and the answer behind it. -/
inductive Turn (more : Parser Bool) (item : List α → Parser α) : State → State → Prop
  | asked {before : List α} {a : α} {s s₁ s' : State} (hm : more s = .ok true s₁)
      (hi : item before s₁ = .ok a s') : Turn more item s s'
  | asking {before : List α} {a : α} {s s₁ s' : State} (hi : item before s = .ok a s₁)
      (hm : more s₁ = .ok true s') : Turn more item s s'

/-- Tokens were taken, one of them at least and none of them the end of input, and less is left. -/
structure Moves (s s' : State) : Prop where
  taken : ∃ used, used ≠ [] ∧ (∀ t ∈ used, t.kind ≠ .endOfInput) ∧ Reads s used s'
  budget : s'.budget < s.budget

theorem Reads.moves {s s' : State} {used : List Token} (h : Reads s used s') (hs : s.Closed)
    (hne : used ≠ []) : Moves s s' := by
  refine ⟨⟨used, hne, fun t ht => hs.inner t ?_, h⟩, h.budget_lt hne⟩
  have hmem : t ∈ s.tokens := h.tokens ▸ List.mem_append_left _ ht
  exact hmem

/-- **A turn takes a token.** -/
theorem Turn.moves {more : Parser Bool} {item : (Rule → Parser Node) → List α → Parser α}
    {s s' : State} (h : Turn more (item rule) s s') (hloop : Loop more item) (hs : s.Closed) :
    Moves s s' := by
  cases h with
  | @asked before a _ s₁ _ hm hi =>
    obtain ⟨us, hus⟩ := hloop.built_more.reads_ok hs hm
    obtain ⟨ts, hne, hts⟩ := hloop.consumes before hus.closed hi
    exact (hus.trans hts).moves hs (List.append_ne_nil_of_right_ne_nil _ hne)
  | @asking before a _ s₁ _ hi hm =>
    obtain ⟨ts, hne, hts⟩ := hloop.consumes before hs hi
    obtain ⟨us, hus⟩ := hloop.built_more.reads_ok hts.closed hm
    exact (hts.trans hus).moves hs (List.append_ne_nil_of_left_ne_nil hne _)

/-- What reading rules and turning loops take, in a state. -/
structure State.Progresses (s : State) : Prop where
  /-- A rule takes tokens off the front, if any, whatever its outcome. -/
  forward : ∀ r, ∃ used, Reads s used (final (rule r s))
  /-- A rule that is read takes a token. -/
  consumes : ∀ r node s', rule r s = .ok node s' → Moves s s'
  /-- A rule that cannot begin, or has no level left, takes none. -/
  refused : ∀ r, r.canStart s.current.kind = false ∨ nestingLimit ≤ s.depth →
    ∃ fault s', rule r s = .error fault s' ∧ Reads s [] s'
  /-- A turn of a loop takes a token. -/
  turn : ∀ {α : Type} (more : Parser Bool) (item : (Rule → Parser Node) → List α → Parser α),
    Loop more item → ∀ s', Turn more (item rule) s s' → Moves s s'
  /-- A loop ends, in no more turns than tokens taken, and is not cut short by its bound. -/
  loop : ∀ {α : Type} (more : Parser Bool) (item : (Rule → Parser Node) → List α → Parser α),
    Loop more item → ∀ before, ∃ n r used, Unrolls more (item rule) before s n r ∧
      Reads s used (final r) ∧ n ≤ used.length ∧
      (tokensLeft >>= fun bound => manyWithin more (item rule) bound before) s = r
  /-- So does a loop that begins with an item. -/
  loop1 : ∀ {α : Type} (more : Parser Bool) (item : (Rule → Parser Node) → List α → Parser α),
    Loop more item → ∃ n r used, Unrolls1 more (item rule) s n r ∧ Reads s used (final r) ∧
      n ≤ used.length ∧ many1 more (item rule) s = r
  /-- Less is left where sub-rules are read. -/
  inner : ∀ s', Inner s' s → s'.budget < s.budget
  /-- A rule is read by the function for it, whatever reads sub-rules as `rule` does there. -/
  recursion : ∀ sub : Rule → Parser Node, (∀ r s', Inner s' s → sub r s' = rule r s') →
    ∀ r, rule r s = readWith sub r s
  /-- A rule is not cut short by the bound on the levels. -/
  levels : ∀ n, nestingLimit ≤ s.depth + n → ∀ r, readRule n r s = rule r s
  /-- What reads rules by itself gives what `rule` does. -/
  unique : ∀ read : Rule → Parser Node,
    (∀ s', s'.Closed → ∀ r, read r s' = readWith read r s') → ∀ r, read r s = rule r s

/-- The bound that a loop takes from the tokens ahead is above the number of its turns. -/
theorem Unrolls.bounded {more : Parser Bool} {item : List α → Parser α} {before : List α}
    {s : State} {n : Nat} {r : EStateM.Result Fault State (List α)} {used : List Token}
    (h : Unrolls more item before s n r) (hused : Reads s used (final r)) (hn : n ≤ used.length) :
    (tokensLeft >>= fun bound => manyWithin more item bound before) s = r := by
  have hlength := congrArg List.length hused.tokens
  rw [List.length_append] at hlength
  rw [bind_of_ok (tokensLeft_ok.mpr ⟨rfl, rfl⟩)]
  exact h.manyWithin_eq (by omega)

/-- **A loop that begins with an item** ends if one that goes on behind an item does. -/
theorem Loop.unrolls1 {more : Parser Bool} {item : (Rule → Parser Node) → List α → Parser α}
    (h : Loop more item) {s : State} (hs : s.Closed) :
    ∃ n r used, Unrolls1 more (item rule) s n r ∧ Reads s used (final r) ∧ n ≤ used.length ∧
      many1 more (item rule) s = r := by
  obtain ⟨us, hus⟩ := (h.built_item []).reads hs
  cases hitem : item rule [] s with
  | error f s₁ =>
    rw [hitem] at hus
    exact ⟨0, _, us, .refused hitem, hus, Nat.zero_le _, bind_of_error hitem⟩
  | ok a s₁ =>
    obtain ⟨us, hne, hus⟩ := h.consumes [] hs hitem
    obtain ⟨n, r, ts, hunrolls, hts, hn⟩ :=
      Unrolls.of_consumes h.built_more h.built_item h.consumes hus.closed [a]
    refine ⟨n + 1, r, us ++ ts, .item hitem hunrolls, hus.trans hts, ?_, ?_⟩
    · have hpos := List.length_pos_iff.mpr hne
      rw [List.length_append]
      omega
    · exact (bind_of_ok hitem).trans (hunrolls.bounded hts hn)

/-- **Reading rules goes on and ends.** -/
theorem State.Closed.progresses {s : State} (hs : s.Closed) : s.Progresses where
  forward r := (Built.readRule nestingLimit r).reads hs
  consumes r node s' hrun := by
    obtain ⟨used, hne, hused⟩ := consumes_readRule nestingLimit r hs hrun
    exact hused.moves hs hne
  refused r h := by
    obtain ⟨fault, hrun⟩ := readRule_of_refused (n := nestingLimit) (h.imp_right .inl)
    exact ⟨fault, _, hrun, (Takes.look hs).toReads⟩
  turn more item hloop s' h := h.moves hloop hs
  loop more item hloop before := by
    obtain ⟨n, r, used, hunrolls, hused, hn⟩ :=
      Unrolls.of_consumes hloop.built_more hloop.built_item hloop.consumes hs before
    exact ⟨n, r, used, hunrolls, hused, hn, hunrolls.bounded hused hn⟩
  loop1 more item hloop := hloop.unrolls1 hs
  inner s' h := h.budget_lt
  recursion sub hsub r := by
    rw [rule_eq hs]
    exact (readWith_congr (Built.readRule nestingLimit) hs hsub r).symm
  levels n hn r := readRule_levels n nestingLimit hs hn (Nat.le_add_left _ _) r
  unique read hread r := eq_rule (hread _) hs r

end Parser

/-! ## Texts -/

/-- The state that reading a text begins in. -/
def Text.start (source : SourceId) (text : String) : Parser.State :=
  { source, lexemes := (Scan.ofText text.toList).lexemes }

/-- The outcome of reading a text, by that of the loop over its declarations. -/
def Schema.result : EStateM.Result Fault Parser.State (List Declaration) → Except Fault Schema
  | .ok ds _ => .ok ⟨ds⟩
  | .error fault _ => .error fault

/-- What reading a text comes to. -/
structure Text.Finishes (source : SourceId) (text : String) : Prop where
  closed : (start source text).Closed
  /-- A text that is not normalized is not read. -/
  refused : isNormalized text.toList = false →
    Schema.parse source text = ⟨.error ⟨source, .notNormalized⟩, []⟩
  /-- Any other is read in no more turns than it has tokens. -/
  read : isNormalized text.toList = true →
    ∃ n r, Parser.Unrolls Parser.moreTokens (fun _ => Parser.descend Parser.rule .declaration) []
        (start source text) n r ∧
      n ≤ (tokens text).length ∧ (Schema.parse source text).result = Schema.result r

/-- **Reading a text ends.** -/
theorem Text.finishes (source : SourceId) (text : String) : Finishes source text := by
  have hclosed : (start source text).Closed := Scan.lexemes_closed (Scan.ofText text.toList)
  refine ⟨hclosed, Schema.parse_of_not_normalized, fun hnormal => ?_⟩
  obtain ⟨n, r, used, hunrolls, hused, hn, hrun⟩ :=
    hclosed.progresses.loop _ _ .declarations []
  refine ⟨n, r, hunrolls, ?_, ?_⟩
  · have hlength : (tokens text).length = _ := congrArg List.length hused.tokens
    rw [List.length_append] at hlength
    omega
  · rw [Schema.parse_of_normalized hnormal]
    cases r with
    | ok ds s => exact Parser.run_ok.mpr ⟨s, hrun⟩
    | error fault s => exact Parser.run_error.mpr ⟨s, hrun⟩

/-- **Reading goes on and ends**, whatever the text is. What is passed over between tokens has a
character. From every place in a text the lexemes come to an end, each of them but the last with a
character. The loops are those over the declarations and those that the functions for rules run.
From every state reading a rule goes forward, with a token unless it fails, and turns of loops take
a token each; levels and tokens that are left bound both. And so every text is read in no more turns
than it has tokens. -/
theorem Schema.parse_progresses (source : SourceId) (text : String) {s : Parser.State}
    (hs : s.Closed) :
    (∀ cs rest, Skips cs rest → rest.length < cs.length) ∧ (∀ scan : Scan, scan.Progresses) ∧
      (∀ {α β : Type} (x : (Rule → Parser Node) → Parser β) (more : Parser Bool)
        (item : (Rule → Parser Node) → List α → Parser α) (frame : Parser.Frame α β),
        Parser.Runs x more item frame → Parser.Loop more item ∧
          ∀ sub, x sub = frame.around (Parser.many1 more (item sub)) sub) ∧
      (∀ {α : Type} (more : Parser Bool) (item : (Rule → Parser Node) → List α → Parser α),
        Parser.Loop more item → more = Parser.moreTokens ∨
          ∃ (β : Type) (x : (Rule → Parser Node) → Parser β) (frame : Parser.Frame α β),
            Parser.Runs x more item frame) ∧
      s.Progresses ∧ Text.Finishes source text :=
  ⟨fun _ _ => Skips.shorter, Scan.progresses, fun _ _ _ _ h => ⟨h.loop, h.eq_around⟩,
    fun _ _ h => h.runs, hs.progresses, Text.finishes source text⟩

/-- A text of two declarations, the second one cut off behind an open comment. -/
theorem Schema.parse_progresses_unclosed :
    ∃ text s, text = "a ::= BOOL b ::= CHOICE[n] \x7b BOOL ((n == 1 --" ∧ s = Text.start ⟨0⟩ text ∧
      s.Closed ∧ (∀ cs rest, Skips cs rest → rest.length < cs.length) ∧
      (∀ scan : Scan, scan.Progresses) ∧
      (∀ sub, Parser.conjunction sub = Parser.Frame.plain.around
        (Parser.many1 (Parser.accept .and) fun _ => Parser.descend sub .term) sub) ∧
      s.Progresses ∧ Text.Finishes ⟨0⟩ text ∧
      (Text.tokens text).length = 16 ∧
      (Schema.parse ⟨0⟩ text).result = .error
        ⟨⟨0⟩, .unexpectedToken [.and, .or, .rightParen] .endOfInput 45 0⟩ := by
  have hclosed : (Text.start ⟨0⟩ "a ::= BOOL b ::= CHOICE[n] \x7b BOOL ((n == 1 --").Closed :=
    Scan.lexemes_closed _
  obtain ⟨hskips, hscans, hruns, -, hprogresses, hfinishes⟩ :=
    Schema.parse_progresses ⟨0⟩ _ hclosed
  exact ⟨_, _, rfl, rfl, hclosed, hskips, hscans, (hruns _ _ _ _ .conjunction).2, hprogresses,
    hfinishes, by decide +kernel, by decide +kernel⟩

end RecordSchema
