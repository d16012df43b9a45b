import RecordSchema.Proofs.Steps
import RecordSchema.Proofs.Tokenisation

/-!
# Cursors as positions

A cursor holds a token back once it was looked at, and scans further only when it has to. None of
that can be told from what it answers: a cursor is a position in the fixed list of the tokens of its
text, whatever it is asked for, in whatever order, and however many copies of it are kept and gone
back to. That a parser given a copy reads the tokens from the position on is told by the tokens
alone, since neither the comments between them nor the log matter to what is read.

Results:
* `Parser.run_of_stream`: what is read depends on nothing but the tokens.
* `Cursor.Track.call_eq`: one call of a cursor answers as the position does, and keeps to it.
* `Cursor.ofText_answers`: any calls, one after the other, answer as the position does.
-/

namespace RecordSchema

/-! ## What is read from tokens -/

/-- Moving on takes the first of the tokens up to the end of input, unless it is the last one. -/
theorem Lexemes.stream_advance (ls : Lexemes) :
    ls.advance.stream = if ls.stream.tail = [] then ls.stream else ls.stream.tail := by
  obtain ⟨current, later⟩ := ls
  cases later with
  | nil => rfl
  | cons l later => rfl

namespace Parser

open State

variable {α β : Type} {s s' : State}

/-- The states are the same but for the log and for the comments between the tokens ahead. -/
structure State.Matches (s s' : State) : Prop where
  stream : s'.stream = s.stream
  source : s'.source = s.source
  scope : s'.scope = s.scope
  types : s'.types = s.types
  declaring : s'.declaring = s.declaring
  depth : s'.depth = s.depth

namespace State.Matches

theorem current (h : s.Matches s') : s'.current = s.current := (List.cons.inj h.stream).1

theorem names (h : s.Matches s') : s'.names = s.names := by
  rw [State.names, State.names, h.scope, h.types, h.declaring]

theorem withNames (h : s.Matches s') (ns : Names) : (s.withNames ns).Matches (s'.withNames ns) :=
  ⟨h.stream, h.source, rfl, rfl, rfl, h.depth⟩

theorem passComments (h : s.Matches s') : s.passComments.Matches s'.passComments :=
  ⟨by rw [stream_passComments, stream_passComments, h.stream], h.source, h.scope, h.types,
    h.declaring, h.depth⟩

theorem advance (h : s.Matches s') : s.advance.Matches s'.advance := by
  refine ⟨?_, h.source, h.scope, h.types, h.declaring, h.depth⟩
  have hstream : s'.lexemes.stream = s.lexemes.stream := h.stream
  show s'.lexemes.advance.stream = s.lexemes.advance.stream
  rw [Lexemes.stream_advance, Lexemes.stream_advance, hstream]

theorem opened (h : s.Matches s') (rule : Rule) : (s.opened rule).Matches (s'.opened rule) :=
  ⟨h.passComments.stream, h.source, h.scope, h.types, h.declaring, congrArg (· + 1) h.depth⟩

theorem closed (h : s.Matches s') : s.closed.Matches s'.closed :=
  ⟨h.stream, h.source, h.scope, h.types, h.declaring, congrArg (· - 1) h.depth⟩

theorem unexpected (h : s.Matches s') (kinds : List TokenKind) :
    s'.unexpected kinds = s.unexpected kinds := by
  rw [State.unexpected, State.unexpected, h.current, h.source]

theorem tooDeep (h : s.Matches s') : s'.tooDeep = s.tooDeep := by
  rw [State.tooDeep, State.tooDeep, h.current, h.source]

end State.Matches

/-- The same result or the same fault, in states that match. -/
inductive Matching : EStateM.Result Fault State α → EStateM.Result Fault State α → Prop
  | ok {a : α} {s s' : State} (h : s.Matches s') : Matching (.ok a s) (.ok a s')
  | error {fault : Fault} {s s' : State} (h : s.Matches s') :
      Matching (.error fault s) (.error fault s')

/-- From states that match, the parser has outcomes that do. -/
def Tokenwise (x : Parser α) : Prop := ∀ s s', s.Matches s' → Matching (x s) (x s')

theorem Tokenwise.fail (cause : Cause) : Tokenwise (fail cause : Parser α) := by
  intro s s' hs
  unfold Parser.fail
  rw [hs.source]
  exact .error hs

/-- What deals with names alone is told nothing by the comments. -/
theorem Nominal.tokenwise {x : Parser α} (h : Nominal x) : Tokenwise x := by
  intro s s' hs
  rcases h.outcome s with ⟨a, ns, hrun⟩ | ⟨cause, -, hrun⟩
  · rw [hrun s rfl, hrun s' hs.names]
    exact .ok (hs.withNames ns)
  · rw [hrun s rfl, hrun s' hs.names]
    exact Tokenwise.fail cause s s' hs

theorem Step.tokenwise {x : Parser α} (h : Step x) : Tokenwise x := by
  intro s s' hs
  cases h with
  | pure a => exact .ok hs
  | look =>
    show Matching (.ok s.current s.passComments) (.ok s'.current s'.passComments)
    rw [hs.current]
    exact .ok hs.passComments
  | advance => exact .ok hs.advance
  | record event => exact .ok ⟨hs.stream, hs.source, hs.scope, hs.types, hs.declaring, hs.depth⟩
  | unexpected kinds =>
    show Matching (.error (s.unexpected kinds) s.passComments)
      (.error (s'.unexpected kinds) s'.passComments)
    rw [hs.unexpected]
    exact .error hs.passComments
  | fail => exact Tokenwise.fail _ s s' hs
  | tokensLeft =>
    have hlength := congrArg List.length hs.stream
    simp only [State.stream, Lexemes.stream, Lexemes.toList, List.length_map,
      List.length_cons] at hlength
    unfold Parser.tokensLeft
    rw [hlength]
    exact .ok hs
  | declareName n => exact (Nominal.declareName n).tokenwise s s' hs
  | resolveName n => exact (Nominal.resolveName n).tokenwise s s' hs
  | resolveType n => exact (Nominal.resolveType n).tokenwise s s' hs
  | ensureFree n => exact (Nominal.ensureFree n).tokenwise s s' hs
  | declareType n count => exact (Nominal.declareType n count).tokenwise s s' hs
  | openDeclaration n => exact (Nominal.openDeclaration n).tokenwise s s' hs
  | closeDeclaration => exact Nominal.closeDeclaration.tokenwise s s' hs
  | declaring => exact Nominal.declaring.tokenwise s s' hs

theorem Tokenwise.bind {x : Parser α} {g : α → Parser β} (hx : Tokenwise x)
    (hg : ∀ a, Tokenwise (g a)) : Tokenwise (x >>= g) := by
  intro s s' hs
  have hrun := hx s s' hs
  show Matching (EStateM.bind x g s) (EStateM.bind x g s')
  unfold EStateM.bind
  generalize x s = r at hrun ⊢
  generalize x s' = r' at hrun ⊢
  cases hrun with
  | ok hs => exact hg _ _ _ hs
  | error hs => exact .error hs

/-- A rule is refused for the same reason, or run with one more rule open. -/
theorem Tokenwise.readRule {n : Nat} {rule : Rule}
    (h : ∀ m, n = m + 1 → Tokenwise (build (readRule m) rule)) : Tokenwise (readRule n rule) := by
  intro s s' hs
  cases hstart : rule.canStart s.current.kind with
  | false =>
    rw [readRule_of_not hstart, readRule_of_not (hs.current ▸ hstart), hs.unexpected]
    exact .error hs.passComments
  | true =>
    by_cases hdeep : nestingLimit ≤ s.depth ∨ n = 0
    · have hdeep' : nestingLimit ≤ s'.depth ∨ n = 0 := hs.depth ▸ hdeep
      rw [readRule_of_deep hstart hdeep, readRule_of_deep (hs.current ▸ hstart) hdeep', hs.tooDeep]
      exact .error hs.passComments
    · obtain ⟨hless, hn⟩ := not_or.mp hdeep
      obtain ⟨m, rfl⟩ := Nat.exists_eq_succ_of_ne_zero hn
      have hless := Nat.lt_of_not_le hless
      have hrun := h m rfl _ _ (hs.opened rule)
      rw [readRule_of_level hstart hless,
        readRule_of_level (hs.current ▸ hstart) (hs.depth ▸ hless)]
      generalize build (Parser.readRule m) rule (s.opened rule) = r at hrun ⊢
      generalize build (Parser.readRule m) rule (s'.opened rule) = r' at hrun ⊢
      cases hrun with
      | ok hs => exact .ok hs.closed
      | error hs => exact .error hs.closed

/-- **What is built from steps** reads the tokens alone. -/
theorem Built.tokenwise {x : Parser α} (h : Built x) : Tokenwise x := by
  induction h with
  | step h => exact h.tokenwise
  | bind _ _ hx hg => exact hx.bind hg
  | readZero rule => exact Tokenwise.readRule nofun
  | readSucc _ ih => exact Tokenwise.readRule fun m hm => by cases hm; exact ih

/-- **What is read depends on nothing but the tokens**, comments between them being no matter. -/
theorem run_of_stream {source : SourceId} {ls ls' : Lexemes} (h : ls'.stream = ls.stream) :
    (run source ls').result = (run source ls).result := by
  have hrun := Built.declarations.tokenwise { source, lexemes := ls } { source, lexemes := ls' }
    ⟨h, rfl, rfl, rfl, rfl, rfl⟩
  unfold run schema
  generalize declarations { source, lexemes := ls } = r at hrun ⊢
  generalize declarations { source, lexemes := ls' } = r' at hrun ⊢
  cases hrun <;> rfl

end Parser

/-! ## Calls -/

namespace Cursor

/-- What a cursor can be asked for. `save` keeps a copy, `restore n` goes on with the copy that `n`
others were kept before, and `parse` reads a schema with a copy. -/
inductive Call where
  | peek
  | next
  | isAtEnd
  | offset
  | save
  | restore (n : Nat)
  | parse
deriving DecidableEq, Repr

/-- What a call answers. -/
inductive Answer where
  | token (t : Token)
  | atEnd (b : Bool)
  | offset (n : Nat)
  | schema (result : Except Fault Schema)
  | none
deriving DecidableEq

/-- The answers to calls made one after the other. -/
def answers {σ : Type} (call : Call → σ → Answer × σ) : List Call → σ → List Answer
  | [], _ => []
  | c :: calls, s => (call c s).1 :: answers call calls (call c s).2

/-- A cursor and the copies of it that were kept, oldest first. -/
structure Use where
  cursor : Cursor
  saved : List Cursor

/-- A call of a cursor. -/
def Use.call : Call → Use → Answer × Use
  | .peek, u => (.token u.cursor.peek.1, { u with cursor := u.cursor.peek.2 })
  | .next, u => (.token u.cursor.next.1, { u with cursor := u.cursor.next.2 })
  | .isAtEnd, u => (.atEnd u.cursor.isAtEnd.1, { u with cursor := u.cursor.isAtEnd.2 })
  | .offset, u => (.offset u.cursor.offset.1, { u with cursor := u.cursor.offset.2 })
  | .save, u => (.none, { u with saved := u.saved ++ [u.cursor] })
  | .restore n, u => (.none, { u with cursor := u.saved[n]?.getD u.cursor })
  | .parse, u => (.schema u.cursor.parse.result, u)

/-! ## Positions -/

/-- Tokens without comments between them, and the one behind them. -/
def bare (ts : List Token) (last : Token) : Lexemes :=
  ts.foldr (fun t ls => .cons ⟨[], t⟩ ls) ⟨⟨[], last⟩, []⟩

/-- A fixed list of tokens, and the one behind them. -/
structure Track where
  source : SourceId
  tokens : List Token
  last : Token

/-- A position among tokens and the positions that were kept, oldest first. -/
structure Place where
  position : Nat
  saved : List Nat

namespace Track

variable (k : Track)

/-- The token at a position. -/
def token (i : Nat) : Token := k.tokens[i]?.getD k.last

/-- A call of a position. It moves on up to the last token, and what is read is what the tokens from
the position on give. -/
def call : Call → Place → Answer × Place
  | .peek, p => (.token (k.token p.position), p)
  | .next, p => (.token (k.token p.position),
      { p with position := min (p.position + 1) k.tokens.length })
  | .isAtEnd, p => (.atEnd ((k.token p.position).kind == .endOfInput), p)
  | .offset, p => (.offset (k.token p.position).offset, p)
  | .save, p => (.none, { p with saved := p.saved ++ [p.position] })
  | .restore n, p => (.none, { p with position := p.saved[n]?.getD p.position })
  | .parse, p =>
    (.schema (Parser.run k.source (bare (k.tokens.drop p.position) k.last)).result, p)

/-- The cursor is at a position. -/
structure At (c : Cursor) (i : Nat) : Prop where
  source : c.source = k.source
  stream : c.remaining.stream = k.tokens.drop i ++ [k.last]
  le : i ≤ k.tokens.length

/-- The cursor is at the position, and its copies are at the positions kept. -/
structure Keeps (u : Use) (p : Place) : Prop where
  cursor : k.At u.cursor p.position
  saved : List.Forall₂ k.At u.saved p.saved

end Track

theorem stream_bare (ts : List Token) (last : Token) : (bare ts last).stream = ts ++ [last] := by
  induction ts with
  | nil => rfl
  | cons t ts ih => exact congrArg (t :: ·) ih

/-- A cursor on a text begins with the first of its lexemes. -/
theorem remaining_of_ofText {source : SourceId} {text : String} {c : Cursor}
    (h : Cursor.ofText source text = .ok c) :
    c.source = source ∧ c.remaining = (Scan.ofText text.toList).lexemes := by
  unfold Cursor.ofText at h
  split at h
  · obtain rfl := Except.ok.inj h
    exact ⟨rfl, rfl⟩
  · cases h

/-- Looking at a token shows the current one, and leaves the lexemes ahead as they are. -/
theorem peek_eq (c : Cursor) : c.peek.1 = c.remaining.current.token ∧
    c.peek.2.remaining = c.remaining ∧ c.peek.2.source = c.source := by
  obtain ⟨source, held, scan⟩ := c
  cases held with
  | cons l held => simp [peek, Lookahead.peek, Lookahead.draw, tokenOr, remaining, Lexemes.cons]
  | nil =>
    by_cases hend : scan.lexeme.1.token.kind = .endOfInput
    · simp [peek, Lookahead.peek, Lookahead.draw, Std.Stream.next?, hend, tokenOr, remaining,
        Scan.lexemes_of_end hend]
    · simp [peek, Lookahead.peek, Lookahead.draw, Std.Stream.next?, hend, tokenOr, remaining,
        Scan.lexemes_of_token hend, Lexemes.cons]

namespace Track

variable {k : Track} {c : Cursor} {i : Nat} {u : Use} {p : Place}

theorem At.current (h : k.At c i) : c.remaining.current.token = k.token i := by
  have hhead : some c.remaining.current.token = (k.tokens.drop i ++ [k.last]).head? :=
    congrArg List.head? h.stream
  rw [List.head?_append, List.head?_drop] at hhead
  unfold token
  cases hi : k.tokens[i]? with
  | none => simpa [hi] using hhead
  | some t => simpa [hi] using hhead

theorem At.peek (h : k.At c i) : c.peek.1 = k.token i ∧ k.At c.peek.2 i := by
  obtain ⟨htoken, hremaining, hsource⟩ := c.peek_eq
  exact ⟨htoken.trans h.current, hsource.trans h.source, hremaining ▸ h.stream, h.le⟩

theorem At.next (h : k.At c i) :
    c.next.1 = k.token i ∧ k.At c.next.2 (min (i + 1) k.tokens.length) := by
  obtain ⟨htoken, hremaining⟩ := c.next_eq
  refine ⟨htoken.trans h.current, h.source, ?_, Nat.min_le_right _ _⟩
  rw [hremaining, Lexemes.stream_advance, h.stream]
  rcases Nat.lt_or_eq_of_le h.le with hlt | rfl
  · rw [Nat.min_eq_left hlt, List.drop_eq_getElem_cons hlt, List.cons_append, List.tail_cons,
      if_neg (by simp)]
  · simp

theorem At.parse (h : k.At c i) :
    c.parse.result = (Parser.run k.source (bare (k.tokens.drop i) k.last)).result := by
  rw [Cursor.parse, h.source]
  exact Parser.run_of_stream (h.stream.trans (stream_bare _ _).symm)

/-- **A call of a cursor** answers as the position does, and both keep to each other. -/
theorem call_eq (h : k.Keeps u p) (call : Call) :
    (u.call call).1 = (k.call call p).1 ∧ k.Keeps (u.call call).2 (k.call call p).2 := by
  obtain ⟨htoken, hpeek⟩ := h.cursor.peek
  cases call with
  | peek => exact ⟨congrArg _ htoken, hpeek, h.saved⟩
  | next =>
    obtain ⟨htoken, hnext⟩ := h.cursor.next
    exact ⟨congrArg _ htoken, hnext, h.saved⟩
  | isAtEnd =>
    refine ⟨?_, hpeek, h.saved⟩
    show Answer.atEnd (u.cursor.peek.1.kind == .endOfInput) = _
    rw [htoken]
    rfl
  | offset =>
    refine ⟨?_, hpeek, h.saved⟩
    show Answer.offset u.cursor.peek.1.offset = _
    rw [htoken]
    rfl
  | save => exact ⟨rfl, h.cursor, List.rel_append h.saved (.cons h.cursor .nil)⟩
  | restore n =>
    refine ⟨rfl, ?_, h.saved⟩
    obtain ⟨hlength, hsaved⟩ := List.forall₂_iff_get.mp h.saved
    show k.At (u.saved[n]?.getD u.cursor) (p.saved[n]?.getD p.position)
    by_cases hn : n < p.saved.length
    · rw [List.getElem?_eq_getElem hn, List.getElem?_eq_getElem (hlength ▸ hn)]
      exact hsaved n (hlength ▸ hn) hn
    · rw [List.getElem?_eq_none (Nat.le_of_not_lt hn),
        List.getElem?_eq_none (hlength ▸ Nat.le_of_not_lt hn)]
      exact h.cursor
  | parse => exact ⟨congrArg _ h.cursor.parse, h⟩

/-- **Calls one after the other** answer as the position does. -/
theorem answers_eq (h : k.Keeps u p) (calls : List Call) :
    answers Use.call calls u = answers k.call calls p := by
  induction calls generalizing u p with
  | nil => rfl
  | cons call calls ih =>
    obtain ⟨hanswer, hkeeps⟩ := call_eq h call
    rw [answers, answers, hanswer, ih hkeeps]

end Track

/-- **A cursor is a position in a fixed list of tokens.** The tokens of a normalized text end with
the end of input, which is none of the others. Whatever a cursor on the text is asked for, in any
order, and whatever copies are kept and gone back to, it answers as the position does that begins at
the first token: it shows the token there, moves on by one and stays on the end of input, a copy
goes on where it was kept, and a parser reads the tokens from there on. -/
theorem ofText_answers {source : SourceId} {text : String} {c : Cursor}
    (h : Cursor.ofText source text = .ok c) :
    (Text.endToken text).kind = .endOfInput ∧
      (∀ t ∈ Text.tokens text, t.kind ≠ .endOfInput) ∧
      ∀ calls, answers Use.call calls ⟨c, []⟩ =
        answers (Track.call ⟨source, Text.tokens text, Text.endToken text⟩) calls ⟨0, []⟩ := by
  refine ⟨rfl, (Scan.lexemes_closed _).inner, Track.answers_eq ⟨?_, .nil⟩⟩
  obtain ⟨hsource, hremaining⟩ := remaining_of_ofText h
  exact ⟨hsource, hremaining ▸ Text.stream_eq text, Nat.zero_le _⟩

/-- A cursor at a token that was looked at goes on behind it, a parser reads from there, the end of
input stays, and the copy goes back. -/
theorem ofText_answers_copies :
    ∃ text c calls, text = "\ufeffa ::= --b--UINT_8" ∧
      calls = [.peek, .save, .next, .peek, .parse, .next, .next, .next, .next, .isAtEnd, .offset,
        .restore 0, .isAtEnd, .offset, .parse, .next] ∧
      Cursor.ofText ⟨0⟩ text = .ok c ∧
      answers Use.call calls ⟨c, []⟩ = [.token ⟨.identifier, "a", 3⟩, .none,
        .token ⟨.identifier, "a", 3⟩, .token ⟨.assignment, "::=", 5⟩,
        .schema (.error ⟨⟨0⟩, .unexpectedToken [.identifier] .assignment 5 3⟩),
        .token ⟨.assignment, "::=", 5⟩, .token ⟨.uint, "UINT", 14⟩, .token ⟨.width, "_8", 18⟩,
        .token ⟨.endOfInput, "", 20⟩, .atEnd true, .offset 20, .none, .atEnd false, .offset 3,
        .schema (.ok ⟨[⟨⟨"a", 3⟩, .simple ⟨.uint, some 8⟩⟩]⟩), .token ⟨.identifier, "a", 3⟩] := by
  have h : Cursor.ofText ⟨0⟩ "\ufeffa ::= --b--UINT_8" =
      .ok ⟨⟨0⟩, .ofStream (.ofText "\ufeffa ::= --b--UINT_8".toList)⟩ :=
    if_pos (by decide +kernel)
  obtain ⟨-, -, hanswers⟩ := ofText_answers h
  refine ⟨_, _, _, rfl, rfl, h, (hanswers _).trans ?_⟩
  decide +kernel

end Cursor

end RecordSchema
