import RecordSchema.Proofs.Refusal
import RecordSchema.Proofs.Sources
import RecordSchema.Proofs.Suggestions.Rules

/-!
# Suggestions

A fault of an unexpected token tells the kinds that were expected in its place. Putting a token of
one of them there never gives the same kind of fault at the same place, whatever stands behind.

Results:
* `Fault.Expects`: a fault refuses a token of a text.
* `Parser.settles_ofText`: what a single run finds unexpected.
* `Parser.Verdict.past`: where two runs part, what the second one finds unexpected stands behind.
* `Schema.parse_expects`: what is expected is not refused there.
-/

namespace RecordSchema

/-- The fault says that the token with index `i` of the text is none of the kinds expected there. -/
def Fault.Expects (f : Fault) (text : String) (i : Nat) (kinds : List TokenKind) : Prop :=
  ∃ t, (Text.stream text)[i]? = some t ∧ t.kind ∉ kinds ∧
    f.cause = .unexpectedToken kinds t.kind t.offset t.length

namespace Text

variable {text : String} {i j : Nat} {t u : Token}

/-- The tokens of a text stand one past the other. -/
theorem past_of_lt (ht : (stream text)[i]? = some t) (hu : (stream text)[j]? = some u)
    (h : i < j) : t.Past u := by
  obtain ⟨hi, rfl⟩ := List.getElem?_eq_some_iff.mp ht
  obtain ⟨hj, rfl⟩ := List.getElem?_eq_some_iff.mp hu
  exact List.pairwise_iff_getElem.mp (stream_increasing text) i j hi hj h

theorem lt_of_past (ht : (stream text)[i]? = some t) (hu : (stream text)[j]? = some u)
    (h : t.Past u) : i < j := by
  by_contra hle
  rcases Nat.lt_or_eq_of_le (Nat.le_of_not_lt hle) with hlt | rfl
  · exact Nat.lt_asymm h (past_of_lt hu ht hlt)
  · obtain rfl := Option.some.inj (ht.symm.trans hu)
    exact Nat.lt_irrefl _ h

theorem eq_of_offset (ht : (stream text)[i]? = some t) (hu : (stream text)[j]? = some u)
    (h : t.offset = u.offset) : i = j := by
  rcases Nat.lt_trichotomy i j with hlt | heq | hlt
  · exact absurd h (Nat.ne_of_lt (past_of_lt ht hu hlt))
  · exact heq
  · exact absurd h.symm (Nat.ne_of_lt (past_of_lt hu ht hlt))

end Text

namespace Parser

/-- The state in front of a text. -/
def State.ofText (source : SourceId) (text : String) : State :=
  { source, lexemes := (Scan.ofText text.toList).lexemes }

variable {source source' : SourceId} {text text' : String}

theorem State.ofText_ordered : (State.ofText source text).Ordered :=
  ⟨Scan.lexemes_closed _, Text.stream_increasing text⟩

/-- Two texts that have the same tokens in front of an index part there. -/
theorem State.ofText_parted {i : Nat} {t t' : Token} (ht : (Text.stream text)[i]? = some t)
    (ht' : (Text.stream text')[i]? = some t')
    (h : (Text.stream text').take i = (Text.stream text).take i) :
    (State.ofText source text).Parted ⟨t, t'⟩ ((Text.stream text).take i)
      (State.ofText source' text') := by
  have hsplit {text : String} {t : Token} (ht : (Text.stream text)[i]? = some t) :
      Text.stream text = (Text.stream text).take i ++ t :: (Text.stream text).drop (i + 1) := by
    obtain ⟨hi, rfl⟩ := List.getElem?_eq_some_iff.mp ht
    rw [List.getElem_cons_drop, List.take_append_drop]
  exact ⟨⟨_, hsplit ht⟩, ⟨_, h ▸ hsplit ht'⟩, State.ofText_ordered, State.ofText_ordered, rfl, rfl,
    rfl, rfl⟩

/-- What a run finds unexpected is a token of the text, and something else was expected. -/
theorem settles_ofText : Settles (· ∈ Text.stream text) (declarations (State.ofText source text)) :=
  let t := (State.ofText source text).current
  (Awaits.declarations (f := ⟨t, t⟩)).onward fun _ => id

/-- **Where two runs part** and the first one refuses the token that is its own, but expects one
like that of the second, what the second one finds unexpected stands behind. -/
theorem Verdict.past {α : Type} {f : Fork} {P : α → TokenKind → Prop} {us : List Token}
    {fault fault' : Fault} {s s' : State} {kinds kinds' : List TokenKind} {got got' : TokenKind}
    {length offset' length' : Nat} (h : Verdict f P us (.error fault s) (.error fault' s'))
    (hcause : fault.cause = .unexpectedToken kinds got f.left.offset length)
    (hright : f.right.kind ∈ kinds)
    (hcause' : fault'.cause = .unexpectedToken kinds' got' offset' length') :
    f.right.offset < offset' := by
  cases h with
  | left h =>
    cases h with
    | error h =>
      obtain ⟨-, -, t, hpast, -, hoffset, -⟩ := h _ _ _ _ hcause
      exact absurd hoffset (Nat.ne_of_lt hpast)
  | right h =>
    cases h with
    | error h =>
      obtain ⟨-, -, t, hpast, -, rfl, -⟩ := h _ _ _ _ hcause'
      exact hpast
  | elsewhere h => exact absurd rfl (h _ _ _ _ hcause)
  | refused h hrefused =>
    obtain ⟨rfl, -⟩ := Cause.unexpectedToken.inj (hcause.symm.trans h)
    exact absurd hright hrefused

end Parser

namespace Schema

variable {source source' : SourceId} {text text' : String} {f : Fault}

/-- The fault of an unexpected token is that of a run. -/
theorem run_of_unexpected {kinds : List TokenKind} {got : TokenKind} {offset length : Nat}
    (h : (Schema.parse source text).result = .error f)
    (hcause : f.cause = .unexpectedToken kinds got offset length) :
    ∃ s, Parser.declarations (.ofText source text) = .error f s := by
  cases hnormal : Text.isNormalized text.toList with
  | false =>
    rw [Schema.parse_of_not_normalized hnormal] at h
    obtain rfl := Except.error.inj h
    cases hcause
  | true =>
    rw [Schema.parse_of_normalized hnormal] at h
    exact Parser.run_error.mp h

/-- The token that is found unexpected is one of the text, and is not expected. -/
theorem expects_of_unexpected {kinds : List TokenKind} {got : TokenKind} {offset length : Nat}
    (h : (Schema.parse source text).result = .error f)
    (hcause : f.cause = .unexpectedToken kinds got offset length) :
    kinds ≠ [] ∧ kinds.Nodup ∧ ∃ i, f.Expects text i kinds := by
  obtain ⟨s, hrun⟩ := run_of_unexpected h hcause
  have hsettles : Parser.Settles _ (.error f s) := hrun ▸ Parser.settles_ofText
  cases hsettles with
  | error hsuggests =>
    obtain ⟨hne, hnodup, t, ht, rfl, rfl, rfl, hk⟩ := hsuggests _ _ _ _ hcause
    obtain ⟨i, hi⟩ := List.mem_iff_getElem?.mp ht
    exact ⟨hne, hnodup, i, t, hi, hk, hcause⟩

/-- **What is expected is not refused there.** An unexpected token is one of the text, and at least
one kind is expected in its place, each once and none of them its own. Of any other text that is
the same up to that token and has one of those kinds there, what is found unexpected, if anything,
stands behind. -/
theorem parse_expects {kinds : List TokenKind} {got : TokenKind} {offset length : Nat}
    (h : (Schema.parse source text).result = .error f)
    (hcause : f.cause = .unexpectedToken kinds got offset length) :
    kinds ≠ [] ∧ kinds.Nodup ∧ ∃ i, f.Expects text i kinds ∧
      ∀ (source' : SourceId) (text' : String) (t' : Token),
        (Text.stream text').take i = (Text.stream text).take i →
        (Text.stream text')[i]? = some t' → t'.kind ∈ kinds →
        ∀ f' kinds' got' offset' length', (Schema.parse source' text').result = .error f' →
          f'.cause = .unexpectedToken kinds' got' offset' length' →
          ∃ j, i < j ∧ f'.Expects text' j kinds' := by
  obtain ⟨hne, hnodup, i, t, ht, hk, htold⟩ := expects_of_unexpected h hcause
  refine ⟨hne, hnodup, i, ⟨t, ht, hk, htold⟩, ?_⟩
  intro source' text' t' hsame ht' hk' f' kinds' got' offset' length' h' hcause'
  obtain ⟨-, -, j, u, hu, hnot, htold'⟩ := expects_of_unexpected h' hcause'
  obtain ⟨s, hrun⟩ := run_of_unexpected h hcause
  obtain ⟨s', hrun'⟩ := run_of_unexpected h' hcause'
  have hparted : Parser.State.Parted ⟨t, t'⟩ _ (.ofText source text) (.ofText source' text') :=
    Parser.State.ofText_parted ht ht' hsame
  have hverdict := Parser.Awaits.declarations.parts hparted
  rw [hrun, hrun'] at hverdict
  have hpast : t'.Past u := hverdict.past htold hk' htold'
  exact ⟨j, Text.lt_of_past ht' hu hpast, u, hu, hnot, htold'⟩

/-- Behind a parameter a number is refused. A comma there is taken, and what is refused then is that
a second one stands behind it. -/
theorem parse_expects_comma :
    ∃ text text' kinds f f', text = "a ::= SEQUENCE[n 4" ∧ text' = "a ::= SEQUENCE[n , ," ∧
      kinds = [.identifier, .comma, .rightSquare] ∧
      (Schema.parse ⟨0⟩ text).result = .error f ∧ f.Expects text 5 kinds ∧
      (Schema.parse ⟨1⟩ text').result = .error f' ∧
      ∃ j, 5 < j ∧ f'.Expects text' j [.identifier] := by
  let text : String := "a ::= SEQUENCE[n 4"
  let text' : String := "a ::= SEQUENCE[n , ,"
  have h : (Schema.parse ⟨0⟩ text).result = .error ⟨⟨0⟩, .unexpectedToken
      [.identifier, .comma, .rightSquare] .number 17 1⟩ := by
    decide +kernel
  have h' : (Schema.parse ⟨1⟩ text').result = .error ⟨⟨1⟩, .unexpectedToken
      [.identifier] .comma 19 1⟩ := by
    decide +kernel
  obtain ⟨-, -, i, hexpects, hlater⟩ := parse_expects h rfl
  have hnumber : (Text.stream text)[5]? = some ⟨.number, "4", 17⟩ := by decide +kernel
  have hcomma : (Text.stream text')[5]? = some ⟨.comma, ",", 17⟩ := by decide +kernel
  obtain rfl : i = 5 := by
    obtain ⟨t, ht, -, hcause⟩ := hexpects
    obtain ⟨-, -, hoffset, -⟩ := Cause.unexpectedToken.inj hcause
    exact Text.eq_of_offset ht hnumber hoffset.symm
  exact ⟨text, text', _, _, _, rfl, rfl, rfl, h, hexpects, h',
    hlater ⟨1⟩ text' _ (by decide +kernel) hcomma (by decide) _ _ _ _ _ h' rfl⟩

end Schema

end RecordSchema
