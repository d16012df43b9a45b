import RecordSchema.Proofs.Completeness
import RecordSchema.Proofs.Stumbling.Rules
import RecordSchema.Proofs.Suggestions

/-!
# Texts with a token in the way

A text is compared with tokens that spell a well-formed schema: both are the same up to a token that
no run gets past. Since the tokens are read as that schema, the text fails because of its token.

Results:
* `Parser.run_stumbles`: a run next to one that gives a schema.
* `Schema.OtherwiseValid.stumbles`: a text next to tokens that spell one.
-/

namespace RecordSchema

namespace Parser

open State

variable {source : SourceId} {lexemes lexemes' : Lexemes} {us : List Token} {o : Obstacle}

/-- A run that gives a schema ends at the end of input. -/
theorem declarations_end {ds : List Declaration} {s : State} (hclosed : lexemes.Closed)
    (h : declarations { source, lexemes } = .ok ds s) : s.current.kind = .endOfInput := by
  obtain ⟨s', hs', hend⟩ := Finished.of_ok hclosed (run_ok.mpr ⟨s, h⟩)
  obtain ⟨-, rfl⟩ := EStateM.Result.ok.inj (h.symm.trans (hs'.declarations_ok hclosed hend))
  exact hend

/-- **A run with an obstacle in its way** fails because of it, if next to it one gives a schema. -/
theorem run_stumbles {p : Schema}
    (hs : State.Parted o.toFork us { source, lexemes } { source, lexemes := lexemes' })
    (hus : o.Approached us) (h : (run source lexemes').result = .ok p) :
    ∃ cause, o.blame cause ∧ (run source lexemes).result = .error ⟨source, cause⟩ := by
  obtain ⟨s', hrun'⟩ := run_ok.mp h
  have hclosed : lexemes.Closed := hs.ordered.closed
  have hcourse := Stumbles.declarations.tracks.course hs hus hrun'
  generalize hrun : declarations { source, lexemes } = r at hcourse
  cases hcourse with
  | @same s rest hparted =>
    -- at the end of input there is neither the obstacle nor a token in front of it
    have hend := declarations_end hclosed hrun
    cases rest with
    | nil => exact absurd (hparted.atFork.1 ▸ hend) o.not_endOfInput
    | cons u rest => exact absurd (hparted.current.1 ▸ hend) hparted.inner
  | stumbled hstumbled =>
    cases hstumbled with
    | stuck _ _ hfalse => exact hfalse.elim
    | @blamed fault s hblame =>
      have herror := run_error.mpr ⟨s, hrun⟩
      obtain ⟨hsource, -⟩ := Finished.slip_of_error hclosed herror
      obtain ⟨_, cause⟩ := fault
      obtain rfl : _ = source := hsource
      exact ⟨cause, hblame, herror⟩

end Parser

namespace Cursor

/-- Tokens and an end of input behind them are closed. -/
theorem bare_closed {ts : List Token} {last : Token} (hlast : last.kind = .endOfInput)
    (hts : ∀ t ∈ ts, t.kind ≠ .endOfInput) :
    (bare ts last).Closed ∧ (bare ts last).tokens = ts := by
  induction ts with
  | nil => exact ⟨Lexemes.closed_single hlast, rfl⟩
  | cons t ts ih =>
    obtain ⟨ht, hts⟩ := List.forall_mem_cons.mp hts
    obtain ⟨hclosed, htokens⟩ := ih hts
    exact ⟨hclosed.cons ht, congrArg (t :: ·) htokens⟩

end Cursor

namespace Schema

/-- The text would be read as `p` if its tokens were `ts`. -/
structure OtherwiseValid (text : String) (ts : List Token) (p : Schema) : Prop where
  normalized : Text.isNormalized text.toList = true
  spelled : p.SpelledBy ts
  wellFormed : p.WellFormed

namespace OtherwiseValid

variable {source : SourceId} {text : String} {p : Schema} {o : Parser.Obstacle}
  {pre post : List Token}

/-- Such tokens are those of a text that is read. -/
theorem of_parse {text' : String} {ts : List Token}
    (hnormal : Text.isNormalized text.toList = true) (htokens : Text.tokens text' = ts)
    (h : (Schema.parse source text').result = .ok p) : OtherwiseValid text ts p := by
  obtain ⟨-, hspelled, hwf⟩ := Schema.parse_sound h
  exact ⟨hnormal, htokens ▸ hspelled, hwf⟩

/-- **A text with an obstacle** fails because of it, if with other tokens it would be read. These
stand at the offsets of tokens of the text, and what is in place of the obstacle may be the end of
input. -/
theorem stumbles {ts post' : List Token} (hvalid : OtherwiseValid text ts p)
    (htokens : Text.tokens text = pre ++ o.left :: post)
    (hts : ts ++ [Text.endToken text] = pre ++ o.right :: post')
    (hoffsets : (ts.map (·.offset)).Sublist ((Text.tokens text).map (·.offset)))
    (hkinds : ∀ t ∈ ts, t.kind ≠ .endOfInput) (hus : o.Approached pre) :
    ∃ cause, o.blame cause ∧ (Schema.parse source text).result = .error ⟨source, cause⟩ := by
  rw [Schema.parse_of_normalized hvalid.normalized]
  have hend : (Text.endToken text).kind = .endOfInput := rfl
  obtain ⟨hclosed, hbare⟩ := Cursor.bare_closed hend hkinds
  have hincreasing : (ts ++ [Text.endToken text]).Pairwise Token.Past := by
    have hall : ((Text.stream text).map (·.offset)).Pairwise (· < ·) :=
      List.pairwise_map.mpr (Text.stream_increasing text)
    rw [Text.stream_eq, List.map_append] at hall
    have hoffset : ((ts ++ [Text.endToken text]).map (·.offset)).Pairwise (· < ·) := by
      rw [List.map_append]
      exact hall.sublist (hoffsets.append_right _)
    rwa [List.pairwise_map] at hoffset
  have hleft : Text.stream text = pre ++ o.left :: (post ++ [Text.endToken text]) := by
    rw [Text.stream_eq, htokens, List.append_assoc, List.cons_append]
  have hright : (Cursor.bare ts (Text.endToken text)).stream = pre ++ o.right :: post' :=
    (Cursor.stream_bare ts _).trans hts
  rw [hts, ← hright] at hincreasing
  have hparted : Parser.State.Parted o.toFork pre (.ofText source text)
      { source, lexemes := Cursor.bare ts (Text.endToken text) } :=
    ⟨⟨_, hleft⟩, ⟨post', hright⟩, Parser.State.ofText_ordered, ⟨hclosed, hincreasing⟩, rfl, rfl,
      rfl, rfl⟩
  have hspelled : p.SpelledBy (Cursor.bare ts (Text.endToken text)).tokens :=
    hbare.symm ▸ hvalid.spelled
  exact Parser.run_stumbles hparted hus (Parser.run_complete hclosed hspelled hvalid.wellFormed)

/-- **An obstacle in the place of one other token.** -/
theorem stumbles_replaced (hvalid : OtherwiseValid text (pre ++ o.right :: post) p)
    (htokens : Text.tokens text = pre ++ o.left :: post)
    (hoffset : o.left.offset = o.right.offset) (hright : o.right.kind ≠ .endOfInput)
    (hus : o.Approached pre) :
    ∃ cause, o.blame cause ∧ (Schema.parse source text).result = .error ⟨source, cause⟩ := by
  have hinner := (Scan.lexemes_closed (Scan.ofText text.toList)).inner
  rw [← Text.tokens, htokens, List.forall_mem_append, List.forall_mem_cons] at hinner
  have hts : (pre ++ o.right :: post) ++ [Text.endToken text] =
      pre ++ o.right :: (post ++ [Text.endToken text]) := by
    rw [List.append_assoc, List.cons_append]
  refine hvalid.stumbles htokens hts ?_ ?_ hus
  · rw [htokens, List.map_append, List.map_append, List.map_cons, List.map_cons, hoffset]
  · rw [List.forall_mem_append, List.forall_mem_cons]
    exact ⟨hinner.1, hright, hinner.2.2⟩

end OtherwiseValid

end Schema

end RecordSchema
