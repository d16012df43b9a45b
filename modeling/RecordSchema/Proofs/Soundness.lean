import RecordSchema.Proofs.Soundness.Declaration

/-!
# What is read is spelled and well-formed

A text that is read as a schema is normalized, its tokens spell the schema, and the schema is
well-formed. The invariant of the loop over the declarations is that the table of types is the one
of the declarations read so far.

Results:
* `Parser.declarations_sound`: the loop, from any state with an empty table.
* `Schema.parse_sound`: a whole text.
-/

namespace RecordSchema

namespace Parser

open State

variable {s s' : State}

/-- The turns of the loop over the declarations. -/
theorem keeps_declarations :
    Keeps Reads moreTokens (fun _ => descend rule .declaration) nothing Declaration.SpelledBy
      fun ds s => s.Closed ∧ s.types = TypeTable.of ds.reverse ∧
        DeclarationsWellFormed [] ds.reverse := by
  refine ⟨Reads.spans, ?_, ?_⟩
  · rintro ds d s s₁ s₂ ⟨hclosed, htypes, hwf⟩ hm hd
    obtain ⟨-, rfl⟩ := moreTokens_ok.mp hm
    have hlook : Takes s [] s.passComments := .look hclosed
    obtain ⟨us, hus, hspell, hbody, hnew, htypes⟩ :=
      declaration_sound hlook.closed htypes (Nat.le_refl _) hd
    refine ⟨⟨hus.closed, by simpa using htypes, ?_⟩, [], us, rfl, hspell, hspell.begins.ne_nil,
      hlook.toReads.trans hus⟩
    rw [List.reverse_cons]
    exact hwf.concat hnew hbody
  · rintro ds s s' ⟨hclosed, -⟩ hm
    obtain ⟨-, rfl⟩ := moreTokens_ok.mp hm
    exact (Takes.look hclosed).toReads

/-- **The loop over the declarations** reads all tokens. They spell the declarations, which are
well-formed, and the table of types is theirs. -/
theorem declarations_sound {ds : List Declaration} (hs : s.Closed) (htypes : s.types = {})
    (h : declarations s = .ok ds s') :
    Trail nothing Declaration.SpelledBy ds s.tokens ∧ DeclarationsWellFormed [] ds ∧
      s'.types = TypeTable.of ds := by
  have hturns := turns_of_many keeps_declarations ⟨hs, htypes, trivial⟩ h
  obtain ⟨ts, s₂, hlist, hts, ⟨hclosed, htypes, hwf⟩, hend⟩ :=
    hturns.trail keeps_declarations ⟨hs, htypes, trivial⟩
  rw [List.append_nil, List.reverse_reverse] at htypes hwf
  obtain ⟨hstop, rfl⟩ := moreTokens_ok.mp hend
  have hdone : s₂.tokens = [] := hclosed.current_iff.mp (by simpa using hstop.symm)
  have htokens := hts.tokens
  rw [tokens_passComments, hdone, List.append_nil] at htokens
  rw [htokens]
  exact ⟨hlist, hwf, htypes⟩

end Parser

/-- **A text that is read as a schema** is normalized, its tokens spell the schema, and the schema
is well-formed. -/
theorem Schema.parse_sound {source : SourceId} {text : String} {p : Schema}
    (h : (Schema.parse source text).result = .ok p) :
    Text.isNormalized text.toList = true ∧ p.SpelledBy (Text.tokens text) ∧ p.WellFormed := by
  cases hnormal : Text.isNormalized text.toList with
  | false =>
    rw [Schema.parse_of_not_normalized hnormal] at h
    cases h
  | true =>
    rw [Schema.parse_of_normalized hnormal] at h
    obtain ⟨s, hs⟩ := Parser.run_ok.mp h
    have hclosed : Parser.State.Closed { source, lexemes := (Scan.ofText text.toList).lexemes } :=
      Scan.lexemes_closed _
    obtain ⟨hspell, hwf, -⟩ := Parser.declarations_sound hclosed rfl hs
    exact ⟨rfl, hspell, hwf⟩

end RecordSchema
