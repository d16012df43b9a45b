import RecordSchema.Proofs.Completeness.Declaration
import RecordSchema.Proofs.Soundness

/-!
# What is spelled and well-formed is read

The other direction: no valid schema is rejected. The loop over the declarations reads any trail of
them that is well-formed, and so a text whose tokens spell a well-formed schema is read as that.

Results:
* `Parser.declarations_complete`: the loop.
* `Schema.parse_of_spelled`: a whole text.
* `Schema.parse_ok_iff`: with soundness, exactly which texts are read, and as what.
-/

namespace RecordSchema

namespace Parser

open State

variable {s : State}

/-- **The loop over the declarations** reads what is spelled and well-formed. -/
theorem declarations_complete {ds : List Declaration} (hs : Ready nestingLimit s)
    (htypes : s.types = {}) (h : Trail nothing Declaration.SpelledBy ds s.tokens)
    (hwf : DeclarationsWellFormed [] ds) : ∃ s', declarations s = .ok ds s' := by
  have haccepts : Accepts Reads moreTokens (fun _ => descend rule .declaration) nothing
      Declaration.SpelledBy (Avoids [.width]) [] fun ds ahead s =>
        Ready nestingLimit s ∧ s.types = TypeTable.of ds.reverse ∧
          (ds.reverse.map (·.name.text)).Nodup ∧ DeclarationsWellFormed ds.reverse ahead := by
    refine ⟨Reads.spans, fun hd => hd.begins.ne_nil, ?_, fun t ht => absurd ht (by simp),
      ?_, ?_, ?_⟩
    · rintro d js us ts rfl hd
      exact hd.begins.avoids (by decide) ts
    · rintro ds ahead d us ts s ⟨hs, htypes, hnodup, hnew, hbody, hwf⟩ hd hfollow ht
      obtain ⟨s', hrun, hreads, htypes'⟩ := declaration_complete hs htypes hnodup ht hd hbody hnew
        (Nat.le_refl _) hfollow
      rw [← List.reverse_cons] at htypes' hwf
      refine ⟨s', hrun, hreads, hs.of_reads hreads, htypes', ?_, hwf⟩
      rw [List.reverse_cons]
      exact nodup_names_concat hnodup hnew
    · rintro ds ahead d js us ts s ⟨hs, hinv⟩ rfl hd ht
      have hlook : Takes s [] s.passComments := .look hs.closed
      have hmore : s.current.kind ≠ .endOfInput := by
        intro he
        have hdone := hs.closed.current_iff.mp he
        rw [ht] at hdone
        exact hd.begins.ne_nil (List.append_eq_nil_iff.mp hdone).1
      exact ⟨_, moreTokens_ok.mpr ⟨(decide_eq_true hmore).symm, rfl⟩, hlook.toReads,
        hs.of_reads hlook.toReads, hinv⟩
    · rintro ds s ⟨hs, hinv⟩ ht
      have hlook : Takes s [] s.passComments := .look hs.closed
      have hend := hs.closed.current_iff.mpr ht
      exact ⟨_, moreTokens_ok.mpr ⟨by simp [hend], rfl⟩, hlook.toReads,
        hs.of_reads hlook.toReads, hinv⟩
  obtain ⟨s', hrun, -⟩ := haccepts.many h ⟨hs, htypes, List.nodup_nil, hwf⟩ (by simp)
  exact ⟨s', hrun⟩

/-- A run of the parser on closed lexemes gives the schema that they spell, if it is well-formed. -/
theorem run_complete {source : SourceId} {lexemes : Lexemes} {p : Schema}
    (hclosed : lexemes.Closed) (h : p.SpelledBy lexemes.tokens) (hwf : p.WellFormed) :
    (run source lexemes).result = .ok p := by
  have hready : Ready nestingLimit { source, lexemes } := ⟨hclosed, Nat.zero_add _⟩
  exact run_ok.mpr (declarations_complete hready rfl h hwf)

end Parser

/-- **A text whose tokens spell a well-formed schema** is read as that schema. -/
theorem Schema.parse_of_spelled {source : SourceId} {text : String} {p : Schema}
    (hnormal : Text.isNormalized text.toList = true) (h : p.SpelledBy (Text.tokens text))
    (hwf : p.WellFormed) : (Schema.parse source text).result = .ok p := by
  rw [Schema.parse_of_normalized hnormal]
  exact Parser.run_complete (Scan.lexemes_closed _) h hwf

/-- An array with a field of eight bits. -/
theorem Schema.parse_of_spelled_array :
    (Schema.parse ⟨0⟩ "w ::= ARRAY[n] \x7b a UINT_8 \x7d").result =
      .ok ⟨[⟨⟨"w", 0⟩, .array ⟨"n", 12⟩
        [⟨⟨"a", 17⟩, ⟨⟨"UINT", 19⟩, .builtin ⟨.uint, some 8⟩, none⟩⟩]⟩]⟩ := by
  have name : ∀ x i, Name.SpelledBy ⟨x, i⟩ [⟨.identifier, x, i⟩] :=
    fun x i => Name.SpelledBy.mk (t := ⟨.identifier, x, i⟩) rfl
  have hparameters : Bracketed Name.SpelledBy [⟨"n", 12⟩]
      ([⟨.leftSquare, "[", 11⟩, ⟨.identifier, "n", 12⟩, ⟨.rightSquare, "]", 13⟩] : List Token) :=
    Enclosed.mk (o := ⟨.leftSquare, "[", 11⟩) (c := ⟨.rightSquare, "]", 13⟩) rfl
      (Listed.mk (name _ _) .nil) rfl
  have htype : SimpleType.SpelledBy ⟨.uint, some 8⟩ [⟨.uint, "UINT", 19⟩, ⟨.width, "_8", 23⟩] :=
    SimpleType.SpelledBy.wide (b := .uint) (k := ⟨.uint, "UINT", 19⟩) (w := ⟨.width, "_8", 23⟩)
      rfl rfl (by decide)
  have hfield : Field.SpelledBy ⟨⟨"a", 17⟩, ⟨⟨"UINT", 19⟩, .builtin ⟨.uint, some 8⟩, none⟩⟩
      [⟨.identifier, "a", 17⟩, ⟨.uint, "UINT", 19⟩, ⟨.width, "_8", 23⟩] :=
    .mk (name _ _) (.builtin htype .none)
  have hfields : Braced Field.SpelledBy [_]
      ([⟨.leftCurly, "\x7b", 15⟩, ⟨.identifier, "a", 17⟩, ⟨.uint, "UINT", 19⟩,
        ⟨.width, "_8", 23⟩, ⟨.rightCurly, "\x7d", 26⟩] : List Token) :=
    Enclosed.mk (o := ⟨.leftCurly, "\x7b", 15⟩) (c := ⟨.rightCurly, "\x7d", 26⟩) rfl
      (Listed.mk hfield .nil) rfl
  have hbody : Body.SpelledBy (.array ⟨"n", 12⟩ [_]) (⟨.array, "ARRAY", 6⟩ :: (_ ++ _)) :=
    .array rfl hparameters hfields
  have harray := Declaration.SpelledBy.mk (a := ⟨.assignment, "::=", 2⟩) (name "w" 0) rfl hbody
  have hnothing : nothing [] := rfl
  refine Schema.parse_of_spelled (by decide) ?_ (by decide)
  refine cast (congrArg (Schema.SpelledBy _) ?_) (Trail.cons hnothing harray .nil)
  decide +kernel

/-- **Which texts are read**, and as what: those in normalization form C, as the schema that their
tokens spell, if that is well-formed. -/
theorem Schema.parse_ok_iff {source : SourceId} {text : String} {p : Schema} :
    (Schema.parse source text).result = .ok p ↔
      Text.isNormalized text.toList = true ∧ p.SpelledBy (Text.tokens text) ∧ p.WellFormed := by
  constructor
  · exact Schema.parse_sound
  · rintro ⟨hnormal, h, hwf⟩
    rw [Schema.parse_of_normalized hnormal]
    exact Parser.run_complete (Scan.lexemes_closed _) h hwf

end RecordSchema
