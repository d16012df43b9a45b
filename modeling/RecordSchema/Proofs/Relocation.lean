import RecordSchema.Proofs.Refusal
import RecordSchema.Proofs.Relocation.Rules

/-!
# Layout and the choice of names do not matter

Two texts whose tokens are alike are read alike. They may differ in blanks, comments, the names that
identifiers have and the case of connectives; only a width has to touch the same tokens. Both are
read as schemas, or both end in a fault, and a relocation from the one text to the other takes the
result of the one to that of the other. Any such relocation does, whatever it makes of offsets at
which no token stands, so that none of these is in a result.

Results:
* `Parser.run_relocate`: runs on lexemes that correspond have results that do.
* `Schema.parse_relocate`: texts with tokens that are alike are read alike.
-/

namespace RecordSchema

namespace Parser

variable {source source' : SourceId} {lexemes lexemes' : Lexemes} {c : Correspondence}

/-- Runs begin in states that correspond if the tokens do. -/
theorem State.corresponds_start (source source' : SourceId)
    (h : Aligned (Token.Moves c.map c.names) lexemes.stream lexemes'.stream) :
    State.Corresponds c False { source, lexemes } { source := source', lexemes := lexemes' } where
  stream := h
  scope := rfl
  known _ hn := absurd hn List.not_mem_nil
  types := rfl
  declared _ ht := absurd ht List.not_mem_nil
  declaring := False.elim
  depth := rfl

/-- **Runs on lexemes that correspond** have results that do. -/
theorem run_relocate (hclosed' : lexemes'.Closed)
    (h : Aligned (Token.Moves c.map c.names) lexemes.stream lexemes'.stream) :
    (run source' lexemes').result = c.map.result source' (run source lexemes).result := by
  have hagree := Lockstep.declarations _ _ (State.corresponds_start source source' h)
  generalize hx : declarations { source, lexemes } = r at hagree
  generalize hy : declarations { source := source', lexemes := lexemes' } = r' at hagree
  cases hagree with
  | @ok ds ds' _ _ hds =>
    have hrun : (run source lexemes).result = .ok ⟨ds⟩ := run_ok.mpr ⟨_, hx⟩
    have hrun' : (run source' lexemes').result = .ok ⟨ds'⟩ := run_ok.mpr ⟨_, hy⟩
    rw [hrun, hrun', hds]
    rfl
  | @error f f' _ _ hcause =>
    have hrun := run_error.mpr ⟨_, hx⟩
    have hrun' := run_error.mpr ⟨_, hy⟩
    have hsource := (Finished.slip_of_error hclosed' hrun').1
    have hfault : f' = ⟨source', f.cause.relocate c.map⟩ := by rw [← hsource, ← hcause]
    rw [hrun, hrun', hfault]
    rfl

end Parser

/-! ## Texts -/

/-- The end of input is no identifier. -/
theorem identifiers_concat {ts : List Token} {t : Token} (ht : t.kind ≠ .identifier) :
    identifiers (ts ++ [t]) = identifiers ts := by
  ext x
  simp [identifiers, or_and_right, exists_or, ht]

/-- The streams of two texts are alike if their tokens are. -/
theorem Text.stream_alike {text text' : String} {rename : String → String}
    (h : Aligned (Token.Alike rename) (Text.tokens text) (Text.tokens text')) :
    Aligned (Token.Alike rename) (Text.stream text) (Text.stream text') := by
  have hlast (text : String) : (Scan.ofText text.toList).lexemes.last.kind = .endOfInput ∧
      (Scan.ofText text.toList).lexemes.last.text = "" := by
    have hkind := (Scan.lexemes_closed (Scan.ofText text.toList)).last
    refine ⟨hkind, ((Text.stream_placed text).atEnd _ ?_ hkind).1⟩
    rw [Text.stream, Lexemes.stream_eq]
    exact List.mem_append_right _ List.mem_cons_self
  obtain ⟨hkind, htext⟩ := hlast text
  obtain ⟨hkind', htext'⟩ := hlast text'
  rw [Text.stream, Text.stream, Lexemes.stream_eq, Lexemes.stream_eq]
  refine h.concat ⟨by rw [hkind, hkind'], ?_, fun _ => by rw [htext, htext']⟩ ?_ ?_
  · exact fun hname => absurd (hkind.symm.trans hname) (by decide)
  · exact fun hwidth => absurd (hkind.symm.trans hwidth) (by decide)
  · exact fun hwidth => absurd (hkind'.symm.trans hwidth) (by decide)

/-- **Texts with tokens that are alike are read alike**, if the renaming keeps identifiers apart.
There is a relocation from the one to the other, and any of these takes the result of the one to
that of the other. -/
theorem Schema.parse_relocate {source source' : SourceId} {text text' : String}
    {rename : String → String} (hnormal : Text.isNormalized text.toList = true)
    (hnormal' : Text.isNormalized text'.toList = true)
    (hinj : Set.InjOn rename (identifiers (Text.tokens text)))
    (h : Aligned (Token.Alike rename) (Text.tokens text) (Text.tokens text')) :
    (∃ m : Relocation, m.Follows rename (Text.stream text) (Text.stream text')) ∧
      ∀ m : Relocation, m.Follows rename (Text.stream text) (Text.stream text') →
        (Schema.parse source' text').result =
          m.result source' (Schema.parse source text).result := by
  have hclosed := Scan.lexemes_closed (Scan.ofText text.toList)
  have hstream : Text.stream text = Text.tokens text ++ [_] := Lexemes.stream_eq _
  have hplaced := Text.stream_placed text
  constructor
  · refine ⟨_, Relocation.between_follows (fun t ht hkind => (hplaced.proper t ht hkind).1) ?_⟩
    rw [hstream] at hplaced ⊢
    exact hplaced.increasing hclosed.inner
  · intro m hm
    have hnames : identifiers (Text.stream text) = identifiers (Text.tokens text) := by
      rw [hstream]
      exact identifiers_concat (by rw [hclosed.last]; decide)
    rw [Schema.parse_of_normalized hnormal, Schema.parse_of_normalized hnormal']
    exact Parser.run_relocate (c := ⟨m, _, hm.fits (hnames ▸ hinj)⟩)
      (Scan.lexemes_closed (Scan.ofText text'.toList)) (hm.moves (Text.stream_alike h))

/-- A text with other names, a comment, more blanks and small connectives is read as the first one,
which is that of a schema. -/
theorem Schema.parse_relocate_spaced :
    ∃ text text', text = "s::=CHOICE[n]\x7bUINT_8(n==1 AND n<5)BOOL(DEFAULT)\x7d" ∧
      text' = "--\nxs ::= CHOICE[xn] \x7b UINT_8 (xn == 1 and xn < 5) BOOL (DEFAULT) \x7d" ∧
      (Schema.parse ⟨1⟩ text).result.isOk = true ∧
      Text.isNormalized text.toList = true ∧ Text.isNormalized text'.toList = true ∧
      Set.InjOn ("x" ++ ·) (identifiers (Text.tokens text)) ∧
      Aligned (Token.Alike ("x" ++ ·)) (Text.tokens text) (Text.tokens text') ∧
      (∃ m : Relocation, m.Follows ("x" ++ ·) (Text.stream text) (Text.stream text')) ∧
      ∀ m : Relocation, m.Follows ("x" ++ ·) (Text.stream text) (Text.stream text') →
        (Schema.parse ⟨2⟩ text').result = m.result ⟨2⟩ (Schema.parse ⟨1⟩ text).result := by
  refine ⟨_, _, rfl, rfl, by decide +kernel, ?_⟩
  have hnormal : Text.isNormalized
      "s::=CHOICE[n]\x7bUINT_8(n==1 AND n<5)BOOL(DEFAULT)\x7d".toList = true := by
    decide +kernel
  have hnormal' : Text.isNormalized
      "--\nxs ::= CHOICE[xn] \x7b UINT_8 (xn == 1 and xn < 5) BOOL (DEFAULT) \x7d".toList =
        true := by
    decide +kernel
  have hinj : Set.InjOn ("x" ++ ·) (identifiers (Text.tokens
      "s::=CHOICE[n]\x7bUINT_8(n==1 AND n<5)BOOL(DEFAULT)\x7d")) := by
    intro x _ y _ h
    simpa using h
  have halike : Aligned (Token.Alike ("x" ++ ·))
      (Text.tokens "s::=CHOICE[n]\x7bUINT_8(n==1 AND n<5)BOOL(DEFAULT)\x7d")
      (Text.tokens
        "--\nxs ::= CHOICE[xn] \x7b UINT_8 (xn == 1 and xn < 5) BOOL (DEFAULT) \x7d") := by
    decide +kernel
  exact ⟨hnormal, hnormal', hinj, halike, Schema.parse_relocate hnormal hnormal' hinj halike⟩

end RecordSchema
