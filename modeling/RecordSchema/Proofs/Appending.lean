import RecordSchema.Proofs.Appending.Rules
import RecordSchema.Proofs.Refusal

/-!
# More text does not change what was read

A text to which a line end and more text is added keeps its tokens, so a run over the longer text
goes through the same declarations. Those that the first run finishes the second one finishes as
well, and in a state that differs in the text ahead and in nothing else. So a schema that was read
stays the front of what is read now, a later fault is beyond the text, and a fault that was found
inside the text is found again.

Results:
* `Parser.Finished.prolong`: the declarations finished are finished in the longer text.
* `Schema.parse_append`: what adding text does to a schema or to a fault.
-/

namespace RecordSchema

namespace Parser

open State

variable {m : Margin} {us : List Token} {source : SourceId} {lexemes lexemes' : Lexemes}
  {ds : List Declaration} {s s₁ : State} {f : Fault} {limit : Nat}

/-- A declaration does the same over a longer text. -/
theorem follows_declaration : Follows m False 1 (descend rule .declaration) :=
  (Follows.descend (Follows.readRule nestingLimit .declaration)).imp (fun h => absurd h (by decide))
    (Nat.le_refl 1)

namespace Finished

/-- **The declarations finished** are finished over a longer text as well. -/
theorem prolong (hstart : State.Prolongs m us { source, lexemes } { source, lexemes := lexemes' })
    (h : Finished source lexemes ds s) :
    ∃ us s', Finished source lexemes' ds s' ∧ s.Prolongs m us s' := by
  induction h with
  | start => exact ⟨us, _, .start, hstart⟩
  | @next ds d s s₁ s₂ _ hm hd ih =>
    obtain ⟨us, s', hs', hlonger⟩ := ih
    obtain ⟨hmore, rfl⟩ := moreTokens_ok.mp hm
    have hkind : s.current.kind ≠ .endOfInput := by simpa using hmore.symm
    cases us with
    | nil => exact absurd hlonger.atEnd.kind hkind
    | cons t us =>
      have hm' : moreTokens s' = .ok true s'.passComments := by
        refine moreTokens_ok.mpr ⟨?_, rfl⟩
        rw [hlonger.current.2, ← hlonger.current.1]
        exact hmore
      have hrun := follows_declaration _ _ _ hlonger.passComments
      rw [hd] at hrun
      generalize hd' : descend rule .declaration s'.passComments = r' at hrun
      cases hrun with
      | same hs _ => exact ⟨_, _, .next hs' hm' hd', hs⟩
      | ended hopen _ => exact absurd hopen id

/-- **A declaration that is refused** is refused over a longer text as well, unless its fault is
excused. -/
theorem refused_prolong
    (hstart : State.Prolongs m us { source, lexemes } { source, lexemes := lexemes' })
    (h : Finished source lexemes ds s)
    (hd : descend rule .declaration s.passComments = .error f s₁) (hf : ¬ Excused f.cause) :
    ∃ s' s₁', Finished source lexemes' ds s' ∧ s'.current.kind ≠ .endOfInput ∧
      descend rule .declaration s'.passComments = .error f s₁' := by
  obtain ⟨us, s', hs', hlonger⟩ := h.prolong hstart
  cases us with
  | nil =>
    have hend : Closing m False (descend rule .declaration s.passComments) :=
      Ends.descend nestingLimit .declaration _ hlonger.atEnd.passComments
    rw [hd] at hend
    cases hend with
    | excused he => exact absurd he hf
  | cons t us =>
    have hrun := follows_declaration _ _ _ hlonger.passComments
    rw [hd] at hrun
    generalize hd' : descend rule .declaration s'.passComments = r' at hrun
    cases hrun with
    | fault =>
      refine ⟨s', _, hs', ?_, hd'⟩
      rw [hlonger.current.2]
      exact (hlonger.inner t List.mem_cons_self).1
    | excused he => exact absurd he hf

/-- **The fault of a run** that has finished some declarations lies where the tokens behind them
do. -/
theorem error_beyond (h : Finished source lexemes ds s) (hclosed : lexemes.Closed)
    (hs : ∀ t ∈ s.stream, limit < t.offset) (hf : (run source lexemes).result = .error f) :
    limit < f.span.start := by
  obtain ⟨n, -, heq⟩ := h.declarations_eq hclosed
  obtain ⟨s', hloop⟩ := run_error.mp hf
  have hstart : Finished source lexemes ds.reverse.reverse s := by rwa [List.reverse_reverse]
  obtain ⟨as, s₁, ⟨hs₁, hbeyond⟩, hfails⟩ :=
    @error_of_manyWithin _ _ _ _
      (fun as s => Finished source lexemes as.reverse s ∧ ∀ t ∈ s.stream, limit < t.offset)
      (fun ⟨hs, hbeyond⟩ hm hd => by
        obtain ⟨us, -, hreads⟩ := hs.reads_next hclosed hm hd
        rw [List.reverse_cons]
        refine ⟨.next hs hm hd, fun t ht => hbeyond t ?_⟩
        rw [hreads.stream]
        exact List.mem_append_right _ ht) _ _ _ _ ⟨hstart, hs⟩ (heq.symm.trans hloop)
  rcases hfails with ⟨_, hm⟩ | ⟨s₂, s₃, hm, hd⟩
  · exact absurd (moreTokens_error.mp hm) id
  · obtain ⟨-, rfl⟩ := moreTokens_ok.mp hm
    obtain ⟨hclosed₁, htypes, -⟩ := hs₁.invariant hclosed
    have hrefused := declaration_refused hclosed₁.passComments htypes (Nat.le_refl _) hd
    obtain ⟨c, rfl, hslip⟩ := hrefused.of_passComments
    obtain ⟨t, ht, hoffset⟩ := hslip.start_mem
    show limit < c.span.start
    rw [hoffset]
    exact hbeyond t ht

end Finished

end Parser

/-! ## Texts -/

/-- A text and a longer one, as a run over each begins. -/
theorem Text.prolongs (source : SourceId) (text added : String) :
    ∃ m : Parser.Margin, m.limit = text.utf8ByteSize ∧
      Parser.State.Prolongs m (tokens text)
        { source, lexemes := (Scan.ofText text.toList).lexemes }
        { source, lexemes := (Scan.ofText (text ++ "\n" ++ added).toList).lexemes } := by
  obtain ⟨more, hmore, hne, hbeyond⟩ := stream_append text added
  have hclosed := Scan.lexemes_closed (Scan.ofText text.toList)
  have hstream : stream text = tokens text ++ [_] := Lexemes.stream_eq _
  refine ⟨⟨_, more, text.utf8ByteSize, hclosed.last, hne, hbeyond⟩, rfl, hstream, hmore,
    fun t ht => ⟨hclosed.inner t ht, ?_⟩, rfl, rfl, rfl, rfl, rfl⟩
  have hcovers := (stream_placed text).covers t (hstream ▸ List.mem_append_left _ ht)
  exact hcovers.stop_le

/-- **More text does not change what was read.** A line end and any text are added to a text, and
both texts are normalized. What is read from the first one stays the front of what is read from the
longer one, and a fault of the longer one alone begins behind the first one. A fault of the first
one stays the same, unless it is that of the end of input or of a name in use. -/
theorem Schema.parse_append {source : SourceId} {text added : String}
    (hnormal : Text.isNormalized text.toList = true)
    (hnormal' : Text.isNormalized (text ++ "\n" ++ added).toList = true) :
    (∀ p, (Schema.parse source text).result = .ok p →
      (∀ q, (Schema.parse source (text ++ "\n" ++ added)).result = .ok q →
        p.declarations <+: q.declarations) ∧
      ∀ e, (Schema.parse source (text ++ "\n" ++ added)).result = .error e →
        text.utf8ByteSize < e.span.start) ∧
    ∀ e, (Schema.parse source text).result = .error e → ¬ Parser.Excused e.cause →
      (Schema.parse source (text ++ "\n" ++ added)).result = .error e := by
  obtain ⟨m, hlimit, hstart⟩ := Text.prolongs source text added
  have hclosed := Scan.lexemes_closed (Scan.ofText text.toList)
  have hclosed' := Scan.lexemes_closed (Scan.ofText (text ++ "\n" ++ added).toList)
  rw [Schema.parse_of_normalized hnormal, Schema.parse_of_normalized hnormal']
  refine ⟨fun p hp => ?_, fun e he hf => ?_⟩
  · obtain ⟨s, hs, hend⟩ := Parser.Finished.of_ok hclosed hp
    obtain ⟨us, s', hs', hlonger⟩ := hs.prolong hstart
    refine ⟨fun q hq => hs'.isPrefix hclosed' hq, fun e he => ?_⟩
    cases us with
    | nil =>
      refine hs'.error_beyond hclosed' (fun t ht => ?_) he
      rw [hlonger.longer, List.nil_append] at ht
      rw [← hlimit]
      exact m.beyond t ht
    | cons t us =>
      have hinner := (hlonger.inner t List.mem_cons_self).1
      rw [hlonger.current.1] at hend
      exact absurd hend hinner
  · obtain ⟨ds, s, s₁, hs, hd⟩ := Parser.Finished.of_error he
    obtain ⟨s', s₁', hs', hmore, hd'⟩ := hs.refused_prolong hstart hd hf
    exact hs'.error_of hclosed' hmore hd'

/-- A text ends in an open comment behind a type that could have a width, and what is added begins
with a width; another one has a fault in front of an open comment. -/
theorem Schema.parse_append_comment :
    ∃ text text' added p e f, text = "a ::= UINT --x" ∧ text' = "a = UINT --x" ∧ added = "_8" ∧
      (Schema.parse ⟨0⟩ text).result = .ok p ∧
      (Schema.parse ⟨0⟩ (text ++ "\n" ++ added)).result = .error e ∧
      text.utf8ByteSize < e.span.start ∧
      (Schema.parse ⟨0⟩ text').result = .error f ∧
      (Schema.parse ⟨0⟩ (text' ++ "\n" ++ added)).result = .error f := by
  have hp : (Schema.parse ⟨0⟩ "a ::= UINT --x").result =
      .ok ⟨[⟨⟨"a", 0⟩, .simple ⟨.uint, none⟩⟩]⟩ := by
    decide +kernel
  have he : (Schema.parse ⟨0⟩ ("a ::= UINT --x" ++ "\n" ++ "_8")).result =
      .error ⟨⟨0⟩, .unexpectedToken [.identifier] .width 15 2⟩ := by
    decide +kernel
  have hf : (Schema.parse ⟨0⟩ "a = UINT --x").result =
      .error ⟨⟨0⟩, .unexpectedToken [.assignment] .unrecognised 2 1⟩ := by
    decide +kernel
  have hnormal : Text.isNormalized "a ::= UINT --x".toList = true ∧
      Text.isNormalized ("a ::= UINT --x" ++ "\n" ++ "_8").toList = true := by
    decide +kernel
  have hnormal' : Text.isNormalized "a = UINT --x".toList = true ∧
      Text.isNormalized ("a = UINT --x" ++ "\n" ++ "_8").toList = true := by
    decide +kernel
  exact ⟨_, _, _, _, _, _, rfl, rfl, rfl, hp, he,
    ((Schema.parse_append hnormal.1 hnormal.2).1 _ hp).2 _ he, hf,
    (Schema.parse_append hnormal'.1 hnormal'.2).2 _ hf fun h => by cases h⟩

end RecordSchema
