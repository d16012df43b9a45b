import RecordSchema.Proofs.Refusal.Location
import RecordSchema.Proofs.Registry

/-!
# Why a text is refused

A run that ends in a fault has finished some declarations and refuses the one behind them. What it
has finished is spelled by the tokens in front, so the reason for the fault is told by the tokens
alone.

Results:
* `Parser.Finished.of_error`: where a run that ends in a fault was.
* `Schema.parse_refused`: every fault of a text has its reason in the text.
-/

namespace RecordSchema

namespace Parser

open State

variable {source : SourceId} {lexemes : Lexemes} {ds : List Declaration} {s : State} {f : Fault}

/-- A run ends in the fault of the loop over the declarations. -/
theorem run_error :
    (run source lexemes).result = .error f ↔
      ∃ s, declarations { source, lexemes } = .error f s := by
  unfold run schema
  cases declarations { source, lexemes } with
  | ok ds s => simp
  | error fault s => simp [eq_comm]

@[simp] theorem moreTokens_error {s s' : State} : moreTokens s = .error f s' ↔ False := by
  unfold moreTokens
  simp only [bind_error, look_error, pure_error, and_false, exists_false, or_self]

namespace Finished

/-- **A run that ends in a fault** has finished some declarations and refuses a further one. -/
theorem of_error (h : (run source lexemes).result = .error f) :
    ∃ ds s s', Finished source lexemes ds s ∧
      descend rule .declaration s.passComments = .error f s' := by
  obtain ⟨s', h⟩ := run_error.mp h
  have hloop := (bind_error_of_ok (tokensLeft_ok.mpr ⟨rfl, rfl⟩)).mp h
  obtain ⟨as, s₁, hs₁, hfails⟩ :=
    @error_of_manyWithin _ _ _ _ (fun as s => Finished source lexemes as.reverse s)
      (fun hs hm hd => by
        rw [List.reverse_cons]
        exact .next hs hm hd) _ _ _ _ .start hloop
  rcases hfails with ⟨_, hm⟩ | ⟨s₂, s₃, hm, hd⟩
  · exact absurd (moreTokens_error.mp hm) id
  · obtain ⟨-, rfl⟩ := moreTokens_ok.mp hm
    exact ⟨as.reverse, s₁, s₃, hs₁, hd⟩

/-- At the end of input the loop over the declarations ends with those finished. -/
theorem declarations_ok (h : Finished source lexemes ds s) (hclosed : lexemes.Closed)
    (hend : s.current.kind = .endOfInput) :
    declarations { source, lexemes } = .ok ds s.passComments := by
  obtain ⟨n, hn, heq⟩ := h.declarations_eq hclosed
  obtain ⟨n, rfl⟩ := Nat.exists_eq_succ_of_ne_zero (Nat.ne_of_gt (Nat.zero_lt_of_lt hn))
  have hm : moreTokens s = .ok false s.passComments :=
    moreTokens_ok.mpr ⟨(decide_eq_false (not_not.mpr hend)).symm, rfl⟩
  rw [heq, manyWithin, bind_of_ok hm, if_neg Bool.false_ne_true, List.reverse_reverse]
  rfl

/-- At a declaration that is refused it ends in the fault of that. -/
theorem declarations_error (h : Finished source lexemes ds s) (hclosed : lexemes.Closed)
    (hmore : s.current.kind ≠ .endOfInput) {s' : State}
    (hd : descend rule .declaration s.passComments = .error f s') :
    declarations { source, lexemes } = .error f s' := by
  obtain ⟨n, hn, heq⟩ := h.declarations_eq hclosed
  obtain ⟨n, rfl⟩ := Nat.exists_eq_succ_of_ne_zero (Nat.ne_of_gt (Nat.zero_lt_of_lt hn))
  have hm : moreTokens s = .ok true s.passComments :=
    moreTokens_ok.mpr ⟨(decide_eq_true hmore).symm, rfl⟩
  rw [heq, manyWithin, bind_of_ok hm, if_pos rfl, bind_of_error hd]

/-- A run that refuses a declaration ends in the fault of that. -/
theorem error_of (h : Finished source lexemes ds s) (hclosed : lexemes.Closed)
    (hmore : s.current.kind ≠ .endOfInput) {s' : State}
    (hd : descend rule .declaration s.passComments = .error f s') :
    (run source lexemes).result = .error f :=
  run_error.mpr ⟨s', h.declarations_error hclosed hmore hd⟩

/-- The tokens in front of a state spell the declarations finished there. -/
theorem spelled (h : Finished source lexemes ds s) (hclosed : lexemes.Closed) :
    ∃ used, Reads { source, lexemes } used s ∧ Trail nothing Declaration.SpelledBy ds used := by
  induction h with
  | start =>
    have hs : State.Closed { source, lexemes } := hclosed
    exact ⟨[], (Takes.rfl hs).toReads, .nil⟩
  | next h hm hd ih =>
    obtain ⟨used, hreads, htrail⟩ := ih
    obtain ⟨hs, htypes, -⟩ := h.invariant hclosed
    obtain ⟨-, rfl⟩ := moreTokens_ok.mp hm
    obtain ⟨us, hus, hspell, -⟩ :=
      declaration_sound hs.passComments htypes (Nat.le_refl _) hd
    have hlook : Takes _ [] _ := .look hs
    exact ⟨used ++ ([] ++ us), hreads.trans (hlook.toReads.trans hus),
      htrail.concat rfl hspell⟩

/-- **A run that ends in a fault** refuses a declaration for a slip, behind those it has
finished. -/
theorem slip_of_error (hclosed : lexemes.Closed) (h : (run source lexemes).result = .error f) :
    f.source = source ∧ ∃ ds s used, Finished source lexemes ds s ∧
      lexemes.stream = used ++ s.stream ∧ Trail nothing Declaration.SpelledBy ds used ∧
      DeclarationSlip ds s.stream f.cause := by
  obtain ⟨ds, s, s', hs, hd⟩ := of_error h
  obtain ⟨hsclosed, htypes, -⟩ := hs.invariant hclosed
  obtain ⟨used, hreads, htrail⟩ := hs.spelled hclosed
  have hrefused := declaration_refused hsclosed.passComments htypes (Nat.le_refl _) hd
  obtain ⟨c, rfl, hslip⟩ := hrefused.of_passComments
  exact ⟨hreads.source, ds, s, used, hs, hreads.stream, htrail, hslip⟩

end Finished

/-- What the fault of a run points at is located among the tokens. -/
theorem located_of_slip {used ts : List Token} {c : Cause}
    (htrail : Trail nothing Declaration.SpelledBy ds used) (hslip : DeclarationSlip ds ts c) :
    Cause.Located (used ++ ts) c := by
  refine hslip.located fun d hd => ?_
  obtain ⟨us, hus, hsub⟩ := htrail.item_of_mem hd
  exact hus.standsIn.mono hsub

/-- The fault of a run is of its source and located among its tokens. -/
theorem located_of_run (hclosed : lexemes.Closed) (h : (run source lexemes).result = .error f) :
    f.source = source ∧ Cause.Located lexemes.stream f.cause := by
  obtain ⟨hsource, ds, s, used, -, hstream, htrail, hslip⟩ :=
    Finished.slip_of_error hclosed h
  rw [hstream]
  exact ⟨hsource, located_of_slip htrail hslip⟩

end Parser

/-- The first declaration of a name in use stands in front of the second. -/
theorem Cause.Located.first_lt {text : String} {ts : List Token} {name : String}
    {offset first : Nat} (h : Located ts (.nameInUse name offset first)) (hp : Placed text ts) :
    first < offset := by
  cases h with
  | @nameInUse u t hpair hkind _ =>
    have hordered := List.pairwise_pair.mp (hp.ordered.sublist hpair)
    have hu : u ∈ ts := hpair.subset List.mem_cons_self
    have hpos := (hp.proper u hu (by simp [hkind])).2
    exact Nat.lt_of_lt_of_le hpos hordered

/-- **Every fault of a text has its reason in the text.** With the declarations finished before the
fault, which the tokens in front of it spell, the declaration that begins behind them has a slip
with the cause of the fault. A name in use was declared further in front. -/
theorem Schema.parse_refused {source : SourceId} {text : String} {f : Fault}
    (hnormal : Text.isNormalized text.toList = true)
    (h : (Schema.parse source text).result = .error f) :
    f.source = source ∧ ∃ ds s used,
      Parser.Finished source (Scan.ofText text.toList).lexemes ds s ∧
      Text.stream text = used ++ s.stream ∧ Trail nothing Declaration.SpelledBy ds used ∧
      Parser.DeclarationSlip ds s.stream f.cause ∧
      ∀ name offset first, f.cause = .nameInUse name offset first → first < offset := by
  rw [Schema.parse_of_normalized hnormal] at h
  obtain ⟨hsource, ds, s, used, hs, hstream, htrail, hslip⟩ :=
    Parser.Finished.slip_of_error (Scan.lexemes_closed _) h
  refine ⟨hsource, ds, s, used, hs, hstream, htrail, hslip, ?_⟩
  intro name offset first hcause
  have hlocated := Parser.located_of_slip htrail hslip
  rw [← hstream, hcause] at hlocated
  exact hlocated.first_lt (Text.stream_placed text)

/-- A field has the name of a parameter, in the second declaration of a text. -/
theorem Schema.parse_refused_field :
    ∃ text f, text = "a ::= UINT s ::= SEQUENCE[n] \x7b n a \x7d" ∧
      f = ⟨⟨7⟩, .nameInUse "n" 31 26⟩ ∧ Text.isNormalized text.toList = true ∧
      (Schema.parse ⟨7⟩ text).result = .error f ∧ ∃ ds s used,
        Parser.Finished ⟨7⟩ (Scan.ofText text.toList).lexemes ds s ∧
        Text.stream text = used ++ s.stream ∧ Trail nothing Declaration.SpelledBy ds used ∧
        Parser.DeclarationSlip ds s.stream f.cause := by
  have hnormal : Text.isNormalized "a ::= UINT s ::= SEQUENCE[n] \x7b n a \x7d".toList = true := by
    decide +kernel
  have h : (Schema.parse ⟨7⟩ "a ::= UINT s ::= SEQUENCE[n] \x7b n a \x7d").result =
      .error ⟨⟨7⟩, .nameInUse "n" 31 26⟩ := by
    decide +kernel
  obtain ⟨-, ds, s, used, hs, hstream, htrail, hslip, -⟩ := Schema.parse_refused hnormal h
  exact ⟨_, _, rfl, rfl, hnormal, h, ds, s, used, hs, hstream, htrail, hslip⟩

end RecordSchema
