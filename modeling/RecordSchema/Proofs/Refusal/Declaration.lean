import RecordSchema.Proofs.Refusal.Member

/-!
# Why a declaration is refused

The reasons that a declaration can be refused for, told by its tokens from the first to the one
that is refused: a slip inside a member, or one of the declaration itself. What was read before is
spelled by the tokens in front, so that the names known at that point are those of the parameters
and the fields in front of it.

Results:
* `body_refused`: why the body of a declaration is refused.
* `declaration_refused`: why a declaration is.
-/

namespace RecordSchema.Parser

open State Refused

/-! ## Reasons -/

/-- A list of parameters is malformed, or one has the name of another in front of it. -/
inductive ParametersSlip : List Token → Cause → Prop
  | malformed {ts : List Token} {c : Cause} (h : Ahead Malformed ts c) : ParametersSlip ts c
  | again {o t : Token} {ps : List Name} {p : Name} {us ts : List Token}
      (ho : o.kind = .leftSquare) (hp : Begun (perhaps .comma) Name.SpelledBy ps us)
      (ht : t.kind = .identifier) (hmem : p ∈ ps) (hname : p.text = t.text) :
      ParametersSlip (o :: (us ++ t :: ts)) (.nameInUse t.text t.offset p.offset)

/-- A field is malformed, has a slip in its type, or the name of a parameter or of a field in front
of it. -/
inductive FieldSlip (before : List Declaration) (known : List Name) : List Token → Cause → Prop
  | malformed {ts : List Token} {c : Cause} (h : Ahead Malformed ts c) : FieldSlip before known ts c
  | type {t : Token} {ts : List Token} {c : Cause} (ht : t.kind = .identifier)
      (h : ReferenceSlip before (texts known) ts c) : FieldSlip before known (t :: ts) c
  | again {t : Token} {p : Name} {r : Reference} {us ts : List Token} (ht : t.kind = .identifier)
      (hr : r.SpelledBy us) (hmem : p ∈ known) (hname : p.text = t.text) :
      FieldSlip before known (t :: (us ++ ts)) (.nameInUse t.text t.offset p.offset)

/-- Behind some parameters and fields there is no further field or closing brace, or a field with a
slip. -/
inductive FieldsSlip (before : List Declaration) (ps : List Name) : List Token → Cause → Prop
  | malformed {ts : List Token} {c : Cause} (h : Ahead Malformed ts c) : FieldsSlip before ps ts c
  | field {o : Token} {fs : List Field} {us ts : List Token} {c : Cause} (ho : o.kind = .leftCurly)
      (hf : Trail nothing Field.SpelledBy fs us)
      (h : FieldSlip before (ps ++ fs.map (·.name)) ts c) :
      FieldsSlip before ps (o :: (us ++ ts)) c

/-- A branch is malformed, has a slip in its type or condition, or is a second default branch. -/
inductive BranchSlip (before : List Declaration) (x : Name) (ps : List Name) (bs : List Branch) :
    List Token → Cause → Prop
  | malformed {ts : List Token} {c : Cause} (h : Ahead Malformed ts c) :
      BranchSlip before x ps bs ts c
  | type {ts : List Token} {c : Cause} (h : ReferenceSlip before (texts ps) ts c) :
      BranchSlip before x ps bs ts c
  | condition {r : Reference} {o : Token} {us ts : List Token} {c : Cause} (hr : r.SpelledBy us)
      (ho : o.kind = .leftParen) (h : Ahead (OperandSlip (texts ps)) ts c) :
      BranchSlip before x ps bs (us ++ o :: ts) c
  | duplicate {b first : Branch} {us ts : List Token} (hb : b.SpelledBy us)
      (hdefault : b.condition = .default)
      (hfirst : bs.filter (·.condition.isDefault) = [first]) :
      BranchSlip before x ps bs (us ++ ts)
        (.duplicateDefault x.text x.offset first.type.name.offset)

/-- The keyword and the parameters of a sequence or an array. -/
inductive Heading : List Name → List Token → Prop
  | bare {k : Token} (hk : k.kind = .sequence) : Heading [] [k]
  | sequence {k : Token} {ps : List Name} {us : List Token} (hk : k.kind = .sequence)
      (hp : Bracketed Name.SpelledBy ps us) : Heading ps (k :: us)
  | array {k : Token} {p : Name} {us : List Token} (hk : k.kind = .array)
      (hp : Bracketed Name.SpelledBy [p] us) : Heading [p] (k :: us)

/-- A body has a slip in its parameters, fields or branches; or it is an array with two parameters
or more; or a choice that is complete, without a default branch. -/
inductive BodySlip (before : List Declaration) (x : Name) : List Token → Cause → Prop
  | malformed {ts : List Token} {c : Cause} (h : Ahead Malformed ts c) : BodySlip before x ts c
  | parameters {k : Token} {ts : List Token} {c : Cause}
      (hk : k.kind = .sequence ∨ k.kind = .array ∨ k.kind = .choice) (h : ParametersSlip ts c) :
      BodySlip before x (k :: ts) c
  | parameterCount {k : Token} {ps : List Name} {us ts : List Token} (hk : k.kind = .array)
      (hp : Bracketed Name.SpelledBy ps us) (hcount : 2 ≤ ps.length) :
      BodySlip before x (k :: (us ++ ts)) (.parameterCount x.text 1 ps.length x.offset)
  | fields {ps : List Name} {us ts : List Token} {c : Cause} (hh : Heading ps us)
      (h : FieldsSlip before ps ts c) : BodySlip before x (us ++ ts) c
  | branch {k o : Token} {ps : List Name} {bs : List Branch} {us vs ts : List Token} {c : Cause}
      (hk : k.kind = .choice) (hp : Bracketed Name.SpelledBy ps us) (ho : o.kind = .leftCurly)
      (hb : Trail nothing Branch.SpelledBy bs vs) (h : BranchSlip before x ps bs ts c) :
      BodySlip before x (k :: (us ++ o :: (vs ++ ts))) c
  | missingDefault {k : Token} {ps : List Name} {bs : List Branch} {us vs ts : List Token}
      (hk : k.kind = .choice) (hp : Bracketed Name.SpelledBy ps us)
      (hb : Braced Branch.SpelledBy bs vs) (hnone : ∀ b ∈ bs, b.condition ≠ .default) :
      BodySlip before x (k :: (us ++ (vs ++ ts))) (.missingDefault x.text x.offset)

/-- A declaration has the name of one before it, or a slip in its body. -/
inductive DeclarationSlip (before : List Declaration) : List Token → Cause → Prop
  | malformed {ts : List Token} {c : Cause} (h : Ahead Malformed ts c) : DeclarationSlip before ts c
  | again {t : Token} {d : Declaration} {ts : List Token} (ht : t.kind = .identifier)
      (hd : d ∈ before) (hname : d.name.text = t.text) :
      DeclarationSlip before (t :: ts) (.nameInUse t.text t.offset d.name.offset)
  | body {t a : Token} {ts : List Token} {c : Cause} (ht : t.kind = .identifier)
      (hnew : t.text ∉ before.map (·.name.text)) (ha : a.kind = .assignment)
      (h : BodySlip before ⟨t.text, t.offset⟩ ts c) : DeclarationSlip before (t :: a :: ts) c

/-! ## Inside a declaration -/

variable {n : Nat} {before : List Declaration} {x : Name} {known ps : List Name} {s s' : State}
  {f : Fault}

/-- A state inside the declaration of a name, by the names known there. -/
structure State.Inside (s : State) (before : List Declaration) (x : Name) (known : List Name) :
    Prop where
  closed : s.Closed
  types : s.types = TypeTable.of before
  declaring : s.declaring = x
  scope : s.scope = .of known

namespace State.Inside

theorem holds (h : s.Inside before x known) : s.scope.Holds (texts known) :=
  h.scope ▸ Scope.holds_of known

theorem opened (h : s.Inside before x known) (rule : Rule) :
    (s.opened rule).Inside before x known :=
  ⟨h.closed.opened rule, h.types, h.declaring, h.scope⟩

theorem passes {known' : List Name} {us : List Token} (h : s.Inside before x known)
    (hp : Passes s us s') (hscope : s'.scope = .of known') : s'.Inside before x known' :=
  ⟨hp.closed, hp.types.trans h.types, hp.declaring.trans h.declaring, hscope⟩

theorem takes {us : List Token} (h : s.Inside before x known) (ht : Takes s us s') :
    s'.Inside before x known :=
  h.passes ht.toPasses (ht.scope.trans h.scope)

end State.Inside

/-- The stream behind an identifier that was read as a name. -/
theorem stream_of_name {m : Name} (hs : s.Closed) (h : name s = .ok m s') :
    ∃ t, t.kind = .identifier ∧ m = ⟨t.text, t.offset⟩ ∧ Takes s [t] s' := by
  obtain ⟨hk, rfl, rfl⟩ := name_ok.mp h
  exact ⟨s.current, hk, rfl, .skip hs fun he => absurd (hk.symm.trans he) (by decide)⟩

/-! ## Parameters -/

theorem parameter_error (hs : s.Closed) (hn : s.scope = .of known)
    (h : parameter s = .error f s') :
    Refused Malformed s f ∨ ∃ t p ts, t.kind = .identifier ∧ p ∈ known ∧ p.text = t.text ∧
      s.stream = t :: ts ∧ f = ⟨s.source, .nameInUse t.text t.offset p.offset⟩ := by
  rcases bind_error.mp h with h | ⟨y, s₁, hy, h⟩
  · exact Or.inl (name_error h)
  · obtain ⟨t, ht, rfl, htakes⟩ := stream_of_name hs hy
    obtain ⟨p, hmem, hname, rfl⟩ :=
      declareName_error (htakes.scope.trans hn) (bind_pure_error.mp h)
    exact Or.inr ⟨t, p, _, ht, hmem, hname, htakes.stream, by rw [htakes.source]⟩

theorem moreParameters_error (hs : s.Closed) (h : moreParameters s = .error f s') :
    Refused Malformed s f := by
  rcases bind_error.mp h with h | ⟨answer, s₁, ha, h⟩
  · exact absurd (accept_error.mp h) id
  · cases answer with
    | true => exact absurd (pure_error.mp h) id
    | false =>
      obtain ⟨htakes, -, -⟩ := accept_sound_false hs ha
      have hnext := expect_error (bind_pure_error.mp h)
      exact hnext.behind htakes.toReads fun _ _ h => h

theorem parameters_refused (hs : s.Closed) (hn : s.scope = .of [])
    (h : descend (readRule n) .parameters s = .error f s') : Refused ParametersSlip s f := by
  refine rule_refused (fun _ _ => .malformed) h fun m s₁ _ h => ?_
  have hmalformed (h : Refused (Ahead Malformed) (s.opened .parameters) f) :
      Refused ParametersSlip (s.opened .parameters) f := h.mono fun _ _ => .malformed
  rcases bind_take_error (hs.opened _) (by decide) h with h | ⟨o, s₂, hopen, hos, h⟩
  · exact hmalformed h.ahead
  · have hscope : s₂.scope = .of [] := hos.scope.trans hn
    rcases bind_error.mp h with h | ⟨ps, s₃, hps, h⟩
    · rcases keeps_parameters.error_of_many1 (starts_parameters hos.closed hscope) h with
        h | ⟨as, ts, s₃, hlist, hts, ⟨hclosed, hscope, -⟩, ⟨_, h⟩ | ⟨s₄, s₅, hm, h⟩⟩
      · rcases parameter_error hos.closed hscope h with h | ⟨_, _, _, -, hmem, -⟩
        · exact hmalformed (h.ahead.of_reads hos.toReads)
        · exact absurd hmem List.not_mem_nil
      · have hreads := hos.toReads.trans hts.toReads
        exact hmalformed ((moreParameters_error hclosed h).ahead.of_reads hreads)
      · obtain ⟨js, hj, hjs⟩ := moreParameters_sound hclosed hm
        have hreads := (hos.toReads.trans hts.toReads).trans hjs.toReads
        rcases parameter_error hjs.closed (hjs.scope.trans hscope) h with
          h | ⟨t, p, vs, ht, hmem, hname, hstream, rfl⟩
        · exact hmalformed (h.ahead.of_reads hreads)
        · refine of_stream hreads ?_
          rw [hstream]
          simpa using
            ParametersSlip.again (List.mem_singleton.mp hopen) (.more hlist hj) ht hmem hname
    · obtain ⟨ts, s₄, -, hts, ⟨hclosed, -⟩, hend⟩ :=
        listed_of_many1 keeps_parameters (starts_parameters hos.closed hscope) hps
      have hclose := take_error (bind_pure_error.mp h)
      exact hmalformed (hclose.ahead.of_reads (hos.toReads.trans hts.toReads))

/-! ## Fields -/

theorem field_refused (hs : s.Inside before x known)
    (h : descend (readRule n) .field s = .error f s') : Refused (FieldSlip before known) s f := by
  refine rule_refused (fun _ _ => .malformed) h fun m s₁ _ h => ?_
  have hinside := hs.opened .field
  rcases bind_error.mp h with h | ⟨y, s₂, hy, h⟩
  · exact (name_error h).ahead.mono fun _ _ => .malformed
  · obtain ⟨t, ht, rfl, htakes⟩ := stream_of_name hinside.closed hy
    have hinside := hinside.takes htakes
    rcases bind_error.mp h with h | ⟨r, s₃, hr, h⟩
    · exact (reference_refused hinside.closed hinside.holds hinside.types h).behind
        htakes.toReads fun _ _ => .type ht
    · obtain ⟨us, hus, hspell, -⟩ :=
        reference_sound hinside.closed hinside.holds hinside.types hr
      obtain ⟨p, hmem, hname, rfl⟩ :=
        declareName_error (hinside.takes hus).scope (bind_pure_error.mp h)
      refine of_stream (htakes.trans hus).toReads ?_
      simpa using FieldSlip.again ht hspell hmem hname

theorem fields_refused (hs : s.Inside before x ps)
    (h : fields (readRule n) s = .error f s') : Refused (FieldsSlip before ps) s f := by
  rcases bind_take_error hs.closed (by decide) h with h | ⟨o, s₁, hopen, hos, h⟩
  · exact h.ahead.mono fun _ _ => .malformed
  · have hinside := hs.takes hos
    have hstarts {f s₂} := @starts_fields n before s₁ s₂ f ps hos.closed hinside.scope hinside.types
    rcases bind_error.mp h with h | ⟨fs, s₂, hfs, h⟩
    · rcases (keeps_fields n before ps).error_of_many1 hstarts h with
        h | ⟨as, ts, s₃, hlist, hts, ⟨hclosed, -, hscope, -⟩, ⟨_, h⟩ | ⟨s₄, s₅, hm, h⟩⟩
      · refine (field_refused hinside h).behind hos.toReads fun ts c h => ?_
        rw [← List.append_nil ps] at h
        simpa using FieldsSlip.field (List.mem_singleton.mp hopen) .nil h
      · exact absurd (canStart_error.mp h) id
      · obtain ⟨-, rfl⟩ := canStart_ok.mp hm
        have hlook : Takes s₃ [] s₃.passComments := .look hclosed
        have hinside := (hinside.passes hts hscope).takes hlook
        refine (field_refused hinside h).of_passComments.behind (hos.toReads.trans hts.toReads) ?_
        intro vs c h
        simpa using FieldsSlip.field (List.mem_singleton.mp hopen) hlist.trail h
    · obtain ⟨ts, s₃, -, hts, -, -⟩ := listed_of_many1 (keeps_fields n before ps) hstarts hfs
      have hclose := take_error (bind_pure_error.mp h)
      exact (hclose.ahead.of_reads (hos.toReads.trans hts.toReads)).mono fun _ _ => .malformed

theorem sequence_refused (hs : s.Inside before x [])
    (h : descend (readRule n) .sequence s = .error f s') : Refused (BodySlip before x) s f := by
  refine rule_refused (fun _ _ => .malformed) h fun m s₁ _ h => ?_
  have hinside := hs.opened .sequence
  rcases bind_take_error hinside.closed (by decide) h with h | ⟨k, s₂, hword, hks, h⟩
  · exact h.ahead.mono fun _ _ => .malformed
  · have hsequence := List.mem_singleton.mp hword
    obtain ⟨answer, h⟩ := bind_canStart_error h
    have hlook : Takes (s.opened .sequence) [k] s₂.passComments := hks.trans (.look hks.closed)
    have hinside := hinside.takes hlook
    cases answer with
    | true =>
      rcases bind_error.mp h with h | ⟨ps, s₄, hp, h⟩
      · refine (parameters_refused hinside.closed hinside.scope h).behind hlook.toReads ?_
        exact fun _ _ => .parameters (Or.inl hsequence)
      · obtain ⟨us, hus, hpspell, hscope, -⟩ := parameters_sound hinside.closed hinside.scope hp
        have hfields := fields_refused (hinside.passes hus hscope) (bind_pure_error.mp h)
        refine hfields.behind (hlook.toReads.trans hus.toReads) ?_
        exact fun _ _ => .fields (.sequence hsequence hpspell)
    | false =>
      have hnone := (bind_error_of_ok (pure_ok.mpr ⟨rfl, rfl⟩)).mp h
      have hfields := fields_refused hinside (bind_pure_error.mp hnone)
      exact hfields.behind hlook.toReads fun _ _ => .fields (.bare hsequence)

theorem two_le_length {ps : List Name} (hne : ps ≠ []) (hone : ∀ p, ps = [p] → False) :
    2 ≤ ps.length := by
  cases ps with
  | nil => exact absurd rfl hne
  | cons p rest =>
    cases rest with
    | nil => exact absurd rfl (hone p)
    | cons q rest => exact Nat.le_add_left 2 _

theorem array_refused (hs : s.Inside before x [])
    (h : descend (readRule n) .array s = .error f s') : Refused (BodySlip before x) s f := by
  refine rule_refused (fun _ _ => .malformed) h fun m s₁ _ h => ?_
  have hinside := hs.opened .array
  rcases bind_take_error hinside.closed (by decide) h with h | ⟨k, s₂, hword, hks, h⟩
  · exact h.ahead.mono fun _ _ => .malformed
  · have harray := List.mem_singleton.mp hword
    have hinside := hinside.takes hks
    rcases bind_error.mp h with h | ⟨ps, s₃, hp, h⟩
    · refine (parameters_refused hinside.closed hinside.scope h).behind hks.toReads ?_
      exact fun _ _ => .parameters (Or.inr (Or.inl harray))
    · obtain ⟨us, hus, hpspell, hscope, -⟩ := parameters_sound hinside.closed hinside.scope hp
      have hinside := hinside.passes hus hscope
      have hreads := hks.toReads.trans hus.toReads
      split at h
      · exact (fields_refused hinside (bind_pure_error.mp h)).behind hreads
          fun _ _ => .fields (.array harray hpspell)
      · rename_i hone
        obtain ⟨rfl, -⟩ := fail_declaring_error.mp h
        refine of_stream hreads ?_
        rw [hinside.declaring]
        exact .parameterCount harray hpspell (two_le_length hpspell.items_ne_nil hone)

/-! ## Choices -/

/-- Behind a branch that is a second default there was one default before. -/
theorem nextBranch_error {sub : Rule → Parser Node} {bs : List Branch}
    (h : nextBranch sub bs s = .error f s') :
    descend sub .branch s = .error f s' ∨ ∃ b s₁ first, descend sub .branch s = .ok b s₁ ∧
      b.condition = .default ∧ first ∈ bs ∧ first.condition.isDefault = true ∧
      f = ⟨s₁.source, .duplicateDefault s₁.declaring.text s₁.declaring.offset
        first.type.name.offset⟩ := by
  rcases bind_error.mp h with h | ⟨b, s₁, hb, h⟩
  · exact Or.inl h
  · cases hoffset : defaultOffset? bs with
    | none =>
      rw [hoffset] at h
      exact absurd (pure_error.mp h) id
    | some offset =>
      rw [hoffset] at h
      cases hcondition : b.condition with
      | expression d =>
        rw [hcondition] at h
        exact absurd (pure_error.mp h) id
      | default =>
        rw [hcondition] at h
        obtain ⟨rfl, -⟩ := fail_declaring_error.mp h
        obtain ⟨first, hfind, rfl⟩ := Option.map_eq_some_iff.mp hoffset
        have hfirst := List.find?_some hfind
        exact Or.inr ⟨b, _, first, hb, hcondition, List.mem_of_find?_eq_some hfind, hfirst, rfl⟩

/-- Of branches of which at most one is the default, that one is the only one. -/
theorem filter_default {bs : List Branch} {first : Branch}
    (hcount : bs.countP (·.condition.isDefault) ≤ 1) (hmem : first ∈ bs)
    (hdefault : first.condition.isDefault = true) :
    bs.reverse.filter (·.condition.isDefault) = [first] := by
  have hfilter : first ∈ bs.filter (·.condition.isDefault) := List.mem_filter.mpr ⟨hmem, hdefault⟩
  have hlength : (bs.filter (·.condition.isDefault)).length = 1 := by
    have hpos := List.length_pos_of_mem hfilter
    rw [List.countP_eq_length_filter] at hcount
    omega
  obtain ⟨b, hb⟩ := List.length_eq_one_iff.mp hlength
  rw [hb] at hfilter
  rw [List.filter_reverse, hb, List.mem_singleton.mp hfilter, List.reverse_singleton]

/-- Without an offset of a default branch there is none. -/
theorem no_default {bs : List Branch} (h : (defaultOffset? bs).isNone = true) :
    ∀ b ∈ bs, b.condition ≠ .default := by
  rw [Option.isNone_iff_eq_none, defaultOffset?_eq_none, List.countP_eq_zero] at h
  intro b hb hdefault
  exact h b hb (by rw [hdefault]; rfl)

theorem branch_refused {bs : List Branch} (hs : s.Inside before x ps)
    (h : descend (readRule n) .branch s = .error f s') :
    Refused (BranchSlip before x ps bs) s f := by
  refine rule_refused (fun _ _ => .malformed) h fun m s₁ _ h => ?_
  have hinside := hs.opened .branch
  rcases bind_error.mp h with h | ⟨r, s₂, hr, h⟩
  · exact (reference_refused hinside.closed hinside.holds hinside.types h).mono fun _ _ => .type
  · obtain ⟨us, hus, hspell, -⟩ := reference_sound hinside.closed hinside.holds hinside.types hr
    rcases bind_take_error hus.closed (by decide) h with h | ⟨o, s₃, hopen, hos, h⟩
    · exact (h.ahead.of_reads hus.toReads).mono fun _ _ => .malformed
    · have hreads := hus.toReads.trans hos.toReads
      have hinside := (hinside.takes hus).takes hos
      rcases bind_error.mp h with h | ⟨_, s₄, hc, h⟩
      · refine ((Judged.condition m).refuses hinside.closed hinside.holds h).behind hreads ?_
        intro ts c h
        simpa using BranchSlip.condition hspell (List.mem_singleton.mp hopen) h
      · obtain ⟨ts, hts⟩ := (Judged.condition m).takes hinside.closed hinside.holds hc
        have hclose := take_error (bind_pure_error.mp h)
        exact (hclose.ahead.of_reads (hreads.trans hts.toReads)).mono fun _ _ => .malformed

theorem nextBranch_refused {bs : List Branch} (hs : s.Inside before x ps)
    (hlevels : n + 2 ≤ nestingLimit) (hcount : bs.countP (·.condition.isDefault) ≤ 1)
    (h : nextBranch (readRule n) bs s = .error f s') :
    Refused (BranchSlip before x ps bs.reverse) s f := by
  rcases nextBranch_error h with h | ⟨b, s₁, first, hb, hdefault, hmem, hfirst, rfl⟩
  · exact branch_refused hs h
  · obtain ⟨us, hus, hspell, -⟩ := branch_sound hs.closed hs.holds hs.types hlevels hb
    refine of_stream hus.toReads ?_
    rw [(hs.takes hus).declaring]
    exact .duplicate hspell hdefault (filter_default hcount hmem hfirst)

theorem choice_refused (hs : s.Inside before x []) (hlevels : n + 1 ≤ nestingLimit)
    (h : descend (readRule n) .choice s = .error f s') : Refused (BodySlip before x) s f := by
  refine rule_refused (fun _ _ => .malformed) h fun m s₁ hm hread => ?_
  subst hm
  have hmalformed (h : Refused (Ahead Malformed) (s.opened .choice) f) :
      Refused (BodySlip before x) (s.opened .choice) f := h.mono fun _ _ => .malformed
  have hinside := hs.opened .choice
  rcases bind_take_error hinside.closed (by decide) hread with h | ⟨k, s₂, hword, hks, h⟩
  · exact hmalformed h.ahead
  · have hchoice := List.mem_singleton.mp hword
    have hinside := hinside.takes hks
    rcases bind_error.mp h with h | ⟨ps, s₃, hp, h⟩
    · refine (parameters_refused hinside.closed hinside.scope h).behind hks.toReads ?_
      exact fun _ _ => .parameters (Or.inr (Or.inr hchoice))
    · obtain ⟨us, hus, hpspell, hscope, -⟩ := parameters_sound hinside.closed hinside.scope hp
      have hinside := hinside.passes hus hscope
      have hreads := hks.toReads.trans hus.toReads
      rcases bind_take_error hus.closed (by decide) h with h | ⟨o, s₄, hopen, hos, h⟩
      · exact hmalformed (h.ahead.of_reads hreads)
      · have hinside := hinside.takes hos
        have hreads := hreads.trans hos.toReads
        have hslip {bs : List Branch} {vs : List Token} {s₅ : State}
            (hb : Trail nothing Branch.SpelledBy bs vs) (hvs : Reads s₄ vs s₅)
            (h : Refused (BranchSlip before x ps bs) s₅ f) :
            Refused (BodySlip before x) (s.opened .choice) f := by
          refine h.behind (hreads.trans hvs) fun ts c h => ?_
          simpa using BodySlip.branch hchoice hpspell (List.mem_singleton.mp hopen) hb h
        have hstarts {b s₅} := @starts_branches m (texts ps) before s₄ s₅ b hos.closed
          hinside.holds hinside.types hlevels
        rcases bind_error.mp h with h | ⟨bs, s₅, hbs, h⟩
        · rcases (keeps_branches before (texts ps) hlevels).error_of_many1 hstarts h with
            h | ⟨as, vs, s₅, hlist, hvs, ⟨hclosed, -, -, hcount, -⟩, ⟨_, h⟩ | ⟨s₆, s₇, hm, h⟩⟩
          · exact hslip .nil (Takes.rfl hos.closed).toReads
              (nextBranch_refused hinside hlevels (Nat.zero_le _) h)
          · exact absurd (canStart_error.mp h) id
          · obtain ⟨-, rfl⟩ := canStart_ok.mp hm
            have hinside := (hinside.takes hvs).takes (.look hclosed)
            exact hslip hlist.trail hvs.toReads
              (nextBranch_refused hinside hlevels hcount h).of_passComments
        · obtain ⟨vs, hvs, hlist, -, -, hstop⟩ :=
            branches_sound hos.closed hinside.holds hinside.types hlevels hbs
          rcases bind_error.mp h with h | ⟨c, s₆, hc, h⟩
          · exact hmalformed ((take_error h).ahead.of_reads (hreads.trans hvs.toReads))
          · obtain ⟨hk, rfl, rfl⟩ := take_ok.mp hc
            have hclose : s₅.current.kind = .rightCurly :=
              List.mem_singleton.mp ((List.mem_append.mp hk).resolve_left hstop)
            have hlast : Takes s₅ [s₅.current] s₅.skip := .skip hvs.closed (by simp [hclose])
            have hinside := (hinside.takes hvs).takes hlast
            split at h
            · rename_i hnone
              obtain ⟨rfl, -⟩ := fail_declaring_error.mp h
              refine of_stream ((hreads.trans hvs.toReads).trans hlast.toReads) ?_
              rw [hinside.declaring]
              simpa using BodySlip.missingDefault hchoice hpspell
                (.mk (List.mem_singleton.mp hopen) hlist hclose) (no_default hnone)
            · exact absurd (pure_error.mp h) id

/-! ## Bodies and declarations -/

/-- **Why the body of a declaration is refused.** -/
theorem body_refused (hs : s.Inside before x []) (hlevels : n + 1 ≤ nestingLimit)
    (h : body (readRule n) s = .error f s') : Refused (BodySlip before x) s f := by
  have hinside := hs.takes (.look hs.closed)
  rcases body_error h with h | ⟨rule, hmem, s₁, h⟩
  · exact h.ahead.mono fun _ _ => .malformed
  · refine of_passComments ?_
    simp only [Rule.bodies, List.mem_cons, List.not_mem_nil, or_false] at hmem
    rcases hmem with rfl | rfl | rfl | rfl
    · exact (simpleType_refused hinside.closed h).mono fun _ _ => .malformed
    · exact sequence_refused hinside h
    · exact array_refused hinside h
    · exact choice_refused hinside hlevels h

/-- **Why a declaration is refused.** Once its body is read it is not refused any more, since its
name was free and is still. -/
theorem declaration_refused (hs : s.Closed) (htypes : s.types = TypeTable.of before)
    (hlevels : n ≤ nestingLimit) (h : descend (readRule n) .declaration s = .error f s') :
    Refused (DeclarationSlip before) s f := by
  refine rule_refused (fun _ _ => .malformed) h fun m s₁ hm hread => ?_
  subst hm
  rcases bind_error.mp hread with h | ⟨y, s₂, hy, h⟩
  · exact (name_error h).ahead.mono fun _ _ => .malformed
  · obtain ⟨t, ht, rfl, htakes⟩ := stream_of_name (hs.opened _) hy
    have htypes₂ : s₂.types = TypeTable.of before := htakes.types.trans htypes
    rcases bind_error.mp h with h | ⟨_, s₃, hfree, hrest⟩
    · obtain ⟨d, hd, hname, rfl⟩ := ensureFree_error htypes₂ h
      exact of_stream htakes.toReads (.again ht hd hname)
    · obtain ⟨hfree, rfl⟩ := ensureFree_ok.mp hfree
      rw [htypes₂] at hfree
      have hnew := TypeTable.ensureFree_iff.mp hfree
      rcases bind_take_error htakes.closed (by decide) hrest with h | ⟨a, s₄, hassign, has, h⟩
      · exact (h.ahead.of_reads htakes.toReads).mono fun _ _ => .malformed
      · have hreads := htakes.toReads.trans has.toReads
        have hopened := (bind_error_of_ok (openDeclaration_ok (u := ()).mpr rfl)).mp h
        have hinside : State.Inside { s₄ with scope := {}, declaring := ⟨t.text, t.offset⟩ }
            before ⟨t.text, t.offset⟩ [] :=
          ⟨has.closed, has.types.trans htypes₂, rfl, rfl⟩
        rcases bind_error.mp hopened with h | ⟨b, s₆, hb, h⟩
        · obtain ⟨c, rfl, hslip⟩ := body_refused hinside hlevels h
          refine @of_stream _ _ s₄ _ _ hreads ?_
          exact .body ht hnew (List.mem_singleton.mp hassign) hslip
        · obtain ⟨us, hus, -⟩ := body_sound hinside.closed rfl hinside.types hlevels hb
          have hclosed := (bind_error_of_ok (closeDeclaration_ok (u := ()).mpr rfl)).mp h
          rcases bind_error.mp hclosed with h | ⟨_, s₈, -, h⟩
          · exact absurd h (declareType_succeeds (hus.types.trans hinside.types) hnew)
          · cases bind_pure_error.mp h

end RecordSchema.Parser
