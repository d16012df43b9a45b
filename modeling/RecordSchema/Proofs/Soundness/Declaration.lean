import RecordSchema.Proofs.Soundness.Reference

/-!
# What is read as a declaration is spelled and well-formed

The lists of a declaration carry invariants of their own: parameters and fields are new to the
scope and added to it one by one, and of the branches read so far at most one is the default.

`fields` and `choice` take more kinds of token behind their members than the closing brace. The
loop before has stopped where no further member begins, which leaves the brace.

Results:
* `body_sound`: a body is spelled and well-formed with the declarations before it.
* `declaration_sound`: a declaration is, and the table of types is the one with it as well.
-/

namespace RecordSchema.Parser

open State

variable {n : Nat} {names : List String} {before : List Declaration} {s s' : State}

/-! ## Parameters -/

theorem parameter_sound {x : Name} {known : List Name} (hs : s.Closed)
    (hn : s.scope = .of known) (h : parameter s = .ok x s') :
    ∃ us, Passes s us s' ∧ x.SpelledBy us ∧ s'.scope = .of (known ++ [x]) ∧
      x.text ∉ texts known := by
  obtain ⟨y, s₁, hy, h⟩ := bind_ok.mp h
  obtain ⟨us, hus, hspell⟩ := name_sound hs hy
  obtain ⟨_, s₂, hd, h⟩ := bind_ok.mp h
  obtain ⟨scope, hdeclare, rfl⟩ := declareName_ok.mp hd
  rw [hus.scope, hn] at hdeclare
  obtain ⟨hnew, rfl⟩ := Scope.declare_of.mp hdeclare
  obtain ⟨rfl, rfl⟩ := pure_ok.mp h
  exact ⟨us, hus.toPasses.withScope _, hspell, rfl, hnew⟩

theorem moreParameters_sound (hs : s.Closed) (h : moreParameters s = .ok true s') :
    ∃ js, perhaps .comma js ∧ Takes s js s' := by
  obtain ⟨answer, s₁, ha, h⟩ := bind_ok.mp h
  cases answer with
  | true =>
    obtain ⟨js, hj, htakes⟩ := accept_only hs (by decide) ha
    obtain ⟨-, rfl⟩ := pure_ok.mp h
    exact ⟨js, .inr hj, htakes⟩
  | false =>
    obtain ⟨htakes, -, -⟩ := accept_sound_false hs ha
    obtain ⟨t, s₂, ht, h⟩ := bind_ok.mp h
    obtain ⟨-, rfl, rfl⟩ := expect_ok.mp ht
    obtain ⟨-, rfl⟩ := pure_ok.mp h
    exact ⟨[], .inl rfl, htakes.trans (.look htakes.closed)⟩

theorem moreParameters_sound_false (hs : s.Closed) (h : moreParameters s = .ok false s') :
    Takes s [] s' := by
  obtain ⟨answer, s₁, ha, h⟩ := bind_ok.mp h
  cases answer with
  | true => exact absurd (pure_ok.mp h).1 (by decide)
  | false =>
    obtain ⟨htakes, -, -⟩ := accept_sound_false hs ha
    obtain ⟨t, s₂, ht, h⟩ := bind_ok.mp h
    obtain ⟨-, rfl, rfl⟩ := expect_ok.mp ht
    obtain ⟨-, rfl⟩ := pure_ok.mp h
    exact htakes.trans (.look htakes.closed)

/-- The turns of the loop over the parameters. -/
theorem keeps_parameters :
    Keeps Passes moreParameters (fun _ => parameter) (perhaps .comma) Name.SpelledBy
      fun before s => s.Closed ∧ s.scope = .of before.reverse ∧ (texts before.reverse).Nodup := by
  refine ⟨Passes.spans, ?_, fun hinv hm => (moreParameters_sound_false hinv.1 hm).toPasses⟩
  rintro before x s s₁ s₂ ⟨hclosed, hscope, hnodup⟩ hm hx
  obtain ⟨js, hj, hjs⟩ := moreParameters_sound hclosed hm
  obtain ⟨us, hus, hspell, hscope, hnew⟩ :=
    parameter_sound hjs.closed (hjs.scope.trans hscope) hx
  refine ⟨⟨hus.closed, by simpa using hscope, ?_⟩, js, us, hj, hspell, hspell.begins.ne_nil,
    hjs.toPasses.trans hus⟩
  rw [List.reverse_cons, texts, List.map_append]
  exact List.nodup_append_comm.mp (List.nodup_cons.mpr ⟨hnew, hnodup⟩)

/-- The first parameter. -/
theorem starts_parameters {x : Name} (hs : s.Closed) (hn : s.scope = .of [])
    (h : parameter s = .ok x s') :
    (s'.Closed ∧ s'.scope = .of [x].reverse ∧ (texts [x].reverse).Nodup) ∧
      ∃ us, x.SpelledBy us ∧ Passes s us s' := by
  obtain ⟨us, hus, hspell, hscope, -⟩ := parameter_sound hs hn h
  exact ⟨⟨hus.closed, hscope, List.nodup_singleton _⟩, us, hspell, hus⟩

theorem parameters_sound {ps : List Name} (hs : s.Closed) (hn : s.scope = .of [])
    (h : descend (readRule n) .parameters s = .ok ps s') :
    ∃ us, Passes s us s' ∧ Bracketed Name.SpelledBy ps us ∧ s'.scope = .of ps ∧
      (texts ps).Nodup := by
  obtain ⟨m, s₁, rfl, hrun, rfl⟩ := level_of_descend h
  clear h
  obtain ⟨o, s₂, ho, h⟩ := bind_ok.mp hrun
  obtain ⟨hopen, hos⟩ := take_sound (hs.opened _) (by decide) ho
  obtain ⟨items, s₃, hitems, h⟩ := bind_ok.mp h
  obtain ⟨ts, s₄, hlist, hts, ⟨hclosed, hscope, hnodup⟩, hend⟩ :=
    listed_of_many1 keeps_parameters (starts_parameters hos.closed (hos.scope.trans hn)) hitems
  have hstop := moreParameters_sound_false hclosed hend
  obtain ⟨c, s₅, hc, h⟩ := bind_ok.mp h
  obtain ⟨hclose, hcs⟩ := take_sound hts.closed (by decide) hc
  obtain ⟨rfl, rfl⟩ := pure_ok.mp h
  have hall := (hos.toPasses.trans hts).trans hcs.toPasses
  rw [List.reverse_reverse] at hscope hnodup
  refine ⟨o :: (ts ++ [c]), by simpa using hall.rule, ?_, ?_, hnodup⟩
  · exact .mk (List.mem_singleton.mp hopen) hlist (List.mem_singleton.mp hclose)
  · exact (hcs.scope.trans hstop.scope).trans hscope

/-! ## Fields -/

/-- Where no further rule begins, the current token is none that it can begin with. -/
theorem canStart_sound_false {rule : Rule} (hs : s.Closed) (h : canStart rule s = .ok false s') :
    Takes s [] s' ∧ s'.current.kind ∉ rule.first := by
  obtain ⟨hstart, rfl⟩ := canStart_ok.mp h
  exact ⟨.look hs, of_decide_eq_false hstart.symm⟩

/-- The turns of the loop over the fields, behind some parameters. -/
theorem keeps_fields (n : Nat) (before : List Declaration) (ps : List Name) :
    Keeps Passes (canStart .field) (fun _ => descend (readRule n) .field) nothing
      Field.SpelledBy fun fs s => s.Closed ∧ s.types = TypeTable.of before ∧
        s.scope = .of (ps ++ fs.reverse.map (·.name)) ∧
        FieldsWellFormed before (texts ps) fs.reverse := by
  refine ⟨Passes.spans, ?_, fun hinv hm => (canStart_sound_false hinv.1 hm).1.toPasses⟩
  rintro fs f s s₁ s₂ ⟨hclosed, htypes, hscope, hwf⟩ hm hf
  obtain ⟨-, rfl⟩ := canStart_ok.mp hm
  have hlook : Takes s [] s.passComments := .look hclosed
  obtain ⟨us, hus, hspell, hscope, hfwf, hnew⟩ := field_sound hlook.closed hscope htypes hf
  rw [texts, List.map_append] at hfwf hnew
  refine ⟨⟨hus.closed, hus.types.trans htypes, by simpa using hscope, ?_⟩, [], us, rfl, hspell,
    hspell.begins.ne_nil, hlook.toPasses.trans hus⟩
  rw [List.reverse_cons]
  exact hwf.concat hfwf hnew

/-- The first field. -/
theorem starts_fields {f : Field} {ps : List Name} (hs : s.Closed) (hn : s.scope = .of ps)
    (htypes : s.types = TypeTable.of before) (h : descend (readRule n) .field s = .ok f s') :
    (s'.Closed ∧ s'.types = TypeTable.of before ∧
      s'.scope = .of (ps ++ [f].reverse.map (·.name)) ∧
      FieldsWellFormed before (texts ps) [f].reverse) ∧
      ∃ us, f.SpelledBy us ∧ Passes s us s' := by
  obtain ⟨us, hus, hspell, hscope, hwf, hnew⟩ := field_sound hs hn htypes h
  exact ⟨⟨hus.closed, hus.types.trans htypes, hscope, hwf, hnew, trivial⟩, us, hspell, hus⟩

theorem fields_sound {fs : List Field} {ps : List Name} (hs : s.Closed) (hn : s.scope = .of ps)
    (htypes : s.types = TypeTable.of before) (h : fields (readRule n) s = .ok fs s') :
    ∃ us, Passes s us s' ∧ Braced Field.SpelledBy fs us ∧
      FieldsWellFormed before (texts ps) fs := by
  obtain ⟨o, s₁, ho, h⟩ := bind_ok.mp h
  obtain ⟨hopen, hos⟩ := take_sound hs (by decide) ho
  obtain ⟨items, s₂, hitems, h⟩ := bind_ok.mp h
  obtain ⟨ts, s₃, hlist, hts, ⟨hclosed, -, -, hwf⟩, hend⟩ :=
    listed_of_many1 (keeps_fields n before ps)
      (starts_fields hos.closed (hos.scope.trans hn) (hos.types.trans htypes)) hitems
  obtain ⟨-, hstop⟩ := canStart_sound_false hclosed hend
  obtain ⟨c, s₄, hc, h⟩ := bind_ok.mp h
  obtain ⟨hk, rfl, rfl⟩ := take_ok.mp hc
  have hclose : s₂.current.kind = .rightCurly := by
    simp only [Rule.first, List.mem_singleton] at hstop
    simpa [hstop] using hk
  obtain ⟨rfl, rfl⟩ := pure_ok.mp h
  have hlast : Takes s₂ [s₂.current] s₂.skip := .skip hts.closed (by simp [hclose])
  have hall := (hos.toPasses.trans hts).trans hlast.toPasses
  rw [List.reverse_reverse] at hwf
  exact ⟨o :: (ts ++ [s₂.current]), by simpa using hall,
    .mk (List.mem_singleton.mp hopen) hlist hclose, hwf⟩

theorem sequence_sound {b : Body} (hs : s.Closed) (hn : s.scope = .of [])
    (htypes : s.types = TypeTable.of before) (h : descend (readRule n) .sequence s = .ok b s') :
    ∃ us, Passes s us s' ∧ b.SpelledBy us ∧ b.WellFormed before := by
  obtain ⟨m, s₁, rfl, hrun, rfl⟩ := level_of_descend h
  clear h
  obtain ⟨k, s₂, hk, h⟩ := bind_ok.mp hrun
  obtain ⟨hword, hks⟩ := take_sound (hs.opened _) (by decide) hk
  obtain ⟨answer, s₃, ha, h⟩ := bind_ok.mp h
  obtain ⟨-, rfl⟩ := canStart_ok.mp ha
  have hlook : Takes (s.opened .sequence) [k] s₂.passComments := hks.trans (.look hks.closed)
  have hscope : s₂.passComments.scope = .of [] := hlook.scope.trans hn
  have htypes : s₂.passComments.types = TypeTable.of before := hlook.types.trans htypes
  cases answer with
  | true =>
    obtain ⟨ps, s₄, hp, h⟩ := bind_ok.mp h
    obtain ⟨us, hus, hpspell, hscope, hnodup⟩ := parameters_sound hlook.closed hscope hp
    obtain ⟨fs, s₅, hf, h⟩ := bind_ok.mp h
    obtain ⟨ts, hts, hfspell, hwf⟩ := fields_sound hus.closed hscope (hus.types.trans htypes) hf
    obtain ⟨rfl, rfl⟩ := pure_ok.mp h
    have hall := (hlook.toPasses.trans hus).trans hts
    exact ⟨k :: (us ++ ts), by simpa using hall.rule,
      .sequence (List.mem_singleton.mp hword) hpspell hfspell, hnodup, hfspell.items_ne_nil, hwf⟩
  | false =>
    obtain ⟨_, _, hp, h⟩ := bind_ok.mp h
    obtain ⟨rfl, rfl⟩ := pure_ok.mp hp
    obtain ⟨fs, s₄, hf, h⟩ := bind_ok.mp h
    obtain ⟨ts, hts, hfspell, hwf⟩ := fields_sound hlook.closed hscope htypes hf
    obtain ⟨rfl, rfl⟩ := pure_ok.mp h
    have hall := hlook.toPasses.trans hts
    exact ⟨k :: ts, hall.rule, .bare (List.mem_singleton.mp hword) hfspell, List.nodup_nil,
      hfspell.items_ne_nil, hwf⟩

theorem array_sound {b : Body} (hs : s.Closed) (hn : s.scope = .of [])
    (htypes : s.types = TypeTable.of before) (h : descend (readRule n) .array s = .ok b s') :
    ∃ us, Passes s us s' ∧ b.SpelledBy us ∧ b.WellFormed before := by
  obtain ⟨m, s₁, rfl, hrun, rfl⟩ := level_of_descend h
  clear h
  obtain ⟨k, s₂, hk, h⟩ := bind_ok.mp hrun
  obtain ⟨hword, hks⟩ := take_sound (hs.opened _) (by decide) hk
  obtain ⟨ps, s₃, hp, h⟩ := bind_ok.mp h
  have hscope : s₂.scope = .of [] := hks.scope.trans hn
  obtain ⟨us, hus, hpspell, hscope, -⟩ := parameters_sound hks.closed hscope hp
  split at h
  · obtain ⟨fs, s₄, hf, h⟩ := bind_ok.mp h
    obtain ⟨ts, hts, hfspell, hwf⟩ :=
      fields_sound hus.closed hscope (hus.types.trans (hks.types.trans htypes)) hf
    obtain ⟨rfl, rfl⟩ := pure_ok.mp h
    have hall := (hks.toPasses.trans hus).trans hts
    exact ⟨k :: (us ++ ts), by simpa using hall.rule,
      .array (List.mem_singleton.mp hword) hpspell hfspell, hfspell.items_ne_nil, hwf⟩
  · obtain ⟨_, _, -, h⟩ := bind_ok.mp h
    exact absurd (fail_ok.mp h) id

/-! ## Choices -/

theorem nextBranch_sound {bs : List Branch} {b : Branch} (hs : s.Closed)
    (hn : s.scope.Holds names) (htypes : s.types = TypeTable.of before)
    (hlevels : n + 2 ≤ nestingLimit) (hcount : bs.countP (·.condition.isDefault) ≤ 1)
    (h : nextBranch (readRule n) bs s = .ok b s') :
    ∃ us, Takes s us s' ∧ b.SpelledBy us ∧ b.WellFormed before names ∧
      (b :: bs).countP (·.condition.isDefault) ≤ 1 := by
  obtain ⟨hb, hfirst⟩ := nextBranch_ok.mp h
  obtain ⟨us, hus, hspell, hwf⟩ := branch_sound hs hn htypes hlevels hb
  refine ⟨us, hus, hspell, hwf, ?_⟩
  by_cases hdefault : b.condition.isDefault = true
  · simp [hdefault, hfirst hdefault]
  · simpa [List.countP_cons, hdefault] using hcount

/-- The turns of the loop over the branches. -/
theorem keeps_branches (before : List Declaration) (names : List String)
    (hlevels : n + 2 ≤ nestingLimit) :
    Keeps Takes (canStart .branch) (nextBranch (readRule n)) nothing
      Branch.SpelledBy fun bs s => s.Closed ∧ s.types = TypeTable.of before ∧
        s.scope.Holds names ∧ bs.countP (·.condition.isDefault) ≤ 1 ∧
        ∀ b ∈ bs, b.WellFormed before names := by
  refine ⟨Takes.spans, ?_, fun hinv hm => (canStart_sound_false hinv.1 hm).1⟩
  rintro bs b s s₁ s₂ ⟨hclosed, htypes, hn, hcount, hall⟩ hm hb
  obtain ⟨-, rfl⟩ := canStart_ok.mp hm
  have hlook : Takes s [] s.passComments := .look hclosed
  obtain ⟨us, hus, hspell, hwf, hcount⟩ :=
    nextBranch_sound hlook.closed hn htypes hlevels hcount hb
  refine ⟨⟨hus.closed, hus.types.trans htypes, by rwa [hus.scope], hcount, ?_⟩, [], us, rfl,
    hspell, hspell.begins.ne_nil, hlook.trans hus⟩
  exact List.forall_mem_cons.mpr ⟨hwf, hall⟩

/-- The first branch. -/
theorem starts_branches {b : Branch} (hs : s.Closed) (hn : s.scope.Holds names)
    (htypes : s.types = TypeTable.of before) (hlevels : n + 2 ≤ nestingLimit)
    (h : nextBranch (readRule n) [] s = .ok b s') :
    (s'.Closed ∧ s'.types = TypeTable.of before ∧ s'.scope.Holds names ∧
      [b].countP (·.condition.isDefault) ≤ 1 ∧ ∀ c ∈ [b], c.WellFormed before names) ∧
      ∃ us, b.SpelledBy us ∧ Takes s us s' := by
  obtain ⟨us, hus, hspell, hwf, hcount⟩ :=
    nextBranch_sound hs hn htypes hlevels (Nat.zero_le _) h
  exact ⟨⟨hus.closed, hus.types.trans htypes, by rwa [hus.scope], hcount,
    List.forall_mem_singleton.mpr hwf⟩, us, hspell, hus⟩

/-- The branches of a choice, of which at most one is the default. -/
theorem branches_sound {bs : List Branch} (hs : s.Closed) (hn : s.scope.Holds names)
    (htypes : s.types = TypeTable.of before) (hlevels : n + 2 ≤ nestingLimit)
    (h : many1 (canStart .branch) (nextBranch (readRule n)) s = .ok bs s') :
    ∃ ts, Takes s ts s' ∧ Listed nothing Branch.SpelledBy bs ts ∧
      bs.countP (·.condition.isDefault) ≤ 1 ∧ (∀ b ∈ bs, b.WellFormed before names) ∧
      s'.current.kind ∉ Rule.branch.first := by
  obtain ⟨ts, s₂, hlist, hts, ⟨hclosed, -, -, hcount, hall⟩, hend⟩ :=
    listed_of_many1 (keeps_branches before names hlevels)
      (starts_branches hs hn htypes hlevels) h
  obtain ⟨-, hstop⟩ := canStart_sound_false hclosed hend
  rw [List.countP_reverse] at hcount
  exact ⟨ts, hts, hlist, hcount, fun b hb => hall b (List.mem_reverse.mpr hb), hstop⟩

theorem choice_sound {b : Body} (hs : s.Closed) (hn : s.scope = .of [])
    (htypes : s.types = TypeTable.of before) (hlevels : n + 1 ≤ nestingLimit)
    (h : descend (readRule n) .choice s = .ok b s') :
    ∃ us, Passes s us s' ∧ b.SpelledBy us ∧ b.WellFormed before := by
  obtain ⟨m, s₁, rfl, hrun, rfl⟩ := level_of_descend h
  clear h
  obtain ⟨k, s₂, hk, h⟩ := bind_ok.mp hrun
  obtain ⟨hword, hks⟩ := take_sound (hs.opened _) (by decide) hk
  obtain ⟨ps, s₃, hp, h⟩ := bind_ok.mp h
  obtain ⟨us, hus, hpspell, hscope, hnodup⟩ :=
    parameters_sound hks.closed (hks.scope.trans hn) hp
  obtain ⟨o, s₄, ho, h⟩ := bind_ok.mp h
  obtain ⟨hopen, hos⟩ := take_sound hus.closed (by decide) ho
  obtain ⟨bs, s₅, hbs, h⟩ := bind_ok.mp h
  have htypes : s₄.types = TypeTable.of before :=
    hos.types.trans (hus.types.trans (hks.types.trans htypes))
  have hholds : s₄.scope.Holds (texts ps) := hos.scope.trans hscope ▸ Scope.holds_of ps
  obtain ⟨ts, hts, hlist, hcount, hall, hstop⟩ :=
    branches_sound hos.closed hholds htypes hlevels hbs
  obtain ⟨c, s₇, hc, h⟩ := bind_ok.mp h
  obtain ⟨hk, rfl, rfl⟩ := take_ok.mp hc
  have hclose : s₅.current.kind = .rightCurly := by
    rcases List.mem_append.mp hk with hk | hk
    · exact absurd hk hstop
    · exact List.mem_singleton.mp hk
  split at h
  · obtain ⟨_, _, -, h⟩ := bind_ok.mp h
    exact absurd (fail_ok.mp h) id
  · rename_i hdefault
    obtain ⟨rfl, rfl⟩ := pure_ok.mp h
    have hlast : Takes s₅ [s₅.current] s₅.skip := .skip hts.closed (by simp [hclose])
    have htaken := (hks.toPasses.trans hus).trans (hos.trans (hts.trans hlast)).toPasses
    refine ⟨k :: (us ++ (o :: (ts ++ [s₅.current]))), by simpa using htaken.rule,
      .choice (List.mem_singleton.mp hword) hpspell
        (.mk (List.mem_singleton.mp hopen) hlist hclose),
      hpspell.items_ne_nil, hnodup, hlist.ne_nil, ?_, hall⟩
    rw [Option.isNone_iff_eq_none, defaultOffset?_eq_none] at hdefault
    omega

/-! ## Bodies and declarations -/

theorem rule_readRule {rule : Rule} {node : Node} (h : readRule n rule s = .ok node s') :
    node.rule = rule := by
  cases n with
  | zero =>
    obtain ⟨_, _, -, h⟩ := bind_ok.mp h
    exact absurd (tooDeep_ok.mp h) id
  | succ n =>
    obtain ⟨_, _, -, h⟩ := bind_ok.mp h
    obtain ⟨_, _, -, h⟩ := bind_ok.mp h
    obtain ⟨_, _, -, h⟩ := bind_ok.mp h
    obtain ⟨_, h, -⟩ := within_ok.mp h
    rw [build_eq] at h
    obtain ⟨_, _, -, h⟩ := bind_ok.mp h
    obtain ⟨rfl, -⟩ := pure_ok.mp h
    rfl

/-- **What is read as a body** is one that is spelled and well-formed. -/
theorem body_sound {b : Body} (hs : s.Closed) (hn : s.scope = .of [])
    (htypes : s.types = TypeTable.of before) (hlevels : n + 1 ≤ nestingLimit)
    (h : body (readRule n) s = .ok b s') :
    ∃ us, Passes s us s' ∧ b.SpelledBy us ∧ b.WellFormed before := by
  obtain ⟨⟨rule, out⟩, hd, hbody⟩ := body_ok.mp h
  obtain ⟨rule', hfind, hnode⟩ := dispatch_ok.mp hd
  obtain rfl : rule = rule' := rule_readRule hnode
  have hdescend := descend_ok.mpr hnode
  have hlook : Takes s [] s.passComments := .look hs
  have hmem := List.mem_of_find?_eq_some hfind
  simp only [Rule.bodies, List.mem_cons, List.not_mem_nil, or_false] at hmem
  rcases hmem with rfl | rfl | rfl | rfl
  · obtain ⟨us, hus, hspell, hwf⟩ := simpleType_sound hlook.closed hdescend
    obtain rfl := Option.some.inj hbody
    exact ⟨us, (hlook.trans hus).toPasses, .simple hspell, hwf⟩
  · obtain ⟨us, hus, hspell, hwf⟩ := sequence_sound hlook.closed hn htypes hdescend
    obtain rfl := Option.some.inj hbody
    exact ⟨us, hlook.toPasses.trans hus, hspell, hwf⟩
  · obtain ⟨us, hus, hspell, hwf⟩ := array_sound hlook.closed hn htypes hdescend
    obtain rfl := Option.some.inj hbody
    exact ⟨us, hlook.toPasses.trans hus, hspell, hwf⟩
  · obtain ⟨us, hus, hspell, hwf⟩ := choice_sound hlook.closed hn htypes hlevels hdescend
    obtain rfl := Option.some.inj hbody
    exact ⟨us, hlook.toPasses.trans hus, hspell, hwf⟩

/-- **What is read as a declaration** is one that is spelled and well-formed, of a new name, and
the table of types holds it behind the others. -/
theorem declaration_sound {d : Declaration} (hs : s.Closed)
    (htypes : s.types = TypeTable.of before) (hlevels : n ≤ nestingLimit)
    (h : descend (readRule n) .declaration s = .ok d s') :
    ∃ us, Reads s us s' ∧ d.SpelledBy us ∧ d.body.WellFormed before ∧
      d.name.text ∉ before.map (·.name.text) ∧ s'.types = TypeTable.of (before ++ [d]) := by
  obtain ⟨m, s₁, rfl, hrun, rfl⟩ := level_of_descend h
  clear h
  obtain ⟨x, s₂, hx, h₂⟩ := bind_ok.mp hrun
  obtain ⟨us, hus, hxspell⟩ := name_sound (hs.opened _) hx
  obtain ⟨_, s₃, hfree, h₃⟩ := bind_ok.mp h₂
  obtain ⟨hfree, rfl⟩ := ensureFree_ok.mp hfree
  have htypes₃ : s₃.types = TypeTable.of before := hus.types.trans htypes
  rw [htypes₃] at hfree
  have hnew := TypeTable.ensureFree_iff.mp hfree
  obtain ⟨a, s₄, ha, h₄⟩ := bind_ok.mp h₃
  obtain ⟨hassign, has⟩ := take_sound hus.closed (by decide) ha
  have htypes₄ : s₄.types = TypeTable.of before := has.types.trans htypes₃
  obtain ⟨_, s₅, ho, h₅⟩ := bind_ok.mp h₄
  obtain rfl := openDeclaration_ok.mp ho
  obtain ⟨b, s₆, hb, h₆⟩ := bind_ok.mp h₅
  have hopened : State.Closed { s₄ with scope := {}, declaring := x } := has.closed
  obtain ⟨ts, hts, hspell, hwf⟩ := body_sound hopened rfl htypes₄ hlevels hb
  have htypes₆ : s₆.types = TypeTable.of before := hts.types.trans htypes₄
  obtain ⟨_, s₇, hc, h₇⟩ := bind_ok.mp h₆
  obtain rfl := closeDeclaration_ok.mp hc
  obtain ⟨id, s₈, hd, h₈⟩ := bind_ok.mp h₇
  obtain ⟨types, hdeclare, rfl⟩ := declareType_ok.mp hd
  simp only [htypes₆, TypeTable.declare_of hnew b, Except.ok.injEq, Prod.mk.injEq] at hdeclare
  obtain ⟨rfl, rfl⟩ := hdeclare
  obtain ⟨_, s₉, hr, h₉⟩ := bind_ok.mp h₈
  obtain rfl := record_ok.mp hr
  obtain ⟨rfl, rfl⟩ := pure_ok.mp h₉
  have hbefore := hus.toReads.trans has.toReads
  have hall : Reads (s.opened .declaration) (us ++ [a] ++ ts) s₆ :=
    hbefore.trans ⟨hts.tokens, hts.closed, hts.last, hts.source, hts.depth⟩
  have hrule := hall.rule
  rw [List.append_assoc, List.singleton_append] at hrule
  exact ⟨us ++ a :: ts, ⟨hrule.tokens, hrule.closed, hrule.last, hrule.source, hrule.depth⟩,
    .mk hxspell (List.mem_singleton.mp hassign) hspell, hwf, hnew, rfl⟩

end RecordSchema.Parser
