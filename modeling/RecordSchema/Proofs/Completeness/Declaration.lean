import RecordSchema.Proofs.Completeness.Reference

/-!
# What is spelled as a declaration is read

The lists of a declaration are read with the names that are declared on the way: the invariant of a
loop is about the items read so far and those ahead, and each turn moves one item over.

Results:
* `body_complete`: a body is read in front of anything but a width.
* `declaration_complete`: so is a declaration, if nothing else is open.
-/

namespace RecordSchema.Parser

open State

variable {n : Nat} {names : List String} {before : List Declaration} {us rest : List Token}
  {s s' : State}

/-- A rule that only passes tokens is read if the function for it reads it. -/
theorem passes_rule {rule : Rule} {out : rule.Output} (hs : Ready (n + 1) s)
    (hb : Begins rule.first us) (ht : s.tokens = us ++ rest)
    (h : ∃ s₁, reader (readRule n) rule (s.opened rule) = .ok out s₁ ∧
      Passes (s.opened rule) us s₁) :
    ∃ s', descend (readRule (n + 1)) rule s = .ok out s' ∧ Passes s us s' := by
  obtain ⟨s₁, hrun, hpasses⟩ := h
  exact ⟨s₁.closed, descend_of_reader hs (current_of_begins hb ht) hrun, hpasses.rule⟩

/-! ## Parameters -/

theorem parameter_complete {x : Name} (hs : s.Closed) (hn : s.scope.Holds names)
    (ht : s.tokens = us ++ rest) (h : x.SpelledBy us) (hnew : x.text ∉ names) :
    ∃ s', parameter s = .ok x s' ∧ Passes s us s' ∧ s'.scope.Holds (names ++ [x.text]) := by
  obtain ⟨s₁, hrun₁, htakes₁⟩ := name_complete hs ht h
  have hscope : s₁.scope.Holds names := by rwa [htakes₁.scope]
  have hdeclare := hscope.declare_iff.mpr ⟨hnew, rfl⟩
  refine ⟨_, ?_, htakes₁.toPasses.withScope _, hscope.cons x⟩
  exact bind_ok.mpr ⟨x, s₁, hrun₁, bind_ok.mpr ⟨(), _, declareName_ok.mpr ⟨_, hdeclare, rfl⟩,
    pure_ok.mpr ⟨rfl, rfl⟩⟩⟩

theorem moreParameters_complete {js ts : List Token} (hs : s.Closed) (hj : perhaps .comma js)
    (hb : Begins [.identifier] us) (ht : s.tokens = js ++ us ++ ts) :
    ∃ s', moreParameters s = .ok true s' ∧ Takes s js s' := by
  rcases hj with rfl | ⟨t, rfl, hk⟩
  · have hstart := List.mem_singleton.mp (current_of_begins hb ht)
    have hcomma : s.current.kind ≠ .comma := by simp [hstart]
    have hexpect : s.passComments.current.kind ∈ [TokenKind.identifier, .comma, .rightSquare] := by
      simp [hstart]
    have hlook : Takes s [] s.passComments := .look hs
    refine ⟨_, bind_ok.mpr ⟨false, _, accept_complete_false hcomma, bind_ok.mpr ⟨_, _,
      expect_ok.mpr ⟨hexpect, rfl, rfl⟩, pure_ok.mpr ⟨?_, rfl⟩⟩⟩, hlook.trans (.look hlook.closed)⟩
    simp [hstart]
  · obtain ⟨s₁, hrun₁, htakes₁⟩ := accept_complete hs ht hk
    exact ⟨s₁, bind_ok.mpr ⟨true, s₁, hrun₁, pure_ok.mpr ⟨rfl, rfl⟩⟩, htakes₁⟩

theorem moreParameters_complete_false (hs : s.Closed) (hk : s.current.kind = .rightSquare) :
    ∃ s', moreParameters s = .ok false s' ∧ Takes s [] s' := by
  have hcomma : s.current.kind ≠ .comma := by simp [hk]
  have hexpect : s.passComments.current.kind ∈ [TokenKind.identifier, .comma, .rightSquare] := by
    simp [hk]
  have hlook : Takes s [] s.passComments := .look hs
  refine ⟨_, bind_ok.mpr ⟨false, _, accept_complete_false hcomma, bind_ok.mpr ⟨_, _,
    expect_ok.mpr ⟨hexpect, rfl, rfl⟩, pure_ok.mpr ⟨?_, rfl⟩⟩⟩, hlook.trans (.look hlook.closed)⟩
  simp [hk]

theorem parameters_complete {ps : List Name} (hs : Ready n s) (hn : s.scope.Holds [])
    (ht : s.tokens = us ++ rest) (h : Bracketed Name.SpelledBy ps us) (hnodup : (texts ps).Nodup)
    (hlevel : 1 ≤ n) :
    ∃ s', descend (readRule n) .parameters s = .ok ps s' ∧ Passes s us s' ∧
      s'.scope.Holds (texts ps) := by
  obtain ⟨n, rfl⟩ := Nat.exists_eq_add_of_le' hlevel
  cases h with
  | @mk o c ts ho hlist hc =>
    have hstart : s.current.kind ∈ Rule.parameters.first := by
      rw [current_of_tokens ht]
      exact List.mem_singleton.mpr ho
    rw [← tokens_opened s .parameters, List.cons_append, List.append_assoc] at ht
    obtain ⟨s₁, hrun₁, htakes₁⟩ :=
      take_complete (hs.opened _).closed ht (List.mem_singleton.mpr ho)
    have ht₁ : s₁.tokens = ts ++ (c :: rest) := htakes₁.tokens_of ht
    have haccepts : Accepts Passes moreParameters (fun _ => parameter) (perhaps .comma)
        Name.SpelledBy (fun _ => True) (c :: rest) fun before ahead s =>
          s.Closed ∧ s.scope.Holds (texts before.reverse) ∧
            (texts before.reverse ++ texts ahead).Nodup := by
      refine ⟨Passes.spans, fun hx => hx.begins.ne_nil, fun _ _ => trivial, trivial, ?_, ?_, ?_⟩
      · rintro before ahead x us ts s ⟨hs, hn, hnodup⟩ hx - ht
        have hnew : x.text ∉ texts before.reverse := fun hmem =>
          (List.nodup_append.mp hnodup).2.2 _ hmem _ List.mem_cons_self rfl
        obtain ⟨s', hrun, hpasses, hn'⟩ := parameter_complete hs hn ht hx hnew
        refine ⟨s', hrun, hpasses, hpasses.closed, ?_, ?_⟩
        · simpa [texts] using hn'
        · simpa [texts] using hnodup
      · rintro before ahead x js us ts s ⟨hs, hn, hnodup⟩ hj hx ht
        obtain ⟨s', hrun, htakes⟩ := moreParameters_complete hs hj hx.begins ht
        exact ⟨s', hrun, htakes.toPasses, htakes.closed, by rwa [htakes.scope], hnodup⟩
      · rintro before s ⟨hs, hn, hnodup⟩ ht
        have hclose : s.current.kind = .rightSquare := by rw [current_of_tokens ht, hc]
        obtain ⟨s', hrun, htakes⟩ := moreParameters_complete_false hs hclose
        exact ⟨s', hrun, htakes.toPasses, htakes.closed, by rwa [htakes.scope], hnodup⟩
    have hempty : s₁.scope.Holds [] := by rwa [htakes₁.scope]
    obtain ⟨s₂, hrun₂, hpasses₂, hclosed₂, hholds, -⟩ :=
      haccepts.many1 hlist ⟨htakes₁.closed, hempty, hnodup⟩ ht₁
    rw [List.reverse_reverse] at hholds
    obtain ⟨s₃, hrun₃, htakes₃⟩ :=
      take_complete hclosed₂ (hpasses₂.tokens_of ht₁) (List.mem_singleton.mpr hc)
    have hall := (htakes₁.toPasses.trans hpasses₂).trans htakes₃.toPasses
    refine ⟨s₃.closed, descend_of_reader hs hstart ?_, by simpa using hall.rule, ?_⟩
    · exact bind_ok.mpr ⟨o, s₁, hrun₁, bind_ok.mpr ⟨ps, s₂, hrun₂, bind_ok.mpr ⟨c, s₃, hrun₃,
        pure_ok.mpr ⟨rfl, rfl⟩⟩⟩⟩
    · show s₃.scope.Holds _
      rwa [htakes₃.scope]

/-! ## Fields -/

/-- A loop goes on where its rule begins, and takes nothing to see that. -/
theorem canStart_goesOn {rule : Rule} {ts : List Token} (hs : s.Closed)
    (hb : Begins rule.first us) (ht : s.tokens = us ++ ts) :
    canStart rule s = .ok true s.passComments ∧ Takes s [] s.passComments :=
  ⟨canStart_complete (current_of_begins hb ht), .look hs⟩

/-- A loop stops at a token that its rule does not begin with. -/
theorem canStart_stops (rule : Rule) {t : Token} (hs : s.Closed) (hk : t.kind ∉ rule.first)
    (ht : s.tokens = t :: rest) :
    canStart rule s = .ok false s.passComments ∧ Takes s [] s.passComments :=
  ⟨canStart_complete_false (by rwa [current_of_tokens ht]), .look hs⟩

theorem fields_complete {fs : List Field} (hs : Ready n s) (hn : s.scope.Holds names)
    (htypes : s.types = TypeTable.of before) (hnodup : (before.map (·.name.text)).Nodup)
    (ht : s.tokens = us ++ rest) (h : Braced Field.SpelledBy fs us)
    (hwf : FieldsWellFormed before names fs) (hlevel : 4 ≤ n) :
    ∃ s', fields (readRule n) s = .ok fs s' ∧ Passes s us s' := by
  cases h with
  | @mk o c ts ho hlist hc =>
    rw [List.cons_append, List.append_assoc] at ht
    obtain ⟨s₁, hrun₁, htakes₁⟩ := take_complete hs.closed ht (List.mem_singleton.mpr ho)
    have ht₁ : s₁.tokens = ts ++ (c :: rest) := htakes₁.tokens_of ht
    have haccepts : Accepts Passes (canStart .field) (fun _ => descend (readRule n) .field) nothing
        Field.SpelledBy (Avoids [.width, .leftSquare]) (c :: rest) fun fs ahead s =>
          Ready n s ∧ s.types = TypeTable.of before ∧
            s.scope.Holds (names ++ texts (fs.reverse.map (·.name))) ∧
            FieldsWellFormed before (names ++ texts (fs.reverse.map (·.name))) ahead := by
      refine ⟨Passes.spans, fun hf => hf.begins.ne_nil, ?_, avoids_cons (by rw [hc]; decide),
        ?_, ?_, ?_⟩
      · rintro f js us ts rfl hf
        exact hf.begins.avoids (by decide) ts
      · rintro fs ahead f us ts s ⟨hs, htypes, hn, hfwf, hnew, hwf⟩ hf hfollow ht
        obtain ⟨s', hrun, hpasses, hn'⟩ :=
          field_complete hs hn htypes hnodup ht hf hfwf hnew hlevel hfollow
        refine ⟨s', hrun, hpasses, hs.of_reads hpasses.toReads, hpasses.types.trans htypes, ?_, ?_⟩
        · simpa [texts] using hn'
        · simpa [texts] using hwf
      · rintro fs ahead f js us ts s ⟨hs, htypes, hn, hwf⟩ rfl hf ht
        obtain ⟨hmore, hlook⟩ := canStart_goesOn hs.closed hf.begins ht
        exact ⟨_, hmore, hlook.toPasses, hs.of_reads hlook.toReads, htypes, hn, hwf⟩
      · rintro fs s ⟨hs, htypes, hn, hwf⟩ ht
        obtain ⟨hmore, hlook⟩ := canStart_stops .field hs.closed (by rw [hc]; decide) ht
        exact ⟨_, hmore, hlook.toPasses, hs.of_reads hlook.toReads, htypes, hn, hwf⟩
    have hscope : s₁.scope.Holds names := by rwa [htakes₁.scope]
    obtain ⟨s₂, hrun₂, hpasses₂, hs₂, -⟩ := haccepts.many1 hlist
      ⟨hs.of_reads htakes₁.toReads, htakes₁.types.trans htypes, by simpa [texts] using hscope,
        by simpa [texts] using hwf⟩ ht₁
    have hclose : c.kind ∈ [TokenKind.identifier, .rightCurly] := by simp [hc]
    obtain ⟨s₃, hrun₃, htakes₃⟩ := take_complete hs₂.closed (hpasses₂.tokens_of ht₁) hclose
    have hall := (htakes₁.toPasses.trans hpasses₂).trans htakes₃.toPasses
    refine ⟨s₃, ?_, by simpa using hall⟩
    exact bind_ok.mpr ⟨o, s₁, hrun₁, bind_ok.mpr ⟨fs, s₂, hrun₂, bind_ok.mpr ⟨c, s₃, hrun₃,
      pure_ok.mpr ⟨rfl, rfl⟩⟩⟩⟩

theorem sequence_complete {ps : List Name} {fs : List Field} (hs : Ready n s)
    (hn : s.scope.Holds []) (htypes : s.types = TypeTable.of before)
    (hnodup : (before.map (·.name.text)).Nodup) {k : Token} {ts : List Token}
    (ht : s.tokens = k :: (us ++ ts) ++ rest) (hk : k.kind = .sequence)
    (hp : ps = [] ∧ us = [] ∨ Bracketed Name.SpelledBy ps us) (hf : Braced Field.SpelledBy fs ts)
    (hps : (texts ps).Nodup) (hwf : FieldsWellFormed before (texts ps) fs) (hlevel : 5 ≤ n) :
    ∃ s', descend (readRule n) .sequence s = .ok (.sequence ps fs) s' ∧
      Passes s (k :: (us ++ ts)) s' := by
  obtain ⟨n, rfl⟩ := Nat.exists_eq_add_of_le' (show 1 ≤ n by omega)
  refine passes_rule hs (begins_cons hk _) ht ?_
  rw [← tokens_opened s .sequence, List.cons_append, List.append_assoc] at ht
  have hs₁ := hs.opened .sequence
  obtain ⟨s₁, hrun₁, htakes₁⟩ := take_complete hs₁.closed ht (List.mem_singleton.mpr hk)
  have hlook : Takes s₁ [] s₁.passComments := .look htakes₁.closed
  have htakes := htakes₁.trans hlook
  have ht₁ : s₁.tokens = us ++ (ts ++ rest) := htakes₁.tokens_of ht
  have hempty : s₁.passComments.scope.Holds [] := by rwa [htakes.scope]
  have htypes₁ := htakes.types.trans htypes
  rcases hp with ⟨rfl, rfl⟩ | hp
  · have hopen : s₁.current.kind ∉ Rule.parameters.first := by
      cases hf with
      | mk ho _ _ =>
        rw [current_of_tokens ht₁, ho]
        decide
    obtain ⟨s₂, hrun₂, hpasses₂⟩ := fields_complete (hs₁.of_reads htakes.toReads) hempty htypes₁
      hnodup (hlook.tokens_of ht₁) hf hwf (by omega)
    refine ⟨s₂, ?_, htakes.toPasses.trans hpasses₂⟩
    exact bind_ok.mpr ⟨k, s₁, hrun₁, bind_ok.mpr ⟨false, _, canStart_complete_false hopen,
      bind_ok.mpr ⟨[], _, pure_ok.mpr ⟨rfl, rfl⟩, bind_ok.mpr ⟨fs, s₂, hrun₂,
        pure_ok.mpr ⟨rfl, rfl⟩⟩⟩⟩⟩
  · have hopen : s₁.current.kind ∈ Rule.parameters.first := by
      cases hp with
      | mk ho _ _ =>
        rw [current_of_tokens ht₁]
        exact List.mem_singleton.mpr ho
    obtain ⟨s₂, hrun₂, hpasses₂, hholds⟩ := parameters_complete (hs₁.of_reads htakes.toReads)
      hempty (hlook.tokens_of ht₁) hp hps (by omega)
    have hs₂ := (hs₁.of_reads htakes.toReads).of_reads hpasses₂.toReads
    obtain ⟨s₃, hrun₃, hpasses₃⟩ := fields_complete hs₂ hholds (hpasses₂.types.trans htypes₁)
      hnodup (hpasses₂.tokens_of (hlook.tokens_of ht₁)) hf hwf (by omega)
    have hall := (htakes.toPasses.trans hpasses₂).trans hpasses₃
    refine ⟨s₃, ?_, by simpa using hall⟩
    exact bind_ok.mpr ⟨k, s₁, hrun₁, bind_ok.mpr ⟨true, _, canStart_complete hopen,
      bind_ok.mpr ⟨ps, s₂, hrun₂, bind_ok.mpr ⟨fs, s₃, hrun₃, pure_ok.mpr ⟨rfl, rfl⟩⟩⟩⟩⟩

theorem array_complete {x : Name} {fs : List Field} (hs : Ready n s) (hn : s.scope.Holds [])
    (htypes : s.types = TypeTable.of before) (hnodup : (before.map (·.name.text)).Nodup)
    {k : Token} {ts : List Token} (ht : s.tokens = k :: (us ++ ts) ++ rest)
    (hk : k.kind = .array) (hp : Bracketed Name.SpelledBy [x] us)
    (hf : Braced Field.SpelledBy fs ts) (hwf : FieldsWellFormed before [x.text] fs)
    (hlevel : 5 ≤ n) :
    ∃ s', descend (readRule n) .array s = .ok (.array x fs) s' ∧
      Passes s (k :: (us ++ ts)) s' := by
  obtain ⟨n, rfl⟩ := Nat.exists_eq_add_of_le' (show 1 ≤ n by omega)
  refine passes_rule hs (begins_cons hk _) ht ?_
  rw [← tokens_opened s .array, List.cons_append, List.append_assoc] at ht
  have hs₁ := hs.opened .array
  obtain ⟨s₁, hrun₁, htakes₁⟩ := take_complete hs₁.closed ht (List.mem_singleton.mpr hk)
  have ht₁ : s₁.tokens = us ++ (ts ++ rest) := htakes₁.tokens_of ht
  have hempty : s₁.scope.Holds [] := by rwa [htakes₁.scope]
  obtain ⟨s₂, hrun₂, hpasses₂, hholds⟩ := parameters_complete (hs₁.of_reads htakes₁.toReads)
    hempty ht₁ hp (List.nodup_singleton _) (by omega)
  have hall := htakes₁.toPasses.trans hpasses₂
  obtain ⟨s₃, hrun₃, hpasses₃⟩ := fields_complete (hs₁.of_reads hall.toReads) hholds
    (hall.types.trans htypes) hnodup (hpasses₂.tokens_of ht₁) hf hwf (by omega)
  refine ⟨s₃, ?_, by simpa using hall.trans hpasses₃⟩
  exact bind_ok.mpr ⟨k, s₁, hrun₁, bind_ok.mpr ⟨[x], s₂, hrun₂, bind_ok.mpr ⟨fs, s₃, hrun₃,
    pure_ok.mpr ⟨rfl, rfl⟩⟩⟩⟩

/-! ## Choices -/

/-- The branches of a choice are read if no more than one of them is the default. -/
theorem branches_complete {bs : List Branch} {c : Token} {ts : List Token} (hs : Ready n s)
    (hn : s.scope.Holds names) (htypes : s.types = TypeTable.of before)
    (hnodup : (before.map (·.name.text)).Nodup) (ht : s.tokens = ts ++ (c :: rest))
    (h : Listed nothing Branch.SpelledBy bs ts) (hwf : ∀ b ∈ bs, b.WellFormed before names)
    (hcount : bs.countP (·.condition.isDefault) ≤ 1) (hlevels : nestingLimit ≤ n + 2)
    (hc : c.kind = .rightCurly) :
    ∃ s', many1 (canStart .branch) (nextBranch (readRule n)) s = .ok bs s' ∧ Takes s ts s' := by
  have haccepts : Accepts Takes (canStart .branch) (nextBranch (readRule n)) nothing
      Branch.SpelledBy (fun _ => True) (c :: rest) fun bs ahead s =>
        Ready n s ∧ s.types = TypeTable.of before ∧ s.scope.Holds names ∧
          bs.countP (·.condition.isDefault) + ahead.countP (·.condition.isDefault) ≤ 1 ∧
          ∀ b ∈ ahead, b.WellFormed before names := by
    refine ⟨Takes.spans, fun hb => hb.begins.ne_nil, fun _ _ => trivial, trivial, ?_, ?_, ?_⟩
    · rintro bs ahead b us ts s ⟨hs, htypes, hn, hcount, hwf⟩ hb - ht
      obtain ⟨hbwf, hwf⟩ := List.forall_mem_cons.mp hwf
      obtain ⟨s', hrun, htakes⟩ := branch_complete hs hn htypes hnodup ht hb hbwf hlevels
      have hmoved : (b :: bs).countP (·.condition.isDefault) +
          ahead.countP (·.condition.isDefault) ≤ 1 := by
        simp only [List.countP_cons] at hcount ⊢
        omega
      have hfirst : b.condition.isDefault = true → bs.countP (·.condition.isDefault) = 0 := by
        intro hdefault
        rw [List.countP_cons, if_pos hdefault] at hcount
        omega
      exact ⟨s', nextBranch_ok.mpr ⟨hrun, hfirst⟩, htakes, hs.of_reads htakes.toReads,
        htakes.types.trans htypes, by rwa [htakes.scope], hmoved, hwf⟩
    · rintro bs ahead b js us ts s ⟨hs, hinv⟩ rfl hb ht
      obtain ⟨hmore, hlook⟩ := canStart_goesOn hs.closed hb.begins ht
      exact ⟨_, hmore, hlook, hs.of_reads hlook.toReads, hinv⟩
    · rintro bs s ⟨hs, hinv⟩ ht
      obtain ⟨hmore, hlook⟩ := canStart_stops .branch hs.closed (by rw [hc]; decide) ht
      exact ⟨_, hmore, hlook, hs.of_reads hlook.toReads, hinv⟩
  obtain ⟨s', hrun, htakes, -⟩ :=
    haccepts.many1 h ⟨hs, htypes, hn, by simpa using hcount, hwf⟩ ht
  exact ⟨s', hrun, htakes⟩

theorem choice_complete {ps : List Name} {bs : List Branch} (hs : Ready n s)
    (hn : s.scope.Holds []) (htypes : s.types = TypeTable.of before)
    (hnodup : (before.map (·.name.text)).Nodup) {k : Token} {ts : List Token}
    (ht : s.tokens = k :: (us ++ ts) ++ rest) (hk : k.kind = .choice)
    (hp : Bracketed Name.SpelledBy ps us) (hb : Braced Branch.SpelledBy bs ts)
    (hwf : Body.WellFormed before (.choice ps bs)) (hlevels : nestingLimit ≤ n + 1) :
    ∃ s', descend (readRule n) .choice s = .ok (.choice ps bs) s' ∧
      Passes s (k :: (us ++ ts)) s' := by
  have hlimit : 256 ≤ n + 1 := hlevels
  obtain ⟨n, rfl⟩ := Nat.exists_eq_add_of_le' (show 1 ≤ n by omega)
  obtain ⟨-, hps, -, hcount, hwf⟩ := hwf
  refine passes_rule hs (begins_cons hk _) ht ?_
  rw [← tokens_opened s .choice, List.cons_append, List.append_assoc] at ht
  have hs₁ := hs.opened .choice
  obtain ⟨s₁, hrun₁, htakes₁⟩ := take_complete hs₁.closed ht (List.mem_singleton.mpr hk)
  have ht₁ : s₁.tokens = us ++ (ts ++ rest) := htakes₁.tokens_of ht
  have hempty : s₁.scope.Holds [] := by rwa [htakes₁.scope]
  obtain ⟨s₂, hrun₂, hpasses₂, hholds⟩ := parameters_complete (hs₁.of_reads htakes₁.toReads)
    hempty ht₁ hp hps (by omega)
  have ht₂ := hpasses₂.tokens_of ht₁
  cases hb with
  | @mk o c ts ho hlist hc =>
    rw [List.cons_append, List.append_assoc] at ht₂
    obtain ⟨s₃, hrun₃, htakes₃⟩ := take_complete hpasses₂.closed ht₂ (List.mem_singleton.mpr ho)
    have ht₃ : s₃.tokens = ts ++ (c :: rest) := htakes₃.tokens_of ht₂
    have hall := (htakes₁.toPasses.trans hpasses₂).trans htakes₃.toPasses
    have hscope : s₃.scope.Holds (texts ps) := by rwa [htakes₃.scope]
    obtain ⟨s₄, hrun₄, htakes₄⟩ := branches_complete (hs₁.of_reads hall.toReads) hscope
      (hall.types.trans htypes) hnodup ht₃ hlist hwf (by omega) hlevels hc
    have hclose : c.kind ∈ Rule.branch.first ++ [.rightCurly] := by simp [hc]
    obtain ⟨s₅, hrun₅, htakes₅⟩ := take_complete htakes₄.closed (htakes₄.tokens_of ht₃) hclose
    have htaken := hall.trans (htakes₄.trans htakes₅).toPasses
    refine ⟨s₅, ?_, by simpa using htaken⟩
    refine bind_ok.mpr ⟨k, s₁, hrun₁, bind_ok.mpr ⟨ps, s₂, hrun₂, bind_ok.mpr ⟨o, s₃, hrun₃,
      bind_ok.mpr ⟨bs, s₄, hrun₄, bind_ok.mpr ⟨c, s₅, hrun₅, ?_⟩⟩⟩⟩⟩
    have hdefault : ¬ (defaultOffset? bs).isNone = true := by
      rw [Option.isNone_iff_eq_none, defaultOffset?_eq_none]
      omega
    rw [if_neg hdefault]
    exact pure_ok.mpr ⟨rfl, rfl⟩

/-! ## Bodies and declarations -/

/-- The rule for a body is found by any kind that it begins with. -/
theorem find?_bodies : ∀ rule ∈ Rule.bodies, ∀ kind ∈ rule.first,
    Rule.bodies.find? (·.canStart kind) = some rule := by
  decide

/-- A body is read if one of its rules is, and the tokens begin with a kind of that rule. -/
theorem body_of_rule (rule : Rule) {out : rule.Output} {b : Body} (hs : s.Closed)
    (ht : s.tokens = us ++ rest) (hmem : rule ∈ Rule.bodies) (hb : bodyOf? ⟨rule, out⟩ = some b)
    (hbegins : Begins rule.first us)
    (h : ∃ s', descend (readRule n) rule s.passComments = .ok out s' ∧
      Passes s.passComments us s') :
    ∃ s', body (readRule n) s = .ok b s' ∧ Passes s us s' := by
  obtain ⟨s', hrun, hpasses⟩ := h
  have hfind := find?_bodies rule hmem _ (current_of_begins hbegins ht)
  have hlook : Takes s [] s.passComments := .look hs
  exact ⟨s', body_ok.mpr ⟨_, dispatch_ok.mpr ⟨rule, hfind, descend_ok.mp hrun⟩, hb⟩,
    hlook.toPasses.trans hpasses⟩

/-- **What is spelled as a body** is read as one. -/
theorem body_complete {b : Body} (hs : Ready n s) (hn : s.scope.Holds [])
    (htypes : s.types = TypeTable.of before) (hnodup : (before.map (·.name.text)).Nodup)
    (ht : s.tokens = us ++ rest) (h : b.SpelledBy us) (hwf : b.WellFormed before)
    (hlevels : nestingLimit ≤ n + 1) (hrest : Avoids [.width] rest) :
    ∃ s', body (readRule n) s = .ok b s' ∧ Passes s us s' := by
  have hlimit : 256 ≤ n + 1 := hlevels
  have hlook : Takes s [] s.passComments := .look hs.closed
  have hs₁ := hs.of_reads hlook.toReads
  have ht₁ := hlook.tokens_of ht
  cases h with
  | simple hspell =>
    obtain ⟨s₁, hrun₁, htakes₁⟩ := simpleType_complete hs₁ ht₁ hspell hwf (by omega) hrest
    exact body_of_rule .simpleType hs.closed ht (by decide) rfl hspell.begins
      ⟨s₁, hrun₁, htakes₁.toPasses⟩
  | @bare k fs ts hk hf =>
    obtain ⟨hps, -, hfwf⟩ := hwf
    refine body_of_rule .sequence hs.closed ht (by decide) rfl (begins_cons hk _) ?_
    exact sequence_complete hs₁ hn htypes hnodup ht₁ hk (.inl ⟨rfl, rfl⟩) hf hps hfwf (by omega)
  | @sequence k ps fs us ts hk hp hf =>
    obtain ⟨hps, -, hfwf⟩ := hwf
    refine body_of_rule .sequence hs.closed ht (by decide) rfl (begins_cons hk _) ?_
    exact sequence_complete hs₁ hn htypes hnodup ht₁ hk (.inr hp) hf hps hfwf (by omega)
  | @array k x fs us ts hk hp hf =>
    obtain ⟨-, hfwf⟩ := hwf
    refine body_of_rule .array hs.closed ht (by decide) rfl (begins_cons hk _) ?_
    exact array_complete hs₁ hn htypes hnodup ht₁ hk hp hf hfwf (by omega)
  | @choice k ps bs us ts hk hp hb =>
    refine body_of_rule .choice hs.closed ht (by decide) rfl (begins_cons hk _) ?_
    exact choice_complete hs₁ hn htypes hnodup ht₁ hk hp hb hwf hlevels

/-- **What is spelled as a declaration** is read as one, and joins the table of types. -/
theorem declaration_complete {d : Declaration} (hs : Ready n s)
    (htypes : s.types = TypeTable.of before) (hnodup : (before.map (·.name.text)).Nodup)
    (ht : s.tokens = us ++ rest) (h : d.SpelledBy us) (hwf : d.body.WellFormed before)
    (hnew : d.name.text ∉ before.map (·.name.text)) (hlevels : nestingLimit ≤ n)
    (hrest : Avoids [.width] rest) :
    ∃ s', descend (readRule n) .declaration s = .ok d s' ∧ Reads s us s' ∧
      s'.types = TypeTable.of (before ++ [d]) := by
  have hlimit : 256 ≤ n := hlevels
  obtain ⟨n, rfl⟩ := Nat.exists_eq_add_of_le' (show 1 ≤ n by omega)
  have hstart : s.current.kind ∈ Rule.declaration.first := current_of_begins h.begins ht
  rw [← tokens_opened s .declaration] at ht
  have hs₁ := hs.opened .declaration
  cases h with
  | @mk x b a us ts hx ha hb =>
    rw [List.append_assoc] at ht
    obtain ⟨s₁, hrun₁, htakes₁⟩ := name_complete hs₁.closed ht hx
    have hfree : s₁.types.ensureFree x = .ok () := by
      rw [htakes₁.types.trans htypes]
      exact TypeTable.ensureFree_iff.mpr hnew
    have ht₁ := htakes₁.tokens_of ht
    obtain ⟨s₂, hrun₂, htakes₂⟩ := take_complete htakes₁.closed ht₁ (List.mem_singleton.mpr ha)
    have htakes := htakes₁.trans htakes₂
    have htypes₂ : s₂.types = TypeTable.of before := htakes.types.trans htypes
    have hs₂ := hs₁.of_reads htakes.toReads
    have hopened : Ready n { s₂ with scope := {}, declaring := x } := ⟨hs₂.closed, hs₂.levels⟩
    obtain ⟨s₃, hrun₃, hpasses₃⟩ := body_complete hopened Scope.holds_empty htypes₂ hnodup
      (htakes₂.tokens_of ht₁) hb hwf hlevels hrest
    have hdeclare : s₃.types.declare x b.parameters.length =
        .ok (⟨before.length⟩, TypeTable.of (before ++ [⟨x, b⟩])) := by
      rw [hpasses₃.types.trans htypes₂]
      exact TypeTable.declare_of hnew b
    have hbody : Reads s₂ ts s₃ :=
      ⟨hpasses₃.tokens, hpasses₃.closed, hpasses₃.last, hpasses₃.source, hpasses₃.depth⟩
    have hrule := (htakes.toReads.trans hbody).rule
    rw [List.append_assoc, List.singleton_append] at hrule
    have hrun : reader (readRule n) .declaration (s.opened .declaration) = .ok ⟨x, b⟩
        (State.record { s₃ with scope := {}, types := TypeTable.of (before ++ [⟨x, b⟩]) }
          (.typeDeclared x.text before.length b.parameters.length)) := by
      refine bind_ok.mpr ⟨x, s₁, hrun₁, bind_ok.mpr ⟨(), s₁, ensureFree_ok.mpr ⟨hfree, rfl⟩, ?_⟩⟩
      refine bind_ok.mpr ⟨a, s₂, hrun₂, bind_ok.mpr ⟨(), _, openDeclaration_ok.mpr rfl, ?_⟩⟩
      refine bind_ok.mpr ⟨b, s₃, hrun₃, bind_ok.mpr ⟨(), _, closeDeclaration_ok.mpr rfl, ?_⟩⟩
      refine bind_ok.mpr ⟨_, _, declareType_ok.mpr ⟨_, hdeclare, rfl⟩, ?_⟩
      exact bind_ok.mpr ⟨(), _, record_ok.mpr rfl, pure_ok.mpr ⟨rfl, rfl⟩⟩
    exact ⟨_, descend_of_reader hs hstart hrun,
      ⟨hrule.tokens, hrule.closed, hrule.last, hrule.source, hrule.depth⟩, rfl⟩

end RecordSchema.Parser
