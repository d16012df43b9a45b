import RecordSchema.Proofs.Repetition
import RecordSchema.Proofs.WellFormed

/-!
# What is read as a condition is spelled and well-formed

Whatever a rule reads is spelled by the tokens it took, and it is well-formed with the names of the
state it began in. For a condition the second part includes a bound: every pair of parentheses
opens three rules, so a reader with `n` levels reads a disjunction of nesting `k` only if
`3 * k + 5 ≤ n`.

`term` takes any of three kinds of token behind a disjunction. The loops of the disjunction and its
last conjunction have stopped at neither connective, so the token taken is the closing parenthesis.
-/

namespace RecordSchema.Parser

open State

variable {n : Nat} {names : List String} {s s' : State}

/-! ## Single tokens -/

theorem take_sound {kinds : List TokenKind} {t : Token} (hs : s.Closed)
    (hend : TokenKind.endOfInput ∉ kinds) (h : take kinds s = .ok t s') :
    t.kind ∈ kinds ∧ Takes s [t] s' := by
  obtain ⟨hk, rfl, rfl⟩ := take_ok.mp h
  exact ⟨hk, .skip hs fun he => hend (he ▸ hk)⟩

theorem accept_sound {kind : TokenKind} (hs : s.Closed) (hend : kind ≠ .endOfInput)
    (h : accept kind s = .ok true s') : ∃ t, t.kind = kind ∧ Takes s [t] s' := by
  rcases accept_ok.mp h with ⟨hk, -, rfl⟩ | ⟨-, hb, -⟩
  · exact ⟨s.current, hk, .skip hs fun he => hend (hk.symm.trans he)⟩
  · exact absurd hb (by decide)

theorem accept_sound_false {kind : TokenKind} (hs : s.Closed) (h : accept kind s = .ok false s') :
    Takes s [] s' ∧ s.current.kind ≠ kind ∧ s'.current = s.current := by
  rcases accept_ok.mp h with ⟨-, hb, -⟩ | ⟨hk, -, rfl⟩
  · exact absurd hb (by decide)
  · exact ⟨.look hs, hk, rfl⟩

/-- A token that is accepted is a separator. -/
theorem accept_only {kind : TokenKind} (hs : s.Closed) (hend : kind ≠ .endOfInput)
    (h : accept kind s = .ok true s') : ∃ js, only kind js ∧ Takes s js s' := by
  obtain ⟨t, hk, htakes⟩ := accept_sound hs hend h
  exact ⟨[t], ⟨t, rfl, hk⟩, htakes⟩

theorem name_sound {m : Name} (hs : s.Closed) (h : name s = .ok m s') :
    ∃ us, Takes s us s' ∧ m.SpelledBy us := by
  obtain ⟨hk, rfl, rfl⟩ := name_ok.mp h
  exact ⟨_, .skip hs fun he => absurd (hk.symm.trans he) (by decide), .mk hk⟩

/-! ## Lists of items that only take tokens -/

/-- **A list of items that leave the names alone.** Each is good, and each ends in a state that is
left in some way; so is the state where `more` answers no. -/
theorem takes_of_many1 {α : Type} {more : Parser Bool} {item : Parser α}
    (sep : List Token → Prop) (spelled : α → List Token → Prop) (good : α → Prop)
    (left : State → Prop) (scope : Scope)
    (hmore : ∀ {s s'}, s.Closed → more s = .ok true s' → ∃ js, sep js ∧ Takes s js s')
    (hstop : ∀ {s s'}, s.Closed → more s = .ok false s' → Takes s [] s')
    (hitem : ∀ {a s s'}, s.Closed → s.scope = scope → item s = .ok a s' →
      ∃ us, Takes s us s' ∧ spelled a us ∧ us ≠ [] ∧ good a ∧ left s')
    {as : List α} (hs : s.Closed) (hscope : s.scope = scope)
    (h : many1 more (fun _ => item) s = .ok as s') :
    ∃ ts s₂, Takes s ts s' ∧ Listed sep spelled as ts ∧ (∀ a ∈ as, good a) ∧ s₂.Closed ∧
      left s₂ ∧ more s₂ = .ok false s' := by
  have hkeeps : Keeps Takes more (fun _ => item) sep spelled fun before s =>
      s.Closed ∧ s.scope = scope ∧ left s ∧ ∀ a ∈ before, good a := by
    refine ⟨Takes.spans, ?_, fun hinv hm => hstop hinv.1 hm⟩
    rintro before a s s₁ s₂ ⟨hclosed, hscope, -, hgood⟩ hm ha
    obtain ⟨js, hj, hjs⟩ := hmore hclosed hm
    obtain ⟨us, hus, hspell, hne, hga, hleft⟩ := hitem hjs.closed (hjs.scope.trans hscope) ha
    refine ⟨⟨hus.closed, hus.scope.trans (hjs.scope.trans hscope), hleft, ?_⟩, js, us, hj, hspell,
      hne, hjs.trans hus⟩
    intro b hb
    rcases List.mem_cons.mp hb with rfl | hb
    · exact hga
    · exact hgood b hb
  obtain ⟨ts, s₂, hlist, htakes, ⟨hclosed, -, hleft, hgood⟩, hend⟩ :=
    listed_of_many1 hkeeps (fun {a s₁} ha => by
      obtain ⟨us, hus, hspell, -, hga, hleft⟩ := hitem hs hscope ha
      refine ⟨⟨hus.closed, hus.scope.trans hscope, hleft, ?_⟩, us, hspell, hus⟩
      intro b hb
      rwa [List.mem_singleton.mp hb]) h
  exact ⟨ts, s₂, htakes, hlist, fun a ha => hgood a (List.mem_reverse.mpr ha), hclosed, hleft,
    hend⟩

/-! ## Operands and comparisons -/

theorem operand_sound {o : Operand} (hs : s.Closed) (hn : s.scope.Holds names)
    (h : descend (readRule n) .operand s = .ok o s') :
    ∃ us, Takes s us s' ∧ o.SpelledBy us ∧ o.WellFormed names ∧ 1 ≤ n := by
  obtain ⟨m, s₁, rfl, hrun, rfl⟩ := level_of_descend h
  clear h
  obtain ⟨t, s₂, ht, h⟩ := bind_ok.mp hrun
  obtain ⟨hk, htakes⟩ := take_sound (hs.opened _) (by decide) ht
  split at h
  · rename_i hid
    obtain ⟨_, s₃, hr, hend⟩ := bind_ok.mp h
    obtain ⟨hfound, rfl⟩ := resolveName_ok.mp hr
    obtain ⟨rfl, rfl⟩ := pure_ok.mp hend
    rw [htakes.scope] at hfound
    exact ⟨[t], htakes.rule, .name (.mk hid), (hn _).mp hfound, by omega⟩
  · rename_i hid
    have hnum : t.kind = .number := by simpa [Rule.operandStart, hid] using hk
    dsimp only at h
    split at h
    · rename_i hlt
      obtain ⟨rfl, rfl⟩ := pure_ok.mp h
      exact ⟨[t], htakes.rule, .integer hnum, hlt, by omega⟩
    · exact absurd (fail_ok.mp h) id

theorem sign_relationOf {kind : TokenKind} (h : kind ∈ relationKinds) :
    kind = (relationOf kind).sign := by
  revert kind
  decide

theorem comparison_sound {t : Term} (hs : s.Closed) (hn : s.scope.Holds names)
    (h : descend (readRule n) .comparison s = .ok t s') :
    ∃ us, Takes s us s' ∧ t.SpelledBy us ∧ (∀ o ∈ t.operands, o.WellFormed names) ∧
      3 * t.nesting + 2 ≤ n := by
  obtain ⟨m, s₁, rfl, hrun, rfl⟩ := level_of_descend h
  clear h
  obtain ⟨l, s₂, hl, h⟩ := bind_ok.mp hrun
  obtain ⟨us, hus, hlspell, hlwf, hlevel⟩ := operand_sound (hs.opened _) hn hl
  obtain ⟨sign, s₃, hsign, h⟩ := bind_ok.mp h
  obtain ⟨hk, htakes⟩ := take_sound hus.closed (by decide) hsign
  obtain ⟨r, s₄, hr, h⟩ := bind_ok.mp h
  have hscope : s₃.scope.Holds names := by rwa [htakes.scope, hus.scope]
  obtain ⟨ts, hts, hrspell, hrwf, -⟩ := operand_sound htakes.closed hscope hr
  obtain ⟨rfl, rfl⟩ := pure_ok.mp h
  refine ⟨us ++ sign :: ts, ?_, .comparison hlspell (sign_relationOf hk) hrspell, ?_, ?_⟩
  · have hall := (hus.trans htakes).trans hts
    simpa using hall.rule
  · intro o ho
    simp only [Term.operands, List.mem_cons, List.not_mem_nil, or_false] at ho
    rcases ho with rfl | rfl
    · exact hlwf
    · exact hrwf
  · simpa [Term.nesting] using hlevel

/-! ## Terms, conjunctions and disjunctions -/

/-- What a reader with `n` levels guarantees of a disjunction. -/
def SoundDisjunction (n : Nat) : Prop :=
  ∀ {names : List String} {d : Disjunction} {s s' : State}, s.Closed → s.scope.Holds names →
    descend (readRule n) .disjunction s = .ok d s' →
    ∃ us, Takes s us s' ∧ Disjunction.SpelledBy d us ∧
      (∀ o ∈ Disjunction.operands d, o.WellFormed names) ∧ 3 * Disjunction.nesting d + 5 ≤ n ∧
      s'.current.kind ≠ .and ∧ s'.current.kind ≠ .or

theorem term_sound (ih : ∀ m < n, SoundDisjunction m) {t : Term} (hs : s.Closed)
    (hn : s.scope.Holds names) (h : descend (readRule n) .term s = .ok t s') :
    ∃ us, Takes s us s' ∧ t.SpelledBy us ∧ (∀ o ∈ t.operands, o.WellFormed names) ∧
      3 * t.nesting + 3 ≤ n := by
  obtain ⟨m, s₁, rfl, hrun, rfl⟩ := level_of_descend h
  clear h
  obtain ⟨answer, s₂, ha, h⟩ := bind_ok.mp hrun
  cases answer with
  | true =>
    obtain ⟨o, ho, htakes⟩ := accept_sound (hs.opened _) (by decide) ha
    obtain ⟨d, s₃, hd, h⟩ := bind_ok.mp h
    have hscope : s₂.scope.Holds names := by rwa [htakes.scope]
    obtain ⟨ts, hts, hspell, hwf, hlevel, hand, hor⟩ :=
      ih m (Nat.lt_succ_self m) htakes.closed hscope hd
    obtain ⟨c, s₄, hc, h⟩ := bind_ok.mp h
    obtain ⟨hk, rfl, rfl⟩ := take_ok.mp hc
    have hclose : s₃.current.kind = .rightParen := by simpa [hand, hor] using hk
    obtain ⟨rfl, rfl⟩ := pure_ok.mp h
    refine ⟨o :: (ts ++ [s₃.current]), ?_, .group ho hspell hclose, hwf, ?_⟩
    · have hlast : Takes s₃ [s₃.current] s₃.skip := .skip hts.closed (by simp [hclose])
      have hall := (htakes.trans hts).trans hlast
      simpa using hall.rule
    · simp only [Term.nesting]
      omega
  | false =>
    obtain ⟨htakes, -, -⟩ := accept_sound_false (hs.opened _) ha
    have hscope : s₂.scope.Holds names := by rwa [htakes.scope]
    obtain ⟨us, hus, hspell, hwf, hlevel⟩ := comparison_sound htakes.closed hscope h
    exact ⟨us, (htakes.trans hus).rule, hspell, hwf, by omega⟩

theorem conjunction_sound (ih : ∀ m < n, SoundDisjunction m) {c : Conjunction} (hs : s.Closed)
    (hn : s.scope.Holds names) (h : descend (readRule n) .conjunction s = .ok c s') :
    ∃ us, Takes s us s' ∧ Conjunction.SpelledBy c us ∧
      (∀ o ∈ Conjunction.operands c, o.WellFormed names) ∧ 3 * Conjunction.nesting c + 4 ≤ n ∧
      s'.current.kind ≠ .and := by
  obtain ⟨m, s₁, rfl, hrun, rfl⟩ := level_of_descend h
  clear h
  obtain ⟨ts, s₂, htakes, hlist, hgood, hclosed, -, hend⟩ :=
    takes_of_many1 (only .and) Term.SpelledBy
      (fun t => (∀ o ∈ t.operands, o.WellFormed names) ∧ 3 * t.nesting + 3 ≤ m)
      (fun _ => True) s.scope
      (fun hs h => accept_only hs (by decide) h) (fun hs h => (accept_sound_false hs h).1)
      (fun {t s s'} hs hscope h => by
        obtain ⟨us, hus, hspell, hwf, hlevel⟩ :=
          term_sound (fun k hk => ih k (Nat.lt_succ_of_lt hk)) hs (hscope ▸ hn) h
        exact ⟨us, hus, hspell, hspell.begins.ne_nil, ⟨hwf, hlevel⟩, trivial⟩)
      (hs.opened _) rfl hrun
  obtain ⟨-, hand, hcurrent⟩ := accept_sound_false hclosed hend
  refine ⟨ts, htakes.rule, hlist, ?_, ?_, ?_⟩
  · intro o ho
    obtain ⟨t, ht, ho⟩ := Conjunction.mem_operands.mp ho
    exact (hgood t ht).1 o ho
  · have hle : Conjunction.nesting c ≤ (m - 3) / 3 := by
      refine Conjunction.nesting_le.mpr fun t ht => ?_
      have hlevel := (hgood t ht).2
      omega
    obtain ⟨t, ht⟩ := List.exists_mem_of_ne_nil c hlist.ne_nil
    have hlevel := (hgood t ht).2
    omega
  · show s₁.current.kind ≠ .and
    rwa [hcurrent]

theorem disjunction_sound (n : Nat) : SoundDisjunction n := by
  induction n using Nat.strongRecOn with
  | ind n ih =>
    intro names d s s' hs hn h
    obtain ⟨m, s₁, rfl, hrun, rfl⟩ := level_of_descend h
    clear h
    obtain ⟨ts, s₂, htakes, hlist, hgood, hclosed, hand, hend⟩ :=
      takes_of_many1 (only .or) Conjunction.SpelledBy
        (fun c => (∀ o ∈ Conjunction.operands c, o.WellFormed names) ∧
          3 * Conjunction.nesting c + 4 ≤ m)
        (fun s => s.current.kind ≠ .and) s.scope
        (fun hs h => accept_only hs (by decide) h) (fun hs h => (accept_sound_false hs h).1)
        (fun {c s s'} hs hscope h => by
          obtain ⟨us, hus, hspell, hwf, hlevel, hand⟩ :=
            conjunction_sound (fun k hk => ih k (Nat.lt_succ_of_lt hk)) hs (hscope ▸ hn) h
          exact ⟨us, hus, hspell, (Conjunction.begins hspell).ne_nil, ⟨hwf, hlevel⟩, hand⟩)
        (hs.opened _) rfl hrun
    obtain ⟨-, hor, hcurrent⟩ := accept_sound_false hclosed hend
    rw [← hcurrent] at hand hor
    refine ⟨ts, htakes.rule, hlist, ?_, ?_, hand, hor⟩
    · intro o ho
      obtain ⟨c, hc, ho⟩ := Disjunction.mem_operands.mp ho
      exact (hgood c hc).1 o ho
    · have hle : Disjunction.nesting d ≤ (m - 4) / 3 := by
        refine Disjunction.nesting_le.mpr fun c hc => ?_
        have hlevel := (hgood c hc).2
        omega
      obtain ⟨c, hc⟩ := List.exists_mem_of_ne_nil d hlist.ne_nil
      have hlevel := (hgood c hc).2
      omega

/-! ## Conditions -/

/-- **What is read as a condition** is one that is spelled and well-formed, with three rules more
open around it. -/
theorem condition_sound {c : Condition} (hs : s.Closed) (hn : s.scope.Holds names)
    (hlevels : n + 3 ≤ nestingLimit) (h : descend (readRule n) .condition s = .ok c s') :
    ∃ us, Takes s us s' ∧ c.SpelledBy us ∧ c.WellFormed names := by
  obtain ⟨m, s₁, rfl, hrun, rfl⟩ := level_of_descend h
  clear h
  obtain ⟨answer, s₂, ha, h⟩ := bind_ok.mp hrun
  cases answer with
  | true =>
    obtain ⟨t, hk, htakes⟩ := accept_sound (hs.opened _) (by decide) ha
    obtain ⟨rfl, rfl⟩ := pure_ok.mp h
    exact ⟨[t], htakes.rule, .default hk, by simp [Condition.operands], Nat.zero_le _⟩
  | false =>
    obtain ⟨htakes, -, -⟩ := accept_sound_false (hs.opened _) ha
    have hscope : s₂.scope.Holds names := by rwa [htakes.scope]
    obtain ⟨d, s₃, hd, h⟩ := bind_ok.mp h
    obtain ⟨us, hus, hspell, hwf, hlevel, -⟩ := disjunction_sound m htakes.closed hscope hd
    obtain ⟨rfl, rfl⟩ := pure_ok.mp h
    refine ⟨us, (htakes.trans hus).rule, .expression hspell, hwf, ?_⟩
    simp only [Condition.nesting, Condition.nestingLimit]
    simp only [nestingLimit] at hlevels
    omega

end RecordSchema.Parser
