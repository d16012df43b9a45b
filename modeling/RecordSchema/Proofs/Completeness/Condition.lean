import RecordSchema.Proofs.Repetition
import RecordSchema.Proofs.WellFormed

/-!
# What is spelled as a condition is read

Tokens that spell a well-formed part of a condition are read as that part, with enough levels left
and in front of tokens that cannot go on with it. A disjunction must not be followed by a
connective, nor a conjunction by `and`, since the loops would go on; nothing is asked behind a term.

Levels and open rules always add up to the limit, which is part of `Ready`.
-/

namespace RecordSchema.Parser

open State

variable {n : Nat} {names : List String} {us rest : List Token} {s s' : State}

/-! ## States with levels left -/

/-- The tokens ahead end with the end of input, and as many rules as there are levels can still be
opened. -/
structure Ready (n : Nat) (s : State) : Prop where
  closed : s.Closed
  levels : s.depth + n = nestingLimit

theorem Ready.of_reads (h : Ready n s) (hr : Reads s us s') : Ready n s' :=
  ⟨hr.closed, hr.depth.symm ▸ h.levels⟩

theorem Ready.opened (h : Ready (n + 1) s) (rule : Rule) : Ready n (s.opened rule) := by
  refine ⟨h.closed.opened rule, ?_⟩
  have hlevels := h.levels
  show s.depth + 1 + n = nestingLimit
  omega

theorem current_of_begins {kinds : List TokenKind} (h : Begins kinds us)
    (ht : s.tokens = us ++ rest) : s.current.kind ∈ kinds := by
  obtain ⟨t, us, rfl, hk⟩ := h
  rw [current_of_tokens ht]
  exact hk

theorem current_of_avoids {kinds : List TokenKind} (h : Avoids kinds rest) (hs : s.Closed)
    (ht : s.tokens = rest) (hend : TokenKind.endOfInput ∉ kinds) : s.current.kind ∉ kinds := by
  cases rest with
  | nil =>
    rw [hs.current_iff.mpr ht]
    exact hend
  | cons t ts =>
    rw [current_of_tokens ht]
    exact h t rfl

@[simp] theorem State.tokens_opened (s : State) (rule : Rule) :
    (s.opened rule).tokens = s.tokens :=
  tokens_passComments s

/-- **A rule that can begin is read** if the function for it reads it. -/
theorem descend_of_reader {rule : Rule} {out : rule.Output} (hs : Ready (n + 1) s)
    (hk : s.current.kind ∈ rule.first)
    (h : reader (readRule n) rule (s.opened rule) = .ok out s') :
    descend (readRule (n + 1)) rule s = .ok out s'.closed := by
  have hlevels := hs.levels
  exact descend_readRule_ok.mpr ⟨decide_eq_true hk, by omega, s', h, rfl⟩

/-- A rule that only takes tokens is read if the function for it reads it. -/
theorem takes_rule {rule : Rule} {out : rule.Output} (hs : Ready (n + 1) s)
    (hb : Begins rule.first us) (ht : s.tokens = us ++ rest)
    (h : ∃ s₁, reader (readRule n) rule (s.opened rule) = .ok out s₁ ∧
      Takes (s.opened rule) us s₁) :
    ∃ s', descend (readRule (n + 1)) rule s = .ok out s' ∧ Takes s us s' := by
  obtain ⟨s₁, hrun, htakes⟩ := h
  exact ⟨s₁.closed, descend_of_reader hs (current_of_begins hb ht) hrun, htakes.rule⟩

/-! ## Single tokens -/

theorem skip_complete {t : Token} (hs : s.Closed) (ht : s.tokens = t :: rest) :
    Takes s [t] s.skip := by
  have hcurrent := current_of_tokens ht
  have hinner : t.kind ≠ .endOfInput := hs.inner t (by
    have hmem : t ∈ s.tokens := ht ▸ List.mem_cons_self
    exact hmem)
  have htakes := Takes.skip hs (hcurrent ▸ hinner)
  rwa [hcurrent] at htakes

theorem take_complete {kinds : List TokenKind} {t : Token} (hs : s.Closed)
    (ht : s.tokens = t :: rest) (hk : t.kind ∈ kinds) :
    ∃ s', take kinds s = .ok t s' ∧ Takes s [t] s' := by
  have hcurrent := current_of_tokens ht
  subst hcurrent
  exact ⟨s.skip, take_ok.mpr ⟨hk, rfl, rfl⟩, skip_complete hs ht⟩

theorem accept_complete {kind : TokenKind} {t : Token} (hs : s.Closed)
    (ht : s.tokens = t :: rest) (hk : t.kind = kind) :
    ∃ s', accept kind s = .ok true s' ∧ Takes s [t] s' := by
  have hcurrent := current_of_tokens ht
  subst hcurrent
  exact ⟨s.skip, accept_ok.mpr (.inl ⟨hk, rfl, rfl⟩), skip_complete hs ht⟩

theorem accept_complete_false {kind : TokenKind} (hk : s.current.kind ≠ kind) :
    accept kind s = .ok false s.passComments :=
  accept_ok.mpr (.inr ⟨hk, rfl, rfl⟩)

theorem canStart_complete {rule : Rule} (hk : s.current.kind ∈ rule.first) :
    canStart rule s = .ok true s.passComments :=
  canStart_ok.mpr ⟨(decide_eq_true hk).symm, rfl⟩

theorem canStart_complete_false {rule : Rule} (hk : s.current.kind ∉ rule.first) :
    canStart rule s = .ok false s.passComments :=
  canStart_ok.mpr ⟨(decide_eq_false hk).symm, rfl⟩

theorem name_complete {x : Name} (hs : s.Closed) (ht : s.tokens = us ++ rest)
    (h : x.SpelledBy us) : ∃ s', name s = .ok x s' ∧ Takes s us s' := by
  cases h with
  | mk hk =>
    have hcurrent := current_of_tokens ht
    subst hcurrent
    exact ⟨s.skip, name_ok.mpr ⟨hk, rfl, rfl⟩, skip_complete hs ht⟩

/-! ## Operands and comparisons -/

theorem operand_complete {o : Operand} (hs : Ready n s) (hn : s.scope.Holds names)
    (ht : s.tokens = us ++ rest) (h : o.SpelledBy us) (hwf : o.WellFormed names)
    (hlevel : 1 ≤ n) : ∃ s', descend (readRule n) .operand s = .ok o s' ∧ Takes s us s' := by
  obtain ⟨n, rfl⟩ := Nat.exists_eq_add_of_le' hlevel
  refine takes_rule hs h.begins ht ?_
  rw [← tokens_opened s .operand] at ht
  cases h with
  | name hx =>
    cases hx with
    | @mk t hk =>
      have hstart : t.kind ∈ Rule.operandStart := by simp [hk, Rule.operandStart]
      obtain ⟨s₁, htake, htakes⟩ := take_complete (hs.opened _).closed ht hstart
      refine ⟨s₁, bind_ok.mpr ⟨t, s₁, htake, ?_⟩, htakes⟩
      have hfound : (s₁.scope.find? t.text).isSome = true := by
        rw [htakes.scope]
        exact (hn _).mpr hwf
      rw [if_pos hk]
      exact bind_ok.mpr ⟨(), s₁, resolveName_ok.mpr ⟨hfound, rfl⟩, pure_ok.mpr ⟨rfl, rfl⟩⟩
  | @integer t hk =>
    have hstart : t.kind ∈ Rule.operandStart := by simp [hk, Rule.operandStart]
    obtain ⟨s₁, htake, htakes⟩ := take_complete (hs.opened _).closed ht hstart
    refine ⟨s₁, bind_ok.mpr ⟨t, s₁, htake, ?_⟩, htakes⟩
    rw [if_neg (by rw [hk]; decide)]
    have hlt : Text.decimalValue t.text.toList < integerLimit := hwf
    rw [if_pos hlt]
    exact pure_ok.mpr ⟨rfl, rfl⟩

theorem relationOf_sign {x : Relation} {kind : TokenKind} (h : kind = x.sign) :
    kind ∈ relationKinds ∧ relationOf kind = x := by
  subst h
  cases x <;> decide

theorem comparison_complete {l r : Operand} {x : Relation} {sign : Token} {ts : List Token}
    (hs : Ready n s) (hn : s.scope.Holds names) (ht : s.tokens = us ++ sign :: ts ++ rest)
    (hl : l.SpelledBy us) (hsign : sign.kind = x.sign) (hr : r.SpelledBy ts)
    (hlwf : l.WellFormed names) (hrwf : r.WellFormed names) (hlevel : 2 ≤ n) :
    ∃ s', descend (readRule n) .comparison s = .ok (.comparison l x r) s' ∧
      Takes s (us ++ sign :: ts) s' := by
  obtain ⟨n, rfl⟩ := Nat.exists_eq_add_of_le' (Nat.le_of_succ_le hlevel)
  refine takes_rule hs (hl.begins.append _) ht ?_
  rw [← tokens_opened s .comparison, List.append_assoc] at ht
  have hs₁ := hs.opened .comparison
  obtain ⟨s₁, hrun₁, htakes₁⟩ := operand_complete hs₁ hn ht hl hlwf (by omega)
  have ht₁ := htakes₁.tokens_of ht
  obtain ⟨hmem, hx⟩ := relationOf_sign hsign
  obtain ⟨s₂, hrun₂, htakes₂⟩ := take_complete htakes₁.closed ht₁ hmem
  have htakes := htakes₁.trans htakes₂
  have ht₂ : s₂.tokens = ts ++ rest := htakes₂.tokens_of ht₁
  have hscope : s₂.scope.Holds names := by rwa [htakes.scope]
  obtain ⟨s₃, hrun₃, htakes₃⟩ :=
    operand_complete (hs₁.of_reads htakes.toReads) hscope ht₂ hr hrwf (by omega)
  refine ⟨s₃, ?_, by simpa using htakes.trans htakes₃⟩
  refine bind_ok.mpr ⟨l, s₁, hrun₁, bind_ok.mpr ⟨sign, s₂, hrun₂, bind_ok.mpr ⟨r, s₃, hrun₃, ?_⟩⟩⟩
  exact pure_ok.mpr ⟨by rw [hx], rfl⟩

/-! ## Terms, conjunctions and disjunctions -/

/-- What a reader with `n` levels reads of a disjunction. -/
def CompleteDisjunction (n : Nat) : Prop :=
  ∀ {names : List String} {d : Disjunction} {us rest : List Token} {s : State}, Ready n s →
    s.scope.Holds names → s.tokens = us ++ rest → Disjunction.SpelledBy d us →
    (∀ o ∈ Disjunction.operands d, o.WellFormed names) → 3 * Disjunction.nesting d + 5 ≤ n →
    Avoids [.and, .or] rest →
    ∃ s', descend (readRule n) .disjunction s = .ok d s' ∧ Takes s us s'

theorem term_complete (ih : ∀ m < n, CompleteDisjunction m) {t : Term} (hs : Ready n s)
    (hn : s.scope.Holds names) (ht : s.tokens = us ++ rest) (h : t.SpelledBy us)
    (hwf : ∀ o ∈ t.operands, o.WellFormed names) (hlevel : 3 * t.nesting + 3 ≤ n) :
    ∃ s', descend (readRule n) .term s = .ok t s' ∧ Takes s us s' := by
  obtain ⟨n, rfl⟩ := Nat.exists_eq_add_of_le' (show 1 ≤ n by omega)
  refine takes_rule hs h.begins ht ?_
  rw [← tokens_opened s .term] at ht
  have hs₁ := hs.opened .term
  cases h with
  | @comparison l r x sign us ts hl hsign hr =>
    have hstart := current_of_begins (hl.begins.append (sign :: ts)) ht
    have hparen : (s.opened .term).current.kind ≠ .leftParen := by
      intro he
      rw [he] at hstart
      exact absurd hstart (by decide)
    have htakes₁ : Takes (s.opened .term) [] _ := .look hs₁.closed
    obtain ⟨s₂, hrun₂, htakes₂⟩ := comparison_complete (hs₁.of_reads htakes₁.toReads) hn
      (htakes₁.tokens_of ht) hl hsign hr (hwf l (by simp [Term.operands]))
      (hwf r (by simp [Term.operands])) (by omega)
    exact ⟨s₂, bind_ok.mpr ⟨false, _, accept_complete_false hparen, hrun₂⟩,
      htakes₁.trans htakes₂⟩
  | @group d o c ts ho hd hc =>
    rw [List.cons_append, List.append_assoc] at ht
    obtain ⟨s₁, hrun₁, htakes₁⟩ := accept_complete hs₁.closed ht ho
    have hscope : s₁.scope.Holds names := by rwa [htakes₁.scope]
    have ht₁ : s₁.tokens = ts ++ (c :: rest) := htakes₁.tokens_of ht
    simp only [Term.nesting] at hlevel
    obtain ⟨s₂, hrun₂, htakes₂⟩ := ih n (Nat.lt_succ_self n) (hs₁.of_reads htakes₁.toReads) hscope
      ht₁ hd hwf (by omega) (avoids_cons (by rw [hc]; decide))
    have hclose : c.kind ∈ [TokenKind.and, .or, .rightParen] := by simp [hc]
    obtain ⟨s₃, hrun₃, htakes₃⟩ := take_complete htakes₂.closed (htakes₂.tokens_of ht₁) hclose
    refine ⟨s₃, ?_, by simpa using (htakes₁.trans htakes₂).trans htakes₃⟩
    exact bind_ok.mpr ⟨true, s₁, hrun₁, bind_ok.mpr ⟨d, s₂, hrun₂, bind_ok.mpr ⟨c, s₃, hrun₃,
      pure_ok.mpr ⟨rfl, rfl⟩⟩⟩⟩

/-- **A list of items that leave the names alone** is read by a loop that reads each, if `more`
sees every separator and the end of the list. -/
theorem takes_many1 {α : Type} {more : Parser Bool} {item : Parser α} {sep : List Token → Prop}
    {spelled : α → List Token → Prop} (good : α → Prop) (follow : List Token → Prop)
    (hne : ∀ {a us}, spelled a us → us ≠ [])
    (hnext : ∀ {a : α} {js us ts : List Token}, sep js → spelled a us → follow (js ++ us ++ ts))
    (hlast : follow rest)
    (hmore : ∀ {a : α} {js us ts : List Token} {s : State}, s.Closed → sep js → spelled a us →
      s.tokens = js ++ us ++ ts → ∃ s', more s = .ok true s' ∧ Takes s js s')
    (hstop : ∀ {s : State}, s.Closed → s.tokens = rest →
      ∃ s', more s = .ok false s' ∧ Takes s [] s')
    (hitem : ∀ {a : α} {us ts : List Token} {s : State}, Ready n s → s.scope.Holds names →
      good a → spelled a us → follow ts → s.tokens = us ++ ts →
      ∃ s', item s = .ok a s' ∧ Takes s us s')
    {as : List α} {ts : List Token} (hs : Ready n s) (hn : s.scope.Holds names)
    (hgood : ∀ a ∈ as, good a) (h : Listed sep spelled as ts) (ht : s.tokens = ts ++ rest) :
    ∃ s', many1 more (fun _ => item) s = .ok as s' ∧ Takes s ts s' := by
  have haccepts : Accepts Takes more (fun _ => item) sep spelled follow rest fun _ ahead s =>
      Ready n s ∧ s.scope.Holds names ∧ ∀ a ∈ ahead, good a := by
    refine ⟨Takes.spans, hne, hnext, hlast, ?_, ?_, ?_⟩
    · rintro before ahead a us ts s ⟨hs, hn, hgood⟩ ha hfollow ht
      obtain ⟨hga, hgood⟩ := List.forall_mem_cons.mp hgood
      obtain ⟨s', hrun, htakes⟩ := hitem hs hn hga ha hfollow ht
      exact ⟨s', hrun, htakes, hs.of_reads htakes.toReads, by rwa [htakes.scope], hgood⟩
    · rintro before ahead a js us ts s ⟨hs, hn, hgood⟩ hj ha ht
      obtain ⟨s', hrun, htakes⟩ := hmore hs.closed hj ha ht
      exact ⟨s', hrun, htakes, hs.of_reads htakes.toReads, by rwa [htakes.scope], hgood⟩
    · rintro before s ⟨hs, hn, hgood⟩ ht
      obtain ⟨s', hrun, htakes⟩ := hstop hs.closed ht
      exact ⟨s', hrun, htakes, hs.of_reads htakes.toReads, by rwa [htakes.scope], hgood⟩
  obtain ⟨s', hrun, htakes, -⟩ := haccepts.many1 h ⟨hs, hn, hgood⟩ ht
  exact ⟨s', hrun, htakes⟩

/-- A connective is accepted before each further item, and not where the list ends. -/
theorem accepts_connective {α : Type} {kind : TokenKind} {item : Parser α}
    {spelled : α → List Token → Prop} (good : α → Prop) (follow : List Token → Prop)
    (hkind : kind ≠ .endOfInput) (hne : ∀ {a us}, spelled a us → us ≠ [])
    (hnext : ∀ {t : Token} {ts : List Token}, t.kind = kind → follow (t :: ts))
    (hlast : follow rest) (hrest : Avoids [kind] rest)
    (hitem : ∀ {a : α} {us ts : List Token} {s : State}, Ready n s → s.scope.Holds names →
      good a → spelled a us → follow ts → s.tokens = us ++ ts →
      ∃ s', item s = .ok a s' ∧ Takes s us s')
    {as : List α} {ts : List Token} (hs : Ready n s) (hn : s.scope.Holds names)
    (hgood : ∀ a ∈ as, good a) (h : Listed (only kind) spelled as ts)
    (ht : s.tokens = ts ++ rest) :
    ∃ s', many1 (accept kind) (fun _ => item) s = .ok as s' ∧ Takes s ts s' := by
  refine takes_many1 good follow hne ?_ hlast ?_ ?_ hitem hs hn hgood h ht
  · rintro a js us ts ⟨t, rfl, hk⟩ -
    exact hnext hk
  · rintro a js us ts s hs ⟨t, rfl, hk⟩ - ht
    exact accept_complete hs ht hk
  · intro s hs ht
    have hmem : TokenKind.endOfInput ∉ [kind] := fun h => hkind (List.mem_singleton.mp h).symm
    have hstop := current_of_avoids hrest hs ht hmem
    exact ⟨_, accept_complete_false fun he => hstop (List.mem_singleton.mpr he), .look hs⟩

theorem conjunction_complete (ih : ∀ m < n, CompleteDisjunction m) {c : Conjunction}
    (hs : Ready n s) (hn : s.scope.Holds names) (ht : s.tokens = us ++ rest)
    (h : Conjunction.SpelledBy c us) (hwf : ∀ o ∈ Conjunction.operands c, o.WellFormed names)
    (hlevel : 3 * Conjunction.nesting c + 4 ≤ n) (hrest : Avoids [.and] rest) :
    ∃ s', descend (readRule n) .conjunction s = .ok c s' ∧ Takes s us s' := by
  obtain ⟨n, rfl⟩ := Nat.exists_eq_add_of_le' (show 1 ≤ n by omega)
  refine takes_rule hs (Conjunction.begins h) ht ?_
  rw [← tokens_opened s .conjunction] at ht
  refine accepts_connective
    (fun t : Term => (∀ o ∈ t.operands, o.WellFormed names) ∧ 3 * t.nesting + 3 ≤ n)
    (fun _ => True) (by decide) (fun ha => ha.begins.ne_nil) (fun _ => trivial) trivial hrest ?_
    (hs.opened _) hn ?_ h ht
  · rintro t us ts s hs hn ⟨hwf, hlevel⟩ hspell - ht
    exact term_complete (fun m hm => ih m (Nat.lt_succ_of_lt hm)) hs hn ht hspell hwf hlevel
  · intro t hmem
    have hle := Conjunction.nesting_le.mp (Nat.le_refl _) t hmem
    exact ⟨fun o ho => hwf o (Conjunction.mem_operands.mpr ⟨t, hmem, ho⟩), by omega⟩

theorem disjunction_complete (n : Nat) : CompleteDisjunction n := by
  induction n using Nat.strongRecOn with
  | ind n ih =>
    intro names d us rest s hs hn ht h hwf hlevel hrest
    obtain ⟨n, rfl⟩ := Nat.exists_eq_add_of_le' (show 1 ≤ n by omega)
    refine takes_rule hs (Disjunction.begins h) ht ?_
    rw [← tokens_opened s .disjunction] at ht
    refine accepts_connective
      (fun c => (∀ o ∈ Conjunction.operands c, o.WellFormed names) ∧
        3 * Conjunction.nesting c + 4 ≤ n)
      (Avoids [.and]) (by decide) (fun hc => (Conjunction.begins hc).ne_nil) ?_ ?_ ?_ ?_
      (hs.opened _) hn ?_ h ht
    · intro t ts hk
      exact avoids_cons (by rw [hk]; decide)
    · exact fun t ht hk => hrest t ht (by simp [List.mem_singleton.mp hk])
    · exact fun t ht hk => hrest t ht (by simp [List.mem_singleton.mp hk])
    · rintro c us ts s hs hn ⟨hwf, hlevel⟩ hspell hfollow ht
      exact conjunction_complete (fun m hm => ih m (Nat.lt_succ_of_lt hm)) hs hn ht hspell hwf
        hlevel hfollow
    · intro c hmem
      have hle := Disjunction.nesting_le.mp (Nat.le_refl _) c hmem
      exact ⟨fun o ho => hwf o (Disjunction.mem_operands.mpr ⟨c, hmem, ho⟩), by omega⟩

/-! ## Conditions -/

/-- **What is spelled as a condition** is read as one, in front of a token that does not go on with
it, if no more than three rules are open around it. -/
theorem condition_complete {c : Condition} (hs : Ready n s) (hn : s.scope.Holds names)
    (ht : s.tokens = us ++ rest) (h : c.SpelledBy us) (hwf : c.WellFormed names)
    (hlevels : nestingLimit ≤ n + 3) (hrest : Avoids [.and, .or] rest) :
    ∃ s', descend (readRule n) .condition s = .ok c s' ∧ Takes s us s' := by
  obtain ⟨hoperands, hnesting⟩ := hwf
  have hlimit : 256 ≤ n + 3 := hlevels
  obtain ⟨n, rfl⟩ := Nat.exists_eq_add_of_le' (show 1 ≤ n by omega)
  refine takes_rule hs h.begins ht ?_
  rw [← tokens_opened s .condition] at ht
  have hs₁ := hs.opened .condition
  cases h with
  | default hk =>
    obtain ⟨s₁, hrun₁, htakes₁⟩ := accept_complete hs₁.closed ht hk
    exact ⟨s₁, bind_ok.mpr ⟨true, s₁, hrun₁, pure_ok.mpr ⟨rfl, rfl⟩⟩, htakes₁⟩
  | @expression d _ hd =>
    have hstart := current_of_begins (Disjunction.begins hd) ht
    have hdefault : (s.opened .condition).current.kind ≠ .default := by
      intro he
      rw [he] at hstart
      exact absurd hstart (by decide)
    have htakes₁ : Takes (s.opened .condition) [] _ := .look hs₁.closed
    simp only [Condition.nesting, Condition.nestingLimit] at hnesting
    obtain ⟨s₂, hrun₂, htakes₂⟩ := disjunction_complete n (hs₁.of_reads htakes₁.toReads) hn
      (htakes₁.tokens_of ht) hd hoperands (by omega) hrest
    refine ⟨s₂, ?_, htakes₁.trans htakes₂⟩
    exact bind_ok.mpr ⟨false, _, accept_complete_false hdefault,
      bind_ok.mpr ⟨d, s₂, hrun₂, pure_ok.mpr ⟨rfl, rfl⟩⟩⟩

end RecordSchema.Parser
