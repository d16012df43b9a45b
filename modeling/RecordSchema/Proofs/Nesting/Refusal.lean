import RecordSchema.Proofs.Completeness
import RecordSchema.Proofs.Nesting.Ungrouped
import RecordSchema.Proofs.Steps

/-!
# Conditions that are nested too deep

The other side of the completeness of conditions. A pair of parentheses opens three rules, so with
`3 * k + 3` levels left a disjunction that nests `k` pairs or more is refused, and it is refused at
its first overflow: what stands in front is nested less deep and is read. From there the fault is
carried outwards, past what is read before the condition and out of every loop.

Results:
* `Halts.many`, `Halts.many1`: a loop that reads each good item and fails at a bad one fails at the
  first of these.
* `disjunction_overruns`: a disjunction that nests too deep for the levels left.
* `declarations_overrun`: the loop over the declarations.
-/

namespace RecordSchema.Parser

open State

variable {α β : Type} {n k m : Nat} {names : List String} {before : List Declaration}
  {us ts rest : List Token} {s s₁ : State}

/-! ## Faults of nesting -/

/-- The parser finds the rules nested too deep at the first place in the tokens `us` where more
than `k` parentheses are opened one inside the other. -/
def Overruns (k : Nat) (x : Parser α) (s : State) (us : List Token) : Prop :=
  ∃ f s' v, x s = .error f s' ∧ f.cause = .nestedTooDeep v.offset ∧ Overflow k us v

namespace Overruns

variable {x : Parser α} {g : α → Parser β}

theorem mono (h : Overruns k x s us) (hle : ∀ v, Overflow k us v → Overflow m ts v) :
    Overruns m x s ts := by
  obtain ⟨f, s', v, hrun, hf, hv⟩ := h
  exact ⟨f, s', v, hrun, hf, hle v hv⟩

theorem append (h : Overruns k x s us) (ts : List Token) : Overruns k x s (us ++ ts) :=
  h.mono fun _ hv => hv.append ts

theorem behind (h : Overruns k x s ts) (hpass : Passable k us) : Overruns k x s (us ++ ts) :=
  h.mono fun v hv => hpass ts v hv

/-- A fault ends the reading. -/
theorem bind (h : Overruns k x s us) : Overruns k (x >>= g) s us := by
  obtain ⟨f, s', v, hrun, hv⟩ := h
  exact ⟨f, s', v, bind_of_error hrun, hv⟩

/-- A fault of what is read behind something else. -/
theorem bind_of_ok {a : α} (hx : x s = .ok a s₁) (h : Overruns k (g a) s₁ us) :
    Overruns k (x >>= g) s us := by
  obtain ⟨f, s', v, hrun, hv⟩ := h
  exact ⟨f, s', v, (Parser.bind_of_ok hx).trans hrun, hv⟩

/-- A fault of the function for a rule. -/
theorem rule {rule : Rule} (hs : Ready (n + 1) s) (hk : s.current.kind ∈ rule.first)
    (h : Overruns k (reader (readRule n) rule) (s.opened rule) us) :
    Overruns k (descend (readRule (n + 1)) rule) s us := by
  obtain ⟨f, s', v, hrun, hv⟩ := h
  have hlevels := hs.levels
  have hread := readRule_of_level (n := n) (decide_eq_true hk) (by omega)
  rw [build_eq, bind_of_error hrun] at hread
  exact ⟨f, s'.closed, v, bind_of_error hread, hv⟩

/-- No level is left for a rule that begins where parentheses are blocked. -/
theorem of_blocked {rule : Rule} {v : Token} (hk : s.current.kind ∈ rule.first)
    (hv : s.current = v) (hblocked : Blocked us v) :
    Overruns 0 (descend (readRule 0) rule) s us := by
  have hread : readRule 0 rule s = .error s.tooDeep s.passComments :=
    readRule_of_deep (decide_eq_true hk) (.inr rfl)
  exact ⟨s.tooDeep, s.passComments, v, bind_of_error hread, by rw [← hv]; rfl, hblocked⟩

end Overruns

/-! ## Loops -/

/-- What makes a loop fail at the first bad item of any list. The invariant is about the items read
so far, newest first, those still to read, and the state. A good item is read in front of a further
one, and its tokens can stand in front of an overflow; a bad one overruns. -/
structure Halts (R : State → List Token → State → Prop) (more : Parser Bool)
    (item : List α → Parser α) (sep : List Token → Prop) (spelled : α → List Token → Prop)
    (follow : List Token → Prop) (k : Nat) (good : α → Prop)
    (Inv : List α → List α → State → Prop) : Prop where
  spans : Spans R
  ne_nil : ∀ {a : α} {us : List Token}, spelled a us → us ≠ []
  next : ∀ {a : α} {js us ts : List Token}, sep js → spelled a us → follow (js ++ us ++ ts)
  between : ∀ {a : α} {js : List Token}, good a → sep js → Passable k js
  passes : ∀ {a : α} {us : List Token}, good a → spelled a us → Passable k us
  reads : ∀ {before ahead : List α} {a : α} {us ts : List Token} {s : State},
    Inv before (a :: ahead) s → good a → spelled a us → follow ts → s.tokens = us ++ ts →
    ∃ s', item before s = .ok a s' ∧ R s us s' ∧ Inv (a :: before) ahead s'
  fails : ∀ {before ahead : List α} {a : α} {us ts : List Token} {s : State},
    Inv before (a :: ahead) s → ¬ good a → spelled a us → s.tokens = us ++ ts →
    Overruns k (item before) s us
  goesOn : ∀ {before ahead : List α} {a : α} {js us ts : List Token} {s : State},
    Inv before (a :: ahead) s → sep js → spelled a us → s.tokens = js ++ us ++ ts →
    ∃ s', more s = .ok true s' ∧ R s js s' ∧ Inv before (a :: ahead) s'

namespace Halts

variable {R : State → List Token → State → Prop} {more : Parser Bool} {item : List α → Parser α}
  {sep : List Token → Prop} {spelled : α → List Token → Prop} {follow : List Token → Prop}
  {good : α → Prop} {Inv : List α → List α → State → Prop} {as : List α}

/-- A trail with a bad item is not empty, so that it can follow another item. -/
theorem follow_trail (h : Halts R more item sep spelled follow k good Inv)
    (ht : Trail sep spelled as ts) (hbad : ¬ ∀ a ∈ as, good a) : follow (ts ++ rest) := by
  cases ht with
  | nil => exact absurd (fun _ ha => absurd ha List.not_mem_nil) hbad
  | cons hj hi _ =>
    rw [List.append_assoc]
    exact h.next hj hi

/-- **The turns of a loop** fail at the first bad item of a trail. -/
theorem manyWithin (h : Halts R more item sep spelled follow k good Inv)
    (ht : Trail sep spelled as ts) (hsep : ∀ js, sep js → Passable k js)
    (hbad : ¬ ∀ a ∈ as, good a) :
    ∀ {n : Nat} {before : List α} {s : State}, Inv before as s → s.tokens = ts ++ rest →
      as.length < n → Overruns k (Parser.manyWithin more item n before) s ts := by
  induction ht with
  | nil => exact absurd (fun _ ha => absurd ha List.not_mem_nil) hbad
  | @cons a as js us ts hj hi ht ih =>
    intro n before s hs htokens hn
    obtain ⟨n, rfl⟩ := Nat.exists_eq_succ_of_ne_zero (Nat.ne_of_gt (Nat.zero_lt_of_lt hn))
    rw [List.append_assoc] at htokens
    obtain ⟨s₁, hmore, hr₁, hs₁⟩ := h.goesOn hs hj hi htokens
    rw [List.append_assoc] at htokens
    have htokens₁ := h.spans.tokens_of hr₁ htokens
    rw [Parser.manyWithin, List.append_assoc]
    refine Overruns.behind (.bind_of_ok hmore ?_) (hsep js hj)
    rw [if_pos rfl]
    by_cases hgood : good a
    · have hrest : ¬ ∀ b ∈ as, good b := fun has => hbad (List.forall_mem_cons.mpr ⟨hgood, has⟩)
      obtain ⟨s₂, hitem, hr₂, hs₂⟩ := h.reads hs₁ hgood hi (h.follow_trail ht hrest) htokens₁
      refine Overruns.behind (.bind_of_ok hitem ?_) (h.passes hgood hi)
      exact ih hrest hs₂ (h.spans.tokens_of hr₂ htokens₁) (Nat.lt_of_succ_lt_succ hn)
    · exact ((h.fails hs₁ hgood hi htokens₁).bind).append ts

/-- **A loop** fails at the first bad item of a trail. -/
theorem many (h : Halts R more item sep spelled follow k good Inv)
    (ht : Trail sep spelled as ts) (hsep : ∀ js, sep js → Passable k js)
    (hbad : ¬ ∀ a ∈ as, good a) (hs : Inv [] as s) (htokens : s.tokens = ts ++ rest) :
    Overruns k (Parser.many more item) s ts := by
  refine .bind_of_ok (tokensLeft_ok.mpr ⟨rfl, rfl⟩) (h.manyWithin ht hsep hbad hs htokens ?_)
  have hlen := ht.length_le fun _ _ => h.ne_nil
  rw [htokens, List.length_append]
  omega

/-- **A loop that begins with an item** fails at the first bad item of a list. -/
theorem many1 (h : Halts R more item sep spelled follow k good Inv)
    (hlist : Listed sep spelled as ts) (hbad : ¬ ∀ a ∈ as, good a) (hs : Inv [] as s)
    (htokens : s.tokens = ts ++ rest) : Overruns k (Parser.many1 more item) s ts := by
  cases hlist with
  | @mk a as us ts hi ht =>
    rw [List.append_assoc] at htokens
    by_cases hgood : good a
    · have hrest : ¬ ∀ b ∈ as, good b := fun has => hbad (List.forall_mem_cons.mpr ⟨hgood, has⟩)
      obtain ⟨s₁, hitem, hr, hs₁⟩ := h.reads hs hgood hi (h.follow_trail ht hrest) htokens
      have htokens₁ := h.spans.tokens_of hr htokens
      refine Overruns.behind (.bind_of_ok hitem ?_) (h.passes hgood hi)
      refine .bind_of_ok (tokensLeft_ok.mpr ⟨rfl, rfl⟩) ?_
      refine h.manyWithin ht (fun _ => h.between hgood) hrest hs₁ htokens₁ ?_
      have hlen := ht.length_le fun _ _ => h.ne_nil
      rw [htokens₁, List.length_append]
      omega
    · exact ((h.fails hs hgood hi htokens).bind).append ts

end Halts

/-! ## Terms, conjunctions and disjunctions -/

/-- A list whose items are all nested less than `k` is so as a whole, unless it is empty. -/
theorem exists_nested {nest : α → Nat} {nestAll : List α → Nat} {as : List α}
    (hle : ∀ {n : Nat}, nestAll as ≤ n ↔ ∀ a ∈ as, nest a ≤ n) (hne : as ≠ [])
    (hk : k ≤ nestAll as) : ¬ ∀ a ∈ as, nest a < k := by
  intro hall
  obtain ⟨a, ha⟩ := List.exists_mem_of_ne_nil as hne
  have hpos := hall a ha
  have hnest : nestAll as ≤ k - 1 := hle.mpr fun b hb => Nat.le_sub_one_of_lt (hall b hb)
  omega

/-- **A loop over items with a connective** before each further one fails at the first item that is
nested `k` deep or more. -/
theorem connective_overruns {kind : TokenKind} {item : Parser α}
    {spelled : α → List Token → Prop} (nest : α → Nat) (operands : α → List Operand)
    (follow : List Token → Prop) (hkind : kind ∉ [TokenKind.leftParen, .rightParen])
    (hne : ∀ {a us}, spelled a us → us ≠ [])
    (hnext : ∀ {t : Token} {ts : List Token}, t.kind = kind → follow (t :: ts))
    (hwithin : ∀ {a us m}, spelled a us → nest a ≤ m → Within m us)
    (hitem : ∀ {a : α} {us ts : List Token} {s : State}, Ready n s → s.scope.Holds names →
      (∀ o ∈ operands a, o.WellFormed names) → nest a < k → spelled a us → follow ts →
      s.tokens = us ++ ts → ∃ s', item s = .ok a s' ∧ Takes s us s')
    (hfails : ∀ {a : α} {us ts : List Token} {s : State}, Ready n s → s.scope.Holds names →
      (∀ o ∈ operands a, o.WellFormed names) → k ≤ nest a → spelled a us →
      s.tokens = us ++ ts → Overruns k item s us)
    {as : List α} (hs : Ready n s) (hn : s.scope.Holds names)
    (hwf : ∀ a ∈ as, ∀ o ∈ operands a, o.WellFormed names)
    (hlist : Listed (only kind) spelled as ts) (hbad : ¬ ∀ a ∈ as, nest a < k)
    (ht : s.tokens = ts ++ rest) : Overruns k (many1 (accept kind) fun _ => item) s ts := by
  -- what is nested less deep than `k` stays one level below
  have hpass {a : α} {us : List Token} (hgood : nest a < k) (hus : Within (k - 1) us) :
      Passable k us := by
    have hpassable := hus.passable
    rwa [Nat.sub_add_cancel (Nat.one_le_of_lt hgood)] at hpassable
  have hhalts : Halts Takes (accept kind) (fun _ => item) (only kind) spelled follow k
      (fun a => nest a < k) fun _ ahead s =>
        Ready n s ∧ s.scope.Holds names ∧
          ∀ a ∈ ahead, ∀ o ∈ operands a, o.WellFormed names := by
    refine ⟨Takes.spans, hne, ?_, ?_, ?_, ?_, ?_, ?_⟩
    · rintro a js us ts ⟨t, rfl, hk⟩ -
      exact hnext hk
    · exact fun hgood hj => hpass hgood (Within.of_only hkind _ hj)
    · exact fun hgood ha => hpass hgood (hwithin ha (Nat.le_sub_one_of_lt hgood))
    · rintro before ahead a us ts s ⟨hs, hn, hwf⟩ hgood ha hfollow ht
      obtain ⟨hwfa, hwf⟩ := List.forall_mem_cons.mp hwf
      obtain ⟨s', hrun, htakes⟩ := hitem hs hn hwfa hgood ha hfollow ht
      exact ⟨s', hrun, htakes, hs.of_reads htakes.toReads, by rwa [htakes.scope], hwf⟩
    · rintro before ahead a us ts s ⟨hs, hn, hwf⟩ hgood ha ht
      exact hfails hs hn (hwf a List.mem_cons_self) (Nat.le_of_not_lt hgood) ha ht
    · rintro before ahead a js us ts s ⟨hs, hn, hwf⟩ ⟨t, rfl, hk⟩ - ht
      obtain ⟨s', hrun, htakes⟩ := accept_complete hs.closed ht hk
      exact ⟨s', hrun, htakes, hs.of_reads htakes.toReads, by rwa [htakes.scope], hwf⟩
  exact hhalts.many1 hlist hbad ⟨hs, hn, hwf⟩ ht

/-- What a reader with three levels more than for `k` parentheses does not read of a disjunction. -/
def OverrunsDisjunction (k : Nat) : Prop :=
  ∀ {names : List String} {d : Disjunction} {us rest : List Token} {s : State},
    Ready (3 * k + 3) s → s.scope.Holds names → s.tokens = us ++ rest →
    Disjunction.SpelledBy d us → (∀ o ∈ Disjunction.operands d, o.WellFormed names) →
    k ≤ Disjunction.nesting d → Overruns k (descend (readRule (3 * k + 3)) .disjunction) s us

theorem term_overruns (ih : ∀ i, i + 1 = k → OverrunsDisjunction i) {t : Term}
    (hs : Ready (3 * k + 1) s) (hn : s.scope.Holds names) (ht : s.tokens = us ++ rest)
    (h : t.SpelledBy us) (hwf : ∀ o ∈ t.operands, o.WellFormed names) (hk : k ≤ t.nesting) :
    Overruns k (descend (readRule (3 * k + 1)) .term) s us := by
  refine .rule hs (current_of_begins h.begins ht) ?_
  rw [← tokens_opened s .term] at ht
  have hs₁ := hs.opened .term
  cases h with
  | @comparison l r x sign us ts hl hsign hr =>
    -- without parentheses there is no level even for the comparison
    obtain rfl := Nat.le_zero.mp hk
    obtain ⟨v, vs, rfl, hv⟩ := hl.begins
    have hcurrent := current_of_tokens ht
    have hparen : (s.opened .term).current.kind ≠ .leftParen := by
      intro he
      rw [← hcurrent, he] at hv
      exact absurd hv (by decide)
    refine .bind_of_ok (accept_complete_false hparen) ?_
    exact .of_blocked (hcurrent ▸ hv) hcurrent (.inl ⟨_, rfl, hv⟩)
  | @group d o c ts ho hd hc =>
    rw [List.cons_append, List.append_assoc] at ht
    obtain ⟨s₁, hrun₁, htakes₁⟩ := accept_complete hs₁.closed ht ho
    have ht₁ : s₁.tokens = ts ++ (c :: rest) := htakes₁.tokens_of ht
    refine .bind_of_ok hrun₁ (.bind ?_)
    cases k with
    | zero =>
      obtain ⟨v, vs, rfl, hv⟩ := Disjunction.begins hd
      have hcurrent := current_of_tokens ht₁
      exact .of_blocked (hcurrent ▸ hv) hcurrent (.inr ⟨o, _, rfl, ho⟩)
    | succ k =>
      have hscope : s₁.scope.Holds names := by rwa [htakes₁.scope]
      have hinner := ih k rfl (hs₁.of_reads htakes₁.toReads) hscope ht₁ hd hwf
        (Nat.le_of_succ_le_succ hk)
      exact (hinner.append [c]).mono fun _ hv => hv.paren ho

theorem conjunction_overruns (ih : ∀ i, i + 1 = k → OverrunsDisjunction i) {c : Conjunction}
    (hs : Ready (3 * k + 2) s) (hn : s.scope.Holds names) (ht : s.tokens = us ++ rest)
    (h : Conjunction.SpelledBy c us) (hwf : ∀ o ∈ Conjunction.operands c, o.WellFormed names)
    (hk : k ≤ Conjunction.nesting c) :
    Overruns k (descend (readRule (3 * k + 2)) .conjunction) s us := by
  refine .rule hs (current_of_begins (Conjunction.begins h) ht) ?_
  rw [← tokens_opened s .conjunction] at ht
  refine connective_overruns Term.nesting Term.operands (fun _ => True) (by decide)
    (fun ha => ha.begins.ne_nil) (fun _ => trivial) ?_ ?_ ?_ (hs.opened _) hn ?_ h
    (exists_nested Conjunction.nesting_le h.ne_nil hk) ht
  · intro t us m hspell hle
    refine Disjunction.within m (Listed.of_single (Listed.of_single hspell)) ?_
    exact Disjunction.nesting_le.mpr
      (by simpa using Conjunction.nesting_le.mpr (by simpa using hle))
  · intro t us ts s hs hn hwf hlt hspell _ ht
    exact term_complete (fun m _ => disjunction_complete m) hs hn ht hspell hwf (by omega)
  · intro t us ts s hs hn hwf hle hspell ht
    exact term_overruns ih hs hn ht hspell hwf hle
  · exact fun t hmem o ho => hwf o (Conjunction.mem_operands.mpr ⟨t, hmem, ho⟩)

/-- **A disjunction that nests too deep** for the levels left is refused where it overflows. -/
theorem disjunction_overruns (k : Nat) : OverrunsDisjunction k := by
  induction k using Nat.strongRecOn with
  | ind k ih =>
    intro names d us rest s hs hn ht h hwf hk
    have hbelow (i : Nat) (hi : i + 1 = k) : OverrunsDisjunction i := ih i (by omega)
    refine .rule hs (current_of_begins (Disjunction.begins h) ht) ?_
    rw [← tokens_opened s .disjunction] at ht
    refine connective_overruns Conjunction.nesting Conjunction.operands (Avoids [.and])
      (by decide) (fun hc => (Conjunction.begins hc).ne_nil) ?_ ?_ ?_ ?_ (hs.opened _) hn ?_ h
      (exists_nested Disjunction.nesting_le h.ne_nil hk) ht
    · exact fun ht => avoids_cons (by rw [ht]; decide)
    · intro c us m hspell hle
      refine Disjunction.within m (Listed.of_single hspell) ?_
      exact Disjunction.nesting_le.mpr (by simpa using hle)
    · intro c us ts s hs hn hwf hlt hspell hfollow ht
      exact conjunction_complete (fun m _ => disjunction_complete m) hs hn ht hspell hwf
        (by omega) hfollow
    · intro c us ts s hs hn hwf hle hspell ht
      exact conjunction_overruns hbelow hs hn ht hspell hwf hle
    · exact fun c hmem o ho => hwf o (Disjunction.mem_operands.mpr ⟨c, hmem, ho⟩)

/-! ## Conditions and branches -/

theorem condition_overruns {c : Condition} (hs : Ready n s) (hn : s.scope.Holds names)
    (ht : s.tokens = us ++ rest) (h : c.SpelledBy us)
    (hwf : ∀ o ∈ c.operands, o.WellFormed names) (hlevels : n + 3 = nestingLimit)
    (hdeep : Condition.nestingLimit < c.nesting) :
    Overruns (Condition.nestingLimit + 1) (descend (readRule n) .condition) s us := by
  obtain rfl : n = 3 * (Condition.nestingLimit + 1) + 3 + 1 := by
    have hlimit : n + 3 = 256 := hlevels
    have hnesting : Condition.nestingLimit = 82 := rfl
    omega
  refine .rule hs (current_of_begins h.begins ht) ?_
  rw [← tokens_opened s .condition] at ht
  have hs₁ := hs.opened .condition
  cases h with
  | default hk => exact absurd hdeep (Nat.not_lt_zero _)
  | @expression d _ hd =>
    have hstart := current_of_begins (Disjunction.begins hd) ht
    have hdefault : (s.opened .condition).current.kind ≠ .default := by
      intro he
      rw [he] at hstart
      exact absurd hstart (by decide)
    have hlook : Takes (s.opened .condition) [] _ := .look hs₁.closed
    refine .bind_of_ok (accept_complete_false hdefault) (.bind ?_)
    exact disjunction_overruns _ (hs₁.of_reads hlook.toReads) hn (hlook.tokens_of ht) hd hwf hdeep

theorem branch_overruns {b : Branch} (hs : Ready n s) (hn : s.scope.Holds names)
    (htypes : s.types = TypeTable.of before) (hnodup : (before.map (·.name.text)).Nodup)
    (ht : s.tokens = us ++ rest) (h : b.SpelledBy us) (hrwf : b.type.WellFormed before names)
    (hcwf : ∀ o ∈ b.condition.operands, o.WellFormed names) (hlevels : n + 2 = nestingLimit)
    (hdeep : Condition.nestingLimit < b.condition.nesting) :
    Overruns (Condition.nestingLimit + 2) (descend (readRule n) .branch) s us := by
  have hlimit : n + 2 = 256 := hlevels
  obtain ⟨n, rfl⟩ := Nat.exists_eq_add_of_le' (show 1 ≤ n by omega)
  refine .rule hs (current_of_begins h.begins ht) ?_
  rw [← tokens_opened s .branch] at ht
  have hs₁ := hs.opened .branch
  cases h with
  | @mk r c us ts hr hc =>
    cases hc with
    | @mk o e ts ho hc he =>
      rw [List.append_assoc, List.cons_append, List.append_assoc] at ht
      obtain ⟨s₁, hrun₁, htakes₁⟩ := reference_complete hs₁ hn htypes hnodup ht hr hrwf (by omega)
        (avoids_cons (by rw [ho]; decide))
      have ht₁ := htakes₁.tokens_of ht
      obtain ⟨s₂, hrun₂, htakes₂⟩ :=
        take_complete htakes₁.closed ht₁ (List.mem_singleton.mpr ho)
      have htakes := htakes₁.trans htakes₂
      have hscope : s₂.scope.Holds names := by rwa [htakes.scope]
      have ht₂ : s₂.tokens = ts ++ (e :: rest) := htakes₂.tokens_of ht₁
      have hcondition := condition_overruns (hs₁.of_reads htakes.toReads) hscope ht₂ hc hcwf
        hlevels hdeep
      refine Overruns.behind (.bind_of_ok hrun₁ (.bind_of_ok hrun₂ (.bind ?_))) hr.within.passable
      exact (hcondition.append [e]).mono fun _ hv => hv.paren ho

/-! ## Choices -/

/-- **The loop over the branches** fails at the first overflow, if a condition is nested too
deep. -/
theorem branches_overrun {bs : List Branch} (hs : Ready n s) (hn : s.scope.Holds names)
    (htypes : s.types = TypeTable.of before) (hnodup : (before.map (·.name.text)).Nodup)
    (ht : s.tokens = ts ++ rest) (h : Listed nothing Branch.SpelledBy bs ts)
    (hwf : ∀ b ∈ bs, b.ungrouped.WellFormed (before.map (·.ungrouped)) names)
    (hcount : bs.countP (·.condition.isDefault) ≤ 1) (hlevels : n + 2 = nestingLimit)
    (hbad : ¬ ∀ b ∈ bs, b.condition.nesting ≤ Condition.nestingLimit) :
    Overruns (Condition.nestingLimit + 2)
      (many1 (canStart .branch) (nextBranch (readRule n))) s ts := by
  have hhalts : Halts Takes (canStart .branch) (nextBranch (readRule n)) nothing
      Branch.SpelledBy (fun _ => True) (Condition.nestingLimit + 2)
      (fun b => b.condition.nesting ≤ Condition.nestingLimit) fun bs ahead s =>
        Ready n s ∧ s.types = TypeTable.of before ∧ s.scope.Holds names ∧
          bs.countP (·.condition.isDefault) + ahead.countP (·.condition.isDefault) ≤ 1 ∧
          ∀ b ∈ ahead, b.ungrouped.WellFormed (before.map (·.ungrouped)) names := by
    refine ⟨Takes.spans, fun hb => hb.begins.ne_nil, fun _ _ => trivial, ?_, ?_, ?_, ?_, ?_⟩
    · exact fun _ hj => (Within.of_nothing _ hj).passable
    · exact fun hgood hb => (hb.within hgood).passable
    · rintro bs ahead b us ts s ⟨hs, htypes, hn, hcount, hwf⟩ hgood hb - ht
      obtain ⟨hbwf, hwf⟩ := List.forall_mem_cons.mp hwf
      obtain ⟨s', hrun, htakes⟩ := branch_complete hs hn htypes hnodup ht hb
        (Branch.wellFormed_iff.mpr ⟨hbwf, hgood⟩) hlevels.ge
      have hmoved : (b :: bs).countP (·.condition.isDefault) +
          ahead.countP (·.condition.isDefault) ≤ 1 := by
        simp only [List.countP_cons] at hcount ⊢
        omega
      have hfirst : b.condition.isDefault = true → bs.countP (·.condition.isDefault) = 0 := by
        intro hdefault
        rw [List.countP_cons, if_pos hdefault] at hcount
        omega
      exact ⟨s', nextBranch_ok.mpr ⟨hrun, hfirst⟩, htakes, hs.of_reads htakes.toReads,
        htakes.types.trans htypes, by rwa [htakes.scope], hmoved, hwf⟩
    · rintro bs ahead b us ts s ⟨hs, htypes, hn, -, hwf⟩ hgood hb ht
      obtain ⟨hrwf, hcwf, -⟩ := hwf b List.mem_cons_self
      refine .bind (branch_overruns hs hn htypes hnodup ht hb
        (Reference.wellFormed_ungrouped.mp hrwf) ?_ hlevels (Nat.lt_of_not_le hgood))
      rwa [Branch.ungrouped, Condition.operands_ungrouped] at hcwf
    · rintro bs ahead b js us ts s ⟨hs, hinv⟩ rfl hb ht
      obtain ⟨hmore, hlook⟩ := canStart_goesOn hs.closed hb.begins ht
      exact ⟨_, hmore, hlook, hs.of_reads hlook.toReads, hinv⟩
  exact hhalts.many1 h hbad ⟨hs, htypes, hn, by simpa using hcount, hwf⟩ ht

theorem choice_overruns {ps : List Name} {bs : List Branch} (hs : Ready n s)
    (hn : s.scope.Holds []) (htypes : s.types = TypeTable.of before)
    (hnodup : (before.map (·.name.text)).Nodup) {t : Token}
    (ht : s.tokens = t :: (us ++ ts) ++ rest) (hk : t.kind = .choice)
    (hp : Bracketed Name.SpelledBy ps us) (hb : Braced Branch.SpelledBy bs ts)
    (hwf : (Body.choice ps bs).ungrouped.WellFormed (before.map (·.ungrouped)))
    (hlevels : n + 1 = nestingLimit)
    (hbad : ¬ ∀ c ∈ (Body.choice ps bs).conditions, c.nesting ≤ Condition.nestingLimit) :
    Overruns (Condition.nestingLimit + 2) (descend (readRule n) .choice) s
      (t :: (us ++ ts)) := by
  have hlimit : n + 1 = 256 := hlevels
  obtain ⟨n, rfl⟩ := Nat.exists_eq_add_of_le' (show 1 ≤ n by omega)
  obtain ⟨-, hps, -, hcount, hwf⟩ := hwf
  rw [countP_isDefault_ungrouped] at hcount
  refine .rule hs (current_of_begins (begins_cons hk _) ht) ?_
  rw [← tokens_opened s .choice, List.cons_append, List.append_assoc] at ht
  have hs₁ := hs.opened .choice
  obtain ⟨s₁, hrun₁, htakes₁⟩ := take_complete hs₁.closed ht (List.mem_singleton.mpr hk)
  have ht₁ : s₁.tokens = us ++ (ts ++ rest) := htakes₁.tokens_of ht
  have hempty : s₁.scope.Holds [] := by rwa [htakes₁.scope]
  obtain ⟨s₂, hrun₂, hpasses₂, hholds⟩ := parameters_complete (hs₁.of_reads htakes₁.toReads)
    hempty ht₁ hp hps (by omega)
  have ht₂ := hpasses₂.tokens_of ht₁
  cases hb with
  | @mk o c ts ho hlist hc =>
    rw [List.cons_append, List.append_assoc] at ht₂
    obtain ⟨s₃, hrun₃, htakes₃⟩ := take_complete hpasses₂.closed ht₂ (List.mem_singleton.mpr ho)
    have ht₃ : s₃.tokens = ts ++ (c :: rest) := htakes₃.tokens_of ht₂
    have hall := (htakes₁.toPasses.trans hpasses₂).trans htakes₃.toPasses
    have hscope : s₃.scope.Holds (texts ps) := by rwa [htakes₃.scope]
    have hbranches := branches_overrun (hs₁.of_reads hall.toReads) hscope
      (hall.types.trans htypes) hnodup ht₃ hlist (List.forall_mem_map.mp hwf) hcount.le hlevels
      (fun hgood => hbad (List.forall_mem_map.mpr hgood))
    have hfront : Within (Condition.nestingLimit + 1) ((t :: us) ++ [o]) :=
      (Within.cons (by rw [hk]; decide) (.bracketed hp fun _ _ hx => hx.within)).append
        (.single (by rw [ho]; decide))
    have hwhole : t :: (us ++ o :: (ts ++ [c])) = (t :: us ++ [o]) ++ (ts ++ [c]) := by simp
    rw [hwhole]
    refine Overruns.behind ?_ hfront.passable
    refine .bind_of_ok hrun₁ (.bind_of_ok hrun₂ (.bind_of_ok hrun₃ (.bind ?_)))
    exact hbranches.append [c]

/-! ## Bodies and declarations -/

theorem body_overruns {b : Body} (hs : Ready n s) (hn : s.scope.Holds [])
    (htypes : s.types = TypeTable.of before) (hnodup : (before.map (·.name.text)).Nodup)
    (ht : s.tokens = us ++ rest) (h : b.SpelledBy us)
    (hwf : b.ungrouped.WellFormed (before.map (·.ungrouped))) (hlevels : n + 1 = nestingLimit)
    (hbad : ¬ ∀ c ∈ b.conditions, c.nesting ≤ Condition.nestingLimit) :
    Overruns (Condition.nestingLimit + 2) (body (readRule n)) s us := by
  have hnone (hempty : b.conditions = []) : False := hbad (by simp [hempty])
  cases h with
  | simple _ => exact (hnone rfl).elim
  | bare _ _ => exact (hnone rfl).elim
  | sequence _ _ _ => exact (hnone rfl).elim
  | array _ _ _ => exact (hnone rfl).elim
  | choice hk hp hb =>
    have hlook : Takes s [] s.passComments := .look hs.closed
    have hfind : Rule.bodies.find? (·.canStart s.current.kind) = some .choice :=
      find?_bodies .choice (by decide) _ (current_of_begins (begins_cons hk _) ht)
    obtain ⟨f, s', v, hrun, hv⟩ := choice_overruns (hs.of_reads hlook.toReads) hn htypes hnodup
      (hlook.tokens_of ht) hk hp hb hwf hlevels hbad
    have hdispatch := (dispatch_of_find hfind).trans (descend_error_readRule hrun)
    rw [body_eq]
    exact .bind ⟨f, s', v, hdispatch, hv⟩

theorem declaration_overruns {d : Declaration} (hs : Ready n s)
    (htypes : s.types = TypeTable.of before) (hnodup : (before.map (·.name.text)).Nodup)
    (ht : s.tokens = us ++ rest) (h : d.SpelledBy us)
    (hwf : d.body.ungrouped.WellFormed (before.map (·.ungrouped)))
    (hnew : d.name.text ∉ before.map (·.name.text)) (hlevels : n = nestingLimit)
    (hbad : ¬ ∀ c ∈ d.body.conditions, c.nesting ≤ Condition.nestingLimit) :
    Overruns (Condition.nestingLimit + 2) (descend (readRule n) .declaration) s us := by
  have hlimit : n = 256 := hlevels
  obtain ⟨n, rfl⟩ := Nat.exists_eq_add_of_le' (show 1 ≤ n by omega)
  refine .rule hs (current_of_begins h.begins ht) ?_
  rw [← tokens_opened s .declaration] at ht
  have hs₁ := hs.opened .declaration
  cases h with
  | @mk x b a us ts hx ha hb =>
    rw [List.append_assoc] at ht
    obtain ⟨s₁, hrun₁, htakes₁⟩ := name_complete hs₁.closed ht hx
    have hfree : s₁.types.ensureFree x = .ok () := by
      rw [htakes₁.types.trans htypes]
      exact TypeTable.ensureFree_iff.mpr hnew
    have ht₁ := htakes₁.tokens_of ht
    obtain ⟨s₂, hrun₂, htakes₂⟩ := take_complete htakes₁.closed ht₁ (List.mem_singleton.mpr ha)
    have htakes := htakes₁.trans htakes₂
    have hs₂ := hs₁.of_reads htakes.toReads
    have hopened : Ready n { s₂ with scope := {}, declaring := x } := ⟨hs₂.closed, hs₂.levels⟩
    have hbody := body_overruns hopened Scope.holds_empty (htakes.types.trans htypes) hnodup
      (htakes₂.tokens_of ht₁) hb hwf hlevels hbad
    have hfront : Within (Condition.nestingLimit + 1) (us ++ [a]) :=
      hx.within.append (.single (by rw [ha]; decide))
    rw [show us ++ a :: ts = us ++ [a] ++ ts by simp]
    refine Overruns.behind ?_ hfront.passable
    refine .bind_of_ok hrun₁ (.bind_of_ok (a := ()) (ensureFree_ok.mpr ⟨hfree, rfl⟩) ?_)
    refine .bind_of_ok hrun₂ ?_
    exact .bind_of_ok (a := ()) (openDeclaration_ok.mpr rfl) hbody.bind

/-- **The loop over the declarations** fails at the first overflow, if a condition is nested too
deep. -/
theorem declarations_overrun {ds : List Declaration} (hs : Ready nestingLimit s)
    (htypes : s.types = {}) (h : Trail nothing Declaration.SpelledBy ds s.tokens)
    (hwf : DeclarationsWellFormed [] (ds.map (·.ungrouped)))
    (hbad : ¬ ∀ d ∈ ds, ∀ c ∈ d.body.conditions, c.nesting ≤ Condition.nestingLimit) :
    Overruns (Condition.nestingLimit + 2) declarations s s.tokens := by
  have hhalts : Halts Reads moreTokens (fun _ => descend rule .declaration) nothing
      Declaration.SpelledBy (Avoids [.width]) (Condition.nestingLimit + 2)
      (fun d => ∀ c ∈ d.body.conditions, c.nesting ≤ Condition.nestingLimit) fun ds ahead s =>
        Ready nestingLimit s ∧ s.types = TypeTable.of ds.reverse ∧
          (ds.reverse.map (·.name.text)).Nodup ∧
          DeclarationsWellFormed (ds.reverse.map (·.ungrouped)) (ahead.map (·.ungrouped)) := by
    refine ⟨Reads.spans, fun hd => hd.begins.ne_nil, ?_, ?_, ?_, ?_, ?_, ?_⟩
    · rintro d js us ts rfl hd
      exact hd.begins.avoids (by decide) ts
    · exact fun _ hj => (Within.of_nothing _ hj).passable
    · exact fun hgood hd => (hd.within hgood).passable
    · rintro ds ahead d us ts s ⟨hs, htypes, hnodup, hnew, hbody, hwf⟩ hgood hd hfollow ht
      rw [names_ungrouped] at hnew
      obtain ⟨s', hrun, hreads, htypes'⟩ := declaration_complete hs htypes hnodup ht hd
        (Body.wellFormed_iff.mpr ⟨hbody, hgood⟩) hnew (Nat.le_refl _) hfollow
      rw [← List.reverse_cons] at htypes'
      refine ⟨s', hrun, hreads, hs.of_reads hreads, htypes', ?_, by simpa using hwf⟩
      rw [List.reverse_cons]
      exact nodup_names_concat hnodup hnew
    · rintro ds ahead d us ts s ⟨hs, htypes, hnodup, hnew, hbody, -⟩ hgood hd ht
      rw [names_ungrouped] at hnew
      exact declaration_overruns hs htypes hnodup ht hd hbody hnew rfl hgood
    · rintro ds ahead d js us ts s ⟨hs, hinv⟩ rfl hd ht
      have hlook : Takes s [] s.passComments := .look hs.closed
      have hmore : s.current.kind ≠ .endOfInput := by
        intro he
        have hdone := hs.closed.current_iff.mp he
        rw [ht] at hdone
        exact hd.begins.ne_nil (List.append_eq_nil_iff.mp hdone).1
      exact ⟨_, moreTokens_ok.mpr ⟨(decide_eq_true hmore).symm, rfl⟩, hlook.toReads,
        hs.of_reads hlook.toReads, hinv⟩
  exact hhalts.many h (fun _ hj => (Within.of_nothing _ hj).passable) hbad
    ⟨hs, htypes, List.nodup_nil, hwf⟩ (List.append_nil _).symm

end RecordSchema.Parser
