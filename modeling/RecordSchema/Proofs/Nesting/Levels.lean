import Mathlib.Data.List.Infix
import RecordSchema.Proofs.Grammar
import RecordSchema.Proofs.WellFormed

/-!
# Levels of parentheses

The level behind some tokens is how many parentheses they open and do not close. Tokens that spell
a part of a schema close what they open, and inside them the level goes no higher than the nesting
of the conditions in them: that is `Within`. Where a parenthesis is opened that is one too many,
`Overflow` says which token that is, as the first one behind which the level is too high.

Results:
* `Disjunction.within`: the level inside a disjunction is bounded by its nesting.
* `Declaration.SpelledBy.within`: that inside a declaration by the nesting of its conditions.
* `Within.passable`, `Overflow.paren`: an overflow with tokens in front.
* `Overflow.unique`: there is at most one.
-/

namespace RecordSchema

/-! ## Levels -/

/-- What a token adds to the level. -/
def Token.weight (t : Token) : Int :=
  if t.kind = .leftParen then 1 else if t.kind = .rightParen then -1 else 0

/-- How many parentheses are open behind the tokens. -/
def level : List Token → Int
  | [] => 0
  | t :: ts => t.weight + level ts

@[simp] theorem level_nil : level [] = 0 := rfl

@[simp] theorem level_cons (t : Token) (ts : List Token) : level (t :: ts) = t.weight + level ts :=
  rfl

@[simp] theorem level_append (us ts : List Token) : level (us ++ ts) = level us + level ts := by
  induction us with
  | nil => rw [List.nil_append, level_nil, Int.zero_add]
  | cons t us ih => rw [List.cons_append, level_cons, level_cons, ih, Int.add_assoc]

theorem Token.weight_open {t : Token} (h : t.kind = .leftParen) : t.weight = 1 := if_pos h

theorem Token.weight_close {t : Token} (h : t.kind = .rightParen) : t.weight = -1 := by
  rw [weight, if_neg (by rw [h]; decide), if_pos h]

theorem Token.weight_other {t : Token} (h : t.kind ∉ [.leftParen, .rightParen]) :
    t.weight = 0 := by
  simp only [List.mem_cons, List.not_mem_nil, or_false, not_or] at h
  rw [weight, if_neg h.1, if_neg h.2]

/-- A beginning of appended lists is one of the first, or all of that and one of the second. -/
theorem prefix_append_cases {α : Type} {us ts q : List α} (h : q <+: us ++ ts) :
    q <+: us ∨ ∃ p, p <+: ts ∧ q = us ++ p := by
  rcases List.prefix_or_prefix_of_prefix h (List.prefix_append us ts) with hq | ⟨p, rfl⟩
  · exact .inl hq
  · exact .inr ⟨p, (List.prefix_append_right_inj us).mp h, rfl⟩

/-- The tokens close what they open, and inside them the level is no higher than `k`. -/
structure Within (k : Nat) (ts : List Token) : Prop where
  closed : level ts = 0
  le : ∀ q, q <+: ts → level q ≤ k

namespace Within

variable {k m : Nat} {us ts : List Token}

theorem nil : Within k [] :=
  ⟨rfl, fun q hq => by rw [List.prefix_nil.mp hq]; exact Int.natCast_nonneg k⟩

theorem append (h : Within k us) (h' : Within k ts) : Within k (us ++ ts) := by
  refine ⟨by rw [level_append, h.closed, h'.closed]; rfl, fun q hq => ?_⟩
  rcases prefix_append_cases hq with hq | ⟨p, hp, rfl⟩
  · exact h.le q hq
  · rw [level_append, h.closed, Int.zero_add]
    exact h'.le p hp

theorem single {t : Token} (h : t.kind ∉ [.leftParen, .rightParen]) : Within k [t] := by
  have hweight := Token.weight_other h
  refine ⟨by simp [hweight], fun q hq => ?_⟩
  rcases List.prefix_cons_iff.mp hq with rfl | ⟨p, rfl, hp⟩
  · exact Int.natCast_nonneg k
  · rw [List.prefix_nil.mp hp]
    simp [hweight]

theorem cons {t : Token} (h : t.kind ∉ [.leftParen, .rightParen]) (hts : Within k ts) :
    Within k (t :: ts) :=
  (single h).append hts

/-- Parentheses around tokens make the level one higher. -/
theorem paren {o c : Token} (ho : o.kind = .leftParen) (hts : Within k ts)
    (hc : c.kind = .rightParen) : Within (k + 1) (o :: (ts ++ [c])) := by
  have hopen := Token.weight_open ho
  have hclose := Token.weight_close hc
  refine ⟨by simp [hopen, hclose, hts.closed], fun q hq => ?_⟩
  rcases List.prefix_cons_iff.mp hq with rfl | ⟨p, rfl, hp⟩
  · exact Int.natCast_nonneg _
  · rw [level_cons, hopen]
    rcases prefix_append_cases hp with hp | ⟨r, hr, rfl⟩
    · have hle := hts.le p hp
      omega
    · rw [level_append, hts.closed]
      rcases List.prefix_cons_iff.mp hr with rfl | ⟨z, rfl, hz⟩
      · rw [level_nil]
        omega
      · obtain rfl := List.prefix_nil.mp hz
        rw [level_cons, hclose, level_nil]
        omega

theorem enclosed {inner : List Token → Prop} {opening closing : TokenKind}
    (h : Enclosed opening closing inner ts) (hopen : opening ∉ [TokenKind.leftParen, .rightParen])
    (hclose : closing ∉ [TokenKind.leftParen, .rightParen])
    (hinner : ∀ us, inner us → Within k us) : Within k ts := by
  cases h with
  | mk ho hi hc =>
    exact cons (ho ▸ hopen) ((hinner _ hi).append (single (hc ▸ hclose)))

theorem trail {α : Type} {sep : List Token → Prop} {item : α → List Token → Prop} {as : List α}
    (h : Trail sep item as ts) (hsep : ∀ js, sep js → Within k js)
    (hitem : ∀ a ∈ as, ∀ us, item a us → Within k us) : Within k ts := by
  induction h with
  | nil => exact nil
  | cons hj hi _ ih =>
    obtain ⟨ha, has⟩ := List.forall_mem_cons.mp hitem
    exact ((hsep _ hj).append (ha _ hi)).append (ih has)

theorem listed {α : Type} {sep : List Token → Prop} {item : α → List Token → Prop} {as : List α}
    (h : Listed sep item as ts) (hsep : ∀ js, sep js → Within k js)
    (hitem : ∀ a ∈ as, ∀ us, item a us → Within k us) : Within k ts := by
  cases h with
  | mk hi ht =>
    obtain ⟨ha, has⟩ := List.forall_mem_cons.mp hitem
    exact (ha _ hi).append (trail ht hsep has)

theorem of_only {kind : TokenKind} (hkind : kind ∉ [TokenKind.leftParen, .rightParen]) :
    ∀ js, only kind js → Within k js := by
  rintro js ⟨t, rfl, ht⟩
  exact single (ht ▸ hkind)

theorem of_perhaps {kind : TokenKind} (hkind : kind ∉ [TokenKind.leftParen, .rightParen]) :
    ∀ js, perhaps kind js → Within k js := by
  rintro js (rfl | hj)
  · exact nil
  · exact of_only hkind js hj

theorem of_nothing : ∀ js, nothing js → Within k js := by
  rintro js rfl
  exact nil

end Within

/-! ## Parts of schemas -/

variable {k : Nat} {us ts : List Token}

theorem Name.SpelledBy.within {n : Name} (h : n.SpelledBy ts) : Within k ts := by
  cases h with
  | mk ht => exact .single (by rw [ht]; decide)

theorem Operand.SpelledBy.within {o : Operand} (h : o.SpelledBy ts) : Within k ts := by
  cases h with
  | name hn => exact hn.within
  | integer ht => exact .single (by rw [ht]; decide)

theorem Relation.sign_other (x : Relation) : x.sign ∉ [TokenKind.leftParen, .rightParen] := by
  cases x <;> decide

/-- The tokens of a comparison open nothing. -/
theorem within_comparison {l r : Operand} {x : Relation} {sign : Token} (hl : l.SpelledBy us)
    (hsign : sign.kind = x.sign) (hr : r.SpelledBy ts) : Within k (us ++ sign :: ts) :=
  hl.within.append (.cons (hsign ▸ x.sign_other) hr.within)

/-- **Inside a disjunction** the level is no higher than its nesting. -/
theorem Disjunction.within (k : Nat) : ∀ {d : Disjunction} {ts : List Token},
    Disjunction.SpelledBy d ts → Disjunction.nesting d ≤ k → Within k ts := by
  induction k using Nat.strongRecOn with
  | ind k ih =>
    have hterm {t : Term} {us : List Token} (h : t.SpelledBy us) (hle : t.nesting ≤ k) :
        Within k us := by
      cases h with
      | comparison hl hsign hr => exact within_comparison hl hsign hr
      | group ho hd hc =>
        rw [Term.nesting] at hle
        obtain ⟨m, rfl⟩ := Nat.exists_eq_add_of_le' (show 1 ≤ k by omega)
        exact .paren ho (ih m (Nat.lt_succ_self m) hd (by omega)) hc
    intro d ts h hle
    refine .listed h (Within.of_only (by decide)) fun c hc us hus => ?_
    refine .listed hus (Within.of_only (by decide)) fun t ht vs hvs => hterm hvs ?_
    exact Conjunction.nesting_le.mp (Disjunction.nesting_le.mp hle c hc) t ht

theorem Condition.SpelledBy.within {c : Condition} (h : c.SpelledBy ts) (hle : c.nesting ≤ k) :
    Within k ts := by
  cases h with
  | default ht => exact .single (by rw [ht]; decide)
  | expression hd => exact Disjunction.within k hd hle

theorem Builtin.word_other (b : Builtin) : b.word ∉ [TokenKind.leftParen, .rightParen] := by
  cases b <;> decide

theorem SimpleType.SpelledBy.within {t : SimpleType} (h : t.SpelledBy ts) : Within k ts := by
  cases h with
  | bare hk => exact .single (hk ▸ Builtin.word_other _)
  | wide hk hw _ => exact .cons (hk ▸ Builtin.word_other _) (.single (by rw [hw]; decide))

/-- A list in brackets of items that open nothing. -/
theorem Within.bracketed {α : Type} {item : α → List Token → Prop} {as : List α}
    (h : Bracketed item as ts) (hitem : ∀ a us, item a us → Within k us) : Within k ts :=
  .enclosed h (by decide) (by decide) fun _ hlist =>
    .listed hlist (of_perhaps (by decide)) fun a _ us => hitem a us

theorem Reference.SpelledBy.within {r : Reference} (h : r.SpelledBy ts) : Within k ts := by
  have hvalues {vs : Option (List Operand)} {ts : List Token} (h : ValuesSpelledBy vs ts) :
      Within k ts := by
    cases h with
    | none => exact .nil
    | some hvs => exact .bracketed hvs fun _ _ hv => hv.within
  cases h with
  | builtin ht hv => exact ht.within.append (hvalues hv)
  | declared hn hv => exact hn.within.append (hvalues hv)

theorem Field.SpelledBy.within {f : Field} (h : f.SpelledBy ts) : Within k ts := by
  cases h with
  | mk hn hr => exact hn.within.append hr.within

/-- The condition of a branch is in parentheses. -/
theorem Branch.SpelledBy.within {b : Branch} (h : b.SpelledBy ts) (hle : b.condition.nesting ≤ k) :
    Within (k + 1) ts := by
  cases h with
  | mk hr hc =>
    cases hc with
    | mk ho hc he => exact hr.within.append (.paren ho (hc.within hle) he)

/-- The conditions of the branches of a body, in order. -/
def Body.conditions : Body → List Condition
  | simple _ | sequence .. | array .. => []
  | choice _ branches => branches.map (·.condition)

theorem Body.SpelledBy.within {b : Body} (h : b.SpelledBy ts)
    (hle : ∀ c ∈ b.conditions, c.nesting ≤ k) : Within (k + 1) ts := by
  have hfields {fs : List Field} {ts : List Token} (h : Braced Field.SpelledBy fs ts) :
      Within (k + 1) ts :=
    .enclosed h (by decide) (by decide) fun _ hlist =>
      .listed hlist Within.of_nothing fun _ _ _ hf => hf.within
  have hnames {ps : List Name} {ts : List Token} (h : Bracketed Name.SpelledBy ps ts) :
      Within (k + 1) ts :=
    .bracketed h fun _ _ hn => hn.within
  cases h with
  | simple ht => exact ht.within
  | bare hk hf => exact .cons (by rw [hk]; decide) (hfields hf)
  | sequence hk hp hf => exact .cons (by rw [hk]; decide) ((hnames hp).append (hfields hf))
  | array hk hp hf => exact .cons (by rw [hk]; decide) ((hnames hp).append (hfields hf))
  | choice hk hp hb =>
    refine .cons (by rw [hk]; decide) ((hnames hp).append ?_)
    refine .enclosed hb (by decide) (by decide) fun _ hlist => ?_
    refine .listed hlist Within.of_nothing fun b hmem _ hspell => hspell.within ?_
    exact hle _ (List.mem_map_of_mem hmem)

/-- **Inside a declaration** the level is one higher than the nesting of its conditions. -/
theorem Declaration.SpelledBy.within {d : Declaration} (h : d.SpelledBy ts)
    (hle : ∀ c ∈ d.body.conditions, c.nesting ≤ k) : Within (k + 1) ts := by
  cases h with
  | mk hn ha hb => exact hn.within.append (.cons (by rw [ha]; decide) (hb.within hle))

/-! ## Overflows -/

/-- Where no further parenthesis can be opened: the token `v` is the first one if that begins an
operand, and the second one behind an opening parenthesis. -/
def Blocked (us : List Token) (v : Token) : Prop :=
  (∃ ts, us = v :: ts ∧ v.kind ∈ Rule.operandStart) ∨
    ∃ o ts, us = o :: v :: ts ∧ o.kind = .leftParen

/-- Where no more than `k` parentheses can be opened one inside the other: the first one behind
which the level is `k` blocks what follows. -/
def Overflow : Nat → List Token → Token → Prop
  | 0, us, v => Blocked us v
  | k + 1, us, v => ∃ pre o post, us = pre ++ o :: post ∧ o.kind = .leftParen ∧ level pre = k ∧
      (∀ q, q <+: pre → level q ≤ k) ∧ Blocked post v

/-- The tokens can stand in front of those that overflow. -/
def Passable (k : Nat) (us : List Token) : Prop :=
  ∀ ts v, Overflow k ts v → Overflow k (us ++ ts) v

theorem Blocked.append {v : Token} (h : Blocked us v) (ts : List Token) : Blocked (us ++ ts) v := by
  rcases h with ⟨vs, rfl, hv⟩ | ⟨o, vs, rfl, ho⟩
  · exact .inl ⟨vs ++ ts, rfl, hv⟩
  · exact .inr ⟨o, vs ++ ts, rfl, ho⟩

theorem Overflow.append {v : Token} (h : Overflow k us v) (ts : List Token) :
    Overflow k (us ++ ts) v := by
  cases k with
  | zero => exact Blocked.append h ts
  | succ k =>
    obtain ⟨pre, o, post, rfl, ho, hlevel, hle, hblocked⟩ := h
    exact ⟨pre, o, post ++ ts, by simp, ho, hlevel, hle, hblocked.append ts⟩

/-- What does not go too high can stand in front. -/
theorem Within.passable (h : Within k us) : Passable (k + 1) us := by
  rintro ts v ⟨pre, o, post, rfl, ho, hlevel, hle, hblocked⟩
  refine ⟨us ++ pre, o, post, by simp, ho, by rw [level_append, h.closed, hlevel]; simp, ?_,
    hblocked⟩
  intro q hq
  rcases prefix_append_cases hq with hq | ⟨p, hp, rfl⟩
  · exact h.le q hq
  · rw [level_append, h.closed, Int.zero_add]
    exact hle p hp

/-- A parenthesis in front takes one of those that can be opened. -/
theorem Overflow.paren {o v : Token} (ho : o.kind = .leftParen) (h : Overflow k us v) :
    Overflow (k + 1) (o :: us) v := by
  have hopen := Token.weight_open ho
  cases k with
  | zero => exact ⟨[], o, us, rfl, ho, rfl, fun q hq => by simp [List.prefix_nil.mp hq], h⟩
  | succ k =>
    obtain ⟨pre, o', post, rfl, ho', hlevel, hle, hblocked⟩ := h
    refine ⟨o :: pre, o', post, rfl, ho', ?_, fun q hq => ?_, hblocked⟩
    · rw [level_cons, hopen, hlevel]
      omega
    · rcases List.prefix_cons_iff.mp hq with rfl | ⟨p, rfl, hp⟩
      · rw [level_nil]
        omega
      · have hp := hle p hp
        rw [level_cons, hopen]
        omega

theorem Blocked.unique {v w : Token} (hv : Blocked us v) (hw : Blocked us w) : v = w := by
  have hother {o : Token} (ho : o.kind = .leftParen) : o.kind ∉ Rule.operandStart := by
    rw [ho]
    decide
  rcases hv with ⟨vs, rfl, hv⟩ | ⟨o, vs, rfl, ho⟩ <;> rcases hw with ⟨ws, hw, hk⟩ | ⟨p, ws, hw, hp⟩
  · exact (List.cons.inj hw).1
  · obtain ⟨rfl, -⟩ := List.cons.inj hw
    exact absurd hv (hother hp)
  · obtain ⟨rfl, -⟩ := List.cons.inj hw
    exact absurd hk (hother ho)
  · exact (List.cons.inj (List.cons.inj hw).2).1

/-- A parenthesis that makes the level too high does not stand in tokens that keep it. -/
theorem not_prefix_of_level {pre q : List Token} {o : Token} (ho : o.kind = .leftParen)
    (hlevel : level pre = k) (hle : ∀ p, p <+: q → level p ≤ k) : ¬ pre ++ [o] <+: q := by
  intro h
  have hhigh := hle _ h
  rw [level_append, level_cons, Token.weight_open ho, level_nil, hlevel] at hhigh
  omega

/-- **There is at most one token** at which tokens overflow. -/
theorem Overflow.unique {v w : Token} (hv : Overflow k us v) (hw : Overflow k us w) : v = w := by
  cases k with
  | zero => exact Blocked.unique hv hw
  | succ k =>
    obtain ⟨pre, o, post, rfl, ho, hlevel, hle, hblocked⟩ := hv
    obtain ⟨pre', o', post', heq, ho', hlevel', hle', hblocked'⟩ := hw
    have hfirst : pre ++ [o] <+: pre ++ o :: post := ⟨post, by simp⟩
    have hfirst' : pre' ++ [o'] <+: pre ++ o :: post := ⟨post', by simp [heq]⟩
    -- neither parenthesis stands in front of the other one
    rcases Nat.lt_trichotomy pre.length pre'.length with hlt | heqlen | hlt
    · refine absurd ?_ (not_prefix_of_level ho hlevel hle')
      refine List.prefix_of_prefix_length_le hfirst ⟨o' :: post', heq.symm⟩ ?_
      rwa [List.length_append, List.length_singleton]
    · obtain ⟨rfl, htail⟩ := List.append_inj heq heqlen
      obtain ⟨rfl, rfl⟩ := List.cons.inj htail
      exact hblocked.unique hblocked'
    · refine absurd ?_ (not_prefix_of_level ho' hlevel' hle)
      refine List.prefix_of_prefix_length_le hfirst' (List.prefix_append _ _) ?_
      rwa [List.length_append, List.length_singleton]

end RecordSchema
