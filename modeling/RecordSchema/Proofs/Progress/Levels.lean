import Mathlib.Data.Prod.Lex
import RecordSchema.Proofs.Progress.Runs

/-!
# Levels run out in time

Reading a rule reads sub-rules with one more rule open, behind some of the tokens, and no rule is
read with `nestingLimit` of them open. The bound on the levels is therefore never reached, and
`rule` is what it would be without one: the only reader that reads a rule by the function for it,
with itself to read the sub-rules.

Results:
* `readWith_congr`: what a rule does depends on its sub-rules in `Inner` states alone.
* `readRule_levels`: the bound on the levels shows in nothing if there are as many as are left.
* `rule_eq`: a rule reads its sub-rules by itself.
* `eq_rule`: nothing else does so.
-/

namespace RecordSchema.Parser

open State

variable {α : Type}

/-! ## What is left -/

/-- The levels that are left and the tokens ahead, the levels first. -/
def State.budget (s : State) : Nat ×ₗ Nat := toLex (nestingLimit - s.depth, s.tokens.length)

/-- Sub-rules of a rule that is read in a state can be read in this one. -/
structure Inner (s' s : State) : Prop where
  level : s.depth < nestingLimit
  depth : s'.depth = s.depth + 1
  behind : s'.tokens <:+ s.tokens
  closed : s'.Closed

theorem Inner.budget_lt {s s' : State} (h : Inner s' s) : s'.budget < s.budget := by
  have hlevel := h.level
  have hdepth := h.depth
  exact Prod.Lex.toLex_lt_toLex.mpr (.inl (by omega))

theorem Reads.budget_lt {s s' : State} {used : List Token} (h : Reads s used s')
    (hne : used ≠ []) : s'.budget < s.budget := by
  have hpos := List.length_pos_iff.mpr hne
  have hlength := congrArg List.length h.tokens
  rw [List.length_append] at hlength
  exact Prod.Lex.toLex_lt_toLex.mpr (.inr ⟨by rw [h.depth], by omega⟩)

/-- **Rules do not open one inside the other for ever.** -/
theorem inner_wellFounded : WellFounded Inner :=
  Subrelation.wf Inner.budget_lt (InvImage.wf State.budget wellFounded_lt)

/-! ## Readers of sub-rules -/

/-- **What is composed depends on its sub-rules alone**, in the states that it comes to. -/
theorem Composed.congr {x : (Rule → Parser Node) → Parser α} (h : Composed x)
    {sub sub' : Rule → Parser Node} (hbuilt : ∀ rule, Built (sub rule)) :
    ∀ {s : State}, s.Closed →
      (∀ rule used s', Reads s used s' → sub' rule s' = sub rule s') → x sub' s = x sub s := by
  induction h with
  | step _ => exact fun _ _ => rfl
  | sub rule => exact fun hs hsub => hsub rule [] _ (Takes.rfl hs).toReads
  | @bind α β x g hx _ ihx ihg =>
    intro s hs hsub
    show (x sub' >>= g sub') s = (x sub >>= g sub) s
    have hsame := ihx hs hsub
    cases hrun : x sub s with
    | error f s₁ => rw [bind_of_error hrun, bind_of_error (hsame.trans hrun)]
    | ok a s₁ =>
      obtain ⟨us, hus⟩ := (hx.built hbuilt).reads_ok hs hrun
      rw [bind_of_ok hrun, bind_of_ok (hsame.trans hrun)]
      exact ihg a hus.closed fun rule ts s' hts => hsub rule (us ++ ts) s' (hus.trans hts)

/-- **A rule depends on its sub-rules in inner states alone.** -/
theorem readWith_congr {sub sub' : Rule → Parser Node} (hbuilt : ∀ rule, Built (sub rule))
    {s : State} (hs : s.Closed) (hsub : ∀ rule s', Inner s' s → sub' rule s' = sub rule s')
    (rule : Rule) : readWith sub' rule s = readWith sub rule s := by
  cases hrun : ensureStart rule s with
  | error f s₁ =>
    rw [readWith, readWith, bind_of_error hrun, bind_of_error hrun]
  | ok u s₁ =>
    obtain ⟨hstart, hdepth, -⟩ := ensureStart_ok.mp hrun
    rw [readWith_of_level hstart hdepth, readWith_of_level hstart hdepth]
    refine congrArg shut ((Taking.build rule).composed.congr hbuilt (hs.opened rule) ?_)
    intro r used s' hr
    have hbehind : s.tokens = used ++ s'.tokens := by
      rw [← hr.tokens]
      exact (tokens_passComments s).symm
    exact hsub r s' ⟨hdepth, hr.depth, ⟨used, hbehind.symm⟩, hr.closed⟩

/-! ## Without a bound -/

/-- Too deep, a rule is refused whatever the bound on the levels is. -/
theorem readRule_eq_of_deep {n m : Nat} {s : State} (h : nestingLimit ≤ s.depth) (rule : Rule) :
    readRule n rule s = readRule m rule s := by
  cases hstart : rule.canStart s.current.kind with
  | false => rw [readRule_of_not hstart, readRule_of_not hstart]
  | true => rw [readRule_of_deep hstart (.inl h), readRule_of_deep hstart (.inl h)]

/-- **The bound on the levels** shows in nothing if there are as many as are left. -/
theorem readRule_levels (n m : Nat) {s : State} (hs : s.Closed) (hn : nestingLimit ≤ s.depth + n)
    (hm : nestingLimit ≤ s.depth + m) (rule : Rule) : readRule n rule s = readRule m rule s := by
  induction n generalizing m s rule with
  | zero => exact readRule_eq_of_deep hn rule
  | succ n ih =>
    by_cases hdeep : nestingLimit ≤ s.depth
    · exact readRule_eq_of_deep hdeep rule
    · obtain ⟨k, rfl⟩ : ∃ k, m = k + 1 := ⟨m - 1, by omega⟩
      refine readWith_congr (Built.readRule k) hs (fun r s' hinner => ?_) rule
      have hinside := hinner.depth
      exact ih k hinner.closed (by omega) (by omega) r

/-- **A rule reads its sub-rules by itself.** -/
theorem rule_eq {s : State} (hs : s.Closed) (r : Rule) : rule r s = readWith rule r s := by
  have hlevels : rule r s = readWith (readRule (nestingLimit - 1)) r s := rfl
  rw [hlevels]
  refine readWith_congr (Built.readRule nestingLimit) hs (fun r' s' hinner => ?_) r
  have hinside := hinner.depth
  exact readRule_levels _ _ hinner.closed (by omega) (by omega) r'

/-- **What reads rules by itself is `rule`.** -/
theorem eq_rule {read : Rule → Parser Node}
    (hread : ∀ {s : State}, s.Closed → ∀ r, read r s = readWith read r s) :
    ∀ {s : State}, s.Closed → ∀ r, read r s = rule r s := by
  intro s
  induction s using inner_wellFounded.induction with
  | _ s ih =>
    intro hs r
    rw [hread hs, rule_eq hs]
    exact readWith_congr (Built.readRule nestingLimit) hs
      (fun r' s' hinner => ih s' hinner hinner.closed r') r

end RecordSchema.Parser
