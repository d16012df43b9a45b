import RecordSchema.Proofs.Depth

/-!
# Runs go forward

Whatever is built from steps takes tokens off the front of those ahead, with a result and with a
fault, and what is `Taking` does not succeed on none. A loop whose items take tokens therefore ends:
`Unrolls` is the loop without a bound on its turns, and there are no more turns than tokens taken.

Results:
* `Built.reads`: a run takes tokens off the front, and leaves the depth as it was.
* `consumes_readRule`: a rule that is read has taken a token.
* `Unrolls.of_consumes`: a loop whose items take tokens ends.
* `Unrolls.manyWithin_eq`: the bound of a loop shows in nothing if it is above the number of turns.
-/

namespace RecordSchema.Parser

open State

variable {α : Type}

/-! ## Forward -/

theorem Nominal.reads {x : Parser α} (h : Nominal x) {s : State} (hs : s.Closed) :
    Reads s [] (final (x s)) := by
  rcases h.outcome s with ⟨a, ns, hrun⟩ | ⟨cause, -, hrun⟩
  · rw [hrun s rfl]
    exact ⟨rfl, hs, rfl, rfl, rfl⟩
  · rw [hrun s rfl]
    exact (Takes.rfl hs).toReads

/-- Moving on takes the current token, or none where that is the end of input. -/
theorem reads_advance {s : State} (hs : s.Closed) : ∃ used, Reads s used s.advance := by
  by_cases hend : s.current.kind = .endOfInput
  · have hlater : s.lexemes.later = [] := by
      rw [← List.length_eq_zero_iff, ← Lexemes.length_tokens]
      exact congrArg List.length (hs.current_iff.mp hend)
    have hstay : s.advance = s := by
      unfold State.advance Lexemes.advance
      rw [hlater]
    exact ⟨[], hstay.symm ▸ (Takes.rfl hs).toReads⟩
  · obtain ⟨htokens, hclosed, hlast⟩ := Lexemes.Closed.advance hs hend
    exact ⟨[s.current], htokens, hclosed, hlast, rfl, rfl⟩

/-- **A step goes forward.** -/
theorem Step.reads {x : Parser α} (h : Step x) {s : State} (hs : s.Closed) :
    ∃ used, Reads s used (final (x s)) := by
  cases h with
  | pure => exact ⟨[], (Takes.rfl hs).toReads⟩
  | look => exact ⟨[], (Takes.look hs).toReads⟩
  | advance => exact reads_advance hs
  | record => exact ⟨[], rfl, hs, rfl, rfl, rfl⟩
  | unexpected => exact ⟨[], (Takes.look hs).toReads⟩
  | fail => exact ⟨[], (Takes.rfl hs).toReads⟩
  | tokensLeft => exact ⟨[], (Takes.rfl hs).toReads⟩
  | declareName n => exact ⟨[], (Nominal.declareName n).reads hs⟩
  | resolveName n => exact ⟨[], (Nominal.resolveName n).reads hs⟩
  | resolveType n => exact ⟨[], (Nominal.resolveType n).reads hs⟩
  | ensureFree n => exact ⟨[], (Nominal.ensureFree n).reads hs⟩
  | declareType n count => exact ⟨[], (Nominal.declareType n count).reads hs⟩
  | openDeclaration n => exact ⟨[], (Nominal.openDeclaration n).reads hs⟩
  | closeDeclaration => exact ⟨[], Nominal.closeDeclaration.reads hs⟩
  | declaring => exact ⟨[], Nominal.declaring.reads hs⟩

/-- **A run goes forward**: it takes tokens off the front, whatever its outcome. -/
theorem Built.reads {x : Parser α} (h : Built x) :
    ∀ {s : State}, s.Closed → ∃ used, Reads s used (final (x s)) := by
  have hrule (n : Nat) (rule : Rule) {s : State} (hs : s.Closed) (hbuild : ∀ m, n = m + 1 →
      ∃ used, Reads (s.opened rule) used (final (build (Parser.readRule m) rule (s.opened rule)))) :
      ∃ used, Reads s used (final (Parser.readRule n rule s)) := by
    rcases refused_or_level n rule s with hrefused | ⟨m, rfl, hstart, hdepth⟩
    · obtain ⟨fault, hrun⟩ := readRule_of_refused hrefused
      rw [hrun]
      exact ⟨[], (Takes.look hs).toReads⟩
    · obtain ⟨used, hused⟩ := hbuild m rfl
      rw [readRule_of_level hstart hdepth, final_shut]
      exact ⟨used, hused.rule⟩
  induction h with
  | step h => exact fun hs => h.reads hs
  | @bind α β x g _ _ hx hg =>
    intro s hs
    obtain ⟨us, hus⟩ := hx hs
    cases hrun : x s with
    | ok a s₁ =>
      rw [hrun] at hus
      obtain ⟨ts, hts⟩ := hg a hus.closed
      rw [bind_of_ok hrun]
      exact ⟨us ++ ts, hus.trans hts⟩
    | error f s₁ =>
      rw [hrun] at hus
      rw [bind_of_error hrun]
      exact ⟨us, hus⟩
  | readZero rule => exact fun hs => hrule 0 rule hs nofun
  | readSucc _ ih =>
    exact fun hs => hrule _ _ hs fun m hm => by cases hm; exact ih (hs.opened _)

/-- What a run that succeeds takes. -/
theorem Built.reads_ok {x : Parser α} (h : Built x) {a : α} {s s' : State} (hs : s.Closed)
    (hrun : x s = .ok a s') : ∃ used, Reads s used s' := by
  obtain ⟨used, hused⟩ := h.reads hs
  rw [hrun] at hused
  exact ⟨used, hused⟩

/-! ## With a token -/

/-- The parser does not succeed without taking a token. -/
def Consumes (x : Parser α) : Prop :=
  ∀ {a : α} {s s' : State}, s.Closed → x s = .ok a s' → ∃ used, used ≠ [] ∧ Reads s used s'

/-- **What is taking consumes** if its sub-rules do. -/
theorem Taking.consumes {x : (Rule → Parser Node) → Parser α} (h : Taking x)
    {sub : Rule → Parser Node} (hbuilt : ∀ rule, Built (sub rule))
    (hsub : ∀ rule, Consumes (sub rule)) : Consumes (x sub) := by
  induction h with
  | take hend =>
    intro t s s' hs hrun
    obtain ⟨hk, -, rfl⟩ := take_ok.mp hrun
    exact ⟨[s.current], by simp, (Takes.skip hs fun he => hend (he ▸ hk)).toReads⟩
  | sub rule => exact hsub rule
  | bind _ hg hx =>
    intro b s s' hs hrun
    obtain ⟨a, s₁, ha, hrun⟩ := bind_ok.mp hrun
    obtain ⟨us, hne, hus⟩ := hx hs ha
    obtain ⟨ts, hts⟩ := ((hg a).built hbuilt).reads_ok hus.closed hrun
    exact ⟨us ++ ts, List.append_ne_nil_of_left_ne_nil hne _, hus.trans hts⟩
  | behind hx _ hg =>
    intro b s s' hs hrun
    obtain ⟨a, s₁, ha, hrun⟩ := bind_ok.mp hrun
    obtain ⟨us, hus⟩ := (hx.built hbuilt).reads_ok hs ha
    obtain ⟨ts, hne, hts⟩ := hg a hus.closed hrun
    exact ⟨us ++ ts, List.append_ne_nil_of_right_ne_nil _ hne, hus.trans hts⟩
  | accept hend hyes _ hno =>
    intro a s s' hs hrun
    obtain ⟨answer, s₁, hanswer, hrun⟩ := bind_ok.mp hrun
    rcases accept_ok.mp hanswer with ⟨hk, rfl, rfl⟩ | ⟨-, rfl, rfl⟩
    · have hskip := (Takes.skip hs (hk ▸ hend)).toReads
      obtain ⟨ts, hts⟩ := (hyes.built hbuilt).reads_ok hskip.closed hrun
      exact ⟨s.current :: ts, by simp, hskip.trans hts⟩
    · have hlook := (Takes.look hs).toReads
      obtain ⟨ts, hne, hts⟩ := hno hlook.closed hrun
      exact ⟨ts, hne, hlook.trans hts⟩

/-- **A rule that is read** has taken a token. -/
theorem consumes_readRule (n : Nat) : ∀ rule, Consumes (readRule n rule) := by
  induction n with
  | zero =>
    intro rule node s s' _ hrun
    obtain ⟨m, -, hm, -⟩ := level_of_readRule hrun
    exact absurd hm.symm (Nat.succ_ne_zero m)
  | succ n ih =>
    intro rule node s s' hs hrun
    obtain ⟨m, s₁, hm, -, -, hbuild, rfl⟩ := level_of_readRule hrun
    obtain rfl := Nat.succ.inj hm
    obtain ⟨used, hne, hused⟩ :=
      (Taking.build rule).consumes (Built.readRule n) ih (hs.opened rule) hbuild
    exact ⟨used, hne, hused.rule⟩

/-! ## Loops without a bound -/

/-- A loop goes on behind the items `before`, newest first, for a number of turns and up to its
outcome: `more` answers no, or fails, or an item fails. -/
inductive Unrolls (more : Parser Bool) (item : List α → Parser α) :
    List α → State → Nat → EStateM.Result Fault State (List α) → Prop
  | stop {before : List α} {s s' : State} (hm : more s = .ok false s') :
      Unrolls more item before s 0 (.ok before.reverse s')
  | unanswered {before : List α} {f : Fault} {s s' : State} (hm : more s = .error f s') :
      Unrolls more item before s 0 (.error f s')
  | refused {before : List α} {f : Fault} {s s₁ s' : State} (hm : more s = .ok true s₁)
      (hi : item before s₁ = .error f s') : Unrolls more item before s 0 (.error f s')
  | turn {before : List α} {a : α} {s s₁ s₂ : State} {n : Nat}
      {r : EStateM.Result Fault State (List α)} (hm : more s = .ok true s₁)
      (hi : item before s₁ = .ok a s₂) (h : Unrolls more item (a :: before) s₂ n r) :
      Unrolls more item before s (n + 1) r

namespace Unrolls

variable {more : Parser Bool} {item : List α → Parser α} {before : List α} {s : State}

/-- **A loop whose items take tokens ends**, after no more turns than tokens. -/
theorem of_consumes (hm : Built more) (hi : ∀ before, Built (item before))
    (hc : ∀ before, Consumes (item before)) (hs : s.Closed) (before : List α) :
    ∃ n r used, Unrolls more item before s n r ∧ Reads s used (final r) ∧ n ≤ used.length := by
  induction hlength : s.tokens.length using Nat.strong_induction_on generalizing before s with
  | _ k ih =>
    obtain ⟨us, hus⟩ := hm.reads hs
    cases hmore : more s with
    | error f s₁ =>
      rw [hmore] at hus
      exact ⟨0, _, us, .unanswered hmore, hus, Nat.zero_le _⟩
    | ok answer s₁ =>
      rw [hmore] at hus
      cases answer with
      | false => exact ⟨0, _, us, .stop hmore, hus, Nat.zero_le _⟩
      | true =>
        have hus : Reads s us s₁ := hus
        obtain ⟨ts, hts⟩ := (hi before).reads hus.closed
        cases hitem : item before s₁ with
        | error f s₂ =>
          rw [hitem] at hts
          exact ⟨0, _, us ++ ts, .refused hmore hitem, hus.trans hts, Nat.zero_le _⟩
        | ok a s₂ =>
          obtain ⟨ts, hne, hts⟩ := hc before hus.closed hitem
          have hall := hus.trans hts
          have hpos := List.length_pos_iff.mpr hne
          have htokens := congrArg List.length hall.tokens
          rw [List.length_append, List.length_append, hlength] at htokens
          obtain ⟨n, r, vs, hrest, hvs, hn⟩ :=
            ih s₂.tokens.length (by omega) hall.closed (a :: before) rfl
          refine ⟨n + 1, r, us ++ ts ++ vs, .turn hmore hitem hrest, hall.trans hvs, ?_⟩
          rw [List.length_append, List.length_append]
          omega

/-- **A bound above the number of turns** shows in nothing. -/
theorem manyWithin_eq {n : Nat} {r : EStateM.Result Fault State (List α)}
    (h : Unrolls more item before s n r) :
    ∀ {m : Nat}, n < m → manyWithin more item m before s = r := by
  have hbound {n m : Nat} (hm : n < m) : ∃ k, m = k + 1 :=
    Nat.exists_eq_succ_of_ne_zero (Nat.ne_zero_of_lt hm)
  induction h with
  | stop hm =>
    intro m hlt
    obtain ⟨k, rfl⟩ := hbound hlt
    rw [manyWithin, bind_of_ok hm]
    rfl
  | unanswered hm =>
    intro m hlt
    obtain ⟨k, rfl⟩ := hbound hlt
    rw [manyWithin, bind_of_error hm]
  | refused hm hi =>
    intro m hlt
    obtain ⟨k, rfl⟩ := hbound hlt
    rw [manyWithin, bind_of_ok hm]
    exact bind_of_error hi
  | turn hm hi _ ih =>
    intro m hlt
    obtain ⟨k, rfl⟩ := hbound hlt
    rw [manyWithin, bind_of_ok hm]
    exact (bind_of_ok hi).trans (ih (Nat.lt_of_succ_lt_succ hlt))

end Unrolls

/-- A loop that begins with an item goes on behind it, or ends if it is refused. -/
inductive Unrolls1 (more : Parser Bool) (item : List α → Parser α) (s : State) :
    Nat → EStateM.Result Fault State (List α) → Prop
  | refused {f : Fault} {s' : State} (hi : item [] s = .error f s') :
      Unrolls1 more item s 0 (.error f s')
  | item {a : α} {s₁ : State} {n : Nat} {r : EStateM.Result Fault State (List α)}
      (hi : item [] s = .ok a s₁) (h : Unrolls more item [a] s₁ n r) :
      Unrolls1 more item s (n + 1) r

end RecordSchema.Parser
