import RecordSchema.Proofs.Grammar
import RecordSchema.Proofs.Reading

/-!
# Repeated readings

`many` and `many1` read items in a loop with a bound on the number of turns. `Turns` is the loop
without the bound: a run of it that ends because `more` answers no. As long as every turn takes a
token the bound is never reached.

Results:
* `Turns.trail`: the loop rule. Turns that keep an invariant read a trail of items.
* `turns_of_many`, `listed_of_many1`: a loop whose turns keep an invariant is a run of turns.
* `many_of_turns`, `many1_of_turns`: every run of turns is a run of the loop.
* `Accepts.many`, `Accepts.many1`: a loop that accepts each item of a list in turn reads the list.
-/

namespace RecordSchema.Parser

variable {α : Type} {more : Parser Bool} {item : List α → Parser α}

/-- Turns of a loop behind the items `before`, newest first: `more` answers yes and an item is
read, until it answers no. -/
inductive Turns (more : Parser Bool) (item : List α → Parser α) :
    List α → State → List α → State → Prop
  | stop {before : List α} {s s' : State} (hm : more s = .ok false s') :
      Turns more item before s [] s'
  | turn {before as : List α} {a : α} {s s₁ s₂ s' : State} (hm : more s = .ok true s₁)
      (hi : item before s₁ = .ok a s₂) (ht : Turns more item (a :: before) s₂ as s') :
      Turns more item before s (a :: as) s'

/-- A way to say what happens to a state while tokens are read that goes on from turn to turn. -/
structure Spans (R : State → List Token → State → Prop) : Prop where
  tokens : ∀ {s s' : State} {used : List Token}, R s used s' → s.tokens = used ++ s'.tokens
  trans : ∀ {s s₁ s₂ : State} {us ts : List Token}, R s us s₁ → R s₁ ts s₂ → R s (us ++ ts) s₂

theorem Reads.spans : Spans Reads := ⟨fun h => h.tokens, fun h h' => h.trans h'⟩

theorem Passes.spans : Spans Passes := ⟨fun h => h.tokens, fun h h' => h.trans h'⟩

theorem Takes.spans : Spans Takes := ⟨fun h => h.tokens, fun h h' => h.trans h'⟩

/-- What is left of the tokens is known by what they began with. -/
theorem Spans.tokens_of {R : State → List Token → State → Prop} (h : Spans R) {s s' : State}
    {us ts : List Token} (hr : R s us s') (ht : s.tokens = us ++ ts) : s'.tokens = ts :=
  List.append_cancel_left ((h.tokens hr).symm.trans ht)

/-- What the turns of a loop keep. The invariant is about the items so far, newest first, and the
state; every turn reads a separator and an item of at least one token, and stopping reads none. -/
structure Keeps (R : State → List Token → State → Prop) (more : Parser Bool)
    (item : List α → Parser α) (sep : List Token → Prop) (spelled : α → List Token → Prop)
    (Inv : List α → State → Prop) : Prop where
  spans : Spans R
  turn : ∀ {before : List α} {a : α} {s s₁ s₂ : State}, Inv before s → more s = .ok true s₁ →
    item before s₁ = .ok a s₂ → Inv (a :: before) s₂ ∧
      ∃ js us, sep js ∧ spelled a us ∧ us ≠ [] ∧ R s (js ++ us) s₂
  stop : ∀ {before : List α} {s s' : State}, Inv before s → more s = .ok false s' → R s [] s'

variable {R : State → List Token → State → Prop} {sep : List Token → Prop}
  {spelled : α → List Token → Prop} {Inv : List α → State → Prop}

/-- **What a run of turns reads** is a trail of items, and the invariant holds where `more` answers
no. -/
theorem Turns.trail (hk : Keeps R more item sep spelled Inv) {before as : List α} {s s' : State}
    (h : Turns more item before s as s') (hs : Inv before s) :
    ∃ ts s₂, Trail sep spelled as ts ∧ R s ts s' ∧ Inv (as.reverse ++ before) s₂ ∧
      more s₂ = .ok false s' := by
  induction h with
  | stop hm => exact ⟨[], _, .nil, hk.stop hs hm, hs, hm⟩
  | turn hm hi _ ih =>
    obtain ⟨hs₂, js, us, hj, ha, -, hp⟩ := hk.turn hs hm hi
    obtain ⟨ts, s₃, htrail, hp', hend, hmore⟩ := ih hs₂
    exact ⟨js ++ us ++ ts, s₃, .cons hj ha htrail, hk.spans.trans hp hp', by simpa using hend,
      hmore⟩

/-! ## From the loop to its turns -/

theorem turns_of_manyWithin (hk : Keeps R more item sep spelled Inv) :
    ∀ {n : Nat} {before all : List α} {s s' : State}, Inv before s → s.tokens.length < n →
      manyWithin more item n before s = .ok all s' →
      ∃ as, all = before.reverse ++ as ∧ Turns more item before s as s'
  | 0, _, _, _, _, _, hn, _ => absurd hn (Nat.not_lt_zero _)
  | n + 1, before, all, s, s', hs, hn, h => by
    rw [manyWithin, bind_ok] at h
    obtain ⟨answer, s₁, hm, h⟩ := h
    cases answer with
    | false =>
      obtain ⟨rfl, rfl⟩ := pure_ok.mp h
      exact ⟨[], (List.append_nil _).symm, .stop hm⟩
    | true =>
      obtain ⟨a, s₂, hi, h⟩ := bind_ok.mp h
      obtain ⟨hs₂, js, us, -, -, hus, hp⟩ := hk.turn hs hm hi
      have hpos := List.length_pos_of_ne_nil hus
      have hlen := congrArg List.length (hk.spans.tokens hp)
      simp only [List.length_append] at hlen
      obtain ⟨as, rfl, ht⟩ := turns_of_manyWithin hk hs₂ (by omega) h
      exact ⟨a :: as, by simp, .turn hm hi ht⟩

@[simp] theorem tokensLeft_ok {n : Nat} {s s' : State} :
    tokensLeft s = .ok n s' ↔ n = s.tokens.length + 1 ∧ s' = s := by
  have hlen : s.lexemes.later.length = s.tokens.length := (Lexemes.length_tokens s.lexemes).symm
  simp [tokensLeft, hlen, eq_comm]

/-- **A loop whose turns keep an invariant** ends with a run of turns. -/
theorem turns_of_many (hk : Keeps R more item sep spelled Inv) {all : List α} {s s' : State}
    (hs : Inv [] s) (h : many more item s = .ok all s') : Turns more item [] s all s' := by
  rw [many, bind_ok] at h
  obtain ⟨_, _, hl, h⟩ := h
  obtain ⟨rfl, rfl⟩ := tokensLeft_ok.mp hl
  obtain ⟨as, rfl, ht⟩ := turns_of_manyWithin hk hs (Nat.lt_succ_self _) h
  exact ht

/-- **A loop that begins with an item** reads a list, and the invariant holds where `more` answers
no. -/
theorem listed_of_many1 (hk : Keeps R more item sep spelled Inv) {all : List α} {s s' : State}
    (hfirst : ∀ {a s₁}, item [] s = .ok a s₁ → Inv [a] s₁ ∧ ∃ us, spelled a us ∧ R s us s₁)
    (h : many1 more item s = .ok all s') :
    ∃ ts s₂, Listed sep spelled all ts ∧ R s ts s' ∧ Inv all.reverse s₂ ∧
      more s₂ = .ok false s' := by
  rw [many1, bind_ok] at h
  obtain ⟨a, s₁, ha, h⟩ := h
  obtain ⟨_, _, hl, h⟩ := bind_ok.mp h
  obtain ⟨rfl, rfl⟩ := tokensLeft_ok.mp hl
  obtain ⟨hs₁, us, hus, hp⟩ := hfirst ha
  obtain ⟨as, rfl, ht⟩ := turns_of_manyWithin hk hs₁ (Nat.lt_succ_self _) h
  obtain ⟨ts, s₂, htrail, hp', hend, hmore⟩ := ht.trail hk hs₁
  exact ⟨us ++ ts, s₂, .mk hus htrail, hk.spans.trans hp hp', by simpa using hend, hmore⟩

/-! ## From turns to the loop -/

theorem manyWithin_of_turns {before as : List α} {s s' : State}
    (h : Turns more item before s as s') :
    ∀ {n : Nat}, as.length < n →
      manyWithin more item n before s = .ok (before.reverse ++ as) s' := by
  induction h with
  | stop hm =>
    intro n hn
    obtain ⟨n, rfl⟩ := Nat.exists_eq_succ_of_ne_zero (Nat.ne_of_gt hn)
    rw [manyWithin]
    exact bind_ok.mpr ⟨false, _, hm, by simp⟩
  | @turn before as a s s₁ s₂ s' hm hi _ ih =>
    intro n hn
    obtain ⟨n, rfl⟩ := Nat.exists_eq_succ_of_ne_zero (Nat.ne_of_gt (Nat.zero_lt_of_lt hn))
    rw [manyWithin]
    refine bind_ok.mpr ⟨true, _, hm, bind_ok.mpr ⟨a, _, hi, ?_⟩⟩
    have hlen : as.length < n := by simpa using hn
    simpa using ih hlen

/-- A run of turns that takes a token for each is a run of the loop. -/
theorem many_of_turns {all : List α} {s s' : State} (h : Turns more item [] s all s')
    (hlen : all.length ≤ s.tokens.length) : many more item s = .ok all s' := by
  rw [many]
  refine bind_ok.mpr ⟨_, _, tokensLeft_ok.mpr ⟨rfl, rfl⟩, ?_⟩
  exact manyWithin_of_turns h (Nat.lt_succ_of_le hlen)

/-- An item and a run of turns that takes a token for each are a run of the loop. -/
theorem many1_of_turns {a : α} {as : List α} {s s₁ s' : State} (ha : item [] s = .ok a s₁)
    (h : Turns more item [a] s₁ as s') (hlen : as.length ≤ s₁.tokens.length) :
    many1 more item s = .ok (a :: as) s' := by
  rw [many1]
  refine bind_ok.mpr ⟨a, s₁, ha, bind_ok.mpr ⟨_, _, tokensLeft_ok.mpr ⟨rfl, rfl⟩, ?_⟩⟩
  exact manyWithin_of_turns h (Nat.lt_succ_of_le hlen)

/-! ## From a list to the loop -/

/-- What makes a loop read any list of items in front of the tokens `rest`. The invariant is about
the items read so far, newest first, those still to read, and the state. An item is read where
something that can follow it does. -/
structure Accepts (R : State → List Token → State → Prop) (more : Parser Bool)
    (item : List α → Parser α) (sep : List Token → Prop) (spelled : α → List Token → Prop)
    (follow : List Token → Prop) (rest : List Token) (Inv : List α → List α → State → Prop) :
    Prop where
  spans : Spans R
  ne_nil : ∀ {a : α} {us : List Token}, spelled a us → us ≠ []
  next : ∀ {a : α} {js us ts : List Token}, sep js → spelled a us → follow (js ++ us ++ ts)
  last : follow rest
  reads : ∀ {before ahead : List α} {a : α} {us ts : List Token} {s : State},
    Inv before (a :: ahead) s → spelled a us → follow ts → s.tokens = us ++ ts →
    ∃ s', item before s = .ok a s' ∧ R s us s' ∧ Inv (a :: before) ahead s'
  goesOn : ∀ {before ahead : List α} {a : α} {js us ts : List Token} {s : State},
    Inv before (a :: ahead) s → sep js → spelled a us → s.tokens = js ++ us ++ ts →
    ∃ s', more s = .ok true s' ∧ R s js s' ∧ Inv before (a :: ahead) s'
  stops : ∀ {before : List α} {s : State}, Inv before [] s → s.tokens = rest →
    ∃ s', more s = .ok false s' ∧ R s [] s' ∧ Inv before [] s'

namespace Accepts

variable {follow : List Token → Prop} {rest : List Token} {Inv : List α → List α → State → Prop}

theorem follow_trail (h : Accepts R more item sep spelled follow rest Inv) {as : List α}
    {ts : List Token} (ht : Trail sep spelled as ts) : follow (ts ++ rest) := by
  cases ht with
  | nil => exact h.last
  | cons hj hi _ =>
    rw [List.append_assoc]
    exact h.next hj hi

/-- **A loop accepts a trail** in turns, one for each item. -/
theorem turns (h : Accepts R more item sep spelled follow rest Inv) {as : List α}
    {ts : List Token} (ht : Trail sep spelled as ts) :
    ∀ {before : List α} {s : State}, Inv before as s → s.tokens = ts ++ rest →
      ∃ s', Turns more item before s as s' ∧ R s ts s' ∧ Inv (as.reverse ++ before) [] s' := by
  induction ht with
  | nil =>
    intro before s hs htokens
    obtain ⟨s', hm, hr, hs'⟩ := h.stops hs htokens
    exact ⟨s', .stop hm, hr, hs'⟩
  | @cons a as js us ts hj hi ht ih =>
    intro before s hs htokens
    rw [List.append_assoc] at htokens
    obtain ⟨s₁, hm, hr₁, hs₁⟩ := h.goesOn hs hj hi htokens
    rw [List.append_assoc] at htokens
    have htokens₁ := h.spans.tokens_of hr₁ htokens
    obtain ⟨s₂, ha, hr₂, hs₂⟩ := h.reads hs₁ hi (h.follow_trail ht) htokens₁
    obtain ⟨s', hturns, hr₃, hs'⟩ := ih hs₂ (h.spans.tokens_of hr₂ htokens₁)
    exact ⟨s', .turn hm ha hturns, h.spans.trans (h.spans.trans hr₁ hr₂) hr₃, by simpa using hs'⟩

/-- **A loop reads a trail** that it accepts. -/
theorem many (h : Accepts R more item sep spelled follow rest Inv) {as : List α}
    {ts : List Token} (ht : Trail sep spelled as ts) {s : State} (hs : Inv [] as s)
    (htokens : s.tokens = ts ++ rest) :
    ∃ s', Parser.many more item s = .ok as s' ∧ R s ts s' ∧ Inv as.reverse [] s' := by
  obtain ⟨s', hturns, hr, hs'⟩ := h.turns ht hs htokens
  refine ⟨s', many_of_turns hturns ?_, hr, by simpa using hs'⟩
  have hlen := ht.length_le fun _ _ => h.ne_nil
  rw [htokens, List.length_append]
  omega

/-- **A loop reads a list** that it accepts. -/
theorem many1 (h : Accepts R more item sep spelled follow rest Inv) {as : List α}
    {ts : List Token} (ht : Listed sep spelled as ts) {s : State} (hs : Inv [] as s)
    (htokens : s.tokens = ts ++ rest) :
    ∃ s', Parser.many1 more item s = .ok as s' ∧ R s ts s' ∧ Inv as.reverse [] s' := by
  cases ht with
  | mk hi ht =>
    rw [List.append_assoc] at htokens
    obtain ⟨s₁, ha, hr₁, hs₁⟩ := h.reads hs hi (h.follow_trail ht) htokens
    have htokens₁ := h.spans.tokens_of hr₁ htokens
    obtain ⟨s', hturns, hr₂, hs'⟩ := h.turns ht hs₁ htokens₁
    refine ⟨s', many1_of_turns ha hturns ?_, h.spans.trans hr₁ hr₂, by simpa using hs'⟩
    have hlen := ht.length_le fun _ _ => h.ne_nil
    rw [htokens₁, List.length_append]
    omega

end Accepts

end RecordSchema.Parser
