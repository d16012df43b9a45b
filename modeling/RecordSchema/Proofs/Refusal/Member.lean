import RecordSchema.Proofs.Refusal.Basic

/-!
# Why a member is refused

Whatever is read inside a member of a declaration leaves the names and types as they are. A `Slip`
is a reason to refuse some of it, one kind for each rule, and it is told by the tokens from the
first of that rule on. Those of an operand and of the type of a reference are about a name; what a
condition can be refused for are the slips of its operands, and for these `Judged` is closed under
sequence, choice and repetition, so that the rules for conditions need no argument of their own.

Results:
* `operand_refused`, `Judged.condition`: operands and conditions.
* `values_refused`, `reference_refused`: lists of values and references.
-/

namespace RecordSchema.Parser

open State Refused

/-! ## Reasons -/

/-- An operand is malformed, or its name is not known. -/
inductive OperandSlip (names : List String) : List Token → Cause → Prop
  | malformed {ts : List Token} {c : Cause} (h : Malformed ts c) : OperandSlip names ts c
  | name {t : Token} {ts : List Token} (ht : t.kind = .identifier) (hnew : t.text ∉ names) :
      OperandSlip names (t :: ts) (.undeclaredName t.text t.offset)

/-- A list of values is malformed, or a value behind some others has a slip. -/
inductive ValuesSlip (names : List String) : List Token → Cause → Prop
  | malformed {ts : List Token} {c : Cause} (h : Ahead Malformed ts c) : ValuesSlip names ts c
  | value {o : Token} {vs : List Operand} {us ts : List Token} {c : Cause}
      (ho : o.kind = .leftSquare) (hv : Begun (perhaps .comma) Operand.SpelledBy vs us)
      (h : OperandSlip names ts c) : ValuesSlip names (o :: (us ++ ts)) c

/-- A reference is malformed, to a type that is not declared, or to one with other values than it
has parameters. -/
inductive ReferenceSlip (before : List Declaration) (names : List String) :
    List Token → Cause → Prop
  | malformed {ts : List Token} {c : Cause} (h : Ahead Malformed ts c) :
      ReferenceSlip before names ts c
  | type {t : Token} {ts : List Token} (ht : t.kind = .identifier)
      (hnew : t.text ∉ before.map (·.name.text)) :
      ReferenceSlip before names (t :: ts) (.undeclaredType t.text t.offset)
  | values {x : Name} {count : Nat} {us ts : List Token} {c : Cause}
      (hx : NamesType before x count us) (h : ValuesSlip names ts c) :
      ReferenceSlip before names (us ++ ts) c
  | count {x : Name} {count : Nat} {vs : List Operand} {us ws ts : List Token}
      (hx : NamesType before x count us) (hv : Bracketed Operand.SpelledBy vs ws)
      (hcount : count ≠ vs.length) :
      ReferenceSlip before names (us ++ (ws ++ ts)) (.valueCount x.text count vs.length x.offset)

variable {α β : Type} {n : Nat} {names : List String} {before : List Declaration}
  {s s' : State} {f : Fault}

/-! ## Operands -/

theorem operand_refused (hn : s.scope.Holds names)
    (h : descend (readRule n) .operand s = .error f s') : Refused (OperandSlip names) s f := by
  have hmalformed {s : State} (h : Refused Malformed s f) : Refused (OperandSlip names) s f :=
    h.mono fun _ _ => .malformed
  rcases descend_refused h with h | ⟨m, s₁, -, h⟩
  · exact hmalformed h
  · suffices hopened : Refused (OperandSlip names) (s.opened .operand) f from hopened.of_opened
    rcases bind_error.mp h with h | ⟨t, s₂, ht, h⟩
    · exact hmalformed (take_error h)
    · obtain ⟨hk, rfl, rfl⟩ := take_ok.mp ht
      split at h
      · rename_i hid
        obtain ⟨hfind, rfl⟩ := resolveName_error (bind_pure_error.mp h)
        exact here fun _ => .name hid (hn.find?_eq_none.mp hfind)
      · rename_i hid
        have hnumber : (s.opened .operand).current.kind = .number := by
          simpa [Rule.operandStart, hid] using hk
        dsimp only at h
        split at h
        · exact absurd (pure_error.mp h) id
        · rename_i hlarge
          obtain ⟨rfl, -⟩ := fail_error.mp h
          exact hmalformed (here fun _ => .number hnumber (Nat.le_of_not_lt hlarge))

/-! ## Conditions -/

/-- With the names of the scope, a parser takes tokens or refuses an operand. -/
structure Judged (names : List String) (x : Parser α) : Prop where
  takes : ∀ {s s' : State} {a : α}, s.Closed → s.scope.Holds names → x s = .ok a s' →
    ∃ us, Takes s us s'
  refuses : ∀ {s s' : State} {f : Fault}, s.Closed → s.scope.Holds names →
    x s = .error f s' → Refused (Ahead (OperandSlip names)) s f

namespace Judged

theorem pure (a : α) : Judged names (pure a) where
  takes hs _ h := by
    obtain ⟨-, rfl⟩ := pure_ok.mp h
    exact ⟨[], .rfl hs⟩
  refuses _ _ h := absurd (pure_error.mp h) id

theorem bind {x : Parser α} {g : α → Parser β} (hx : Judged names x)
    (hg : ∀ a, Judged names (g a)) : Judged names (x >>= g) where
  takes hs hn h := by
    obtain ⟨a, s₁, ha, hb⟩ := bind_ok.mp h
    obtain ⟨us, hus⟩ := hx.takes hs hn ha
    obtain ⟨ts, hts⟩ := (hg a).takes hus.closed (by rwa [hus.scope]) hb
    exact ⟨us ++ ts, hus.trans hts⟩
  refuses hs hn h := by
    rcases bind_error.mp h with h | ⟨a, s₁, ha, hb⟩
    · exact hx.refuses hs hn h
    · obtain ⟨us, hus⟩ := hx.takes hs hn ha
      exact ((hg a).refuses hus.closed (by rwa [hus.scope]) hb).of_reads hus.toReads

theorem ite {c : Prop} [Decidable c] {x y : Parser α} (hx : Judged names x)
    (hy : Judged names y) : Judged names (if c then x else y) := by
  split
  · exact hx
  · exact hy

theorem take {kinds : List TokenKind} (hend : TokenKind.endOfInput ∉ kinds) :
    Judged names (take kinds) where
  takes hs _ h := ⟨_, (take_sound hs hend h).2⟩
  refuses _ _ h := ((take_error h).mono fun _ _ => .malformed).ahead

theorem accept {kind : TokenKind} (hend : kind ≠ .endOfInput) :
    Judged names (accept kind) where
  takes {s s' answer} hs _ h := by
    cases answer with
    | true =>
      obtain ⟨t, -, htakes⟩ := accept_sound hs hend h
      exact ⟨[t], htakes⟩
    | false => exact ⟨[], (accept_sound_false hs h).1⟩
  refuses _ _ h := absurd (accept_error.mp h) id

theorem tokensLeft : Judged names tokensLeft where
  takes hs _ h := by
    obtain ⟨-, rfl⟩ := tokensLeft_ok.mp h
    exact ⟨[], .rfl hs⟩
  refuses _ _ h := absurd (tokensLeft_error.mp h) id

theorem manyWithin {more : Parser Bool} {item : Parser α} (hm : Judged names more)
    (hi : Judged names item) :
    ∀ (n : Nat) (as : List α), Judged names (manyWithin more (fun _ => item) n as)
  | 0, _ => pure _
  | n + 1, as => hm.bind fun _ => .ite (hi.bind fun a => manyWithin hm hi n (a :: as)) (pure _)

theorem many1 {more : Parser Bool} {item : Parser α} (hm : Judged names more)
    (hi : Judged names item) : Judged names (many1 more fun _ => item) :=
  hi.bind fun _ => tokensLeft.bind fun _ => manyWithin hm hi _ _

/-- A rule is judged if the function for it is, with a level less. -/
theorem rule {rule : Rule} (h : ∀ m < n, Judged names (reader (readRule m) rule)) :
    Judged names (descend (readRule n) rule) where
  takes hs hn hrun := by
    obtain ⟨m, s₁, rfl, hread, rfl⟩ := level_of_descend hrun
    obtain ⟨us, hus⟩ := (h m (Nat.lt_succ_self m)).takes (hs.opened rule) hn hread
    exact ⟨us, hus.rule⟩
  refuses hs hn hrun := by
    rcases descend_refused hrun with hmalformed | ⟨m, s₁, rfl, hread⟩
    · exact (hmalformed.mono fun _ _ => .malformed).ahead
    · exact ((h m (Nat.lt_succ_self m)).refuses (hs.opened rule) hn hread).of_opened

theorem operand (n : Nat) : Judged names (descend (readRule n) .operand) where
  takes hs hn h := by
    obtain ⟨us, hus, -⟩ := operand_sound hs hn h
    exact ⟨us, hus⟩
  refuses _ hn h := (operand_refused hn h).ahead

theorem comparison (n : Nat) : Judged names (descend (readRule n) .comparison) :=
  rule fun m _ => (operand m).bind fun _ => (take (by decide)).bind fun _ =>
    (operand m).bind fun _ => pure _

/-- A disjunction is inside its own terms, with fewer levels. -/
theorem disjunction (n : Nat) : Judged names (descend (readRule n) .disjunction) := by
  induction n using Nat.strongRecOn with
  | ind n ih =>
    have hterm : ∀ m < n, Judged names (descend (readRule m) .term) := fun m hm =>
      rule fun k hk => (accept (by decide)).bind fun _ =>
        .ite ((ih k (Nat.lt_trans hk hm)).bind fun _ => (take (by decide)).bind fun _ => pure _)
          (comparison k)
    have hconjunction : ∀ m < n, Judged names (descend (readRule m) .conjunction) :=
      fun m hm => rule fun k hk => many1 (accept (by decide)) (hterm k (Nat.lt_trans hk hm))
    exact rule fun m hm => many1 (accept (by decide)) (hconjunction m hm)

/-- **A condition is refused for one of its operands.** -/
theorem condition (n : Nat) : Judged names (descend (readRule n) .condition) :=
  rule fun m _ => (accept (by decide)).bind fun _ =>
    .ite (pure _) ((disjunction m).bind fun _ => pure _)

end Judged

/-! ## Built-in types -/

/-- A built-in type is only refused for a token that is malformed. -/
theorem simpleType_refused (hs : s.Closed) (h : descend (readRule n) .simpleType s = .error f s') :
    Refused (Ahead Malformed) s f := by
  refine rule_refused (fun _ _ h => h) h fun m s₁ _ h => ?_
  rcases bind_take_error (hs.opened _) (by decide) h with h | ⟨k, s₂, -, hks, h⟩
  · exact h.ahead
  · refine of_reads ?_ hks.toReads
    have h := bind_look_error.mp h
    split at h
    · rename_i hwide
      have hwidth := (bind_error_of_ok (advance_ok (u := ()).mpr rfl)).mp h
      obtain ⟨hbounds, rfl⟩ := widthOf_error (bind_pure_error.mp hwidth)
      exact ahead (here fun _ => .width hwide.2.1 hbounds)
    · exact absurd (pure_error.mp h) id

/-! ## References -/

/-- The turns of the loop over the values. -/
theorem keeps_values (n : Nat) (names : List String) :
    Keeps Takes moreValues (fun _ => descend (readRule n) .operand) (perhaps .comma)
      Operand.SpelledBy fun _ s => s.Closed ∧ s.scope.Holds names := by
  refine ⟨Takes.spans, ?_, fun hinv hm => (moreValues_sound_false hinv.1 hm).1⟩
  rintro _ v s s₁ s₂ ⟨hclosed, hn⟩ hm hv
  obtain ⟨js, hj, hjs⟩ := moreValues_sound hclosed hm
  have hscope : s₁.scope.Holds names := by rwa [hjs.scope]
  obtain ⟨us, hus, hspell, -⟩ := operand_sound hjs.closed hscope hv
  exact ⟨⟨hus.closed, by rwa [hus.scope]⟩, js, us, hj, hspell, hspell.begins.ne_nil,
    hjs.trans hus⟩

theorem moreValues_error : ¬ moreValues s = .error f s' := by
  intro h
  rcases bind_error.mp h with h | ⟨answer, s₁, -, h⟩
  · exact accept_error.mp h
  · cases answer with
    | true => exact pure_error.mp h
    | false => exact canStart_error.mp h

theorem values_refused (hs : s.Closed) (hn : s.scope.Holds names)
    (h : descend (readRule n) .values s = .error f s') : Refused (ValuesSlip names) s f := by
  refine rule_refused (fun _ _ => .malformed) h fun m s₁ _ h => ?_
  rcases bind_take_error (hs.opened _) (by decide) h with h | ⟨o, s₂, hopen, hos, h⟩
  · exact h.ahead.mono fun _ _ => .malformed
  · have hscope : s₂.scope.Holds names := by rwa [hos.scope]
    have hstarts {v s₃} (hv : descend (readRule m) .operand s₂ = .ok v s₃) :
        (s₃.Closed ∧ s₃.scope.Holds names) ∧ ∃ us, Operand.SpelledBy v us ∧ Takes s₂ us s₃ := by
      obtain ⟨us, hus, hspell, -⟩ := operand_sound hos.closed hscope hv
      exact ⟨⟨hus.closed, by rwa [hus.scope]⟩, us, hspell, hus⟩
    rcases bind_error.mp h with h | ⟨vs, s₃, hvs, h⟩
    · rcases (keeps_values m names).error_of_many1 hstarts h with
        h | ⟨as, ts, s₃, hlist, hts, ⟨hclosed, hscope⟩, ⟨_, h⟩ | ⟨s₄, s₅, hm, h⟩⟩
      · exact (operand_refused hscope h).behind hos.toReads
          fun _ _ => .value (List.mem_singleton.mp hopen) .nil
      · exact absurd h moreValues_error
      · obtain ⟨js, hj, hjs⟩ := moreValues_sound hclosed hm
        have hscope : s₄.scope.Holds names := by rwa [hjs.scope]
        refine (operand_refused hscope h).behind
          ((hos.toReads.trans hts.toReads).trans hjs.toReads) fun us c h => ?_
        simpa using ValuesSlip.value (List.mem_singleton.mp hopen) (.more hlist hj) h
    · obtain ⟨ts, s₄, -, hts, -, -⟩ := listed_of_many1 (keeps_values m names) hstarts hvs
      have hclose := take_error (bind_pure_error.mp h)
      exact (hclose.ahead.of_reads (hos.toReads.trans hts.toReads)).mono fun _ _ => .malformed

theorem target_refused (hs : s.Closed) (htypes : s.types = TypeTable.of before)
    (h : Parser.target (readRule n) s = .error f s') :
    Refused (ReferenceSlip before names) s f := by
  obtain ⟨answer, h⟩ := bind_canStart_error h
  refine of_passComments ?_
  cases answer with
  | true =>
    have htype := bind_pure_error.mp (bind_look_error.mp h)
    have hrefused := simpleType_refused hs.passComments.passComments htype
    exact hrefused.of_passComments.mono fun _ _ => .malformed
  | false =>
    rcases bind_error.mp h with h | ⟨x, s₂, hx, h⟩
    · exact (name_error h).ahead.mono fun _ _ => .malformed
    · obtain ⟨hid, rfl, rfl⟩ := name_ok.mp hx
      obtain ⟨hfind, rfl⟩ := resolveType_error (bind_pure_error.mp h)
      have hnew : s.current.text ∉ before.map (·.name.text) := by
        refine TypeTable.find?_eq_none.mp ?_
        rw [← htypes]
        exact hfind
      exact here fun _ => .type hid hnew

/-- **Why a reference is refused.** Values are counted behind the type they are for, so both are
read before a list is refused. -/
theorem reference_refused (hs : s.Closed) (hn : s.scope.Holds names)
    (htypes : s.types = TypeTable.of before)
    (h : descend (readRule n) .reference s = .error f s') :
    Refused (ReferenceSlip before names) s f := by
  refine rule_refused (fun _ _ => .malformed) h fun m s₁ _ h => ?_
  rcases bind_error.mp h with h | ⟨⟨x, target, count⟩, s₂, ht, h⟩
  · exact target_refused (hs.opened _) htypes h
  · obtain ⟨us, hus, hnames, -⟩ := target_sound names (hs.opened _) htypes ht
    obtain ⟨answer, h⟩ := bind_canStart_error h
    have hlook : Takes (s.opened .reference) us s₂.passComments := by
      simpa using hus.trans (.look hus.closed)
    have hscope : s₂.passComments.scope.Holds names := by rwa [hlook.scope]
    cases answer with
    | false => exact absurd (pure_error.mp h) id
    | true =>
      rcases bind_error.mp h with h | ⟨vs, s₄, hvs, h⟩
      · exact (values_refused hlook.closed hscope h).behind hlook.toReads fun _ _ => .values hnames
      · obtain ⟨ws, hws, hv, -⟩ := values_sound hlook.closed hscope hvs
        split at h
        · exact absurd (pure_error.mp h) id
        · rename_i hcount
          obtain ⟨rfl, -⟩ := fail_error.mp h
          refine of_stream (hlook.trans hws).toReads ?_
          rw [List.append_assoc]
          exact .count hnames hv (Ne.symm hcount)

end RecordSchema.Parser
