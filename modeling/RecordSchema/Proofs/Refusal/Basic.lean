import RecordSchema.Proofs.Placement
import RecordSchema.Proofs.Soundness.Declaration

/-!
# Refused readings

A run of a parser that ends in a fault decomposes at the part that failed: for each operation `op`,
the lemma `op_error` says which fault `op s` can end in. A fault is of the source that is read, and
its cause is about tokens ahead of the state the run began in. `Refused P s f` says so, with a
reason `P` that relates the cause to the tokens from some point on. The reasons that every rule has
are `Malformed`: they are about a single token.

Results:
* `bind_error`, `bind_take_error`: of two parts one failed.
* `rule_refused`: a rule is refused for its first token, or by the function for it.
* `error_of_manyWithin`, `Keeps.error_of_many1`: a loop fails in one of its turns.
-/

namespace RecordSchema.Parser

variable {α β : Type}

/-! ## Tokens ahead -/

namespace State

/-- The tokens ahead, and the end of input behind them. -/
def stream (s : State) : List Token := s.lexemes.stream

/-- The stream begins with the current token. -/
theorem stream_eq_cons (s : State) : ∃ ts, s.stream = s.current :: ts := ⟨_, rfl⟩

theorem stream_eq (s : State) : s.stream = s.tokens ++ [s.lexemes.last] := s.lexemes.stream_eq

@[simp] theorem stream_passComments (s : State) : s.passComments.stream = s.stream := by
  rw [stream_eq, stream_eq, tokens_passComments, last_passComments]

/-- The fault of the current token being none of the kinds. -/
def unexpected (s : State) (kinds : List TokenKind) : Fault :=
  ⟨s.source, .unexpectedToken kinds s.current.kind s.current.offset s.current.length⟩

/-- The fault of the current token opening a rule too many. -/
def tooDeep (s : State) : Fault := ⟨s.source, .nestedTooDeep s.current.offset⟩

end State

open State

/-- What a reading took is the front of the stream. -/
theorem Reads.stream {s s' : State} {used : List Token} (h : Reads s used s') :
    s.stream = used ++ s'.stream := by
  rw [stream_eq, stream_eq, h.tokens, h.last, List.append_assoc]

/-- A reason to refuse a rule that is about the first of the tokens ahead alone: it is none of the
kinds that can stand there, a number or width that does not fit, or begins a rule too many. -/
inductive Malformed : List Token → Cause → Prop
  | unexpected {kinds : List TokenKind} {t : Token} {ts : List Token} (ht : t.kind ∉ kinds) :
      Malformed (t :: ts) (.unexpectedToken kinds t.kind t.offset t.length)
  | number {t : Token} {ts : List Token} (ht : t.kind = .number)
      (hlarge : integerLimit ≤ Text.decimalValue t.text.toList) :
      Malformed (t :: ts) (.invalidNumber t.text t.offset)
  | width {t : Token} {ts : List Token} (ht : t.kind = .width)
      (hbounds : ¬ (0 < Text.decimalValue (t.text.toList.drop 1) ∧
        Text.decimalValue (t.text.toList.drop 1) < widthLimit)) :
      Malformed (t :: ts) (.invalidNumber t.text t.offset)
  | nested {t : Token} {ts : List Token} (ht : t.kind ≠ .endOfInput) :
      Malformed (t :: ts) (.nestedTooDeep t.offset)

/-- A reason somewhere ahead. -/
def Ahead (P : List Token → Cause → Prop) (ts : List Token) (c : Cause) : Prop :=
  ∃ us vs, ts = us ++ vs ∧ P vs c

/-- A fault of the source that is read, for a reason in the tokens ahead. -/
def Refused (P : List Token → Cause → Prop) (s : State) (f : Fault) : Prop :=
  ∃ c, f = ⟨s.source, c⟩ ∧ P s.stream c

namespace Refused

variable {P Q : List Token → Cause → Prop} {s s' : State} {f : Fault}

theorem mono (h : Refused P s f) (hpq : ∀ ts c, P ts c → Q ts c) : Refused Q s f := by
  obtain ⟨c, hf, hp⟩ := h
  exact ⟨c, hf, hpq _ c hp⟩

theorem ahead (h : Refused P s f) : Refused (Ahead P) s f :=
  h.mono fun ts _ hp => ⟨[], ts, rfl, hp⟩

/-- A reason behind some tokens makes one with these in front. -/
theorem behind {used : List Token} (h : Refused P s' f) (hr : Reads s used s')
    (hpq : ∀ ts c, P ts c → Q (used ++ ts) c) : Refused Q s f := by
  obtain ⟨c, rfl, hp⟩ := h
  exact ⟨c, by rw [hr.source], hr.stream ▸ hpq _ c hp⟩

theorem of_reads {used : List Token} (h : Refused (Ahead P) s' f) (hr : Reads s used s') :
    Refused (Ahead P) s f := by
  refine h.behind hr fun ts c hp => ?_
  obtain ⟨us, vs, rfl, hp⟩ := hp
  exact ⟨used ++ us, vs, (List.append_assoc ..).symm, hp⟩

theorem of_passComments (h : Refused P s.passComments f) : Refused P s f := by
  obtain ⟨c, hf, hp⟩ := h
  exact ⟨c, hf, stream_passComments s ▸ hp⟩

theorem of_opened {rule : Rule} (h : Refused P (s.opened rule) f) : Refused P s f :=
  of_passComments h

/-- The reason is what was read and what follows. -/
theorem of_stream {used : List Token} {c : Cause} (hr : Reads s used s')
    (h : P (used ++ s'.stream) c) : Refused P s ⟨s'.source, c⟩ :=
  ⟨c, by rw [hr.source], hr.stream ▸ h⟩

/-- The reason is at the current token. -/
theorem here {c : Cause} (h : ∀ ts, P (s.current :: ts) c) : Refused P s ⟨s.source, c⟩ := by
  obtain ⟨ts, hts⟩ := s.stream_eq_cons
  exact ⟨c, rfl, hts ▸ h ts⟩

theorem unexpected {kinds : List TokenKind} (h : s.current.kind ∉ kinds) :
    Refused Malformed s (s.unexpected kinds) :=
  here fun _ => .unexpected h

/-- No rule begins with the end of input. -/
theorem tooDeep {rule : Rule} (h : rule.canStart s.current.kind = true) :
    Refused Malformed s s.tooDeep := by
  refine here fun _ => .nested fun he => ?_
  rw [he] at h
  cases rule <;> exact absurd h (by decide)

end Refused

/-! ## Runs of parsers -/

variable {s s' : State} {f : Fault}

@[simp] theorem pure_error {a : α} : (pure a : Parser α) s = .error f s' ↔ False := by
  show EStateM.Result.ok a s = .error f s' ↔ _
  simp

/-- A part that succeeds leaves the fault to the other one. -/
theorem bind_error_of_ok {x : Parser α} {g : α → Parser β} {a : α} {s₁ : State}
    (hx : x s = .ok a s₁) : (x >>= g) s = .error f s' ↔ g a s₁ = .error f s' := by
  rw [bind_error, hx]
  simp

/-- Giving a result does not fail. -/
theorem bind_pure_error {x : Parser α} {g : α → β} :
    (x >>= fun a => pure (g a)) s = .error f s' ↔ x s = .error f s' := by
  simp only [bind_error, pure_error, and_false, exists_false, or_false]

@[simp] theorem fail_error {cause : Cause} :
    (fail cause : Parser α) s = .error f s' ↔ f = ⟨s.source, cause⟩ ∧ s' = s := by
  simp [fail, eq_comm]

@[simp] theorem look_error : look s = .error f s' ↔ False := by simp [look]

theorem bind_look_error {g : Token → Parser β} :
    (look >>= g) s = .error f s' ↔ g s.current s.passComments = .error f s' :=
  bind_error_of_ok (look_ok.mpr ⟨rfl, rfl⟩)

@[simp] theorem advance_error : Parser.advance s = .error f s' ↔ False := by
  simp [Parser.advance]

@[simp] theorem canStart_error {rule : Rule} : canStart rule s = .error f s' ↔ False := by
  unfold canStart
  simp only [bind_error, look_error, pure_error, and_false, exists_false, or_self]

theorem bind_canStart_error {rule : Rule} {g : Bool → Parser β}
    (h : (canStart rule >>= g) s = .error f s') :
    ∃ answer, g answer s.passComments = .error f s' :=
  ⟨_, (bind_error_of_ok (canStart_ok.mpr ⟨rfl, rfl⟩)).mp h⟩

@[simp] theorem accept_error {kind : TokenKind} : accept kind s = .error f s' ↔ False := by
  unfold accept
  rw [bind_look_error, iff_false]
  intro h
  split at h
  · simp only [bind_error, advance_error, pure_error, and_false, exists_false, or_self] at h
  · exact pure_error.mp h

@[simp] theorem unexpected_error {kinds : List TokenKind} :
    (unexpected kinds : Parser α) s = .error f s' ↔
      f = s.unexpected kinds ∧ s' = s.passComments := by
  rw [Parser.unexpected, bind_look_error, fail_error]
  rfl

@[simp] theorem tooDeep_error :
    (Parser.tooDeep : Parser α) s = .error f s' ↔ f = s.tooDeep ∧ s' = s.passComments := by
  rw [Parser.tooDeep, bind_look_error, fail_error]
  rfl

theorem expect_of_notMem {kinds : List TokenKind} (h : s.current.kind ∉ kinds) :
    expect kinds s = unexpected kinds s.passComments :=
  congrFun (if_neg h) s.passComments

theorem take_of_notMem {kinds : List TokenKind} (h : s.current.kind ∉ kinds) :
    take kinds s = .error (s.unexpected kinds) s.passComments :=
  bind_of_error (expect_of_notMem h)

theorem expect_error {kinds : List TokenKind} (h : expect kinds s = .error f s') :
    Refused Malformed s f := by
  unfold expect at h
  rw [bind_look_error] at h
  split at h
  · exact absurd (pure_error.mp h) id
  · rename_i hk
    obtain ⟨rfl, -⟩ := unexpected_error.mp h
    exact .unexpected hk

theorem take_error {kinds : List TokenKind} (h : take kinds s = .error f s') :
    Refused Malformed s f := by
  unfold take at h
  rcases bind_error.mp h with h | ⟨t, s₁, -, h⟩
  · exact expect_error h
  · simp only [bind_error, advance_error, pure_error, and_false, exists_false, or_self] at h

/-- A token is taken in front of what fails, or it is none of the kinds. -/
theorem bind_take_error {kinds : List TokenKind} {g : Token → Parser β} (hs : s.Closed)
    (hend : TokenKind.endOfInput ∉ kinds) (h : (take kinds >>= g) s = .error f s') :
    Refused Malformed s f ∨
      ∃ t s₁, t.kind ∈ kinds ∧ Takes s [t] s₁ ∧ g t s₁ = .error f s' := by
  rcases bind_error.mp h with h | ⟨t, s₁, ht, h⟩
  · exact Or.inl (take_error h)
  · obtain ⟨hk, htakes⟩ := take_sound hs hend ht
    exact Or.inr ⟨t, s₁, hk, htakes, h⟩

theorem name_error (h : name s = .error f s') : Refused Malformed s f :=
  take_error (bind_pure_error.mp h)

/-! ## Names -/

/-- A name is refused if one of those in scope has the same text. -/
theorem declareName_error {n : Name} {known : List Name} (hs : s.scope = .of known)
    (h : declareName n s = .error f s') :
    ∃ m ∈ known, m.text = n.text ∧ f = ⟨s.source, .nameInUse n.text n.offset m.offset⟩ := by
  unfold declareName at h
  rw [hs] at h
  cases hdeclare : (Scope.of known).declare n with
  | ok scope =>
    rw [hdeclare] at h
    cases h
  | error first =>
    obtain ⟨m, hm, htext, rfl⟩ := Scope.declare_of_error hdeclare
    simp only [hdeclare, fail_error] at h
    exact ⟨m, hm, htext, h.1⟩

theorem resolveName_error {n : Name} (h : resolveName n s = .error f s') :
    s.scope.find? n.text = none ∧ f = ⟨s.source, .undeclaredName n.text n.offset⟩ := by
  unfold resolveName at h
  cases hfind : s.scope.find? n.text with
  | some m => simp [hfind] at h
  | none =>
    simp only [hfind, fail_error] at h
    exact ⟨rfl, h.1⟩

theorem resolveType_error {n : Name} (h : resolveType n s = .error f s') :
    s.types.find? n.text = none ∧ f = ⟨s.source, .undeclaredType n.text n.offset⟩ := by
  unfold resolveType at h
  cases hfind : s.types.find? n.text with
  | some found => simp [hfind] at h
  | none =>
    simp only [hfind, fail_error] at h
    exact ⟨rfl, h.1⟩

/-- A name is not free if a declaration has it. -/
theorem ensureFree_error {n : Name} {ds : List Declaration} (hs : s.types = TypeTable.of ds)
    (h : ensureFree n s = .error f s') :
    ∃ d ∈ ds, d.name.text = n.text ∧
      f = ⟨s.source, .nameInUse n.text n.offset d.name.offset⟩ := by
  unfold ensureFree TypeTable.ensureFree at h
  rw [hs] at h
  cases hfind : (TypeTable.of ds).find? n.text with
  | none => simp [hfind] at h
  | some found =>
    obtain ⟨id, type⟩ := found
    obtain ⟨d, hd, hname, rfl⟩ := TypeTable.find?_of hfind
    simp only [hfind, fail_error] at h
    exact ⟨d, List.mem_of_getElem? hd, hname, h.1⟩

/-- A type with a new name can be declared. -/
theorem declareType_succeeds {n : Name} {b : Body} {ds : List Declaration}
    (hs : s.types = TypeTable.of ds) (hn : n.text ∉ ds.map (·.name.text)) :
    ¬ declareType n b.parameters.length s = .error f s' := by
  unfold declareType
  rw [hs, TypeTable.declare_of hn b]
  simp

theorem widthOf_error {t : Token} (h : widthOf t s = .error f s') :
    ¬ (0 < Text.decimalValue (t.text.toList.drop 1) ∧
        Text.decimalValue (t.text.toList.drop 1) < widthLimit) ∧
      f = ⟨s.source, .invalidNumber t.text t.offset⟩ := by
  unfold widthOf at h
  split at h
  · exact absurd (pure_error.mp h) id
  · rename_i hbounds
    exact ⟨hbounds, (fail_error.mp h).1⟩

/-- A fault that names the open declaration. -/
theorem fail_declaring_error {cause : Name → Cause} :
    (Parser.declaring >>= fun n => fail (cause n) : Parser α) s = .error f s' ↔
      f = ⟨s.source, cause s.declaring⟩ ∧ s' = s := by
  rw [bind_error_of_ok (declaring_ok.mpr ⟨rfl, rfl⟩), fail_error]

/-! ## Rules -/

theorem ensureStart_of_not {rule : Rule} (h : rule.canStart s.current.kind = false) :
    ensureStart rule s = .error (s.unexpected rule.first) s.passComments := by
  have hcan : canStart rule s = .ok false s.passComments := canStart_ok.mpr ⟨h.symm, rfl⟩
  rw [ensureStart, bind_of_ok hcan]
  rfl

theorem ensureStart_of_deep {rule : Rule} (h : rule.canStart s.current.kind = true)
    (hdepth : nestingLimit ≤ s.depth) :
    ensureStart rule s = .error s.tooDeep s.passComments := by
  have hcan : canStart rule s = .ok true s.passComments := canStart_ok.mpr ⟨h.symm, rfl⟩
  have hget : (get : Parser State) s.passComments = .ok s.passComments s.passComments := rfl
  rw [ensureStart, bind_of_ok hcan]
  show (get >>= fun s => if nestingLimit ≤ s.depth then Parser.tooDeep else pure ()) s.passComments
    = _
  rw [bind_of_ok hget, if_pos (show nestingLimit ≤ s.passComments.depth from hdepth)]
  rfl

theorem ensureStart_error {rule : Rule} (h : ensureStart rule s = .error f s') :
    Refused Malformed s f := by
  unfold ensureStart at h
  rw [bind_error_of_ok (canStart_ok.mpr ⟨rfl, rfl⟩)] at h
  cases hstart : rule.canStart s.current.kind with
  | false =>
    rw [hstart] at h
    rcases bind_error.mp h with h | ⟨_, _, h, -⟩
    · obtain ⟨rfl, -⟩ := unexpected_error.mp h
      exact .unexpected (of_decide_eq_false hstart)
    · exact absurd (unexpected_ok.mp h) id
  | true =>
    rw [hstart] at h
    have hdepth := (bind_error_of_ok (get_ok.mpr ⟨rfl, rfl⟩)).mp h
    split at hdepth
    · obtain ⟨rfl, -⟩ := tooDeep_error.mp hdepth
      exact .tooDeep hstart
    · exact absurd (pure_error.mp hdepth) id

theorem within_error {body : Parser α} (h : within body s = .error f s') :
    ∃ s₁, body { s with depth := s.depth + 1 } = .error f s₁ := by
  unfold within at h
  cases hbody : body { s with depth := s.depth + 1 } with
  | ok a s₁ =>
    rw [hbody] at h
    cases h
  | error e s₁ =>
    rw [hbody] at h
    obtain ⟨rfl, -⟩ := EStateM.Result.error.inj h
    exact ⟨s₁, rfl⟩

/-- A rule never gives the node of another one. -/
theorem descend_error_readRule {n : Nat} {rule : Rule}
    (h : descend (readRule n) rule s = .error f s') : readRule n rule s = .error f s' := by
  rcases bind_error.mp h with h | ⟨⟨rule', out⟩, s₁, hnode, h⟩
  · exact h
  · obtain rfl : rule' = rule := rule_readRule hnode
    dsimp only at h
    rw [dif_pos rfl] at h
    exact absurd (pure_error.mp h) id

/-- **A rule is refused** for its first token, or by the function for it. -/
theorem descend_refused {n : Nat} {rule : Rule} (h : descend (readRule n) rule s = .error f s') :
    Refused Malformed s f ∨
      ∃ m s₁, n = m + 1 ∧ reader (readRule m) rule (s.opened rule) = .error f s₁ := by
  have hread := descend_error_readRule h
  cases n with
  | zero =>
    rcases bind_error.mp hread with h | ⟨_, s₁, he, h⟩
    · exact Or.inl (ensureStart_error h)
    · obtain ⟨hk, -, rfl⟩ := ensureStart_ok.mp he
      obtain ⟨rfl, -⟩ := tooDeep_error.mp h
      exact Or.inl (.tooDeep hk)
  | succ m =>
    rcases bind_error.mp hread with h | ⟨_, s₁, he, h⟩
    · exact Or.inl (ensureStart_error h)
    · obtain ⟨-, -, rfl⟩ := ensureStart_ok.mp he
      have hrecord := bind_look_error.mp h
      have hwithin := (bind_error_of_ok (record_ok (u := ()).mpr rfl)).mp hrecord
      obtain ⟨s₂, hbuild⟩ := within_error hwithin
      rw [build_eq, bind_pure_error] at hbuild
      exact Or.inr ⟨m, s₂, rfl, hbuild⟩

/-- A rule is refused for a reason that its function has, or because a token is malformed. -/
theorem rule_refused {P : List Token → Cause → Prop} {n : Nat} {rule : Rule}
    (hP : ∀ ts c, Ahead Malformed ts c → P ts c)
    (h : descend (readRule n) rule s = .error f s')
    (hread : ∀ m s₁, n = m + 1 → reader (readRule m) rule (s.opened rule) = .error f s₁ →
      Refused P (s.opened rule) f) : Refused P s f := by
  rcases descend_refused h with h | ⟨m, s₁, hm, h⟩
  · exact h.ahead.mono hP
  · exact (hread m s₁ hm h).of_opened

/-- The body of a declaration is refused where no rule for one begins, or by the rule that does. -/
theorem body_error {n : Nat} (h : body (readRule n) s = .error f s') :
    Refused Malformed s f ∨
      ∃ rule ∈ Rule.bodies, ∃ s₁, descend (readRule n) rule s.passComments = .error f s₁ := by
  rw [body_eq] at h
  rcases bind_error.mp h with h | ⟨⟨rule, out⟩, s₁, hd, h⟩
  · have h := bind_look_error.mp h
    cases hfind : Rule.bodies.find? (·.canStart s.current.kind) with
    | some rule =>
      simp only [hfind] at h
      refine Or.inr ⟨rule, List.mem_of_find?_eq_some hfind, s', ?_⟩
      exact bind_error.mpr (Or.inl h)
    | none =>
      simp only [hfind] at h
      obtain ⟨rfl, -⟩ := unexpected_error.mp h
      refine Or.inl (.unexpected ?_)
      have hnone := List.find?_eq_none.mp hfind
      simp only [Rule.firstOfAny, List.mem_eraseDups, List.mem_flatMap, not_exists, not_and]
      exact fun rule hmem hk => hnone rule hmem (decide_eq_true hk)
  · obtain ⟨rule', hfind, hnode⟩ := dispatch_ok.mp hd
    obtain rfl : rule = rule' := rule_readRule hnode
    have hmem := List.mem_of_find?_eq_some hfind
    simp only [Rule.bodies, List.mem_cons, List.not_mem_nil, or_false] at hmem
    rcases hmem with rfl | rfl | rfl | rfl <;> exact absurd (pure_error.mp h) id

/-! ## Loops -/

section Loops

variable {more : Parser Bool} {item : List α → Parser α}

/-- A turn of a loop behind the items `before`, newest first, fails: whether a further item comes
is not told, or it comes and is refused. -/
def TurnFails (more : Parser Bool) (item : List α → Parser α) (before : List α) (s : State)
    (f : Fault) : Prop :=
  (∃ s₁, more s = .error f s₁) ∨ ∃ s₁ s₂, more s = .ok true s₁ ∧ item before s₁ = .error f s₂

/-- **A loop fails in one of its turns**, where what the turns before keep holds. -/
theorem error_of_manyWithin {Inv : List α → State → Prop}
    (hturn : ∀ {before : List α} {a : α} {s s₁ s₂ : State}, Inv before s →
      more s = .ok true s₁ → item before s₁ = .ok a s₂ → Inv (a :: before) s₂) :
    ∀ {n : Nat} {before : List α} {s s' : State}, Inv before s →
      manyWithin more item n before s = .error f s' →
      ∃ as s₁, Inv as s₁ ∧ TurnFails more item as s₁ f
  | 0, _, _, _, _, h => absurd (pure_error.mp h) id
  | n + 1, before, s, s', hs, h => by
    rcases bind_error.mp h with h | ⟨answer, s₁, hm, h⟩
    · exact ⟨before, s, hs, Or.inl ⟨s', h⟩⟩
    · cases answer with
      | false => exact absurd (pure_error.mp h) id
      | true =>
        rcases bind_error.mp h with h | ⟨a, s₂, hi, h⟩
        · exact ⟨before, s, hs, Or.inr ⟨s₁, s', hm, h⟩⟩
        · exact error_of_manyWithin hturn (hturn hs hm hi) h

@[simp] theorem tokensLeft_error : tokensLeft s = .error f s' ↔ False := by simp [tokensLeft]

variable {R : State → List Token → State → Prop} {sep : List Token → Prop}
  {spelled : α → List Token → Prop} {Inv : List α → State → Prop}

/-- **A loop that begins with an item** fails at that, or in a turn behind a list of items. -/
theorem Keeps.error_of_many1 (hk : Keeps R more item sep spelled Inv)
    (hfirst : ∀ {a s₁}, item [] s = .ok a s₁ → Inv [a] s₁ ∧ ∃ us, spelled a us ∧ R s us s₁)
    (h : many1 more item s = .error f s') :
    item [] s = .error f s' ∨ ∃ as ts s₁, Listed sep spelled as.reverse ts ∧ R s ts s₁ ∧
      Inv as s₁ ∧ TurnFails more item as s₁ f := by
  rcases bind_error.mp h with h | ⟨a, s₁, ha, h⟩
  · exact Or.inl h
  · have h := (bind_error_of_ok (tokensLeft_ok.mpr ⟨rfl, rfl⟩)).mp h
    obtain ⟨hinv, us, hus, hr⟩ := hfirst ha
    obtain ⟨as, s₁, ⟨ts, hlist, hr, hinv⟩, hfails⟩ :=
      @error_of_manyWithin _ _ _ _ (fun as s₁ =>
        ∃ ts, Listed sep spelled as.reverse ts ∧ R s ts s₁ ∧ Inv as s₁)
        (fun ⟨ts, hlist, hr, hinv⟩ hm hi => by
          obtain ⟨hinv, js, us, hj, ha, -, hr'⟩ := hk.turn hinv hm hi
          refine ⟨ts ++ (js ++ us), ?_, hk.spans.trans hr hr', hinv⟩
          rw [List.reverse_cons]
          exact hlist.concat hj ha)
        _ _ _ _ ⟨us, .of_single hus, hr, hinv⟩ h
    exact Or.inr ⟨as, ts, s₁, hlist, hr, hinv, hfails⟩

end Loops

end RecordSchema.Parser
