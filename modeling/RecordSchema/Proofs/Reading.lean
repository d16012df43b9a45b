import RecordSchema.Proofs.Names
import RecordSchema.Proofs.Tokens

/-!
# Successful readings

A successful run of a parser decomposes into successful runs of its parts: for each operation
`op`, the lemma `op_ok` says exactly when `op s = .ok a s'`. `Passes s used s'` is what every
reading of a rule inside a declaration has in common: it takes the tokens `used` off the front and
leaves everything else but the scope and the log as it was.
-/

namespace RecordSchema.Parser

variable {α β : Type}

/-! ## States -/

namespace State

/-- The current token. -/
def current (s : State) : Token := s.lexemes.current.token

/-- The tokens ahead, without the end of input. -/
def tokens (s : State) : List Token := s.lexemes.tokens

/-- The tokens ahead end with the end of input. -/
def Closed (s : State) : Prop := s.lexemes.Closed

/-- The state behind the current token, with the comments before it in the log. -/
def skip (s : State) : State := s.passComments.advance

@[simp] theorem current_passComments (s : State) : s.passComments.current = s.current := rfl

@[simp] theorem depth_passComments (s : State) : s.passComments.depth = s.depth := rfl

@[simp] theorem types_passComments (s : State) : s.passComments.types = s.types := rfl

@[simp] theorem tokens_passComments (s : State) : s.passComments.tokens = s.tokens := by
  obtain ⟨_, ⟨current, later⟩, _, _, _, _, _⟩ := s
  cases later <;> rfl

@[simp] theorem last_passComments (s : State) : s.passComments.lexemes.last = s.lexemes.last := by
  obtain ⟨_, ⟨current, later⟩, _, _, _, _, _⟩ := s
  cases later with
  | nil => rfl
  | cons l rest => rw [passComments, Lexemes.last_pair, Lexemes.last_pair]

theorem Closed.passComments {s : State} (h : s.Closed) : s.passComments.Closed :=
  ⟨(last_passComments s).symm ▸ h.last, fun t ht => by
    refine h.inner t ?_
    have htokens : t ∈ s.passComments.tokens := ht
    rwa [tokens_passComments] at htokens⟩

/-- On the end of input there are no tokens ahead. -/
theorem Closed.current_iff {s : State} (h : s.Closed) :
    s.current.kind = .endOfInput ↔ s.tokens = [] :=
  Lexemes.Closed.current_iff h

/-- The first of the tokens ahead is the current one. -/
theorem current_of_tokens {s : State} {t : Token} {ts : List Token} (h : s.tokens = t :: ts) :
    s.current = t := by
  obtain ⟨_, ⟨current, later⟩, _, _, _, _, _⟩ := s
  cases later with
  | nil => exact absurd h (by simp [tokens])
  | cons l rest => exact (List.cons.inj h).1

/-- A current token that is not the end of input is the first of the tokens ahead. -/
theorem Closed.tokens_eq {s : State} (h : s.Closed) (hc : s.current.kind ≠ .endOfInput) :
    s.tokens = s.current :: s.skip.tokens := by
  rw [← tokens_passComments]
  exact (h.passComments.advance hc).1

end State

open State

/-! ## What a reading passes -/

/-- `s'` is `s` behind the tokens `used`, with the same rules open. -/
structure Reads (s : State) (used : List Token) (s' : State) : Prop where
  tokens : s.tokens = used ++ s'.tokens
  closed : s'.Closed
  last : s'.lexemes.last = s.lexemes.last
  source : s'.source = s.source
  depth : s'.depth = s.depth

/-- `s'` is `s` behind the tokens `used`, with the same types and the same declaration open. -/
structure Passes (s : State) (used : List Token) (s' : State) : Prop extends Reads s used s' where
  types : s'.types = s.types
  declaring : s'.declaring = s.declaring

/-- `s'` is `s` behind the tokens `used`, with the same names in scope as well. -/
structure Takes (s : State) (used : List Token) (s' : State) : Prop extends Passes s used s' where
  scope : s'.scope = s.scope

namespace Reads

theorem trans {s s₁ s₂ : State} {us ts : List Token} (h : Reads s us s₁)
    (h' : Reads s₁ ts s₂) : Reads s (us ++ ts) s₂ where
  tokens := by rw [h.tokens, h'.tokens, List.append_assoc]
  closed := h'.closed
  last := h'.last.trans h.last
  source := h'.source.trans h.source
  depth := h'.depth.trans h.depth

/-- What is left of the tokens is known by what they began with. -/
theorem tokens_of {s s' : State} {used rest : List Token} (h : Reads s used s')
    (ht : s.tokens = used ++ rest) : s'.tokens = rest :=
  List.append_cancel_left (h.tokens.symm.trans ht)

end Reads

namespace Passes

theorem trans {s s₁ s₂ : State} {us ts : List Token} (h : Passes s us s₁)
    (h' : Passes s₁ ts s₂) : Passes s (us ++ ts) s₂ :=
  ⟨h.toReads.trans h'.toReads, h'.types.trans h.types, h'.declaring.trans h.declaring⟩

/-- The scope is no matter. -/
theorem withScope {s s' : State} {used : List Token} (h : Passes s used s') (scope : Scope) :
    Passes s used { s' with scope } :=
  ⟨⟨h.tokens, h.closed, h.last, h.source, h.depth⟩, h.types, h.declaring⟩

end Passes

namespace Takes

theorem trans {s s₁ s₂ : State} {us ts : List Token} (h : Takes s us s₁) (h' : Takes s₁ ts s₂) :
    Takes s (us ++ ts) s₂ :=
  ⟨h.toPasses.trans h'.toPasses, h'.scope.trans h.scope⟩

theorem rfl {s : State} (h : s.Closed) : Takes s [] s :=
  ⟨⟨⟨List.nil_append _, h, Eq.refl _, Eq.refl _, Eq.refl _⟩, Eq.refl _, Eq.refl _⟩, Eq.refl _⟩

/-- Looking takes nothing. -/
theorem look {s : State} (h : s.Closed) : Takes s [] s.passComments :=
  ⟨⟨⟨(tokens_passComments s).symm, h.passComments, last_passComments s, Eq.refl _, Eq.refl _⟩,
    Eq.refl _, Eq.refl _⟩, Eq.refl _⟩

/-- Moving on takes the current token. -/
theorem skip {s : State} (h : s.Closed) (hc : s.current.kind ≠ .endOfInput) :
    Takes s [s.current] s.skip := by
  obtain ⟨-, hclosed, hlast⟩ := h.passComments.advance hc
  exact ⟨⟨⟨h.tokens_eq hc, hclosed, hlast.trans (last_passComments s), Eq.refl _, Eq.refl _⟩,
    Eq.refl _, Eq.refl _⟩, Eq.refl _⟩

end Takes

/-! ## Runs of parsers -/

@[simp] theorem pure_ok {a b : α} {s s' : State} :
    (pure a : Parser α) s = .ok b s' ↔ a = b ∧ s = s' := by
  show EStateM.Result.ok a s = .ok b s' ↔ _
  simp

theorem bind_ok {x : Parser α} {f : α → Parser β} {b : β} {s s' : State} :
    (x >>= f) s = .ok b s' ↔ ∃ a s₁, x s = .ok a s₁ ∧ f a s₁ = .ok b s' := by
  show EStateM.bind x f s = .ok b s' ↔ _
  unfold EStateM.bind
  cases x s with
  | ok a s₁ => simp
  | error e s₁ => simp

/-- Behind a result goes what is made of it. -/
theorem bind_of_ok {x : Parser α} {f : α → Parser β} {a : α} {s s₁ : State} (h : x s = .ok a s₁) :
    (x >>= f) s = f a s₁ := by
  show EStateM.bind x f s = _
  unfold EStateM.bind
  rw [h]

theorem bind_error {x : Parser α} {g : α → Parser β} {f : Fault} {s s' : State} :
    (x >>= g) s = .error f s' ↔
      x s = .error f s' ∨ ∃ a s₁, x s = .ok a s₁ ∧ g a s₁ = .error f s' := by
  show EStateM.bind x g s = .error f s' ↔ _
  unfold EStateM.bind
  cases x s with
  | ok a s₁ => simp
  | error e s₁ => simp

/-- Behind a fault nothing is done. -/
theorem bind_of_error {x : Parser α} {g : α → Parser β} {f : Fault} {s s₁ : State}
    (h : x s = .error f s₁) : (x >>= g) s = .error f s₁ :=
  bind_error.mpr (.inl h)

@[simp] theorem get_ok {t s s' : State} : (get : Parser State) s = .ok t s' ↔ t = s ∧ s' = s := by
  show EStateM.Result.ok s s = .ok t s' ↔ _
  simp [eq_comm]

@[simp] theorem fail_ok {cause : Cause} {a : α} {s s' : State} :
    fail cause s = .ok a s' ↔ False := by
  simp [fail]

@[simp] theorem look_ok {t : Token} {s s' : State} :
    look s = .ok t s' ↔ t = s.current ∧ s' = s.passComments := by
  simp [look, current, passComments, eq_comm]

@[simp] theorem advance_ok {u : Unit} {s s' : State} :
    advance s = .ok u s' ↔ s' = s.advance := by
  simp [Parser.advance, eq_comm]

@[simp] theorem unexpected_ok {kinds : List TokenKind} {a : α} {s s' : State} :
    unexpected kinds s = .ok a s' ↔ False := by
  simp [unexpected, bind_ok]

@[simp] theorem tooDeep_ok {a : α} {s s' : State} : tooDeep s = .ok a s' ↔ False := by
  simp [tooDeep, bind_ok]

@[simp] theorem wrongNode_ok {rule : Rule} {a : α} {s s' : State} :
    wrongNode rule s = .ok a s' ↔ False := by
  simp [wrongNode, bind_ok]

@[simp] theorem expect_ok {kinds : List TokenKind} {t : Token} {s s' : State} :
    expect kinds s = .ok t s' ↔ s.current.kind ∈ kinds ∧ t = s.current ∧ s' = s.passComments := by
  unfold expect
  rw [bind_ok]
  constructor
  · rintro ⟨t₁, s₁, h₁, h⟩
    obtain ⟨rfl, rfl⟩ := look_ok.mp h₁
    split at h
    · rename_i hk
      obtain ⟨rfl, rfl⟩ := pure_ok.mp h
      exact ⟨hk, rfl, rfl⟩
    · exact absurd (unexpected_ok.mp h) id
  · rintro ⟨hk, rfl, rfl⟩
    exact ⟨_, _, look_ok.mpr ⟨rfl, rfl⟩, by rw [if_pos hk]; exact pure_ok.mpr ⟨rfl, rfl⟩⟩

@[simp] theorem take_ok {kinds : List TokenKind} {t : Token} {s s' : State} :
    take kinds s = .ok t s' ↔ s.current.kind ∈ kinds ∧ t = s.current ∧ s' = s.skip := by
  unfold take
  simp only [bind_ok, expect_ok, advance_ok, pure_ok]
  constructor
  · rintro ⟨_, _, ⟨hk, rfl, rfl⟩, _, _, rfl, rfl, rfl⟩
    exact ⟨hk, rfl, rfl⟩
  · rintro ⟨hk, rfl, rfl⟩
    exact ⟨_, _, ⟨hk, rfl, rfl⟩, (), _, rfl, rfl, rfl⟩

/-- A token is accepted if it is of the kind, and else left. -/
@[simp] theorem accept_ok {kind : TokenKind} {b : Bool} {s s' : State} :
    accept kind s = .ok b s' ↔
      s.current.kind = kind ∧ b = true ∧ s' = s.skip ∨
      s.current.kind ≠ kind ∧ b = false ∧ s' = s.passComments := by
  unfold accept
  rw [bind_ok]
  constructor
  · rintro ⟨_, _, h₁, h⟩
    obtain ⟨rfl, rfl⟩ := look_ok.mp h₁
    split at h
    · rename_i hk
      simp only [bind_ok, advance_ok, pure_ok] at h
      obtain ⟨_, _, rfl, rfl, rfl⟩ := h
      exact Or.inl ⟨hk, rfl, rfl⟩
    · rename_i hk
      obtain ⟨rfl, rfl⟩ := pure_ok.mp h
      exact Or.inr ⟨hk, rfl, rfl⟩
  · rintro (⟨hk, rfl, rfl⟩ | ⟨hk, rfl, rfl⟩)
    · refine ⟨_, _, look_ok.mpr ⟨rfl, rfl⟩, ?_⟩
      rw [if_pos hk]
      exact bind_ok.mpr ⟨(), _, advance_ok.mpr rfl, pure_ok.mpr ⟨rfl, rfl⟩⟩
    · refine ⟨_, _, look_ok.mpr ⟨rfl, rfl⟩, ?_⟩
      rw [if_neg hk]
      exact pure_ok.mpr ⟨rfl, rfl⟩

@[simp] theorem name_ok {n : Name} {s s' : State} :
    name s = .ok n s' ↔
      s.current.kind = .identifier ∧ n = ⟨s.current.text, s.current.offset⟩ ∧ s' = s.skip := by
  unfold name
  simp only [bind_ok, take_ok, pure_ok, List.mem_singleton]
  constructor
  · rintro ⟨_, _, ⟨hk, rfl, rfl⟩, rfl, rfl⟩
    exact ⟨hk, rfl, rfl⟩
  · rintro ⟨hk, rfl, rfl⟩
    exact ⟨_, _, ⟨hk, rfl, rfl⟩, rfl, rfl⟩

@[simp] theorem canStart_ok {rule : Rule} {b : Bool} {s s' : State} :
    canStart rule s = .ok b s' ↔ b = rule.canStart s.current.kind ∧ s' = s.passComments := by
  unfold canStart
  simp only [bind_ok, look_ok, pure_ok]
  constructor
  · rintro ⟨_, _, ⟨rfl, rfl⟩, rfl, rfl⟩
    exact ⟨rfl, rfl⟩
  · rintro ⟨rfl, rfl⟩
    exact ⟨_, _, ⟨rfl, rfl⟩, rfl, rfl⟩

@[simp] theorem record_ok {event : Event} {u : Unit} {s s' : State} :
    record event s = .ok u s' ↔ s' = s.record event := by
  simp [record, eq_comm]

/-! ## Names -/

@[simp] theorem declareName_ok {n : Name} {u : Unit} {s s' : State} :
    declareName n s = .ok u s' ↔
      ∃ scope, s.scope.declare n = .ok scope ∧ s' = { s with scope } := by
  unfold declareName
  cases s.scope.declare n with
  | ok scope => simp [eq_comm]
  | error first => simp

@[simp] theorem resolveName_ok {n : Name} {u : Unit} {s s' : State} :
    resolveName n s = .ok u s' ↔ (s.scope.find? n.text).isSome = true ∧ s' = s := by
  unfold resolveName
  cases s.scope.find? n.text with
  | some m => simp [eq_comm]
  | none => simp

@[simp] theorem resolveType_ok {n : Name} {r : TypeId × Nat} {s s' : State} :
    resolveType n s = .ok r s' ↔
      ∃ type, s.types.find? n.text = some (r.1, type) ∧ r.2 = type.parameters ∧ s' = s := by
  obtain ⟨id, count⟩ := r
  unfold resolveType
  cases s.types.find? n.text with
  | some found =>
    obtain ⟨id', type⟩ := found
    simp only [EStateM.Result.ok.injEq, Prod.mk.injEq, Option.some.injEq]
    constructor
    · rintro ⟨⟨rfl, rfl⟩, rfl⟩
      exact ⟨type, ⟨rfl, rfl⟩, rfl, rfl⟩
    · rintro ⟨_, ⟨rfl, rfl⟩, rfl, rfl⟩
      exact ⟨⟨rfl, rfl⟩, rfl⟩
  | none => simp

@[simp] theorem ensureFree_ok {n : Name} {u : Unit} {s s' : State} :
    ensureFree n s = .ok u s' ↔ s.types.ensureFree n = .ok () ∧ s' = s := by
  unfold ensureFree
  cases s.types.ensureFree n with
  | ok u => simp [eq_comm]
  | error first => simp

@[simp] theorem declareType_ok {n : Name} {count : Nat} {id : TypeId} {s s' : State} :
    declareType n count s = .ok id s' ↔
      ∃ types, s.types.declare n count = .ok (id, types) ∧ s' = { s with types } := by
  unfold declareType
  cases s.types.declare n count with
  | ok r =>
    obtain ⟨id', types⟩ := r
    simp only [EStateM.Result.ok.injEq, Except.ok.injEq, Prod.mk.injEq]
    constructor
    · rintro ⟨rfl, rfl⟩
      exact ⟨types, ⟨rfl, rfl⟩, rfl⟩
    · rintro ⟨_, ⟨rfl, rfl⟩, rfl⟩
      exact ⟨rfl, rfl⟩
  | error first => simp

@[simp] theorem openDeclaration_ok {n : Name} {u : Unit} {s s' : State} :
    openDeclaration n s = .ok u s' ↔ s' = { s with scope := {}, declaring := n } := by
  simp [openDeclaration, eq_comm]

@[simp] theorem closeDeclaration_ok {u : Unit} {s s' : State} :
    closeDeclaration s = .ok u s' ↔ s' = { s with scope := {} } := by
  simp [closeDeclaration, eq_comm]

@[simp] theorem declaring_ok {n : Name} {s s' : State} :
    declaring s = .ok n s' ↔ n = s.declaring ∧ s' = s := by
  simp [Parser.declaring, eq_comm]

/-! ## Parts of members and declarations -/

@[simp] theorem widthOf_ok {t : Token} {w : Nat} {s s' : State} :
    widthOf t s = .ok w s' ↔
      w = Text.decimalValue (t.text.toList.drop 1) ∧ (0 < w ∧ w < widthLimit) ∧ s' = s := by
  unfold widthOf
  split
  · rename_i hw
    rw [pure_ok]
    constructor
    · rintro ⟨rfl, rfl⟩
      exact ⟨rfl, hw, rfl⟩
    · rintro ⟨rfl, -, rfl⟩
      exact ⟨rfl, rfl⟩
  · rename_i hw
    rw [fail_ok, false_iff]
    rintro ⟨rfl, hw', -⟩
    exact hw hw'

theorem defaultOffset?_eq_none {bs : List Branch} :
    defaultOffset? bs = none ↔ bs.countP (·.condition.isDefault) = 0 := by
  rw [defaultOffset?, Option.map_eq_none_iff, List.find?_eq_none, List.countP_eq_zero]

/-- A branch is read behind others as it is alone, but for a second default. -/
theorem nextBranch_ok {sub : Rule → Parser Node} {bs : List Branch} {b : Branch}
    {s s' : State} :
    nextBranch sub bs s = .ok b s' ↔
      descend sub .branch s = .ok b s' ∧
        (b.condition.isDefault = true → bs.countP (·.condition.isDefault) = 0) := by
  rw [← defaultOffset?_eq_none, nextBranch, bind_ok]
  constructor
  · rintro ⟨b', s₁, hb, h⟩
    cases hoffset : defaultOffset? bs with
    | none =>
      rw [hoffset] at h
      obtain ⟨rfl, rfl⟩ := pure_ok.mp h
      exact ⟨hb, fun _ => rfl⟩
    | some first =>
      rw [hoffset] at h
      cases hdefault : b'.condition.isDefault with
      | true =>
        rw [hdefault] at h
        obtain ⟨_, _, -, h⟩ := bind_ok.mp h
        exact absurd (fail_ok.mp h) id
      | false =>
        rw [hdefault] at h
        obtain ⟨rfl, rfl⟩ := pure_ok.mp h
        exact ⟨hb, fun hd => absurd (hd.symm.trans hdefault) (by decide)⟩
  · rintro ⟨hb, hfirst⟩
    refine ⟨b, s', hb, ?_⟩
    cases hdefault : b.condition.isDefault with
    | true =>
      rw [hfirst hdefault]
      exact pure_ok.mpr ⟨rfl, rfl⟩
    | false => cases defaultOffset? bs <;> exact pure_ok.mpr ⟨rfl, rfl⟩

/-- The body that a node of one of the rules for bodies gives. -/
def bodyOf? : Node → Option Body
  | ⟨.simpleType, type⟩ => some (.simple type)
  | ⟨.sequence, body⟩ | ⟨.array, body⟩ | ⟨.choice, body⟩ => some body
  | _ => none

theorem body_eq (sub : Rule → Parser Node) :
    body sub = dispatch sub Rule.bodies >>= fun node =>
      match bodyOf? node with
      | some b => pure b
      | none => wrongNode .declaration := by
  unfold body
  congr 1
  funext node
  obtain ⟨rule, out⟩ := node
  cases rule <;> rfl

/-- A body is read as a node of one of its rules. -/
theorem body_ok {sub : Rule → Parser Node} {b : Body} {s s' : State} :
    body sub s = .ok b s' ↔
      ∃ node, dispatch sub Rule.bodies s = .ok node s' ∧ bodyOf? node = some b := by
  rw [body_eq, bind_ok]
  constructor
  · rintro ⟨node, s₁, hd, h⟩
    cases hb : bodyOf? node with
    | none =>
      rw [hb] at h
      exact absurd (wrongNode_ok.mp h) id
    | some b' =>
      rw [hb] at h
      obtain ⟨rfl, rfl⟩ := pure_ok.mp h
      exact ⟨node, hd, hb⟩
  · rintro ⟨node, hd, hb⟩
    refine ⟨node, s', hd, ?_⟩
    rw [hb]
    exact pure_ok.mpr ⟨rfl, rfl⟩

@[simp] theorem moreTokens_ok {b : Bool} {s s' : State} :
    moreTokens s = .ok b s' ↔
      b = decide (s.current.kind ≠ .endOfInput) ∧ s' = s.passComments := by
  unfold moreTokens
  simp only [bind_ok, look_ok, pure_ok]
  constructor
  · rintro ⟨_, _, ⟨rfl, rfl⟩, rfl, rfl⟩
    exact ⟨rfl, rfl⟩
  · rintro ⟨rfl, rfl⟩
    exact ⟨_, _, ⟨rfl, rfl⟩, rfl, rfl⟩

/-! ## Rules -/

/-- The state in which a rule that began is read. -/
def State.opened (s : State) (rule : Rule) : State :=
  { s.passComments.record (.ruleBegun rule s.current.offset) with depth := s.depth + 1 }

/-- The state behind a rule. -/
def State.closed (s : State) : State := { s with depth := s.depth - 1 }

theorem within_ok {body : Parser α} {a : α} {s s' : State} :
    within body s = .ok a s' ↔
      ∃ s₁, body { s with depth := s.depth + 1 } = .ok a s₁ ∧ s' = s₁.closed := by
  unfold within
  cases body { s with depth := s.depth + 1 } with
  | ok b s₁ =>
    simp only [EStateM.Result.ok.injEq, State.closed]
    constructor
    · rintro ⟨rfl, rfl⟩
      exact ⟨s₁, ⟨rfl, rfl⟩, rfl⟩
    · rintro ⟨_, ⟨rfl, rfl⟩, rfl⟩
      exact ⟨rfl, rfl⟩
  | error fault s₁ => simp

/-- **A rule is read** if its first token can begin it and the limit is not reached. -/
theorem ensureStart_ok {rule : Rule} {u : Unit} {s s' : State} :
    ensureStart rule s = .ok u s' ↔
      rule.canStart s.current.kind = true ∧ s.depth < nestingLimit ∧ s' = s.passComments := by
  unfold ensureStart
  simp only [bind_ok, canStart_ok]
  constructor
  · rintro ⟨_, _, ⟨rfl, rfl⟩, h⟩
    split at h
    · rename_i hk
      obtain ⟨_, _, hget, h⟩ := bind_ok.mp h
      obtain ⟨rfl, rfl⟩ := get_ok.mp hget
      split at h
      · exact absurd (tooDeep_ok.mp h) id
      · rename_i hd
        exact ⟨hk, Nat.lt_of_not_le hd, (pure_ok.mp h).2.symm⟩
    · obtain ⟨_, _, hu, -⟩ := bind_ok.mp h
      exact absurd (unexpected_ok.mp hu) id
  · rintro ⟨hk, hd, rfl⟩
    refine ⟨_, _, ⟨rfl, rfl⟩, ?_⟩
    rw [if_pos hk]
    refine bind_ok.mpr ⟨_, _, get_ok.mpr ⟨rfl, rfl⟩, ?_⟩
    rw [if_neg (by rw [depth_passComments]; exact Nat.not_le_of_lt hd)]
    exact pure_ok.mpr ⟨rfl, rfl⟩

/-- Reading a sub-rule is reading a node of that rule. -/
theorem descend_ok {sub : Rule → Parser Node} {rule : Rule} {out : rule.Output} {s s' : State} :
    descend sub rule s = .ok out s' ↔ sub rule s = .ok ⟨rule, out⟩ s' := by
  unfold descend
  rw [bind_ok]
  constructor
  · rintro ⟨⟨rule', out'⟩, s₁, h₁, h⟩
    dsimp only at h
    split at h
    · rename_i he
      subst he
      obtain ⟨rfl, rfl⟩ := pure_ok.mp h
      exact h₁
    · exact absurd (wrongNode_ok.mp h) id
  · intro h
    exact ⟨_, _, h, by rw [dif_pos rfl]; exact pure_ok.mpr ⟨rfl, rfl⟩⟩

/-- Reading the one of the rules that can begin here. -/
theorem dispatch_ok {sub : Rule → Parser Node} {rules : List Rule} {node : Node} {s s' : State} :
    dispatch sub rules s = .ok node s' ↔
      ∃ rule, rules.find? (·.canStart s.current.kind) = some rule ∧
        sub rule s.passComments = .ok node s' := by
  unfold dispatch
  rw [bind_ok]
  constructor
  · rintro ⟨_, _, h₁, h⟩
    obtain ⟨rfl, rfl⟩ := look_ok.mp h₁
    cases hfind : rules.find? (·.canStart s.current.kind) with
    | some rule => exact ⟨rule, rfl, by simpa only [hfind] using h⟩
    | none => exact absurd (unexpected_ok.mp (by simpa only [hfind] using h)) id
  · rintro ⟨rule, hfind, h⟩
    exact ⟨_, _, look_ok.mpr ⟨rfl, rfl⟩, by simpa only [hfind] using h⟩

/-- The function for a rule. -/
def reader (sub : Rule → Parser Node) : (rule : Rule) → Parser rule.Output
  | .declaration => declaration sub
  | .simpleType => simpleType
  | .sequence => sequence sub
  | .array => array sub
  | .choice => choice sub
  | .parameters => parameters
  | .field => field sub
  | .reference => reference sub
  | .values => values sub
  | .branch => branch sub
  | .condition => condition sub
  | .disjunction => disjunction sub
  | .conjunction => conjunction sub
  | .term => term sub
  | .comparison => comparison sub
  | .operand => operand

theorem build_eq (sub : Rule → Parser Node) (rule : Rule) :
    build sub rule = reader sub rule >>= fun out => pure ⟨rule, out⟩ := by
  cases rule <;> rfl

/-- **A rule is read by the function for it**, if its first token can begin it and fewer rules
than the limit are open. -/
theorem descend_readRule_ok {n : Nat} {rule : Rule} {out : rule.Output} {s s' : State} :
    descend (readRule (n + 1)) rule s = .ok out s' ↔
      rule.canStart s.current.kind = true ∧ s.depth < nestingLimit ∧
        ∃ s₁, reader (readRule n) rule (s.opened rule) = .ok out s₁ ∧ s' = s₁.closed := by
  rw [descend_ok, readRule]
  simp only [bind_ok, ensureStart_ok, look_ok, record_ok, within_ok, build_eq, pure_ok]
  constructor
  · rintro ⟨_, _, ⟨hk, hd, rfl⟩, _, _, ⟨rfl, rfl⟩, _, _, rfl, s₂, ⟨out', s₁, h, hout, rfl⟩, rfl⟩
    obtain ⟨-, rfl⟩ := Node.mk.inj hout
    exact ⟨hk, hd, s₁, h, rfl⟩
  · rintro ⟨hk, hd, s₁, h, rfl⟩
    exact ⟨(), _, ⟨hk, hd, rfl⟩, _, _, ⟨rfl, rfl⟩, (), _, rfl, s₁, ⟨out, s₁, h, rfl, rfl⟩, rfl⟩

/-- No rule is read without a level left. -/
theorem descend_readRule_zero {rule : Rule} {out : rule.Output} {s s' : State} :
    ¬ descend (readRule 0) rule s = .ok out s' := by
  rw [descend_ok, readRule, bind_ok]
  rintro ⟨_, _, -, h⟩
  exact tooDeep_ok.mp h

/-- A rule reads what the function for it reads. -/
theorem Reads.rule {s s₁ : State} {rule : Rule} {used : List Token}
    (h : Reads (s.opened rule) used s₁) : Reads s used s₁.closed where
  tokens := (tokens_passComments s).symm.trans h.tokens
  closed := h.closed
  last := h.last.trans (last_passComments s)
  source := h.source
  depth := by
    show s₁.depth - 1 = s.depth
    rw [h.depth]
    rfl

theorem Passes.rule {s s₁ : State} {rule : Rule} {used : List Token}
    (h : Passes (s.opened rule) used s₁) : Passes s used s₁.closed :=
  ⟨h.toReads.rule, h.types, h.declaring⟩

theorem Takes.rule {s s₁ : State} {rule : Rule} {used : List Token}
    (h : Takes (s.opened rule) used s₁) : Takes s used s₁.closed :=
  ⟨h.toPasses.rule, h.scope⟩

theorem State.Closed.opened {s : State} (h : s.Closed) (rule : Rule) : (s.opened rule).Closed :=
  h.passComments

/-- A rule that was read had a level left for it. -/
theorem level_of_descend {n : Nat} {rule : Rule} {out : rule.Output} {s s' : State}
    (h : descend (readRule n) rule s = .ok out s') :
    ∃ m s₁, n = m + 1 ∧ reader (readRule m) rule (s.opened rule) = .ok out s₁ ∧
      s' = s₁.closed := by
  cases n with
  | zero => exact absurd h descend_readRule_zero
  | succ m =>
    obtain ⟨-, -, s₁, h₁, rfl⟩ := descend_readRule_ok.mp h
    exact ⟨m, s₁, rfl, h₁, rfl⟩

/-- A run of the parser gives the declarations that the loop reads. -/
theorem run_ok {source : SourceId} {lexemes : Lexemes} {p : Schema} :
    (run source lexemes).result = .ok p ↔
      ∃ s, declarations { source, lexemes } = .ok p.declarations s := by
  unfold run schema
  cases declarations { source, lexemes } with
  | ok ds s =>
    simp only [Except.ok.injEq, EStateM.Result.ok.injEq]
    constructor
    · rintro rfl
      exact ⟨s, rfl, rfl⟩
    · rintro ⟨_, rfl, -⟩
      rfl
  | error fault s => simp

end RecordSchema.Parser
