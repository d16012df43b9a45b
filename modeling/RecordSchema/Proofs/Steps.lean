import RecordSchema.Proofs.Refusal.Basic

/-!
# Parsers as programs

Every parser is put together from a few single steps, by doing one thing behind another and by
reading rules. `Composed` says so of the function for a rule, whatever reads the sub-rules, and
`Taking` that a token is taken on the way. `Built` says so of a parser that reads its sub-rules by
`readRule`, and a property of parsers that every step has, that sequence keeps and that reading a
rule keeps is then shown by induction on it.

Results:
* `readRule_of_refused`, `readRule_of_level`: what reading a rule does.
* `Nominal.outcome`: what deals with names alone depends on these alone.
* `Taking.build`: the function for any rule is composed, and takes a token if it succeeds.
* `Built.readRule`: the reading of any rule is built from steps.
* `Built.declarations`: so is the reading of a whole text.
-/

namespace RecordSchema.Parser

variable {α β : Type}

/-! ## Reading a rule -/

/-- The outcome of an open rule once it is closed. -/
def shut : EStateM.Result Fault State α → EStateM.Result Fault State α
  | .ok a s => .ok a s.closed
  | .error fault s => .error fault s.closed

theorem within_eq (x : Parser α) (s : State) :
    within x s = shut (x { s with depth := s.depth + 1 }) := by
  unfold within
  cases x { s with depth := s.depth + 1 } <;> rfl

theorem shut_ok {r : EStateM.Result Fault State α} {a : α} {s' : State} (h : shut r = .ok a s') :
    ∃ s₁, r = .ok a s₁ ∧ s' = s₁.closed := by
  cases r with
  | ok b s₁ =>
    obtain ⟨rfl, rfl⟩ := EStateM.Result.ok.inj h
    exact ⟨s₁, rfl, rfl⟩
  | error fault s₁ => cases h

variable {n : Nat} {rule : Rule} {s : State}

/-- A rule is refused where it cannot begin. -/
theorem readRule_of_not (h : rule.canStart s.current.kind = false) :
    readRule n rule s = .error (s.unexpected rule.first) s.passComments := by
  cases n <;> exact bind_of_error (ensureStart_of_not h)

/-- A rule is refused where it can begin but no level is left for it. -/
theorem readRule_of_deep (h : rule.canStart s.current.kind = true)
    (hdepth : nestingLimit ≤ s.depth ∨ n = 0) :
    readRule n rule s = .error s.tooDeep s.passComments := by
  by_cases hdeep : nestingLimit ≤ s.depth
  · cases n <;> exact bind_of_error (ensureStart_of_deep h hdeep)
  · obtain rfl := hdepth.resolve_left hdeep
    rw [readRule, bind_of_ok ((ensureStart_ok (u := ())).mpr ⟨h, Nat.lt_of_not_le hdeep, rfl⟩)]
    rfl

/-- A rule that is refused takes nothing. -/
theorem readRule_of_refused
    (h : rule.canStart s.current.kind = false ∨ nestingLimit ≤ s.depth ∨ n = 0) :
    ∃ fault, readRule n rule s = .error fault s.passComments := by
  cases hstart : rule.canStart s.current.kind with
  | false => exact ⟨_, readRule_of_not hstart⟩
  | true => exact ⟨_, readRule_of_deep hstart (h.resolve_left (by simp [hstart]))⟩

/-- A rule is refused, or can begin with a level left for it. -/
theorem refused_or_level (n : Nat) (rule : Rule) (s : State) :
    (rule.canStart s.current.kind = false ∨ nestingLimit ≤ s.depth ∨ n = 0) ∨
      ∃ m, n = m + 1 ∧ rule.canStart s.current.kind = true ∧ s.depth < nestingLimit := by
  by_cases hrefused : rule.canStart s.current.kind = false ∨ nestingLimit ≤ s.depth ∨ n = 0
  · exact .inl hrefused
  · simp only [not_or, Bool.not_eq_false] at hrefused
    obtain ⟨hstart, hdepth, hn⟩ := hrefused
    obtain ⟨m, rfl⟩ := Nat.exists_eq_succ_of_ne_zero hn
    exact .inr ⟨m, rfl, hstart, Nat.lt_of_not_le hdepth⟩

/-- The reading of a rule, with `sub` to read its sub-rules. -/
def readWith (sub : Rule → Parser Node) (rule : Rule) : Parser Node := do
  ensureStart rule
  let token ← look
  record (.ruleBegun rule token.offset)
  within (build sub rule)

theorem readWith_of_level {sub : Rule → Parser Node} (h : rule.canStart s.current.kind = true)
    (hdepth : s.depth < nestingLimit) :
    readWith sub rule s = shut (build sub rule (s.opened rule)) := by
  rw [readWith, bind_of_ok ((ensureStart_ok (u := ())).mpr ⟨h, hdepth, rfl⟩)]
  exact within_eq _ _

/-- **A rule that can begin** is read with one more rule open, if there is a level for it. -/
theorem readRule_of_level (h : rule.canStart s.current.kind = true)
    (hdepth : s.depth < nestingLimit) :
    readRule (n + 1) rule s = shut (build (readRule n) rule (s.opened rule)) :=
  readWith_of_level h hdepth

/-- A rule that was read had a level left for it, and the function for it was run. -/
theorem level_of_readRule {node : Node} {s' : State} (h : readRule n rule s = .ok node s') :
    ∃ m s₁, n = m + 1 ∧ rule.canStart s.current.kind = true ∧ s.depth < nestingLimit ∧
      build (readRule m) rule (s.opened rule) = .ok node s₁ ∧ s' = s₁.closed := by
  rcases refused_or_level n rule s with hrefused | ⟨m, rfl, hstart, hdepth⟩
  · obtain ⟨fault, hrun⟩ := readRule_of_refused hrefused
    rw [hrun] at h
    cases h
  · rw [readRule_of_level hstart hdepth] at h
    obtain ⟨s₁, hbuild, rfl⟩ := shut_ok h
    exact ⟨m, s₁, rfl, hstart, hdepth, hbuild, rfl⟩

/-- The rule that can begin is the one that is read. -/
theorem dispatch_of_find {sub : Rule → Parser Node} {rules : List Rule}
    (h : rules.find? (·.canStart s.current.kind) = some rule) :
    dispatch sub rules s = sub rule s.passComments := by
  rw [dispatch, bind_of_ok (look_ok.mpr ⟨rfl, rfl⟩), h]

/-- No rule can begin. -/
theorem dispatch_of_none {sub : Rule → Parser Node} {rules : List Rule}
    (h : rules.find? (·.canStart s.current.kind) = none) :
    dispatch sub rules s = .error (s.unexpected (Rule.firstOfAny rules)) s.passComments := by
  rw [dispatch, bind_of_ok (look_ok.mpr ⟨rfl, rfl⟩), h]
  rfl

/-! ## Names -/

/-- A cause that is no unexpected token. -/
def Other (c : Cause) : Prop :=
  ∀ expected got offset length, c ≠ .unexpectedToken expected got offset length

/-- What is known of names: those in scope, the types, and that of the open declaration. -/
structure Names where
  scope : Scope
  types : TypeTable
  declaring : Name

namespace State

variable {s s' : State} {ns : Names}

def names (s : State) : Names := ⟨s.scope, s.types, s.declaring⟩

def withNames (s : State) (ns : Names) : State :=
  { s with scope := ns.scope, types := ns.types, declaring := ns.declaring }

theorem scope_withNames : (s.withNames ns).scope = ns.scope := rfl

theorem types_withNames : (s.withNames ns).types = ns.types := rfl

theorem withNames_of_eq (h : s'.names = s.names) : s'.withNames s.names = s' := by
  rw [← h]
  rfl

end State

/-- The parser deals with names alone: whether it fails, what it gives and what becomes of the names
depends on these and on nothing else. -/
def Nominal (x : Parser α) : Prop :=
  ∀ ns : Names, (∃ a ns', ∀ s : State, x (s.withNames ns) = .ok a (s.withNames ns')) ∨
    ∃ cause, Other cause ∧ ∀ s : State, x (s.withNames ns) = fail cause (s.withNames ns)

namespace Nominal

open State

/-- Where the names are the same, so is the outcome. -/
theorem outcome {x : Parser α} (h : Nominal x) (s : State) :
    (∃ a ns, ∀ s' : State, s'.names = s.names → x s' = .ok a (s'.withNames ns)) ∨
    ∃ cause, Other cause ∧ ∀ s' : State, s'.names = s.names → x s' = fail cause s' := by
  rcases h s.names with ⟨a, ns, hrun⟩ | ⟨cause, hcause, hrun⟩
  · refine .inl ⟨a, ns, fun s' hs => ?_⟩
    rw [← hrun s', withNames_of_eq hs]
  · refine .inr ⟨cause, hcause, fun s' hs => ?_⟩
    have hrun := hrun s'
    rwa [withNames_of_eq hs] at hrun

theorem declareName (n : Name) : Nominal (declareName n) := by
  intro ns
  cases h : ns.scope.declare n with
  | ok scope =>
    exact .inl ⟨(), ⟨scope, ns.types, ns.declaring⟩, fun s => by
      simp only [Parser.declareName, scope_withNames, h]
      rfl⟩
  | error first =>
    exact .inr ⟨.nameInUse n.text n.offset first, nofun, fun s => by
      simp only [Parser.declareName, scope_withNames, h]⟩

theorem resolveName (n : Name) : Nominal (resolveName n) := by
  intro ns
  cases h : ns.scope.find? n.text with
  | some _ =>
    exact .inl ⟨(), ns, fun s => by simp only [Parser.resolveName, scope_withNames, h]⟩
  | none =>
    exact .inr ⟨.undeclaredName n.text n.offset, nofun, fun s => by
      simp only [Parser.resolveName, scope_withNames, h]⟩

theorem resolveType (n : Name) : Nominal (resolveType n) := by
  intro ns
  cases h : ns.types.find? n.text with
  | some found =>
    exact .inl ⟨(found.1, found.2.parameters), ns, fun s => by
      simp only [Parser.resolveType, types_withNames, h]⟩
  | none =>
    exact .inr ⟨.undeclaredType n.text n.offset, nofun, fun s => by
      simp only [Parser.resolveType, types_withNames, h]⟩

theorem ensureFree (n : Name) : Nominal (ensureFree n) := by
  intro ns
  cases h : ns.types.ensureFree n with
  | ok _ => exact .inl ⟨(), ns, fun s => by simp only [Parser.ensureFree, types_withNames, h]⟩
  | error first =>
    exact .inr ⟨.nameInUse n.text n.offset first, nofun, fun s => by
      simp only [Parser.ensureFree, types_withNames, h]⟩

theorem declareType (n : Name) (count : Nat) : Nominal (declareType n count) := by
  intro ns
  cases h : ns.types.declare n count with
  | ok declared =>
    exact .inl ⟨declared.1, ⟨ns.scope, declared.2, ns.declaring⟩, fun s => by
      simp only [Parser.declareType, types_withNames, h]
      rfl⟩
  | error first =>
    exact .inr ⟨.nameInUse n.text n.offset first, nofun, fun s => by
      simp only [Parser.declareType, types_withNames, h]⟩

theorem openDeclaration (n : Name) : Nominal (openDeclaration n) :=
  fun ns => .inl ⟨(), ⟨{}, ns.types, n⟩, fun _ => rfl⟩

theorem closeDeclaration : Nominal closeDeclaration :=
  fun ns => .inl ⟨(), ⟨{}, ns.types, ns.declaring⟩, fun _ => rfl⟩

theorem declaring : Nominal declaring := fun ns => .inl ⟨ns.declaring, ns, fun _ => rfl⟩

end Nominal

/-! ## Steps -/

/-- The single steps of parsers. What is expected in place of the current token is told by
`unexpected` alone, other faults have other causes. -/
inductive Step : {α : Type} → Parser α → Prop
  | pure {α : Type} (a : α) : Step (pure a)
  | look : Step look
  | advance : Step advance
  | record (event : Event) : Step (record event)
  | unexpected {α : Type} (kinds : List TokenKind) : Step (unexpected kinds : Parser α)
  | fail {α : Type} {cause : Cause} (h : ∀ expected got offset length,
      cause ≠ .unexpectedToken expected got offset length) : Step (fail cause : Parser α)
  | tokensLeft : Step tokensLeft
  | declareName (n : Name) : Step (declareName n)
  | resolveName (n : Name) : Step (resolveName n)
  | resolveType (n : Name) : Step (resolveType n)
  | ensureFree (n : Name) : Step (ensureFree n)
  | declareType (n : Name) (count : Nat) : Step (declareType n count)
  | openDeclaration (n : Name) : Step (openDeclaration n)
  | closeDeclaration : Step closeDeclaration
  | declaring : Step declaring

/-- A parser that is built from steps and from the reading of rules. -/
inductive Built : {α : Type} → Parser α → Prop
  | step {α : Type} {x : Parser α} (h : Step x) : Built x
  | bind {α β : Type} {x : Parser α} {g : α → Parser β} (hx : Built x) (hg : ∀ a, Built (g a)) :
      Built (x >>= g)
  | readZero (rule : Rule) : Built (readRule 0 rule)
  | readSucc {n : Nat} {rule : Rule} (h : Built (build (readRule n) rule)) :
      Built (readRule (n + 1) rule)

/-- A parser that is put together from steps and from what reads its sub-rules. -/
inductive Composed : {α : Type} → ((Rule → Parser Node) → Parser α) → Prop
  | step {α : Type} {x : Parser α} (h : Step x) : Composed fun _ => x
  | bind {α β : Type} {x : (Rule → Parser Node) → Parser α}
      {g : (Rule → Parser Node) → α → Parser β} (hx : Composed x)
      (hg : ∀ a, Composed fun sub => g sub a) : Composed fun sub => x sub >>= g sub
  | sub (rule : Rule) : Composed fun sub => sub rule

/-- A composed parser that does not succeed without taking a token, as long as no sub-rule does:
somewhere it takes one, or reads a sub-rule, whatever is done before and behind that. -/
inductive Taking : {α : Type} → ((Rule → Parser Node) → Parser α) → Prop
  | take {kinds : List TokenKind} (h : TokenKind.endOfInput ∉ kinds) : Taking fun _ => take kinds
  | sub (rule : Rule) : Taking fun sub => sub rule
  | bind {α β : Type} {x : (Rule → Parser Node) → Parser α}
      {g : (Rule → Parser Node) → α → Parser β} (hx : Taking x)
      (hg : ∀ a, Composed fun sub => g sub a) : Taking fun sub => x sub >>= g sub
  | behind {α β : Type} {x : (Rule → Parser Node) → Parser α}
      {g : (Rule → Parser Node) → α → Parser β} (hx : Composed x)
      (hg : ∀ a, Taking fun sub => g sub a) : Taking fun sub => x sub >>= g sub
  /-- A token that is accepted is taken, and only without one the rest has to take another. -/
  | accept {α : Type} {kind : TokenKind} {g : (Rule → Parser Node) → Bool → Parser α}
      (h : kind ≠ .endOfInput) (hyes : Composed fun sub => g sub true)
      (hno : Taking fun sub => g sub false) : Taking fun sub => accept kind >>= g sub

/-! ## How parsers are composed -/

namespace Composed

/-! ### Tokens -/

theorem pure (a : α) : Composed fun _ => (Pure.pure a : Parser α) := .step (.pure a)

theorem look : Composed fun _ => look := .step .look

theorem unexpected (kinds : List TokenKind) : Composed fun _ => (unexpected kinds : Parser α) :=
  .step (.unexpected kinds)

theorem ite {p : Prop} [Decidable p] {x y : (Rule → Parser Node) → Parser α} (hx : Composed x)
    (hy : Composed y) : Composed fun sub => if p then x sub else y sub := by
  by_cases h : p
  · simpa only [if_pos h] using hx
  · simpa only [if_neg h] using hy

theorem expect (kinds : List TokenKind) : Composed fun _ => expect kinds :=
  look.bind fun _ => ite (pure _) (unexpected _)

theorem take (kinds : List TokenKind) : Composed fun _ => take kinds :=
  (expect kinds).bind fun _ => (step .advance).bind fun _ => pure _

theorem accept (kind : TokenKind) : Composed fun _ => accept kind :=
  look.bind fun _ => ite ((step .advance).bind fun _ => pure _) (pure _)

theorem canStart (rule : Rule) : Composed fun _ => canStart rule := look.bind fun _ => pure _

theorem wrongNode (rule : Rule) : Composed fun _ => (wrongNode rule : Parser α) :=
  look.bind fun _ => step (.fail nofun)

/-- A fault that names the open declaration. -/
theorem failDeclaring {cause : Name → Cause} (h : ∀ n expected got offset length,
    cause n ≠ .unexpectedToken expected got offset length) :
    Composed fun _ => (Parser.declaring >>= fun n => fail (cause n) : Parser α) :=
  (step .declaring).bind fun n => step (.fail (h n))

/-! ### Loops -/

section Loops

variable {more : Parser Bool} {item : (Rule → Parser Node) → List α → Parser α}

variable (hm : Composed fun _ => more) (hi : ∀ before, Composed fun sub => item sub before)

include hm hi

theorem manyWithin :
    ∀ (n : Nat) (before : List α), Composed fun sub => manyWithin more (item sub) n before
  | 0, _ => pure _
  | n + 1, before =>
    hm.bind fun _ => ite ((hi before).bind fun a => manyWithin n (a :: before)) (pure _)

theorem many : Composed fun sub => many more (item sub) :=
  (step .tokensLeft).bind fun n => manyWithin hm hi n []

end Loops

/-! ### Questions and sub-rules -/

theorem moreTokens : Composed fun _ => moreTokens := look.bind fun _ => pure _

theorem moreParameters : Composed fun _ => moreParameters :=
  (accept _).bind fun _ => ite (pure _) ((expect _).bind fun _ => pure _)

theorem moreValues : Composed fun _ => moreValues :=
  (accept _).bind fun _ => ite (pure _) (canStart _)

/-- What is left of a sub-rule behind the reading of its node. -/
theorem ofNode (rule : Rule) (node : Node) : Composed fun _ =>
    (if h : node.rule = rule then Pure.pure (h ▸ node.output) else Parser.wrongNode rule :
      Parser rule.Output) := by
  by_cases h : node.rule = rule
  · simpa only [dif_pos h] using pure _
  · simpa only [dif_neg h] using wrongNode rule

theorem dispatch (rules : List Rule) : Composed fun sub => dispatch sub rules := by
  refine look.bind fun t => ?_
  cases rules.find? (·.canStart t.kind) with
  | some rule => exact .sub rule
  | none => exact unexpected _

theorem body : Composed body := by
  rw [funext body_eq]
  refine (dispatch _).bind fun node => ?_
  cases bodyOf? node with
  | some b => exact pure b
  | none => exact wrongNode _

end Composed

theorem Taking.composed {x : (Rule → Parser Node) → Parser α} (h : Taking x) : Composed x := by
  induction h with
  | take _ => exact Composed.take _
  | sub rule => exact .sub rule
  | bind _ hg hx => exact hx.bind hg
  | behind hx _ hg => exact hx.bind hg
  | accept _ hyes _ hno => exact (Composed.accept _).bind fun b => by cases b; exacts [hno, hyes]

namespace Taking

theorem ite {p : Prop} [Decidable p] {x y : (Rule → Parser Node) → Parser α} (hx : Taking x)
    (hy : Taking y) : Taking fun sub => if p then x sub else y sub := by
  by_cases h : p
  · simpa only [if_pos h] using hx
  · simpa only [if_neg h] using hy

theorem many1 {more : Parser Bool} {item : (Rule → Parser Node) → List α → Parser α}
    (hm : Composed fun _ => more) (hi : ∀ before, Taking fun sub => item sub before) :
    Taking fun sub => many1 more (item sub) :=
  (hi []).bind fun a => (Composed.step .tokensLeft).bind fun n =>
    Composed.manyWithin hm (fun before => (hi before).composed) n [a]

/-! ### Rules -/

open Composed (pure step)

theorem name : Taking fun _ => name := (take (by decide)).bind fun _ => pure _

theorem descend (rule : Rule) : Taking fun sub => descend sub rule :=
  (sub rule).bind fun node => .ofNode rule node

theorem operand : Taking fun _ => operand := by
  refine (take (by decide)).bind fun t => .ite ?_ (.ite (pure _) (step (.fail nofun)))
  exact (step (.resolveName _)).bind fun _ => pure _

theorem simpleType : Taking fun _ => simpleType := by
  have hwidth (t : Token) : Composed fun _ => widthOf t := by
    unfold widthOf
    exact .ite (pure _) (step (.fail nofun))
  refine (take (by decide)).bind fun _ => Composed.look.bind fun t => .ite ?_ (pure _)
  exact (step .advance).bind fun _ => (hwidth t).bind fun _ => pure _

theorem parameter : Taking fun _ => parameter :=
  name.bind fun _ => (step (.declareName _)).bind fun _ => pure _

theorem parameters : Taking fun _ => parameters :=
  (take (by decide)).bind fun _ => (many1 .moreParameters fun _ => parameter).composed.bind
    fun _ => (Composed.take _).bind fun _ => pure _

theorem comparison : Taking comparison :=
  (descend .operand).bind fun _ => (Composed.take _).bind fun _ =>
    (descend .operand).composed.bind fun _ => pure _

theorem term : Taking term := by
  refine .accept (by decide) ?_ (descend .comparison)
  exact (descend .disjunction).composed.bind fun _ => (Composed.take _).bind fun _ => pure _

theorem conjunction : Taking conjunction := many1 (.accept _) fun _ => descend .term

theorem disjunction : Taking disjunction := many1 (.accept _) fun _ => descend .conjunction

theorem condition : Taking condition :=
  .accept (by decide) (pure _) ((descend .disjunction).bind fun _ => pure _)

theorem values : Taking values :=
  (take (by decide)).bind fun _ => (many1 .moreValues fun _ => descend .operand).composed.bind
    fun _ => (Composed.take _).bind fun _ => pure _

theorem target : Taking target := by
  refine .behind (.canStart _) fun _ => .ite ?_ ?_
  · exact .behind .look fun _ => (descend .simpleType).bind fun _ => pure _
  · exact name.bind fun _ => (step (.resolveType _)).bind fun _ => pure _

theorem reference : Taking reference := by
  refine target.bind fun _ => (Composed.canStart _).bind fun _ => .ite ?_ (pure _)
  exact (descend .values).composed.bind fun _ => .ite (pure _) (step (.fail nofun))

theorem field : Taking field :=
  name.bind fun _ => (descend .reference).composed.bind fun _ =>
    (step (.declareName _)).bind fun _ => pure _

theorem branch : Taking branch :=
  (descend .reference).bind fun _ => (Composed.take _).bind fun _ =>
    (descend .condition).composed.bind fun _ => (Composed.take _).bind fun _ => pure _

theorem fields : Taking fields :=
  (take (by decide)).bind fun _ => (many1 (.canStart _) fun _ => descend .field).composed.bind
    fun _ => (Composed.take _).bind fun _ => pure _

theorem sequence : Taking sequence := by
  refine (take (by decide)).bind fun _ => (Composed.canStart _).bind fun _ => .ite ?_ ?_
  · exact (descend .parameters).composed.bind fun _ => fields.composed.bind fun _ => pure _
  · exact (pure _).bind fun _ => fields.composed.bind fun _ => pure _

theorem array : Taking array := by
  refine (take (by decide)).bind fun _ => (descend .parameters).composed.bind fun ps => ?_
  have hfail : Composed fun _ => (Parser.declaring >>= fun n =>
      fail (.parameterCount n.text 1 ps.length n.offset) : Parser Body) := .failDeclaring nofun
  rcases ps with _ | ⟨_, _ | _⟩
  · exact hfail
  · exact fields.composed.bind fun _ => pure _
  · exact hfail

theorem nextBranch (before : List Branch) : Taking fun sub => nextBranch sub before := by
  refine (descend .branch).bind fun b => ?_
  cases defaultOffset? before with
  | none => exact pure b
  | some first =>
    cases b.condition.isDefault with
    | true => exact .failDeclaring nofun
    | false => exact pure b

theorem choice : Taking choice := by
  refine (take (by decide)).bind fun _ => (descend .parameters).composed.bind fun _ =>
    (Composed.take _).bind fun _ => (many1 (.canStart _) nextBranch).composed.bind fun _ =>
      (Composed.take _).bind fun _ => ?_
  exact .ite (.failDeclaring nofun) (pure _)

theorem declaration : Taking declaration :=
  name.bind fun n => (step (.ensureFree n)).bind fun _ => (Composed.take _).bind fun _ =>
    (step (.openDeclaration n)).bind fun _ => Composed.body.bind fun _ =>
      (step .closeDeclaration).bind fun _ => (step (.declareType n _)).bind fun _ =>
        (step (.record _)).bind fun _ => pure _

/-- **The function for a rule** is composed, and does not succeed without taking a token. -/
theorem build (rule : Rule) : Taking fun sub => build sub rule := by
  cases rule with
  | declaration => exact declaration.bind fun _ => pure _
  | simpleType => exact simpleType.bind fun _ => pure _
  | sequence => exact sequence.bind fun _ => pure _
  | array => exact array.bind fun _ => pure _
  | choice => exact choice.bind fun _ => pure _
  | parameters => exact parameters.bind fun _ => pure _
  | field => exact field.bind fun _ => pure _
  | reference => exact reference.bind fun _ => pure _
  | values => exact values.bind fun _ => pure _
  | branch => exact branch.bind fun _ => pure _
  | condition => exact condition.bind fun _ => pure _
  | disjunction => exact disjunction.bind fun _ => pure _
  | conjunction => exact conjunction.bind fun _ => pure _
  | term => exact term.bind fun _ => pure _
  | comparison => exact comparison.bind fun _ => pure _
  | operand => exact operand.bind fun _ => pure _

end Taking

/-! ## Reading rules -/

/-- What is composed is built from steps if its sub-rules are. -/
theorem Composed.built {x : (Rule → Parser Node) → Parser α} (h : Composed x)
    {sub : Rule → Parser Node} (hsub : ∀ rule, Built (sub rule)) : Built (x sub) := by
  induction h with
  | step h => exact .step h
  | bind _ _ hx hg => exact hx.bind hg
  | sub rule => exact hsub rule

namespace Built

/-- **The reading of any rule** is built from steps. -/
theorem readRule : ∀ (n : Nat) (rule : Rule), Built (readRule n rule)
  | 0, rule => readZero rule
  | n + 1, rule => readSucc ((Taking.build rule).composed.built (readRule n))

/-- **The reading of a text** is built from steps. -/
theorem declarations : Built declarations :=
  (Composed.many .moreTokens fun _ => (Taking.descend .declaration).composed).built
    (readRule nestingLimit)

end Built

end RecordSchema.Parser
