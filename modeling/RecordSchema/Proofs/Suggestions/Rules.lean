import RecordSchema.Proofs.Suggestions.Runs

/-!
# Rules that part at a token

Every rule takes what it begins with. A loop takes part in this with its question: where the two
runs answer it differently, the one that goes on takes the token as the first of an item. Only a
list of parameters asks in a way that lets both go on: what it expects behind a name is told before
the closing bracket is taken.

Results:
* `Awaits.manyWithin`, `Awaits.many1`: loops.
* `Awaits.rule`, `Awaits.dispatch`: the reading of a rule.
* `Awaits.readRule`: every rule decides.
* `Awaits.declarations`: the reading of a text.
-/

namespace RecordSchema

namespace Rule

theorem first_ne_nil (rule : Rule) : rule.first ≠ [] := by
  cases rule <;> decide

theorem first_nodup (rule : Rule) : rule.first.Nodup := by
  cases rule <;> decide

theorem mem_firstOfAny {rules : List Rule} {kind : TokenKind} :
    kind ∈ firstOfAny rules ↔ ∃ rule ∈ rules, kind ∈ rule.first := by
  rw [firstOfAny, List.mem_eraseDups, List.mem_flatMap]

end Rule

namespace Parser

open State

variable {α : Type} {f : Fork} {us : List Token} {s s' s₁ s₁' : State}

/-! ## Loops -/

namespace Awaits

section Loops

variable {more : Parser Bool} {item : List α → Parser α} {asked kinds : List TokenKind}
  {P : Bool → TokenKind → Prop} {Q : TokenKind → Prop} {n : Nat} {before : List α}

/-- A loop goes on as its turns do. -/
theorem manyWithin_onward (hm : Awaits f P asked more)
    (hi : ∀ before, Decides f kinds (item before)) {p : Token → Prop} :
    ∀ (n : Nat) (before : List α) {s : State}, (∀ t ∈ s.stream, p t) →
      Settles p (Parser.manyWithin more item n before s)
  | 0, _, _, hs => .ok hs
  | n + 1, before, s, hs => by
    refine (hm.onward hs).bind fun answer s₁ hs₁ => ?_
    cases answer with
    | false => exact .ok hs₁
    | true =>
      exact ((hi before).onward hs₁).bind fun a _ => manyWithin_onward hm hi n (a :: before)

/-- An item takes at least one of the tokens in front of the fork. -/
theorem item_shorter {rest : List Token} {a : α} {x : Parser α} (hx : Decides f kinds x)
    (hgate : Gated kinds x) (hs : s.Parted f us s') (hrun : x s = .ok a s₁)
    (hs₁ : s₁.Parted f rest s₁') (hsuffix : rest <:+ us) : rest.length < us.length := by
  refine Nat.lt_of_le_of_ne hsuffix.length_le fun heq => ?_
  obtain rfl := hsuffix.eq_of_length heq
  have hk : s.current.kind ∈ kinds := by
    by_contra hk
    obtain ⟨s₂, hfail⟩ := hgate s hk
    rw [hfail] at hrun
    cases hrun
  have hcommits := hx.commits hs.ordered hk
  rw [hrun] at hcommits
  obtain ⟨⟨ts, hstream⟩, ⟨ts₁, hstream₁⟩⟩ := And.intro hs.left hs₁.left
  have hcurrent : s.current ∈ s₁.stream := by
    rw [hstream₁]
    cases rest with
    | nil => simp [current_of_stream hstream]
    | cons u rest => simp [current_of_stream hstream]
  cases hcommits with
  | ok hpast => exact Nat.lt_irrefl _ (hpast _ hcurrent)

variable (hm : Awaits f P asked more) (hi : ∀ before, Decides f kinds (item before))
  (hgate : ∀ before, Gated kinds (item before)) (hyes : ∀ kind, P true kind → kind ∈ kinds)
  (hno : ∀ kind, P false kind → Q kind)

include hm hi hgate hyes hno

/-- **The turns of a loop** part as its items do. Neither run may end for want of turns before the
tokens in front of the fork are taken. -/
theorem manyWithin : ∀ (n n' : Nat) (before : List α) (us : List Token) (s s' : State),
    s.Parted f us s' → us.length < n → us.length < n' →
      Verdict f (fun _ => Q) us (Parser.manyWithin more item n before s)
        (Parser.manyWithin more item n' before s')
  | 0, _, _, _, _, _, _, hn, _ => absurd hn (Nat.not_lt_zero _)
  | _ + 1, 0, _, _, _, _, _, _, hn' => absurd hn' (Nat.not_lt_zero _)
  | n + 1, n' + 1, before, us, s, s', hs, hn, hn' => by
    have hread (n : Nat) {p : Token → Prop} {s : State} (h : Settles p (item before s)) :
        Settles p ((item before >>= fun a => Parser.manyWithin more item n (a :: before)) s) :=
      h.bind fun a _ => manyWithin_onward hm hi n (a :: before)
    have hturn (n : Nat) {p : Token → Prop} (answer : Bool) (s : State)
        (hs : ∀ t ∈ s.stream, p t) : Settles p ((if answer = true then item before >>= fun a =>
          Parser.manyWithin more item n (a :: before) else Pure.pure before.reverse) s) := by
      cases answer with
      | false => exact .ok hs
      | true => exact hread n ((hi before).onward hs)
    refine (hm.parts hs).bind (hturn n) (hturn n') ?_ ?_ ?_
    · intro answer s₁ s₁' rest _ hs₁ hsuffix
      cases answer with
      | false => exact .same hs₁ hsuffix
      | true =>
        refine Verdict.imp ?_ hsuffix fun _ _ => id
        refine ((hi before).parts hs₁).bind (fun a _ => manyWithin_onward hm hi n (a :: before))
          (fun a _ => manyWithin_onward hm hi n' (a :: before)) ?_ ?_ ?_
        · intro a s₂ s₂' rest' hrun hs₂ hsuffix'
          -- the item took a token in front of the fork, so that turns are left for the others
          have hshorter := item_shorter (hi before) (hgate before) hs₁ hrun hs₂ hsuffix'
          have hle := hsuffix.length_le
          exact (manyWithin n n' (a :: before) rest' s₂ s₂' hs₂ (by omega) (by omega)).imp
            hsuffix' fun _ _ => id
        · exact fun _ _ _ _ _ => False.elim
        · exact fun _ _ _ _ _ => False.elim
    · intro answer s₁ r' hs₁ hcurrent hP
      -- only the first run has answered: it takes the token with an item, or waits behind the loop
      cases answer with
      | false => exact .waitsLeft hs₁ hcurrent (hno _ hP)
      | true => exact .left (hread n (hcurrent ▸ (hi before).commits hs₁ (hcurrent ▸ hyes _ hP)))
    · intro answer s₁ r hs₁ hcurrent hP
      cases answer with
      | false => exact .waitsRight hs₁ hcurrent (hno _ hP)
      | true => exact .right (hread n' (hcurrent ▸ (hi before).commits hs₁ (hcurrent ▸ hyes _ hP)))

/-- The turns of a loop, as many as there are tokens. -/
theorem turns (before : List α) : Awaits f (fun _ => Q) []
    (tokensLeft >>= fun n => Parser.manyWithin more item n before) :=
  ⟨fun hs => manyWithin_onward hm hi _ before hs, fun _ hk => absurd hk List.not_mem_nil,
    fun hs => manyWithin hm hi hgate hyes hno _ _ before _ _ _ hs hs.length_lt.1 hs.length_lt.2⟩

/-- **A loop that begins with an item** takes what that begins with. -/
theorem many1 : Awaits f (fun _ => Q) kinds (Parser.many1 more item) :=
  (hi []).bind fun a => turns hm hi hgate hyes hno [a]

end Loops

end Awaits

/-! ## The reading of a rule -/

theorem Settles.shut {p : Token → Prop} {r : EStateM.Result Fault State α} (h : Settles p r) :
    Settles p (Parser.shut r) := by
  cases h with
  | ok hs => exact .ok hs
  | error h => exact .error h

theorem State.Ordered.opened (h : s.Ordered) (rule : Rule) : (s.opened rule).Ordered :=
  ⟨h.passComments.closed, h.passComments.increasing⟩

theorem State.Parted.opened (h : s.Parted f us s') (rule : Rule) :
    (s.opened rule).Parted f us (s'.opened rule) :=
  (h.passComments.record _ _).withDepth (congrArg (· + 1) h.depth)

theorem State.Parted.closed (h : s.Parted f us s') : s.closed.Parted f us s'.closed :=
  h.withDepth (congrArg (· - 1) h.depth)

/-- Closing the rule in both runs changes nothing at the fork. -/
theorem Verdict.shut {P : α → TokenKind → Prop} {r r' : EStateM.Result Fault State α}
    (h : Verdict f P us r r') : Verdict f P us (Parser.shut r) (Parser.shut r') := by
  cases h with
  | same hs hsuffix => exact .same hs.closed hsuffix
  | left h => exact .left h.shut
  | right h => exact .right h.shut
  | waitsLeft hs hcurrent hP => exact .waitsLeft ⟨hs.closed, hs.increasing⟩ hcurrent hP
  | waitsRight hs hcurrent hP => exact .waitsRight ⟨hs.closed, hs.increasing⟩ hcurrent hP
  | elsewhere h => exact .elsewhere h
  | refused h hright => exact .refused h hright

namespace Gated

theorem readRule (n : Nat) (rule : Rule) : Gated rule.first (Parser.readRule n rule) :=
  fun _ hk => ⟨_, readRule_of_not (decide_eq_false hk)⟩

theorem descend (n : Nat) (rule : Rule) : Gated rule.first (descend (Parser.readRule n) rule) :=
  (readRule n rule).bind _

end Gated

namespace Awaits

section Rules

variable {n : Nat}

/-- **A rule** takes what it begins with if the function for it does. -/
theorem rule {rule : Rule}
    (h : ∀ m, n = m + 1 → Decides f rule.first (reader (Parser.readRule m) rule)) :
    Decides f rule.first (Parser.readRule n rule) := by
  -- in a state where the rule can begin it is refused for its depth or read by the function
  have hdeep {s : State} (hk : s.current.kind ∈ rule.first)
      (hdepth : nestingLimit ≤ s.depth ∨ n = 0) :
      Parser.readRule n rule s = .error s.tooDeep s.passComments :=
    readRule_of_deep (decide_eq_true hk) hdepth
  have hother (s : State) : Other s.tooDeep.cause := nofun
  have hread {s : State} (hk : s.current.kind ∈ rule.first)
      (hdepth : ¬ (nestingLimit ≤ s.depth ∨ n = 0)) : ∃ x : Parser Node,
        Decides f rule.first x ∧ ∀ s' : State, s'.depth = s.depth → s'.current.kind ∈ rule.first →
          Parser.readRule n rule s' = shut (x (s'.opened rule)) := by
    obtain ⟨hlevel, hn⟩ := not_or.mp hdepth
    obtain ⟨m, rfl⟩ := Nat.exists_eq_add_one_of_ne_zero hn
    refine ⟨_, build_eq (Parser.readRule m) rule ▸ (h m rfl).map fun _ _ => id, ?_⟩
    intro s' hdepth' hk'
    exact readRule_of_level (decide_eq_true hk') (hdepth' ▸ Nat.lt_of_not_le hlevel)
  refine of_gated rule.first_ne_nil rule.first_nodup (.readRule n rule)
    (fun {p s} hs hk => ?_) (fun {s} hs hk => ?_) fun {u us s s'} hs hk => ?_
  · by_cases hdepth : nestingLimit ≤ s.depth ∨ n = 0
    · rw [hdeep hk hdepth]
      exact .error ((hother s).suggests p)
    · obtain ⟨x, hx, hrun⟩ := hread hk hdepth
      rw [hrun s rfl hk]
      exact (hx.onward (s := s.opened rule) (passComments_all hs)).shut
  · by_cases hdepth : nestingLimit ≤ s.depth ∨ n = 0
    · rw [hdeep hk hdepth]
      exact .error ((hother s).suggests _)
    · obtain ⟨x, hx, hrun⟩ := hread hk hdepth
      rw [hrun s rfl hk]
      exact (hx.commits (hs.opened rule) hk).shut
  · obtain ⟨hcurrent, hcurrent'⟩ := hs.current
    have hk : s.current.kind ∈ rule.first := hcurrent ▸ hk
    by_cases hdepth : nestingLimit ≤ s.depth ∨ n = 0
    · rw [hdeep hk hdepth]
      exact .of_other (hother s)
    · obtain ⟨x, hx, hrun⟩ := hread hk hdepth
      rw [hrun s rfl hk, hrun s' hs.depth (hcurrent' ▸ hcurrent ▸ hk)]
      exact (hx.parts (hs.opened rule)).shut

theorem descend {rule : Rule} (h : Decides f rule.first (Parser.readRule n rule)) :
    Decides f rule.first (descend (Parser.readRule n) rule) := by
  have hfound (node : Node) : Decides f [] (if h : node.rule = rule then
      Pure.pure (h ▸ node.output) else Parser.wrongNode rule : Parser rule.Output) := by
    split
    · exact pure _
    · exact wrongNode rule
  exact h.bind hfound

/-- **One of some rules** is read by the token, and what all of them begin with is expected. -/
theorem dispatch {rules : List Rule} (hne : Rule.firstOfAny rules ≠ [])
    (hnodup : (Rule.firstOfAny rules).Nodup)
    (h : ∀ rule ∈ rules, Decides f rule.first (Parser.readRule n rule)) :
    Decides f (Rule.firstOfAny rules) (dispatch (Parser.readRule n) rules) := by
  have hnone {s : State} (hk : s.current.kind ∉ Rule.firstOfAny rules) :
      rules.find? (·.canStart s.current.kind) = none := by
    refine List.find?_eq_none.mpr fun rule hrule hcan => hk ?_
    exact Rule.mem_firstOfAny.mpr ⟨rule, hrule, of_decide_eq_true hcan⟩
  have hread {kind : TokenKind} (hk : kind ∈ Rule.firstOfAny rules) : ∃ rule,
      Decides f rule.first (Parser.readRule n rule) ∧ kind ∈ rule.first ∧
        ∀ s : State, s.current.kind = kind → Parser.dispatch (Parser.readRule n) rules s =
          Parser.readRule n rule s.passComments := by
    obtain ⟨rule, hrule, hfirst⟩ := Rule.mem_firstOfAny.mp hk
    obtain ⟨found, hfound⟩ := Option.isSome_iff_exists.mp
      (List.find?_isSome (p := (·.canStart kind)).mpr ⟨rule, hrule, decide_eq_true hfirst⟩)
    refine ⟨found, h found (List.mem_of_find?_eq_some hfound),
      of_decide_eq_true (List.find?_some hfound :), ?_⟩
    rintro s rfl
    exact dispatch_of_find hfound
  refine of_gated hne hnodup (fun s hk => ⟨_, dispatch_of_none (hnone hk)⟩)
    (fun {p s} hs hk => ?_) (fun {s} hs hk => ?_) fun {u us s s'} hs hk => ?_
  · obtain ⟨rule, hrule, -, hrun⟩ := hread hk
    rw [hrun s rfl]
    exact hrule.onward (passComments_all hs)
  · obtain ⟨rule, hrule, hfirst, hrun⟩ := hread hk
    rw [hrun s rfl]
    exact hrule.commits hs.passComments hfirst
  · obtain ⟨hcurrent, hcurrent'⟩ := hs.current
    obtain ⟨rule, hrule, -, hrun⟩ := hread hk
    rw [hrun s (by rw [hcurrent]), hrun s' (by rw [hcurrent'])]
    exact hrule.parts hs.passComments

/-! ## Rules without sub-rules -/

theorem operand : Decides f Rule.operandStart operand := by
  refine (take (by decide)).bind fun t =>
    ite ?_ (ite (pure _) (fail nofun))
  exact (nominal (.resolveName _)).bind fun _ => pure _

/-- A width is never among what is expected, but one that touches the type is taken. -/
theorem simpleType : Decides f Rule.typeWords simpleType := by
  have hwidth (t : Token) : Decides f [] (widthOf t) := by
    unfold widthOf
    exact ite (pure _) (fail nofun)
  refine (take (by decide)).bind fun word =>
    skipIf (fun _ => []) (fun t ht => ?_) (fun t ht => absurd ht List.not_mem_nil)
      (fun t => (hwidth t).bind fun _ => pure _) (pure _)
  rw [ht.2.1]
  decide

theorem parameter : Decides f [.identifier] parameter :=
  name.bind fun n => (nominal (.declareName n)).bind fun _ => pure _

/-- Whether a parameter or the end of the list comes is asked without taking the token, and either
goes on from there. -/
theorem moreParameters : Awaits f (fun answer kind =>
    answer = true ∧ kind = .identifier ∨ answer = false ∧ kind = .rightSquare) []
    moreParameters := by
  have hcomma {s : State} (hk : s.current.kind = .comma) :
      Parser.moreParameters s = .ok true s.skip :=
    bind_of_ok (accept_ok.mpr (.inl ⟨hk, rfl, rfl⟩))
  have hother {s : State} (hk : s.current.kind ≠ .comma) : Parser.moreParameters s =
      (Parser.expect [.identifier, .comma, .rightSquare] >>= fun t =>
        Pure.pure (decide (t.kind ≠ .rightSquare))) s.passComments :=
    bind_of_ok (accept_ok.mpr (.inr ⟨hk, rfl, rfl⟩))
  have hwaits {s : State} (hk : s.current.kind = .identifier ∨ s.current.kind = .rightSquare) :
      Parser.moreParameters s = .ok (decide (s.current.kind ≠ .rightSquare))
        s.passComments.passComments := by
    rw [hother (by rcases hk with hk | hk <;> simp [hk])]
    exact bind_of_ok (expect_ok.mpr ⟨by rcases hk with hk | hk <;> simp [hk], rfl, rfl⟩)
  have hmem {kind : TokenKind} : kind ∈ [TokenKind.identifier, .comma, .rightSquare] ↔
      kind = .comma ∨ kind = .identifier ∨ kind = .rightSquare := by
    simp only [List.mem_cons, List.not_mem_nil, or_false]
    tauto
  have hgate : Gated [.identifier, .comma, .rightSquare] Parser.moreParameters := by
    intro s hk
    rw [hother fun hcomma => hk (hmem.mpr (.inl hcomma))]
    exact ⟨_, bind_of_error (expect_of_notMem hk)⟩
  refine of_gate (by decide) (by decide) hgate (fun {p s} hs hk => ?_)
    (fun _ hk => absurd hk List.not_mem_nil) (fun {s} hs hk => ?_) fun {u us s s'} hs hk => ?_
  · rcases hmem.mp hk with hk | hk
    · rw [hcomma hk]
      exact .ok (skip_all hs)
    · rw [hwaits hk]
      exact .ok (passComments_all (passComments_all hs))
  · rcases hmem.mp hk with hk | hk
    · rw [hcomma hk]
      exact .inl (.ok (hs.skip_past (by simp [hk])))
    · refine .inr ⟨_, _, hwaits hk, hs.passComments.passComments, rfl, ?_⟩
      rcases hk with hk | hk <;> simp [hk]
  · obtain ⟨hcurrent, hcurrent'⟩ := hs.current
    rcases hmem.mp hk with hk | hk
    · rw [hcomma (hcurrent ▸ hk), hcomma (hcurrent' ▸ hk)]
      exact .same hs.skip (List.suffix_cons _ _)
    · rw [hwaits (hcurrent ▸ hk), hwaits (hcurrent' ▸ hk), hcurrent, hcurrent']
      exact .same hs.passComments.passComments (List.suffix_refl _)

theorem parameters : Decides f [.leftSquare] parameters := by
  have hnames : Awaits f (fun _ kind => kind = .rightSquare) [.identifier]
      (Parser.many1 Parser.moreParameters fun _ => Parser.parameter) := by
    refine many1 moreParameters (fun _ => parameter) (fun _ => Gated.name.bind _) ?_ ?_
    · rintro kind (⟨-, rfl⟩ | ⟨h, -⟩)
      · exact List.mem_singleton_self _
      · exact absurd h (by decide)
    · rintro kind (⟨h, -⟩ | ⟨-, rfl⟩)
      · exact absurd h (by decide)
      · rfl
  refine (take (by decide)).bind fun _ => hnames.bind
    (fun _ => (take (by decide)).bind fun _ => pure _) ?_
  exact fun _ _ hk => List.mem_singleton.mpr hk

/-! ## Conditions -/

variable (h : ∀ rule, Decides f rule.first (Parser.readRule n rule))

include h

theorem comparison : Decides f Rule.operandStart (comparison (Parser.readRule n)) :=
  (descend (h .operand)).bind fun _ => (take (by decide)).bind fun _ =>
    (descend (h .operand)).bind fun _ => pure _

theorem term : Decides f Rule.termStart (term (Parser.readRule n)) :=
  accept_bind (by decide)
    ((descend (h .disjunction)).bind fun _ =>
      (take (by decide)).bind fun _ => pure _)
    (descend (h .comparison))

/-- Terms or conjunctions with a connective between them. -/
theorem connective (rule : Rule) {kind : TokenKind} (hkind : kind ≠ .endOfInput) :
    Decides f rule.first
      (Parser.many1 (Parser.accept kind) fun _ => Parser.descend (Parser.readRule n) rule) :=
  many1 (accept hkind) (fun _ => descend (h rule)) (fun _ => .descend n rule)
    (fun _ => False.elim) fun _ => id

theorem condition : Decides f Rule.condition.first (condition (Parser.readRule n)) :=
  accept_bind (by decide) (pure _) ((descend (h .disjunction)).bind fun _ => pure _)

/-! ## Members -/

theorem values : Decides f [.leftSquare] (values (Parser.readRule n)) := by
  have hmore : Awaits f (fun answer kind => answer = true ∧ kind ∈ Rule.operandStart) [.comma]
      Parser.moreValues :=
    accept_bind (by decide) (pure _) (canStart .operand)
  have hvalues : Decides f Rule.operandStart
      (Parser.many1 moreValues fun _ => Parser.descend (Parser.readRule n) .operand) :=
    many1 hmore (fun _ => descend (h .operand)) (fun _ => .descend n .operand)
      (fun _ ⟨_, hk⟩ => hk) fun _ ⟨ha, _⟩ => absurd ha (by decide)
  exact (take (by decide)).bind fun _ => hvalues.bind fun _ =>
    (take (by decide)).bind fun _ => pure _

theorem target : Decides f Rule.reference.first (target (Parser.readRule n)) := by
  show Decides f (Rule.simpleType.first ++ [.identifier]) _
  refine canStart_bind ?_ (name.bind fun _ => (nominal (.resolveType _)).bind fun _ => pure _)
  exact look_bind (by decide) (by decide) (fun _ => (Gated.descend n .simpleType).bind _)
    fun _ => (descend (h .simpleType)).bind fun _ => pure _

theorem reference : Decides f Rule.reference.first (reference (Parser.readRule n)) :=
  (target h).bind fun _ =>
    canStart_bind ((descend (h .values)).bind fun _ => ite (pure _) (fail nofun)) (pure _)

theorem field : Decides f [.identifier] (field (Parser.readRule n)) :=
  name.bind fun _ => (descend (h .reference)).bind fun _ =>
    (nominal (.declareName _)).bind fun _ => pure _

theorem branch : Decides f Rule.branch.first (branch (Parser.readRule n)) :=
  (descend (h .reference)).bind fun _ =>
    (take (by decide)).bind fun _ =>
      (descend (h .condition)).bind fun _ =>
        (take (by decide)).bind fun _ => pure _

/-! ## Bodies -/

theorem fields : Decides f [.leftCurly] (fields (Parser.readRule n)) := by
  have hfields : Decides f [.identifier] (Parser.many1 (Parser.canStart .field) fun _ =>
      Parser.descend (Parser.readRule n) .field) :=
    many1 (canStart .field) (fun _ => descend (h .field)) (fun _ => .descend n .field)
      (fun _ ⟨_, hk⟩ => hk) fun _ ⟨ha, _⟩ => absurd ha (by decide)
  exact (take (by decide)).bind fun _ => hfields.bind fun _ =>
    (take (by decide)).bind fun _ => pure _

theorem sequence : Decides f [.sequence] (sequence (Parser.readRule n)) := by
  have hfields (ps : List Name) : Decides f [.leftCurly]
      (Parser.fields (Parser.readRule n) >>= fun fs => Pure.pure (Body.sequence ps fs)) :=
    (fields h).bind fun _ => pure _
  exact (take (by decide)).bind fun _ =>
    canStart_bind ((descend (h .parameters)).bind hfields) (Decides.bind (pure []) hfields)

theorem array : Decides f [.array] (array (Parser.readRule n)) := by
  refine (take (by decide)).bind fun _ =>
    (descend (h .parameters)).bind (l := fun _ => [.leftCurly]) fun ps => ?_
  split
  · exact (fields h).bind fun _ => pure _
  · exact failDeclaring nofun

theorem nextBranch (before : List Branch) :
    Decides f Rule.branch.first (nextBranch (Parser.readRule n) before) := by
  refine (descend (h .branch)).bind (l := fun _ => []) fun b => ?_
  split
  · exact failDeclaring nofun
  · exact pure _

theorem choice : Decides f [.choice] (choice (Parser.readRule n)) := by
  have hbranches : Decides f Rule.branch.first
      (Parser.many1 (Parser.canStart .branch) (Parser.nextBranch (Parser.readRule n))) :=
    many1 (canStart .branch) (nextBranch h) (fun _ => (Gated.descend n .branch).bind _)
      (fun _ ⟨_, hk⟩ => hk) fun _ ⟨ha, _⟩ => absurd ha (by decide)
  exact (take (by decide)).bind fun _ =>
    (descend (h .parameters)).bind fun _ =>
      (take (by decide)).bind fun _ => hbranches.bind fun _ =>
        (take (by decide)).bind fun _ =>
          ite (failDeclaring nofun) (pure _)

theorem body : Decides f (Rule.firstOfAny Rule.bodies) (body (Parser.readRule n)) := by
  rw [body_eq]
  refine (dispatch (by decide) (by decide) fun rule _ => h rule).bind (l := fun _ => [])
    fun node => ?_
  split
  · exact pure _
  · exact wrongNode _

theorem declaration : Decides f [.identifier] (declaration (Parser.readRule n)) :=
  name.bind fun n => (nominal (.ensureFree n)).bind fun _ =>
    (take (by decide)).bind fun _ => (nominal (.openDeclaration n)).bind fun _ =>
      (body h).bind fun _ => (nominal .closeDeclaration).bind fun _ =>
        (nominal (.declareType n _)).bind fun _ => (record _).bind fun _ => pure _

omit h

/-- **Every rule** takes what it begins with, and does the same in both runs in front of the fork
until one of them decides about the token there. -/
theorem readRule (n : Nat) (rule : Rule) : Decides f rule.first (Parser.readRule n rule) := by
  induction n generalizing rule with
  | zero => exact Awaits.rule fun m hm => absurd hm (Nat.succ_ne_zero m).symm
  | succ n h =>
    refine Awaits.rule fun m hm => ?_
    obtain rfl := Nat.succ.inj hm
    cases rule with
    | declaration => exact declaration h
    | simpleType => exact simpleType
    | sequence => exact sequence h
    | array => exact array h
    | choice => exact choice h
    | parameters => exact parameters
    | field => exact field h
    | reference => exact reference h
    | values => exact values h
    | branch => exact branch h
    | condition => exact condition h
    | disjunction => exact connective h .conjunction (by decide)
    | conjunction => exact connective h .term (by decide)
    | term => exact term h
    | comparison => exact comparison h
    | operand => exact operand

/-- **The reading of a text** does so too. A run that is at the end of input waits, and ends. -/
theorem declarations : Awaits f (fun _ kind => kind = .endOfInput) [] declarations := by
  have hmore : Awaits f (fun answer kind => answer = false ∧ kind = .endOfInput) [] moreTokens := by
    refine look_pure fun t t' => ?_
    by_cases h : t.kind = .endOfInput
    · exact .inl ⟨decide_eq_false (not_not_intro h), h⟩
    · by_cases h' : t'.kind = .endOfInput
      · exact .inr (.inl ⟨decide_eq_false (not_not_intro h'), h'⟩)
      · exact .inr (.inr ((decide_eq_true h).trans (decide_eq_true h').symm))
  exact turns hmore (fun _ => descend (readRule nestingLimit .declaration))
    (fun _ => .descend nestingLimit .declaration) (fun _ ⟨ha, _⟩ => absurd ha (by decide))
    (fun _ ⟨_, hk⟩ => hk) []

end Rules

end Awaits

end Parser

end RecordSchema
