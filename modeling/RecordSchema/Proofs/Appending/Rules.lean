import RecordSchema.Proofs.Appending.Runs

/-!
# Rules over a longer text

No rule is told anything by the text behind its last token, except that some look at the token after
it: a list of terms or fields may go on, and a type may have values. These are the rules that
`looksOn`; what stands around them needs a token behind, so that a body and a declaration are read
to their end or not at all. A built-in type looks for a width, but one beyond the text does not
touch it.

Results:
* `Follows.simpleType`: a type without a width has none in a longer text either.
* `Follows.readRule`: all rules do the same over a longer text.
-/

namespace RecordSchema

/-- The rules that look at the token behind their last one. -/
def Rule.looksOn (rule : Rule) : Bool :=
  rule ∈ [.field, .reference, .condition, .disjunction, .conjunction]

namespace Parser

open State

variable {m : Margin} {isOpen : Prop}

namespace Ends

variable {n : Nat}

theorem name : Ends m isOpen name := (take (by decide)).bind

theorem parameter : Ends m isOpen parameter := name.bind

theorem moreValues : Ends m True moreValues :=
  (accept (by decide)).bind_open fun _ => .ite (pure _) (canStart _)

theorem moreParameters : Ends m True moreParameters :=
  (accept (by decide)).bind_open fun _ => .ite (pure _) (expect (by decide)).bind

theorem fields : Ends m isOpen (fields (Parser.readRule n)) := (take (by decide)).bind

theorem nextBranch (before : List Branch) :
    Ends m isOpen (nextBranch (Parser.readRule n) before) :=
  (descend n .branch).bind

end Ends

namespace Follows

/-! ## Rules without sub-rules -/

theorem operand : Follows m False 1 operand := by
  refine (take (by decide)).bind fun t => .ite ?_ (.ite (pure _) (fail _))
  exact (resolveName _).bind fun _ => pure _

/-- A fault that names the open declaration. -/
theorem fail_declaring {α : Type} {k : Nat} (cause : Name → Cause) :
    Follows m isOpen k (Parser.declaring >>= fun n => Parser.fail (cause n) : Parser α) :=
  (declaring.bind_all (fun n => fail (cause n)) False.elim).imp id (Nat.le_add_left k 0)

theorem widthOf (t : Token) : Follows m False 0 (widthOf t) := by
  unfold Parser.widthOf
  exact .ite (pure _) (fail _)

/-- **A type without a width has none in a longer text either**: what follows the text does not
touch the type. -/
theorem simpleType : Follows m False 1 simpleType := by
  refine of_ahead (.bind (.take (by decide))) fun word us s s' hs => ?_
  obtain ⟨hcurrent, hcurrent'⟩ := hs.current
  by_cases hk : word.kind ∈ Rule.typeWords
  · have hskip := hs.skip
    rw [Parser.simpleType, bind_of_ok (take_ok.mpr ⟨hcurrent ▸ hk, hcurrent.symm, rfl⟩),
      bind_of_ok (take_ok.mpr ⟨hcurrent' ▸ hk, hcurrent'.symm, rfl⟩)]
    have hlook (s : State) (g : Token → Parser SimpleType) :
        (Parser.look >>= g) s = g s.current s.passComments := rfl
    rw [hlook, hlook]
    cases us with
    | nil =>
      obtain ⟨t, ts, hmore⟩ := List.exists_cons_of_ne_nil m.goesOn
      have hend : s.skip.current.kind ≠ .width := by
        rw [hskip.atEnd.kind]
        decide
      have hbeyond : s'.skip.current.offset ≠ word.stop := by
        have hlimit := (hs.inner word List.mem_cons_self).2
        have hoffset := m.beyond t (hmore ▸ List.mem_cons_self)
        rw [current_of_stream (hskip.longer.trans hmore)]
        omega
      rw [if_neg fun hw => hend hw.2.1, if_neg fun hw => hbeyond hw.2.2]
      exact .same hskip.passComments (Nat.le_refl _)
    | cons t us =>
      obtain ⟨ht, ht'⟩ := hskip.current
      rw [ht, ht']
      split
      · have hwidth : Follows m False 0 (Parser.widthOf t >>= fun w =>
            Pure.pure (SimpleType.mk (builtinOf word.kind) (some w))) := (widthOf t).map _
        exact (hwidth _ _ _ hskip.skip).imp id fun l hl => by simp only [List.length_cons]; omega
      · exact .same hskip.passComments (Nat.le_refl _)
  · rw [Parser.simpleType, bind_of_error (take_of_notMem (hcurrent ▸ hk)),
      bind_of_error (take_of_notMem (hcurrent' ▸ hk)), hs.unexpected]
    exact .fault

theorem parameter : Follows m False 1 parameter :=
  name.bind fun n => (declareName n).bind fun _ => pure _

theorem moreParameters : Follows m True 0 moreParameters := by
  refine (accept (by decide)).bind_open (fun answer => .ite (pure _) ?_) fun answer =>
    .ite (.pure _) (Ends.expect (by decide)).bind
  exact ((expect (by decide)).bind fun _ => pure _)

theorem parameters : Follows m False 1 parameters := by
  have hnames : Follows m True 1 (Parser.many1 Parser.moreParameters fun _ => Parser.parameter) :=
    many1 moreParameters .moreParameters (fun _ => parameter.toOpen) fun _ => .parameter
  exact (take (by decide)).bind fun _ => hnames.bind_open
    (fun _ => (take (by decide)).bind fun _ => pure _) fun _ => (Ends.take (by decide)).bind

variable {n : Nat} (h : ∀ rule, Follows m (rule.looksOn = true) 1 (readRule n rule))

include h

/-- A rule that does not look on. -/
theorem settled {rule : Rule} (hrule : rule.looksOn = false) :
    Follows m False 1 (Parser.descend (readRule n) rule) :=
  descend ((h rule).imp (fun hlooks => absurd (hlooks.symm.trans hrule) (by decide))
    (Nat.le_refl 1))

/-- Any rule. -/
theorem looking (rule : Rule) : Follows m True 1 (Parser.descend (readRule n) rule) :=
  descend ((h rule).imp (fun _ => trivial) (Nat.le_refl 1))

/-! ## Conditions -/

theorem comparison : Follows m False 1 (comparison (readRule n)) := by
  have hoperand : Follows m False 1 (Parser.descend (readRule n) .operand) := settled h (by decide)
  exact hoperand.bind fun _ => (take (by decide)).bind fun _ => hoperand.bind fun _ => pure _

theorem term : Follows m False 1 (term (readRule n)) := by
  have hgroup : Follows m False 1 (Parser.descend (readRule n) .disjunction >>= fun alternatives =>
      Parser.take [.and, .or, .rightParen] >>= fun _ => Pure.pure (Term.group alternatives)) :=
    (looking h .disjunction).bind_open (fun _ => (take (by decide)).bind fun _ => pure _)
      fun _ => (Ends.take (by decide)).bind
  exact accept_bind (by decide) (hgroup.imp id (Nat.zero_le 1)) (settled h (by decide))
    (Ends.descend n _).bind (Ends.descend n _)

theorem conjunction : Follows m True 1 (conjunction (readRule n)) :=
  many1 (accept (by decide)) (.accept (by decide)) (fun _ => looking h .term)
    fun _ => .descend n .term

theorem disjunction : Follows m True 1 (disjunction (readRule n)) :=
  many1 (accept (by decide)) (.accept (by decide)) (fun _ => looking h .conjunction)
    fun _ => .descend n .conjunction

theorem condition : Follows m True 1 (condition (readRule n)) :=
  accept_bind (by decide) (pure _) ((looking h .disjunction).map _) (.pure _)
    (Ends.descend n .disjunction).bind

/-! ## Members -/

theorem values : Follows m False 1 (values (readRule n)) := by
  have hmore : Follows m True 0 moreValues :=
    (accept (by decide)).bind_open (fun _ => .ite (pure _) (canStart _))
      fun _ => .ite (.pure _) (.canStart _)
  have hvalues : Follows m True 1
      (Parser.many1 moreValues fun _ => Parser.descend (readRule n) .operand) :=
    many1 hmore .moreValues (fun _ => looking h .operand) fun _ => .descend n .operand
  exact (take (by decide)).bind fun _ => hvalues.bind_open
    (fun _ => (take (by decide)).bind fun _ => pure _) fun _ => (Ends.take (by decide)).bind

theorem target : Follows m False 1 (target (readRule n)) := by
  refine (canStart _).open_bind (fun answer => .ite ?_ ?_) fun answer => .ite ?_ ?_
  · exact bind_look (Ends.look.bind_open fun _ => (Ends.descend n _).bind)
      fun _ => (settled h (by decide)).bind fun _ => pure _
  · exact name.bind fun _ => (resolveType _).bind fun _ => pure _
  · exact Ends.look.bind_open fun _ => (Ends.descend n _).bind
  · exact Ends.name.bind

theorem reference : Follows m True 1 (reference (readRule n)) := by
  refine (target h).bind fun found => (canStart _).bind_open (fun answer => .ite ?_ (pure _))
    fun answer => .ite (Ends.descend n .values).bind (.pure _)
  exact ((settled h (by decide)).bind fun _ => .ite (pure _) (fail _)).imp id (Nat.zero_le 1)

theorem field : Follows m True 1 (field (readRule n)) :=
  name.bind fun _ => (looking h .reference).bind_open
    (fun _ => (declareName _).bind fun _ => pure _)
    fun _ => (Ends.declareName _).bind_open fun _ => .pure _

theorem branch : Follows m False 1 (branch (readRule n)) :=
  (looking h .reference).bind_open
    (fun _ => (take (by decide)).bind fun _ => (looking h .condition).bind_open
      (fun _ => (take (by decide)).bind fun _ => pure _) fun _ => (Ends.take (by decide)).bind)
    fun _ => (Ends.take (by decide)).bind

/-! ## Bodies -/

theorem fields : Follows m False 1 (fields (readRule n)) := by
  have hfields : Follows m True 1
      (Parser.many1 (Parser.canStart .field) fun _ => Parser.descend (readRule n) .field) :=
    many1 (canStart _) (.canStart _) (fun _ => looking h .field) fun _ => .descend n .field
  exact (take (by decide)).bind fun _ => hfields.bind_open
    (fun _ => (take (by decide)).bind fun _ => pure _) fun _ => (Ends.take (by decide)).bind

theorem sequence : Follows m False 1 (sequence (readRule n)) := by
  have hparameters : Follows m False 1 (Parser.descend (readRule n) .parameters) :=
    settled h (by decide)
  have hfields (ps : List Name) : Follows m False 1
      (Parser.fields (readRule n) >>= fun fs => Pure.pure (Body.sequence ps fs)) :=
    (fields h).map _
  exact (take (by decide)).bind fun _ => (canStart _).open_bind
    (fun answer => .ite (hparameters.bind hfields)
      ((pure _).toOpen.open_bind hfields fun _ => Ends.fields.bind))
    fun answer => .ite (Ends.descend n _).bind ((Ends.pure _).bind_open fun _ => Ends.fields.bind)

theorem array : Follows m False 1 (array (readRule n)) := by
  have hparameters : Follows m False 1 (Parser.descend (readRule n) .parameters) :=
    settled h (by decide)
  refine (take (by decide)).bind (l := 1) fun _ => hparameters.bind (l := 1) fun ps => ?_
  split
  · exact (fields h).map _
  · exact fail_declaring _

theorem nextBranch (before : List Branch) :
    Follows m False 1 (nextBranch (readRule n) before) := by
  have hbranch : Follows m False 1 (Parser.descend (readRule n) .branch) := settled h (by decide)
  refine hbranch.bind (l := 0) fun b => ?_
  split
  · exact fail_declaring _
  · exact pure _

theorem choice : Follows m False 1 (choice (readRule n)) := by
  have hparameters : Follows m False 1 (Parser.descend (readRule n) .parameters) :=
    settled h (by decide)
  have hbranches : Follows m True 1
      (Parser.many1 (Parser.canStart .branch) (Parser.nextBranch (readRule n))) :=
    many1 (canStart _) (.canStart _) (fun before => (nextBranch h before).toOpen)
      fun before => .nextBranch before
  exact (take (by decide)).bind fun _ => hparameters.bind fun _ => (take (by decide)).bind fun _ =>
    hbranches.bind_open
      (fun _ => (take (by decide)).bind fun _ => .ite (fail_declaring _) (pure _))
      fun _ => (Ends.take (by decide)).bind

omit h in
/-- The node of a body gives one. -/
theorem bodyOf?_of_dispatch {node : Node} {s s' : State}
    (hnode : Parser.dispatch (readRule n) Rule.bodies s = .ok node s') :
    ∃ b, bodyOf? node = some b := by
  obtain ⟨rule, hfind, hread⟩ := dispatch_ok.mp hnode
  obtain ⟨rule', out⟩ := node
  obtain rfl := rule_readRule hread
  have hmem := List.mem_of_find?_eq_some hfind
  simp only [Rule.bodies, List.mem_cons, List.not_mem_nil, or_false] at hmem
  rcases hmem with rfl | rfl | rfl | rfl <;> exact ⟨_, rfl⟩

theorem body : Follows m False 1 (body (readRule n)) := by
  have hbodies : ∀ rule ∈ Rule.bodies, rule.looksOn = false := by decide
  have hdispatch : Follows m False 1 (Parser.dispatch (readRule n) Rule.bodies) :=
    dispatch fun rule hrule => (h rule).imp
      (fun hlooks => absurd (hlooks.symm.trans (hbodies rule hrule)) (by decide)) (Nat.le_refl 1)
  rw [body_eq]
  refine hdispatch.bind_known (l := 0) bodyOf?_of_dispatch (fun node hnode => ?_) False.elim
  obtain ⟨b, hb⟩ := hnode
  rw [hb]
  exact pure b

theorem declaration : Follows m False 1 (declaration (readRule n)) :=
  name.bind fun name => (ensureFree name).bind fun _ => (take (by decide)).bind fun _ =>
    (openDeclaration name).bind fun _ => (body h).bind fun _ => closeDeclaration.bind fun _ =>
      (declareType name _).bind fun _ => (record _).bind fun _ => pure _

omit h

/-- **All rules do the same over a longer text**, but for the end of those that look on. -/
theorem readRule : ∀ (n : Nat) (rule : Rule),
    Follows m (rule.looksOn = true) 1 (Parser.readRule n rule)
  | 0, rule => readRule_zero rule
  | n + 1, rule => by
    have h := readRule n
    have hsettled {x : Parser rule.Output} (hx : Follows m False 1 x) :
        Follows m (rule.looksOn = true) 1 x := hx.imp False.elim (Nat.le_refl 1)
    refine readRule_succ ?_
    cases rule with
    | declaration => exact hsettled (declaration h)
    | simpleType => exact hsettled simpleType
    | sequence => exact hsettled (sequence h)
    | array => exact hsettled (array h)
    | choice => exact hsettled (choice h)
    | parameters => exact hsettled parameters
    | values => exact hsettled (values h)
    | branch => exact hsettled (branch h)
    | term => exact hsettled (term h)
    | comparison => exact hsettled (comparison h)
    | operand => exact hsettled operand
    | field => exact (field h).imp (fun _ => rfl) (Nat.le_refl 1)
    | reference => exact (reference h).imp (fun _ => rfl) (Nat.le_refl 1)
    | condition => exact (condition h).imp (fun _ => rfl) (Nat.le_refl 1)
    | disjunction => exact (disjunction h).imp (fun _ => rfl) (Nat.le_refl 1)
    | conjunction => exact (conjunction h).imp (fun _ => rfl) (Nat.le_refl 1)

end Follows

end Parser

end RecordSchema
