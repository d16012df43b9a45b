import RecordSchema.Proofs.Log.Basic

/-!
# What each rule tells

Every rule but that of a declaration tells the derivation of what it reads: the rules that begin in
it are those of the node, in the same order. There is a lemma for the function of each rule, given
that its sub-rules tell theirs, and the loop over the levels is closed by induction on them.

Result:
* `Tells.rule`: a rule inside a declaration tells the derivation of what it reads.
-/

namespace RecordSchema.Parser.Tells

variable {sub : Rule → Parser Node}

/-! ## Rules without others inside -/

theorem operand : TellsRule sub .operand := by
  refine (Silent.take _).bind fun t => ite (fun _ => ?_) fun _ => ?_
  · exact (Silent.resolveName _).bind fun _ => pure rfl
  · exact ite (fun _ => pure rfl) fun _ => fail _

theorem simpleType : TellsRule sub .simpleType := by
  refine (Silent.take _).bind fun word => perhaps_pass (fun t => ?_) fun _ => pure rfl
  have hwidth : Silent (widthOf t) := ite (fun _ => pure rfl) fun _ => fail _
  exact hwidth.bind fun _ => pure rfl

theorem parameters : TellsRule sub .parameters := by
  have hparameter : Tells parameter fun _ rs => rs = [] :=
    Silent.name.bind fun n => (Silent.declareName n).bind fun _ => pure rfl
  have hmore : Silent moreParameters := by
    refine (Silent.accept _).bind fun answer => ite (fun _ => pure rfl) fun _ => ?_
    exact (Silent.expect _).bind fun _ => pure rfl
  refine (Silent.take _).bind fun _ => ?_
  refine (many1 (w := fun _ => []) hmore fun _ => hparameter).bind fun names rs hrs => ?_
  refine (Silent.take _).bind fun _ => pure ?_
  obtain ⟨hne, rfl⟩ := hrs
  simp [Rule.derivation, parametersRules, hne]

/-! ## Conditions -/

variable (h : ∀ rule, rule ≠ .declaration → Tells (sub rule) fun node rs => rs = node.derivation)

include h

theorem comparison : TellsRule sub .comparison := by
  have hoperand := descend (h .operand (by decide))
  refine hoperand.bind fun left ls hls => (Silent.take _).bind fun t => ?_
  refine hoperand.bind fun right rs hrs => pure ?_
  rw [hls, hrs]
  rfl

theorem term : TellsRule sub .term := by
  refine (Silent.accept _).bind fun answer => ite (fun _ => ?_) fun _ => ?_
  · refine (descend (h .disjunction (by decide))).bind fun d rs hrs => ?_
    refine (Silent.take _).bind fun _ => pure ?_
    rw [hrs]
    simp [Rule.derivation, Term.rules, Disjunction.rules]
  · refine (descend (h .comparison (by decide))).mono fun t rs hrs => ?_
    rw [hrs]
    exact (Term.rules_eq t).symm

theorem conjunction : TellsRule sub .conjunction := by
  have hterm := descend (h .term (by decide))
  refine (many1 (Silent.accept _) fun _ => hterm).mono fun c rs hrs => ?_
  rw [hrs.2]
  exact congrArg _ (Conjunction.parts_eq c).symm

theorem disjunction : TellsRule sub .disjunction := by
  have hconjunction := descend (h .conjunction (by decide))
  refine (many1 (Silent.accept _) fun _ => hconjunction).mono fun d rs hrs => ?_
  rw [hrs.2]
  exact congrArg _ (Disjunction.parts_eq d).symm

theorem condition : TellsRule sub .condition := by
  refine (Silent.accept _).bind fun answer => ite (fun _ => pure rfl) fun _ => ?_
  refine (descend (h .disjunction (by decide))).bind fun d rs hrs => pure ?_
  rw [hrs, List.append_nil]
  rfl

/-! ## Members -/

theorem values : TellsRule sub .values := by
  have hmore : Silent moreValues :=
    (Silent.accept _).bind fun answer => ite (fun _ => pure rfl) fun _ => Silent.canStart _
  have hoperand := descend (h .operand (by decide))
  refine (Silent.take _).bind fun _ => (many1 hmore fun _ => hoperand).bind fun vs rs hrs => ?_
  refine (Silent.take _).bind fun _ => pure ?_
  rw [hrs.2, List.append_nil]
  exact congrArg _ (List.flatMap_pure_eq_map _ vs)

/-- A type by its name: of the two kinds one has a rule. -/
theorem target : Tells (Parser.target sub) fun found rs => rs = found.2.1.rules := by
  refine (Silent.canStart _).bind fun answer => ite (fun _ => ?_) fun _ => ?_
  · refine Silent.look.bind fun _ => ?_
    refine (descend (h .simpleType (by decide))).bind fun type rs hrs => pure ?_
    rw [hrs]
    rfl
  · exact Silent.name.bind fun _ => (Silent.resolveType _).bind fun _ => pure rfl

theorem reference : TellsRule sub .reference := by
  refine (target h).bind fun found rs hrs => ?_
  refine (Silent.canStart _).bind fun answer => ite (fun _ => ?_) fun _ => pure ?_
  · refine (descend (h .values (by decide))).bind fun vs rs' hrs' => ?_
    refine ite (fun _ => pure ?_) fun _ => fail _
    rw [hrs, hrs', List.append_nil]
    rfl
  · rw [hrs]
    rfl

theorem field : TellsRule sub .field := by
  refine Silent.name.bind fun n => ?_
  refine (descend (h .reference (by decide))).bind fun r rs hrs => ?_
  refine (Silent.declareName n).bind fun _ => pure ?_
  rw [hrs, List.append_nil]
  rfl

theorem branch : TellsRule sub .branch := by
  refine (descend (h .reference (by decide))).bind fun r rs hrs => (Silent.take _).bind fun _ => ?_
  refine (descend (h .condition (by decide))).bind fun c rs' hrs' => ?_
  refine (Silent.take _).bind fun _ => pure ?_
  rw [hrs, hrs', List.append_nil]
  rfl

/-! ## Bodies -/

theorem fields : Tells (Parser.fields sub) fun fs rs => rs = fs.flatMap Field.rules := by
  have hfield := descend (h .field (by decide))
  refine (Silent.take _).bind fun _ => ?_
  refine (many1 (Silent.canStart _) fun _ => hfield).bind fun fs rs hrs => ?_
  refine (Silent.take _).bind fun _ => pure ?_
  rw [hrs.2, List.append_nil]
  rfl

theorem sequence : TellsRule sub .sequence := by
  have hfields := fields h
  refine (Silent.take _).bind fun _ => (Silent.canStart _).bind fun answer => ?_
  refine ite (fun _ => ?_) fun _ => ?_
  · refine (descend (h .parameters (by decide))).bind fun ps rs hrs => ?_
    refine hfields.bind fun fs rs' hrs' => pure ?_
    rw [hrs, hrs', List.append_nil]
    rfl
  · have hnone : Tells (Pure.pure [] : Parser (List Name)) fun ps rs => ps = [] ∧ rs = [] :=
      pure ⟨rfl, rfl⟩
    refine hnone.bind fun ps rs hrs => hfields.bind fun fs rs' hrs' => pure ?_
    rw [hrs.1, hrs.2, hrs', List.append_nil]
    rfl

theorem array : TellsRule sub .array := by
  refine (Silent.take _).bind fun _ => ?_
  refine (descend (h .parameters (by decide))).bind fun ps rs hrs => ?_
  split
  · refine (fields h).bind fun fs rs' hrs' => pure ?_
    rw [hrs, hrs', List.append_nil]
    rfl
  · exact Silent.declaring.bind fun _ => fail _

theorem choice : TellsRule sub .choice := by
  have hbranch : ∀ before, Tells (nextBranch sub before) fun b rs => rs = b.rules := by
    intro before
    refine (descend (h .branch (by decide))).bind fun b rs hrs => ?_
    split
    · exact Silent.declaring.bind fun _ => fail _
    · exact pure (by rw [hrs, List.append_nil]; rfl)
  refine (Silent.take _).bind fun _ => ?_
  refine (descend (h .parameters (by decide))).bind fun ps rs hrs => ?_
  refine (Silent.take _).bind fun _ => ?_
  refine (many1 (Silent.canStart _) hbranch).bind fun bs rs' hrs' => ?_
  refine (Silent.take _).bind fun _ => ?_
  refine ite (fun _ => Silent.declaring.bind fun _ => fail _) fun _ => pure ?_
  rw [hrs, hrs'.2, List.append_nil]
  rfl

/-- A body is read by the rule that its derivation begins with. -/
theorem body : Tells (Parser.body sub) fun b rs => rs = b.rules := by
  have hdispatch : Tells (Parser.dispatch sub Rule.bodies) fun node rs => rs = node.derivation := by
    refine Silent.look.bind fun t => ?_
    cases hfind : Rule.bodies.find? (·.canStart t.kind) with
    | some rule =>
      refine h rule ?_
      rintro rfl
      exact absurd (List.mem_of_find?_eq_some hfind) (by decide)
    | none => exact .unexpected _
  rw [body_eq]
  refine hdispatch.bind ?_
  rintro ⟨rule, out⟩ rs rfl
  cases rule <;> first | exact pure (List.append_nil _) | exact .wrongNode _

omit h

/-- **A rule inside a declaration tells the derivation** of what it reads. -/
theorem rule : ∀ (n : Nat) (rule : Rule), rule ≠ .declaration →
    Tells (Parser.readRule n rule) fun node rs => rs = node.derivation
  | 0, _, hrule => readRule hrule nofun
  | n + 1, rule, hrule => by
    refine readRule hrule fun m hm => ?_
    obtain rfl := Nat.succ.inj hm
    have h := Tells.rule n
    cases rule with
    | declaration => exact absurd rfl hrule
    | simpleType => exact simpleType
    | sequence => exact sequence h
    | array => exact array h
    | choice => exact choice h
    | parameters => exact parameters
    | field => exact field h
    | reference => exact reference h
    | values => exact values h
    | branch => exact branch h
    | condition => exact condition h
    | disjunction => exact disjunction h
    | conjunction => exact conjunction h
    | term => exact term h
    | comparison => exact comparison h
    | operand => exact operand

end RecordSchema.Parser.Tells
