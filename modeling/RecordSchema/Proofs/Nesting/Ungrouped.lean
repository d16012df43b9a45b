import RecordSchema.Proofs.Nesting.Levels

/-!
# Rules apart from nesting

A schema without the parentheses of its conditions has the same names and operands, and conditions
that nest nothing. So it is well-formed exactly if the schema meets every rule but the one about
nesting.

Results:
* `Schema.wellFormed_iff`: a schema is well-formed if it is without its parentheses, and no
  condition nests them too deep.
-/

namespace RecordSchema

/-! ## Without parentheses -/

mutual

/-- The comparisons of a term, in order. -/
def Term.comparisons : Term → List Term
  | .comparison left relation right => [.comparison left relation right]
  | .group alternatives => Disjunction.comparisons alternatives

/-- The comparisons of all terms, in order. -/
def Conjunction.comparisons : List Term → List Term
  | [] => []
  | t :: rest => Term.comparisons t ++ Conjunction.comparisons rest

/-- The comparisons of all conjunctions, in order. -/
def Disjunction.comparisons : List (List Term) → List Term
  | [] => []
  | c :: rest => Conjunction.comparisons c ++ Disjunction.comparisons rest

end

/-- The condition as one conjunction of its comparisons. -/
def Condition.ungrouped : Condition → Condition
  | default => .default
  | expression alternatives => .expression [Disjunction.comparisons alternatives]

/-- The branch with its condition ungrouped. -/
def Branch.ungrouped (b : Branch) : Branch := ⟨b.type, b.condition.ungrouped⟩

/-- The body with the conditions of its branches ungrouped. -/
def Body.ungrouped : Body → Body
  | choice parameters branches => .choice parameters (branches.map (·.ungrouped))
  | body => body

/-- The declaration with its conditions ungrouped. -/
def Declaration.ungrouped (d : Declaration) : Declaration := ⟨d.name, d.body.ungrouped⟩

/-- The schema without the parentheses of its conditions. -/
def Schema.ungrouped (p : Schema) : Schema := ⟨p.declarations.map (·.ungrouped)⟩

/-- All conditions of a schema, in order. -/
def Schema.conditions (p : Schema) : List Condition := p.declarations.flatMap (·.body.conditions)

/-! ## Conditions -/

theorem Conjunction.operands_append (c c' : List Term) :
    Conjunction.operands (c ++ c') = Conjunction.operands c ++ Conjunction.operands c' := by
  induction c with
  | nil => rfl
  | cons t c ih => rw [List.cons_append, operands, operands, ih, List.append_assoc]

mutual

theorem Term.operands_comparisons : ∀ t : Term, Conjunction.operands t.comparisons = t.operands
  | .comparison .. => by
    simp [Term.comparisons, Conjunction.operands, Term.operands]
  | .group d => by
    rw [Term.comparisons, Term.operands]
    exact Disjunction.operands_comparisons d

theorem Conjunction.operands_comparisons :
    ∀ c : List Term, Conjunction.operands (Conjunction.comparisons c) = Conjunction.operands c
  | [] => rfl
  | t :: rest => by
    rw [Conjunction.comparisons, Conjunction.operands_append, Term.operands_comparisons t,
      Conjunction.operands_comparisons rest, Conjunction.operands]

theorem Disjunction.operands_comparisons : ∀ d : List (List Term),
    Conjunction.operands (Disjunction.comparisons d) = Disjunction.operands d
  | [] => rfl
  | c :: rest => by
    rw [Disjunction.comparisons, Conjunction.operands_append, Conjunction.operands_comparisons c,
      Disjunction.operands_comparisons rest, Disjunction.operands]

end

mutual

theorem Term.nesting_comparisons : ∀ t : Term, ∀ u ∈ t.comparisons, u.nesting = 0
  | .comparison .. => by simp [Term.comparisons, Term.nesting]
  | .group d => by
    rw [Term.comparisons]
    exact Disjunction.nesting_comparisons d

theorem Conjunction.nesting_comparisons :
    ∀ c : List Term, ∀ u ∈ Conjunction.comparisons c, u.nesting = 0
  | [] => fun _ hu => absurd hu List.not_mem_nil
  | t :: rest => by
    rw [Conjunction.comparisons]
    exact List.forall_mem_append.mpr
      ⟨Term.nesting_comparisons t, Conjunction.nesting_comparisons rest⟩

theorem Disjunction.nesting_comparisons :
    ∀ d : List (List Term), ∀ u ∈ Disjunction.comparisons d, u.nesting = 0
  | [] => fun _ hu => absurd hu List.not_mem_nil
  | c :: rest => by
    rw [Disjunction.comparisons]
    exact List.forall_mem_append.mpr
      ⟨Conjunction.nesting_comparisons c, Disjunction.nesting_comparisons rest⟩

end

namespace Condition

@[simp] theorem isDefault_ungrouped (c : Condition) : c.ungrouped.isDefault = c.isDefault := by
  cases c <;> rfl

@[simp] theorem operands_ungrouped (c : Condition) : c.ungrouped.operands = c.operands := by
  cases c with
  | default => rfl
  | expression d =>
    simp [ungrouped, operands, Disjunction.operands, Disjunction.operands_comparisons]

@[simp] theorem nesting_ungrouped (c : Condition) : c.ungrouped.nesting = 0 := by
  cases c with
  | default => rfl
  | expression d =>
    have hle : Conjunction.nesting (Disjunction.comparisons d) ≤ 0 :=
      Conjunction.nesting_le.mpr fun t ht => (Disjunction.nesting_comparisons d t ht).le
    have hone : Disjunction.nesting [Disjunction.comparisons d] ≤ 0 :=
      Disjunction.nesting_le.mpr (by simpa using hle)
    exact Nat.le_zero.mp hone

/-- A condition is well-formed if it is without parentheses, and they are not nested too deep. -/
theorem wellFormed_iff {names : List String} {c : Condition} :
    c.WellFormed names ↔ c.ungrouped.WellFormed names ∧ c.nesting ≤ nestingLimit := by
  simp only [WellFormed, operands_ungrouped, nesting_ungrouped]
  exact and_congr_left fun _ => (and_iff_left (Nat.zero_le _)).symm

end Condition

/-! ## Members -/

variable {before ds : List Declaration} {names : List String}

theorem Body.parameters_ungrouped (b : Body) : b.ungrouped.parameters = b.parameters := by
  cases b <;> rfl

theorem names_ungrouped (ds : List Declaration) :
    (ds.map (·.ungrouped)).map (·.name.text) = ds.map (·.name.text) := by
  rw [List.map_map]
  rfl

/-- References do not see the conditions of the declarations before them. -/
theorem Reference.wellFormed_ungrouped {r : Reference} :
    r.WellFormed (before.map (·.ungrouped)) names ↔ r.WellFormed before names := by
  obtain ⟨name, target, values⟩ := r
  cases target with
  | builtin type => rfl
  | declared id =>
    simp only [WellFormed, List.getElem?_map, Option.mem_def, Option.map_eq_some_iff]
    constructor
    · rintro ⟨_, ⟨d, hd, rfl⟩, hname, hvalues⟩
      refine ⟨d, hd, hname, fun vs hvs => ?_⟩
      rw [← d.body.parameters_ungrouped]
      exact hvalues vs hvs
    · rintro ⟨d, hd, hname, hvalues⟩
      refine ⟨_, ⟨d, hd, rfl⟩, hname, fun vs hvs => ?_⟩
      show vs.length = d.body.ungrouped.parameters.length ∧ _
      rw [d.body.parameters_ungrouped]
      exact hvalues vs hvs

theorem fieldsWellFormed_ungrouped {fs : List Field} :
    FieldsWellFormed (before.map (·.ungrouped)) names fs ↔ FieldsWellFormed before names fs := by
  induction fs generalizing names with
  | nil => rfl
  | cons f fs ih => simp only [FieldsWellFormed, Reference.wellFormed_ungrouped, ih]

/-- Which branches are the default is seen without parentheses. -/
theorem countP_isDefault_ungrouped (bs : List Branch) :
    (bs.map (·.ungrouped)).countP (·.condition.isDefault) =
      bs.countP (·.condition.isDefault) := by
  rw [List.countP_map]
  exact List.countP_congr fun b _ => by simp [Branch.ungrouped]

theorem Branch.wellFormed_iff {b : Branch} : b.WellFormed before names ↔
    b.ungrouped.WellFormed (before.map (·.ungrouped)) names ∧
      b.condition.nesting ≤ Condition.nestingLimit := by
  simp only [WellFormed, ungrouped, Reference.wellFormed_ungrouped,
    Condition.wellFormed_iff (c := b.condition), and_assoc]

/-! ## Declarations -/

theorem Body.wellFormed_iff {b : Body} : b.WellFormed before ↔
    b.ungrouped.WellFormed (before.map (·.ungrouped)) ∧
      ∀ c ∈ b.conditions, c.nesting ≤ Condition.nestingLimit := by
  cases b with
  | simple type => simp [WellFormed, ungrouped, conditions]
  | sequence ps fs => simp [WellFormed, ungrouped, conditions, fieldsWellFormed_ungrouped]
  | array count fs => simp [WellFormed, ungrouped, conditions, fieldsWellFormed_ungrouped]
  | choice ps bs =>
    have hbranches : (∀ b ∈ bs, b.WellFormed before (texts ps)) ↔
        (∀ b ∈ bs, b.ungrouped.WellFormed (before.map (·.ungrouped)) (texts ps)) ∧
          ∀ b ∈ bs, b.condition.nesting ≤ Condition.nestingLimit := by
      rw [← forall₂_and]
      exact forall₂_congr fun b _ => Branch.wellFormed_iff
    simp only [WellFormed, ungrouped, conditions, countP_isDefault_ungrouped,
      List.forall_mem_map, ne_eq, List.map_eq_nil_iff, hbranches, and_assoc]

theorem declarationsWellFormed_iff : DeclarationsWellFormed before ds ↔
    DeclarationsWellFormed (before.map (·.ungrouped)) (ds.map (·.ungrouped)) ∧
      ∀ d ∈ ds, ∀ c ∈ d.body.conditions, c.nesting ≤ Condition.nestingLimit := by
  induction ds generalizing before with
  | nil => simp [DeclarationsWellFormed]
  | cons d ds ih =>
    rw [List.map_cons, DeclarationsWellFormed, DeclarationsWellFormed, names_ungrouped,
      Body.wellFormed_iff, ih, List.forall_mem_cons, List.map_append, List.map_singleton]
    constructor
    · rintro ⟨hnew, ⟨hbody, hnest⟩, hrest, hnests⟩
      exact ⟨⟨hnew, hbody, hrest⟩, hnest, hnests⟩
    · rintro ⟨⟨hnew, hbody, hrest⟩, hnest, hnests⟩
      exact ⟨hnew, ⟨hbody, hnest⟩, hrest, hnests⟩

/-- **Well-formed** is what is so without parentheses and does not nest them too deep. -/
theorem Schema.wellFormed_iff {p : Schema} : p.WellFormed ↔
    p.ungrouped.WellFormed ∧ ∀ c ∈ p.conditions, c.nesting ≤ Condition.nestingLimit := by
  simp only [WellFormed, ungrouped, conditions, List.mem_flatMap, forall_exists_index, and_imp]
  rw [declarationsWellFormed_iff]
  exact and_congr_right fun _ => ⟨fun h c d hd hc => h d hd c hc, fun h d hd c hc => h c d hd hc⟩

end RecordSchema
