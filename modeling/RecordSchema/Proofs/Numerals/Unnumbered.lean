import RecordSchema.Proofs.Contents

/-!
# Rules apart from numbers

Two schemas that say the same but for their numbers are the same without them. What is left of the
rules then is that every number fits, so a schema is well-formed exactly if it is without its
numbers and these fit.

Results:
* `Schema.wellFormed_iff_unnumbered`: well-formed is what is so without numbers and has numbers that
  fit.
-/

namespace RecordSchema

/-! ## Without numbers -/

/-- Every integer is zero. -/
def Operand.unnumbered : Operand → Operand
  | name n => .name n
  | integer _ => .integer 0

mutual

/-- Every operand is without its number. -/
def Term.unnumbered : Term → Term
  | .comparison left relation right => .comparison left.unnumbered relation right.unnumbered
  | .group alternatives => .group (Disjunction.unnumbered alternatives)

/-- Every term is without its numbers. -/
def Conjunction.unnumbered : List Term → List Term
  | [] => []
  | t :: rest => Term.unnumbered t :: Conjunction.unnumbered rest

/-- Every conjunction is without its numbers. -/
def Disjunction.unnumbered : List (List Term) → List (List Term)
  | [] => []
  | c :: rest => Conjunction.unnumbered c :: Disjunction.unnumbered rest

end

/-- The default has no numbers. -/
def Condition.unnumbered : Condition → Condition
  | default => .default
  | expression alternatives => .expression (Disjunction.unnumbered alternatives)

/-- Every width is one. -/
def SimpleType.unnumbered (t : SimpleType) : SimpleType := ⟨t.builtin, t.width.map fun _ => 1⟩

/-- A position is no number of the text. -/
def Target.unnumbered : Target → Target
  | builtin type => .builtin type.unnumbered
  | declared id => .declared id

/-- The target and the values are without numbers. -/
def Reference.unnumbered (r : Reference) : Reference :=
  ⟨r.name, r.target.unnumbered, r.values.map (·.map (·.unnumbered))⟩

/-- The type is without numbers. -/
def Field.unnumbered (f : Field) : Field := ⟨f.name, f.type.unnumbered⟩

/-- The type and the condition are without numbers. -/
def Branch.unnumbered (b : Branch) : Branch := ⟨b.type.unnumbered, b.condition.unnumbered⟩

/-- The members are without numbers. -/
def Body.unnumbered : Body → Body
  | simple type => .simple type.unnumbered
  | sequence parameters fields => .sequence parameters (fields.map (·.unnumbered))
  | array count fields => .array count (fields.map (·.unnumbered))
  | choice parameters branches => .choice parameters (branches.map (·.unnumbered))

/-- The body is without numbers. -/
def Declaration.unnumbered (d : Declaration) : Declaration := ⟨d.name, d.body.unnumbered⟩

/-- The schema with zero for every integer and one for every width. -/
def Schema.unnumbered (p : Schema) : Schema := ⟨p.declarations.map (·.unnumbered)⟩

theorem Conjunction.unnumbered_eq_map (c : List Term) :
    Conjunction.unnumbered c = c.map Term.unnumbered := by
  induction c with
  | nil => rfl
  | cons t c ih => rw [Conjunction.unnumbered, ih, List.map_cons]

theorem Disjunction.unnumbered_eq_map (d : List (List Term)) :
    Disjunction.unnumbered d = d.map (List.map Term.unnumbered) := by
  induction d with
  | nil => rfl
  | cons c d ih => rw [Disjunction.unnumbered, ih, Conjunction.unnumbered_eq_map, List.map_cons]

/-! ## Numbers that fit -/

/-- The integers are below their limit, and the widths are within their bounds. -/
def NumbersFit (integers widths : List Nat) : Prop :=
  (∀ v ∈ integers, v < Parser.integerLimit) ∧ ∀ w ∈ widths, 0 < w ∧ w < Parser.widthLimit

theorem numbersFit_nil : NumbersFit [] [] := ⟨by simp, by simp⟩

theorem numbersFit_append {as bs cs ds : List Nat} :
    NumbersFit (as ++ bs) (cs ++ ds) ↔ NumbersFit as cs ∧ NumbersFit bs ds := by
  simp only [NumbersFit, List.forall_mem_append]
  exact and_and_and_comm

theorem numbersFit_flatMap {α : Type} {f g : α → List Nat} {as : List α} :
    NumbersFit (as.flatMap f) (as.flatMap g) ↔ ∀ a ∈ as, NumbersFit (f a) (g a) := by
  induction as with
  | nil => exact iff_of_true numbersFit_nil (by simp)
  | cons a as ih => rw [List.flatMap_cons, List.flatMap_cons, numbersFit_append, ih,
      List.forall_mem_cons]

/-! ## Conditions -/

mutual

theorem Term.operands_unnumbered :
    ∀ t : Term, t.unnumbered.operands = t.operands.map (·.unnumbered)
  | .comparison .. => by simp [Term.unnumbered, Term.operands]
  | .group d => by
    rw [Term.unnumbered, Term.operands, Term.operands, Disjunction.operands_unnumbered d]

theorem Conjunction.operands_unnumbered : ∀ c : List Term,
    Conjunction.operands (Conjunction.unnumbered c) = (Conjunction.operands c).map (·.unnumbered)
  | [] => rfl
  | t :: rest => by
    rw [Conjunction.unnumbered, Conjunction.operands, Conjunction.operands, List.map_append,
      Term.operands_unnumbered t, Conjunction.operands_unnumbered rest]

theorem Disjunction.operands_unnumbered : ∀ d : List (List Term),
    Disjunction.operands (Disjunction.unnumbered d) = (Disjunction.operands d).map (·.unnumbered)
  | [] => rfl
  | c :: rest => by
    rw [Disjunction.unnumbered, Disjunction.operands, Disjunction.operands, List.map_append,
      Conjunction.operands_unnumbered c, Disjunction.operands_unnumbered rest]

end

mutual

theorem Term.nesting_unnumbered : ∀ t : Term, t.unnumbered.nesting = t.nesting
  | .comparison .. => by simp [Term.unnumbered, Term.nesting]
  | .group d => by
    rw [Term.unnumbered, Term.nesting, Term.nesting, Disjunction.nesting_unnumbered d]

theorem Conjunction.nesting_unnumbered :
    ∀ c : List Term, Conjunction.nesting (Conjunction.unnumbered c) = Conjunction.nesting c
  | [] => rfl
  | t :: rest => by
    rw [Conjunction.unnumbered, Conjunction.nesting, Conjunction.nesting,
      Term.nesting_unnumbered t, Conjunction.nesting_unnumbered rest]

theorem Disjunction.nesting_unnumbered :
    ∀ d : List (List Term), Disjunction.nesting (Disjunction.unnumbered d) = Disjunction.nesting d
  | [] => rfl
  | c :: rest => by
    rw [Disjunction.unnumbered, Disjunction.nesting, Disjunction.nesting,
      Conjunction.nesting_unnumbered c, Disjunction.nesting_unnumbered rest]

end

section WellFormed

variable {before ds : List Declaration} {names : List String}

theorem Operand.wellFormed_iff_unnumbered {o : Operand} : o.WellFormed names ↔
    o.unnumbered.WellFormed names ∧ NumbersFit (o.collect .ofIntegers) (o.collect .ofWidths) := by
  cases o with
  | name n => exact (and_iff_left numbersFit_nil).symm
  | integer value =>
    have hzero : 0 < Parser.integerLimit := by decide
    simp [WellFormed, unnumbered, collect, NumbersFit, Collector.ofIntegers, Collector.ofWidths,
      hzero]

theorem operands_wellFormed_iff {os : List Operand} : (∀ o ∈ os, o.WellFormed names) ↔
    (∀ o ∈ os.map (·.unnumbered), o.WellFormed names) ∧
      NumbersFit (os.flatMap (·.collect .ofIntegers)) (os.flatMap (·.collect .ofWidths)) := by
  rw [List.forall_mem_map, numbersFit_flatMap, ← forall₂_and]
  exact forall₂_congr fun _ _ => Operand.wellFormed_iff_unnumbered

namespace Condition

@[simp] theorem isDefault_unnumbered (c : Condition) : c.unnumbered.isDefault = c.isDefault := by
  cases c <;> rfl

theorem operands_unnumbered (c : Condition) :
    c.unnumbered.operands = c.operands.map (·.unnumbered) := by
  cases c with
  | default => rfl
  | expression d => exact Disjunction.operands_unnumbered d

theorem nesting_unnumbered (c : Condition) : c.unnumbered.nesting = c.nesting := by
  cases c with
  | default => rfl
  | expression d => exact Disjunction.nesting_unnumbered d

theorem wellFormed_iff_unnumbered {c : Condition} : c.WellFormed names ↔
    c.unnumbered.WellFormed names ∧ NumbersFit (c.collect .ofIntegers) (c.collect .ofWidths) := by
  rw [WellFormed, WellFormed, operands_unnumbered, nesting_unnumbered, operands_wellFormed_iff,
    collect, collect, and_right_comm]

end Condition

/-! ## Members -/

theorem SimpleType.wellFormed_iff_unnumbered {t : SimpleType} : t.WellFormed ↔
    t.unnumbered.WellFormed ∧ NumbersFit [] t.width.toList := by
  obtain ⟨builtin, width⟩ := t
  have hlimit : 1 < Parser.widthLimit := by decide
  cases width <;> simp [WellFormed, unnumbered, NumbersFit, hlimit]

@[simp] theorem Body.parameters_unnumbered (b : Body) :
    b.unnumbered.parameters = b.parameters := by
  cases b <;> rfl

theorem Reference.wellFormed_iff_unnumbered {r : Reference} : r.WellFormed before names ↔
    r.unnumbered.WellFormed (before.map (·.unnumbered)) names ∧
      NumbersFit (r.collect .ofIntegers) (r.collect .ofWidths) := by
  obtain ⟨name, target, values⟩ := r
  cases target with
  | builtin type =>
    have hnone (h : values = none) :
        NumbersFit (Reference.collect .ofIntegers ⟨name, .builtin type, values⟩)
          (Reference.collect .ofWidths ⟨name, .builtin type, values⟩) ↔
            NumbersFit [] type.width.toList := by
      subst h
      simp [collect, operands, Collector.ofIntegers, Collector.ofWidths]
    simp only [WellFormed, unnumbered, Target.unnumbered, Option.map_eq_none_iff]
    rw [SimpleType.wellFormed_iff_unnumbered]
    constructor
    · rintro ⟨⟨htype, hfit⟩, hname, hvalues⟩
      exact ⟨⟨htype, hname, hvalues⟩, (hnone hvalues).mpr hfit⟩
    · rintro ⟨⟨htype, hname, hvalues⟩, hfit⟩
      exact ⟨⟨htype, (hnone hvalues).mp hfit⟩, hname, hvalues⟩
  | declared id =>
    simp only [WellFormed, unnumbered, Target.unnumbered, collect, operands, List.getElem?_map,
      Option.mem_def, Option.map_eq_some_iff, exists_exists_and_eq_and, Declaration.unnumbered,
      Body.parameters_unnumbered]
    cases values with
    | none =>
      simp [Collector.ofIntegers, Collector.ofWidths, numbersFit_nil]
    | some vs =>
      have hvalues : (∀ v ∈ vs, v.WellFormed names) ↔ _ := operands_wellFormed_iff
      simp only [exists_eq_left', forall_eq', Option.some.injEq, Option.getD_some,
        List.length_map, hvalues]
      simp only [Collector.ofIntegers, Collector.ofWidths, List.nil_append]
      constructor
      · rintro ⟨d, hd, hname, hlength, hvs, hfit⟩
        exact ⟨⟨d, hd, hname, hlength, hvs⟩, hfit⟩
      · rintro ⟨⟨d, hd, hname, hlength, hvs⟩, hfit⟩
        exact ⟨d, hd, hname, hlength, hvs, hfit⟩

theorem Field.collect_type (f : Field) : f.collect .ofIntegers = f.type.collect .ofIntegers ∧
    f.collect .ofWidths = f.type.collect .ofWidths :=
  ⟨rfl, rfl⟩

theorem fieldsWellFormed_iff_unnumbered {fs : List Field} : FieldsWellFormed before names fs ↔
    FieldsWellFormed (before.map (·.unnumbered)) names (fs.map (·.unnumbered)) ∧
      NumbersFit (fs.flatMap (·.collect .ofIntegers)) (fs.flatMap (·.collect .ofWidths)) := by
  induction fs generalizing names with
  | nil => exact iff_of_true trivial ⟨trivial, numbersFit_nil⟩
  | cons f fs ih =>
    obtain ⟨hintegers, hwidths⟩ := f.collect_type
    rw [FieldsWellFormed, Reference.wellFormed_iff_unnumbered, ih, List.flatMap_cons,
      List.flatMap_cons, numbersFit_append, hintegers, hwidths, List.map_cons, FieldsWellFormed]
    constructor
    · rintro ⟨⟨htype, hfit⟩, hnew, hrest, hfits⟩
      exact ⟨⟨htype, hnew, hrest⟩, hfit, hfits⟩
    · rintro ⟨⟨htype, hnew, hrest⟩, hfit, hfits⟩
      exact ⟨⟨htype, hfit⟩, hnew, hrest, hfits⟩

theorem Branch.wellFormed_iff_unnumbered {b : Branch} : b.WellFormed before names ↔
    b.unnumbered.WellFormed (before.map (·.unnumbered)) names ∧
      NumbersFit (b.collect .ofIntegers) (b.collect .ofWidths) := by
  rw [WellFormed, WellFormed, Reference.wellFormed_iff_unnumbered,
    Condition.wellFormed_iff_unnumbered, collect, collect, numbersFit_append]
  exact and_and_and_comm

/-! ## Declarations -/

theorem Body.wellFormed_iff_unnumbered {b : Body} : b.WellFormed before ↔
    b.unnumbered.WellFormed (before.map (·.unnumbered)) ∧
      NumbersFit (b.collect .ofIntegers) (b.collect .ofWidths) := by
  have hnames (ps : List Name) : ps.flatMap Collector.ofIntegers.name = [] ∧
      ps.flatMap Collector.ofWidths.name = [] :=
    ⟨List.flatMap_eq_nil_iff.mpr fun _ _ => rfl, List.flatMap_eq_nil_iff.mpr fun _ _ => rfl⟩
  cases b with
  | simple type => exact SimpleType.wellFormed_iff_unnumbered
  | sequence ps fs =>
    simp only [WellFormed, unnumbered, collect, hnames, List.nil_append, ne_eq,
      List.map_eq_nil_iff, and_assoc]
    rw [fieldsWellFormed_iff_unnumbered]
  | array count fs =>
    simp only [WellFormed, unnumbered, collect, ne_eq, List.map_eq_nil_iff, and_assoc]
    rw [fieldsWellFormed_iff_unnumbered]
    rfl
  | choice ps bs =>
    have hcount : (bs.map (·.unnumbered)).countP (·.condition.isDefault) =
        bs.countP (·.condition.isDefault) := by
      rw [List.countP_map]
      exact List.countP_congr fun b _ => by simp [Branch.unnumbered]
    simp only [WellFormed, unnumbered, collect, hnames, List.nil_append, ne_eq,
      List.map_eq_nil_iff, hcount, List.forall_mem_map, numbersFit_flatMap, and_assoc]
    rw [← forall₂_and]
    simp only [← Branch.wellFormed_iff_unnumbered]

theorem names_unnumbered (ds : List Declaration) :
    (ds.map (·.unnumbered)).map (·.name.text) = ds.map (·.name.text) := by
  rw [List.map_map]
  rfl

theorem declarationsWellFormed_iff_unnumbered : DeclarationsWellFormed before ds ↔
    DeclarationsWellFormed (before.map (·.unnumbered)) (ds.map (·.unnumbered)) ∧
      NumbersFit (ds.flatMap (·.collect .ofIntegers)) (ds.flatMap (·.collect .ofWidths)) := by
  induction ds generalizing before with
  | nil => exact iff_of_true trivial ⟨trivial, numbersFit_nil⟩
  | cons d ds ih =>
    have hintegers : d.collect .ofIntegers = d.body.collect .ofIntegers := rfl
    have hwidths : d.collect .ofWidths = d.body.collect .ofWidths := rfl
    rw [List.map_cons, DeclarationsWellFormed, DeclarationsWellFormed, names_unnumbered,
      Body.wellFormed_iff_unnumbered, ih, List.flatMap_cons, List.flatMap_cons, numbersFit_append,
      hintegers, hwidths, List.map_append, List.map_singleton]
    constructor
    · rintro ⟨hnew, ⟨hbody, hfit⟩, hrest, hfits⟩
      exact ⟨⟨hnew, hbody, hrest⟩, hfit, hfits⟩
    · rintro ⟨⟨hnew, hbody, hrest⟩, hfit, hfits⟩
      exact ⟨hnew, ⟨hbody, hfit⟩, hrest, hfits⟩

/-- **Well-formed** is what is so without numbers and has numbers that fit. -/
theorem Schema.wellFormed_iff_unnumbered {p : Schema} :
    p.WellFormed ↔ p.unnumbered.WellFormed ∧ NumbersFit p.integers p.widths :=
  declarationsWellFormed_iff_unnumbered

end WellFormed

end RecordSchema
