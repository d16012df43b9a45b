import Mathlib.Data.List.Nodup
import RecordSchema.Parser.Reference

/-!
# Well-formed schemas

What a schema has to meet apart from its grammar: names are declared once and before they are used,
lists of values are as long as the lists of parameters they are for, numbers fit, and conditions
are not nested too deep. All of it is decidable.

A reference is judged by the declarations before the one it is in, and an operand by the names its
own declaration has declared so far. A reference without a list of values is well-formed whatever
the number of parameters.
-/

namespace RecordSchema

/-! ## Conditions -/

/-- A known name, or an integer that fits. -/
def Operand.WellFormed (names : List String) : Operand → Prop
  | name n => n.text ∈ names
  | integer value => value < Parser.integerLimit

instance (names : List String) : (o : Operand) → Decidable (o.WellFormed names)
  | .name n => inferInstanceAs (Decidable (n.text ∈ names))
  | .integer value => inferInstanceAs (Decidable (value < Parser.integerLimit))

mutual

/-- The operands of a term, in order. -/
def Term.operands : Term → List Operand
  | .comparison left _ right => [left, right]
  | .group alternatives => Disjunction.operands alternatives

/-- The operands of all terms, in order. -/
def Conjunction.operands : List Term → List Operand
  | [] => []
  | t :: rest => Term.operands t ++ Conjunction.operands rest

/-- The operands of all conjunctions, in order. -/
def Disjunction.operands : List (List Term) → List Operand
  | [] => []
  | c :: rest => Conjunction.operands c ++ Disjunction.operands rest

end

mutual

/-- How many parentheses stand one inside the other. -/
def Term.nesting : Term → Nat
  | .comparison .. => 0
  | .group alternatives => Disjunction.nesting alternatives + 1

/-- The nesting of the deepest term. -/
def Conjunction.nesting : List Term → Nat
  | [] => 0
  | t :: rest => max (Term.nesting t) (Conjunction.nesting rest)

/-- The nesting of the deepest conjunction. -/
def Disjunction.nesting : List (List Term) → Nat
  | [] => 0
  | c :: rest => max (Conjunction.nesting c) (Disjunction.nesting rest)

end

theorem Conjunction.mem_operands {o : Operand} {c : List Term} :
    o ∈ Conjunction.operands c ↔ ∃ t ∈ c, o ∈ t.operands := by
  induction c with
  | nil => simp [Conjunction.operands]
  | cons t c ih => simp [Conjunction.operands, ih]

theorem Disjunction.mem_operands {o : Operand} {d : List (List Term)} :
    o ∈ Disjunction.operands d ↔ ∃ c ∈ d, o ∈ Conjunction.operands c := by
  induction d with
  | nil => simp [Disjunction.operands]
  | cons c d ih => simp [Disjunction.operands, ih]

theorem Conjunction.nesting_le {n : Nat} {c : List Term} :
    Conjunction.nesting c ≤ n ↔ ∀ t ∈ c, t.nesting ≤ n := by
  induction c with
  | nil => simp [Conjunction.nesting]
  | cons t c ih => rw [Conjunction.nesting, Nat.max_le, ih, List.forall_mem_cons]

theorem Disjunction.nesting_le {n : Nat} {d : List (List Term)} :
    Disjunction.nesting d ≤ n ↔ ∀ c ∈ d, Conjunction.nesting c ≤ n := by
  induction d with
  | nil => simp [Disjunction.nesting]
  | cons c d ih => rw [Disjunction.nesting, Nat.max_le, ih, List.forall_mem_cons]

namespace Condition

/-- The operands of a condition, in order. -/
def operands : Condition → List Operand
  | default => []
  | expression alternatives => Disjunction.operands alternatives

/-- How deep a condition nests parentheses. -/
def nesting : Condition → Nat
  | default => 0
  | expression alternatives => Disjunction.nesting alternatives

/-- How deep parentheses can be nested. Each pair opens three rules, and nine more are open around
them and inside. -/
def nestingLimit : Nat := 82

/-- Every operand is well-formed, and parentheses are not nested too deep. -/
def WellFormed (names : List String) (c : Condition) : Prop :=
  (∀ o ∈ c.operands, o.WellFormed names) ∧ c.nesting ≤ nestingLimit

instance (names : List String) (c : Condition) : Decidable (c.WellFormed names) :=
  inferInstanceAs (Decidable (_ ∧ _))

end Condition

/-! ## Types and members -/

/-- Only a type that takes a width has one, and the width is neither zero nor too large. -/
def SimpleType.WellFormed (t : SimpleType) : Prop :=
  ∀ width ∈ t.width, t.builtin.takesWidth = true ∧ 0 < width ∧ width < Parser.widthLimit

instance (t : SimpleType) : Decidable t.WellFormed :=
  inferInstanceAs (Decidable (∀ width ∈ t.width, _))

/-- What a reference refers to, with the declarations before it. A built-in type goes by its
keyword and has no values. A declared type goes by the name of a declaration; a list of values has
one for each parameter of that, and all of them are well-formed. -/
def Reference.WellFormed (before : List Declaration) (names : List String) (r : Reference) :
    Prop :=
  match r.target with
  | .builtin type =>
    type.WellFormed ∧ r.name.text = type.builtin.keyword ∧ r.values = none
  | .declared id =>
    ∃ d ∈ before[id.index]?, d.name.text = r.name.text ∧
      ∀ values ∈ r.values,
        values.length = d.body.parameters.length ∧ ∀ v ∈ values, v.WellFormed names

instance (before : List Declaration) (names : List String) :
    (r : Reference) → Decidable (r.WellFormed before names)
  | ⟨_, .builtin type, _⟩ => inferInstanceAs (Decidable (type.WellFormed ∧ _ ∧ _))
  | ⟨_, .declared id, _⟩ => inferInstanceAs (Decidable (∃ d ∈ before[id.index]?, _ ∧ _))

/-- Fields in order. Each has a new name, which is known behind its type but not in it. -/
def FieldsWellFormed (before : List Declaration) : List String → List Field → Prop
  | _, [] => True
  | names, f :: rest =>
    f.type.WellFormed before names ∧ f.name.text ∉ names ∧
      FieldsWellFormed before (names ++ [f.name.text]) rest

instance (before : List Declaration) :
    (names : List String) → (fs : List Field) → Decidable (FieldsWellFormed before names fs)
  | _, [] => inferInstanceAs (Decidable True)
  | names, f :: rest =>
    have : Decidable (FieldsWellFormed before (names ++ [f.name.text]) rest) :=
      instDecidableFieldsWellFormed before _ rest
    inferInstanceAs (Decidable (_ ∧ _ ∧ _))

/-- A well-formed type and a well-formed condition. -/
def Branch.WellFormed (before : List Declaration) (names : List String) (b : Branch) : Prop :=
  b.type.WellFormed before names ∧ b.condition.WellFormed names

instance (before : List Declaration) (names : List String) (b : Branch) :
    Decidable (b.WellFormed before names) :=
  inferInstanceAs (Decidable (_ ∧ _))

/-! ## Declarations -/

/-- The names as text. -/
def texts (names : List Name) : List String := names.map (·.text)

/-- Parameters differ from one another and from the fields, there is a member, and a choice has a
parameter and exactly one default branch. -/
def Body.WellFormed (before : List Declaration) : Body → Prop
  | simple type => type.WellFormed
  | sequence parameters fields =>
    (texts parameters).Nodup ∧ fields ≠ [] ∧ FieldsWellFormed before (texts parameters) fields
  | array count fields => fields ≠ [] ∧ FieldsWellFormed before [count.text] fields
  | choice parameters branches =>
    parameters ≠ [] ∧ (texts parameters).Nodup ∧ branches ≠ [] ∧
      branches.countP (·.condition.isDefault) = 1 ∧
      ∀ b ∈ branches, b.WellFormed before (texts parameters)

instance (before : List Declaration) : (b : Body) → Decidable (b.WellFormed before)
  | .simple type => inferInstanceAs (Decidable type.WellFormed)
  | .sequence .. => inferInstanceAs (Decidable (_ ∧ _ ∧ _))
  | .array .. => inferInstanceAs (Decidable (_ ∧ _))
  | .choice .. => inferInstanceAs (Decidable (_ ∧ _ ∧ _ ∧ _ ∧ _))

/-- Declarations in order, behind others. Each has a new name, which is known only behind it. -/
def DeclarationsWellFormed : List Declaration → List Declaration → Prop
  | _, [] => True
  | before, d :: rest =>
    d.name.text ∉ before.map (·.name.text) ∧ d.body.WellFormed before ∧
      DeclarationsWellFormed (before ++ [d]) rest

instance : (before ds : List Declaration) → Decidable (DeclarationsWellFormed before ds)
  | _, [] => inferInstanceAs (Decidable True)
  | before, d :: rest =>
    have : Decidable (DeclarationsWellFormed (before ++ [d]) rest) :=
      instDecidableDeclarationsWellFormed _ rest
    inferInstanceAs (Decidable (_ ∧ _ ∧ _))

/-- A schema is well-formed if its declarations are, one behind the other. -/
def Schema.WellFormed (s : Schema) : Prop := DeclarationsWellFormed [] s.declarations

instance (s : Schema) : Decidable s.WellFormed :=
  inferInstanceAs (Decidable (DeclarationsWellFormed [] s.declarations))

/-! ## Parts of what is well-formed -/

/-- Parameters differ from one another, whatever the body. -/
theorem Body.WellFormed.nodup_parameters {before : List Declaration} {b : Body}
    (h : b.WellFormed before) : (texts b.parameters).Nodup := by
  cases b with
  | simple type => exact List.nodup_nil
  | sequence ps fs => exact h.1
  | array count fs => exact List.nodup_singleton _
  | choice ps bs => exact h.2.1

/-- A further field behind others. -/
theorem FieldsWellFormed.concat {before : List Declaration} {f : Field} :
    ∀ {names : List String} {fs : List Field}, FieldsWellFormed before names fs →
      f.type.WellFormed before (names ++ texts (fs.map (·.name))) →
      f.name.text ∉ names ++ texts (fs.map (·.name)) →
      FieldsWellFormed before names (fs ++ [f])
  | names, [], _, hf, hn => by
    rw [List.map_nil, texts, List.map_nil, List.append_nil] at hf hn
    exact ⟨hf, hn, trivial⟩
  | names, g :: fs, ⟨hg, hgn, hfs⟩, hf, hn => by
    refine ⟨hg, hgn, hfs.concat ?_ ?_⟩
    · simpa [texts] using hf
    · simpa [texts] using hn

/-- A further declaration behind others. -/
theorem DeclarationsWellFormed.concat {d : Declaration} :
    ∀ {before ds : List Declaration}, DeclarationsWellFormed before ds →
      d.name.text ∉ (before ++ ds).map (·.name.text) → d.body.WellFormed (before ++ ds) →
      DeclarationsWellFormed before (ds ++ [d])
  | before, [], _, hn, hb => by
    rw [List.append_nil] at hn hb
    exact ⟨hn, hb, trivial⟩
  | before, e :: ds, ⟨hen, heb, hds⟩, hn, hb => by
    refine ⟨hen, heb, hds.concat ?_ ?_⟩
    · simpa using hn
    · simpa using hb

/-- Declarations in two parts. -/
theorem DeclarationsWellFormed.append_iff {es : List Declaration} :
    ∀ {before ds : List Declaration}, DeclarationsWellFormed before (ds ++ es) ↔
      DeclarationsWellFormed before ds ∧ DeclarationsWellFormed (before ++ ds) es
  | before, [] => by
    rw [List.nil_append, List.append_nil]
    exact (and_iff_right trivial).symm
  | before, d :: ds => by
    simp only [List.cons_append, DeclarationsWellFormed, append_iff, List.append_assoc,
      List.nil_append, and_assoc]

/-- The names of declarations differ if that of one more is new. -/
theorem nodup_names_concat {before : List Declaration} {d : Declaration}
    (hn : (before.map (·.name.text)).Nodup) (hnew : d.name.text ∉ before.map (·.name.text)) :
    ((before ++ [d]).map (·.name.text)).Nodup := by
  rw [List.map_append]
  exact List.nodup_append_comm.mp (List.nodup_cons.mpr ⟨hnew, hn⟩)

/-- Declarations that are well-formed behind others have names that differ. -/
theorem DeclarationsWellFormed.nodup :
    ∀ {before ds : List Declaration}, DeclarationsWellFormed before ds →
      (before.map (·.name.text)).Nodup → ((before ++ ds).map (·.name.text)).Nodup
  | before, [], _, hn => by rwa [List.append_nil]
  | before, d :: ds, ⟨hnew, _, hds⟩, hn => by
    have hall := hds.nodup (nodup_names_concat hn hnew)
    rwa [List.append_assoc, List.singleton_append] at hall

/-- Every body is well-formed with the declarations before it. -/
theorem DeclarationsWellFormed.body :
    ∀ {before ds : List Declaration} {i : Nat} {d : Declaration},
      DeclarationsWellFormed before ds → ds[i]? = some d →
      d.body.WellFormed (before ++ ds.take i)
  | before, [], i, d, _, hd => absurd hd (by simp)
  | before, e :: ds, 0, d, ⟨_, hbody, _⟩, hd => by
    obtain rfl := Option.some.inj hd
    simpa using hbody
  | before, e :: ds, i + 1, d, ⟨_, _, hds⟩, hd => by
    have ih := hds.body (i := i) (d := d) (by simpa using hd)
    simpa using ih

end RecordSchema
