import RecordSchema.Proofs.Soundness

/-!
# What names refer to

A declaration has names of its own: its parameters, and behind them its fields. Of a schema that
was read they all differ, and every name in a condition or a list of values is one of them: in the
values of a field a parameter or an earlier field, and in a choice, which has no fields, a
parameter. That follows from the schema being well-formed, which threads the names known so far
through the fields.

Results:
* `FieldsWellFormed.nodup`, `FieldsWellFormed.type_at`: the names behind any number of fields.
* `Schema.parse_scoped`: the names of a schema that was read.
-/

namespace RecordSchema

/-! ## Names of a declaration -/

namespace Body

/-- The fields of a body, in order. Only a sequence or an array has any. -/
def fields : Body → List Field
  | simple _ | choice .. => []
  | sequence _ fields | array _ fields => fields

/-- The branches of a body, in order. Only a choice has any. -/
def branches : Body → List Branch
  | choice _ branches => branches
  | simple _ | sequence .. | array .. => []

/-- The names that a body declares, parameters first. -/
def localNames (b : Body) : List Name := b.parameters ++ b.fields.map (·.name)

end Body

/-- The values that a reference gives, if any. -/
def Reference.operands (r : Reference) : List Operand := r.values.getD []

/-- A text is the name of a parameter of a body. -/
def Body.IsParameter (b : Body) (text : String) : Prop := ∃ x ∈ b.parameters, x.text = text

/-- A text is the name of one of the first `k` fields of a body. -/
def Body.IsFieldBefore (b : Body) (k : Nat) (text : String) : Prop :=
  ∃ j < k, ∃ g, b.fields[j]? = some g ∧ g.name.text = text

/-- The names of a body differ, and it uses each only where it is declared: a name in the values of
a field is that of a parameter or of an earlier field, and so of no field from that one on; a name
in a choice is that of a parameter. -/
structure Body.Scoped (b : Body) : Prop where
  distinct : (texts b.localNames).Nodup
  conditions : ∀ c ∈ b.branches, ∀ n, Operand.name n ∈ c.condition.operands →
    b.IsParameter n.text
  branchValues : ∀ c ∈ b.branches, ∀ n, Operand.name n ∈ c.type.operands → b.IsParameter n.text
  fieldValues : ∀ k f, b.fields[k]? = some f → ∀ n, Operand.name n ∈ f.type.operands →
    (b.IsParameter n.text ∨ b.IsFieldBefore k n.text) ∧
      ∀ j g, k ≤ j → b.fields[j]? = some g → g.name.text ≠ n.text

/-! ## Well-formed members -/

section WellFormed

variable {before : List Declaration} {names : List String}

/-- The values of a well-formed reference are well-formed with the same names. -/
theorem Reference.WellFormed.operands {r : Reference} (h : r.WellFormed before names) :
    ∀ v ∈ r.operands, v.WellFormed names := by
  obtain ⟨name, target, values⟩ := r
  cases target with
  | builtin type =>
    obtain ⟨-, -, rfl⟩ := h
    exact fun v hv => absurd hv List.not_mem_nil
  | declared id =>
    obtain ⟨d, -, -, hvalues⟩ := h
    cases values with
    | none => exact fun v hv => absurd hv List.not_mem_nil
    | some values => exact (hvalues values rfl).2

/-- A name among well-formed values is known. -/
theorem Reference.WellFormed.known {r : Reference} (h : r.WellFormed before names) {n : Name}
    (hn : Operand.name n ∈ r.operands) : n.text ∈ names :=
  h.operands _ hn

/-- **The names of well-formed fields differ**, among themselves and from those known before. -/
theorem FieldsWellFormed.nodup :
    ∀ {names : List String} {fs : List Field}, FieldsWellFormed before names fs →
      names.Nodup → (names ++ texts (fs.map (·.name))).Nodup
  | names, [], _, hn => by simpa [texts] using hn
  | names, f :: fs, ⟨_, hnew, hfs⟩, hn => by
    have hf : (names ++ [f.name.text]).Nodup :=
      List.nodup_append_comm.mp (List.nodup_cons.mpr ⟨hnew, hn⟩)
    have hall := hfs.nodup hf
    rwa [List.append_assoc] at hall

/-- **The type of a field** is well-formed with the names of the fields before it. -/
theorem FieldsWellFormed.type_at :
    ∀ {names : List String} {fs : List Field} {k : Nat} {f : Field},
      FieldsWellFormed before names fs → fs[k]? = some f →
      f.type.WellFormed before (names ++ texts ((fs.take k).map (·.name)))
  | names, [], k, f, _, hf => absurd hf (by simp)
  | names, g :: fs, 0, f, ⟨hg, _, _⟩, hf => by
    obtain rfl := Option.some.inj hf
    simpa [texts] using hg
  | names, g :: fs, k + 1, f, ⟨_, _, hfs⟩, hf => by
    have ih := hfs.type_at (k := k) (f := f) (by simpa using hf)
    simpa [texts] using ih

end WellFormed

namespace Body

variable {before : List Declaration} {b : Body}

theorem isParameter_iff {text : String} : b.IsParameter text ↔ text ∈ texts b.parameters := by
  simp [IsParameter, texts]

/-- A name of the first `k` fields is that of one of them. -/
theorem isFieldBefore_of_mem {k : Nat} {text : String}
    (h : text ∈ texts ((b.fields.take k).map (·.name))) : b.IsFieldBefore k text := by
  rw [texts, List.map_map] at h
  obtain ⟨g, hg, rfl⟩ := List.mem_map.mp h
  obtain ⟨j, hj⟩ := List.getElem?_of_mem hg
  rw [List.getElem?_take] at hj
  split at hj
  · rename_i hlt
    exact ⟨j, hlt, g, hj, rfl⟩
  · exact absurd hj (by simp)

/-- A name known in front of a field is none of those from that field on. -/
theorem ne_of_nodup {k j : Nat} {g : Field} {text : String} (hn : (texts b.localNames).Nodup)
    (h : text ∈ texts b.parameters ++ texts ((b.fields.take k).map (·.name))) (hk : k ≤ j)
    (hg : b.fields[j]? = some g) : g.name.text ≠ text := by
  rintro rfl
  have hsplit : texts b.localNames = (texts b.parameters ++
      texts ((b.fields.take k).map (·.name))) ++ texts ((b.fields.drop k).map (·.name)) := by
    rw [localNames, texts, List.map_append, List.append_assoc]
    congr 1
    simp only [texts, List.map_map, ← List.map_append, List.take_append_drop]
  rw [hsplit] at hn
  refine (List.nodup_append.mp hn).2.2 _ h _ ?_ rfl
  have hmem : g ∈ b.fields.drop k := by
    rw [List.mem_iff_getElem?]
    exact ⟨j - k, by rw [List.getElem?_drop, Nat.add_sub_cancel' hk, hg]⟩
  exact List.mem_map_of_mem (List.mem_map_of_mem hmem)

/-- Fields behind parameters that differ are scoped. -/
theorem scoped_of_fields (hb : b.branches = []) (hn : (texts b.parameters).Nodup)
    (h : FieldsWellFormed before (texts b.parameters) b.fields) : b.Scoped := by
  have hnodup : (texts b.localNames).Nodup := by
    have hall := h.nodup hn
    rwa [texts, texts, ← List.map_append] at hall
  refine ⟨hnodup, by simp [hb], by simp [hb], fun k f hf n hmem => ?_⟩
  have hknown := (h.type_at hf).known hmem
  refine ⟨?_, fun j g hk hg => ne_of_nodup hnodup hknown hk hg⟩
  rcases List.mem_append.mp hknown with hp | hp
  · exact Or.inl (isParameter_iff.mpr hp)
  · exact Or.inr (isFieldBefore_of_mem hp)

/-- **A well-formed body is scoped.** -/
theorem WellFormed.scoped (h : b.WellFormed before) : b.Scoped := by
  cases b with
  | simple type => exact @scoped_of_fields before (.simple type) rfl List.nodup_nil trivial
  | sequence parameters fields => exact scoped_of_fields rfl h.1 h.2.2
  | array count fields => exact scoped_of_fields rfl (List.nodup_singleton _) h.2
  | choice parameters branches =>
    obtain ⟨-, hnodup, -, -, hall⟩ := h
    refine ⟨by simpa [localNames, Body.fields, Body.parameters] using hnodup, ?_, ?_, ?_⟩
    · exact fun c hc n hn => isParameter_iff.mpr ((hall c hc).2.1 _ hn)
    · exact fun c hc n hn => isParameter_iff.mpr ((hall c hc).1.known hn)
    · exact fun k f hf => absurd hf (by simp [fields])

end Body

/-! ## Schemas that were read -/

/-- **The names of a schema that was read** are scoped: in every declaration its own names differ,
and it uses no name but its own, where that is declared. -/
theorem Schema.parse_scoped {source : SourceId} {text : String} {p : Schema}
    (h : (Schema.parse source text).result = .ok p) :
    ∀ d ∈ p.declarations, d.body.Scoped := by
  obtain ⟨-, -, hwf⟩ := Schema.parse_sound h
  intro d hd
  obtain ⟨i, hi⟩ := List.getElem?_of_mem hd
  exact (DeclarationsWellFormed.body hwf hi).scoped

/-- A choice with nested parentheses, and a sequence that gives it a parameter and a field. -/
theorem Schema.parse_scoped_sequence :
    ∃ p, (Schema.parse ⟨0⟩
        "c ::= CHOICE[a b] \x7b UINT((a==1 or (b<2))) BOOL(DEFAULT) \x7d
s ::= SEQUENCE[n] \x7b a UINT x c[n a] \x7d").result = .ok p ∧ p.declarations.length = 2 ∧
      ∀ d ∈ p.declarations, d.body.Scoped := by
  have h : (Schema.parse ⟨0⟩
      "c ::= CHOICE[a b] \x7b UINT((a==1 or (b<2))) BOOL(DEFAULT) \x7d
s ::= SEQUENCE[n] \x7b a UINT x c[n a] \x7d").result =
      .ok ⟨[⟨⟨"c", 0⟩, .choice [⟨"a", 13⟩, ⟨"b", 15⟩]
          [⟨⟨⟨"UINT", 20⟩, .builtin ⟨.uint, none⟩, none⟩, .expression [[.group [
            [.comparison (.name ⟨"a", 26⟩) .equal (.integer 1)],
            [.group [[.comparison (.name ⟨"b", 35⟩) .less (.integer 2)]]]]]]⟩,
          ⟨⟨⟨"BOOL", 42⟩, .builtin ⟨.bool, none⟩, none⟩, .default⟩]⟩,
        ⟨⟨"s", 58⟩, .sequence [⟨"n", 73⟩]
          [⟨⟨"a", 78⟩, ⟨⟨"UINT", 80⟩, .builtin ⟨.uint, none⟩, none⟩⟩,
          ⟨⟨"x", 85⟩, ⟨⟨"c", 87⟩, .declared ⟨0⟩,
            some [.name ⟨"n", 89⟩, .name ⟨"a", 91⟩]⟩⟩]⟩]⟩ := by
    decide +kernel
  exact ⟨_, h, rfl, Schema.parse_scoped h⟩

end RecordSchema
