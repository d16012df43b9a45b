import RecordSchema.Proofs.Registry

/-!
# What references refer to

Of a schema that was read, all declarations have different names, and every reference is resolved:
it is to a built-in type or to a declaration before its own, by the position and the name of that,
and a list of values is as long as the list of parameters it is for. That follows from the schema
being well-formed, which says the same of one declaration after the other.

Results:
* `Schema.parse_resolves`: the references of a schema, and the table of types along the run.
* `Schema.parse_supplied_iff`: when a reference supplies a value for every parameter.
-/

namespace RecordSchema

/-! ## References of well-formed schemas -/

/-- A reference of the declaration at position `i` is resolved. -/
def Reference.Resolves (p : Schema) (i : Nat) (r : Reference) : Prop :=
  match r.target with
  | .builtin type => r.name.text = type.builtin.keyword ∧ r.values = none
  | .declared id => id.index < i ∧ ∃ d, p.get? id = some d ∧ d.name.text = r.name.text ∧
      p.find? r.name.text = some d ∧
      ∀ values ∈ r.values, values.length = d.body.parameters.length

/-- How many values a reference supplies. Without a list there are none. -/
def Reference.supplied (r : Reference) : Nat := (r.values.getD []).length

/-- A table has the names of some declarations in their order, and finds each by its position, with
its offset and the number of its parameters. It finds no other name. -/
structure TypeTable.Agrees (t : TypeTable) (ds : List Declaration) : Prop where
  names : t.names = ds.map (·.name.text)
  entry : ∀ i d, ds[i]? = some d →
    t.find? d.name.text = some (⟨i⟩, ⟨d.name, d.body.parameters.length⟩)
  unknown : ∀ x, x ∉ ds.map (·.name.text) → t.find? x = none

theorem TypeTable.agrees_of {ds : List Declaration} (hn : (ds.map (·.name.text)).Nodup) :
    (of ds).Agrees ds where
  names := by simp [TypeTable.names, of]
  entry := fun i d hd => find?_of_getElem? hn (show ds[TypeId.index ⟨i⟩]? = some d from hd)
  unknown := fun _ hx => find?_eq_none.mpr hx

theorem FieldsWellFormed.types {before : List Declaration} :
    ∀ {names : List String} {fs : List Field}, FieldsWellFormed before names fs →
      ∀ f ∈ fs, ∃ names', f.type.WellFormed before names'
  | _, [], _, f, hf => absurd hf List.not_mem_nil
  | names, g :: fs, ⟨hg, _, hfs⟩, f, hf => by
    rcases List.mem_cons.mp hf with rfl | hf
    · exact ⟨names, hg⟩
    · exact hfs.types f hf

/-- Every reference of a well-formed body is well-formed with some names. -/
theorem Body.WellFormed.references {before : List Declaration} {b : Body} (h : b.WellFormed before)
    {r : Reference} (hr : r ∈ b.references) : ∃ names, r.WellFormed before names := by
  cases b with
  | simple type => exact absurd hr List.not_mem_nil
  | sequence parameters fields =>
    obtain ⟨f, hf, rfl⟩ := List.mem_map.mp hr
    exact h.2.2.types f hf
  | array count fields =>
    obtain ⟨f, hf, rfl⟩ := List.mem_map.mp hr
    exact h.2.types f hf
  | choice parameters branches =>
    obtain ⟨b, hb, rfl⟩ := List.mem_map.mp hr
    exact ⟨_, (h.2.2.2.2 b hb).1⟩

/-- A declaration is found by its name if no other one has it. -/
theorem Schema.find?_of_nodup {p : Schema} (hn : (p.declarations.map (·.name.text)).Nodup)
    {d : Declaration} (hd : d ∈ p.declarations) : p.find? d.name.text = some d := by
  unfold Schema.find?
  cases hfind : p.declarations.find? (·.name.text == d.name.text) with
  | none => exact absurd (List.find?_eq_none.mp hfind d hd) (by simp)
  | some e =>
    have hname : e.name.text = d.name.text := by simpa using List.find?_some hfind
    rw [List.inj_on_of_nodup_map hn (List.mem_of_find?_eq_some hfind) hd hname]

namespace Schema.WellFormed

variable {p : Schema}

theorem nodup (h : p.WellFormed) : (p.declarations.map (·.name.text)).Nodup :=
  DeclarationsWellFormed.nodup h List.nodup_nil

/-- **Every reference of a well-formed schema is resolved.** -/
theorem resolves (h : p.WellFormed) {i : Nat} {d : Declaration}
    (hd : p.declarations[i]? = some d) {r : Reference} (hr : r ∈ d.body.references) :
    r.Resolves p i := by
  have hbody := DeclarationsWellFormed.body h hd
  rw [List.nil_append] at hbody
  obtain ⟨names, hwf⟩ := hbody.references hr
  obtain ⟨name, target, values⟩ := r
  cases target with
  | builtin type =>
    obtain ⟨-, hname, hvalues⟩ := hwf
    exact ⟨hname, hvalues⟩
  | declared id =>
    obtain ⟨e, he, hname, hvalues⟩ := hwf
    rw [Option.mem_def, List.getElem?_take] at he
    split at he
    · rename_i hlt
      have hfind := find?_of_nodup h.nodup (List.mem_of_getElem? he)
      rw [hname] at hfind
      exact ⟨hlt, e, he, hname, hfind, fun values hmem => (hvalues values hmem).1⟩
    · exact absurd he (by simp)

end Schema.WellFormed

/-! ## Schemas that were read -/

section Parse

variable {source : SourceId} {text : String} {p : Schema}

/-- **The references of a schema that was read are resolved**, and its names differ. Along the run
that read it the table of types agrees with the declarations finished so far: at every point these
are the first ones of the schema, each number of them is reached, and a rule that is read further
on, up to the end of the next declaration, leaves the table as it is. -/
theorem Schema.parse_resolves (h : (Schema.parse source text).result = .ok p) :
    (p.declarations.map (·.name.text)).Nodup ∧
    (∀ (i : Nat) (d : Declaration), p.declarations[i]? = some d →
      ∀ r ∈ d.body.references, r.Resolves p i) ∧
    (∀ ds s, Parser.Finished source (Scan.ofText text.toList).lexemes ds s →
      ds <+: p.declarations ∧ s.types.Agrees ds ∧
        ∀ n rule s', rule ≠ .declaration → s'.types = s.types →
          (Parser.final (Parser.readRule n rule s')).types.Agrees ds) ∧
    ∀ ds, ds <+: p.declarations →
      ∃ s, Parser.Finished source (Scan.ofText text.toList).lexemes ds s := by
  obtain ⟨hnormal, -, hwf⟩ := Schema.parse_sound h
  rw [Schema.parse_of_normalized hnormal] at h
  have hclosed := Scan.lexemes_closed (Scan.ofText text.toList)
  refine ⟨hwf.nodup, fun i d hd r hr => hwf.resolves hd hr, ?_, ?_⟩
  · intro ds s hs
    obtain ⟨-, htypes, hds⟩ := hs.invariant hclosed
    have hagrees : s.types.Agrees ds := by
      rw [htypes]
      exact TypeTable.agrees_of (hds.nodup List.nodup_nil)
    refine ⟨hs.isPrefix hclosed h, hagrees, fun n rule s' hrule hs' => ?_⟩
    rw [Parser.KeepsTypes.readRule n rule hrule s', hs']
    exact hagrees
  · exact fun ds hds => Parser.Finished.of_isPrefix hclosed h hds

/-- An array with a parameter, and a choice with a branch that gives it a value. -/
theorem Schema.parse_resolves_array_choice :
    ∃ p, (Schema.parse ⟨0⟩
        "w ::= ARRAY[n] \x7b a UINT \x7d c ::= CHOICE[k] \x7b w[k](DEFAULT) \x7d").result =
        .ok p ∧ p.declarations.length = 2 ∧
      ∀ (i : Nat) (d : Declaration), p.declarations[i]? = some d →
        ∀ r ∈ d.body.references, r.Resolves p i := by
  have h : (Schema.parse ⟨0⟩
      "w ::= ARRAY[n] \x7b a UINT \x7d c ::= CHOICE[k] \x7b w[k](DEFAULT) \x7d").result =
      .ok ⟨[⟨⟨"w", 0⟩, .array ⟨"n", 12⟩
          [⟨⟨"a", 17⟩, ⟨⟨"UINT", 19⟩, .builtin ⟨.uint, none⟩, none⟩⟩]⟩,
        ⟨⟨"c", 26⟩, .choice [⟨"k", 39⟩]
          [⟨⟨⟨"w", 44⟩, .declared ⟨0⟩, some [.name ⟨"k", 46⟩]⟩, .default⟩]⟩]⟩ := by
    decide +kernel
  exact ⟨_, h, rfl, (Schema.parse_resolves h).2.1⟩

/-! ## Values and parameters -/

/-- **When a reference supplies a value for every parameter** of the type it refers to: if it has a
list of values, and without one exactly if the type has no parameters. -/
theorem Schema.parse_supplied_iff (h : (Schema.parse source text).result = .ok p)
    {d : Declaration} (hd : d ∈ p.declarations) {r : Reference} (hr : r ∈ d.body.references)
    {id : TypeId} (hid : r.target = .declared id) {t : Declaration} (ht : p.get? id = some t) :
    r.supplied = t.body.parameters.length ↔ (r.values = none → t.body.parameters = []) := by
  obtain ⟨-, -, hwf⟩ := Schema.parse_sound h
  obtain ⟨i, hi⟩ := List.getElem?_of_mem hd
  have hresolves := hwf.resolves hi hr
  obtain ⟨name, target, values⟩ := r
  dsimp only at hid
  subst hid
  obtain ⟨-, t', ht', -, -, hlength⟩ := hresolves
  obtain rfl := Option.some.inj (ht'.symm.trans ht)
  cases values with
  | none =>
    rw [show Reference.supplied ⟨name, .declared id, none⟩ = 0 from rfl, eq_comm,
      List.length_eq_zero_iff]
    exact ⟨fun hnil _ => hnil, fun hnil => hnil rfl⟩
  | some values => exact ⟨fun _ hnone => absurd hnone (by simp), fun _ => hlength values rfl⟩

/-- A reference with a value for the one parameter of an array. -/
theorem Schema.parse_supplied_iff_array :
    ∃ p, (Schema.parse ⟨0⟩
        "w ::= ARRAY[n] \x7b a UINT \x7d s ::= SEQUENCE \x7b b w[7] \x7d").result = .ok p ∧
      ∃ d ∈ p.declarations, ∃ r ∈ d.body.references, r.target = .declared ⟨0⟩ ∧
        ∃ t, p.get? ⟨0⟩ = some t ∧
          (r.supplied = t.body.parameters.length ↔ (r.values = none → t.body.parameters = [])) := by
  have h : (Schema.parse ⟨0⟩
      "w ::= ARRAY[n] \x7b a UINT \x7d s ::= SEQUENCE \x7b b w[7] \x7d").result =
      .ok ⟨[⟨⟨"w", 0⟩, .array ⟨"n", 12⟩
          [⟨⟨"a", 17⟩, ⟨⟨"UINT", 19⟩, .builtin ⟨.uint, none⟩, none⟩⟩]⟩,
        ⟨⟨"s", 26⟩, .sequence []
          [⟨⟨"b", 43⟩, ⟨⟨"w", 45⟩, .declared ⟨0⟩, some [.integer 7]⟩⟩]⟩]⟩ := by
    decide +kernel
  refine ⟨_, h, _, List.mem_cons_of_mem _ List.mem_cons_self, _, List.mem_cons_self, rfl, _, rfl,
    ?_⟩
  exact Schema.parse_supplied_iff h (List.mem_cons_of_mem _ List.mem_cons_self) List.mem_cons_self
    rfl rfl

/-- A choice with a parameter is used without values, and the schema is read. -/
theorem Schema.parse_supplies_none :
    ¬ ∀ (source : SourceId) (text : String) (p : Schema),
      (Schema.parse source text).result = .ok p →
      ∀ d ∈ p.declarations, ∀ r ∈ d.body.references, ∀ (id : TypeId) (t : Declaration),
        r.target = .declared id → p.get? id = some t →
          r.supplied = t.body.parameters.length := by
  intro hall
  have h : (Schema.parse ⟨0⟩
      "c ::= CHOICE[a] \x7b UINT(DEFAULT) \x7d s ::= SEQUENCE \x7b b c \x7d").result =
      .ok ⟨[⟨⟨"c", 0⟩, .choice [⟨"a", 13⟩]
          [⟨⟨⟨"UINT", 18⟩, .builtin ⟨.uint, none⟩, none⟩, .default⟩]⟩,
        ⟨⟨"s", 34⟩, .sequence [] [⟨⟨"b", 51⟩, ⟨⟨"c", 53⟩, .declared ⟨0⟩, none⟩⟩]⟩]⟩ := by
    decide +kernel
  have hsupplied := hall _ _ _ h _ (List.mem_cons_of_mem _ List.mem_cons_self) _ List.mem_cons_self
    ⟨0⟩ _ rfl rfl
  exact absurd hsupplied (by decide)

end Parse

end RecordSchema
