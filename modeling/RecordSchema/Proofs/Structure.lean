import Mathlib.Data.List.Flatten
import RecordSchema.Proofs.Contents
import RecordSchema.Proofs.Defaults
import RecordSchema.Proofs.LongestMatch
import RecordSchema.Proofs.Resolution
import RecordSchema.Proofs.Sources

/-!
# The shape of a schema

What a reader of schemas can rely on without looking again: no list that is there is empty, a
choice has one default branch, widths are in bounds and stand on types that take one, names are
identifiers and stand in the order of the text. `Schema.Structured` is all of this, and every schema
that is read from a text has it. Some of it is what spelling asks for and some what being
well-formed does.

Results:
* `structured_of_parse`: a schema that is read is spelled and well-formed, and so has the shape.
* `Schema.identifiers_proper`: names are identifiers and not reserved.
* `Schema.names_increasing`: names stand one behind the other.
* `Schema.parse_structured`: all schemas, and the texts that only miss the one default branch.
-/

namespace RecordSchema

/-! ## Shapes -/

/-- Every list inside a term has an item, at any depth. -/
inductive Term.Filled : Term → Prop
  | comparison {left right : Operand} {relation : Relation} :
      Filled (.comparison left relation right)
  | group {d : Disjunction} (hd : d ≠ []) (hc : ∀ c ∈ d, c ≠ []) (ht : ∀ c ∈ d, ∀ t ∈ c, Filled t) :
      Filled (.group d)

/-- A disjunction has a conjunction, each of these has a term, and so on inside the terms. -/
structure Disjunction.Filled (d : Disjunction) : Prop where
  ne_nil : d ≠ []
  conjunctions : ∀ c ∈ d, c ≠ []
  terms : ∀ c ∈ d, ∀ t ∈ c, t.Filled

/-- No list in a condition is empty. -/
def Condition.Filled : Condition → Prop
  | default => True
  | expression d => Disjunction.Filled d

/-- A width stands only on a type that takes one, and fits into 32 bits. -/
def SimpleType.Sized (t : SimpleType) : Prop :=
  ∀ w ∈ t.width, t.builtin ∈ [Builtin.uint, .bitString] ∧ 1 ≤ w ∧ w ≤ 2 ^ 32 - 1

/-- A list of values has a value, and a built-in type its width in bounds. -/
structure Reference.Structured (r : Reference) : Prop where
  values : ∀ vs ∈ r.values, vs ≠ []
  sized : ∀ t, r.target = .builtin t → t.Sized

/-- A choice has a parameter and branches in the order of the text, one of which is the default. -/
structure ChoiceStructured (parameters : List Name) (branches : List Branch) : Prop where
  parameter : parameters ≠ []
  branch : branches ≠ []
  default : branches.countP (·.condition.isDefault) = 1
  ordered : (branches.map (·.type.name.offset)).Pairwise (· < ·)
  filled : ∀ b ∈ branches, b.condition.Filled

/-- A composite body has a member, and what belongs to its kind is in order. -/
def Body.Structured : Body → Prop
  | simple type => type.Sized
  | sequence _ fields => fields ≠ []
  | array _ fields => fields ≠ []
  | choice parameters branches => ChoiceStructured parameters branches

/-- What every schema that is read from a text is like. -/
structure Schema.Structured (p : Schema) : Prop where
  bodies : ∀ d ∈ p.declarations, d.body.Structured
  references : ∀ d ∈ p.declarations, ∀ r ∈ d.body.references, r.Structured
  identifiers : ∀ n ∈ p.identifiers, n.text.toList ∈ Spelling.identifier ∧
    ∀ kind, (n.text, kind) ∉ keywords
  increasing : (p.names.map (·.offset)).Pairwise (· < ·)

/-! ## Conditions -/

theorem Disjunction.SpelledBy.filled_of {d : Disjunction} {ts : List Token}
    (h : Disjunction.SpelledBy d ts)
    (ih : ∀ c ∈ d, ∀ t ∈ c, ∀ us, t.SpelledBy us → t.Filled) : Disjunction.Filled d where
  ne_nil := h.ne_nil
  conjunctions := fun c hc => by
    obtain ⟨us, hus, -⟩ := Listed.item_of_mem h hc
    exact hus.ne_nil
  terms := fun c hc t ht => by
    obtain ⟨us, hus, -⟩ := Listed.item_of_mem h hc
    obtain ⟨vs, hvs, -⟩ := Listed.item_of_mem hus ht
    exact ih c hc t ht vs hvs

/-- **No list in a term** that is spelled is empty. -/
theorem Term.SpelledBy.filled (t : Term) : ∀ us, t.SpelledBy us → t.Filled := by
  induction t using Term.induction with
  | comparison l x r => exact fun _ _ => .comparison
  | group d ih =>
    intro us h
    cases h with
    | group _ hd _ =>
      have hfilled := Disjunction.SpelledBy.filled_of hd ih
      exact .group hfilled.ne_nil hfilled.conjunctions hfilled.terms

theorem Condition.SpelledBy.filled {c : Condition} {ts : List Token} (h : c.SpelledBy ts) :
    c.Filled := by
  cases h with
  | default _ => trivial
  | expression hd => exact Disjunction.SpelledBy.filled_of hd fun _ _ t _ => Term.SpelledBy.filled t

/-! ## Members and bodies -/

theorem SimpleType.WellFormed.sized {t : SimpleType} (h : t.WellFormed) : t.Sized := by
  intro w hw
  obtain ⟨htakes, hpos, hlt⟩ := h w hw
  refine ⟨?_, hpos, Nat.le_sub_one_of_lt hlt⟩
  cases hb : t.builtin with
  | uint => decide
  | bitString => decide
  | bool => rw [hb] at htakes; cases htakes

theorem Reference.SpelledBy.structured {r : Reference} {ts : List Token} {names : List String}
    {before : List Declaration} (h : r.SpelledBy ts) (hwf : r.WellFormed before names) :
    r.Structured := by
  have hvalues {vs : Option (List Operand)} {us : List Token} (hvs : ValuesSpelledBy vs us) :
      ∀ os ∈ vs, os ≠ [] := by
    cases hvs with
    | none => exact fun _ hos => absurd hos (Option.not_mem_none _)
    | some hlist =>
      rintro os ⟨⟩
      exact hlist.items_ne_nil
  cases h with
  | builtin _ hvs =>
    refine ⟨hvalues hvs, fun t ht => ?_⟩
    obtain rfl := Target.builtin.inj ht
    exact hwf.1.sized
  | declared _ hvs => exact ⟨hvalues hvs, nofun⟩

/-- Each member of a body is spelled by some of its tokens. -/
theorem Body.SpelledBy.reference {b : Body} {ts : List Token} (h : b.SpelledBy ts) :
    ∀ r ∈ b.references, ∃ us, r.SpelledBy us := by
  have hfields {fs : List Field} {us : List Token} (hf : Braced Field.SpelledBy fs us) :
      ∀ r ∈ fs.map (·.type), ∃ us, r.SpelledBy us := by
    intro r hr
    obtain ⟨f, hf', rfl⟩ := List.mem_map.mp hr
    cases hf with
    | mk _ hlist _ =>
      obtain ⟨vs, hvs, -⟩ := hlist.item_of_mem hf'
      cases hvs with
      | mk _ hspell => exact ⟨_, hspell⟩
  cases h with
  | simple _ => exact fun _ hr => absurd hr List.not_mem_nil
  | bare _ hf => exact hfields hf
  | sequence _ _ hf => exact hfields hf
  | array _ _ hf => exact hfields hf
  | choice _ _ hb =>
    intro r hr
    obtain ⟨b, hb', rfl⟩ := List.mem_map.mp hr
    cases hb with
    | mk _ hlist _ =>
      obtain ⟨vs, hvs, -⟩ := hlist.item_of_mem hb'
      cases hvs with
      | mk hspell _ => exact ⟨_, hspell⟩

/-- The branches of a choice that is spelled have conditions that are. -/
theorem Body.SpelledBy.filled {ps : List Name} {bs : List Branch} {ts : List Token}
    (h : Body.SpelledBy (.choice ps bs) ts) : ∀ b ∈ bs, b.condition.Filled := by
  cases h with
  | choice _ _ hb =>
    intro b hmem
    cases hb with
    | mk _ hlist _ =>
      obtain ⟨vs, hvs, -⟩ := hlist.item_of_mem hmem
      cases hvs with
      | mk _ hc =>
        cases hc with
        | mk _ hc _ => exact hc.filled

/-! ## Schemas -/

namespace Schema

variable {p : Schema} {text : String}

/-- **Names are identifiers**, and none is a reserved word. -/
theorem identifiers_proper (h : p.SpelledBy (Text.tokens text)) :
    ∀ n ∈ p.identifiers, n.text.toList ∈ Spelling.identifier ∧
      ∀ kind, (n.text, kind) ∉ keywords := by
  intro n hn
  rw [identifiers_eq h, List.mem_flatMap] at hn
  obtain ⟨t, ht, hn⟩ := hn
  split at hn
  · rename_i hkind
    obtain rfl := List.mem_singleton.mp hn
    have hspells := Scan.tokens_proper _ t ht (by rw [hkind]; decide)
    rw [hkind] at hspells
    cases Spelling.matches_iff.mpr hspells with
    | mark hmark => exact absurd (by decide) (Spelling.marks_kind hmark)
    | keyword _ hword => exact absurd List.mem_cons_self (Spelling.keywords_distinct _ hword).2
    | identifier hmem hnot =>
      rw [String.ofList_toList] at hnot
      exact ⟨hmem, hnot⟩
  · exact absurd hn List.not_mem_nil

/-- **Names stand one behind the other.** -/
theorem names_increasing (h : p.SpelledBy (Text.tokens text)) :
    (p.names.map (·.offset)).Pairwise (· < ·) := by
  have htokens : (Text.tokens text).Pairwise fun t u => t.offset < u.offset := by
    have hall := Text.stream_increasing text
    rw [Text.stream, Lexemes.stream_eq] at hall
    exact hall.sublist (List.sublist_append_left _ _)
  exact (List.pairwise_map.mpr htokens).sublist (names_offsets h)

/-- The types of the branches of a choice are among the names of the schema, in order. -/
theorem branches_sublist {d : Declaration} {ps : List Name} {bs : List Branch}
    (hd : d ∈ p.declarations) (hbody : d.body = .choice ps bs) :
    (bs.map (·.type.name)).Sublist p.names := by
  have hname (b : Branch) : [b.type.name].Sublist (b.collect .ofNames) := by
    have htarget : [b.type.name].Sublist (b.type.collect .ofNames) := by
      unfold Reference.collect
      cases b.type.target <;> exact List.sublist_append_left _ _
    exact htarget.trans (List.sublist_append_left _ _)
  have hbranches : (bs.map (·.type.name)).Sublist (bs.flatMap (·.collect .ofNames)) := by
    rw [List.map_eq_flatMap]
    exact List.Sublist.flatMap_right _ fun b _ => hname b
  have hwhole : (d.collect .ofNames).Sublist p.names :=
    List.sublist_flatten_of_mem (List.mem_map_of_mem hd)
  refine (hbranches.trans ?_).trans hwhole
  rw [Declaration.collect, hbody]
  exact (List.sublist_append_right _ _).trans (List.sublist_append_right _ _)

/-- **What is read from a text** has its shape. -/
theorem structured_of_parse {source : SourceId} (h : (parse source text).result = .ok p) :
    p.Structured := by
  obtain ⟨-, hspell, hwf⟩ := parse_ok_iff.mp h
  have hspelled {d : Declaration} (hd : d ∈ p.declarations) : ∃ us, d.body.SpelledBy us := by
    obtain ⟨us, hus, -⟩ := Trail.item_of_mem hspell hd
    cases hus with
    | mk _ _ hb => exact ⟨_, hb⟩
  have hbody {d : Declaration} (hd : d ∈ p.declarations) : ∃ before, d.body.WellFormed before := by
    obtain ⟨i, hi⟩ := List.getElem?_of_mem hd
    exact ⟨_, DeclarationsWellFormed.body hwf hi⟩
  refine ⟨fun d hd => ?_, fun d hd r hr => ?_, identifiers_proper hspell, names_increasing hspell⟩
  · obtain ⟨us, hus⟩ := hspelled hd
    obtain ⟨before, hwf⟩ := hbody hd
    cases hb : d.body with
    | simple t =>
      rw [hb] at hwf
      exact SimpleType.WellFormed.sized hwf
    | sequence ps fs =>
      rw [hb] at hwf
      exact hwf.2.1
    | array x fs =>
      rw [hb] at hwf
      exact hwf.1
    | choice ps bs =>
      rw [hb] at hwf hus
      obtain ⟨hps, -, hbs, hcount, -⟩ := hwf
      have hordered := (names_increasing hspell).sublist ((branches_sublist hd hb).map (·.offset))
      rw [List.map_map] at hordered
      exact ⟨hps, hbs, hcount, hordered, hus.filled⟩
  · obtain ⟨us, hus⟩ := hspelled hd
    obtain ⟨before, hwf⟩ := hbody hd
    obtain ⟨vs, hvs⟩ := hus.reference r hr
    obtain ⟨names, hr⟩ := hwf.references hr
    exact hvs.structured hr

/-- **The shape of a schema can be relied on.** Every schema that is read from a text has it. A text
that meets every rule but for the number of default branches of one choice is refused in the name of
that choice, for having none or for having a second one; the fault then tells where the type of the
first one stands. -/
theorem parse_structured :
    (∀ (source : SourceId) (text : String) (p : Schema),
      (parse source text).result = .ok p → p.Structured) ∧
    ∀ (source : SourceId) (text : String) (p : Schema) (x : Name) (bs : List Branch),
      Text.isNormalized text.toList = true → p.SpelledBy (Text.tokens text) →
      p.ButForDefaults x bs →
      (bs.countP (·.condition.isDefault) = 0 →
        (parse source text).result = .error ⟨source, .missingDefault x.text x.offset⟩) ∧
      (2 ≤ bs.countP (·.condition.isDefault) → ∃ first ∈ bs.find? (·.condition.isDefault),
        (parse source text).result =
          .error ⟨source, .duplicateDefault x.text x.offset first.type.name.offset⟩) ∧
      (bs.countP (·.condition.isDefault) = 1 → (parse source text).result = .ok p) := by
  refine ⟨fun _ _ _ => structured_of_parse, fun source text p x bs hnormal hspell hwf => ?_⟩
  obtain ⟨hnone, htwo⟩ := @parse_miscounted source text x bs p hnormal hspell hwf
  exact ⟨hnone, htwo, fun hone => parse_ok_iff.mpr ⟨hnormal, hspell, hwf.wellFormed_iff.mpr hone⟩⟩

/-- A choice between two built-in types is read, and refused if both are the default. -/
theorem parse_structured_choice :
    (∃ text p, text = "c ::= CHOICE[n] \x7b UINT_008 (n == 1) BOOL (DEFAULT) \x7d" ∧
      (parse ⟨0⟩ text).result = .ok p ∧ p.widths = [8] ∧ p.Structured) ∧
    ∃ (text : String) (x : Name) (bs : List Branch),
      text = "c ::= CHOICE[n] \x7b BOOL (DEFAULT) UINT (DEFAULT) \x7d" ∧ x = ⟨"c", 0⟩ ∧
      bs.map (·.type.name) = [⟨"BOOL", 18⟩, ⟨"UINT", 33⟩] ∧
      (parse ⟨5⟩ text).result = .error ⟨⟨5⟩, .duplicateDefault "c" 0 18⟩ := by
  obtain ⟨hstructured, hmiscounted⟩ := parse_structured
  constructor
  · let first : Branch := ⟨⟨⟨"UINT", 18⟩, .builtin ⟨.uint, some 8⟩, none⟩,
      .expression [[.comparison (.name ⟨"n", 28⟩) .equal (.integer 1)]]⟩
    let second : Branch := ⟨⟨⟨"BOOL", 36⟩, .builtin ⟨.bool, none⟩, none⟩, .default⟩
    have hread : (parse ⟨0⟩ "c ::= CHOICE[n] \x7b UINT_008 (n == 1) BOOL (DEFAULT) \x7d").result =
        .ok ⟨[⟨⟨"c", 0⟩, .choice [⟨"n", 13⟩] [first, second]⟩]⟩ := by
      decide +kernel
    exact ⟨_, _, rfl, hread, by decide, hstructured _ _ _ hread⟩
  · let bool : Branch := ⟨⟨⟨"BOOL", 18⟩, .builtin ⟨.bool, none⟩, none⟩, .default⟩
    let uint : Branch := ⟨⟨⟨"UINT", 33⟩, .builtin ⟨.uint, none⟩, none⟩, .default⟩
    have hname (x : String) (i : Nat) : Name.SpelledBy ⟨x, i⟩ [⟨.identifier, x, i⟩] :=
      .mk (t := ⟨.identifier, x, i⟩) rfl
    have hdefault (i : Nat) : Enclosed .leftParen .rightParen (Condition.SpelledBy .default)
        [⟨.leftParen, "(", i⟩, ⟨.default, "DEFAULT", i + 1⟩, ⟨.rightParen, ")", i + 8⟩] :=
      Enclosed.mk (o := ⟨.leftParen, "(", i⟩) (c := ⟨.rightParen, ")", i + 8⟩) rfl
        (Condition.SpelledBy.default (t := ⟨.default, "DEFAULT", i + 1⟩) rfl) rfl
    have hbool : bool.SpelledBy (⟨.bool, "BOOL", 18⟩ :: _) :=
      .mk (.builtin (k := ⟨.bool, "BOOL", 18⟩) (.bare (b := .bool) rfl) .none) (hdefault 23)
    have huint : uint.SpelledBy (⟨.uint, "UINT", 33⟩ :: _) :=
      .mk (.builtin (k := ⟨.uint, "UINT", 33⟩) (.bare (b := .uint) rfl) .none) (hdefault 38)
    have hparameters : Bracketed Name.SpelledBy [⟨"n", 13⟩]
        [⟨.leftSquare, "[", 12⟩, ⟨.identifier, "n", 13⟩, ⟨.rightSquare, "]", 14⟩] :=
      Enclosed.mk (o := ⟨.leftSquare, "[", 12⟩) (c := ⟨.rightSquare, "]", 14⟩) rfl
        (Listed.of_single (hname "n" 13)) rfl
    have hnothing : nothing [] := rfl
    have hbranches := Enclosed.mk (o := ⟨.leftCurly, "\x7b", 16⟩) (c := ⟨.rightCurly, "\x7d", 48⟩)
      rfl (Listed.mk hbool (.cons hnothing huint .nil)) rfl
    have hchoice := Declaration.SpelledBy.mk (a := ⟨.assignment, "::=", 2⟩) (hname "c" 0) rfl
      (Body.SpelledBy.choice (k := ⟨.choice, "CHOICE", 6⟩) rfl hparameters hbranches)
    have hspell : Schema.SpelledBy ⟨[⟨⟨"c", 0⟩, .choice [⟨"n", 13⟩] [bool, uint]⟩]⟩
        (Text.tokens "c ::= CHOICE[n] \x7b BOOL (DEFAULT) UINT (DEFAULT) \x7d") := by
      refine cast (congrArg (Schema.SpelledBy _) ?_) (Trail.cons hnothing hchoice .nil)
      decide +kernel
    have hwf : ButForDefaults ⟨"c", 0⟩ [bool, uint]
        ⟨[] ++ ⟨⟨"c", 0⟩, .choice [⟨"n", 13⟩] [bool, uint]⟩ :: []⟩ :=
      .mk (by decide) (by decide) (by decide) (by decide) (by decide) (by decide) (by decide)
    obtain ⟨first, hfirst, hresult⟩ := (hmiscounted ⟨5⟩ _ _ _ _ (by decide +kernel) hspell hwf).2.1
      (by decide)
    obtain rfl : bool = first := Option.some.inj hfirst
    exact ⟨_, _, [bool, uint], rfl, rfl, rfl, hresult⟩

end Schema

end RecordSchema
