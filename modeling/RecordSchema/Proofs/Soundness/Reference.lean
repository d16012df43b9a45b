import RecordSchema.Proofs.Names
import RecordSchema.Proofs.Soundness.Condition

/-!
# What is read as a member is spelled and well-formed

The same for built-in types, lists of values, references, fields and branches, with the types and
names of the state a rule began in. A field is the first rule that adds a name to the scope.

`values` takes any of four kinds of token behind its list. The loop has stopped where neither a
comma nor an operand follows, so the token taken is the closing bracket.
-/

namespace RecordSchema.Parser

open State

variable {n : Nat} {names : List String} {before : List Declaration} {s s' : State}

/-! ## Built-in types -/

theorem word_builtinOf {kind : TokenKind} (h : kind ∈ Rule.typeWords) :
    kind = (builtinOf kind).word := by
  revert kind
  decide

theorem simpleType_sound {t : SimpleType} (hs : s.Closed)
    (h : descend (readRule n) .simpleType s = .ok t s') :
    ∃ us, Takes s us s' ∧ t.SpelledBy us ∧ t.WellFormed := by
  obtain ⟨m, s₁, rfl, hrun, rfl⟩ := level_of_descend h
  clear h
  obtain ⟨k, s₂, hk, h⟩ := bind_ok.mp hrun
  obtain ⟨hword, htakes⟩ := take_sound (hs.opened _) (by decide) hk
  obtain ⟨w, s₃, hw, hrest⟩ := bind_ok.mp h
  obtain ⟨rfl, rfl⟩ := look_ok.mp hw
  split at hrest
  · rename_i hwide
    obtain ⟨hwidth, hkind, hoffset⟩ := hwide
    simp only [bind_ok, advance_ok, widthOf_ok, pure_ok] at hrest
    obtain ⟨_, _, rfl, _, _, ⟨rfl, hbounds, rfl⟩, rfl, rfl⟩ := hrest
    have hskip : Takes s₂ [s₂.current] s₂.skip :=
      .skip htakes.closed fun he => absurd (hkind.symm.trans he) (by decide)
    refine ⟨[k, s₂.current], (htakes.trans hskip).rule,
      .wide (word_builtinOf hword) hkind hoffset, ?_⟩
    rintro width hmem
    obtain rfl := Option.mem_some_iff.mp hmem
    exact ⟨hwidth, hbounds⟩
  · obtain ⟨rfl, rfl⟩ := pure_ok.mp hrest
    have hlook : Takes s₂ [] s₂.passComments := .look htakes.closed
    exact ⟨[k], (htakes.trans hlook).rule, .bare (word_builtinOf hword), by
      simp [SimpleType.WellFormed]⟩

/-! ## References -/

theorem moreValues_sound (hs : s.Closed) (h : moreValues s = .ok true s') :
    ∃ js, perhaps .comma js ∧ Takes s js s' := by
  obtain ⟨answer, s₁, ha, h⟩ := bind_ok.mp h
  cases answer with
  | true =>
    obtain ⟨js, hj, htakes⟩ := accept_only hs (by decide) ha
    obtain ⟨-, rfl⟩ := pure_ok.mp h
    exact ⟨js, .inr hj, htakes⟩
  | false =>
    obtain ⟨htakes, -, -⟩ := accept_sound_false hs ha
    obtain ⟨-, rfl⟩ := canStart_ok.mp h
    exact ⟨[], .inl rfl, htakes.trans (.look htakes.closed)⟩

/-- Where no further value comes, there is neither a comma nor an operand. -/
theorem moreValues_sound_false (hs : s.Closed) (h : moreValues s = .ok false s') :
    Takes s [] s' ∧ s'.current.kind ∉ TokenKind.comma :: Rule.operandStart := by
  obtain ⟨answer, s₁, ha, h⟩ := bind_ok.mp h
  cases answer with
  | true => exact absurd (pure_ok.mp h).1 (by decide)
  | false =>
    obtain ⟨htakes, hcomma, hcurrent⟩ := accept_sound_false hs ha
    obtain ⟨hstart, rfl⟩ := canStart_ok.mp h
    refine ⟨htakes.trans (.look htakes.closed), ?_⟩
    have hoperand : s₁.current.kind ∉ Rule.operandStart := of_decide_eq_false hstart.symm
    rw [current_passComments]
    rintro hmem
    rcases List.mem_cons.mp hmem with hmem | hmem
    · exact hcomma (hcurrent ▸ hmem)
    · exact hoperand hmem

/-- The items of a list of values are operands, and none comes behind them. -/
theorem items_sound {vs : List Operand} (hs : s.Closed) (hn : s.scope.Holds names)
    (h : many1 moreValues (fun _ => descend (readRule n) .operand) s = .ok vs s') :
    ∃ ts, Takes s ts s' ∧ Listed (perhaps .comma) Operand.SpelledBy vs ts ∧
      (∀ v ∈ vs, v.WellFormed names) ∧ s'.current.kind ∉ TokenKind.comma :: Rule.operandStart := by
  obtain ⟨ts, s₁, hts, hlist, hgood, hclosed, -, hend⟩ :=
    takes_of_many1 (perhaps .comma) Operand.SpelledBy (·.WellFormed names) (fun _ => True) s.scope
      moreValues_sound (fun hs h => (moreValues_sound_false hs h).1)
      (fun {o s s'} hs hscope h => by
        obtain ⟨us, hus, hspell, hwf, -⟩ := operand_sound hs (hscope ▸ hn) h
        exact ⟨us, hus, hspell, hspell.begins.ne_nil, hwf, trivial⟩)
      hs rfl h
  exact ⟨ts, hts, hlist, hgood, (moreValues_sound_false hclosed hend).2⟩

theorem values_sound {vs : List Operand} (hs : s.Closed) (hn : s.scope.Holds names)
    (h : descend (readRule n) .values s = .ok vs s') :
    ∃ us, Takes s us s' ∧ Bracketed Operand.SpelledBy vs us ∧ ∀ v ∈ vs, v.WellFormed names := by
  obtain ⟨m, s₁, rfl, hrun, rfl⟩ := level_of_descend h
  clear h
  obtain ⟨o, s₂, ho, hrest⟩ := bind_ok.mp hrun
  obtain ⟨hopen, htakes⟩ := take_sound (hs.opened _) (by decide) ho
  obtain ⟨items, s₃, hitems, hrest⟩ := bind_ok.mp hrest
  obtain ⟨ts, hts, hlist, hgood, hstop⟩ := items_sound htakes.closed (htakes.scope ▸ hn) hitems
  obtain ⟨c, s₅, hc, hrest⟩ := bind_ok.mp hrest
  obtain ⟨hk, rfl, rfl⟩ := take_ok.mp hc
  have hclose : s₃.current.kind = .rightSquare := by
    simp only [Rule.operandStart, List.mem_cons, List.not_mem_nil, or_false, not_or] at hk hstop
    simpa [hstop] using hk
  obtain ⟨rfl, rfl⟩ := pure_ok.mp hrest
  have hlast : Takes s₃ [s₃.current] s₃.skip := .skip hts.closed (by simp [hclose])
  have hall := (htakes.trans hts).trans hlast
  exact ⟨o :: (ts ++ [s₃.current]), by simpa using hall.rule,
    .mk (List.mem_singleton.mp hopen) hlist hclose, hgood⟩

/-- The tokens of the type of a reference, with the name it goes by and how many parameters it
has. -/
inductive NamesType (before : List Declaration) : Name → Nat → List Token → Prop
  | builtin {type : SimpleType} {k : Token} {us : List Token} (h : type.SpelledBy (k :: us)) :
      NamesType before ⟨type.builtin.keyword, k.offset⟩ 0 (k :: us)
  | declared {t : Token} {d : Declaration} (ht : t.kind = .identifier) (hd : d ∈ before)
      (hname : d.name.text = t.text) :
      NamesType before ⟨t.text, t.offset⟩ d.body.parameters.length [t]

/-- What a target makes of values: a reference that is spelled and well-formed if they are, and as
many as the target has parameters. -/
theorem target_sound (names : List String) {x : Name} {target : Target} {count : Nat}
    (hs : s.Closed) (htypes : s.types = TypeTable.of before)
    (h : Parser.target (readRule n) s = .ok (x, target, count) s') :
    ∃ us, Takes s us s' ∧ NamesType before x count us ∧
      (∀ vs ts, ValuesSpelledBy vs ts → Reference.SpelledBy ⟨x, target, vs⟩ (us ++ ts)) ∧
      ∀ vs, (∀ values ∈ vs, values ≠ [] ∧ values.length = count ∧
        ∀ v ∈ values, v.WellFormed names) → Reference.WellFormed before names ⟨x, target, vs⟩ := by
  obtain ⟨answer, s₁, ha, h⟩ := bind_ok.mp h
  obtain ⟨hanswer, rfl⟩ := canStart_ok.mp ha
  have hlook : Takes s [] s.passComments := .look hs
  cases answer with
  | true =>
    obtain ⟨k, s₂, hk, h⟩ := bind_ok.mp h
    obtain ⟨rfl, rfl⟩ := look_ok.mp hk
    obtain ⟨type, s₃, ht, h⟩ := bind_ok.mp h
    obtain ⟨us, hus, hspell, hwf⟩ := simpleType_sound hlook.closed.passComments ht
    obtain ⟨he, rfl⟩ := pure_ok.mp h
    obtain ⟨rfl, rfl, rfl⟩ : _ ∧ _ ∧ _ := by simpa [Prod.ext_iff] using he
    obtain ⟨k, us, rfl, -⟩ := hspell.begins
    have hcurrent : s.current = k := current_of_tokens (by simpa using hus.tokens)
    subst hcurrent
    refine ⟨_, (hlook.trans (.look hlook.closed)).trans hus, .builtin hspell, ?_, ?_⟩
    · exact fun vs ts hvs => .builtin hspell hvs
    · intro vs hvs
      refine ⟨hwf, rfl, ?_⟩
      cases vs with
      | none => rfl
      | some values =>
        obtain ⟨hne, hlen, -⟩ := hvs values rfl
        exact absurd (List.length_eq_zero_iff.mp hlen) hne
  | false =>
    obtain ⟨y, s₂, hy, h⟩ := bind_ok.mp h
    obtain ⟨us, hus, hspell⟩ := name_sound hlook.closed hy
    obtain ⟨⟨id, parameters⟩, s₃, hr, hend⟩ := bind_ok.mp h
    obtain ⟨type, hfind, hcount, rfl⟩ := resolveType_ok.mp hr
    obtain ⟨he, rfl⟩ := pure_ok.mp hend
    obtain ⟨rfl, rfl, rfl⟩ : _ ∧ _ ∧ _ := by simpa [Prod.ext_iff] using he
    rw [hus.types, types_passComments, htypes] at hfind
    obtain ⟨d, hd, hname, rfl⟩ := TypeTable.find?_of hfind
    refine ⟨us, hlook.trans hus, ?_, fun vs ts hvs => .declared hspell hvs, ?_⟩
    · obtain rfl : parameters = d.body.parameters.length := hcount
      cases hspell with
      | mk hk => exact .declared hk (List.mem_of_getElem? hd) hname
    intro vs hvs
    refine ⟨d, hd, hname, fun values hmem => ?_⟩
    obtain ⟨-, hlen, hgood⟩ := hvs values hmem
    exact ⟨hlen.trans hcount, hgood⟩

theorem reference_sound {r : Reference} (hs : s.Closed) (hn : s.scope.Holds names)
    (htypes : s.types = TypeTable.of before)
    (h : descend (readRule n) .reference s = .ok r s') :
    ∃ us, Takes s us s' ∧ r.SpelledBy us ∧ r.WellFormed before names := by
  obtain ⟨m, s₁, rfl, hrun, rfl⟩ := level_of_descend h
  clear h
  obtain ⟨⟨x, target, count⟩, s₂, ht, h⟩ := bind_ok.mp hrun
  obtain ⟨us, hus, -, hspell, hwf⟩ := target_sound names (hs.opened _) htypes ht
  obtain ⟨answer, s₃, ha, h⟩ := bind_ok.mp h
  obtain ⟨-, rfl⟩ := canStart_ok.mp ha
  have hlook : Takes (s.opened .reference) us s₂.passComments := by
    simpa using hus.trans (.look hus.closed)
  cases answer with
  | true =>
    obtain ⟨vs, s₄, hvs, h⟩ := bind_ok.mp h
    have hscope : s₂.passComments.scope.Holds names := by rwa [hlook.scope]
    obtain ⟨ts, hts, hvspell, hvwf⟩ := values_sound hlook.closed hscope hvs
    split at h
    · rename_i hlen
      obtain ⟨rfl, rfl⟩ := pure_ok.mp h
      refine ⟨us ++ ts, (hlook.trans hts).rule, hspell _ _ (.some hvspell), hwf _ ?_⟩
      intro values hmem
      obtain rfl := Option.mem_some_iff.mp hmem
      exact ⟨hvspell.items_ne_nil, hlen, hvwf⟩
    · exact absurd (fail_ok.mp h) id
  | false =>
    obtain ⟨rfl, rfl⟩ := pure_ok.mp h
    refine ⟨us, hlook.rule, by simpa using hspell _ _ .none, hwf _ ?_⟩
    intro values hmem
    exact absurd hmem (by simp)

/-! ## Members -/

theorem field_sound {f : Field} {known : List Name} (hs : s.Closed)
    (hn : s.scope = .of known) (htypes : s.types = TypeTable.of before)
    (h : descend (readRule n) .field s = .ok f s') :
    ∃ us, Passes s us s' ∧ f.SpelledBy us ∧ s'.scope = .of (known ++ [f.name]) ∧
      f.type.WellFormed before (texts known) ∧ f.name.text ∉ texts known := by
  obtain ⟨m, s₁, rfl, hrun, rfl⟩ := level_of_descend h
  clear h
  obtain ⟨x, s₂, hx, h⟩ := bind_ok.mp hrun
  obtain ⟨us, hus, hxspell⟩ := name_sound (hs.opened _) hx
  obtain ⟨r, s₃, hr, h⟩ := bind_ok.mp h
  have hscope : s₂.scope = .of known := hus.scope.trans hn
  have hholds : s₂.scope.Holds (texts known) := hscope ▸ Scope.holds_of known
  obtain ⟨ts, hts, hrspell, hwf⟩ := reference_sound hus.closed hholds (hus.types.trans htypes) hr
  obtain ⟨_, s₄, hd, h⟩ := bind_ok.mp h
  obtain ⟨scope, hdeclare, rfl⟩ := declareName_ok.mp hd
  rw [hts.scope, hscope] at hdeclare
  obtain ⟨hnew, rfl⟩ := Scope.declare_of.mp hdeclare
  obtain ⟨rfl, rfl⟩ := pure_ok.mp h
  have hall := (hus.trans hts).toPasses.withScope (.of (known ++ [x]))
  exact ⟨us ++ ts, hall.rule, .mk hxspell hrspell, rfl, hwf, hnew⟩

theorem branch_sound {b : Branch} (hs : s.Closed) (hn : s.scope.Holds names)
    (htypes : s.types = TypeTable.of before) (hlevels : n + 2 ≤ nestingLimit)
    (h : descend (readRule n) .branch s = .ok b s') :
    ∃ us, Takes s us s' ∧ b.SpelledBy us ∧ b.WellFormed before names := by
  obtain ⟨m, s₁, rfl, hrun, rfl⟩ := level_of_descend h
  clear h
  obtain ⟨r, s₂, hr, h⟩ := bind_ok.mp hrun
  obtain ⟨us, hus, hrspell, hrwf⟩ := reference_sound (hs.opened _) hn htypes hr
  obtain ⟨o, s₃, ho, h⟩ := bind_ok.mp h
  obtain ⟨hopen, hos⟩ := take_sound hus.closed (by decide) ho
  obtain ⟨c, s₄, hc, h⟩ := bind_ok.mp h
  have hscope : s₃.scope.Holds names := by rwa [hos.scope, hus.scope]
  obtain ⟨ts, hts, hcspell, hcwf⟩ := condition_sound hos.closed hscope hlevels hc
  obtain ⟨e, s₅, he, h⟩ := bind_ok.mp h
  obtain ⟨hclose, hes⟩ := take_sound hts.closed (by decide) he
  obtain ⟨rfl, rfl⟩ := pure_ok.mp h
  have hall := ((hus.trans hos).trans hts).trans hes
  refine ⟨us ++ (o :: (ts ++ [e])), by simpa using hall.rule, .mk hrspell ?_, hrwf, hcwf⟩
  exact .mk (List.mem_singleton.mp hopen) hcspell (List.mem_singleton.mp hclose)

end RecordSchema.Parser
