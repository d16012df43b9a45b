import RecordSchema.Proofs.Reparsing.Unbraced

/-!
# Choices without one default branch

A choice of which everything else is in order is refused for the number of its default branches: at
its end if there is none, and behind the second one if there are several. The declarations in front
of it are finished by then, and those behind it are not looked at.

Results:
* `Schema.ButForDefaults.wellFormed_iff`: what is well-formed but for the defaults of one choice is
  well-formed if that has one.
* `branches_doubled`: the loop over the branches ends behind the second default.
* `Schema.parse_miscounted`: a text with one such choice.
-/

namespace RecordSchema

/-! ## What else is in order -/

/-- The choice `x` with the branches `bs` is one of the declarations of a schema that is well-formed
if the number of default branches of this choice is left out of account. -/
inductive Schema.ButForDefaults (x : Name) (bs : List Branch) : Schema → Prop
  | mk {before after : List Declaration} {ps : List Name}
      (hbefore : DeclarationsWellFormed [] before) (hnew : x.text ∉ before.map (·.name.text))
      (hsome : ps ≠ []) (hps : (texts ps).Nodup) (hne : bs ≠ [])
      (hbs : ∀ b ∈ bs, b.WellFormed before (texts ps))
      (hafter : DeclarationsWellFormed (before ++ [⟨x, .choice ps bs⟩]) after) :
      ButForDefaults x bs ⟨before ++ ⟨x, .choice ps bs⟩ :: after⟩

/-- **Nothing but the number of default branches** is left out. -/
theorem Schema.ButForDefaults.wellFormed_iff {x : Name} {bs : List Branch} {p : Schema}
    (h : p.ButForDefaults x bs) : p.WellFormed ↔ bs.countP (·.condition.isDefault) = 1 := by
  obtain ⟨hbefore, hnew, hsome, hps, hne, hbs, hafter⟩ := h
  rw [Schema.WellFormed, DeclarationsWellFormed.append_iff]
  constructor
  · rintro ⟨-, -, ⟨-, -, -, hcount, -⟩, -⟩
    exact hcount
  · exact fun hcount => ⟨hbefore, hnew, ⟨hsome, hps, hne, hcount, hbs⟩, hafter⟩

/-- A trail in two parts. -/
theorem Trail.of_append {α : Type} {sep : List Token → Prop} {item : α → List Token → Prop}
    {as bs : List α} {ts : List Token} (h : Trail sep item (as ++ bs) ts) :
    ∃ us vs, ts = us ++ vs ∧ Trail sep item as us ∧ Trail sep item bs vs := by
  induction as generalizing ts with
  | nil => exact ⟨[], ts, rfl, .nil, h⟩
  | cons a as ih =>
    cases h with
    | cons hj ha h =>
      obtain ⟨us, vs, rfl, has, hbs⟩ := ih h
      exact ⟨_, vs, (List.append_assoc ..).symm, .cons hj ha has, hbs⟩

namespace Parser

open State

variable {α : Type} {n : Nat} {names : List String} {before : List Declaration}
  {us ts rest : List Token} {s s₁ : State}

/-- A fault about the open declaration. -/
theorem Fails.declaring (cause : Name → Cause) (s : State) :
    Fails (Parser.declaring >>= fun x => fail (cause x) : Parser α) s
      ⟨s.source, cause s.declaring⟩ :=
  ⟨s, rfl⟩

/-! ## Default branches -/

/-- What is wrong with the default branches of a choice that has not exactly one. -/
def defaultsCause (bs : List Branch) (x : Name) : Cause :=
  match defaultOffset? bs with
  | none => .missingDefault x.text x.offset
  | some first => .duplicateDefault x.text x.offset first

/-- Where the first default branch is does not depend on what follows it. -/
theorem defaultOffset?_append {bs : List Branch} {first : Nat} (h : defaultOffset? bs = some first)
    (cs : List Branch) : defaultOffset? (bs ++ cs) = some first := by
  obtain ⟨b, hfind, hb⟩ := Option.map_eq_some_iff.mp h
  rw [defaultOffset?, List.find?_append, hfind, Option.some_or, Option.map_some, hb]

/-- Of branches of which at most one is the default, that one is found from either end. -/
theorem defaultOffset?_reverse {bs : List Branch}
    (hcount : bs.countP (·.condition.isDefault) ≤ 1) :
    defaultOffset? bs.reverse = defaultOffset? bs := by
  cases hoffset : defaultOffset? bs with
  | none =>
    rw [defaultOffset?_eq_none] at hoffset ⊢
    rw [List.countP_reverse, hoffset]
  | some first =>
    obtain ⟨b, hfind, hb⟩ := Option.map_eq_some_iff.mp hoffset
    have hdefault : b.condition.isDefault = true := by simpa using List.find?_some hfind
    have hfilter := filter_default hcount (List.mem_of_find?_eq_some hfind) hdefault
    rw [defaultOffset?, ← List.head?_filter, hfilter, List.head?_cons, Option.map_some, hb]

/-- **A second default branch** is refused once it is read. -/
theorem nextBranch_doubled {sub : Rule → Parser Node} {bs : List Branch} {b : Branch} {first : Nat}
    (hb : descend sub .branch s = .ok b s₁) (hdefault : b.condition.isDefault = true)
    (hfirst : defaultOffset? bs = some first) :
    Fails (nextBranch sub bs) s
      ⟨s₁.source, .duplicateDefault s₁.declaring.text s₁.declaring.offset first⟩ := by
  refine .behind hb ?_
  rw [hfirst, hdefault]
  exact .declaring (fun x => .duplicateDefault x.text x.offset first) s₁

/-- Behind branches `seen`, newest first, the turns of the loop end in a fault if there is a second
default branch. -/
theorem turns_doubled {bs : List Branch} (hnodup : (before.map (·.name.text)).Nodup)
    (hlevels : nestingLimit ≤ n + 2) (h : Trail nothing Branch.SpelledBy bs ts) :
    ∀ {m : Nat} {seen : List Branch} {s : State}, Ready n s → s.scope.Holds names →
      s.types = TypeTable.of before → s.tokens = ts ++ rest →
      (∀ b ∈ bs, b.WellFormed before names) → seen.countP (·.condition.isDefault) ≤ 1 →
      2 ≤ seen.countP (·.condition.isDefault) + bs.countP (·.condition.isDefault) →
      bs.length < m →
      Fails (manyWithin (canStart .branch) (nextBranch (readRule n)) m seen) s
        ⟨s.source, defaultsCause (seen.reverse ++ bs) s.declaring⟩ := by
  induction h with
  | nil =>
    intro m seen s _ _ _ _ _ hseen htwo _
    rw [List.countP_nil] at htwo
    omega
  | @cons b bs js us ts hj hb _ ih =>
    intro m seen s hs hn htypes ht hwf hseen htwo hm
    obtain ⟨m, rfl⟩ := Nat.exists_eq_succ_of_ne_zero (Nat.ne_of_gt (Nat.zero_lt_of_lt hm))
    obtain rfl := hj
    rw [List.append_assoc] at ht
    obtain ⟨hmore, hlook⟩ := canStart_goesOn hs.closed hb.begins ht
    obtain ⟨hbwf, hwf⟩ := List.forall_mem_cons.mp hwf
    obtain ⟨s₁, hrun, htakes⟩ := branch_complete (hs.of_reads hlook.toReads) hn htypes hnodup
      (hlook.tokens_of ht) hb hbwf hlevels
    have hall := hlook.trans htakes
    have htokens := hall.tokens_of ht
    rw [List.countP_cons] at htwo
    rw [manyWithin]
    refine .behind hmore ?_
    rw [if_pos rfl, ← hall.source, ← hall.declaring]
    by_cases hsecond : b.condition.isDefault = true ∧ seen.countP (·.condition.isDefault) = 1
    · obtain ⟨hdefault, hone⟩ := hsecond
      obtain ⟨first, hfirst⟩ : ∃ first, defaultOffset? seen = some first := by
        refine Option.ne_none_iff_exists'.mp fun hnone => ?_
        rw [defaultOffset?_eq_none] at hnone
        omega
      rw [defaultsCause, defaultOffset?_append ((defaultOffset?_reverse hseen).trans hfirst)]
      exact (nextBranch_doubled hrun hdefault hfirst).first
    · have hnext (hdefault : b.condition.isDefault = true) :
          seen.countP (·.condition.isDefault) = 0 := by
        have hne : seen.countP (·.condition.isDefault) ≠ 1 := fun hone => hsecond ⟨hdefault, hone⟩
        omega
      have hcons : (b :: seen).countP (·.condition.isDefault) =
          seen.countP (·.condition.isDefault) + if b.condition.isDefault = true then 1 else 0 :=
        List.countP_cons ..
      have hone : (b :: seen).countP (·.condition.isDefault) ≤ 1 := by
        rw [hcons]
        split
        · rename_i hdefault
          rw [hnext hdefault]
        · exact hseen
      have hlater := ih (hs.of_reads hall.toReads) (by rwa [hall.scope])
        (hall.types.trans htypes) htokens hwf hone (by omega) (Nat.lt_of_succ_lt_succ hm)
      rw [List.reverse_cons, List.append_assoc, List.singleton_append] at hlater
      exact .behind (nextBranch_ok.mpr ⟨hrun, hnext⟩) hlater

/-- **The loop over the branches** ends in a fault if two of them are the default. -/
theorem branches_doubled {bs : List Branch} (hs : Ready n s) (hn : s.scope.Holds names)
    (htypes : s.types = TypeTable.of before) (hnodup : (before.map (·.name.text)).Nodup)
    (ht : s.tokens = ts ++ rest) (h : Listed nothing Branch.SpelledBy bs ts)
    (hwf : ∀ b ∈ bs, b.WellFormed before names) (htwo : 2 ≤ bs.countP (·.condition.isDefault))
    (hlevels : nestingLimit ≤ n + 2) :
    Fails (many1 (canStart .branch) (nextBranch (readRule n))) s
      ⟨s.source, defaultsCause bs s.declaring⟩ := by
  cases h with
  | @mk b bs us ts hb htrail =>
    rw [List.append_assoc] at ht
    obtain ⟨hbwf, hwf⟩ := List.forall_mem_cons.mp hwf
    obtain ⟨s₁, hrun, htakes⟩ := branch_complete hs hn htypes hnodup ht hb hbwf hlevels
    have htokens := htakes.tokens_of ht
    rw [← htakes.source, ← htakes.declaring]
    refine .behind (nextBranch_ok.mpr ⟨hrun, fun _ => rfl⟩) ?_
    refine .behind (tokensLeft_ok.mpr ⟨rfl, rfl⟩) ?_
    have hlength := htrail.length_le fun _ _ hb => hb.begins.ne_nil
    refine turns_doubled hnodup hlevels htrail (hs.of_reads htakes.toReads)
      (by rwa [htakes.scope]) (htakes.types.trans htypes) htokens hwf ?_ ?_ ?_
    · simp only [List.countP_cons, List.countP_nil]
      split <;> omega
    · simp only [List.countP_cons, List.countP_nil] at htwo ⊢
      omega
    · rw [htokens, List.length_append]
      omega

/-! ## Choices, bodies and declarations -/

/-- **A choice** without one default branch is refused for that. -/
theorem choice_miscounted {ps : List Name} {bs : List Branch} (hs : Ready n s)
    (hn : s.scope.Holds []) (htypes : s.types = TypeTable.of before)
    (hnodup : (before.map (·.name.text)).Nodup) {k : Token}
    (ht : s.tokens = k :: (us ++ ts) ++ rest) (hk : k.kind = .choice)
    (hp : Bracketed Name.SpelledBy ps us) (hb : Braced Branch.SpelledBy bs ts)
    (hps : (texts ps).Nodup) (hwf : ∀ b ∈ bs, b.WellFormed before (texts ps))
    (hcount : bs.countP (·.condition.isDefault) ≠ 1) (hlevels : nestingLimit ≤ n + 1) :
    Fails (descend (readRule n) .choice) s ⟨s.source, defaultsCause bs s.declaring⟩ := by
  have hlimit : 256 ≤ n + 1 := hlevels
  obtain ⟨n, rfl⟩ := Nat.exists_eq_add_of_le' (show 1 ≤ n by omega)
  refine .descend hs (begins_cons hk _) ht ?_
  rw [← tokens_opened s .choice, List.cons_append, List.append_assoc] at ht
  have hs₁ := hs.opened .choice
  obtain ⟨s₁, hrun₁, htakes₁⟩ := take_complete hs₁.closed ht (List.mem_singleton.mpr hk)
  have ht₁ : s₁.tokens = us ++ (ts ++ rest) := htakes₁.tokens_of ht
  have hempty : s₁.scope.Holds [] := by rwa [htakes₁.scope]
  obtain ⟨s₂, hrun₂, hpasses₂, hholds⟩ := parameters_complete (hs₁.of_reads htakes₁.toReads)
    hempty ht₁ hp hps (by omega)
  have ht₂ := hpasses₂.tokens_of ht₁
  refine .behind hrun₁ (.behind hrun₂ ?_)
  cases hb with
  | @mk o c ts ho hlist hc =>
    rw [List.cons_append, List.append_assoc] at ht₂
    obtain ⟨s₃, hrun₃, htakes₃⟩ := take_complete hpasses₂.closed ht₂ (List.mem_singleton.mpr ho)
    have ht₃ : s₃.tokens = ts ++ (c :: rest) := htakes₃.tokens_of ht₂
    have hall := (htakes₁.toPasses.trans hpasses₂).trans htakes₃.toPasses
    have hscope : s₃.scope.Holds (texts ps) := by rwa [htakes₃.scope]
    have hs₃ := hs₁.of_reads hall.toReads
    refine .behind hrun₃ ?_
    by_cases hnone : bs.countP (·.condition.isDefault) = 0
    · obtain ⟨s₄, hrun₄, htakes₄⟩ := branches_complete hs₃ hscope (hall.types.trans htypes) hnodup
        ht₃ hlist hwf (by omega) hlevels hc
      have hclose : c.kind ∈ Rule.branch.first ++ [.rightCurly] := by simp [hc]
      obtain ⟨s₅, hrun₅, htakes₅⟩ := take_complete htakes₄.closed (htakes₄.tokens_of ht₃) hclose
      have hpass := hall.trans (htakes₄.trans htakes₅).toPasses
      have hoffset := defaultOffset?_eq_none.mpr hnone
      refine .behind hrun₄ (.behind hrun₅ ?_)
      rw [if_pos (by rw [hoffset]; rfl), defaultsCause, hoffset]
      have hfails := Fails.declaring (α := Body) (fun x => .missingDefault x.text x.offset) s₅
      rwa [hpass.source, hpass.declaring] at hfails
    · have hfails := branches_doubled hs₃ hscope (hall.types.trans htypes) hnodup ht₃ hlist hwf
        (by omega) hlevels
      rw [hall.source, hall.declaring] at hfails
      exact hfails.first

theorem body_miscounted {ps : List Name} {bs : List Branch} (hs : Ready n s)
    (hn : s.scope.Holds []) (htypes : s.types = TypeTable.of before)
    (hnodup : (before.map (·.name.text)).Nodup) (ht : s.tokens = us ++ rest)
    (h : Body.SpelledBy (.choice ps bs) us) (hps : (texts ps).Nodup)
    (hwf : ∀ b ∈ bs, b.WellFormed before (texts ps))
    (hcount : bs.countP (·.condition.isDefault) ≠ 1) (hlevels : nestingLimit ≤ n + 1) :
    Fails (body (readRule n)) s ⟨s.source, defaultsCause bs s.declaring⟩ := by
  cases h with
  | choice hk hp hb =>
    have hlook : Takes s [] s.passComments := .look hs.closed
    exact .body .choice (by decide) (begins_cons hk _) ht (choice_miscounted
      (hs.of_reads hlook.toReads) hn htypes hnodup (hlook.tokens_of ht) hk hp hb hps hwf hcount
      hlevels)

/-- **The declaration** of a choice without one default branch is refused for that. -/
theorem declaration_miscounted {x : Name} {ps : List Name} {bs : List Branch} (hs : Ready n s)
    (htypes : s.types = TypeTable.of before) (hnodup : (before.map (·.name.text)).Nodup)
    (ht : s.tokens = us ++ rest) (h : Declaration.SpelledBy ⟨x, .choice ps bs⟩ us)
    (hnew : x.text ∉ before.map (·.name.text)) (hps : (texts ps).Nodup)
    (hwf : ∀ b ∈ bs, b.WellFormed before (texts ps))
    (hcount : bs.countP (·.condition.isDefault) ≠ 1) (hlevels : nestingLimit ≤ n) :
    Fails (descend (readRule n) .declaration) s ⟨s.source, defaultsCause bs x⟩ := by
  have hlimit : 256 ≤ n := hlevels
  obtain ⟨n, rfl⟩ := Nat.exists_eq_add_of_le' (show 1 ≤ n by omega)
  refine .descend hs h.begins ht ?_
  rw [← tokens_opened s .declaration] at ht
  have hs₁ := hs.opened .declaration
  cases h with
  | @mk _ _ a us ts hx ha hb =>
    rw [List.append_assoc] at ht
    obtain ⟨s₁, hrun₁, htakes₁⟩ := name_complete hs₁.closed ht hx
    have hfree : s₁.types.ensureFree x = .ok () := by
      rw [htakes₁.types.trans htypes]
      exact TypeTable.ensureFree_iff.mpr hnew
    have ht₁ := htakes₁.tokens_of ht
    obtain ⟨s₂, hrun₂, htakes₂⟩ := take_complete htakes₁.closed ht₁ (List.mem_singleton.mpr ha)
    have htakes := htakes₁.trans htakes₂
    have hs₂ := hs₁.of_reads htakes.toReads
    have hopened : Ready n { s₂ with scope := {}, declaring := x } := ⟨hs₂.closed, hs₂.levels⟩
    refine .behind hrun₁ (.behind (a := ()) (ensureFree_ok.mpr ⟨hfree, rfl⟩) ?_)
    refine .behind hrun₂ (.behind (a := ()) (openDeclaration_ok.mpr rfl) (.first ?_))
    have hbody := body_miscounted hopened Scope.holds_empty (htakes.types.trans htypes) hnodup
      (htakes₂.tokens_of ht₁) hb hps hwf hcount hlevels
    rw [show s.source = s₂.source from htakes.source.symm]
    exact hbody

/-! ## Runs -/

variable {source : SourceId} {lexemes : Lexemes}

/-- A run on lexemes that spell a choice without one default branch ends there. -/
theorem run_miscounted {x : Name} {bs : List Branch} {p : Schema} (hclosed : lexemes.Closed)
    (h : p.SpelledBy lexemes.tokens) (hwf : p.ButForDefaults x bs)
    (hcount : bs.countP (·.condition.isDefault) ≠ 1) :
    (run source lexemes).result = .error ⟨source, defaultsCause bs x⟩ := by
  obtain ⟨hbefore, hnew, -, hps, -, hbs, -⟩ := hwf
  obtain ⟨us, _, htokens, hus, hrest⟩ := Trail.of_append h
  cases hrest with
  | cons hj hd _ =>
    obtain rfl := hj
    rw [List.nil_append] at htokens
    have hready : Ready nestingLimit { source, lexemes } := ⟨hclosed, Nat.zero_add _⟩
    obtain ⟨s, hs, hreads⟩ := Finished.start.extend hclosed hready htokens hus hbefore
      (hd.begins.avoids (by decide) _)
    obtain ⟨-, htypes, hdone⟩ := hs.invariant hclosed
    have hlook : Takes s [] s.passComments := .look hreads.closed
    have hread := hreads.trans hlook.toReads
    have ht := hreads.tokens_of htokens
    obtain ⟨s', hrun⟩ := declaration_miscounted (hready.of_reads hread) htypes
      (hdone.nodup List.nodup_nil) (hlook.tokens_of ht) hd hnew hps hbs hcount (Nat.le_refl _)
    rw [hread.source] at hrun
    exact hs.error_of hclosed (current_ne_end hd.begins ht) hrun

end Parser

/-- **A text with a choice without one default branch** that meets every other rule is refused for
the number of its default branches. -/
theorem Schema.parse_miscounted {source : SourceId} {text : String} {x : Name} {bs : List Branch}
    {p : Schema} (hnormal : Text.isNormalized text.toList = true)
    (h : p.SpelledBy (Text.tokens text)) (hwf : p.ButForDefaults x bs) :
    (bs.countP (·.condition.isDefault) = 0 → (Schema.parse source text).result =
      .error ⟨source, .missingDefault x.text x.offset⟩) ∧
    (2 ≤ bs.countP (·.condition.isDefault) → ∃ first ∈ bs.find? (·.condition.isDefault),
      (Schema.parse source text).result =
        .error ⟨source, .duplicateDefault x.text x.offset first.type.name.offset⟩) := by
  rw [Schema.parse_of_normalized hnormal]
  have hrun (hcount : bs.countP (·.condition.isDefault) ≠ 1) :
      (Parser.run source _).result = .error ⟨source, Parser.defaultsCause bs x⟩ :=
    Parser.run_miscounted (Scan.lexemes_closed _) h hwf hcount
  constructor
  · intro hnone
    rw [hrun (by omega), Parser.defaultsCause, Parser.defaultOffset?_eq_none.mpr hnone]
  · intro htwo
    cases hfind : bs.find? (·.condition.isDefault) with
    | none =>
      have hnone := List.countP_eq_zero.mpr (List.find?_eq_none.mp hfind)
      omega
    | some first =>
      refine ⟨first, rfl, ?_⟩
      rw [hrun (by omega), Parser.defaultsCause, Parser.defaultOffset?, hfind, Option.map_some]

end RecordSchema
