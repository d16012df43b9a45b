import RecordSchema.Proofs.Refusal.Declaration

/-!
# What a refusal points at

The offsets and texts in the cause of a refusal are those of tokens: of the one that is refused, of
the name of the declaration it is in, or of what is in its way further in front. `Cause.Located`
says which tokens these are, in which order they stand, and of which kind they are.

Results:
* `DeclarationSlip.located`: the cause of every refused declaration is located.
-/

namespace RecordSchema

/-- The offsets and texts of a cause are those of some tokens. -/
inductive Cause.Located (ts : List Token) : Cause → Prop
  | unexpected {kinds : List TokenKind} {t : Token} (ht : t ∈ ts) :
      Located ts (.unexpectedToken kinds t.kind t.offset t.length)
  | number {t : Token} (ht : t ∈ ts) (hkind : t.kind = .number ∨ t.kind = .width) :
      Located ts (.invalidNumber t.text t.offset)
  | nested {t : Token} (ht : t ∈ ts) (hkind : t.kind ≠ .endOfInput) :
      Located ts (.nestedTooDeep t.offset)
  | undeclaredName {t : Token} (ht : t ∈ ts) : Located ts (.undeclaredName t.text t.offset)
  | undeclaredType {t : Token} (ht : t ∈ ts) : Located ts (.undeclaredType t.text t.offset)
  | valueCount {t : Token} {expected got : Nat} (ht : t ∈ ts) :
      Located ts (.valueCount t.text expected got t.offset)
  | builtinCount {k : Token} {b : Builtin} {expected got : Nat} (hk : k ∈ ts)
      (hkind : k.kind = b.word) : Located ts (.valueCount b.keyword expected got k.offset)
  | parameterCount {t : Token} {expected got : Nat} (ht : t ∈ ts) :
      Located ts (.parameterCount t.text expected got t.offset)
  | missingDefault {t : Token} (ht : t ∈ ts) : Located ts (.missingDefault t.text t.offset)
  | nameInUse {u t : Token} (h : [u, t].Sublist ts) (hkind : u.kind = .identifier)
      (htext : u.text = t.text) : Located ts (.nameInUse t.text t.offset u.offset)
  | duplicateDefault {t u : Token} (h : [t, u].Sublist ts) :
      Located ts (.duplicateDefault t.text t.offset u.offset)

/-- More tokens locate what some of them do. -/
theorem Cause.Located.mono {us ts : List Token} {c : Cause} (h : Located us c)
    (hsub : us.Sublist ts) : Located ts c := by
  cases h with
  | unexpected ht => exact .unexpected (hsub.subset ht)
  | number ht hkind => exact .number (hsub.subset ht) hkind
  | nested ht hkind => exact .nested (hsub.subset ht) hkind
  | undeclaredName ht => exact .undeclaredName (hsub.subset ht)
  | undeclaredType ht => exact .undeclaredType (hsub.subset ht)
  | valueCount ht => exact .valueCount (hsub.subset ht)
  | builtinCount hk hkind => exact .builtinCount (hsub.subset hk) hkind
  | parameterCount ht => exact .parameterCount (hsub.subset ht)
  | missingDefault ht => exact .missingDefault (hsub.subset ht)
  | nameInUse h hkind htext => exact .nameInUse (h.trans hsub) hkind htext
  | duplicateDefault h => exact .duplicateDefault (h.trans hsub)

/-- Tokens in front do not matter. -/
theorem Cause.Located.behind {ts : List Token} {c : Cause} (h : Located ts c) (us : List Token) :
    Located (us ++ ts) c :=
  h.mono (List.sublist_append_right us ts)

/-- A token in front of another one. -/
theorem sublist_pair {u t : Token} {us ts : List Token} (hu : u ∈ us) (ht : t ∈ ts) :
    [u, t].Sublist (us ++ ts) :=
  (List.singleton_sublist.mpr hu).append (List.singleton_sublist.mpr ht)

/-- The span of a cause begins with one of the tokens. -/
theorem Cause.Located.start_mem {ts : List Token} {c : Cause} (h : Located ts c) :
    ∃ t ∈ ts, c.span.start = t.offset := by
  cases h with
  | unexpected ht => exact ⟨_, ht, rfl⟩
  | number ht _ => exact ⟨_, ht, rfl⟩
  | nested ht _ => exact ⟨_, ht, rfl⟩
  | undeclaredName ht => exact ⟨_, ht, rfl⟩
  | undeclaredType ht => exact ⟨_, ht, rfl⟩
  | valueCount ht => exact ⟨_, ht, rfl⟩
  | builtinCount hk _ => exact ⟨_, hk, rfl⟩
  | parameterCount ht => exact ⟨_, ht, rfl⟩
  | missingDefault ht => exact ⟨_, ht, rfl⟩
  | nameInUse h _ _ => exact ⟨_, h.subset (List.mem_cons_of_mem _ List.mem_cons_self), rfl⟩
  | duplicateDefault h => exact ⟨_, h.subset List.mem_cons_self, rfl⟩

/-! ## Names among tokens -/

/-- The name is that of an identifier among the tokens. -/
def Name.StandsIn (n : Name) (ts : List Token) : Prop :=
  ∃ t ∈ ts, t.kind = .identifier ∧ n = ⟨t.text, t.offset⟩

theorem Name.StandsIn.mono {n : Name} {us ts : List Token} (h : n.StandsIn us) (hsub : us ⊆ ts) :
    n.StandsIn ts := by
  obtain ⟨t, ht, hn⟩ := h
  exact ⟨t, hsub ht, hn⟩

theorem Name.SpelledBy.standsIn {n : Name} {us : List Token} (h : n.SpelledBy us) :
    n.StandsIn us := by
  cases h with
  | mk ht => exact ⟨_, List.mem_singleton.mpr rfl, ht, rfl⟩

theorem Field.SpelledBy.standsIn {f : Field} {us : List Token} (h : f.SpelledBy us) :
    f.name.StandsIn us := by
  cases h with
  | mk hn _ => exact hn.standsIn.mono (List.subset_append_left _ _)

theorem Declaration.SpelledBy.standsIn {d : Declaration} {us : List Token} (h : d.SpelledBy us) :
    d.name.StandsIn us := by
  cases h with
  | mk hn _ _ => exact hn.standsIn.mono (List.subset_append_left _ _)

/-- A branch begins where its type does. -/
theorem Branch.SpelledBy.type_offset {b : Branch} {us : List Token} (h : b.SpelledBy us) :
    ∃ t ∈ us, b.type.name.offset = t.offset := by
  cases h with
  | mk hr _ =>
    cases hr with
    | builtin _ _ => exact ⟨_, List.mem_cons_self, rfl⟩
    | declared hn _ =>
      cases hn with
      | mk _ => exact ⟨_, List.mem_cons_self, rfl⟩

/-- Names in brackets stand there. -/
theorem standsIn_bracketed {ps : List Name} {us : List Token}
    (h : Bracketed Name.SpelledBy ps us) : ∀ p ∈ ps, p.StandsIn us := by
  cases h with
  | mk _ hlist _ =>
    intro p hp
    obtain ⟨vs, hvs, hsub⟩ := hlist.item_of_mem hp
    exact hvs.standsIn.mono fun t ht => by simp [hsub ht]

namespace Parser

open Cause

variable {before : List Declaration} {x : Name} {known ps : List Name} {bs : List Branch}
  {front ts : List Token} {c : Cause}

/-! ## Slips among tokens -/

theorem Malformed.located (h : Malformed ts c) : Located ts c := by
  cases h with
  | unexpected _ => exact .unexpected List.mem_cons_self
  | number ht _ => exact .number List.mem_cons_self (Or.inl ht)
  | width ht _ => exact .number List.mem_cons_self (Or.inr ht)
  | nested ht => exact .nested List.mem_cons_self ht

theorem Ahead.located {P : List Token → Cause → Prop} (hp : ∀ {ts c}, P ts c → Located ts c)
    (h : Ahead P ts c) : Located ts c := by
  obtain ⟨us, vs, rfl, h⟩ := h
  exact (hp h).behind us

theorem OperandSlip.located {names : List String} (h : OperandSlip names ts c) :
    Located ts c := by
  cases h with
  | malformed h => exact h.located
  | name _ _ => exact .undeclaredName List.mem_cons_self

theorem ReferenceSlip.located {names : List String} (h : ReferenceSlip before names ts c) :
    Located ts c := by
  cases h with
  | malformed h => exact h.located Malformed.located
  | type _ _ => exact .undeclaredType List.mem_cons_self
  | values _ h =>
    cases h with
    | malformed h => exact (h.located Malformed.located).behind _
    | value _ _ h => exact ((h.located.behind _).behind [_]).behind _
  | count hx _ _ =>
    cases hx with
    | builtin h =>
      cases h with
      | bare hk => exact .builtinCount List.mem_cons_self hk
      | wide hk _ _ => exact .builtinCount List.mem_cons_self hk
    | declared _ _ _ => exact .valueCount List.mem_cons_self

theorem ParametersSlip.located (h : ParametersSlip ts c) : Located ts c := by
  cases h with
  | malformed h => exact h.located Malformed.located
  | @again o t ps p us ts ho hp ht hmem hname =>
    obtain ⟨vs, hvs, hsub⟩ := hp.item_of_mem hmem
    obtain ⟨u, hu, hkind, rfl⟩ := hvs.standsIn
    have hpair : [u, t].Sublist ((o :: us) ++ t :: ts) :=
      sublist_pair (List.mem_cons_of_mem _ (hsub hu)) List.mem_cons_self
    exact .nameInUse hpair hkind hname

/-- Where the names known before a field stand in front of it. -/
theorem FieldSlip.located (h : FieldSlip before known ts c)
    (hknown : ∀ p ∈ known, p.StandsIn front) : Located (front ++ ts) c := by
  cases h with
  | malformed h => exact (h.located Malformed.located).behind _
  | type _ h => exact (h.located.behind [_]).behind _
  | again _ _ hmem hname =>
    obtain ⟨u, hu, hkind, rfl⟩ := hknown _ hmem
    exact .nameInUse (sublist_pair hu List.mem_cons_self) hkind hname

theorem FieldsSlip.located (h : FieldsSlip before ps ts c) (hps : ∀ p ∈ ps, p.StandsIn front) :
    Located (front ++ ts) c := by
  cases h with
  | malformed h => exact (h.located Malformed.located).behind _
  | @field o fs us ts _ _ hf h =>
    rw [← List.cons_append, ← List.append_assoc]
    refine h.located fun p hp => ?_
    rcases List.mem_append.mp hp with hp | hp
    · exact (hps p hp).mono (List.subset_append_left _ _)
    · obtain ⟨g, hg, rfl⟩ := List.mem_map.mp hp
      obtain ⟨vs, hvs, hsub⟩ := hf.item_of_mem hg
      exact hvs.standsIn.mono fun t ht => by simp [hsub ht]

theorem BranchSlip.located {between : List Token} (h : BranchSlip before x ps bs ts c)
    (hx : x.StandsIn front) (hbs : ∀ b ∈ bs, ∃ t ∈ between, b.type.name.offset = t.offset) :
    Located (front ++ (between ++ ts)) c := by
  cases h with
  | malformed h => exact ((h.located Malformed.located).behind between).behind front
  | type h => exact (h.located.behind between).behind front
  | @condition r o us ts c _ _ h =>
    have hlocated := (h.located OperandSlip.located).behind [o]
    exact ((hlocated.behind _).behind between).behind front
  | @duplicate b first us ts _ _ hfirst =>
    obtain ⟨t, ht, -, rfl⟩ := hx
    have hmem : first ∈ bs := List.mem_of_mem_filter (hfirst ▸ List.mem_singleton.mpr rfl)
    obtain ⟨u, hu, hoffset⟩ := hbs first hmem
    rw [hoffset]
    exact .duplicateDefault (sublist_pair ht (List.mem_append_left _ hu))

theorem BodySlip.located (h : BodySlip before x ts c) (hx : x.StandsIn front) :
    Located (front ++ ts) c := by
  cases h with
  | malformed h => exact (h.located Malformed.located).behind _
  | @parameters k ts _ _ h =>
    exact (h.located.behind [k]).behind front
  | parameterCount _ _ _ =>
    obtain ⟨t, ht, -, rfl⟩ := hx
    exact .parameterCount (List.mem_append_left _ ht)
  | @fields ps us ts _ hh h =>
    refine (FieldsSlip.located h ?_).behind front
    cases hh with
    | bare _ => exact fun p hp => absurd hp List.not_mem_nil
    | sequence _ hp =>
      exact fun p hmem => (standsIn_bracketed hp p hmem).mono (List.subset_cons_self _ _)
    | array _ hp =>
      exact fun p hmem => (standsIn_bracketed hp p hmem).mono (List.subset_cons_self _ _)
  | @branch k o ps bs us vs ts _ _ _ _ hb h =>
    have hbs : ∀ b ∈ bs, ∃ t ∈ k :: (us ++ o :: vs), b.type.name.offset = t.offset := by
      intro b hmem
      obtain ⟨ws, hws, hsub⟩ := hb.item_of_mem hmem
      obtain ⟨t, ht, hoffset⟩ := hws.type_offset
      exact ⟨t, by simp [hsub ht], hoffset⟩
    have hlocated := h.located hx hbs
    rwa [show k :: (us ++ o :: vs) ++ ts = k :: (us ++ o :: (vs ++ ts)) by simp] at hlocated
  | missingDefault _ _ _ _ =>
    obtain ⟨t, ht, -, rfl⟩ := hx
    exact .missingDefault (List.mem_append_left _ ht)

/-- **The cause of a refused declaration** is about its own tokens and about the names of the
declarations in front of it. -/
theorem DeclarationSlip.located (h : DeclarationSlip before ts c)
    (hbefore : ∀ d ∈ before, d.name.StandsIn front) : Located (front ++ ts) c := by
  cases h with
  | malformed h => exact (h.located Malformed.located).behind _
  | again _ hd hname =>
    obtain ⟨u, hu, hkind, he⟩ := hbefore _ hd
    rw [he] at hname ⊢
    exact .nameInUse (sublist_pair hu List.mem_cons_self) hkind hname
  | @body t a ts _ ht _ _ h =>
    have hname : Name.StandsIn ⟨t.text, t.offset⟩ [t, a] := ⟨t, List.mem_cons_self, ht, rfl⟩
    exact (h.located hname).behind front

/-- The fault of a refused declaration begins inside it. -/
theorem DeclarationSlip.start_mem (h : DeclarationSlip before ts c) :
    ∃ t ∈ ts, c.span.start = t.offset := by
  cases h with
  | malformed h => exact (h.located Malformed.located).start_mem
  | again _ _ _ => exact ⟨_, List.mem_cons_self, rfl⟩
  | @body t a ts _ ht _ _ h =>
    have hname : Name.StandsIn ⟨t.text, t.offset⟩ [t, a] := ⟨t, List.mem_cons_self, ht, rfl⟩
    exact (h.located hname).start_mem

end Parser

end RecordSchema
