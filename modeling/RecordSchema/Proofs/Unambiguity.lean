import RecordSchema.Proofs.Resolution
import RecordSchema.Proofs.Unambiguity.Member

/-!
# Renderings tell schemas apart

A rendering leaves out braces and commas, and shows no positions of declarations. Still it tells the
schema up to offsets. The members of a declaration end where a name with a sign of assignment behind
it begins the next one, and what a reference refers to is told by its name, since no name is
declared twice.

Results:
* `Body.tells`, `Declaration.tells`: one declaration, in front of another one or of nothing.
* `DeclarationsWellFormed.tell`: declarations one behind the other.
* `Schema.render_eq_iff`: schemas that were read have one rendering exactly if they differ in
  offsets only.
-/

namespace RecordSchema

/-! ## Declarations -/

/-- What may stand behind a declaration: nothing, or a name and a sign of assignment. -/
def Ended (ws : List Word) : Prop :=
  ws = [] ∨ ∃ n a rest, ws = n :: a :: rest ∧ n.1 = .identifier ∧ a.1 = .assignment

theorem Ended.clear {ws : List Word} (h : Ended ws) {kinds : List TokenKind}
    (hkinds : .identifier ∉ kinds) : Clear kinds ws := by
  rcases h with rfl | ⟨n, a, rest, rfl, hn, -⟩
  · exact clear_nil kinds
  · exact clear_cons.mpr (hn ▸ hkinds)

/-- A name with something other than an assignment behind it begins a member. -/
theorem not_ended {n : String} {kinds : List TokenKind} {us : List Token} (h : Begins kinds us)
    (hkept : ∀ kind ∈ kinds, kind ∉ wordless) (hkinds : .assignment ∉ kinds) (ws : List Word) :
    ¬ Ended ((.identifier, n) :: (words us ++ ws)) := by
  obtain ⟨w, rest, hwords, hk⟩ := h.word hkept
  rw [hwords]
  rintro (h | ⟨_, a, _, h, -, ha⟩)
  · exact absurd h (List.cons_ne_nil _ _)
  · obtain ⟨-, h⟩ := List.cons.inj h
    obtain ⟨rfl, -⟩ := List.cons.inj h
    exact hkinds (ha ▸ hk)

theorem Field.delimits (named : List String) :
    Delimits nothing (Field.Known named) [] (Clear [.width, .leftSquare]) Ended := by
  refine ⟨fun js hj => by rw [show js = [] from hj]; rfl, ?_, fun ws h => h.clear (by decide), ?_⟩
  · rintro f us ⟨hf, -⟩ ws
    exact hf.begins.clear (by decide) (by decide) ws
  · rintro f us ⟨hf, -⟩ ws
    cases hf with
    | mk hn hr =>
      rw [List.nil_append, words_append, hn.words, List.append_assoc]
      exact not_ended hr.begins (by decide) (by decide) ws

theorem Branch.delimits (named : List String) :
    Delimits nothing (Branch.Known named) [] (Clear []) Ended := by
  refine ⟨fun js hj => by rw [show js = [] from hj]; rfl, fun _ _ _ _ => clear_any _,
    fun _ _ => clear_any _, ?_⟩
  rintro b us ⟨hb, -⟩ ws
  cases hb with
  | mk hr hc =>
    cases hr with
    | builtin ht hv =>
      intro hended
      obtain ⟨w, rest, hwords, hk⟩ := ((ht.begins.append _).append _).word (by decide)
      rw [List.nil_append, hwords] at hended
      exact clear_cons.mp (hended.clear (show _ ∉ Rule.typeWords by decide)) hk
    | declared hn hv =>
      rw [List.nil_append, List.append_assoc, words_append, hn.words, List.append_assoc]
      cases hv with
      | none => exact not_ended hc.begins (by decide) (by decide) ws
      | some hv => exact not_ended (hv.begins.append _) (by decide) (by decide) ws

/-- The members of a list are resolved if each of them is. -/
theorem Trail.and {α : Type} {sep : List Token → Prop} {item : α → List Token → Prop}
    {P : α → Prop} {as : List α} {ts : List Token} (h : Trail sep item as ts)
    (hp : ∀ a ∈ as, P a) : Trail sep (fun a ts => item a ts ∧ P a) as ts := by
  induction h with
  | nil => exact .nil
  | cons hj hi _ ih =>
    obtain ⟨ha, has⟩ := List.forall_mem_cons.mp hp
    exact .cons hj ⟨hi, ha⟩ (ih has)

theorem Braced.and {α : Type} {item : α → List Token → Prop} {P : α → Prop} {as : List α}
    {ts : List Token} (h : Braced item as ts) (hp : ∀ a ∈ as, P a) :
    Braced (fun a ts => item a ts ∧ P a) as ts := by
  cases h with
  | mk ho hlist hc =>
    cases hlist with
    | mk hi ht =>
      obtain ⟨ha, has⟩ := List.forall_mem_cons.mp hp
      exact .mk ho (.mk ⟨hi, ha⟩ (ht.and has)) hc

/-- A keyword, parameters that may be left out, and members in braces. -/
def Composite {α : Type} (keyword : TokenKind) (item : α → List Token → Prop)
    (ps : Option (List Name)) (xs : List α) (ts : List Token) : Prop :=
  ∃ k us vs, ts = k :: (us ++ vs) ∧ k.kind = keyword ∧
    Optional (Bracketed Name.SpelledBy) ps us ∧ Braced item xs vs

/-- The parameters and the members of a body are told by its words. -/
theorem Composite.tells {α : Type} {keyword : TokenKind} {item : α → List Token → Prop}
    {erase : α → α} {inner : List Word → Prop} {kinds : List TokenKind}
    {ps qs : Option (List Name)} {xs ys : List α} {us vs : List Token} {ws ws' : List Word}
    (hkeyword : keyword ∉ wordless) (hbegins : ∀ x us, item x us → Begins kinds us)
    (hkept : ∀ kind ∈ kinds, kind ∉ wordless) (hdisjoint : ∀ kind ∈ kinds, kind ∉ [.leftSquare])
    (hdelimits : Delimits nothing item [] inner Ended) (hitem : ∀ x, Tells item erase inner x)
    (hx : Composite keyword item ps xs us) (hy : Composite keyword item qs ys vs)
    (hws : Ended ws) (hws' : Ended ws') (heq : words us ++ ws = words vs ++ ws') :
    ps.map (List.map (Name.relocate .erasure)) = qs.map (List.map (Name.relocate .erasure)) ∧
      xs.map erase = ys.map erase ∧ ws = ws' := by
  obtain ⟨k, us, us', rfl, hk, hps, hxs⟩ := hx
  obtain ⟨k', vs, vs', rfl, hk', hqs, hys⟩ := hy
  have hclear {zs : List α} {ts : List Token} (h : Braced item zs ts) (ws : List Word) :
      Clear [.leftSquare] (words ts ++ ws) := by
    cases h with
    | mk ho hlist hc =>
      rw [words_wordless (ho ▸ by decide), words_append, List.append_assoc]
      exact (Listed.begins hbegins hlist).clear hkept hdisjoint _
  have hnames := Optional.tells (fun _ _ hlist => hlist.begins) (by decide)
    (Bracketed.tells [.identifier] (fun _ _ hn => hn.begins) (by decide) (by decide) Name.tells) ps
  have hmembers := Braced.tells (Listed.tells hdelimits fun x (_ : x ∈ xs) => hitem x)
  obtain ⟨-, heq⟩ := words_token_inj (hk ▸ hkeyword) (hk' ▸ hkeyword) heq
  rw [words_append, words_append, List.append_assoc, List.append_assoc] at heq
  obtain ⟨hparameters, heq⟩ := hnames _ _ _ _ _ hps hqs (hclear hxs _) (hclear hys _) heq
  obtain ⟨hall, hws⟩ := hmembers _ _ _ _ _ hxs hys hws hws' heq
  exact ⟨hparameters, hall, hws⟩

namespace Body

/-- The kinds of tokens that a body can begin with. -/
def first : Body → List TokenKind
  | simple _ => Rule.typeWords
  | sequence .. => [.sequence]
  | array .. => [.array]
  | choice .. => [.choice]

theorem first_kept (b : Body) : ∀ kind ∈ b.first, kind ∉ wordless := by
  cases b <;> simp [first, Rule.typeWords, wordless]

theorem SpelledBy.begins {b : Body} {ts : List Token} (h : b.SpelledBy ts) :
    Begins b.first ts := by
  cases h with
  | simple ht => exact ht.begins
  | bare hk _ | sequence hk _ _ | array hk _ _ | choice hk _ _ => exact begins_cons hk _

/-- Tokens spell the body, and its references are resolved. -/
def Known (named : List String) (b : Body) (ts : List Token) : Prop :=
  b.SpelledBy ts ∧ ∀ r ∈ b.references, r.Finds named

namespace Known

variable {named : List String} {ps : List Name} {p : Name} {fs : List Field} {bs : List Branch}
  {ts : List Token}

theorem fields {us : List Token} (h : Braced Field.SpelledBy fs us)
    (hfound : ∀ r ∈ fs.map (·.type), r.Finds named) : Braced (Field.Known named) fs us :=
  h.and fun f hf => hfound f.type (List.mem_map_of_mem hf)

theorem sequence (h : Known named (.sequence ps fs) ts) :
    ∃ o : Option (List Name), ps = o.getD [] ∧
      Composite .sequence (Field.Known named) o fs ts := by
  obtain ⟨hspell, hfound⟩ := h
  cases hspell with
  | bare hk hf => exact ⟨none, rfl, _, [], _, rfl, hk, .none, fields hf hfound⟩
  | sequence hk hp hf => exact ⟨some ps, rfl, _, _, _, rfl, hk, .some hp, fields hf hfound⟩

theorem array (h : Known named (.array p fs) ts) :
    Composite .array (Field.Known named) (some [p]) fs ts := by
  obtain ⟨hspell, hfound⟩ := h
  cases hspell with
  | array hk hp hf => exact ⟨_, _, _, rfl, hk, .some hp, fields hf hfound⟩

theorem choice (h : Known named (.choice ps bs) ts) :
    Composite .choice (Branch.Known named) (some ps) bs ts := by
  obtain ⟨hspell, hfound⟩ := h
  cases hspell with
  | choice hk hp hb =>
    exact ⟨_, _, _, rfl, hk, .some hp, hb.and fun b hb => hfound b.type (List.mem_map_of_mem hb)⟩

end Known

/-- **A body is told by its words**, in front of a further declaration or of nothing. -/
theorem tells {named : List String} (hn : named.Nodup) (b : Body) :
    Tells (Known named) (relocate .erasure) Ended b := by
  intro c us vs ws ws' hb hc hws hws' heq
  have hmeet := hb.1.begins.meet hc.1.begins b.first_kept c.first_kept heq
  have hfields (f : Field) := f.tells hn
  have hbranches (b : Branch) := b.tells hn
  cases b with
  | simple t =>
    cases c with
    | simple u =>
      cases hb.1 with
      | simple ht =>
        cases hc.1 with
        | simple hu =>
          obtain ⟨htype, hws⟩ := t.tells _ _ _ _ _ ht hu (hws.clear (by decide))
            (hws'.clear (by decide)) heq
          exact ⟨congrArg simple htype, hws⟩
    | _ => simp [first, Rule.typeWords] at hmeet
  | sequence ps fs =>
    cases c with
    | sequence qs gs =>
      obtain ⟨o, rfl, hx⟩ := hb.sequence
      obtain ⟨o', rfl, hy⟩ := hc.sequence
      obtain ⟨hps, hfs, hws⟩ := Composite.tells (by decide) (fun _ _ hf => hf.1.begins) (by decide)
        (by decide) (Field.delimits named) hfields hx hy hws hws' heq
      refine ⟨?_, hws⟩
      have hgetD (o : Option (List Name)) : (o.getD []).map (Name.relocate .erasure) =
          (o.map (List.map (Name.relocate .erasure))).getD [] := by
        cases o <;> rfl
      rw [relocate, relocate, hgetD, hgetD, hps, hfs]
    | _ => simp [first, Rule.typeWords] at hmeet
  | array p fs =>
    cases c with
    | array q gs =>
      obtain ⟨hps, hfs, hws⟩ := Composite.tells (by decide) (fun _ _ hf => hf.1.begins) (by decide)
        (by decide) (Field.delimits named) hfields hb.array hc.array hws hws' heq
      refine ⟨?_, hws⟩
      have hp : p.relocate .erasure = q.relocate .erasure := by simpa using hps
      rw [relocate, relocate, hp, hfs]
    | _ => simp [first, Rule.typeWords] at hmeet
  | choice ps bs =>
    cases c with
    | choice qs cs =>
      obtain ⟨hps, hbs, hws⟩ := Composite.tells (by decide) (fun _ _ hb => hb.1.begins) (by decide)
        (by decide) (Branch.delimits named) hbranches hb.choice hc.choice hws hws' heq
      refine ⟨?_, hws⟩
      rw [relocate, relocate, Option.some.inj hps, hbs]
    | _ => simp [first, Rule.typeWords] at hmeet

end Body

/-- Tokens spell the declaration, and its references are resolved. -/
def Declaration.Known (named : List String) (d : Declaration) (ts : List Token) : Prop :=
  d.SpelledBy ts ∧ ∀ r ∈ d.body.references, r.Finds named

theorem Declaration.tells {named : List String} (hn : named.Nodup) (d : Declaration) :
    Tells (Known named) (relocate .erasure) Ended d := by
  rintro e us vs ws ws' ⟨hd, hfound⟩ ⟨he, hfound'⟩ hws hws' heq
  cases hd with
  | @mk n b a _ _ hname ha hb =>
    cases he with
    | @mk n' c a' _ _ hname' ha' hc =>
      rw [words_append, words_append, List.append_assoc, List.append_assoc] at heq
      obtain ⟨hnames, heq⟩ := n.tells _ _ _ _ _ hname hname' (clear_any _) (clear_any _) heq
      obtain ⟨-, heq⟩ := words_token_inj (ha ▸ by decide) (ha' ▸ by decide) heq
      obtain ⟨hbodies, hws⟩ := b.tells hn _ _ _ _ _ ⟨hb, hfound⟩ ⟨hc, hfound'⟩ hws hws' heq
      exact ⟨by rw [relocate, relocate, hnames, hbodies], hws⟩

/-- Nothing but a further declaration stands behind one. -/
theorem ended_of_trail {ds : List Declaration} {ts : List Token}
    (h : Trail nothing Declaration.SpelledBy ds ts) : Ended (words ts) := by
  cases h with
  | nil => exact .inl rfl
  | @cons d ds js us ts hj hd _ =>
    cases hd with
    | @mk n b a us vs hn ha _ =>
      refine .inr ⟨(.identifier, n.text), a.canonical, words vs ++ words ts, ?_, rfl,
        a.canonical_fst.trans ha⟩
      rw [show js = [] from hj, List.nil_append, words_append, words_append, hn.words,
        words_token (ha ▸ by decide), List.append_assoc]
      rfl

/-! ## Schemas -/

/-- A well-formed reference has the name of what it refers to. -/
theorem Body.WellFormed.finds {before : List Declaration} {b : Body} (h : b.WellFormed before)
    {r : Reference} (hr : r ∈ b.references) : r.Finds (before.map (·.name.text)) := by
  obtain ⟨names, hwf⟩ := h.references hr
  obtain ⟨name, target, values⟩ := r
  rintro id rfl
  obtain ⟨d, hd, hname, -⟩ := hwf
  rw [List.getElem?_map, Option.mem_def.mp hd, Option.map_some, hname]

/-- **Declarations are told by their words**, behind others that have the same names. -/
theorem DeclarationsWellFormed.tell {ds es before before' : List Declaration} {us vs : List Token}
    (hds : Trail nothing Declaration.SpelledBy ds us) (hwf : DeclarationsWellFormed before ds)
    (hes : Trail nothing Declaration.SpelledBy es vs) (hwf' : DeclarationsWellFormed before' es)
    (hnames : before.map (·.name.text) = before'.map (·.name.text))
    (hn : (before.map (·.name.text)).Nodup) (heq : words us = words vs) :
    ds.map (Declaration.relocate .erasure) = es.map (Declaration.relocate .erasure) := by
  induction hds generalizing before before' es vs with
  | nil =>
    cases hes with
    | nil => rfl
    | @cons e es js us ts hj he _ =>
      obtain ⟨w, rest, hwords, -⟩ := (he.begins.append ts).word (by decide)
      rw [show js = [] from hj, List.nil_append, hwords] at heq
      exact absurd heq.symm (List.cons_ne_nil _ _)
  | @cons d ds js us ts hj hd htrail ih =>
    obtain ⟨hnew, hbody, hwf⟩ := hwf
    cases hes with
    | nil =>
      obtain ⟨w, rest, hwords, -⟩ := (hd.begins.append ts).word (by decide)
      rw [show js = [] from hj, List.nil_append, hwords] at heq
      exact absurd heq (List.cons_ne_nil _ _)
    | @cons e es js' us' ts' hj' he htrail' =>
      obtain ⟨-, hbody', hwf'⟩ := hwf'
      rw [show js = [] from hj, show js' = [] from hj', List.nil_append, List.nil_append,
        words_append, words_append] at heq
      have hfound : ∀ r ∈ d.body.references, r.Finds (before.map (·.name.text)) :=
        fun r hr => hbody.finds hr
      have hfound' : ∀ r ∈ e.body.references, r.Finds (before.map (·.name.text)) :=
        fun r hr => hnames ▸ hbody'.finds hr
      obtain ⟨hfirst, hrest⟩ := d.tells hn _ _ _ _ _ ⟨hd, hfound⟩ ⟨he, hfound'⟩
        (ended_of_trail htrail) (ended_of_trail htrail') heq
      have hname : d.name.text = e.name.text := (Name.mk.inj (Declaration.mk.inj hfirst).1).1
      have hothers := ih hwf htrail' hwf' (by simp [hnames, hname]) (nodup_names_concat hn hnew)
        hrest
      rw [List.map_cons, List.map_cons, hfirst, hothers]

/-- **Schemas that were read have one rendering exactly if they differ in offsets only.** -/
theorem Schema.render_eq_iff {source source' : SourceId} {text text' : String} {p q : Schema}
    (hp : (Schema.parse source text).result = .ok p)
    (hq : (Schema.parse source' text').result = .ok q) :
    p.render = q.render ↔ p.erase = q.erase := by
  refine ⟨fun h => ?_, Schema.render_eq_of_erase_eq⟩
  obtain ⟨-, hspell, hwf⟩ := Schema.parse_sound hp
  obtain ⟨-, hspell', hwf'⟩ := Schema.parse_sound hq
  have hwords := (Schema.faithful p _ hspell (Scan.tokens_proper _)).readsAs
  have hwords' := (Schema.faithful q _ hspell' (Scan.tokens_proper _)).readsAs
  have heq : words (Text.tokens text) = words (Text.tokens text') := by
    rw [← hwords.tokens.2, h, hwords'.tokens.2]
  have htold := DeclarationsWellFormed.tell hspell hwf hspell' hwf' rfl List.nodup_nil heq
  exact congrArg Schema.mk htold

/-- A choice in two layouts, with a comma and a connective that only one of them has this way. -/
theorem Schema.render_eq_iff_choice :
    ∃ p q, (Schema.parse ⟨0⟩
        "c ::= CHOICE[k, m] \x7b UINT_08(k == m AND k < 2) BOOL(DEFAULT) \x7d").result = .ok p ∧
      (Schema.parse ⟨1⟩
        "c::=CHOICE[k m]\x7bUINT_8(k==m and k<2)\nBOOL(DEFAULT)\x7d").result = .ok q ∧
      p ≠ q ∧ p.render = q.render ∧ p.erase = q.erase := by
  have hp : (Schema.parse ⟨0⟩
      "c ::= CHOICE[k, m] \x7b UINT_08(k == m AND k < 2) BOOL(DEFAULT) \x7d").result =
      .ok ⟨[⟨⟨"c", 0⟩, .choice [⟨"k", 13⟩, ⟨"m", 16⟩]
        [⟨⟨⟨"UINT", 21⟩, .builtin ⟨.uint, some 8⟩, none⟩, .expression
          [[.comparison (.name ⟨"k", 29⟩) .equal (.name ⟨"m", 34⟩),
            .comparison (.name ⟨"k", 40⟩) .less (.integer 2)]]⟩,
        ⟨⟨⟨"BOOL", 47⟩, .builtin ⟨.bool, none⟩, none⟩, .default⟩]⟩]⟩ := by
    decide +kernel
  have hq : (Schema.parse ⟨1⟩
      "c::=CHOICE[k m]\x7bUINT_8(k==m and k<2)\nBOOL(DEFAULT)\x7d").result =
      .ok ⟨[⟨⟨"c", 0⟩, .choice [⟨"k", 11⟩, ⟨"m", 13⟩]
        [⟨⟨⟨"UINT", 16⟩, .builtin ⟨.uint, some 8⟩, none⟩, .expression
          [[.comparison (.name ⟨"k", 23⟩) .equal (.name ⟨"m", 26⟩),
            .comparison (.name ⟨"k", 32⟩) .less (.integer 2)]]⟩,
        ⟨⟨⟨"BOOL", 37⟩, .builtin ⟨.bool, none⟩, none⟩, .default⟩]⟩]⟩ := by
    decide +kernel
  have hrender := by
    refine (Schema.render_eq_iff hp hq).mpr ?_
    rfl
  exact ⟨_, _, hp, hq, by decide, hrender, (Schema.render_eq_iff hp hq).mp hrender⟩

end RecordSchema
