import RecordSchema.Proofs.Numerals.Unnumbered

/-!
# Numbers spelled anew

The grammar does not see what numbers there are. If the text of some numbers and widths is replaced
and all else stays, the tokens spell a schema that differs from the first one in its numbers only.

Results:
* `Trail.respell`, `Bracketed.respell`, `Braced.respell`: lists.
* `Schema.SpelledBy.respell`: a whole schema.
-/

namespace RecordSchema

/-- Takes tokens to others of the same kind at the same offset, and only numbers and widths to
others than themselves. -/
structure Respells (m : Token → Token) : Prop where
  kind : ∀ t, (m t).kind = t.kind
  offset : ∀ t, (m t).offset = t.offset
  other : ∀ t, t.kind ∉ [TokenKind.number, .width] → m t = t

/-- Tokens that spell the item spell one with the same image when spelled anew. -/
def Respelled {α β : Type} (m : Token → Token) (item : α → List Token → Prop) (g : α → β) (a : α) :
    Prop :=
  ∀ us, item a us → ∃ b, item b (us.map m) ∧ g b = g a

variable {m : Token → Token} {ts : List Token}

/-! ## Lists -/

section Lists

variable {α β : Type} {g : α → β} {item : α → List Token → Prop} {sep : List Token → Prop}
  {as : List α}

theorem Trail.respell (h : Trail sep item as ts) (hsep : ∀ js, sep js → sep (js.map m))
    (hitem : ∀ a ∈ as, Respelled m item g a) :
    ∃ bs, Trail sep item bs (ts.map m) ∧ bs.map g = as.map g := by
  induction h with
  | nil => exact ⟨[], .nil, rfl⟩
  | cons hj hi _ ih =>
    obtain ⟨ha, has⟩ := List.forall_mem_cons.mp hitem
    obtain ⟨b, hb, hgb⟩ := ha _ hi
    obtain ⟨bs, hbs, hgbs⟩ := ih has
    refine ⟨b :: bs, ?_, by rw [List.map_cons, List.map_cons, hgb, hgbs]⟩
    rw [List.map_append, List.map_append]
    exact .cons (hsep _ hj) hb hbs

theorem Listed.respelled (hsep : ∀ js, sep js → sep (js.map m))
    (hitem : ∀ a ∈ as, Respelled m item g a) : Respelled m (Listed sep item) (List.map g) as := by
  intro us h
  cases h with
  | mk hi ht =>
    obtain ⟨ha, has⟩ := List.forall_mem_cons.mp hitem
    obtain ⟨b, hb, hgb⟩ := ha _ hi
    obtain ⟨bs, hbs, hgbs⟩ := ht.respell hsep has
    refine ⟨b :: bs, ?_, by rw [List.map_cons, List.map_cons, hgb, hgbs]⟩
    rw [List.map_append]
    exact .mk hb hbs

theorem nothing_respell : ∀ js, nothing js → nothing (js.map m) := by
  rintro js rfl
  rfl

variable (hm : Respells m)

include hm

theorem only_respell {kind : TokenKind} : ∀ js, only kind js → only kind (js.map m) := by
  rintro js ⟨t, rfl, ht⟩
  exact ⟨m t, rfl, (hm.kind t).trans ht⟩

theorem perhaps_respell {kind : TokenKind} : ∀ js, perhaps kind js → perhaps kind (js.map m) := by
  rintro js (rfl | hj)
  · exact .inl rfl
  · exact .inr (only_respell hm js hj)

/-- What is between two tokens is spelled anew. -/
theorem Enclosed.respell {opening closing : TokenKind} {a : α}
    (h : Enclosed opening closing (item a) ts) (hitem : Respelled m item g a) :
    ∃ b, Enclosed opening closing (item b) (ts.map m) ∧ g b = g a := by
  cases h with
  | @mk o c us ho hi hc =>
    obtain ⟨b, hb, hg⟩ := hitem us hi
    refine ⟨b, ?_, hg⟩
    rw [List.map_cons, List.map_append, List.map_singleton]
    exact .mk ((hm.kind o).trans ho) hb ((hm.kind c).trans hc)

theorem Bracketed.respell (h : Bracketed item as ts) (hitem : ∀ a ∈ as, Respelled m item g a) :
    ∃ bs, Bracketed item bs (ts.map m) ∧ bs.map g = as.map g :=
  Enclosed.respell hm h (Listed.respelled (perhaps_respell hm) hitem)

theorem Braced.respell (h : Braced item as ts) (hitem : ∀ a ∈ as, Respelled m item g a) :
    ∃ bs, Braced item bs (ts.map m) ∧ bs.map g = as.map g :=
  Enclosed.respell hm h (Listed.respelled nothing_respell hitem)

end Lists

/-! ## Parts of schemas -/

section Parts

variable (hm : Respells m)

include hm

theorem Name.SpelledBy.respell {n : Name} (h : n.SpelledBy ts) : n.SpelledBy (ts.map m) := by
  cases h with
  | @mk t ht =>
    rw [List.map_singleton, hm.other t (by rw [ht]; decide)]
    exact .mk ht

theorem Operand.respelled (o : Operand) : Respelled m Operand.SpelledBy Operand.unnumbered o := by
  intro us h
  cases h with
  | name hn => exact ⟨_, .name (hn.respell hm), rfl⟩
  | @integer t ht => exact ⟨_, .integer ((hm.kind t).trans ht), rfl⟩

theorem Conjunction.respelled {c : Conjunction}
    (h : ∀ t ∈ c, Respelled m Term.SpelledBy Term.unnumbered t) :
    Respelled m Conjunction.SpelledBy (List.map Term.unnumbered) c :=
  Listed.respelled (only_respell hm) h

theorem Disjunction.respelled {d : Disjunction}
    (h : ∀ c ∈ d, ∀ t ∈ c, Respelled m Term.SpelledBy Term.unnumbered t) :
    Respelled m Disjunction.SpelledBy Disjunction.unnumbered d := by
  intro us hd
  obtain ⟨e, he, hg⟩ := Listed.respelled (only_respell hm)
    (fun c hc => Conjunction.respelled hm (h c hc)) us hd
  exact ⟨e, he, by rw [Disjunction.unnumbered_eq_map, Disjunction.unnumbered_eq_map, hg]⟩

theorem Term.respelled (t : Term) : Respelled m Term.SpelledBy Term.unnumbered t := by
  induction t using Term.induction with
  | comparison l x r =>
    intro us h
    cases h with
    | @comparison _ _ _ s _ _ hl hs hr =>
      obtain ⟨l', hl', hgl⟩ := l.respelled hm _ hl
      obtain ⟨r', hr', hgr⟩ := r.respelled hm _ hr
      refine ⟨.comparison l' x r', ?_, by rw [Term.unnumbered, Term.unnumbered, hgl, hgr]⟩
      rw [List.map_append, List.map_cons]
      exact .comparison hl' ((hm.kind s).trans hs) hr'
  | group d ih =>
    intro us h
    cases h with
    | @group _ o c _ ho hd hc =>
      obtain ⟨e, he, hg⟩ := Disjunction.respelled hm ih _ hd
      refine ⟨.group e, ?_, by rw [Term.unnumbered, Term.unnumbered, hg]⟩
      rw [List.map_cons, List.map_append, List.map_singleton]
      exact .group ((hm.kind o).trans ho) he ((hm.kind c).trans hc)

theorem Condition.respelled (c : Condition) :
    Respelled m Condition.SpelledBy Condition.unnumbered c := by
  intro us h
  cases h with
  | @default t ht => exact ⟨.default, .default ((hm.kind t).trans ht), rfl⟩
  | expression hd =>
    obtain ⟨e, he, hg⟩ := Disjunction.respelled hm (fun _ _ t _ => t.respelled hm) _ hd
    exact ⟨.expression e, .expression he, congrArg Condition.expression hg⟩

/-- The keyword of a built-in type stays, and a width touches it as before. -/
theorem SimpleType.SpelledBy.respell {t : SimpleType} {k : Token} {us : List Token}
    (h : t.SpelledBy (k :: us)) :
    ∃ u : SimpleType, u.SpelledBy (k :: us.map m) ∧ u.unnumbered = t.unnumbered := by
  cases h with
  | bare hk => exact ⟨_, .bare hk, rfl⟩
  | @wide _ _ w hk hw ho =>
    exact ⟨_, .wide hk ((hm.kind w).trans hw) ((hm.offset w).trans ho), rfl⟩

theorem ValuesSpelledBy.respell {vs : Option (List Operand)} (h : ValuesSpelledBy vs ts) :
    ∃ ws, ValuesSpelledBy ws (ts.map m) ∧
      ws.map (·.map Operand.unnumbered) = vs.map (·.map Operand.unnumbered) := by
  cases h with
  | none => exact ⟨Option.none, .none, rfl⟩
  | some h =>
    obtain ⟨ws, hws, hg⟩ := Bracketed.respell hm h fun o _ => o.respelled hm
    exact ⟨Option.some ws, .some hws, congrArg Option.some hg⟩

theorem Reference.SpelledBy.respell {r : Reference} (h : r.SpelledBy ts) :
    ∃ s : Reference, s.SpelledBy (ts.map m) ∧ s.unnumbered = r.unnumbered := by
  cases h with
  | @builtin t k vs us ts ht hv =>
    obtain ⟨u, hu, hgu⟩ := ht.respell hm
    obtain ⟨ws, hws, hgw⟩ := hv.respell hm
    have hword : m k = k := by
      obtain ⟨k', us', heq, hk⟩ := ht.begins
      obtain ⟨rfl, -⟩ := List.cons.inj heq
      exact hm.other k fun hnot => absurd hk (by revert hnot; cases k.kind <;> decide)
    obtain ⟨hbuiltin, -⟩ := SimpleType.mk.inj hgu
    refine ⟨⟨⟨u.builtin.keyword, k.offset⟩, .builtin u, ws⟩, ?_, ?_⟩
    · rw [List.cons_append, List.map_cons, List.map_append, hword]
      exact .builtin hu hws
    · simp only [Reference.unnumbered, Target.unnumbered, hgu, hgw, hbuiltin]
  | @declared n id _ _ _ hn hv =>
    obtain ⟨ws, hws, hgw⟩ := hv.respell hm
    refine ⟨⟨n, .declared id, ws⟩, ?_, by simp only [Reference.unnumbered, hgw]⟩
    rw [List.map_append]
    exact .declared (hn.respell hm) hws

theorem Field.respelled (f : Field) : Respelled m Field.SpelledBy Field.unnumbered f := by
  intro us h
  cases h with
  | @mk n _ _ _ hn hr =>
    obtain ⟨s, hs, hg⟩ := hr.respell hm
    refine ⟨⟨n, s⟩, ?_, by simp only [Field.unnumbered, hg]⟩
    rw [List.map_append]
    exact .mk (hn.respell hm) hs

theorem Branch.respelled (b : Branch) : Respelled m Branch.SpelledBy Branch.unnumbered b := by
  intro us h
  cases h with
  | mk hr hc =>
    obtain ⟨s, hs, hgs⟩ := hr.respell hm
    obtain ⟨e, he, hge⟩ := hc.respell hm (Condition.respelled hm _)
    refine ⟨⟨s, e⟩, ?_, by simp only [Branch.unnumbered, hgs, hge]⟩
    rw [List.map_append]
    exact .mk hs he

/-- Parameters stay. -/
theorem parameters_respell {ps : List Name} (h : Bracketed Name.SpelledBy ps ts) :
    Bracketed Name.SpelledBy ps (ts.map m) := by
  have hitem (n : Name) : Respelled m Name.SpelledBy id n := fun _ hn => ⟨n, hn.respell hm, rfl⟩
  obtain ⟨qs, hqs, hg⟩ := Bracketed.respell hm h fun n _ => hitem n
  rw [List.map_id, List.map_id] at hg
  exact hg ▸ hqs

theorem Body.SpelledBy.respell {b : Body} (h : b.SpelledBy ts) :
    ∃ c : Body, c.SpelledBy (ts.map m) ∧ c.unnumbered = b.unnumbered := by
  have hfields {fs : List Field} {us : List Token} (hf : Braced Field.SpelledBy fs us) :
      ∃ gs, Braced Field.SpelledBy gs (us.map m) ∧
        gs.map (·.unnumbered) = fs.map (·.unnumbered) :=
    Braced.respell hm hf fun f _ => f.respelled hm
  cases h with
  | simple ht =>
    obtain ⟨k, us, rfl, hk⟩ := ht.begins
    obtain ⟨u, hu, hg⟩ := ht.respell hm
    have hword : m k = k :=
      hm.other k fun hnot => absurd hk (by revert hnot; cases k.kind <;> decide)
    refine ⟨.simple u, ?_, congrArg Body.simple hg⟩
    rw [List.map_cons, hword]
    exact .simple hu
  | @bare k _ _ hk hf =>
    obtain ⟨gs, hgs, hg⟩ := hfields hf
    exact ⟨.sequence [] gs, .bare ((hm.kind k).trans hk) hgs, congrArg (Body.sequence []) hg⟩
  | @sequence k ps _ _ _ hk hp hf =>
    obtain ⟨gs, hgs, hg⟩ := hfields hf
    refine ⟨.sequence ps gs, ?_, congrArg (Body.sequence ps) hg⟩
    rw [List.map_cons, List.map_append]
    exact .sequence ((hm.kind k).trans hk) (parameters_respell hm hp) hgs
  | @array k p _ _ _ hk hp hf =>
    obtain ⟨gs, hgs, hg⟩ := hfields hf
    refine ⟨.array p gs, ?_, congrArg (Body.array p) hg⟩
    rw [List.map_cons, List.map_append]
    exact .array ((hm.kind k).trans hk) (parameters_respell hm hp) hgs
  | @choice k ps _ _ _ hk hp hb =>
    obtain ⟨cs, hcs, hg⟩ := Braced.respell hm hb fun b _ => b.respelled hm
    refine ⟨.choice ps cs, ?_, congrArg (Body.choice ps) hg⟩
    rw [List.map_cons, List.map_append]
    exact .choice ((hm.kind k).trans hk) (parameters_respell hm hp) hcs

theorem Declaration.respelled (d : Declaration) :
    Respelled m Declaration.SpelledBy Declaration.unnumbered d := by
  intro us h
  cases h with
  | @mk n _ a _ _ hn ha hb =>
    obtain ⟨c, hc, hg⟩ := hb.respell hm
    refine ⟨⟨n, c⟩, ?_, by simp only [Declaration.unnumbered, hg]⟩
    rw [List.map_append, List.map_cons]
    exact .mk (hn.respell hm) ((hm.kind a).trans ha) hc

/-- **A schema spelled anew** is the same but for its numbers. -/
theorem Schema.SpelledBy.respell {p : Schema} (h : p.SpelledBy ts) :
    ∃ q : Schema, q.SpelledBy (ts.map m) ∧ q.unnumbered = p.unnumbered := by
  obtain ⟨ds, hds, hg⟩ := Trail.respell h nothing_respell fun d _ => d.respelled hm
  exact ⟨⟨ds⟩, hds, congrArg Schema.mk hg⟩

end Parts

end RecordSchema
