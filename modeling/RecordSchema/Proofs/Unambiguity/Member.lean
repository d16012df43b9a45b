import RecordSchema.Proofs.Erasure
import RecordSchema.Proofs.Rendering
import RecordSchema.Proofs.Unambiguity.Words

/-!
# Members told by their words

Conditions are told by their words: connectives end the items between them, a group ends with the
parenthesis that closes it, and no name is a number or a reserved word. So are references, if it is
known which declaration a name is that of.

Results:
* `Term.tells`, `Condition.tells`: how a condition is grouped.
* `Reference.tells`, `Field.tells`, `Branch.tells`: what a member refers to, and its values.
-/

namespace RecordSchema

open Text

/-! ## Conditions -/

theorem Relation.sign_inj {x y : Relation} (h : x.sign = y.sign) : x = y := by
  cases x <;> cases y <;> first | rfl | exact absurd h (by decide)

theorem Relation.sign_kept (x : Relation) : x.sign ∉ wordless := by
  cases x <;> decide

theorem Name.SpelledBy.words {n : Name} {ts : List Token} (h : n.SpelledBy ts) :
    words ts = [(.identifier, n.text)] := by
  cases h with
  | mk ht => rw [Prints.words_of_kind (ht ▸ by decide), ht]

theorem Name.tells (n : Name) : Tells Name.SpelledBy (relocate .erasure) (Clear []) n := by
  rintro m us vs ws ws' hn hm - - heq
  rw [hn.words, hm.words] at heq
  obtain ⟨hword, hws⟩ := List.cons.inj heq
  obtain ⟨-, htext⟩ := Prod.mk.inj hword
  exact ⟨congrArg (Name.mk · 0) htext, hws⟩

theorem Operand.tells (o : Operand) :
    Tells Operand.SpelledBy (relocate .erasure) (Clear []) o := by
  rintro p us vs ws ws' ho hp - - heq
  cases ho with
  | name hn =>
    cases hp with
    | name hm =>
      obtain ⟨hname, hws⟩ := Name.tells _ _ _ _ _ _ hn hm (clear_any _) (clear_any _) heq
      exact ⟨congrArg Operand.name hname, hws⟩
    | integer ht =>
      have hmeet := hn.begins.meet (begins_cons ht []) (by decide) (by decide) heq
      exact absurd hmeet (by decide)
  | @integer t ht =>
    cases hp with
    | name hm =>
      have hmeet := (begins_cons ht []).meet hm.begins (by decide) (by decide) heq
      exact absurd hmeet (by decide)
    | @integer t' ht' =>
      rw [Prints.words_of_kind (ht ▸ by decide), Prints.words_of_kind (ht' ▸ by decide)] at heq
      obtain ⟨hword, hws⟩ := List.cons.inj heq
      obtain ⟨-, htext⟩ := Prod.mk.inj hword
      rw [htext]
      exact ⟨rfl, hws⟩

/-- Items with a connective between them, of a kind that cannot stand behind the list. -/
theorem delimits_of_connective {α : Type} {item : α → List Token → Prop} {kind : TokenKind}
    {inner outer : List TokenKind} {joint : Word} (hjoint : joint.1 = kind)
    (hwords : ∀ t : Token, t.kind = kind → words [t] = [joint]) (hinner : kind ∉ inner)
    (houter : outer = kind :: inner) :
    Delimits (only kind) item [joint] (Clear inner) (Clear outer) := by
  subst houter hjoint
  refine ⟨?_, fun _ _ _ _ => clear_cons.mpr hinner, ?_, ?_⟩
  · rintro js ⟨t, rfl, ht⟩
    exact hwords t ht
  · exact fun ws hws w hw hmem => hws w hw (List.mem_cons_of_mem _ hmem)
  · exact fun _ _ _ _ h => clear_cons.mp h List.mem_cons_self

theorem Conjunction.delimits : Delimits (only .and) Term.SpelledBy [(.and, "and")]
    (Clear []) (Clear [.and]) := by
  refine delimits_of_connective rfl (fun t ht => ?_) (by decide) rfl
  rw [words_token (ht ▸ by decide), Token.canonical, ht]
  rfl

theorem Disjunction.delimits : Delimits (only .or) Conjunction.SpelledBy [(.or, "or")]
    (Clear [.and]) (Clear [.or, .and]) := by
  refine delimits_of_connective rfl (fun t ht => ?_) (by decide) rfl
  rw [words_token (ht ▸ by decide), Token.canonical, ht]
  rfl

theorem Conjunction.tells {c : Conjunction}
    (h : ∀ t ∈ c, Tells Term.SpelledBy (Term.relocate .erasure) (Clear []) t) :
    Tells Conjunction.SpelledBy (Conjunction.relocate .erasure) (Clear [.and]) c := by
  rw [show Conjunction.relocate .erasure = List.map (Term.relocate .erasure) from
    funext (Conjunction.relocate_eq_map _)]
  exact Listed.tells Conjunction.delimits h

theorem Disjunction.tells {d : Disjunction}
    (h : ∀ c ∈ d, ∀ t ∈ c, Tells Term.SpelledBy (Term.relocate .erasure) (Clear []) t) :
    Tells Disjunction.SpelledBy (Disjunction.relocate .erasure) (Clear [.or, .and]) d := by
  rw [show Disjunction.relocate .erasure = List.map (Conjunction.relocate .erasure) from
    funext (Disjunction.relocate_eq_map _)]
  exact Listed.tells Disjunction.delimits fun c hc => Conjunction.tells (h c hc)

/-- A list of alternatives in parentheses. -/
theorem Term.SpelledBy.enclosed {d : Disjunction} {ts : List Token}
    (h : (Term.group d).SpelledBy ts) :
    Enclosed .leftParen .rightParen (Disjunction.SpelledBy d) ts := by
  cases h with
  | group ho hd hc => exact .mk ho hd hc

/-- What holds of comparisons, and of a group if it holds of the terms in it, holds of all terms. -/
theorem Term.induction {P : Term → Prop} (comparison : ∀ l x r, P (.comparison l x r))
    (group : ∀ d : Disjunction, (∀ c ∈ d, ∀ t ∈ c, P t) → P (.group d)) (t : Term) : P t :=
  @Term.rec P (fun d => ∀ c ∈ d, ∀ t ∈ c, P t) (fun c => ∀ t ∈ c, P t) comparison group
    (fun _ hc => absurd hc List.not_mem_nil) (fun _ _ hc hd => List.forall_mem_cons.mpr ⟨hc, hd⟩)
    (fun _ ht => absurd ht List.not_mem_nil) (fun _ _ ht hc => List.forall_mem_cons.mpr ⟨ht, hc⟩) t

/-- **A term is told by its words.** A group ends with the parenthesis that closes it. -/
theorem Term.tells (t : Term) : Tells Term.SpelledBy (Term.relocate .erasure) (Clear []) t := by
  induction t using Term.induction with
  | comparison l x r =>
    intro u us vs ws ws' ht hu _ _ heq
    cases ht with
    | @comparison _ _ _ s _ _ hl hs hr =>
      cases hu with
      | @comparison l' r' x' s' _ _ hl' hs' hr' =>
        rw [words_append, words_append, List.append_assoc, List.append_assoc] at heq
        obtain ⟨hleft, heq⟩ := l.tells _ _ _ _ _ hl hl' (clear_any _) (clear_any _) heq
        obtain ⟨hsign, heq⟩ := words_token_inj (hs ▸ x.sign_kept) (hs' ▸ x'.sign_kept) heq
        obtain ⟨hright, hws⟩ := r.tells _ _ _ _ _ hr hr' (clear_any _) (clear_any _) heq
        have hkind := Token.kind_eq hsign
        rw [hs, hs'] at hkind
        obtain rfl := Relation.sign_inj hkind
        exact ⟨by rw [Term.relocate, Term.relocate, hleft, hright], hws⟩
      | group ho _ _ =>
        have hmeet := (hl.begins.append _).meet (begins_cons ho _) (by decide) (by decide) heq
        exact absurd hmeet (by decide)
  | group d ih =>
    intro u us vs ws ws' ht hu hws hws' heq
    cases u with
    | comparison l x r =>
      cases hu with
      | comparison hl _ _ =>
        cases ht with
        | group ho _ _ =>
          have hmeet := (begins_cons ho _).meet (hl.begins.append _) (by decide) (by decide) heq
          exact absurd hmeet (by decide)
    | group e =>
      have hgroup := Enclosed.parenthesised (by decide) (Disjunction.tells ih)
      obtain ⟨hrest, hws⟩ := hgroup e us vs ws ws' ht.enclosed hu.enclosed hws hws' heq
      exact ⟨by rw [Term.relocate, Term.relocate, hrest], hws⟩

theorem Condition.tells (c : Condition) :
    Tells Condition.SpelledBy (Condition.relocate .erasure) (Clear [.or, .and]) c := by
  intro e us vs ws ws' hc he hws hws' heq
  cases hc with
  | default ht =>
    cases he with
    | default ht' =>
      exact ⟨rfl, (words_token_inj (ht ▸ by decide) (ht' ▸ by decide) heq).2⟩
    | expression hd =>
      have hmeet := (begins_cons ht []).meet (Disjunction.begins hd) (by decide) (by decide) heq
      exact absurd hmeet (by decide)
  | @expression d _ hd =>
    cases he with
    | default ht =>
      have hmeet := (Disjunction.begins hd).meet (begins_cons ht []) (by decide) (by decide) heq
      exact absurd hmeet (by decide)
    | expression hd' =>
      have hall := Disjunction.tells (d := d) fun _ _ t _ => t.tells
      obtain ⟨hall, hws⟩ := hall _ _ _ _ _ hd hd' hws hws' heq
      exact ⟨congrArg Condition.expression hall, hws⟩

/-! ## Types and members -/

/-- Items in square brackets. -/
theorem Bracketed.tells {α β : Type} {item : α → List Token → Prop} {erase : α → β}
    (kinds : List TokenKind) (hbegins : ∀ x us, item x us → Begins kinds us)
    (hkept : ∀ kind ∈ kinds, kind ∉ wordless) (hclose : .rightSquare ∉ kinds)
    (hitem : ∀ x, Tells item erase (Clear []) x) (xs : List α) :
    Tells (Bracketed item) (List.map erase) (Clear []) xs := by
  have hdelimits : Delimits (perhaps .comma) item [] (Clear []) (Clear kinds) := by
    refine ⟨fun js hj => Prints.words_of_comma hj, fun _ _ _ _ => clear_any _,
      fun _ _ => clear_any _, fun x us hx ws hclear => ?_⟩
    obtain ⟨w, rest, hwords, hk⟩ := (hbegins x us hx).word hkept
    rw [List.nil_append, hwords] at hclear
    exact clear_cons.mp hclear hk
  refine Enclosed.tells (by decide) (by decide) (fun w ws hw => ?_)
    (Listed.tells hdelimits fun x _ => hitem x)
  exact clear_cons.mpr (hw ▸ hclose)

theorem Builtin.word_inj {b c : Builtin} (h : b.word = c.word) : b = c := by
  cases b <;> cases c <;> first | rfl | exact absurd h (by decide)

theorem Builtin.word_kept (b : Builtin) : b.word ∉ wordless := by
  cases b <;> decide

/-- Widths of one word have one value. -/
theorem Token.width_eq {t t' : Token} (ht : t.kind = .width) (ht' : t'.kind = .width)
    (h : t.canonical = t'.canonical) :
    decimalValue (t.text.toList.drop 1) = decimalValue (t'.text.toList.drop 1) := by
  unfold canonical at h
  rw [ht, ht'] at h
  have hdigits := String.append_right_inj _ |>.mp (Prod.mk.inj h).2
  rw [← decimalValue_stripZeros, String.ofList_inj.mp hdigits, decimalValue_stripZeros]

/-- A width, by the token that it is read from. -/
def WidthSpelledBy (width : Nat) (ts : List Token) : Prop :=
  ∃ t, ts = [t] ∧ t.kind = .width ∧ width = decimalValue (t.text.toList.drop 1)

theorem WidthSpelledBy.tells (width : Nat) : Tells WidthSpelledBy id (Clear []) width := by
  rintro width' us vs ws ws' ⟨t, rfl, ht, rfl⟩ ⟨t', rfl, ht', rfl⟩ - - heq
  obtain ⟨hword, hws⟩ := words_token_inj (ht ▸ by decide) (ht' ▸ by decide) heq
  exact ⟨Token.width_eq ht ht' hword, hws⟩

theorem SimpleType.SpelledBy.optional {t : SimpleType} {ts : List Token} (h : t.SpelledBy ts) :
    ∃ k us, ts = k :: us ∧ k.kind = t.builtin.word ∧ Optional WidthSpelledBy t.width us := by
  cases h with
  | bare hk => exact ⟨_, _, rfl, hk, .none⟩
  | wide hk hw _ => exact ⟨_, _, rfl, hk, .some ⟨_, rfl, hw, rfl⟩⟩

theorem SimpleType.tells (t : SimpleType) : Tells SimpleType.SpelledBy id (Clear [.width]) t := by
  intro u us vs ws ws' ht hu hws hws' heq
  obtain ⟨k, us, rfl, hk, hwidth⟩ := ht.optional
  obtain ⟨k', vs, rfl, hk', hwidth'⟩ := hu.optional
  obtain ⟨hword, heq⟩ := words_token_inj (hk ▸ Builtin.word_kept _) (hk' ▸ Builtin.word_kept _) heq
  have hbuiltin := Builtin.word_inj (hk.symm.trans ((Token.kind_eq hword).trans hk'))
  have hbegins : ∀ width us, WidthSpelledBy width us → Begins [.width] us := by
    rintro width us ⟨w, rfl, hw, -⟩
    exact begins_cons hw []
  obtain ⟨hsame, hws⟩ := Optional.tells hbegins (by decide) WidthSpelledBy.tells t.width _ _ _ _ _
    hwidth hwidth' hws hws' heq
  rw [Option.map_id, id, id] at hsame
  obtain ⟨b, w⟩ := t
  obtain ⟨c, w'⟩ := u
  obtain rfl : b = c := hbuiltin
  obtain rfl : w = w' := hsame
  exact ⟨rfl, hws⟩

theorem ValuesSpelledBy.optional {vs : Option (List Operand)} {ts : List Token}
    (h : ValuesSpelledBy vs ts) : Optional (Bracketed Operand.SpelledBy) vs ts := by
  cases h with
  | none => exact .none
  | some h => exact .some h

/-- The values of a reference are told by their words, in front of no bracket. -/
theorem ValuesSpelledBy.tells (vs : Option (List Operand)) :
    Tells ValuesSpelledBy (Option.map (List.map (Operand.relocate .erasure)))
      (Clear [.leftSquare]) vs := by
  intro vs' us ts ws ws' h h' hws hws' heq
  have hlists := Bracketed.tells Rule.operandStart (fun _ _ ho => ho.begins) (by decide)
    (by decide) Operand.tells
  exact Optional.tells (fun _ _ hlist => hlist.begins) (by decide) hlists vs _ _ _ _ _ h.optional
    h'.optional hws hws' heq

/-- What may stand behind a type may also stand behind one with values. -/
theorem ValuesSpelledBy.clear {vs : Option (List Operand)} {ts : List Token}
    (h : ValuesSpelledBy vs ts) {ws : List Word} (hws : Clear [.width, .leftSquare] ws) :
    Clear [.width] (words ts ++ ws) := by
  cases h with
  | none => exact hws.mono (by decide)
  | some h => exact h.begins.clear (by decide) (by decide) ws

/-- The reference has the name of what it refers to, if that is a declaration. -/
def Reference.Finds (named : List String) (r : Reference) : Prop :=
  ∀ id, r.target = .declared id → named[id.index]? = some r.name.text

/-- Tokens spell the reference, and it is resolved. -/
def Reference.Known (named : List String) (r : Reference) (ts : List Token) : Prop :=
  r.SpelledBy ts ∧ r.Finds named

/-- Tokens spell the field, and its type is resolved. -/
def Field.Known (named : List String) (f : Field) (ts : List Token) : Prop :=
  f.SpelledBy ts ∧ f.type.Finds named

/-- Tokens spell the branch, and its type is resolved. -/
def Branch.Known (named : List String) (b : Branch) (ts : List Token) : Prop :=
  b.SpelledBy ts ∧ b.type.Finds named

/-- **A reference is told by its words**, since a name is that of one declaration. -/
theorem Reference.tells {named : List String} (hn : named.Nodup) (r : Reference) :
    Tells (Reference.Known named) (relocate .erasure) (Clear [.width, .leftSquare]) r := by
  rintro q us vs ws ws' ⟨hr, hfound⟩ ⟨hq, hfound'⟩ hws hws' heq
  cases hr with
  | @builtin t k values us ts ht hv =>
    cases hq with
    | @builtin t' k' values' us' ts' ht' hv' =>
      rw [words_append, words_append, List.append_assoc, List.append_assoc] at heq
      obtain ⟨htype, heq⟩ := t.tells _ _ _ _ _ ht ht' (hv.clear hws) (hv'.clear hws') heq
      obtain rfl : t = t' := htype
      obtain ⟨hvalues, hws⟩ := ValuesSpelledBy.tells _ _ _ _ _ _ hv hv' (hws.mono (by decide))
        (hws'.mono (by decide)) heq
      refine ⟨?_, hws⟩
      have hnames : Name.relocate .erasure ⟨t.builtin.keyword, k.offset⟩ =
          Name.relocate .erasure ⟨t.builtin.keyword, k'.offset⟩ := rfl
      rw [Reference.relocate, Reference.relocate, hnames]
      exact congrArg _ hvalues
    | declared hm hv' =>
      have hmeet := (ht.begins.append _).meet (hm.begins.append _) (by decide) (by decide) heq
      exact absurd hmeet (by decide)
  | @declared n id values us ts hname hv =>
    cases hq with
    | builtin ht hv' =>
      have hmeet := (hname.begins.append _).meet (ht.begins.append _) (by decide) (by decide) heq
      exact absurd hmeet (by decide)
    | @declared n' id' values' us' ts' hname' hv' =>
      rw [words_append, words_append, List.append_assoc, List.append_assoc] at heq
      obtain ⟨hnames, heq⟩ := n.tells _ _ _ _ _ hname hname' (clear_any _) (clear_any _) heq
      obtain ⟨hvalues, hws⟩ := ValuesSpelledBy.tells _ _ _ _ _ _ hv hv' (hws.mono (by decide))
        (hws'.mono (by decide)) heq
      have htext : n.text = n'.text := (Name.mk.inj hnames).1
      have hid : id.index = id'.index := by
        have hid := hfound id rfl
        have hid' := hfound' id' rfl
        have hlt := (List.getElem?_eq_some_iff.mp hid).1
        exact (List.getElem?_inj hlt hn).mp (hid.trans ((congrArg some htext).trans hid'.symm))
      obtain ⟨i⟩ := id
      obtain ⟨j⟩ := id'
      obtain rfl : i = j := hid
      refine ⟨?_, hws⟩
      rw [Reference.relocate, Reference.relocate, hnames]
      exact congrArg _ hvalues

theorem Field.tells {named : List String} (hn : named.Nodup) (f : Field) :
    Tells (Field.Known named) (relocate .erasure) (Clear [.width, .leftSquare]) f := by
  rintro g us vs ws ws' ⟨hf, hfound⟩ ⟨hg, hfound'⟩ hws hws' heq
  cases hf with
  | @mk n r _ _ hname hr =>
    cases hg with
    | @mk n' r' _ _ hname' hr' =>
      rw [words_append, words_append, List.append_assoc, List.append_assoc] at heq
      obtain ⟨hnames, heq⟩ := n.tells _ _ _ _ _ hname hname' (clear_any _) (clear_any _) heq
      obtain ⟨htypes, hws⟩ :=
        Reference.tells hn r _ _ _ _ _ ⟨hr, hfound⟩ ⟨hr', hfound'⟩ hws hws' heq
      exact ⟨by rw [Field.relocate, Field.relocate, hnames, htypes], hws⟩

theorem Branch.tells {named : List String} (hn : named.Nodup) (b : Branch) :
    Tells (Branch.Known named) (relocate .erasure) (Clear []) b := by
  rintro c us vs ws ws' ⟨hb, hfound⟩ ⟨hc, hfound'⟩ hws hws' heq
  cases hb with
  | @mk r e _ _ hr he =>
    cases hc with
    | @mk r' e' _ _ hr' he' =>
      rw [words_append, words_append, List.append_assoc, List.append_assoc] at heq
      obtain ⟨htypes, heq⟩ := Reference.tells hn r _ _ _ _ _ ⟨hr, hfound⟩ ⟨hr', hfound'⟩
        (he.begins.clear (by decide) (by decide) _) (he'.begins.clear (by decide) (by decide) _) heq
      have hcondition := Enclosed.parenthesised (by decide) e.tells
      obtain ⟨hconditions, hws⟩ := hcondition e' _ _ _ _ he he' hws hws' heq
      exact ⟨by rw [Branch.relocate, Branch.relocate, htypes, hconditions], hws⟩

end RecordSchema
