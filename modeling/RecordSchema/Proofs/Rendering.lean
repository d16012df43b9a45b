import RecordSchema.Proofs.Soundness
import RecordSchema.Proofs.Words

/-!
# Renderings are faithful

A rendering has the words of the tokens that its schema was read from, in the same order, without
braces and commas. `Prints text ts` says that of a part of a rendering, in front of whatever may
stand behind it; it is closed under the ways renderings are put together. Each part of a schema is
then one lemma from its spelling.

Results:
* `Prints.spaced`, `Prints.append`, `Prints.enclosed`, `Prints.trail`: the ways to put parts
  together.
* `Schema.faithful`: the rendering of a schema and the tokens that spell it.
* `Schema.tokens_render`: the tokens of a text that was read and those of its rendering.
-/

namespace RecordSchema

open Text Spelling

/-! ## Parts of a rendering -/

/-- In front of a text that stops it, a part of a rendering is read as the words of the tokens. -/
def Prints (text : String) (ts : List Token) : Prop :=
  ∀ rest ws, Stops rest → ReadsAs rest ws → ReadsAs (text.toList ++ rest) (words ts ++ ws)

/-- Whatever tokens spell an item, its rendering has their words. -/
def Faithful {α : Type} (item : α → List Token → Prop) (render : α → String) : Prop :=
  ∀ x ts, item x ts → (∀ t ∈ ts, t.Proper) → Prints (render x) ts

/-- Blanks, and at least one of them. -/
def Blanks (text : String) : Prop :=
  text.toList ≠ [] ∧ text.toList.all (fun c => isBlank c && isPlain c) = true

instance (text : String) : Decidable (Blanks text) := inferInstanceAs (Decidable (_ ∧ _))

/-- Kinds that a rendering leaves out or spells in its own way, and what is no token at all. -/
def alteredKinds : List TokenKind :=
  [.leftCurly, .rightCurly, .comma, .and, .or, .width, .unrecognised]

/-- What begins with a stop is one. -/
theorem stops_append {a : String} (hne : a.toList ≠ []) (h : Stops a.toList) (b : String) :
    Stops (a ++ b).toList := by
  rw [String.toList_append]
  cases ha : a.toList with
  | nil => exact absurd ha hne
  | cons c cs =>
    rw [ha] at h
    exact stops_cons (cs ++ b.toList) (h c rfl)

theorem ReadsAs.blanks {cs rest : List Char} {ws : List (TokenKind × String)} (h : ReadsAs rest ws)
    (hblank : cs.all (fun c => isBlank c && isPlain c) = true) : ReadsAs (cs ++ rest) ws := by
  induction cs with
  | nil => exact h
  | cons c cs ih =>
    rw [List.all_cons, Bool.and_eq_true, Bool.and_eq_true] at hblank
    obtain ⟨⟨hc, hplain⟩, hcs⟩ := hblank
    exact (ih hcs).blank hc hplain

theorem stops_of_blanks {text : String} (h : Blanks text) (rest : List Char) :
    Stops (text.toList ++ rest) := by
  obtain ⟨hne, hblank⟩ := h
  cases hcs : text.toList with
  | nil => exact absurd hcs hne
  | cons c cs =>
    rw [hcs, List.all_cons, Bool.and_eq_true, Bool.and_eq_true] at hblank
    exact stops_of_isBlank hblank.1.1 (cs ++ rest)

theorem stops_bracketed (items : List String) : Stops (bracketed items).toList := by
  rw [bracketed, String.append_assoc]
  exact stops_append (by decide) (by decide) _

namespace Prints

variable {a b : String} {us ts : List Token}

theorem empty : Prints "" [] := fun _ _ _ h => h

/-- What a whole rendering is read as. -/
theorem readsAs (h : Prints a ts) : ReadsAs a.toList (words ts) := by
  have hread := h [] [] stops_nil .nil
  rwa [List.append_nil, List.append_nil] at hread

/-- Braces and commas are not printed. -/
theorem congr (h : Prints a us) (hwords : words us = words ts) : Prints a ts := by
  intro rest ws hrest hr
  rw [← hwords]
  exact h rest ws hrest hr

/-- Parts of which the second stops the first. -/
theorem append (ha : Prints a us) (hb : Prints b ts) (hstops : Stops b.toList) :
    Prints (a ++ b) (us ++ ts) := by
  intro rest ws hrest h
  have hboth := ha _ _ (hstops.append hrest) (hb rest ws hrest h)
  rwa [String.toList_append, List.append_assoc, words_append, List.append_assoc]

/-- Parts with blanks between them do not touch. -/
theorem spaced (sep : String) (hsep : Blanks sep) (ha : Prints a us) (hb : Prints b ts) :
    Prints (a ++ sep ++ b) (us ++ ts) := by
  intro rest ws hrest h
  have hboth := ha _ _ (stops_of_blanks hsep _) ((hb rest ws hrest h).blanks hsep.2)
  rwa [String.toList_append, String.toList_append, List.append_assoc, List.append_assoc,
    words_append, List.append_assoc]

/-! ## Tokens -/

variable {t : Token}

/-- A text that spells the canonical word of a token. -/
theorem token {text : String} (hspells : Spells t.kind text.toList)
    (hwords : words [t] = [(t.kind, text)]) : Prints text [t] := by
  intro rest ws hrest h
  have hread := h.token hspells (hspells.leading_append hrest)
  rwa [String.ofList_toList, ← List.singleton_append, ← hwords] at hread

theorem words_of_kind (h : t.kind ∉ alteredKinds) : words [t] = [(t.kind, t.text)] := by
  simp only [alteredKinds, List.mem_cons, List.not_mem_nil, not_or, or_false] at h
  have hkept : t.isKept = true := by simp [Token.isKept, h]
  rw [words_kept hkept]
  unfold Token.canonical
  split <;> simp_all [Token.word]

theorem known_of_kind (h : t.kind ∉ alteredKinds) : t.kind ≠ .unrecognised :=
  fun hkind => h (hkind ▸ by decide)

/-- Most tokens are printed as they are. -/
theorem same (hp : t.Proper) (h : t.kind ∉ alteredKinds) : Prints t.text [t] :=
  token (hp (known_of_kind h)) (words_of_kind h)

theorem text_of_mark {text : String} (hp : t.Proper) (h : t.kind ∉ alteredKinds)
    (hmark : (text.toList, t.kind) ∈ marks) : t.text = text :=
  String.toList_inj.mp ((hp (known_of_kind h)).mark_eq hmark)

/-- A mark is printed for a token of its kind. -/
theorem mark {text : String} (hp : t.Proper) (h : t.kind ∉ alteredKinds)
    (hmark : (text.toList, t.kind) ∈ marks) : Prints text [t] :=
  text_of_mark hp h hmark ▸ same hp h

/-- A reserved word is printed for a token of its kind. -/
theorem keyword {text : String} (hp : t.Proper) (h : t.kind ∉ alteredKinds)
    (hword : (text, t.kind) ∈ keywords) : Prints text [t] := by
  have hconnective : t.kind ∉ [.and, .or] := by
    intro hmem
    simp only [List.mem_cons, List.not_mem_nil, or_false] at hmem
    rcases hmem with hmem | hmem <;> exact h (hmem ▸ by decide)
  have htext := String.toList_inj.mp ((hp (known_of_kind h)).keyword_eq hword hconnective)
  exact htext ▸ same hp h

/-- A connective is printed in lower case. -/
theorem lower {text : String} (h : (text, t.kind) ∈ [("and", .and), ("or", .or)]) :
    Prints text [t] := by
  have hand : Spells (nameKind "and") "and".toList := .name rfl rfl
  have hor : Spells (nameKind "or") "or".toList := .name rfl rfl
  simp only [List.mem_cons, Prod.mk.injEq, List.not_mem_nil, or_false] at h
  rcases h with ⟨rfl, hk⟩ | ⟨rfl, hk⟩
  · refine token (hk ▸ hand) ?_
    rw [words_kept (by simp [Token.isKept, hk]), Token.canonical, hk]
  · refine token (hk ▸ hor) ?_
    rw [words_kept (by simp [Token.isKept, hk]), Token.canonical, hk]

/-- A number is printed with the digits of its value. -/
theorem number (hp : t.Proper) (h : t.kind = .number) :
    Prints (toString (decimalValue t.text.toList)) [t] := by
  have hkind : t.kind ∉ alteredKinds := by
    rw [h]
    decide
  have hdigits := (hp (known_of_kind hkind)).number_digits h
  have htext : toString (decimalValue t.text.toList) = t.text := by
    rw [Nat.toString_eq_ofList_toDigits, hdigits, String.ofList_toList]
  rw [htext]
  exact same hp hkind

/-- A width is printed with the digits of its value. -/
theorem width (hp : t.Proper) (h : t.kind = .width) :
    Prints ("_" ++ toString (decimalValue (t.text.toList.drop 1))) [t] := by
  have hknown : t.kind ≠ .unrecognised := by
    rw [h]
    decide
  obtain ⟨digits, htext, hne, hd⟩ := (hp hknown).width_digits h
  refine token ?_ ?_
  · simp only [h, String.toList_append, Nat.toString_eq_ofList_toDigits, String.toList_ofList]
    exact spells_width _
  · rw [words_kept (by simp [Token.isKept, h]), Token.canonical, h, htext, List.drop_one,
      List.tail_cons, Nat.toString_eq_ofList_toDigits, toDigits_decimalValue hne hd]

/-! ## Lists -/

/-- The brackets of a rendering, each with its kind. -/
def brackets : List ((String × TokenKind) × String × TokenKind) :=
  [(("(", .leftParen), (")", .rightParen)), (("[", .leftSquare), ("]", .rightSquare))]

theorem brackets_marks : ∀ pair ∈ brackets,
    ((pair.1.1.toList, pair.1.2) ∈ marks ∧
      pair.1.2 ≠ .less ∧ pair.1.2 ≠ .greater ∧ pair.1.2 ∉ alteredKinds) ∧
    (pair.2.1.toList, pair.2.2) ∈ marks ∧ pair.2.2 ∉ alteredKinds ∧ Stops pair.2.1.toList := by
  decide

/-- A part between two brackets. An opening bracket is read apart from whatever is behind it. -/
theorem enclosed {left right : String} {opening closing : TokenKind} {inner : List Token → Prop}
    (hpair : ((left, opening), (right, closing)) ∈ brackets)
    (hinner : ∀ us, inner us → (∀ t ∈ us, t.Proper) → Prints a us)
    (h : Enclosed opening closing inner ts) (hp : ∀ t ∈ ts, t.Proper) :
    Prints (left ++ a ++ right) ts := by
  obtain ⟨⟨hleft, hless, hgreater, hopen⟩, hright, hclose, hstops⟩ := brackets_marks _ hpair
  cases h with
  | @mk o c ts ho hi hc =>
    subst ho hc
    rw [List.forall_mem_cons, List.forall_mem_append, List.forall_mem_singleton] at hp
    obtain ⟨hpo, hts, hpc⟩ := hp
    have hbehind : Prints (a ++ right) (ts ++ [c]) :=
      (hinner ts hi hts).append (mark hpc hclose hright) hstops
    have hwords : words [o] = [(o.kind, String.ofList left.toList)] := by
      rw [words_of_kind hopen, text_of_mark hpo hopen hleft, String.ofList_toList]
    intro rest ws hrest h
    have hread := (hbehind rest ws hrest h).token (.mark hleft)
      (leading_mark hleft fun hkind => (hkind.elim hless hgreater).elim)
    rw [words_cons, hwords, String.append_assoc, String.toList_append, List.append_assoc]
    exact hread

theorem words_of_comma {js : List Token} (hj : perhaps .comma js) : words js = [] := by
  rcases hj with rfl | ⟨t, rfl, ht⟩
  · rfl
  · exact words_dropped (by simp [Token.isKept, ht])

section Items

variable {α : Type} {between : List Token → Prop} {item : α → List Token → Prop}
  {render : α → String} {xs : List α}

/-- Items behind a part, with blanks before each of them. What stands between their tokens is not
printed. -/
theorem trail (sep : String) (hsep : Blanks sep) (hbetween : ∀ js, between js → words js = [])
    (hitem : Faithful item render) (h : Trail between item xs ts) :
    ∀ {a : String} {us : List Token}, Prints a us → (∀ t ∈ ts, t.Proper) →
      Prints (a ++ String.join ((xs.map render).map (sep ++ ·))) (us ++ ts) := by
  induction h with
  | nil =>
    intro a us ha _
    rw [List.map_nil, List.map_nil, String.join_nil, String.append_empty, List.append_nil]
    exact ha
  | @cons x xs js vs ts hj hi _ ih =>
    intro a us ha hp
    rw [List.append_assoc, List.forall_mem_append, List.forall_mem_append] at hp
    obtain ⟨-, hvs, hts⟩ := hp
    have hfirst := ih (ha.spaced sep hsep (hitem x vs hi hvs)) hts
    rw [List.map_cons, List.map_cons, String.join_cons, ← String.append_assoc,
      ← String.append_assoc]
    refine hfirst.congr ?_
    simp only [words_append, hbetween js hj, List.nil_append, List.append_assoc]

theorem intercalate_eq (sep x : String) (xs : List String) :
    sep.intercalate (x :: xs) = x ++ String.join (xs.map (sep ++ ·)) := by
  induction xs generalizing x with
  | nil => rw [String.intercalate_singleton, List.map_nil, String.join_nil, String.append_empty]
  | cons y xs ih =>
    rw [String.intercalate_cons_cons, ih, List.map_cons, String.join_cons]
    simp only [String.append_assoc]

theorem listed (sep : String) (hsep : Blanks sep) (hbetween : ∀ js, between js → words js = [])
    (hitem : Faithful item render) (h : Listed between item xs ts) (hp : ∀ t ∈ ts, t.Proper) :
    Prints (sep.intercalate (xs.map render)) ts := by
  cases h with
  | mk hi ht =>
    rw [List.forall_mem_append] at hp
    rw [List.map_cons, intercalate_eq]
    exact trail sep hsep hbetween hitem ht (hitem _ _ hi hp.1) hp.2

/-- A list in square brackets, its items separated by single blanks. -/
theorem bracketed (hitem : Faithful item render) (h : Bracketed item xs ts)
    (hp : ∀ t ∈ ts, t.Proper) : Prints (RecordSchema.bracketed (xs.map render)) ts := by
  refine enclosed (by decide) (fun us hlist hus => ?_) h hp
  exact listed " " (by decide) (fun _ hj => words_of_comma hj) hitem hlist hus

/-- Members in braces behind a part, each behind a line feed and a tab. -/
theorem members (ha : Prints a us) (hitem : Faithful item render) (h : Braced item xs ts)
    (hp : ∀ t ∈ ts, t.Proper) :
    Prints (a ++ renderMembers (xs.map render)) (us ++ ts) := by
  cases h with
  | @mk o c ts ho hi hc =>
    rw [List.forall_mem_cons, List.forall_mem_append] at hp
    have htrail : Trail nothing item xs ts := by
      cases hi with
      | mk hi ht => exact Trail.cons (show nothing [] from rfl) hi ht
    have hopen : words [o] = [] := words_dropped (by simp [Token.isKept, ho])
    have hclose : words [c] = [] := words_dropped (by simp [Token.isKept, hc])
    have hnothing : ∀ js, nothing js → words js = [] := by
      rintro js rfl
      rfl
    have hprints := trail "\n\t" (by decide) hnothing hitem htrail ha hp.2.1
    refine hprints.congr ?_
    rw [words_append, words_append, words_cons, words_append, hopen, hclose, List.nil_append,
      List.append_nil]

end Items

end Prints

/-! ## Conditions -/

theorem Name.faithful : Faithful Name.SpelledBy (·.text) := by
  intro n ts h hp
  cases h with
  | @mk t ht =>
    have hkind : t.kind ∉ alteredKinds := by
      rw [ht]
      decide
    exact .same (hp t List.mem_cons_self) hkind

theorem Operand.faithful : Faithful Operand.SpelledBy Operand.render := by
  intro o ts h hp
  cases h with
  | @name n _ h => exact Name.faithful n ts h hp
  | integer ht => exact .number (hp _ List.mem_cons_self) ht

theorem Relation.render_mem (x : Relation) : (x.render.toList, x.sign) ∈ marks := by
  cases x <;> decide

theorem Relation.sign_notMem (x : Relation) : x.sign ∉ alteredKinds := by
  cases x <;> decide

/-- Two parts with a connective between them. -/
theorem Prints.connective {a b word joint : String} {us vs : List Token} {t : Token}
    (hjoint : joint = " " ++ word ++ " ") (ha : Prints a us) (hword : Prints word [t])
    (hb : Prints b vs) : Prints (a ++ joint ++ b) (us ++ ([t] ++ vs)) := by
  have h := ha.spaced " " (by decide) (hword.spaced " " (by decide) hb)
  rw [hjoint]
  simpa only [String.append_assoc] using h

/-- A joined list of two items or more, from its first item and the list of the others. -/
theorem Prints.joined {α : Type} {item : α → List Token → Prop} {x y : α} {xs : List α}
    {a b joint : String} (word : String) {kind : TokenKind} {ts : List Token}
    (hjoint : joint = " " ++ word ++ " ") (hword : (word, kind) ∈ [("and", .and), ("or", .or)])
    (ha : ∀ us, item x us → (∀ t ∈ us, t.Proper) → Prints a us)
    (hb : ∀ vs, Listed (only kind) item (y :: xs) vs → (∀ t ∈ vs, t.Proper) → Prints b vs)
    (h : Listed (only kind) item (x :: y :: xs) ts) (hp : ∀ t ∈ ts, t.Proper) :
    Prints (a ++ joint ++ b) ts := by
  obtain ⟨us, js, vs, rfl, hx, ⟨k, rfl, hk⟩, hrest⟩ := h.uncons
  rw [List.forall_mem_append, List.forall_mem_append] at hp
  subst hk
  exact (ha us hx hp.1).connective hjoint (.lower hword) (hb vs hrest hp.2.2)

mutual

theorem Term.prints : ∀ (t : Term) (ts : List Token), t.SpelledBy ts → (∀ k ∈ ts, k.Proper) →
    Prints t.render ts
  | .comparison l x r, _, h, hp => by
    cases h with
    | @comparison _ _ _ s us ts hl hs hr =>
      rw [List.forall_mem_append, List.forall_mem_cons] at hp
      obtain ⟨hus, hproper, hts⟩ := hp
      have hsign : Prints x.render [s] :=
        .mark hproper (hs ▸ x.sign_notMem) (hs ▸ x.render_mem)
      have hleft := (Operand.faithful l us hl hus).spaced " " (by decide) hsign
      have hall := hleft.spaced " " (by decide) (Operand.faithful r ts hr hts)
      rwa [List.append_assoc] at hall
  | .group d, ts, h, hp => by
    have henclosed : Enclosed .leftParen .rightParen (Disjunction.SpelledBy d) ts := by
      cases h with
      | group ho hd hc => exact .mk ho hd hc
    exact Prints.enclosed (by decide) (Disjunction.prints d) henclosed hp

theorem Conjunction.prints : ∀ (c : List Term) (ts : List Token), Conjunction.SpelledBy c ts →
    (∀ k ∈ ts, k.Proper) → Prints (Conjunction.render c) ts
  | [], _, h, _ => by exact absurd rfl (Listed.ne_nil h)
  | [t], ts, h, hp => Term.prints t ts h.single hp
  | t :: u :: rest, ts, h, hp => by
    have hrest := Conjunction.prints (u :: rest)
    exact Prints.joined "and" (by decide) (by decide) (Term.prints t) hrest h hp

theorem Disjunction.prints : ∀ (d : List (List Term)) (ts : List Token),
    Disjunction.SpelledBy d ts → (∀ k ∈ ts, k.Proper) → Prints (Disjunction.render d) ts
  | [], _, h, _ => by exact absurd rfl (Listed.ne_nil h)
  | [c], ts, h, hp => Conjunction.prints c ts h.single hp
  | c :: d :: rest, ts, h, hp => by
    have hrest := Disjunction.prints (d :: rest)
    exact Prints.joined "or" (by decide) (by decide) (Conjunction.prints c) hrest h hp

end

theorem Condition.faithful : Faithful Condition.SpelledBy Condition.render := by
  intro c ts h hp
  cases h with
  | @default t ht => exact .keyword (hp t List.mem_cons_self) (ht ▸ by decide) (ht ▸ by decide)
  | @expression d _ hd => exact Disjunction.prints d ts hd hp

/-! ## Types and members -/

theorem Builtin.keyword_mem (b : Builtin) : (b.keyword, b.word) ∈ keywords := by
  cases b <;> decide

theorem Builtin.word_notMem (b : Builtin) : b.word ∉ alteredKinds := by
  cases b <;> decide

theorem SimpleType.faithful : Faithful SimpleType.SpelledBy SimpleType.render := by
  intro t ts h hp
  cases h with
  | @bare b k hk =>
    rw [SimpleType.render, String.append_empty]
    exact .keyword (hp k List.mem_cons_self) (hk ▸ b.word_notMem) (hk ▸ b.keyword_mem)
  | @wide b k w hk hw _ =>
    rw [List.forall_mem_cons, List.forall_mem_singleton] at hp
    have hkeyword : Prints b.keyword [k] :=
      .keyword hp.1 (hk ▸ b.word_notMem) (hk ▸ b.keyword_mem)
    exact hkeyword.append (.width hp.2 hw) (stops_append (by decide) (by decide) _)

/-- Values behind the type they are for. -/
theorem Prints.values {a : String} {vs : Option (List Operand)} {us ts : List Token}
    (ha : Prints a us) (h : ValuesSpelledBy vs ts) (hp : ∀ t ∈ ts, t.Proper) :
    Prints (a ++ vs.elim "" renderValues) (us ++ ts) := by
  cases h with
  | none => exact ha.append .empty stops_nil
  | @some vs _ h =>
    have hvalues : Prints (renderValues vs) ts := .bracketed Operand.faithful h hp
    exact ha.append hvalues (stops_bracketed _)

theorem Reference.render_eq (r : Reference) :
    r.render = (match r.target with | .builtin type => type.render | .declared _ => r.name.text) ++
      r.values.elim "" renderValues := by
  obtain ⟨name, target, values⟩ := r
  cases values <;> rfl

theorem Reference.faithful : Faithful Reference.SpelledBy Reference.render := by
  intro r ts h hp
  rw [Reference.render_eq]
  cases h with
  | builtin ht hv =>
    rw [List.forall_mem_append] at hp
    exact (SimpleType.faithful _ _ ht hp.1).values hv hp.2
  | declared hn hv =>
    rw [List.forall_mem_append] at hp
    exact (Name.faithful _ _ hn hp.1).values hv hp.2

theorem Field.faithful : Faithful Field.SpelledBy Field.render := by
  intro f ts h hp
  cases h with
  | mk hn hr =>
    rw [List.forall_mem_append] at hp
    exact (Name.faithful _ _ hn hp.1).spaced " " (by decide) (Reference.faithful _ _ hr hp.2)

theorem Branch.faithful : Faithful Branch.SpelledBy Branch.render := by
  intro b ts h hp
  cases h with
  | @mk r c us ts hr hc =>
    rw [List.forall_mem_append] at hp
    have hcondition : Prints ("(" ++ c.render ++ ")") ts :=
      .enclosed (by decide) (Condition.faithful c) hc hp.2
    rw [String.append_assoc] at hcondition
    have hboth := (Reference.faithful r us hr hp.1).append hcondition
      (stops_append (by decide) (by decide) _)
    simpa only [Branch.render, String.append_assoc] using hboth

/-! ## Declarations -/

theorem renderParameters_of_ne_nil {ps : List Name} (h : ps ≠ []) :
    renderParameters ps = bracketed (ps.map (·.text)) := by
  rw [renderParameters, if_neg (by simp [h])]

/-- A keyword with parameters and members. -/
theorem Prints.composite {α : Type} {item : α → List Token → Prop} {render : α → String}
    (word : String) {k : Token} {ps : List Name} {xs : List α} {us ts : List Token}
    (hp : ∀ t ∈ k :: (us ++ ts), t.Proper) (hkind : k.kind ∉ alteredKinds)
    (hword : (word, k.kind) ∈ keywords) (hps : Bracketed Name.SpelledBy ps us)
    (hitem : Faithful item render) (hxs : Braced item xs ts) :
    Prints (word ++ RecordSchema.bracketed (ps.map (·.text)) ++ renderMembers (xs.map render))
      (k :: (us ++ ts)) := by
  rw [List.forall_mem_cons, List.forall_mem_append] at hp
  obtain ⟨hpk, hus, hts⟩ := hp
  have hlist : Prints (RecordSchema.bracketed (ps.map (·.text))) us :=
    .bracketed Name.faithful hps hus
  have hhead := (Prints.keyword hpk hkind hword).append hlist (stops_bracketed _)
  exact hhead.members hitem hxs hts

theorem Body.faithful : Faithful Body.SpelledBy Body.render := by
  intro b ts h hp
  cases h with
  | simple h => exact SimpleType.faithful _ _ h hp
  | @bare k fs ts hk hf =>
    rw [List.forall_mem_cons] at hp
    have hkeyword : Prints "SEQUENCE" [k] := .keyword hp.1 (hk ▸ by decide) (hk ▸ by decide)
    exact (hkeyword.append .empty stops_nil).members Field.faithful hf hp.2
  | sequence hk hps hf =>
    rw [Body.render, renderParameters_of_ne_nil hps.items_ne_nil]
    exact .composite "SEQUENCE" hp (hk ▸ by decide) (hk ▸ by decide) hps Field.faithful hf
  | @array k p _ _ _ hk hps hf =>
    rw [Body.render, show [p.text] = [p].map (·.text) from rfl]
    exact .composite "ARRAY" hp (hk ▸ by decide) (hk ▸ by decide) hps Field.faithful hf
  | choice hk hps hb =>
    rw [Body.render, renderParameters_of_ne_nil hps.items_ne_nil]
    exact .composite "CHOICE" hp (hk ▸ by decide) (hk ▸ by decide) hps Branch.faithful hb

theorem Declaration.faithful : Faithful Declaration.SpelledBy Declaration.render := by
  intro d ts h hp
  cases h with
  | @mk n b a us ts hn ha hb =>
    rw [List.forall_mem_append, List.forall_mem_cons] at hp
    obtain ⟨hus, hproper, hts⟩ := hp
    have hassignment : Prints "::=" [a] := .mark hproper (ha ▸ by decide) (ha ▸ by decide)
    exact (Name.faithful n us hn hus).connective (by decide) hassignment (Body.faithful b ts hb hts)

/-- Declarations, each ended by a line feed. -/
theorem Prints.declarations {ds : List Declaration} {ts : List Token}
    (h : Trail nothing Declaration.SpelledBy ds ts) (hp : ∀ t ∈ ts, t.Proper) :
    Prints (String.join (ds.map (·.render ++ "\n"))) ts := by
  induction h with
  | nil => exact .empty
  | @cons d ds js us ts hj hd _ ih =>
    rw [List.append_assoc, List.forall_mem_append, List.forall_mem_append] at hp
    obtain ⟨-, hus, hts⟩ := hp
    rw [show js = [] from hj, List.nil_append, List.map_cons, String.join_cons]
    exact (Declaration.faithful d us hd hus).spaced "\n" (by decide) (ih hts)

/-- **The rendering of a schema** has the words of the tokens that spell it. -/
theorem Schema.faithful : Faithful Schema.SpelledBy Schema.render :=
  fun _ _ h hp => .declarations h hp

/-- **A rendering says what was read, token for token.** The tokens of a text that was read spell
the schema, each in the place of its kind. The rendering is normalized, and its tokens are those of
the text in order, without braces and commas, with connectives in lower case and widths without
leading zeros. -/
theorem Schema.tokens_render {source : SourceId} {text : String} {p : Schema}
    (h : (Schema.parse source text).result = .ok p) :
    p.SpelledBy (Text.tokens text) ∧ Text.isNormalized p.render.toList = true ∧
      (Text.tokens p.render).map Token.word =
        ((Text.tokens text).filter Token.isKept).map Token.canonical := by
  obtain ⟨-, hspell, -⟩ := Schema.parse_sound h
  have hprints := Schema.faithful p _ hspell (Scan.tokens_proper _) [] [] stops_nil .nil
  rw [List.append_nil, List.append_nil] at hprints
  exact ⟨hspell, hprints.tokens⟩

/-- A choice with a width that has a leading zero and a connective in upper case. -/
theorem Schema.tokens_render_choice :
    ∃ p, (Schema.parse ⟨0⟩
        "c ::= CHOICE[k, m] \x7b UINT_08(k == m AND k < 2) BOOL(DEFAULT) \x7d").result = .ok p ∧
      Text.isNormalized p.render.toList = true ∧
      (Text.tokens p.render).map Token.word =
        [(.identifier, "c"), (.assignment, "::="), (.choice, "CHOICE"), (.leftSquare, "["),
          (.identifier, "k"), (.identifier, "m"), (.rightSquare, "]"), (.uint, "UINT"),
          (.width, "_8"), (.leftParen, "("), (.identifier, "k"), (.equal, "=="),
          (.identifier, "m"), (.and, "and"), (.identifier, "k"), (.less, "<"), (.number, "2"),
          (.rightParen, ")"), (.bool, "BOOL"), (.leftParen, "("), (.default, "DEFAULT"),
          (.rightParen, ")")] := by
  have h : (Schema.parse ⟨0⟩
      "c ::= CHOICE[k, m] \x7b UINT_08(k == m AND k < 2) BOOL(DEFAULT) \x7d").result =
      .ok ⟨[⟨⟨"c", 0⟩, .choice [⟨"k", 13⟩, ⟨"m", 16⟩]
        [⟨⟨⟨"UINT", 21⟩, .builtin ⟨.uint, some 8⟩, none⟩, .expression
          [[.comparison (.name ⟨"k", 29⟩) .equal (.name ⟨"m", 34⟩),
            .comparison (.name ⟨"k", 40⟩) .less (.integer 2)]]⟩,
        ⟨⟨⟨"BOOL", 47⟩, .builtin ⟨.bool, none⟩, none⟩, .default⟩]⟩]⟩ := by
    decide +kernel
  obtain ⟨-, hnormal, hwords⟩ := Schema.tokens_render h
  refine ⟨_, h, hnormal, hwords.trans ?_⟩
  decide +kernel

end RecordSchema
