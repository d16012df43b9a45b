import RecordSchema.Proofs.Grammar
import RecordSchema.Proofs.Words

/-!
# Items told by their words

The words of a rendering tell what was rendered and where each part of it ends. `Tells` says so of
an item, up to what a function on items forgets, and with a condition on what stands behind its
words. It is closed under lists, brackets, braces and leaving an item out. A list of items without
separators ends where no further item can begin, which is what `Delimits` asks for.

Results:
* `Trail.tells`, `Listed.tells`: lists of items that are told by their words.
* `Enclosed.tells`, `Braced.tells`, `Optional.tells`: other ways to put items together.
-/

namespace RecordSchema

/-! ## Words -/

/-- A kind of token and a text. -/
abbrev Word := TokenKind × String

/-- The kinds of tokens that have no words. -/
def wordless : List TokenKind := [.leftCurly, .rightCurly, .comma]

/-- The words do not begin with one of some kinds. -/
def Clear (kinds : List TokenKind) (ws : List Word) : Prop := ∀ w ∈ ws.head?, w.1 ∉ kinds

theorem clear_any (ws : List Word) : Clear [] ws := fun _ _ => List.not_mem_nil

theorem clear_nil (kinds : List TokenKind) : Clear kinds [] := fun w hw => absurd hw (by simp)

theorem clear_cons {kinds : List TokenKind} {w : Word} {ws : List Word} :
    Clear kinds (w :: ws) ↔ w.1 ∉ kinds := by
  simp [Clear]

theorem Clear.mono {kinds others : List TokenKind} {ws : List Word} (h : Clear kinds ws)
    (hsub : ∀ kind ∈ others, kind ∈ kinds) : Clear others ws :=
  fun w hw hmem => h w hw (hsub _ hmem)

theorem Token.canonical_fst (t : Token) : t.canonical.1 = t.kind := by
  unfold canonical
  split <;> simp_all [word]

theorem words_token {t : Token} (h : t.kind ∉ wordless) (ts : List Token) :
    words (t :: ts) = t.canonical :: words ts := by
  rw [words_cons, words_kept (decide_eq_true h), List.singleton_append]

theorem words_wordless {t : Token} (h : t.kind ∈ wordless) (ts : List Token) :
    words (t :: ts) = words ts := by
  rw [words_cons, words_dropped (decide_eq_false (not_not.mpr h)), List.nil_append]

theorem Token.kind_eq {t t' : Token} (h : t.canonical = t'.canonical) : t.kind = t'.kind := by
  rw [← t.canonical_fst, h, t'.canonical_fst]

/-- Words in front that are equal, and what stands behind them. -/
theorem words_token_inj {t t' : Token} {ts ts' : List Token} {ws ws' : List Word}
    (ht : t.kind ∉ wordless) (ht' : t'.kind ∉ wordless)
    (h : words (t :: ts) ++ ws = words (t' :: ts') ++ ws') :
    t.canonical = t'.canonical ∧ words ts ++ ws = words ts' ++ ws' := by
  rw [words_token ht, words_token ht'] at h
  exact List.cons.inj h

namespace Begins

variable {kinds others : List TokenKind} {us vs : List Token}

/-- The first word is that of the first token. -/
theorem word (h : Begins kinds us) (hkept : ∀ kind ∈ kinds, kind ∉ wordless) :
    ∃ w ws, words us = w :: ws ∧ w.1 ∈ kinds := by
  obtain ⟨t, ts, rfl, hk⟩ := h
  exact ⟨_, _, words_token (hkept _ hk) ts, t.canonical_fst.symm ▸ hk⟩

theorem clear (h : Begins kinds us) (hkept : ∀ kind ∈ kinds, kind ∉ wordless)
    (hdisjoint : ∀ kind ∈ kinds, kind ∉ others) (ws : List Word) :
    Clear others (words us ++ ws) := by
  obtain ⟨w, rest, hwords, hk⟩ := h.word hkept
  rw [hwords]
  exact clear_cons.mpr (hdisjoint _ hk)

/-- What has the same words begins with the same kind. -/
theorem meet (h : Begins kinds us) (h' : Begins others vs)
    (hkept : ∀ kind ∈ kinds, kind ∉ wordless) (hkept' : ∀ kind ∈ others, kind ∉ wordless)
    {ws ws' : List Word} (heq : words us ++ ws = words vs ++ ws') :
    ∃ kind ∈ kinds, kind ∈ others := by
  obtain ⟨w, rest, hwords, hk⟩ := h.word hkept
  obtain ⟨w', rest', hwords', hk'⟩ := h'.word hkept'
  rw [hwords, hwords'] at heq
  obtain ⟨rfl, -⟩ := List.cons.inj heq
  exact ⟨_, hk, hk'⟩

end Begins

/-! ## Telling items apart -/

/-- The words of an item tell it from any other one, up to what `erase` forgets, and where they end,
if what stands behind them may follow. -/
def Tells {α β : Type} (item : α → List Token → Prop) (erase : α → β)
    (follow : List Word → Prop) (x : α) : Prop :=
  ∀ y us vs ws ws', item x us → item y vs → follow ws → follow ws' →
    words us ++ ws = words vs ++ ws' → erase x = erase y ∧ ws = ws'

/-- How the items of a list are told from what stands behind it. The separators have the words
`joint`; what may follow an item and what may follow the whole list are different conditions. -/
structure Delimits {α : Type} (sep : List Token → Prop) (item : α → List Token → Prop)
    (joint : List Word) (inner outer : List Word → Prop) : Prop where
  between : ∀ js, sep js → words js = joint
  next : ∀ x us, item x us → ∀ ws, inner (joint ++ (words us ++ ws))
  last : ∀ ws, outer ws → inner ws
  apart : ∀ x us, item x us → ∀ ws, ¬ outer (joint ++ (words us ++ ws))

section Lists

variable {α β : Type} {sep : List Token → Prop} {item : α → List Token → Prop} {erase : α → β}
  {joint : List Word} {inner outer : List Word → Prop}

theorem Delimits.follow_trail (h : Delimits sep item joint inner outer) {xs : List α}
    {ts : List Token} (ht : Trail sep item xs ts) {ws : List Word} (hws : outer ws) :
    inner (words ts ++ ws) := by
  cases ht with
  | nil => exact h.last ws hws
  | @cons x xs js us ts hj hx _ =>
    rw [words_append, words_append, h.between js hj, List.append_assoc, List.append_assoc]
    exact h.next x us hx _

/-- What may stand behind a list is no further item of it. -/
theorem Delimits.not_outer (h : Delimits sep item joint inner outer) {x : α} {xs : List α}
    {ts : List Token} (ht : Trail sep item (x :: xs) ts) (ws : List Word) :
    ¬ outer (words ts ++ ws) := by
  cases ht with
  | @cons _ _ js us ts hj hx _ =>
    rw [words_append, words_append, h.between js hj, List.append_assoc, List.append_assoc]
    exact h.apart x us hx _

/-- **A trail of items is told** by its words if its items are. -/
theorem Trail.tells (h : Delimits sep item joint inner outer) {xs : List α}
    (hitem : ∀ x ∈ xs, Tells item erase inner x) :
    Tells (Trail sep item) (List.map erase) outer xs := by
  induction xs with
  | nil =>
    rintro ys us vs ws ws' hx hy hws hws' heq
    cases hx
    obtain rfl : ws = words vs ++ ws' := heq
    cases ys with
    | nil =>
      cases hy
      exact ⟨rfl, rfl⟩
    | cons y ys => exact absurd hws (h.not_outer hy ws')
  | cons x xs ih =>
    obtain ⟨hx, hxs⟩ := List.forall_mem_cons.mp hitem
    rintro ys us vs ws ws' htx hty hws hws' heq
    cases ys with
    | nil =>
      cases hty
      obtain rfl : words us ++ ws = ws' := heq
      exact absurd hws' (h.not_outer htx ws)
    | cons y ys =>
      cases htx with
      | @cons _ _ js us ts hj hspell htx =>
        cases hty with
        | @cons _ _ js' us' ts' hj' hspell' hty =>
          simp only [words_append, h.between _ hj, h.between _ hj', List.append_assoc] at heq
          obtain ⟨hfirst, hrest⟩ := hx y us us' _ _ hspell hspell' (h.follow_trail htx hws)
            (h.follow_trail hty hws') (List.append_cancel_left heq)
          obtain ⟨hothers, hws⟩ := ih hxs ys ts ts' ws ws' htx hty hws hws' hrest
          exact ⟨by rw [List.map_cons, List.map_cons, hfirst, hothers], hws⟩

/-- **A list of items is told** by its words if its items are. -/
theorem Listed.tells (h : Delimits sep item joint inner outer) {xs : List α}
    (hitem : ∀ x ∈ xs, Tells item erase inner x) :
    Tells (Listed sep item) (List.map erase) outer xs := by
  rintro ys us vs ws ws' hx hy hws hws' heq
  cases hx with
  | @mk x xs us ts hspell htx =>
    cases hy with
    | @mk y ys us' ts' hspell' hty =>
      obtain ⟨hx, hxs⟩ := List.forall_mem_cons.mp hitem
      rw [words_append, words_append, List.append_assoc, List.append_assoc] at heq
      obtain ⟨hfirst, hrest⟩ := hx y us us' _ _ hspell hspell' (h.follow_trail htx hws)
        (h.follow_trail hty hws') heq
      obtain ⟨hothers, hws⟩ := Trail.tells h hxs ys ts ts' ws ws' htx hty hws hws' hrest
      exact ⟨by rw [List.map_cons, List.map_cons, hfirst, hothers], hws⟩

variable {opening closing : TokenKind} {follow : List Word → Prop} {x : α}

/-- What stands in brackets is told by its words, whatever stands behind the brackets. -/
theorem Enclosed.tells (hopen : opening ∉ wordless) (hclose : closing ∉ wordless)
    (hfollow : ∀ w ws, w.1 = closing → follow (w :: ws)) (hx : Tells item erase follow x) :
    Tells (fun x => Enclosed opening closing (item x)) erase (Clear []) x := by
  rintro y us vs ws ws' ⟨ho, hi, hc⟩ ⟨ho', hi', hc'⟩ - - heq
  subst ho hc
  obtain ⟨-, heq⟩ := words_token_inj hopen (ho' ▸ hopen) heq
  rw [words_append, words_append, words_token hclose, words_token (hc' ▸ hclose),
    List.append_assoc, List.append_assoc] at heq
  obtain ⟨herase, hrest⟩ := hx y _ _ _ _ hi hi' (hfollow _ _ (Token.canonical_fst _))
    (hfollow _ _ ((Token.canonical_fst _).trans hc')) heq
  exact ⟨herase, (List.cons.inj hrest).2⟩

/-- What stands in parentheses is told if a closing one may stand behind it. -/
theorem Enclosed.parenthesised {kinds : List TokenKind} (hclose : .rightParen ∉ kinds)
    (hx : Tells item erase (Clear kinds) x) :
    Tells (fun x => Enclosed .leftParen .rightParen (item x)) erase (Clear []) x :=
  tells (by decide) (by decide) (fun _ _ hw => clear_cons.mpr (hw ▸ hclose)) hx

/-- An item or nothing. -/
inductive Optional (item : α → List Token → Prop) : Option α → List Token → Prop
  | none : Optional item none []
  | some {x : α} {ts : List Token} (h : item x ts) : Optional item (some x) ts

/-- An item that can be left out is told by its words if nothing behind it begins like one. -/
theorem Optional.tells {kinds : List TokenKind} (hbegins : ∀ x us, item x us → Begins kinds us)
    (hkept : ∀ kind ∈ kinds, kind ∉ wordless) (hitem : ∀ x, Tells item erase (Clear []) x)
    (x : Option α) : Tells (Optional item) (Option.map erase) (Clear kinds) x := by
  have hclash {y : α} {vs : List Token} {ws : List Word} (hy : item y vs) :
      ¬ Clear kinds (words vs ++ ws) := by
    obtain ⟨w, rest, hwords, hk⟩ := (hbegins y vs hy).word hkept
    rw [hwords]
    exact fun hclear => clear_cons.mp hclear hk
  rintro y us vs ws ws' hx hy hws hws' heq
  cases hx with
  | none =>
    cases hy with
    | none => exact ⟨rfl, heq⟩
    | some hy =>
      obtain rfl : ws = words vs ++ ws' := heq
      exact absurd hws (hclash hy)
  | some hx =>
    cases hy with
    | none =>
      obtain rfl : words us ++ ws = ws' := heq
      exact absurd hws' (hclash hx)
    | some hy =>
      obtain ⟨herase, hws⟩ := hitem _ _ _ _ _ _ hx hy (clear_any _) (clear_any _) heq
      exact ⟨congrArg Option.some herase, hws⟩

/-- Braces are no words. -/
theorem Braced.tells {xs : List α} {erase : List α → β}
    (hx : Tells (Listed nothing item) erase follow xs) :
    Tells (Braced item) erase follow xs := by
  rintro y us vs ws ws' ⟨ho, hi, hc⟩ ⟨ho', hi', hc'⟩ hws hws' heq
  rw [words_wordless (ho ▸ by decide), words_wordless (ho' ▸ by decide), words_append,
    words_append, words_wordless (hc ▸ by decide), words_wordless (hc' ▸ by decide),
    List.append_assoc, List.append_assoc] at heq
  exact hx y _ _ _ _ hi hi' hws hws' heq

end Lists

end RecordSchema
