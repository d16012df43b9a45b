import Mathlib.Computability.Language
import RecordSchema.Proofs.Positions

/-!
# Tokens as longest matches

The lexical grammar is a few patterns: the marks, and three regular languages for names, numbers and
widths. `Matches kind cs` says that the characters `cs` are a pattern of that kind, and
`LongestMatch r kind cs` which token a text `r` begins with: the longest match, but for digits
behind a leading zero, which are one unrecognised token, and a single unrecognised character where
nothing matches. Neither says how the text is read.

Results:
* `matches_iff`: the patterns are what `Spelling.Spells` says by the functions that read them.
* `length_le_of_prefix`: no match at the front of a text is longer than the token read there.
* `longestMatch_leading`, `LongestMatch.unique`: a text begins with its longest match, and with no
  other token.
* `Cursor.walk_longestMatch`: so does the text behind every token that a cursor hands out.
-/

namespace RecordSchema.Spelling

open Text
open scoped Computability

/-! ## Patterns -/

/-- One character of those that have a property. The classes of `Char` are those of ASCII. -/
def chars (p : Char → Bool) : Language Char := { cs | ∃ c, p c = true ∧ cs = [c] }

/-- `-[A-Za-z0-9]+` -/
def hyphenated : Language Char :=
  chars (· == '-') * (chars Char.isAlphanum * (chars Char.isAlphanum)∗)

/-- `[A-Za-z][A-Za-z0-9]*(-[A-Za-z0-9]+)*` -/
def identifier : Language Char :=
  chars Char.isAlpha * ((chars Char.isAlphanum)∗ * hyphenated∗)

/-- `0|[1-9][0-9]*` -/
def number : Language Char :=
  chars (· == '0') + chars (fun c => c.isDigit && c != '0') * (chars Char.isDigit)∗

/-- `_[0-9]+` -/
def width : Language Char := chars (· == '_') * (chars Char.isDigit * (chars Char.isDigit)∗)

/-- The characters are a pattern of the kind. An identifier has the kind of the reserved word that
it is as a whole, if it is one. -/
inductive Matches : TokenKind → List Char → Prop
  | mark {kind : TokenKind} {cs : List Char} (h : (cs, kind) ∈ marks) : Matches kind cs
  | keyword {kind : TokenKind} {cs : List Char} (h : cs ∈ identifier)
      (hk : (String.ofList cs, kind) ∈ keywords) : Matches kind cs
  | identifier {cs : List Char} (h : cs ∈ identifier)
      (hk : ∀ kind, (String.ofList cs, kind) ∉ keywords) : Matches .identifier cs
  | number {cs : List Char} (h : cs ∈ number) : Matches .number cs
  | width {cs : List Char} (h : cs ∈ width) : Matches .width cs

/-- The text begins with a zero and a further digit. -/
def LeadingZero (r : List Char) : Prop := ∃ d rest, r = '0' :: d :: rest ∧ d.isDigit = true

/-- The token that a text begins with, by its kind and its characters. -/
inductive LongestMatch (r : List Char) : TokenKind → List Char → Prop
  /-- Digits behind a leading zero, as many as there are. -/
  | zeros {cs rest : List Char} (hz : LeadingZero r) (hr : r = cs ++ rest)
      (hd : ∀ c ∈ cs, c.isDigit = true) (hrest : ∀ c ∈ rest.head?, c.isDigit = false) :
      LongestMatch r .unrecognised cs
  /-- The longest of the patterns at the front. -/
  | longest {kind : TokenKind} {cs : List Char} (hz : ¬ LeadingZero r) (hcs : cs <+: r)
      (hm : Matches kind cs) (hlongest : ∀ kind' cs', cs' <+: r → Matches kind' cs' →
        cs'.length ≤ cs.length) : LongestMatch r kind cs
  /-- A single character that no pattern begins with. -/
  | other {c : Char} {rest : List Char} (hz : ¬ LeadingZero r) (hr : r = c :: rest)
      (hnone : ∀ kind cs, cs <+: r → ¬ Matches kind cs) : LongestMatch r .unrecognised [c]

/-! ## Languages and the functions that read them -/

theorem mem_chars_kstar {p : Char → Bool} {cs : List Char} :
    cs ∈ (chars p)∗ ↔ ∀ c ∈ cs, p c = true := by
  rw [Language.mem_kstar]
  constructor
  · rintro ⟨L, rfl, hL⟩ c hc
    obtain ⟨y, hy, hc⟩ := List.mem_flatten.mp hc
    obtain ⟨d, hd, rfl⟩ := hL y hy
    rwa [List.mem_singleton.mp hc]
  · intro h
    refine ⟨cs.map ([·]), (List.flatMap_singleton' cs).symm, fun y hy => ?_⟩
    obtain ⟨c, hc, rfl⟩ := List.mem_map.mp hy
    exact ⟨c, h c hc, rfl⟩

/-- One character in front of others. -/
theorem mem_chars_mul {p : Char → Bool} {l : Language Char} {cs : List Char} :
    cs ∈ chars p * l ↔ ∃ c rest, cs = c :: rest ∧ p c = true ∧ rest ∈ l := by
  rw [Language.mem_mul]
  constructor
  · rintro ⟨_, ⟨c, hc, rfl⟩, rest, hrest, rfl⟩
    exact ⟨c, rest, rfl, hc, hrest⟩
  · rintro ⟨c, rest, rfl, hc, hrest⟩
    exact ⟨[c], ⟨c, hc, rfl⟩, rest, hrest, rfl⟩

/-- What follows the first letter of a name. -/
theorem mem_alphanum_mul {cs : List Char} : cs ∈ (chars Char.isAlphanum)∗ * hyphenated∗ ↔
    ∃ as L, cs = as ++ List.flatten L ∧ (∀ c ∈ as, c.isAlphanum = true) ∧
      ∀ g ∈ L, g ∈ hyphenated := by
  rw [Language.mem_mul]
  constructor
  · rintro ⟨as, has, gs, hgs, rfl⟩
    obtain ⟨L, rfl, hL⟩ := Language.mem_kstar.mp hgs
    exact ⟨as, L, rfl, mem_chars_kstar.mp has, hL⟩
  · rintro ⟨as, L, rfl, has, hL⟩
    exact ⟨as, mem_chars_kstar.mpr has, _, Language.mem_kstar.mpr ⟨L, rfl, hL⟩, rfl⟩

theorem mem_hyphenated {cs : List Char} : cs ∈ hyphenated ↔
    ∃ d as, cs = '-' :: d :: as ∧ d.isAlphanum = true ∧ ∀ c ∈ as, c.isAlphanum = true := by
  unfold hyphenated
  rw [mem_chars_mul]
  constructor
  · rintro ⟨c, rest, rfl, hc, hrest⟩
    obtain ⟨d, as, rfl, hd, has⟩ := mem_chars_mul.mp hrest
    exact ⟨d, as, by rw [beq_iff_eq.mp hc], hd, mem_chars_kstar.mp has⟩
  · rintro ⟨d, as, rfl, hd, has⟩
    exact ⟨'-', _, rfl, rfl, mem_chars_mul.mpr ⟨d, as, rfl, hd, mem_chars_kstar.mpr has⟩⟩

/-- Letters and digits in front of the tail of a name. -/
theorem nameTail_alphanum_append {as cs : List Char} (has : ∀ c ∈ as, c.isAlphanum = true)
    (h : nameTail cs = cs.length) : nameTail (as ++ cs) = (as ++ cs).length := by
  induction as with
  | nil => exact h
  | cons c as ih =>
    obtain ⟨hc, has⟩ := List.forall_mem_cons.mp has
    have ih := ih has
    rw [List.cons_append]
    cases htail : as ++ cs with
    | nil => rw [nameTail_single, if_pos hc]; rfl
    | cons d rest =>
      rw [htail] at ih
      rw [nameTail_cons_cons, if_pos (Or.inl hc), ih]
      rfl

/-- Behind a letter or digit the tail of a name is one. -/
theorem nameTail_of_cons {c : Char} {cs : List Char}
    (h : nameTail (c :: cs) = (c :: cs).length) : nameTail cs = cs.length := by
  cases cs with
  | nil => rfl
  | cons d rest =>
    rw [nameTail_cons_cons] at h
    split at h
    · exact Nat.succ.inj h
    · exact absurd h (by simp)

theorem mem_of_nameTail_eq : ∀ {cs : List Char}, nameTail cs = cs.length →
    cs ∈ (chars Char.isAlphanum)∗ * hyphenated∗
  | [], _ => mem_alphanum_mul.mpr ⟨[], [], rfl, by simp, by simp⟩
  | [c], h => by
    by_cases hc : c.isAlphanum = true
    · exact mem_alphanum_mul.mpr ⟨[c], [], rfl, by simpa using hc, by simp⟩
    · rw [nameTail_single, if_neg hc] at h
      exact absurd h (by simp)
  | c :: d :: rest, h => by
    have htail := nameTail_of_cons h
    by_cases hc : c.isAlphanum = true
    · obtain ⟨as, L, hcs, has, hL⟩ := mem_alphanum_mul.mp (mem_of_nameTail_eq htail)
      refine mem_alphanum_mul.mpr ⟨c :: as, L, by rw [hcs]; rfl, ?_, hL⟩
      exact List.forall_mem_cons.mpr ⟨hc, has⟩
    · -- A hyphen begins a group that goes on as far as the letters and digits behind it.
      rw [nameTail_cons_cons] at h
      split at h
      · rename_i hgoes
        obtain ⟨rfl, hd⟩ := hgoes.resolve_left hc
        obtain ⟨as, L, rfl, has, hL⟩ :=
          mem_alphanum_mul.mp (mem_of_nameTail_eq (nameTail_of_cons htail))
        refine mem_alphanum_mul.mpr ⟨[], ('-' :: d :: as) :: L, rfl, by simp, ?_⟩
        exact List.forall_mem_cons.mpr ⟨mem_hyphenated.mpr ⟨d, as, rfl, hd, has⟩, hL⟩
      · exact absurd h (by simp)

/-- **The tail of a name** is read as far as its pattern says. -/
theorem nameTail_eq_length_iff {cs : List Char} :
    nameTail cs = cs.length ↔ cs ∈ (chars Char.isAlphanum)∗ * hyphenated∗ := by
  refine ⟨mem_of_nameTail_eq, fun h => ?_⟩
  obtain ⟨as, L, rfl, has, hL⟩ := mem_alphanum_mul.mp h
  clear h
  refine nameTail_alphanum_append has ?_
  induction L with
  | nil => rfl
  | cons g L ih =>
    obtain ⟨hg, hgs⟩ := List.forall_mem_cons.mp hL
    obtain ⟨d, bs, rfl, hd, hbs⟩ := mem_hyphenated.mp hg
    have hgroup : nameTail (d :: bs ++ L.flatten) = (d :: bs ++ L.flatten).length :=
      nameTail_alphanum_append (List.forall_mem_cons.mpr ⟨hd, hbs⟩)
        (ih hgs)
    rw [List.cons_append] at hgroup
    rw [List.flatten_cons, List.cons_append, List.cons_append, nameTail_cons_cons,
      if_pos (Or.inr ⟨rfl, hd⟩), hgroup]
    rfl

theorem mem_identifier {cs : List Char} : cs ∈ identifier ↔
    ∃ c tail, cs = c :: tail ∧ c.isAlpha = true ∧ nameTail tail = tail.length := by
  simp only [identifier, mem_chars_mul, nameTail_eq_length_iff]

theorem mem_number {cs : List Char} : cs ∈ number ↔
    ∃ c rest, cs = c :: rest ∧ c.isDigit = true ∧ (∀ d ∈ rest, d.isDigit = true) ∧
      (c = '0' → rest = []) := by
  unfold number
  rw [Language.mem_add, mem_chars_mul]
  constructor
  · rintro (⟨c, hc, rfl⟩ | ⟨c, rest, rfl, hc, hrest⟩)
    · exact ⟨c, [], rfl, by rw [beq_iff_eq.mp hc]; rfl, by simp, fun _ => rfl⟩
    · obtain ⟨hdigit, hne⟩ := (Bool.and_eq_true _ _).mp hc
      exact ⟨c, rest, rfl, hdigit, mem_chars_kstar.mp hrest, fun h0 => by simp [h0] at hne⟩
  · rintro ⟨c, rest, rfl, hc, hrest, hz⟩
    by_cases h0 : c = '0'
    · exact .inl ⟨c, by simp [h0], by rw [hz h0]⟩
    · exact .inr ⟨c, rest, rfl, by simp [hc, h0], mem_chars_kstar.mpr hrest⟩

theorem mem_width {cs : List Char} : cs ∈ width ↔
    ∃ digits, cs = '_' :: digits ∧ digits ≠ [] ∧ ∀ d ∈ digits, d.isDigit = true := by
  unfold width
  rw [mem_chars_mul]
  constructor
  · rintro ⟨c, digits, rfl, hc, hdigits⟩
    obtain ⟨d, rest, rfl, hd, hrest⟩ := mem_chars_mul.mp hdigits
    refine ⟨d :: rest, by rw [beq_iff_eq.mp hc], by simp, ?_⟩
    exact List.forall_mem_cons.mpr ⟨hd, mem_chars_kstar.mp hrest⟩
  · rintro ⟨digits, rfl, hne, hd⟩
    obtain ⟨d, rest, rfl⟩ := List.exists_cons_of_ne_nil hne
    obtain ⟨hd, hrest⟩ := List.forall_mem_cons.mp hd
    exact ⟨'_', _, rfl, rfl, mem_chars_mul.mpr ⟨d, rest, rfl, hd, mem_chars_kstar.mpr hrest⟩⟩

/-! ## Patterns and the functions that read them -/

theorem nameKind_of_keyword : ∀ entry ∈ keywords, nameKind entry.1 = entry.2 := by decide

/-- A name has the kind of the reserved word that it is, and else that of identifiers. -/
theorem nameKind_eq_iff {name : String} {kind : TokenKind} :
    nameKind name = kind ↔ (name, kind) ∈ keywords ∨
      kind = .identifier ∧ ∀ kind', (name, kind') ∉ keywords := by
  constructor
  · rintro rfl
    by_cases h : ∃ kind', (name, kind') ∈ keywords
    · obtain ⟨kind', hk⟩ := h
      exact .inl (nameKind_of_keyword _ hk ▸ hk)
    · have hnot := not_exists.mp h
      exact .inr ⟨(nameKind_cases name).resolve_left (hnot _), hnot⟩
  · rintro (hk | ⟨rfl, hnot⟩)
    · exact nameKind_of_keyword _ hk
    · exact (nameKind_cases name).resolve_left (hnot _)

/-- **The patterns** are what is read as a whole. -/
theorem matches_iff {kind : TokenKind} {cs : List Char} : Matches kind cs ↔ Spells kind cs := by
  constructor
  · rintro (h | ⟨h, hk⟩ | ⟨h, hk⟩ | h | h)
    · exact .mark h
    · obtain ⟨c, tail, rfl, hc, ht⟩ := mem_identifier.mp h
      rw [← nameKind_eq_iff.mpr (.inl hk)]
      exact .name hc ht
    · obtain ⟨c, tail, rfl, hc, ht⟩ := mem_identifier.mp h
      have hname := Spells.name hc ht
      rwa [nameKind_eq_iff.mpr (.inr ⟨rfl, hk⟩)] at hname
    · obtain ⟨c, rest, rfl, hc, hr, hz⟩ := mem_number.mp h
      exact .number hc hr hz
    · obtain ⟨digits, rfl, hne, hd⟩ := mem_width.mp h
      exact .width hne hd
  · intro h
    cases h with
    | mark h => exact .mark h
    | @name c tail hc ht =>
      have hmem := mem_identifier.mpr ⟨c, tail, rfl, hc, ht⟩
      rcases nameKind_eq_iff.mp (Eq.refl (nameKind (String.ofList (c :: tail)))) with
        hk | ⟨hk, hnot⟩
      · exact .keyword hmem hk
      · rw [hk]
        exact .identifier hmem hnot
    | number hc hr hz => exact .number (mem_number.mpr ⟨_, _, rfl, hc, hr, hz⟩)
    | width hne hd => exact .width (mem_width.mpr ⟨_, rfl, hne, hd⟩)

/-! ## The longest match -/

/-- Of the marks at the front of a text the one that is read is the longest. -/
theorem length_le_of_marks {kind : TokenKind} {cs r : List Char} (h : (cs, kind) ∈ marks)
    (hcs : cs <+: r) : ∃ kind' n, markAt? r = some (kind', n) ∧ cs.length ≤ n := by
  cases hfind : marks.find? (fun mark => mark.1.isPrefixOf r) with
  | none => exact absurd (List.isPrefixOf_iff_prefix.mpr hcs) (List.find?_eq_none.mp hfind _ h)
  | some mark =>
    refine ⟨mark.2, mark.1.length, by rw [markAt?, hfind]; rfl, ?_⟩
    obtain ⟨hmark, before, after, hsplit, hbefore⟩ := List.find?_eq_some_iff_append.mp hfind
    have hordered := List.pairwise_append.mp (hsplit ▸ marks_ordered)
    rw [hsplit, List.mem_append, List.mem_cons] at h
    rcases h with h | rfl | h
    · have hnot := hbefore _ h
      simp [List.isPrefixOf_iff_prefix.mpr hcs] at hnot
    · exact Nat.le_refl _
    · -- A mark behind it in the table does not begin with it.
      have hnot := (List.rel_of_pairwise_cons hordered.2.1 h).1
      rcases List.prefix_or_prefix_of_prefix hcs (List.isPrefixOf_iff_prefix.mp hmark) with hp | hp
      · exact hp.length_le
      · exact absurd hp hnot

/-- The tail of a name at the front of a text is no longer than what is read there. -/
theorem length_le_nameTail (rest : List Char) : ∀ {tail : List Char},
    nameTail tail = tail.length → tail.length ≤ nameTail (tail ++ rest)
  | [], _ => Nat.zero_le _
  | [c], h => by
    have hc : c.isAlphanum = true := by
      by_contra hc
      rw [nameTail_single, if_neg hc] at h
      exact absurd h (by simp)
    exact Nat.one_le_iff_ne_zero.mpr (nameTail_ne_zero hc rest)
  | c :: d :: tail, h => by
    have ih := length_le_nameTail rest (nameTail_of_cons h)
    rw [nameTail_cons_cons] at h
    split at h
    · rename_i hgoes
      rw [List.cons_append] at ih
      rw [List.cons_append, List.cons_append, nameTail_cons_cons, if_pos hgoes]
      exact Nat.succ_le_succ ih
    · exact absurd h (by simp)

theorem length_le_digitRun (rest : List Char) {digits : List Char}
    (h : ∀ d ∈ digits, d.isDigit = true) :
    digits.length ≤ digitRun (digits ++ rest) := by
  rw [digitRun, List.takeWhile_append_of_pos h, List.length_append]
  exact Nat.le_add_right _ _

/-- **No match at the front of a text** is longer than the token that is read there. -/
theorem Spells.length_le {kind : TokenKind} {cs rest : List Char} (h : Spells kind cs) :
    cs.length ≤ (leading (cs ++ rest)).2 := by
  cases h with
  | mark h =>
    obtain ⟨kind', n, hmark, hle⟩ := length_le_of_marks h (List.prefix_append cs rest)
    obtain ⟨c, tail, hcs⟩ : ∃ c tail, cs = c :: tail :=
      List.exists_cons_of_length_pos (marks_proper _ h).1
    rw [hcs, List.cons_append] at hmark ⊢
    rw [leading, hmark]
    exact hcs ▸ hle
  | @name c tail hc ht =>
    rw [List.cons_append, leading, markAt?_eq_none (.inl (isAlphanum_of_isAlpha hc))]
    simp only [hc, if_true, nameAt, List.length_cons]
    exact Nat.succ_le_succ (length_le_nameTail rest ht)
  | @number c digits hc hr hz =>
    rw [List.cons_append, leading, markAt?_eq_none (.inl (isAlphanum_of_isDigit hc))]
    simp only [isAlpha_of_isDigit hc, hc, if_true, numberAt, List.length_cons]
    exact Nat.succ_le_succ (length_le_digitRun rest hr)
  | @width digits hne hd =>
    have hletter : '_'.isAlpha = false := by decide
    have hdigit : '_'.isDigit = false := by decide
    rw [List.cons_append, leading, markAt?_eq_none (.inr rfl)]
    simp only [hletter, hdigit, beq_self_eq_true, if_true, widthAt, List.length_cons]
    exact Nat.succ_le_succ (length_le_digitRun rest hd)

theorem marks_known : ∀ mark ∈ marks, mark.2 ≠ .unrecognised := by decide

theorem keywords_known : ∀ entry ∈ keywords, entry.2 ≠ .unrecognised := by decide

theorem nameKind_known (name : String) : nameKind name ≠ .unrecognised := by
  rcases nameKind_cases name with h | h
  · exact keywords_known _ h
  · rw [h]
    decide

theorem leadingZero_cons {c : Char} {rest : List Char} :
    LeadingZero (c :: rest) ↔ c = '0' ∧ digitRun rest ≠ 0 := by
  constructor
  · rintro ⟨d, tail, hr, hd⟩
    obtain ⟨rfl, rfl⟩ := List.cons.inj hr
    refine ⟨rfl, ?_⟩
    rw [digitRun, List.takeWhile_cons_of_pos hd]
    simp
  · rintro ⟨rfl, hn⟩
    cases rest with
    | nil => exact absurd rfl hn
    | cons d tail =>
      refine ⟨d, tail, rfl, ?_⟩
      by_contra hd
      rw [digitRun, List.takeWhile_cons_of_neg hd] at hn
      exact hn rfl

/-- Where a pattern matches, the token is recognised, but for a leading zero. -/
theorem Spells.known {kind : TokenKind} {cs rest : List Char} (h : Spells kind cs)
    (hz : ¬ LeadingZero (cs ++ rest)) : (leading (cs ++ rest)).1 ≠ .unrecognised := by
  cases h with
  | mark h =>
    obtain ⟨c, tail, rfl⟩ := List.exists_cons_of_length_pos (marks_proper _ h).1
    obtain ⟨kind', n, hmark, -⟩ := length_le_of_marks h (List.prefix_append (c :: tail) rest)
    obtain ⟨mark, hfind, hkind⟩ := Option.map_eq_some_iff.mp hmark
    obtain ⟨rfl, -⟩ := Prod.mk.inj hkind
    rw [List.cons_append] at hmark ⊢
    rw [leading, hmark]
    exact marks_known _ (List.mem_of_find?_eq_some hfind)
  | @name c tail hc ht =>
    rw [List.cons_append, leading, markAt?_eq_none (.inl (isAlphanum_of_isAlpha hc))]
    simp only [hc, if_true, nameAt]
    exact nameKind_known _
  | @number c digits hc hr _ =>
    rw [List.cons_append, leading, markAt?_eq_none (.inl (isAlphanum_of_isDigit hc))]
    rw [List.cons_append, leadingZero_cons] at hz
    have hzero : (c == '0' && digitRun (digits ++ rest) != 0) = false := by
      simpa using hz
    simp [isAlpha_of_isDigit hc, hc, numberAt, hzero]
  | @width digits hne hd =>
    have hletter : '_'.isAlpha = false := by decide
    have hdigit : '_'.isDigit = false := by decide
    have hlength := length_le_digitRun rest hd
    have hpos := List.length_pos_iff.mpr hne
    rw [List.cons_append, leading, markAt?_eq_none (.inr rfl)]
    have hsome : (digitRun (digits ++ rest) == 0) = false := by
      rw [beq_eq_false_iff_ne]
      omega
    simp [hletter, hdigit, widthAt, hsome]

/-- What is not recognised is one character, but for a leading zero. -/
theorem length_of_unrecognised {c : Char} {rest : List Char}
    (h : (leading (c :: rest)).1 = .unrecognised) (hz : ¬ LeadingZero (c :: rest)) :
    (leading (c :: rest)).2 = 1 := by
  rw [leadingZero_cons] at hz
  cases hmark : markAt? (c :: rest) with
  | some token =>
    obtain ⟨mark, hfind, rfl⟩ := Option.map_eq_some_iff.mp hmark
    rw [leading, hmark] at h
    exact absurd h (marks_known _ (List.mem_of_find?_eq_some hfind))
  | none =>
    simp only [leading, hmark] at h ⊢
    split at h
    · exact absurd h (nameKind_known _)
    · rename_i hletter
      rw [if_neg hletter]
      split at h
      · rename_i hdigit
        rw [numberAt, if_neg (by simpa using hz)] at h
        cases h
      · rename_i hdigit
        rw [if_neg hdigit]
        split at h
        · rename_i hunder
          have hnone : digitRun rest = 0 := by
            by_contra hsome
            rw [widthAt, if_neg (by simpa using hsome)] at h
            cases h
          rw [if_pos hunder, widthAt, hnone]
        · rename_i hunder
          rw [if_neg hunder]

/-- **A text begins with its longest match.** -/
theorem longestMatch_leading (c : Char) (rest : List Char) :
    LongestMatch (c :: rest) (leading (c :: rest)).1
      ((c :: rest).take (leading (c :: rest)).2) := by
  obtain ⟨-, hle, hend⟩ := leading_cons c rest
  by_cases hz : LeadingZero (c :: rest)
  · obtain ⟨rfl, hn⟩ := leadingZero_cons.mp hz
    have hread : leading ('0' :: rest) = (.unrecognised, digitRun rest + 1) := by
      have hletter : '0'.isAlpha = false := by decide
      have hdigit : '0'.isDigit = true := by decide
      rw [leading, markAt?_eq_none (.inl (by decide))]
      simp [hletter, hdigit, numberAt, hn]
    have htake : rest.take (digitRun rest) = rest.takeWhile Char.isDigit :=
      (List.prefix_iff_eq_take.mp (List.takeWhile_prefix _)).symm
    rw [hread, List.take_succ_cons, htake]
    refine @LongestMatch.zeros _ _ (rest.dropWhile Char.isDigit) hz ?_ ?_ ?_
    · rw [List.cons_append, List.takeWhile_append_dropWhile]
    · exact List.forall_mem_cons.mpr ⟨by decide, fun d hd => List.mem_takeWhile_imp hd⟩
    · intro d hd
      have hstop := List.head?_dropWhile_not Char.isDigit rest
      rwa [Option.mem_def.mp hd] at hstop
  by_cases hknown : (leading (c :: rest)).1 = .unrecognised
  · rw [hknown, length_of_unrecognised hknown hz]
    refine .other hz rfl fun kind cs hcs hm => ?_
    obtain ⟨after, hr⟩ := hcs
    rw [← hr] at hz hknown
    exact (matches_iff.mp hm).known hz hknown
  · refine .longest hz (List.take_prefix _ _) (matches_iff.mpr (spells_of_leading hend hknown)) ?_
    intro kind cs hcs hm
    obtain ⟨after, hr⟩ := hcs
    rw [List.length_take, List.length_cons, Nat.min_eq_left hle, ← hr]
    exact (matches_iff.mp hm).length_le

/-- **Which token a text begins with** is settled by the patterns. -/
theorem LongestMatch.unique {r cs cs' : List Char} {kind kind' : TokenKind}
    (h : LongestMatch r kind cs) (h' : LongestMatch r kind' cs') : kind = kind' ∧ cs = cs' := by
  cases h with
  | @zeros _ rest hz hr hd hrest =>
    have hmaximal {ds tail : List Char} (htail : r = ds ++ tail)
        (hds : ∀ c ∈ ds, c.isDigit = true) (hstop : ∀ c ∈ tail.head?, c.isDigit = false) :
        ds = r.takeWhile Char.isDigit := by
      rw [htail, takeWhile_digits hds hstop]
    cases h' with
    | zeros _ hr' hd' hrest' =>
      exact ⟨rfl, (hmaximal hr hd hrest).trans (hmaximal hr' hd' hrest').symm⟩
    | longest hz' => exact absurd hz hz'
    | other hz' => exact absurd hz hz'
  | longest hz hcs hm hlongest =>
    cases h' with
    | zeros hz' => exact absurd hz' hz
    | longest _ hcs' hm' hlongest' =>
      have hlength := Nat.le_antisymm (hlongest' _ _ hcs hm) (hlongest _ _ hcs' hm')
      obtain rfl : cs = cs' := by
        rw [List.prefix_iff_eq_take.mp hcs, List.prefix_iff_eq_take.mp hcs', hlength]
      have hread := (matches_iff.mp hm).leading_append stops_nil
      have hread' := (matches_iff.mp hm').leading_append stops_nil
      exact ⟨(Prod.mk.inj (hread.symm.trans hread')).1, rfl⟩
    | other _ _ hnone => exact absurd hm (hnone _ _ hcs)
  | other hz hr hnone =>
    cases h' with
    | zeros hz' => exact absurd hz' hz
    | longest _ hcs' hm' => exact absurd hm' (hnone _ _ hcs')
    | other _ hr' _ =>
      obtain ⟨rfl, -⟩ := List.cons.inj (hr.symm.trans hr')
      exact ⟨rfl, rfl⟩

/-- No token is where nothing is left. -/
theorem LongestMatch.ne_nil {r cs : List Char} {kind : TokenKind} (h : LongestMatch r kind cs) :
    r ≠ [] := by
  rintro rfl
  cases h with
  | zeros hz _ _ _ =>
    obtain ⟨d, rest, hr, -⟩ := hz
    cases hr
  | longest _ hcs hm _ =>
    obtain ⟨c, rest, hc, -⟩ := (matches_iff.mp hm).begins
    rw [List.prefix_nil.mp hcs] at hc
    cases hc
  | other _ hr _ => cases hr

end RecordSchema.Spelling

/-! ## The tokens of a text -/

namespace RecordSchema

open Text

/-- The token is the one that its text begins with from its offset on, or the end of input behind
all of the text. -/
def Token.IsLongest (text : String) (t : Token) : Prop :=
  ∃ before r, text.toList = before ++ r ∧ t.offset = byteLength before ∧
    (r = [] ∧ t.kind = .endOfInput ∧ t.text = "" ∨
      Spelling.LongestMatch r t.kind t.text.toList)

/-- The part of a text behind a place is told by the bytes in front of it. -/
theorem Text.behind_eq : ∀ {front front' behind behind' : List Char},
    front ++ behind = front' ++ behind' → byteLength front = byteLength front' →
      behind = behind'
  | [], [], _, _, h, _ => h
  | [], c :: _, _, _, _, hlength => by
    have hpos := c.utf8Size_pos
    rw [byteLength_nil, byteLength_cons] at hlength
    omega
  | c :: _, [], _, _, _, hlength => by
    have hpos := c.utf8Size_pos
    rw [byteLength_nil, byteLength_cons] at hlength
    omega
  | c :: front, c' :: front', _, _, h, hlength => by
    obtain ⟨rfl, hrest⟩ := List.cons.inj h
    rw [byteLength_cons, byteLength_cons, Nat.add_left_cancel_iff] at hlength
    exact behind_eq hrest hlength

/-- **Which token stands at an offset** is settled by the text. -/
theorem Token.IsLongest.unique {text : String} {t u : Token} (ht : t.IsLongest text)
    (hu : u.IsLongest text) (hoffset : u.offset = t.offset) : u = t := by
  obtain ⟨before, r, htext, hbefore, hr⟩ := ht
  obtain ⟨before', r', htext', hbefore', hr'⟩ := hu
  obtain rfl : r' = r := Text.behind_eq (htext'.symm.trans htext)
    (hbefore'.symm.trans (hoffset.trans hbefore))
  obtain ⟨kind, word, offset⟩ := t
  obtain ⟨kind', word', offset'⟩ := u
  obtain rfl : offset' = offset := hoffset
  rcases hr with ⟨hnil, rfl, rfl⟩ | hlongest
  · rcases hr' with ⟨-, rfl, rfl⟩ | hlongest'
    · rfl
    · exact absurd hnil hlongest'.ne_nil
  · rcases hr' with ⟨hnil, -, -⟩ | hlongest'
    · exact absurd hnil hlongest.ne_nil
    · obtain ⟨rfl, hword⟩ := hlongest'.unique hlongest
      obtain rfl : word' = word := String.toList_inj.mp hword
      rfl

namespace Scan

theorem Behind.isLongest {s : Scan} {text : String} {passed : List Char}
    (h : s.Behind text passed) : s.lexeme.1.token.IsLongest text := by
  obtain ⟨skipped, hrest, hstop⟩ := gap_splits s.offset s.rest
  refine ⟨passed ++ skipped, (gap s.offset s.rest).rest, ?_, ?_, ?_⟩
  · rw [h.1, List.append_assoc]
    exact congrArg (passed ++ ·) hrest
  · show (gap s.offset s.rest).stop = _
    rw [hstop, h.2, byteLength_append]
  · cases hr : (gap s.offset s.rest).rest with
    | nil => exact .inl (by simp [Scan.lexeme, hr, Spelling.leading])
    | cons c rest =>
      have hlongest := Spelling.longestMatch_leading c rest
      simp only [Scan.lexeme, hr, String.toList_ofList]
      exact .inr hlongest

/-- **Every token of a text is the longest match** from its offset on. -/
theorem stream_isLongest (s : Scan) {text : String} {passed : List Char}
    (h : s.Behind text passed) : ∀ t ∈ s.lexemes.stream, t.IsLongest text := by
  have hfirst := h.isLongest
  by_cases hend : s.lexeme.1.token.kind = .endOfInput
  · rw [lexemes_of_end hend, Lexemes.stream_single]
    exact List.forall_mem_singleton.mpr hfirst
  · obtain ⟨-, -, -, passed', hbehind⟩ := h.lexeme
    have hshort := lexeme_shorter hend
    rw [lexemes_of_token hend, Lexemes.stream_cons]
    exact List.forall_mem_cons.mpr ⟨hfirst, stream_isLongest s.lexeme.2 hbehind⟩
termination_by s.rest.length

end Scan

namespace Cursor

/-- A walk hands out nothing but the tokens ahead. -/
theorem mem_stream_of_walk {n : Nat} {c : Cursor} {t : Token} (h : t ∈ c.walk n) :
    t ∈ c.remaining.stream := by
  induction n generalizing c with
  | zero => exact absurd h List.not_mem_nil
  | succ n ih =>
    obtain ⟨htoken, hnext⟩ := c.next_eq
    rcases List.mem_cons.mp h with rfl | h
    · rw [htoken]
      exact List.mem_cons_self
    · have hmem := ih h
      rw [hnext, Lexemes.stream_advance] at hmem
      split at hmem
      · exact hmem
      · exact List.mem_of_mem_tail hmem

/-- **Each token is the longest match of the lexical grammar.** With the text behind its offset: two
or more digits with a leading zero are one unrecognised token as far as they go; else the token is
the longest match of a mark, an identifier, a number or a width and has the kind of that, where an
identifier that is a reserved word as a whole has the kind of the word; and what no pattern matches
is one unrecognised character. Behind the last token stands the end of input. No other token than
the one handed out is any of this at its offset. -/
theorem walk_longestMatch {source : SourceId} {text : String} {c : Cursor}
    (h : Cursor.ofText source text = .ok c) (n : Nat) : ∀ t ∈ c.walk n, t.IsLongest text ∧
      ∀ u : Token, u.IsLongest text → u.offset = t.offset → u = t := by
  intro t ht
  obtain ⟨passed, hbehind⟩ := Scan.ofText_behind text
  have hremaining := (remaining_of_ofText h).2
  have hlongest := Scan.stream_isLongest _ hbehind t (hremaining ▸ mem_stream_of_walk ht)
  exact ⟨hlongest, fun u hu => hlongest.unique hu⟩

/-- Words that only begin like reserved ones, numbers next to letters, hyphens that go on no name,
and characters of two bytes. -/
theorem walk_longestMatch_words :
    ∃ text c, text = "And UINT-8 ORx a--b--é007 0x1_ _9<=:=" ∧ Cursor.ofText ⟨0⟩ text = .ok c ∧
      (c.walk 14).map Token.word = [(.identifier, "And"), (.identifier, "UINT-8"),
        (.identifier, "ORx"), (.identifier, "a"), (.unrecognised, "é"), (.unrecognised, "007"),
        (.number, "0"), (.identifier, "x1"), (.unrecognised, "_"), (.width, "_9"),
        (.lessEqual, "<="), (.unrecognised, ":"), (.unrecognised, "="), (.endOfInput, "")] ∧
      ∀ t ∈ c.walk 14, t.IsLongest text ∧
        ∀ u : Token, u.IsLongest text → u.offset = t.offset → u = t := by
  have h : Cursor.ofText ⟨0⟩ "And UINT-8 ORx a--b--é007 0x1_ _9<=:=" =
      .ok ⟨⟨0⟩, .ofStream (.ofText "And UINT-8 ORx a--b--é007 0x1_ _9<=:=".toList)⟩ :=
    if_pos (by decide +kernel)
  exact ⟨_, _, rfl, h, by decide +kernel, walk_longestMatch h 14⟩

end Cursor

end RecordSchema
