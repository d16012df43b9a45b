import Mathlib.Data.List.Induction
import Mathlib.Data.List.TakeWhile
import RecordSchema.Text.Blank
import RecordSchema.Text.Decimal
import RecordSchema.Text.Normalization
import RecordSchema.Token.Spelling

/-!
# The text of a token

`Spells kind cs` says that the characters `cs` are a token of that kind as a whole: a mark, a name,
a number or a width. It does not depend on what follows, and reading needs of what follows only
that it goes on no token, `Stops`.

Results:
* `spells_of_leading`: what is read off the front of a text spells a token.
* `Spells.leading_append`: what spells a token is read as that, in front of a text that stops it.
* `Spells.mark_eq`, `Spells.keyword_eq`: the kind of a mark, and that of a reserved word other than
  a connective, have one spelling.
* `Text.toDigits_decimalValue`: digits without their leading zeros are those of their value.
-/

namespace RecordSchema

/-! ## Digits -/

namespace Text

/-- Digits without leading zeros. A last zero stays. -/
def stripZeros : List Char → List Char
  | '0' :: d :: rest => stripZeros (d :: rest)
  | cs => cs

theorem toNat_of_isDigit {c : Char} (h : c.isDigit = true) : 48 ≤ c.toNat ∧ c.toNat ≤ 57 := by
  obtain ⟨hlo, hhi⟩ := (Bool.and_eq_true _ _).mp h
  exact ⟨of_decide_eq_true hlo, of_decide_eq_true hhi⟩

theorem toNat_of_isAlpha {c : Char} (h : c.isAlpha = true) : 65 ≤ c.toNat ∧ c.toNat ≤ 122 := by
  rcases (Bool.or_eq_true _ _).mp h with hupper | hlower
  · have hbounds : 65 ≤ c.toNat ∧ c.toNat ≤ 90 := of_decide_eq_true hupper
    omega
  · obtain ⟨hlo, hhi⟩ := (Bool.and_eq_true _ _).mp hlower
    have hlo : 97 ≤ c.toNat := of_decide_eq_true hlo
    exact ⟨by omega, of_decide_eq_true hhi⟩

theorem digitChar_of_isDigit {c : Char} (h : c.isDigit = true) :
    c.toNat - 48 < 10 ∧ (c.toNat - 48).digitChar = c := by
  obtain ⟨hlo, hhi⟩ := toNat_of_isDigit h
  have hlt : c.toNat - 48 < 10 := by omega
  refine ⟨hlt, Char.toNat_inj.mp ?_⟩
  rw [Nat.toNat_digitChar_of_lt_ten hlt]
  omega

theorem decimalValue_concat (cs : List Char) (c : Char) :
    decimalValue (cs ++ [c]) = 10 * decimalValue cs + (c.toNat - 48) := by
  unfold decimalValue
  rw [Nat.ofDigitChars_append, Nat.ofDigitChars_cons, Nat.ofDigitChars_nil]
  rfl

theorem decimalValue_cons_zero (cs : List Char) : decimalValue ('0' :: cs) = decimalValue cs := by
  unfold decimalValue
  rw [Nat.ofDigitChars_cons]
  rfl

/-- Digits that do not begin with a zero are those of their value. -/
theorem toDigits_of_head {cs : List Char} (hne : cs ≠ []) (hd : ∀ c ∈ cs, c.isDigit = true)
    (hz : cs.head? = some '0' → cs = ['0']) : Nat.toDigits 10 (decimalValue cs) = cs := by
  induction cs using List.reverseRecOn with
  | nil => exact absurd rfl hne
  | append_singleton cs c ih =>
    obtain ⟨hlt, hchar⟩ := digitChar_of_isDigit (hd c (by simp))
    rw [decimalValue_concat]
    by_cases hcs : cs = []
    · subst hcs
      rw [show decimalValue [] = 0 from rfl, Nat.mul_zero, Nat.zero_add,
        Nat.toDigits_of_lt_base hlt, hchar, List.nil_append]
    · have hhead : cs.head? ≠ some '0' := by
        intro hc
        have hlen := congrArg List.length (hz (by rw [List.head?_append, hc]; rfl))
        have hpos := List.length_pos_iff.mpr hcs
        simp only [List.length_append, List.length_cons, List.length_nil] at hlen
        omega
      have hdigits := ih hcs (fun d hdmem => hd d (List.mem_append_left _ hdmem))
        (fun hc => absurd hc hhead)
      have hpos : 0 < decimalValue cs := by
        by_contra hzero
        rw [Nat.eq_zero_of_not_pos hzero, Nat.toDigits_zero] at hdigits
        exact hhead (by rw [← hdigits]; rfl)
      rw [← Nat.toDigits_append_toDigits (by decide) hpos hlt, hdigits,
        Nat.toDigits_of_lt_base hlt, hchar]

/-- **Digits without their leading zeros are those of their value.** -/
theorem toDigits_decimalValue {cs : List Char} (hne : cs ≠ [])
    (hd : ∀ c ∈ cs, c.isDigit = true) : Nat.toDigits 10 (decimalValue cs) = stripZeros cs := by
  induction cs using stripZeros.induct with
  | case1 d rest ih =>
    rw [decimalValue_cons_zero, stripZeros]
    exact ih (List.cons_ne_nil d rest) fun c hc => hd c (List.mem_cons_of_mem _ hc)
  | case2 cs hcs =>
    have hhead : cs.head? = some '0' → cs = ['0'] := by
      intro hc
      match cs, hcs with
      | [c], _ => rw [Option.some.inj hc]
      | c :: d :: rest, hcs => exact absurd (by rw [Option.some.inj hc]) (hcs d rest)
    rw [toDigits_of_head hne hd hhead]
    unfold stripZeros
    split
    · exact absurd rfl (hcs _ _)
    · rfl

/-- Zeros in front do not change the value. -/
theorem decimalValue_stripZeros (cs : List Char) :
    decimalValue (stripZeros cs) = decimalValue cs := by
  induction cs using stripZeros.induct with
  | case1 d rest ih => rw [stripZeros, ih, decimalValue_cons_zero]
  | case2 cs hcs => rw [stripZeros.eq_2 cs hcs]

end Text

namespace Spelling

open Text

/-! ## What spells a token -/

/-- The characters are one token of the kind. -/
inductive Spells : TokenKind → List Char → Prop
  | mark {kind : TokenKind} {cs : List Char} (h : (cs, kind) ∈ marks) : Spells kind cs
  | name {c : Char} {tail : List Char} (hc : c.isAlpha = true)
      (ht : nameTail tail = tail.length) : Spells (nameKind (String.ofList (c :: tail))) (c :: tail)
  | number {c : Char} {rest : List Char} (hc : c.isDigit = true)
      (hr : ∀ d ∈ rest, d.isDigit = true) (hz : c = '0' → rest = []) : Spells .number (c :: rest)
  | width {digits : List Char} (hne : digits ≠ []) (hd : ∀ d ∈ digits, d.isDigit = true) :
      Spells .width ('_' :: digits)

/-- No token goes on with the text. -/
def Stops (cs : List Char) : Prop :=
  ∀ c ∈ cs.head?, c.isAlphanum = false ∧ c ≠ '-' ∧ c ≠ '='

theorem stops_nil : Stops [] := fun c hc => absurd hc (by simp)

theorem stops_cons {c : Char} (cs : List Char) (h : c.isAlphanum = false ∧ c ≠ '-' ∧ c ≠ '=') :
    Stops (c :: cs) := by
  intro d hd
  obtain rfl := Option.mem_some_iff.mp hd
  exact h

instance : (cs : List Char) → Decidable (Stops cs)
  | [] => isTrue stops_nil
  | c :: cs =>
    decidable_of_iff (c.isAlphanum = false ∧ c ≠ '-' ∧ c ≠ '=')
      ⟨stops_cons cs, fun h => h c rfl⟩

theorem Stops.append {cs rest : List Char} (h : Stops cs) (hrest : Stops rest) :
    Stops (cs ++ rest) := by
  cases cs with
  | nil => exact hrest
  | cons c cs => exact stops_cons (cs ++ rest) (h c rfl)

/-! ## Marks -/

/-- Every mark begins with a character that begins nothing else. -/
theorem marks_head : ∀ mark ∈ marks,
    mark.1.head?.any (fun c => !c.isAlphanum && c != '_') = true := by
  decide

/-- No mark begins with one before it, and one before it begins with it only by a further `=`. -/
theorem marks_ordered : marks.Pairwise fun longer mark =>
    ¬ longer.1 <+: mark.1 ∧ (mark.1 <+: longer.1 →
      longer.1 = mark.1 ++ ['='] ∧ (mark.2 = .less ∨ mark.2 = .greater)) := by
  decide

/-- A letter, a digit or an underscore begins no mark. -/
theorem markAt?_eq_none {c : Char} (h : c.isAlphanum = true ∨ c = '_') (rest : List Char) :
    markAt? (c :: rest) = none := by
  unfold markAt?
  rw [Option.map_eq_none_iff, List.find?_eq_none]
  intro mark hmark hprefix
  have hother := marks_head mark hmark
  cases hcs : mark.1 with
  | nil =>
    rw [hcs] at hother
    cases hother
  | cons d ds =>
    rw [hcs] at hother hprefix
    obtain ⟨tail, htail⟩ := List.isPrefixOf_iff_prefix.mp hprefix
    obtain rfl := (List.cons.inj htail).1
    rcases h with h | rfl
    · simp [h] at hother
    · simp at hother

/-- A mark is read as itself, in front of any text. Only the angle brackets go on with `=`. -/
theorem leading_mark {cs rest : List Char} {kind : TokenKind} (h : (cs, kind) ∈ marks)
    (hrest : kind = .less ∨ kind = .greater → ∀ c ∈ rest.head?, c ≠ '=') :
    leading (cs ++ rest) = (kind, cs.length) := by
  obtain ⟨before, after, hsplit⟩ := List.append_of_mem h
  have hfind : marks.find? (fun mark => mark.1.isPrefixOf (cs ++ rest)) = some (cs, kind) := by
    rw [List.find?_eq_some_iff_append]
    refine ⟨List.isPrefixOf_iff_prefix.mpr (List.prefix_append cs rest), before, after, hsplit, ?_⟩
    intro mark hmark
    have hR := (List.pairwise_append.mp (hsplit ▸ marks_ordered)).2.2 mark hmark (cs, kind)
      List.mem_cons_self
    rw [Bool.not_eq_true', Bool.eq_false_iff]
    intro hprefix
    have hlonger := List.isPrefixOf_iff_prefix.mp hprefix
    rcases List.prefix_or_prefix_of_prefix hlonger (List.prefix_append cs rest) with h₁ | h₁
    · exact hR.1 h₁
    · obtain ⟨heq, hangle⟩ := hR.2 h₁
      rw [heq, List.prefix_append_right_inj] at hlonger
      obtain ⟨tail, rfl⟩ := hlonger
      exact hrest hangle '=' rfl rfl
  have hmark : markAt? (cs ++ rest) = some (kind, cs.length) := by
    rw [markAt?, hfind]
    rfl
  cases hcs : cs ++ rest with
  | nil =>
    rw [hcs, show markAt? [] = none from rfl] at hmark
    cases hmark
  | cons c tail =>
    rw [hcs] at hmark
    simp only [leading, hmark]

/-! ## Names -/

theorem isAlphanum_of_isAlpha {c : Char} (h : c.isAlpha = true) : c.isAlphanum = true :=
  (Bool.or_eq_true _ _).mpr (Or.inl h)

theorem isAlphanum_of_isDigit {c : Char} (h : c.isDigit = true) : c.isAlphanum = true :=
  (Bool.or_eq_true _ _).mpr (Or.inr h)

theorem nameTail_single (c : Char) : nameTail [c] = if c.isAlphanum = true then 1 else 0 := by
  unfold nameTail
  rfl

/-- A name goes on with a letter or digit, and with a hyphen in front of one. -/
theorem nameTail_cons_cons (c d : Char) (rest : List Char) :
    nameTail (c :: d :: rest) =
      if c.isAlphanum = true ∨ (c = '-' ∧ d.isAlphanum = true) then nameTail (d :: rest) + 1
      else 0 := by
  rw [nameTail]
  by_cases hc : c.isAlphanum = true
  · rw [if_pos hc, if_pos (Or.inl hc)]
  · rw [if_neg hc]
    simp [hc]

theorem nameTail_of_stops {rest : List Char} (h : Stops rest) : nameTail rest = 0 := by
  match rest, h with
  | [], _ => rfl
  | [c], h => rw [nameTail_single, if_neg (by simp [(h c rfl).1])]
  | c :: d :: rest, h =>
    rw [nameTail_cons_cons, if_neg (by simp [(h c rfl).1, (h c rfl).2.1])]

theorem nameTail_ne_zero {c : Char} (h : c.isAlphanum = true) (rest : List Char) :
    nameTail (c :: rest) ≠ 0 := by
  cases rest with
  | nil => rw [nameTail_single, if_pos h]; exact Nat.one_ne_zero
  | cons d rest => rw [nameTail_cons_cons, if_pos (Or.inl h)]; exact Nat.succ_ne_zero _

/-- The characters of a name are letters, digits and hyphens. -/
theorem mem_of_nameTail : ∀ {tail : List Char}, nameTail tail = tail.length →
    ∀ c ∈ tail, c.isAlphanum = true ∨ c = '-'
  | [], _ => fun c hc => absurd hc List.not_mem_nil
  | [c], h => by
    intro d hd
    obtain rfl := List.mem_singleton.mp hd
    by_contra hc
    rw [not_or] at hc
    rw [nameTail_single, if_neg hc.1] at h
    exact absurd h (by simp)
  | c :: d :: tail, h => by
    rw [nameTail_cons_cons] at h
    split at h
    · rename_i hgoes
      have ih := mem_of_nameTail (Nat.succ.inj h)
      intro x hx
      rcases List.mem_cons.mp hx with rfl | hx
      · exact hgoes.imp_right And.left
      · exact ih x hx
    · exact absurd h (by simp)

/-- A name takes all of its characters, and none of a text that stops it. -/
theorem nameTail_append {rest : List Char} (hrest : Stops rest) :
    ∀ {tail : List Char}, nameTail tail = tail.length → nameTail (tail ++ rest) = tail.length
  | [], _ => nameTail_of_stops hrest
  | [c], h => by
    have hc : c.isAlphanum = true := by
      by_contra hc
      rw [nameTail_single, if_neg hc] at h
      exact absurd h (by simp)
    cases rest with
    | nil => exact h
    | cons d rest =>
      rw [List.cons_append, List.nil_append, nameTail_cons_cons, if_pos (Or.inl hc),
        nameTail_of_stops hrest]
      rfl
  | c :: d :: tail, h => by
    rw [nameTail_cons_cons] at h
    split at h
    · rename_i hgoes
      have ih := nameTail_append hrest (Nat.succ.inj h)
      rw [List.cons_append] at ih
      rw [List.cons_append, List.cons_append, nameTail_cons_cons, if_pos hgoes, ih]
      rfl
    · exact absurd h (by simp)

/-- What a name takes is a name as a whole. -/
theorem nameTail_take (cs : List Char) :
    nameTail (cs.take (nameTail cs)) = (cs.take (nameTail cs)).length := by
  induction cs with
  | nil => rfl
  | cons c cs ih =>
    cases cs with
    | nil =>
      by_cases hc : c.isAlphanum = true
      · rw [nameTail_single, if_pos hc, List.take_succ_cons, List.take_zero, nameTail_single,
          if_pos hc]
        rfl
      · rw [nameTail_single, if_neg hc]
        rfl
    | cons d rest =>
      by_cases hgoes : c.isAlphanum = true ∨ (c = '-' ∧ d.isAlphanum = true)
      · rw [nameTail_cons_cons, if_pos hgoes, List.take_succ_cons]
        cases hn : nameTail (d :: rest) with
        | zero =>
          have hc : c.isAlphanum = true :=
            hgoes.resolve_right fun hhyphen => nameTail_ne_zero hhyphen.2 rest hn
          rw [List.take_zero, nameTail_single, if_pos hc]
          rfl
        | succ n =>
          rw [hn, List.take_succ_cons] at ih
          rw [List.take_succ_cons, nameTail_cons_cons, if_pos hgoes, ih]
          rfl
      · rw [nameTail_cons_cons, if_neg hgoes]
        rfl

/-! ## Numbers and widths -/

/-- Digits end where the text does not go on with one. -/
theorem takeWhile_digits {digits rest : List Char} (hd : ∀ d ∈ digits, d.isDigit = true)
    (hrest : ∀ c ∈ rest.head?, c.isDigit = false) :
    (digits ++ rest).takeWhile Char.isDigit = digits := by
  have hnil : rest.takeWhile Char.isDigit = [] := by
    cases rest with
    | nil => rfl
    | cons c rest =>
      rw [List.takeWhile_cons, hrest c rfl]
      rfl
  rw [List.takeWhile_append_of_pos hd, hnil, List.append_nil]

theorem digitRun_append {digits rest : List Char} (hd : ∀ d ∈ digits, d.isDigit = true)
    (hrest : ∀ c ∈ rest.head?, c.isDigit = false) : digitRun (digits ++ rest) = digits.length := by
  rw [digitRun, takeWhile_digits hd hrest]

theorem Stops.not_digit {rest : List Char} (h : Stops rest) :
    ∀ c ∈ rest.head?, c.isDigit = false :=
  fun c hc => (Bool.or_eq_false_iff.mp (h c hc).1).2

theorem take_digitRun (cs : List Char) : ∀ d ∈ cs.take (digitRun cs), d.isDigit = true := by
  intro d hd
  rw [digitRun, ← List.prefix_iff_eq_take.mp (List.takeWhile_prefix Char.isDigit)] at hd
  exact List.mem_takeWhile_imp hd

theorem isAlpha_of_isDigit {c : Char} (h : c.isDigit = true) : c.isAlpha = false := by
  rw [Bool.eq_false_iff]
  intro halpha
  have hdigit := toNat_of_isDigit h
  have hletter := toNat_of_isAlpha halpha
  omega

theorem spells_of_numberAt {c : Char} {rest : List Char} (hc : c.isDigit = true)
    (h : (numberAt c rest).1 ≠ .unrecognised) :
    Spells (numberAt c rest).1 ((c :: rest).take (numberAt c rest).2) := by
  by_cases hzero : (c == '0' && digitRun rest != 0) = true
  · exact absurd (if_pos hzero) h
  · simp only [numberAt, if_neg hzero, List.take_succ_cons]
    refine .number hc (take_digitRun rest) fun hc0 => ?_
    have hnone : digitRun rest = 0 := by
      by_contra hsome
      exact hzero (by simp [hc0, hsome])
    rw [hnone, List.take_zero]

theorem spells_of_widthAt {rest : List Char} (h : (widthAt rest).1 ≠ .unrecognised) :
    Spells (widthAt rest).1 (('_' :: rest).take (widthAt rest).2) := by
  by_cases hnone : (digitRun rest == 0) = true
  · exact absurd (if_pos hnone) h
  · simp only [widthAt, if_neg hnone, List.take_succ_cons]
    refine .width (fun hnil => ?_) (take_digitRun rest)
    have hlength := congrArg List.length hnil
    rw [List.length_take, Nat.min_eq_left (digitRun_le rest)] at hlength
    exact hnone (beq_iff_eq.mpr hlength)

/-! ## Tokens -/

/-- **What is read off the front of a text** spells a token, unless it is the end of input or
unrecognised. -/
theorem spells_of_leading {cs : List Char} (hend : (leading cs).1 ≠ .endOfInput)
    (hknown : (leading cs).1 ≠ .unrecognised) :
    Spells (leading cs).1 (cs.take (leading cs).2) := by
  cases cs with
  | nil => exact absurd rfl hend
  | cons c rest =>
    cases hmark : markAt? (c :: rest) with
    | some token =>
      obtain ⟨mark, hfind, rfl⟩ := Option.map_eq_some_iff.mp hmark
      have hprefix : mark.1.isPrefixOf (c :: rest) = true := by simpa using List.find?_some hfind
      have htake := List.prefix_iff_eq_take.mp (List.isPrefixOf_iff_prefix.mp hprefix)
      simp only [leading, hmark, ← htake]
      exact .mark (List.mem_of_find?_eq_some hfind)
    | none =>
      simp only [leading, hmark] at hend hknown ⊢
      split
      · rename_i hc
        exact .name hc (nameTail_take rest)
      · rename_i hc
        rw [if_neg hc] at hknown
        split
        · rename_i hdigit
          rw [if_pos hdigit] at hknown
          exact spells_of_numberAt hdigit hknown
        · rename_i hdigit
          rw [if_neg hdigit] at hknown
          split
          · rename_i hunder
            rw [if_pos hunder] at hknown
            obtain rfl := beq_iff_eq.mp hunder
            exact spells_of_widthAt hknown
          · rename_i hunder
            rw [if_neg hunder] at hknown
            exact absurd rfl hknown

/-- Digits are one token, be it a number or not. -/
theorem leading_digits {c : Char} {digits rest : List Char} (hc : c.isDigit = true)
    (hd : ∀ d ∈ digits, d.isDigit = true) (hrest : ∀ c ∈ rest.head?, c.isDigit = false) :
    leading (c :: (digits ++ rest)) =
      (if c == '0' && digits.length != 0 then .unrecognised else .number, digits.length + 1) := by
  rw [leading, markAt?_eq_none (Or.inl (isAlphanum_of_isDigit hc))]
  simp only [isAlpha_of_isDigit hc, hc, if_true, numberAt, digitRun_append hd hrest]
  rfl

/-- Digits behind an underscore are a width. -/
theorem leading_width {digits rest : List Char} (hne : digits ≠ [])
    (hd : ∀ d ∈ digits, d.isDigit = true) (hrest : ∀ c ∈ rest.head?, c.isDigit = false) :
    leading ('_' :: (digits ++ rest)) = (.width, digits.length + 1) := by
  have hlength : (digits.length == 0) = false := by
    rw [beq_eq_false_iff_ne]
    exact fun hnil => hne (List.length_eq_zero_iff.mp hnil)
  have hletter : '_'.isAlpha = false := by decide
  have hdigit : '_'.isDigit = false := by decide
  rw [leading, markAt?_eq_none (Or.inr rfl)]
  simp [hletter, hdigit, widthAt, digitRun_append hd hrest, hlength]

/-- **What spells a token is read as that**, in front of a text that stops it. -/
theorem Spells.leading_append {kind : TokenKind} {cs rest : List Char} (h : Spells kind cs)
    (hrest : Stops rest) : leading (cs ++ rest) = (kind, cs.length) := by
  cases h with
  | mark h => exact leading_mark h fun _ c hc => (hrest c hc).2.2
  | @name c tail hc ht =>
    have halnum := isAlphanum_of_isAlpha hc
    rw [List.cons_append, leading, markAt?_eq_none (Or.inl halnum)]
    simp only [hc, if_true, nameAt, nameTail_append hrest ht, List.take_left]
    rfl
  | @number c digits hc hr hz =>
    have hzero : (c == '0' && digits.length != 0) = false := by
      rw [Bool.and_eq_false_imp]
      intro hc0
      rw [hz (beq_iff_eq.mp hc0)]
      rfl
    rw [List.cons_append, leading_digits hc hr hrest.not_digit, hzero]
    rfl
  | width hne hd => exact leading_width hne hd hrest.not_digit

/-! ## Characters of tokens -/

theorem isPlain_of_isAlphanum {c : Char} (h : c.isAlphanum = true) : isPlain c = true := by
  have hlt : c.toNat < 0x0300 := by
    rcases (Bool.or_eq_true _ _).mp h with halpha | hdigit
    · have hletter := toNat_of_isAlpha halpha
      omega
    · have hbounds := toNat_of_isDigit hdigit
      omega
  exact decide_eq_true hlt

theorem begins_of_isAlphanum {c : Char} (h : c.isAlphanum = true) :
    isBlank c = false ∧ isHyphen c = false := by
  constructor
  · rw [Bool.eq_false_iff]
    intro hblank
    simp only [isBlank, isLineEnd, Bool.or_eq_true, beq_iff_eq] at hblank
    rcases hblank with ((rfl | rfl) | rfl) | ((rfl | rfl) | rfl) | rfl <;>
      exact absurd h (by decide)
  · rw [Bool.eq_false_iff]
    intro hhyphen
    simp only [isHyphen, Bool.or_eq_true, beq_iff_eq] at hhyphen
    rcases hhyphen with rfl | rfl <;> exact absurd h (by decide)

/-- A blank goes on no token. -/
theorem stops_of_isBlank {c : Char} (h : isBlank c = true) (cs : List Char) : Stops (c :: cs) := by
  refine stops_cons cs ⟨?_, ?_, ?_⟩
  · rw [Bool.eq_false_iff]
    intro halnum
    rw [(begins_of_isAlphanum halnum).1] at h
    cases h
  · rintro rfl
    exact absurd h (by decide)
  · rintro rfl
    exact absurd h (by decide)

theorem marks_all : ∀ mark ∈ marks,
    mark.1.all (fun c => isPlain c && !isBlank c && !isHyphen c) = true := by
  decide

theorem marks_plain {kind : TokenKind} {cs : List Char} (h : (cs, kind) ∈ marks) {c : Char}
    (hc : c ∈ cs) : isPlain c = true ∧ isBlank c = false ∧ isHyphen c = false := by
  have hall := List.all_eq_true.mp (marks_all _ h) c hc
  simpa [and_assoc] using hall

/-- No composition concerns a character of a token. -/
theorem Spells.plain {kind : TokenKind} {cs : List Char} (h : Spells kind cs) :
    ∀ c ∈ cs, isPlain c = true := by
  intro c hc
  cases h with
  | mark h => exact (marks_plain h hc).1
  | name hd ht =>
    rcases List.mem_cons.mp hc with rfl | hc
    · exact isPlain_of_isAlphanum (isAlphanum_of_isAlpha hd)
    · rcases mem_of_nameTail ht c hc with halnum | rfl
      · exact isPlain_of_isAlphanum halnum
      · rfl
  | number hd hr _ =>
    rcases List.mem_cons.mp hc with rfl | hc
    · exact isPlain_of_isAlphanum (isAlphanum_of_isDigit hd)
    · exact isPlain_of_isAlphanum (isAlphanum_of_isDigit (hr c hc))
  | width _ hd =>
    rcases List.mem_cons.mp hc with rfl | hc
    · rfl
    · exact isPlain_of_isAlphanum (isAlphanum_of_isDigit (hd c hc))

/-- A token begins with a character that no gap takes. -/
theorem Spells.begins {kind : TokenKind} {cs : List Char} (h : Spells kind cs) :
    ∃ c rest, cs = c :: rest ∧ isBlank c = false ∧ isHyphen c = false := by
  cases h with
  | mark h =>
    cases cs with
    | nil => exact absurd (marks_proper _ h).1 (by simp)
    | cons c rest => exact ⟨c, rest, rfl, (marks_plain h List.mem_cons_self).2⟩
  | name hc _ => exact ⟨_, _, rfl, begins_of_isAlphanum (isAlphanum_of_isAlpha hc)⟩
  | number hc _ _ => exact ⟨_, _, rfl, begins_of_isAlphanum (isAlphanum_of_isDigit hc)⟩
  | width _ _ => exact ⟨_, _, rfl, by decide⟩

theorem Spells.kind_ne {kind : TokenKind} {cs : List Char} (h : Spells kind cs) :
    kind ≠ .endOfInput := by
  obtain ⟨c, tail, rfl, -⟩ := h.begins
  have hleading := h.leading_append stops_nil
  rw [List.append_nil] at hleading
  have hkind := (leading_cons c tail).2.2
  rwa [hleading] at hkind

/-! ## Kinds with one spelling -/

theorem nameKind_cases (name : String) :
    (name, nameKind name) ∈ keywords ∨ nameKind name = .identifier := by
  unfold nameKind
  cases h : keywords.lookup name with
  | none => exact Or.inr rfl
  | some kind =>
    obtain ⟨before, after, he, -⟩ := List.lookup_eq_some_iff.mp h
    exact Or.inl (by rw [he]; exact List.mem_append_right _ List.mem_cons_self)

/-- The kinds that are spelled in many ways. -/
def openKinds : List TokenKind := [.identifier, .number, .width]

theorem Spells.kind_cases {kind : TokenKind} {cs : List Char} (h : Spells kind cs) :
    (cs, kind) ∈ marks ∨ (String.ofList cs, kind) ∈ keywords ∨ kind ∈ openKinds := by
  cases h with
  | mark h => exact Or.inl h
  | @name c tail _ _ =>
    rcases nameKind_cases (String.ofList (c :: tail)) with h | h
    · exact Or.inr (Or.inl h)
    · rw [h]
      exact Or.inr (Or.inr (by decide))
  | number _ _ _ => exact Or.inr (Or.inr (by decide))
  | width _ _ => exact Or.inr (Or.inr (by decide))

theorem marks_distinct : ∀ mark ∈ marks,
    (∀ other ∈ marks, other.2 = mark.2 → other.1 = mark.1) ∧
      (∀ entry ∈ keywords, entry.2 ≠ mark.2) ∧ mark.2 ∉ openKinds := by
  decide

theorem keywords_distinct : ∀ entry ∈ keywords,
    (∀ other ∈ keywords, other.2 = entry.2 → entry.2 ∉ [.and, .or] → other.1 = entry.1) ∧
      entry.2 ∉ openKinds := by
  decide

/-- The kind of a mark is spelled as the mark. -/
theorem Spells.mark_eq {kind : TokenKind} {cs ds : List Char} (h : Spells kind cs)
    (hmark : (ds, kind) ∈ marks) : cs = ds := by
  obtain ⟨hmarks, hkeywords, hopen⟩ := marks_distinct _ hmark
  rcases h.kind_cases with h | h | h
  · exact hmarks _ h rfl
  · exact absurd rfl (hkeywords _ h)
  · exact absurd h hopen

/-- The kind of a reserved word other than a connective is spelled as the word. -/
theorem Spells.keyword_eq {kind : TokenKind} {cs : List Char} {word : String} (h : Spells kind cs)
    (hword : (word, kind) ∈ keywords) (hkind : kind ∉ [.and, .or]) : cs = word.toList := by
  obtain ⟨hkeywords, hopen⟩ := keywords_distinct _ hword
  rcases h.kind_cases with h | h | h
  · exact absurd rfl ((marks_distinct _ h).2.1 _ hword)
  · exact (String.toList_ofList).symm.trans (congrArg String.toList (hkeywords _ h rfl hkind))
  · exact absurd h hopen

/-! ## Values -/

theorem marks_kind {kind : TokenKind} {cs : List Char} (h : (cs, kind) ∈ marks) :
    kind ∉ openKinds :=
  (marks_distinct _ h).2.2

theorem nameKind_notMem (name : String) : nameKind name ∉ [.number, .width] := by
  rcases nameKind_cases name with h | h
  · exact fun hmem => (keywords_distinct _ h).2 (List.mem_cons_of_mem _ hmem)
  · rw [h]
    decide

/-- A number is spelled with the digits of its value. -/
theorem Spells.number_digits {kind : TokenKind} {cs : List Char} (h : Spells kind cs)
    (hkind : kind = .number) : Nat.toDigits 10 (decimalValue cs) = cs := by
  cases h with
  | mark h => exact absurd (by rw [hkind]; decide) (marks_kind h)
  | name _ _ => exact absurd (by rw [hkind]; decide) (nameKind_notMem _)
  | @number c rest hc hr hz =>
    refine toDigits_of_head (List.cons_ne_nil c rest) (List.forall_mem_cons.mpr ⟨hc, hr⟩) ?_
    intro hhead
    rw [hz (Option.some.inj hhead), Option.some.inj hhead]
  | width _ _ => cases hkind

/-- A width is spelled with an underscore and digits. -/
theorem Spells.width_digits {kind : TokenKind} {cs : List Char} (h : Spells kind cs)
    (hkind : kind = .width) :
    ∃ digits, cs = '_' :: digits ∧ digits ≠ [] ∧ ∀ d ∈ digits, d.isDigit = true := by
  cases h with
  | mark h => exact absurd (by rw [hkind]; decide) (marks_kind h)
  | name _ _ => exact absurd (by rw [hkind]; decide) (nameKind_notMem _)
  | number _ _ _ => cases hkind
  | width hne hd => exact ⟨_, rfl, hne, hd⟩

/-- An underscore and the digits of a number spell a width. -/
theorem spells_width (n : Nat) : Spells .width ('_' :: Nat.toDigits 10 n) :=
  .width Nat.toDigits_ne_nil fun _ hd => Nat.isDigit_of_mem_toDigits (by decide) (by decide) hd

end Spelling

end RecordSchema
