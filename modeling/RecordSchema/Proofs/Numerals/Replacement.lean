import RecordSchema.Proofs.Numerals.Respelling
import RecordSchema.Proofs.Stumbling

/-!
# A number in the place of another one

A text with a number or a width is compared with what it would be with another one in its place. If
that is valid, the text is read exactly if its own number fits; if not, the text fails for it. A
token in the place of a number that is none, or a width that no keyword has, is unexpected.

Results:
* `Schema.replaced_ok`: what a text with another number or width is read as.
* `Schema.replaced_error`: one that does not fit.
* `Schema.zeros_error`, `Schema.detached_error`: tokens that are no number and no width of a type.
-/

namespace RecordSchema

open Text

/-! ## A token in the place of another one -/

namespace Token

/-- Puts `t` in the place of `z`. -/
def put (z t u : Token) : Token := if u = z then t else u

variable {z t : Token} {us : List Token}

/-- What is the same of both tokens stays. -/
theorem apply_put {α : Type} (f : Token → α) (h : f t = f z) (u : Token) : f (put z t u) = f u := by
  unfold put
  split
  · rename_i hu
    rw [h, hu]
  · rfl

theorem put_respells (hkind : t.kind = z.kind) (hoffset : t.offset = z.offset)
    (hnumber : z.kind ∈ [TokenKind.number, .width]) : Respells (put z t) :=
  ⟨apply_put kind hkind, apply_put offset hoffset,
    fun u hu => if_neg fun (h : u = z) => hu (h ▸ hnumber)⟩

/-- Tokens at other offsets stay. -/
theorem map_put (h : ∀ u ∈ us, u.offset ≠ z.offset) : us.map (put z t) = us :=
  (List.map_congr_left fun u hu => if_neg fun hz => h u hu (congrArg offset hz)).trans
    (List.map_id us)

end Token

/-- The tokens of a text stand one past the other. -/
theorem Text.tokens_increasing (text : String) : (tokens text).Pairwise Token.Past := by
  have h := stream_increasing text
  rw [stream_eq] at h
  exact (List.pairwise_append.mp h).1

/-- Every other token has another offset. -/
theorem Text.offset_ne {text : String} {pre post : List Token} {t : Token}
    (h : tokens text = pre ++ t :: post) :
    (∀ u ∈ pre, u.offset ≠ t.offset) ∧ ∀ u ∈ post, u.offset ≠ t.offset := by
  have hincreasing := tokens_increasing text
  rw [h, List.pairwise_append, List.pairwise_cons] at hincreasing
  obtain ⟨-, ⟨hbehind, -⟩, hfront⟩ := hincreasing
  exact ⟨fun u hu => Nat.ne_of_lt (hfront u hu t List.mem_cons_self),
    fun u hu => (Nat.ne_of_lt (hbehind u hu)).symm⟩

/-- Behind a token there is no place for one that stands behind the next. -/
theorem Text.offset_ne_stop {text : String} {pre post : List Token} {k w u : Token}
    (h : stream text = pre ++ k :: w :: u :: post) : u.offset ≠ k.stop := by
  have hplaced := (stream_placed text).ordered
  have hincreasing := stream_increasing text
  rw [h, List.pairwise_append, List.pairwise_cons, List.pairwise_cons] at hplaced hincreasing
  have hle : k.stop ≤ w.offset := hplaced.2.1.1 w List.mem_cons_self
  have hlt : w.offset < u.offset := hincreasing.2.1.2.1 u List.mem_cons_self
  exact Nat.ne_of_gt (Nat.lt_of_le_of_lt hle hlt)

/-! ## Numbers that fit -/

section Lists

variable {t : Token} {ts : List Token}

theorem numerals_number (h : t.kind = .number) :
    numerals (t :: ts) = decimalValue t.text.toList :: numerals ts := by
  rw [numerals, List.flatMap_cons, if_pos h, List.singleton_append, numerals]

theorem numerals_other (h : t.kind ≠ .number) : numerals (t :: ts) = numerals ts := by
  rw [numerals, List.flatMap_cons, if_neg h, List.nil_append, numerals]

theorem bitWidths_width (h : t.kind = .width) :
    bitWidths (t :: ts) = decimalValue (t.text.toList.drop 1) :: bitWidths ts := by
  rw [bitWidths, List.flatMap_cons, if_pos h, List.singleton_append, bitWidths]

theorem bitWidths_other (h : t.kind ≠ .width) : bitWidths (t :: ts) = bitWidths ts := by
  rw [bitWidths, List.flatMap_cons, if_neg h, List.nil_append, bitWidths]

end Lists

/-- The numbers and widths among the tokens fit. -/
def Fitting (ts : List Token) : Prop := NumbersFit (numerals ts) (bitWidths ts)

theorem fitting_append {us ts : List Token} : Fitting (us ++ ts) ↔ Fitting us ∧ Fitting ts := by
  unfold Fitting
  rw [numerals_append, bitWidths_append, numbersFit_append]

theorem fitting_cons {t : Token} {ts : List Token} :
    Fitting (t :: ts) ↔ Fitting [t] ∧ Fitting ts :=
  @fitting_append [t] ts

theorem fitting_number {t : Token} (h : t.kind = .number) :
    Fitting [t] ↔ decimalValue t.text.toList < Parser.integerLimit := by
  simp [Fitting, NumbersFit, numerals, bitWidths, h]

theorem fitting_width {t : Token} (h : t.kind = .width) : Fitting [t] ↔
    0 < decimalValue (t.text.toList.drop 1) ∧
      decimalValue (t.text.toList.drop 1) < Parser.widthLimit := by
  simp [Fitting, NumbersFit, numerals, bitWidths, h]

/-! ## Obstacles -/

namespace Parser.Obstacle

/-- A number or width that does not fit, where one of its kind does. -/
def misfit {z t : Token} (hkind : t.kind = z.kind)
    (hnumber : z.kind ∈ [TokenKind.number, .width]) (hlarge : ¬ Fitting [t]) : Obstacle where
  left := t
  right := z
  blame := fun c => c = .invalidNumber t.text t.offset
  strange := by
    rw [hkind]
    exact List.mem_append_left [.unrecognised] hnumber
  foreign_or_alike := .inr hkind
  large := fun h => ⟨Nat.le_of_not_lt ((fitting_number h).not.mp hlarge), rfl⟩

/-- A token that no rule has a use for. -/
def foreign {t : Token} (z : Token) (hstrange : t.kind ∈ [TokenKind.width, .unrecognised]) :
    Obstacle where
  left := t
  right := z
  blame := fun c => ∃ kinds, c = .unexpectedToken kinds t.kind t.offset t.length
  strange := List.mem_cons_of_mem _ hstrange
  foreign_or_alike :=
    .inl ⟨fun h => absurd (h ▸ hstrange) (by decide), fun kinds => ⟨kinds, rfl⟩⟩
  large := fun h => absurd (h ▸ hstrange) (by decide)

end Parser.Obstacle

/-! ## Texts -/

namespace Schema

theorem fitting_iff {p : Schema} {ts : List Token} (h : p.SpelledBy ts) :
    NumbersFit p.integers p.widths ↔ Fitting ts := by
  rw [integers_eq h, widths_eq h, Fitting]

/-- A rendering has the words of the tokens. -/
theorem words_render {p : Schema} {text : String} (h : p.SpelledBy (tokens text)) :
    (tokens p.render).map Token.word = words (tokens text) :=
  (Schema.faithful p _ h (Scan.tokens_proper _)).readsAs.tokens.2

variable (source : SourceId) {text : String} {p : Schema} {pre post : List Token} {z t : Token}

/-- **A number or width in the place of another one.** The text is read exactly if that fits. What
it is read as differs in numbers only, and those are the ones of the text. -/
theorem replaced_ok (htokens : tokens text = pre ++ t :: post)
    (hvalid : OtherwiseValid text (pre ++ z :: post) p) (hkind : t.kind = z.kind)
    (hoffset : t.offset = z.offset) (hnumber : z.kind ∈ [TokenKind.number, .width]) :
    ((∃ q, (Schema.parse source text).result = .ok q) ↔ Fitting [t]) ∧
      ∀ q, (Schema.parse source text).result = .ok q → q.unnumbered = p.unnumbered ∧
        q.integers = numerals (tokens text) ∧ q.widths = bitWidths (tokens text) ∧
        (tokens q.render).map Token.word = words (tokens text) := by
  obtain ⟨hpre, hpost⟩ := offset_ne htokens
  rw [hoffset] at hpre hpost
  obtain ⟨q, hspell, hsame⟩ := hvalid.spelled.respell (Token.put_respells hkind hoffset hnumber)
  have hput : z.put t z = t := if_pos rfl
  rw [List.map_append, List.map_cons, Token.map_put hpre, Token.map_put hpost, hput, ← htokens]
    at hspell
  obtain ⟨hshape, hfit⟩ := wellFormed_iff_unnumbered.mp hvalid.wellFormed
  rw [fitting_iff hvalid.spelled, fitting_append, fitting_cons] at hfit
  have hiff : Fitting (tokens text) ↔ Fitting [t] := by
    rw [htokens, fitting_append, fitting_cons]
    exact ⟨fun h => h.2.1, fun h => ⟨hfit.1, h, hfit.2.2⟩⟩
  have hread (h : Fitting [t]) : (Schema.parse source text).result = .ok q := by
    rw [← hiff, ← fitting_iff hspell] at h
    exact parse_ok_iff.mpr ⟨hvalid.normalized, hspell, wellFormed_iff_unnumbered.mpr
      ⟨hsame ▸ hshape, h⟩⟩
  have hfits {r : Schema} (hr : (Schema.parse source text).result = .ok r) : Fitting [t] := by
    obtain ⟨-, hspell', hwf⟩ := parse_ok_iff.mp hr
    exact hiff.mp ((fitting_iff hspell').mp (wellFormed_iff_unnumbered.mp hwf).2)
  refine ⟨⟨fun ⟨r, hr⟩ => hfits hr, fun h => ⟨q, hread h⟩⟩, fun r hr => ?_⟩
  obtain rfl : q = r := Except.ok.inj ((hread (hfits hr)).symm.trans hr)
  exact ⟨hsame, integers_eq hspell, widths_eq hspell, words_render hspell⟩

/-- **A number or width that does not fit** is what the text fails for. -/
theorem replaced_error (htokens : tokens text = pre ++ t :: post)
    (hvalid : OtherwiseValid text (pre ++ z :: post) p) (hkind : t.kind = z.kind)
    (hoffset : t.offset = z.offset) (hnumber : z.kind ∈ [TokenKind.number, .width])
    (hlarge : ¬ Fitting [t]) :
    (Schema.parse source text).result = .error ⟨source, .invalidNumber t.text t.offset⟩ := by
  have hus : (Parser.Obstacle.misfit hkind hnumber hlarge).Approached pre := by
    intro k _
    refine ⟨fun hw => ⟨(fitting_width hw.2.1).not.mp hlarge, rfl⟩, fun hw => ?_, fun hz => ?_⟩
    · exact ⟨hw.1, hkind.trans hw.2.1, hoffset.trans hw.2.2⟩
    · exact absurd (hz ▸ hnumber) (by decide)
  have hend : z.kind ≠ .endOfInput := fun h => absurd (h ▸ hnumber) (by decide)
  obtain ⟨cause, rfl, herror⟩ :=
    OtherwiseValid.stumbles_replaced hvalid htokens hoffset hend hus
  exact herror

/-- **Digits with a leading zero** in the place of a number are what the text fails for. -/
theorem zeros_error (htokens : tokens text = pre ++ t :: post)
    (hvalid : OtherwiseValid text (pre ++ z :: post) p) (hkind : t.kind = .unrecognised)
    (hoffset : t.offset = z.offset) (hnumber : z.kind = .number) :
    ∃ kinds, (Schema.parse source text).result =
      .error ⟨source, .unexpectedToken kinds t.kind t.offset t.length⟩ := by
  have hstrange : t.kind ∈ [TokenKind.width, .unrecognised] := by
    rw [hkind]
    decide
  have hus : (Parser.Obstacle.foreign z hstrange).Approached pre := by
    intro k _
    refine ⟨fun hw => ?_, fun hw => ?_, fun hz => ?_⟩
    · exact absurd (hkind.symm.trans hw.2.1) (by decide)
    · exact absurd (hnumber.symm.trans hw.2.1) (by decide)
    · exact absurd (hnumber.symm.trans hz) (by decide)
  have hend : z.kind ≠ .endOfInput := fun h => absurd (hnumber.symm.trans h) (by decide)
  obtain ⟨cause, ⟨kinds, rfl⟩, herror⟩ :=
    OtherwiseValid.stumbles_replaced hvalid htokens hoffset hend hus
  exact ⟨kinds, herror⟩

/-- **A width that no keyword has** is what the text fails for. -/
theorem detached_error {k w : Token} (htokens : tokens text = pre ++ k :: w :: post)
    (hvalid : OtherwiseValid text (pre ++ k :: post) p) (hk : k.kind ∈ Rule.typeWords)
    (hw : w.kind = .width) (hdetached : ¬ w.Widens k) :
    ∃ kinds, (Schema.parse source text).result =
      .error ⟨source, .unexpectedToken kinds w.kind w.offset w.length⟩ := by
  have hstrange : w.kind ∈ [TokenKind.width, .unrecognised] := by
    rw [hw]
    decide
  obtain ⟨next, rest, hnext⟩ : ∃ next rest, post ++ [endToken text] = next :: rest :=
    List.exists_cons_of_ne_nil (by simp)
  have hstream : stream text = pre ++ k :: w :: next :: rest := by
    rw [stream_eq, htokens, List.append_assoc, List.cons_append, List.cons_append, hnext]
  have hus : (Parser.Obstacle.foreign next hstrange).Approached (pre ++ [k]) := by
    intro k' hk'
    rw [List.getLast?_concat] at hk'
    obtain rfl := Option.some.inj hk'
    refine ⟨fun h => absurd h hdetached, fun h => ?_, fun _ h => ?_⟩
    · exact absurd h.2.2 (offset_ne_stop hstream)
    · exact absurd (h ▸ hk) (by decide)
  have hsublist : (pre ++ k :: post).Sublist (tokens text) := by
    rw [htokens]
    exact ((List.sublist_cons_self w post).cons_cons k).append_left pre
  have hleft : tokens text = (pre ++ [k]) ++ w :: post := by
    rw [htokens, List.append_assoc, List.singleton_append]
  have hright : (pre ++ k :: post) ++ [endToken text] = (pre ++ [k]) ++ next :: rest := by
    rw [List.append_assoc, List.cons_append, hnext, List.append_assoc, List.singleton_append]
  have hinner : ∀ t ∈ pre ++ k :: post, t.kind ≠ .endOfInput :=
    fun t ht => (Scan.lexemes_closed _).inner t (hsublist.subset ht)
  obtain ⟨cause, ⟨kinds, rfl⟩, herror⟩ :=
    OtherwiseValid.stumbles hvalid hleft hright (hsublist.map _) hinner hus
  exact ⟨kinds, herror⟩

end Schema

end RecordSchema
