import Mathlib.Data.List.Chain
import RecordSchema.Token.Lexeme

/-!
# What stands between tokens

A gap is blanks and comments. A comment is two hyphens and a tail, which goes on to the first pair
of adjacent hyphens and takes it, or to the first line end or the end of the text and leaves that.
`Comment` and `Filler` say so about the characters alone, with the text that follows them, and
`gap` is shown to pass over a filler and to stop where no other one begins.

Result:
* `gap_fills`: what a gap passes over is a filler, and what it leaves opens no other one.
-/

namespace RecordSchema

open Text

/-! ## Comments and fillers -/

/-- No two hyphens stand side by side. -/
def Unpaired (cs : List Char) : Prop :=
  cs.IsChain fun c d => (isHyphen c && isHyphen d) = false

/-- A comment behind its two opening hyphens, in front of a text: it takes the first pair of hyphens
that no line end comes before, or stands in front of a line end or the end of the text. -/
inductive Comment : List Char → List Char → Prop
  | pair (body : List Char) {rest : List Char} {c d : Char}
      (hline : ∀ b ∈ body, isLineEnd b = false) (hfirst : Unpaired (body ++ [c]))
      (hc : isHyphen c = true) (hd : isHyphen d = true) : Comment (body ++ [c, d]) rest
  | line (body : List Char) {rest : List Char} (hline : ∀ b ∈ body, isLineEnd b = false)
      (hfirst : Unpaired body) (hend : ∀ c ∈ rest.head?, isLineEnd c = true) : Comment body rest

/-- Blanks and comments, in front of a text. -/
inductive Filler : List Char → List Char → Prop
  | nil {rest : List Char} : Filler [] rest
  | blank {c : Char} {cs rest : List Char} (hc : isBlank c = true) (h : Filler cs rest) :
      Filler (c :: cs) rest
  | comment {c d : Char} {tail cs rest : List Char} (hc : isHyphen c = true)
      (hd : isHyphen d = true) (htail : Comment tail (cs ++ rest)) (h : Filler cs rest) :
      Filler (c :: d :: (tail ++ cs)) rest

/-- The text begins with a blank or with two hyphens. -/
def OpensGap : List Char → Prop
  | [] => False
  | [c] => isBlank c = true
  | c :: d :: _ => isBlank c = true ∨ isHyphen c = true ∧ isHyphen d = true

/-- A comment goes on in front of its tail unless a line or a pair of hyphens ends there. -/
theorem Comment.cons {c : Char} {tail rest : List Char} (h : Comment tail rest)
    (hline : isLineEnd c = false)
    (hfirst : ∀ d ∈ tail.head?, (isHyphen c && isHyphen d) = false) :
    Comment (c :: tail) rest := by
  cases h with
  | pair body hbody hunpaired hc hd =>
    refine .pair (c :: body) (List.forall_mem_cons.mpr ⟨hline, hbody⟩) ?_ hc hd
    refine List.isChain_cons.mpr ⟨fun e he => hfirst e ?_, hunpaired⟩
    cases body <;> exact he
  | line body hbody hunpaired hend =>
    exact .line _ (List.forall_mem_cons.mpr ⟨hline, hbody⟩)
      (List.isChain_cons.mpr ⟨hfirst, hunpaired⟩) hend

/-! ## A gap passes over a filler -/

/-- The gap passed over a filler of a text that begins at `offset`, and no other one follows. -/
def Gap.Fills (g : Gap) (offset : Nat) (cs : List Char) : Prop :=
  ∃ skipped, cs = skipped ++ g.rest ∧ g.stop = offset + byteLength skipped ∧
    Filler skipped g.rest ∧ ¬ OpensGap g.rest

/-- The gap passed over the rest of a comment and the filler behind it. -/
def Gap.Finishes (g : Gap) (offset : Nat) (cs : List Char) : Prop :=
  ∃ tail skipped, cs = tail ++ (skipped ++ g.rest) ∧
    g.stop = offset + byteLength (tail ++ skipped) ∧ Comment tail (skipped ++ g.rest) ∧
    Filler skipped g.rest ∧ ¬ OpensGap g.rest

theorem Gap.Fills.nothing {offset : Nat} {cs : List Char} (h : ¬ OpensGap cs) :
    Gap.Fills ⟨[], offset, cs⟩ offset cs :=
  ⟨[], rfl, rfl, .nil, h⟩

namespace Gap

variable {g : Gap} {offset : Nat} {c d : Char} {cs : List Char}

theorem Fills.blank (h : g.Fills (offset + c.utf8Size) cs) (hc : isBlank c = true) :
    g.Fills offset (c :: cs) := by
  obtain ⟨skipped, hcs, hstop, hfiller, hrest⟩ := h
  refine ⟨c :: skipped, by rw [hcs]; rfl, ?_, .blank hc hfiller, hrest⟩
  rw [hstop, byteLength_cons, Nat.add_assoc]

theorem Finishes.opened (h : g.Finishes (offset + c.utf8Size + d.utf8Size) cs)
    (hc : isHyphen c = true) (hd : isHyphen d = true) : g.Fills offset (c :: d :: cs) := by
  obtain ⟨tail, skipped, hcs, hstop, htail, hfiller, hrest⟩ := h
  refine ⟨c :: d :: (tail ++ skipped), by simp [hcs], ?_, .comment hc hd htail hfiller, hrest⟩
  rw [hstop, byteLength_cons, byteLength_cons]
  omega

/-- A filler behind a pair of hyphens, which closes a comment. -/
theorem Fills.closed (h : g.Fills (offset + c.utf8Size + d.utf8Size) cs)
    (hc : isHyphen c = true) (hd : isHyphen d = true) : g.Finishes offset (c :: d :: cs) := by
  obtain ⟨skipped, hcs, hstop, hfiller, hrest⟩ := h
  refine ⟨[c, d], skipped, by rw [hcs]; rfl, ?_, ?_, hfiller, hrest⟩
  · rw [hstop, byteLength_append]
    simp only [byteLength_cons, byteLength_nil]
    omega
  · exact .pair [] (by simp) (List.isChain_singleton c) hc hd

/-- A filler that a comment ends in front of. -/
theorem Fills.ended (h : g.Fills offset cs) (hend : ∀ c ∈ cs.head?, isLineEnd c = true) :
    g.Finishes offset cs := by
  obtain ⟨skipped, hcs, hstop, hfiller, hrest⟩ := h
  refine ⟨[], skipped, hcs, hstop, ?_, hfiller, hrest⟩
  exact .line [] (by simp) List.isChain_nil (hcs ▸ hend)

theorem Finishes.cons (h : g.Finishes (offset + c.utf8Size) cs) (hline : isLineEnd c = false)
    (hfirst : ∀ d ∈ cs.head?, (isHyphen c && isHyphen d) = false) :
    g.Finishes offset (c :: cs) := by
  obtain ⟨tail, skipped, hcs, hstop, htail, hfiller, hrest⟩ := h
  refine ⟨c :: tail, skipped, by rw [hcs]; rfl, ?_, htail.cons hline fun d hd => ?_, hfiller,
    hrest⟩
  · rw [hstop, List.cons_append, byteLength_cons, Nat.add_assoc]
  · refine hfirst d ?_
    rw [hcs, List.head?_append, Option.mem_def.mp hd]
    rfl

end Gap

/-- A line end is a blank. -/
theorem isBlank_of_isLineEnd {c : Char} (h : isLineEnd c = true) : isBlank c = true := by
  simp [isBlank, h]

mutual

/-- **What a gap passes over is a filler**, and what it leaves opens no other one. -/
theorem gap_fills (offset : Nat) : ∀ cs, (gap offset cs).Fills offset cs
  | [] => .nothing id
  | [c] => by
    unfold gap
    split
    · rename_i hc
      exact .blank (.nothing id) hc
    · rename_i hc
      exact .nothing hc
  | c :: d :: rest => by
    unfold gap
    split
    · rename_i hc
      exact (gap_fills _ _).blank hc
    · rename_i hblank
      split
      · rename_i hpair
        obtain ⟨hc, hd⟩ := Bool.and_eq_true_iff.mp hpair
        exact (comment_fills _ rest).opened hc hd
      · rename_i hpair
        refine .nothing fun h => ?_
        rcases h with hc | ⟨hc, hd⟩
        · exact hblank hc
        · exact hpair (by rw [hc, hd]; rfl)

/-- The same of a comment that is open: it is passed over with the filler behind it. -/
theorem comment_fills (offset : Nat) : ∀ cs, (comment offset cs).Finishes offset cs
  | [] => Gap.Fills.ended (.nothing id) (by simp)
  | [c] => by
    unfold comment
    by_cases hline : isLineEnd c = true
    · exact Gap.Fills.ended (.blank (.nothing id) (isBlank_of_isLineEnd hline))
        (by simpa using hline)
    · exact Gap.Finishes.cons (Gap.Fills.ended (.nothing id) (by simp)) (eq_false_of_ne_true hline)
        (by simp)
  | c :: d :: rest => by
    unfold comment
    split
    · rename_i hline
      exact Gap.Fills.ended ((gap_fills _ _).blank (isBlank_of_isLineEnd hline))
        (by simpa using hline)
    · rename_i hline
      split
      · rename_i hpair
        obtain ⟨hc, hd⟩ := Bool.and_eq_true_iff.mp hpair
        exact (gap_fills _ rest).closed hc hd
      · rename_i hpair
        exact (comment_fills _ _).cons (eq_false_of_ne_true hline)
          (by simpa using hpair)

end

/-! ## Behind a gap -/

namespace Scan

/-- What a gap leaves is the text of the token behind it and what follows that. -/
theorem rest_of_gap (s : Scan) :
    (gap s.offset s.rest).rest = s.lexeme.1.token.text.toList ++ s.lexeme.2.rest := by
  simp [lexeme]

theorem rest_of_end {s : Scan} (h : s.lexeme.1.token.kind = .endOfInput) :
    (gap s.offset s.rest).rest = [] := by
  cases hg : (gap s.offset s.rest).rest with
  | nil => rfl
  | cons c rest =>
    simp only [lexeme, hg] at h
    exact absurd h (Spelling.leading_cons c rest).2.2

end Scan

end RecordSchema
