import RecordSchema.Proofs.Gaps
import RecordSchema.Proofs.Placement

/-!
# Tokens of a longer text

A line end ends every token and every comment that is open. So a text keeps its tokens when a line
end and more text are added to it: what follows is read as it would be from the line end on, and
lies behind the text. This is told of a gap first, then of the token behind it, and then of all
lexemes of a place.

Results:
* `gap_append`: a gap in front of a token stays, and any other one goes on behind the text.
* `Spelling.leading_append`: the token at the front of a text stays.
* `Text.stream_append`: the stream of a longer text is the tokens of the text and others behind it.
-/

namespace RecordSchema

open Text Spelling

/-! ## Gaps -/

/-- The gap of a longer text: the same if a token is behind it, and else one that goes on with the
gap at the front of what was added. -/
structure Gap.GoesOn (g g' : Gap) (added : List Char) : Prop where
  token : g.rest ≠ [] → g'.stop = g.stop ∧ g'.rest = g.rest ++ added
  nothing : g.rest = [] → g'.stop = (gap g.stop added).stop ∧ g'.rest = (gap g.stop added).rest

namespace Gap.GoesOn

variable {added : List Char}

/-- The comments of a gap do not matter. -/
theorem withComments {g g' : Gap} (h : g.GoesOn g' added) (xs ys : List Nat) :
    Gap.GoesOn { g with comments := xs } { g' with comments := ys } added :=
  ⟨h.token, h.nothing⟩

theorem of_token {offset : Nat} {cs : List Char} (hne : cs ≠ []) :
    Gap.GoesOn ⟨[], offset, cs⟩ ⟨[], offset, cs ++ added⟩ added :=
  ⟨fun _ => ⟨rfl, rfl⟩, fun h => absurd h hne⟩

theorem of_nothing {offset : Nat} :
    Gap.GoesOn ⟨[], offset, []⟩ (gap offset added) added :=
  ⟨fun h => absurd rfl h, fun _ => ⟨rfl, rfl⟩⟩

end Gap.GoesOn

section Gaps

variable {e : Char} (he : isLineEnd e = true) (ts : List Char)

include he

theorem isHyphen_lineEnd : isHyphen e = false := by
  simp only [isLineEnd, Bool.or_eq_true, beq_iff_eq] at he
  rcases he with ((rfl | rfl) | rfl) | rfl <;> decide

/-- A line end closes a comment and is the first blank behind it. -/
theorem comment_lineEnd (offset : Nat) : comment offset (e :: ts) = gap offset (e :: ts) := by
  cases ts with
  | nil => simp only [comment, gap, isBlank_of_isLineEnd he, if_true]
  | cons d ts => rw [comment, gap, if_pos he, if_pos (isBlank_of_isLineEnd he)]

mutual

/-- **A gap in front of a token stays**, and any other one goes on behind the text. -/
theorem gap_append (offset : Nat) :
    ∀ cs, (gap offset cs).GoesOn (gap offset (cs ++ e :: ts)) (e :: ts)
  | [] => .of_nothing
  | [c] => by
    by_cases hc : isBlank c = true
    · rw [List.singleton_append, gap_of_blank hc, gap_of_blank hc]
      exact .of_nothing
    · rw [List.singleton_append, gap, gap, if_neg hc, if_neg hc, isHyphen_lineEnd he,
        Bool.and_false, if_neg Bool.false_ne_true]
      exact .of_token (List.cons_ne_nil c [])
  | c :: d :: rest => by
    rw [List.cons_append, List.cons_append]
    unfold gap
    split
    · exact gap_append _ (d :: rest)
    · split
      · exact (comment_append _ rest).withComments _ _
      · exact .of_token (List.cons_ne_nil c (d :: rest))

/-- The same of a gap that begins inside a comment. -/
theorem comment_append (offset : Nat) :
    ∀ cs, (comment offset cs).GoesOn (comment offset (cs ++ e :: ts)) (e :: ts)
  | [] => by
    rw [List.nil_append, comment_lineEnd he]
    exact .of_nothing
  | [c] => by
    rw [List.singleton_append, comment, comment, isHyphen_lineEnd he, Bool.and_false,
      if_neg Bool.false_ne_true, comment_lineEnd he, ite_self]
    exact .of_nothing
  | c :: d :: rest => by
    rw [List.cons_append, List.cons_append]
    unfold comment
    split
    · exact gap_append _ (d :: rest)
    · split
      · exact gap_append _ rest
      · exact comment_append _ (d :: rest)

end

end Gaps

/-! ## Tokens -/

namespace Spelling

variable {e : Char} (he : isLineEnd e = true) (ts : List Char)

include he

/-- No mark goes on with a line end. -/
theorem marks_lineEnd : ∀ mark ∈ marks, e ∉ mark.1 := by
  simp only [isLineEnd, Bool.or_eq_true, beq_iff_eq] at he
  rcases he with ((rfl | rfl) | rfl) | rfl <;> decide

omit he in
/-- A list without a character is a prefix of a text if it is one of the text in front of that. -/
theorem isPrefixOf_append {mark : List Char} (hmark : e ∉ mark) (cs : List Char) :
    mark.isPrefixOf (cs ++ e :: ts) = mark.isPrefixOf cs := by
  induction mark generalizing cs with
  | nil => rw [List.isPrefixOf_nil_left, List.isPrefixOf_nil_left]
  | cons m mark ih =>
    rw [List.mem_cons, not_or] at hmark
    cases cs with
    | nil =>
      rw [List.nil_append, List.isPrefixOf_cons_cons, List.isPrefixOf_cons_nil,
        beq_false_of_ne (Ne.symm hmark.1), Bool.false_and]
    | cons c cs =>
      rw [List.cons_append, List.isPrefixOf_cons_cons, List.isPrefixOf_cons_cons, ih hmark.2]

theorem markAt?_append (cs : List Char) : markAt? (cs ++ e :: ts) = markAt? cs := by
  have hmarks : ∀ ms ⊆ marks, ms.find? (fun mark => mark.1.isPrefixOf (cs ++ e :: ts)) =
      ms.find? (fun mark => mark.1.isPrefixOf cs) := by
    intro ms hms
    induction ms with
    | nil => rfl
    | cons mark ms ih =>
      obtain ⟨hmark, hms⟩ := List.cons_subset.mp hms
      rw [List.find?_cons, List.find?_cons, ih hms,
        isPrefixOf_append ts (marks_lineEnd he mark hmark)]
  rw [markAt?, markAt?, hmarks marks (List.Subset.refl _)]

theorem stops_lineEnd : Stops (e :: ts) :=
  stops_of_isBlank (isBlank_of_isLineEnd he) ts

theorem nameTail_lineEnd : ∀ cs : List Char, nameTail (cs ++ e :: ts) = nameTail cs
  | [] => nameTail_of_stops (stops_lineEnd he ts)
  | [c] => by
    have hend : nameTail (e :: ts) = 0 := nameTail_of_stops (stops_lineEnd he ts)
    have hother : e.isAlphanum = false := ((stops_lineEnd he ts) e rfl).1
    rw [List.singleton_append, nameTail_cons_cons, nameTail_single, hend, hother]
    simp
  | c :: d :: rest => by
    have ih := nameTail_lineEnd (d :: rest)
    rw [List.cons_append] at ih
    rw [List.cons_append, List.cons_append, nameTail_cons_cons, nameTail_cons_cons, ih]

theorem digitRun_lineEnd (cs : List Char) : digitRun (cs ++ e :: ts) = digitRun cs := by
  have hother : ¬ e.isDigit = true := fun hdigit => by
    have halnum := ((stops_lineEnd he ts) e rfl).1
    rw [isAlphanum_of_isDigit hdigit] at halnum
    cases halnum
  induction cs with
  | nil => simp [digitRun, hother]
  | cons c cs ih =>
    unfold digitRun at ih ⊢
    by_cases hc : c.isDigit = true
    · simp [hc, ih]
    · simp [hc]

/-- **The token at the front of a text stays.** -/
theorem leading_append {cs : List Char} (hne : cs ≠ []) :
    leading (cs ++ e :: ts) = leading cs := by
  cases cs with
  | nil => exact absurd rfl hne
  | cons c rest =>
    have hmark := markAt?_append he ts (c :: rest)
    have htake : (rest ++ e :: ts).take (nameTail rest) = rest.take (nameTail rest) :=
      List.take_append_of_le_length (nameTail_le rest)
    rw [List.cons_append] at hmark ⊢
    simp only [leading, hmark, nameAt, numberAt, widthAt, nameTail_lineEnd he ts rest,
      digitRun_lineEnd he ts rest, htake]

end Spelling

/-! ## Lexemes -/

namespace Scan

variable {e : Char} (he : isLineEnd e = true) (ts : List Char)

include he

omit he in
/-- The stream of a place is told by the first token and the place behind it. -/
theorem stream_eq (s : Scan) : s.lexemes.stream = s.lexeme.1.token ::
    if s.lexeme.1.token.kind = .endOfInput then [] else s.lexeme.2.lexemes.stream := by
  by_cases hend : s.lexeme.1.token.kind = .endOfInput
  · rw [lexemes_of_end hend, if_pos hend, Lexemes.stream_single]
  · rw [lexemes_of_token hend, if_neg hend, Lexemes.stream_cons]

omit he in
/-- A lexeme is told by where the gap before it ends, and the text from there on. -/
theorem lexeme_congr {s s' : Scan}
    (hstop : (gap s'.offset s'.rest).stop = (gap s.offset s.rest).stop)
    (hrest : (gap s'.offset s'.rest).rest = (gap s.offset s.rest).rest) :
    s'.lexeme.1.token = s.lexeme.1.token ∧ s'.lexeme.2 = s.lexeme.2 := by
  simp only [lexeme, hstop, hrest, and_self]

/-- Behind a text without tokens the first lexeme is that of what was added. -/
theorem lexeme_append_end {cs : List Char} {offset : Nat}
    (hend : (lexeme ⟨cs, offset⟩).1.token.kind = .endOfInput) :
    (lexeme ⟨cs ++ e :: ts, offset⟩).1.token =
        (lexeme ⟨e :: ts, offset + byteLength cs⟩).1.token ∧
      (lexeme ⟨cs ++ e :: ts, offset⟩).2 = (lexeme ⟨e :: ts, offset + byteLength cs⟩).2 := by
  obtain ⟨skipped, hcs, hstop⟩ := gap_splits offset cs
  have hnone : (gap offset cs).rest = [] := rest_of_end hend
  rw [hnone, List.append_nil] at hcs
  rw [← hcs] at hstop
  obtain ⟨hstop', hrest'⟩ := (gap_append he ts offset cs).nothing hnone
  rw [hstop] at hstop' hrest'
  exact lexeme_congr hstop' hrest'

/-- Otherwise it is that of the text. -/
theorem lexeme_append_token {cs : List Char} {offset : Nat}
    (hend : (lexeme ⟨cs, offset⟩).1.token.kind ≠ .endOfInput) :
    (lexeme ⟨cs ++ e :: ts, offset⟩).1.token = (lexeme ⟨cs, offset⟩).1.token ∧
      (lexeme ⟨cs ++ e :: ts, offset⟩).2 =
        ⟨(lexeme ⟨cs, offset⟩).2.rest ++ e :: ts, (lexeme ⟨cs, offset⟩).2.offset⟩ := by
  have hsome : (gap offset cs).rest ≠ [] := by
    intro hnone
    simp [lexeme, hnone, leading] at hend
  obtain ⟨hstop, hrest⟩ := (gap_append he ts offset cs).token hsome
  have hle : (leading (gap offset cs).rest).2 ≤ (gap offset cs).rest.length := by
    cases hg : (gap offset cs).rest with
    | nil => exact absurd hg hsome
    | cons c rest => exact (leading_cons c rest).2.1
  simp only [lexeme, hstop, hrest, leading_append he ts hsome, List.take_append_of_le_length hle,
    List.drop_append_of_le_length hle, and_self]

/-- **A text keeps its tokens** when a line end and more is added. -/
theorem stream_append (cs : List Char) (offset : Nat) :
    (lexemes ⟨cs ++ e :: ts, offset⟩).stream =
      (lexemes ⟨cs, offset⟩).tokens ++
        (lexemes ⟨e :: ts, offset + byteLength cs⟩).stream := by
  by_cases hend : (lexeme ⟨cs, offset⟩).1.token.kind = .endOfInput
  · obtain ⟨htoken, hnext⟩ := lexeme_append_end he ts hend
    rw [lexemes_of_end hend, Lexemes.tokens_single, List.nil_append, stream_eq, htoken, hnext,
      ← stream_eq]
  · obtain ⟨htoken, hnext⟩ := lexeme_append_token he ts hend
    obtain ⟨skipped, text, hcs, htext, hoffset, hstop⟩ := lexeme_splits ⟨cs, offset⟩
    have hshort : (lexeme ⟨cs, offset⟩).2.rest.length < cs.length := lexeme_shorter hend
    have hbytes : (lexeme ⟨cs, offset⟩).2.offset + byteLength (lexeme ⟨cs, offset⟩).2.rest =
        offset + byteLength cs := by
      have hlength : byteLength cs = _ := congrArg byteLength hcs
      have hoffset : (lexeme ⟨cs, offset⟩).1.token.offset = offset + byteLength skipped := hoffset
      rw [hstop, Token.stop_eq, htext, String.toList_ofList, hoffset, hlength, byteLength_append,
        byteLength_append]
      omega
    have ih := stream_append (lexeme ⟨cs, offset⟩).2.rest (lexeme ⟨cs, offset⟩).2.offset
    rw [hbytes] at ih
    rw [stream_eq, htoken, if_neg hend, hnext, ih, lexemes_of_token hend, Lexemes.tokens_cons,
      List.cons_append]
termination_by cs.length

/-- A byte order mark in front of a text stays what it is. -/
theorem ofText_append (cs : List Char) :
    ofText (cs ++ e :: ts) = ⟨(ofText cs).rest ++ e :: ts, (ofText cs).offset⟩ := by
  cases cs with
  | nil =>
    have hmark : e ≠ '\ufeff' := by
      rintro rfl
      exact absurd he (by decide)
    unfold ofText
    split
    · rename_i htext
      exact absurd (List.cons.inj htext).1 hmark
    · rfl
  | cons c cs =>
    by_cases hmark : c = '\ufeff'
    · subst hmark
      rfl
    · have hplain (rest : List Char) : ofText (c :: rest) = ⟨c :: rest, 0⟩ := by
        unfold ofText
        split
        · rename_i htext
          exact absurd (List.cons.inj htext).1 hmark
        · rfl
      rw [List.cons_append, hplain, hplain, List.cons_append]

end Scan

/-! ## Whole texts -/

/-- **A text keeps its tokens** when a line end and more text are added to it, and those of what is
added stand behind the text. -/
theorem Text.stream_append (text added : String) :
    ∃ more, stream (text ++ "\n" ++ added) = tokens text ++ more ∧ more ≠ [] ∧
      ∀ t ∈ more, text.utf8ByteSize < t.offset := by
  have hlonger : (text ++ "\n" ++ added).toList = text.toList ++ '\n' :: added.toList := by
    simp
  have hend : (Scan.ofText text.toList).offset + byteLength (Scan.ofText text.toList).rest =
      text.utf8ByteSize := by
    obtain ⟨passed, htext, hoffset⟩ := Scan.ofText_behind text
    rw [hoffset, ← byteLength_append, ← htext, byteLength_toList]
  have hstream : stream (text ++ "\n" ++ added) =
      tokens text ++ (Scan.lexemes ⟨added.toList, text.utf8ByteSize + 1⟩).stream := by
    rw [stream, hlonger, Scan.ofText_append (by decide), Scan.stream_append (by decide), hend,
      Scan.lexemes_of_blank (by decide)]
    rfl
  have hbehind : Scan.Behind ⟨added.toList, text.utf8ByteSize + 1⟩ (text ++ "\n" ++ added)
      (text.toList ++ ['\n']) := by
    refine ⟨by rw [hlonger]; simp, ?_⟩
    rw [byteLength_append, byteLength_toList]
    rfl
  refine ⟨_, hstream, List.cons_ne_nil _ _, (Scan.stream_placed _ hbehind).2⟩

end RecordSchema
