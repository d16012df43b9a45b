import RecordSchema.Proofs.Placement
import RecordSchema.Proofs.Rendering

/-!
# Where the tokens of a rendering stand

The words of a rendering do not say where its tokens stand. `Lays text offset ts` does: at the
offset, and in front of whatever stops it, the text has exactly the tokens `ts`, and what stands
behind the text is scanned from its end on. Parts of a rendering are put together in the same ways
as their words are.

Results:
* `Lays.token`, `Lays.append`, `Lays.spaced`, `Lays.bracketed`: tokens, and the ways to put parts
  together.
* `Lays.tokens`: the tokens of a whole text.
* `Opens.tokens`: the first token of a text that begins with one.
* `Opens.behind`: where that token stands in a longer text.
-/

namespace RecordSchema

open Text Spelling

/-- In front of a text that stops it, a part of a rendering at the offset is read as the tokens. -/
def Lays (text : String) (offset : Nat) (ts : List Token) : Prop :=
  ∀ rest, Stops rest → (Scan.lexemes ⟨text.toList ++ rest, offset⟩).tokens =
    ts ++ (Scan.lexemes ⟨rest, offset + text.utf8ByteSize⟩).tokens

/-- The text begins with a token of the word, whatever stands behind the text. -/
def Opens (text : String) (kind : TokenKind) (word : String) : Prop :=
  Spells kind word.toList ∧
    ∃ tail : String, text = word ++ tail ∧ tail.toList ≠ [] ∧ Stops tail.toList

namespace Scan

/-- What spells a token is the first of the tokens, if it is read apart from what is behind it. -/
theorem tokens_of_spells {kind : TokenKind} {word : String} {rest : List Char} {offset : Nat}
    (h : Spells kind word.toList) (hleading : leading (word.toList ++ rest) =
      (kind, word.toList.length)) :
    (lexemes ⟨word.toList ++ rest, offset⟩).tokens =
      ⟨kind, word, offset⟩ :: (lexemes ⟨rest, offset + word.utf8ByteSize⟩).tokens := by
  have hlexeme := lexeme_of_spells h hleading offset
  have hend : (lexeme ⟨word.toList ++ rest, offset⟩).1.token.kind ≠ .endOfInput := by
    rw [hlexeme]
    exact h.kind_ne
  rw [lexemes_of_token hend, hlexeme, Lexemes.tokens_cons, String.ofList_toList,
    byteLength_toList]

/-- Blanks in front of a text only move it. -/
theorem lexemes_of_blanks {sep : String} (h : Blanks sep) (offset : Nat) (rest : List Char) :
    lexemes ⟨sep.toList ++ rest, offset⟩ = lexemes ⟨rest, offset + sep.utf8ByteSize⟩ := by
  obtain ⟨-, hall⟩ := h
  rw [← byteLength_toList]
  generalize sep.toList = cs at hall ⊢
  induction cs generalizing offset with
  | nil => rfl
  | cons c cs ih =>
    rw [List.all_cons, Bool.and_eq_true, Bool.and_eq_true] at hall
    rw [List.cons_append, lexemes_of_blank hall.1.1, ih _ hall.2, byteLength_cons, Nat.add_assoc]

end Scan

namespace Lays

variable {a b : String} {offset : Nat} {us ts : List Token}

theorem empty (offset : Nat) : Lays "" offset [] := fun _ _ => rfl

/-- A text that spells a token. -/
theorem token {kind : TokenKind} {word : String} (h : Spells kind word.toList) (offset : Nat) :
    Lays word offset [⟨kind, word, offset⟩] :=
  fun _ hrest => Scan.tokens_of_spells h (h.leading_append hrest)

/-- Parts of which the second stops the first. -/
theorem append (ha : Lays a offset us) (hb : Lays b (offset + a.utf8ByteSize) ts)
    (hstops : Stops b.toList) : Lays (a ++ b) offset (us ++ ts) := by
  intro rest hrest
  rw [String.toList_append, List.append_assoc, ha _ (hstops.append hrest), hb rest hrest,
    String.utf8ByteSize_append, Nat.add_assoc, List.append_assoc]

/-- Parts with blanks between them do not touch. -/
theorem spaced (sep : String) (hsep : Blanks sep) (ha : Lays a offset us)
    (hb : Lays b (offset + (a ++ sep).utf8ByteSize) ts) :
    Lays (a ++ sep ++ b) offset (us ++ ts) := by
  intro rest hrest
  rw [String.utf8ByteSize_append, ← Nat.add_assoc] at hb
  rw [String.toList_append, String.toList_append, List.append_assoc, List.append_assoc,
    ha _ (stops_of_blanks hsep _), Scan.lexemes_of_blanks hsep, hb rest hrest,
    String.utf8ByteSize_append, String.utf8ByteSize_append, List.append_assoc]
  simp only [Nat.add_assoc]

/-- A part in square brackets. -/
theorem bracketed {inner : List Token → Prop} (ha : Lays a (offset + 1) ts) (h : inner ts) :
    ∃ us, Enclosed .leftSquare .rightSquare inner us ∧ Lays ("[" ++ a ++ "]") offset us := by
  have hopen : ("[".toList, TokenKind.leftSquare) ∈ marks := by decide
  have hclose := token (.mark (show ("]".toList, TokenKind.rightSquare) ∈ marks by decide))
    (offset + 1 + a.utf8ByteSize)
  have hinner := ha.append hclose (by decide)
  have hspell : Enclosed .leftSquare .rightSquare inner (⟨.leftSquare, "[", offset⟩ ::
      (ts ++ [⟨.rightSquare, "]", offset + 1 + a.utf8ByteSize⟩])) := .mk rfl h rfl
  refine ⟨_, hspell, fun rest hrest => ?_⟩
  have hleading : leading ("[".toList ++ ((a ++ "]").toList ++ rest)) = (.leftSquare, 1) :=
    leading_mark hopen fun h => absurd h (by decide)
  rw [String.append_assoc, String.toList_append, List.append_assoc,
    Scan.tokens_of_spells (.mark hopen) hleading, List.cons_append, String.utf8ByteSize_append,
    ← Nat.add_assoc]
  exact congrArg _ (hinner rest hrest)

/-- **The tokens of a whole text**, if it is normalized. -/
theorem tokens {ws : List (TokenKind × String)} (h : Lays a 0 ts) (hr : ReadsAs a.toList ws) :
    Text.tokens a = ts := by
  have hall := h [] stops_nil
  have hend := Scan.lexeme_of_nil (s := ⟨[], 0 + a.utf8ByteSize⟩) rfl
  rw [List.append_nil, Scan.lexemes_of_end hend, Lexemes.tokens_single,
    List.append_nil] at hall
  rw [Text.tokens, hr.ofText, hall]

end Lays

namespace Opens

variable {text word : String} {kind : TokenKind}

/-- The first token, at any place and in front of anything. -/
theorem lexemes (h : Opens text kind word) (offset : Nat) (rest : List Char) :
    ∃ ts, (Scan.lexemes ⟨text.toList ++ rest, offset⟩).tokens = ⟨kind, word, offset⟩ :: ts := by
  obtain ⟨hspells, tail, rfl, hne, hstops⟩ := h
  have hbehind : Stops (tail.toList ++ rest) := by
    cases htail : tail.toList with
    | nil => exact absurd htail hne
    | cons c cs =>
      rw [htail] at hstops
      exact stops_cons (cs ++ rest) (hstops c rfl)
  rw [String.toList_append, List.append_assoc,
    Scan.tokens_of_spells hspells (hspells.leading_append hbehind)]
  exact ⟨_, rfl⟩

/-- **The first token of a text.** -/
theorem tokens (h : Opens text kind word) :
    (Text.tokens text).head? = some ⟨kind, word, 0⟩ := by
  have hplain : ∀ c ∈ text.toList.head?, isPlain c = true := by
    obtain ⟨hspells, tail, rfl, -⟩ := h
    obtain ⟨c, cs, hword, -⟩ := hspells.begins
    rw [String.toList_append, hword]
    rintro _ ⟨⟩
    exact hspells.plain c (hword ▸ List.mem_cons_self)
  obtain ⟨ts, hts⟩ := h.lexemes 0 []
  rw [List.append_nil] at hts
  rw [Text.tokens, Scan.ofText_of_plain hplain, hts, List.head?_cons]

/-- A part with one that opens behind blanks. -/
theorem behind {a sep : String} {offset : Nat} {us : List Token} (h : Opens text kind word)
    (ha : Lays a offset us) (hsep : Blanks sep) (after : String) :
    ∃ ts, (Scan.lexemes ⟨(a ++ sep ++ text ++ after).toList, offset⟩).tokens =
      us ++ ⟨kind, word, offset + (a ++ sep).utf8ByteSize⟩ :: ts := by
  obtain ⟨ts, hts⟩ := h.lexemes (offset + (a ++ sep).utf8ByteSize) after.toList
  refine ⟨ts, ?_⟩
  rw [String.utf8ByteSize_append, ← Nat.add_assoc] at hts ⊢
  rw [String.append_assoc, String.append_assoc, String.toList_append, String.toList_append,
    String.toList_append, ha _ (stops_of_blanks hsep _), Scan.lexemes_of_blanks hsep, hts]

end Opens

end RecordSchema
