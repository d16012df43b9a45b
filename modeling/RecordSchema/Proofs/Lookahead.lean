import RecordSchema.Lookahead

/-!
# Looking ahead changes nothing

A buffer over a stream that ends is the list of the items to come, whatever it is asked for and in
whatever order. Items are drawn when they are first looked at, and a look past the end draws those
that are left; neither shows in any answer.

Results:
* `Lookahead.Gives.answers_eq`: calls one after the other answer as the list does.
* `Lookahead.ofStream_characters`: over the characters of a text these are the characters.
* `Lookahead.ofStream_answers`: any calls of a buffer over a stream that ends, and what one more
  call behind them shows.
-/

namespace RecordSchema.Lookahead

variable {σ α τ : Type} [Std.Stream σ α]

/-- What a buffer can be asked for. -/
inductive Call where
  | next
  | peek (n : Nat)
deriving DecidableEq, Repr

/-- A call of a buffer. -/
def call : Call → Lookahead σ α → Option α × Lookahead σ α
  | .next, b => b.next
  | .peek n, b => b.peek n

/-- A call of the list of the items to come. -/
def pick : Call → List α → Option α × List α
  | .next, items => (items.head?, items.tail)
  | .peek n, items => (items[n]?, items)

/-- The answers to calls made one after the other, and what is left behind them. -/
def answers (call : Call → τ → Option α × τ) : List Call → τ → List (Option α) × τ
  | [], t => ([], t)
  | c :: calls, t =>
    ((call c t).1 :: (answers call calls (call c t).2).1, (answers call calls (call c t).2).2)

/-- Calls leave the items behind as many as `next` was called for. -/
theorem pick_left (calls : List Call) (items : List α) :
    (answers pick calls items).2 = items.drop (calls.count .next) := by
  induction calls generalizing items with
  | nil => rfl
  | cons c calls ih =>
    rw [answers, ih]
    cases c with
    | next => rw [List.count_cons_self, pick, List.drop_tail, Nat.add_comm]
    | peek n => rw [List.count_cons_of_ne (by simp), pick]

/-- Of a list, the `next` behind `n` others takes the item that `n` others come before. -/
theorem pick_nexts (n : Nat) (items : List α) :
    (answers pick (List.replicate (n + 1) .next) items).1[n]? = some items[n]? := by
  induction n generalizing items with
  | zero => cases items <;> rfl
  | succ n ih =>
    rw [List.replicate_succ, answers, List.getElem?_cons_succ, ih]
    cases items <;> rfl

namespace Gives

variable {b : Lookahead σ α} {items : List α}

/-- A call answers as the list does, and both go on with the same items. -/
theorem call_eq (h : b.Gives items) (c : Call) :
    (call c b).1 = (pick c items).1 ∧ (call c b).2.Gives (pick c items).2 := by
  cases c with
  | next => exact h.next
  | peek n => exact h.peek n

/-- **Calls one after the other** answer as the list does. -/
theorem answers_eq (h : b.Gives items) (calls : List Call) :
    (answers call calls b).1 = (answers pick calls items).1 ∧
      (answers call calls b).2.Gives (answers pick calls items).2 := by
  induction calls generalizing b items with
  | nil => exact ⟨rfl, h⟩
  | cons c calls ih =>
    obtain ⟨hanswer, hleft⟩ := h.call_eq c
    obtain ⟨hanswers, hbehind⟩ := ih hleft
    exact ⟨by rw [answers, answers, hanswer, hanswers], hbehind⟩

end Gives

/-- **Over the characters of a text** a buffer answers as the list of them does. So what reads a
text by its characters and looks some of them ahead can read the list. -/
theorem ofStream_characters (text : String) (calls : List Call) :
    (answers call calls (ofStream text.toList)).1 = (answers pick calls text.toList).1 :=
  ((gives_ofStream (yields_list text.toList)).answers_eq calls).1

/-- **A buffer agrees with its stream.** Over a stream that ends, calls in any order answer as the
list of its items does. Behind any calls, with `k` the number of `next` among them, `next` gives the
item that `k` others come before, or none when there are no more, and a `peek` over `n` items shows
what the `next` behind `n` further ones gives. Whatever is called after a `peek` is answered as
without it. -/
theorem ofStream_answers {source : σ} {items : List α} (h : Yields source items) :
    (∀ calls, (answers call calls (ofStream source)).1 = (answers pick calls items).1) ∧
      ∀ calls b, (answers call calls (ofStream source)).2 = b →
        b.next.1 = items[calls.count .next]? ∧
        ∀ n, (b.peek n).1 = items[calls.count .next + n]? ∧
          (answers call (List.replicate (n + 1) .next) b).1[n]? = some (b.peek n).1 ∧
          ∀ more, (answers call more (b.peek n).2).1 = (answers call more b).1 := by
  have hstart := gives_ofStream h
  refine ⟨fun calls => (hstart.answers_eq calls).1, ?_⟩
  rintro calls b rfl
  obtain ⟨-, hgives⟩ := hstart.answers_eq calls
  rw [pick_left] at hgives
  refine ⟨by rw [hgives.next.1, List.head?_drop], fun n => ?_⟩
  obtain ⟨hshown, hkept⟩ := hgives.peek n
  refine ⟨by rw [hshown, List.getElem?_drop], ?_, fun more => ?_⟩
  · rw [(hgives.answers_eq _).1, pick_nexts, hshown]
  · rw [(hkept.answers_eq more).1, (hgives.answers_eq more).1]

/-- A look past the end holds the two items that are left, and they are given all the same. -/
theorem ofStream_answers_past :
    ∃ calls b, calls = [.peek 2, .peek 0, .next, .peek 2] ∧
      Yields [1, 2, 3] [1, 2, 3] ∧
      answers call calls (ofStream [1, 2, 3]) = ([some 3, some 1, some 1, none], b) ∧
      b.held = [2, 3] ∧ b.next.1 = some 2 ∧ (b.peek 1).1 = some 3 ∧ (b.peek 4).1 = none ∧
      (answers call [.next, .next, .next, .next] (b.peek 4).2).1 =
        [some 2, some 3, none, none] := by
  obtain ⟨hanswers, hbehind⟩ := ofStream_answers (yields_list [1, 2, 3])
  obtain ⟨hnext, hpeek⟩ := hbehind [.peek 2, .peek 0, .next, .peek 2] _ rfl
  refine ⟨_, _, rfl, yields_list _, Prod.ext (hanswers _) rfl, rfl, hnext, (hpeek 1).1,
    (hpeek 4).1, ((hpeek 4).2.2 _).trans rfl⟩

end RecordSchema.Lookahead
