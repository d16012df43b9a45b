/-!
# Looking ahead in a stream (specification, 4.5)

A stream gives its items one at a time. `Lookahead` holds back the items that were looked at before
their turn: `peek n` draws from the stream until `n + 1` items are held or the stream ends, and
`next` hands out held items first.

A stream that ends `Yields` a list of items, and a buffer over it `Gives` the items held and those
behind them. `Gives.next` and `Gives.peek` say that the buffer gives these in order and that looking
ahead changes none of them. So a list stands for a buffer over it: the characters of a text are read
as a list, and only its tokens are drawn through a buffer.
-/

namespace RecordSchema

/-- A stream and the items drawn from it but not handed out, oldest first. -/
structure Lookahead (σ α : Type) where
  held : List α
  source : σ

namespace Lookahead

variable {σ α : Type} [Std.Stream σ α]

/-- A stream of which nothing was drawn. -/
def ofStream (source : σ) : Lookahead σ α := ⟨[], source⟩

/-- Draws up to `n` more items. -/
def draw : Nat → Lookahead σ α → Lookahead σ α
  | 0, b => b
  | n + 1, b =>
    match Std.Stream.next? b.source with
    | none => b
    | some (a, source) => draw n ⟨b.held ++ [a], source⟩

/-- The item that `n` others come before, and the buffer that holds it. -/
def peek (n : Nat) (b : Lookahead σ α) : Option α × Lookahead σ α :=
  let b := b.draw (n + 1 - b.held.length)
  (b.held[n]?, b)

/-- The next item. -/
def next (b : Lookahead σ α) : Option α × Lookahead σ α :=
  match b.held with
  | a :: held => (some a, ⟨held, b.source⟩)
  | [] =>
    match Std.Stream.next? b.source with
    | none => (none, b)
    | some (a, source) => (some a, ⟨[], source⟩)

/-! ## Over a stream that ends -/

/-- The stream has these items, in order, and ends behind them. -/
inductive Yields : σ → List α → Prop
  | ended {source : σ} (h : Std.Stream.next? source = none) : Yields source []
  | item {source rest : σ} {a : α} {items : List α}
      (h : Std.Stream.next? source = some (a, rest)) (hrest : Yields rest items) :
      Yields source (a :: items)

/-- The buffer has yet to give these items: the held ones, and then those of the stream. -/
def Gives (b : Lookahead σ α) (items : List α) : Prop :=
  ∃ behind, Yields b.source behind ∧ b.held ++ behind = items

theorem gives_ofStream {source : σ} {items : List α} (h : Yields source items) :
    (ofStream source).Gives items :=
  ⟨items, h, rfl⟩

/-- Drawing holds the first items of the stream behind the others, and fewer where it ends. -/
theorem draw_yields (n : Nat) {b : Lookahead σ α} {items : List α} (h : Yields b.source items) :
    (b.draw n).held = b.held ++ items.take n ∧ Yields (b.draw n).source (items.drop n) := by
  induction n generalizing b items with
  | zero => exact ⟨by simp [draw], h⟩
  | succ n ih =>
    rw [draw]
    cases h with
    | ended hnext =>
      rw [hnext]
      exact ⟨by simp, .ended hnext⟩
    | @item _ rest a items hnext hrest =>
      rw [hnext]
      simpa using ih (b := ⟨b.held ++ [a], rest⟩) hrest

theorem next_of_ended {source : σ} (h : Std.Stream.next? source = (none : Option (α × σ))) :
    next (⟨[], source⟩ : Lookahead σ α) = (none, ⟨[], source⟩) := by
  simp [next, h]

theorem next_of_item {source rest : σ} {a : α} (h : Std.Stream.next? source = some (a, rest)) :
    next (⟨[], source⟩ : Lookahead σ α) = (some a, ⟨[], rest⟩) := by
  simp [next, h]

namespace Gives

variable {b : Lookahead σ α} {items : List α}

/-- **The next item is the first of those to come**, and the others stay. -/
theorem next (h : b.Gives items) : b.next.1 = items.head? ∧ b.next.2.Gives items.tail := by
  obtain ⟨held, source⟩ := b
  obtain ⟨behind, hbehind, rfl⟩ := h
  cases held with
  | cons a held => exact ⟨rfl, behind, hbehind, rfl⟩
  | nil =>
    cases hbehind with
    | ended hnext =>
      rw [next_of_ended hnext]
      exact ⟨rfl, [], .ended hnext, rfl⟩
    | item hnext hrest =>
      rw [next_of_item hnext]
      exact ⟨rfl, _, hrest, rfl⟩

/-- **Looking ahead shows an item to come**, and all of them stay. -/
theorem peek (h : b.Gives items) (n : Nat) :
    (b.peek n).1 = items[n]? ∧ (b.peek n).2.Gives items := by
  obtain ⟨behind, hbehind, rfl⟩ := h
  obtain ⟨hheld, hsource⟩ := draw_yields (n + 1 - b.held.length) hbehind
  refine ⟨?_, _, hsource, ?_⟩
  · simp only [Lookahead.peek, hheld, List.getElem?_append, List.getElem?_take]
    split
    · rfl
    · rw [if_pos (by omega)]
  · simp only [Lookahead.peek, hheld, List.append_assoc, List.take_append_drop]

end Gives

/-! ## Over a list -/

theorem yields_list (items : List α) : Yields items items := by
  induction items with
  | nil => exact .ended rfl
  | cons a items ih => exact .item rfl ih

end Lookahead

end RecordSchema
