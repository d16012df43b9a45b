import RecordSchema.Proofs.Appending.Tokens
import RecordSchema.Proofs.Refusal.Basic

/-!
# Runs over a longer text

A run over a text and one over a longer text do the same as long as tokens of the text are ahead of
both. Where the one is at the end of input and the other goes on they may part, and then the first
one fails for want of a token, or gives a result that depends on the end of input. `Follows` says so
of a parser: with the two runs in such states they have the same outcome, or the first one is
excused, or it is `open` at the end of input. A parser that is `open` is one that only looks at the
last token it needs, and what comes behind it has to need a further one, which is `Ends`.

Results:
* `Follows.bind`, `Follows.bind_open`: how parsers are put together.
* `Follows.manyWithin`, `Follows.many1`: loops, which need turns that take a token each.
-/

namespace RecordSchema.Parser

open State

/-- What a longer text has where a text has its end of input: tokens that stand beyond a limit. -/
structure Margin where
  last : Token
  more : List Token
  limit : Nat
  isEnd : last.kind = .endOfInput
  goesOn : more ≠ []
  beyond : ∀ t ∈ more, limit < t.offset

variable {α β : Type} {m : Margin} {us : List Token} {s s' : State}

/-! ## States -/

/-- Nothing but the end of input is ahead. -/
def State.AtEnd (m : Margin) (s : State) : Prop := s.stream = [m.last]

/-- The tokens `us` are ahead in both states, and behind them the end of input in the one and more
tokens in the other. All else but the log is the same. -/
structure State.Prolongs (m : Margin) (us : List Token) (s s' : State) : Prop where
  stream : s.stream = us ++ [m.last]
  longer : s'.stream = us ++ m.more
  inner : ∀ t ∈ us, t.kind ≠ .endOfInput ∧ t.stop ≤ m.limit
  source : s'.source = s.source
  scope : s'.scope = s.scope
  types : s'.types = s.types
  declaring : s'.declaring = s.declaring
  depth : s'.depth = s.depth

namespace State

theorem stream_advance (s : State) {t : Token} {ts : List Token} (h : s.stream = t :: ts)
    (hne : ts ≠ []) : s.advance.stream = ts := by
  obtain ⟨_, ⟨current, later⟩, _, _, _, _, _⟩ := s
  obtain ⟨-, rfl⟩ := List.cons.inj h
  cases later with
  | nil => exact absurd rfl hne
  | cons l later => rfl

theorem current_of_stream {t : Token} {ts : List Token} (h : s.stream = t :: ts) :
    s.current = t :=
  (List.cons.inj h).1

theorem AtEnd.kind (h : s.AtEnd m) : s.current.kind = .endOfInput := by
  rw [current_of_stream h]
  exact m.isEnd

theorem AtEnd.passComments (h : s.AtEnd m) : s.passComments.AtEnd m := by
  rw [AtEnd, stream_passComments]
  exact h

namespace Prolongs

theorem atEnd (h : s.Prolongs m [] s') : s.AtEnd m := h.stream

theorem current {t : Token} (h : s.Prolongs m (t :: us) s') : s.current = t ∧ s'.current = t :=
  ⟨current_of_stream h.stream, current_of_stream h.longer⟩

theorem passComments (h : s.Prolongs m us s') : s.passComments.Prolongs m us s'.passComments :=
  ⟨by rw [stream_passComments]; exact h.stream, by rw [stream_passComments]; exact h.longer,
    h.inner, h.source, h.scope, h.types, h.declaring, h.depth⟩

theorem advance {t : Token} (h : s.Prolongs m (t :: us) s') : s.advance.Prolongs m us s'.advance :=
  ⟨stream_advance s h.stream (by simp), stream_advance s' h.longer (by simp [m.goesOn]),
    (List.forall_mem_cons.mp h.inner).2, h.source, h.scope, h.types, h.declaring, h.depth⟩

theorem skip {t : Token} (h : s.Prolongs m (t :: us) s') : s.skip.Prolongs m us s'.skip :=
  h.passComments.advance

/-- There are more lexemes than tokens ahead of both. -/
theorem length_lt (h : s.Prolongs m us s') : us.length < s.lexemes.later.length + 1 ∧
    us.length < s'.lexemes.later.length + 1 := by
  have hlength (s : State) : s.stream.length = s.lexemes.later.length + 1 := by
    simp [State.stream, Lexemes.stream, Lexemes.toList]
  have hpos := List.length_pos_iff.mpr m.goesOn
  rw [← hlength s, ← hlength s', h.stream, h.longer, List.length_append, List.length_append,
    List.length_singleton]
  omega

/-- The current token is refused for the same reason. -/
theorem unexpected {t : Token} (h : s.Prolongs m (t :: us) s') (kinds : List TokenKind) :
    s'.unexpected kinds = s.unexpected kinds := by
  rw [State.unexpected, State.unexpected, h.current.1, h.current.2, h.source]

theorem tooDeep {t : Token} (h : s.Prolongs m (t :: us) s') : s'.tooDeep = s.tooDeep := by
  rw [State.tooDeep, State.tooDeep, h.current.1, h.current.2, h.source]

theorem withDepth (h : s.Prolongs m us s') (n : Nat) :
    State.Prolongs m us { s with depth := n } { s' with depth := n } :=
  ⟨h.stream, h.longer, h.inner, h.source, h.scope, h.types, h.declaring, rfl⟩

theorem record (h : s.Prolongs m us s') (event : Event) :
    (s.record event).Prolongs m us (s'.record event) :=
  ⟨h.stream, h.longer, h.inner, h.source, h.scope, h.types, h.declaring, h.depth⟩

end Prolongs

end State

/-! ## Outcomes -/

/-- A fault that a longer text may do away with: of the end of input, or of a name in use, which is
found only behind a type that may go on. -/
inductive Excused : Cause → Prop
  | atEnd (kinds : List TokenKind) (offset length : Nat) :
      Excused (.unexpectedToken kinds .endOfInput offset length)
  | nameInUse (name : String) (offset first : Nat) : Excused (.nameInUse name offset first)

/-- The outcomes of two runs that begin with `n` tokens ahead of both: the same result, with at
least `k` of the tokens taken, or the same fault, or whatever in the second run if the fault of the
first is excused or its result is open. -/
inductive Outcome (m : Margin) (isOpen : Prop) (k n : Nat) :
    EStateM.Result Fault State α → EStateM.Result Fault State α → Prop
  | same {a : α} {s s' : State} {rest : List Token} (hs : s.Prolongs m rest s')
      (hlength : rest.length + k ≤ n) : Outcome m isOpen k n (.ok a s) (.ok a s')
  | fault {f : Fault} {s s' : State} : Outcome m isOpen k n (.error f s) (.error f s')
  | excused {f : Fault} {s : State} {r' : EStateM.Result Fault State α} (h : Excused f.cause) :
      Outcome m isOpen k n (.error f s) r'
  | ended {a : α} {s : State} {r' : EStateM.Result Fault State α} (hopen : isOpen)
      (hs : s.AtEnd m) : Outcome m isOpen k n (.ok a s) r'

/-- Two runs of the parser do the same while tokens are ahead of both; they take at least `k`. If
the parser is open, the first one may also give a result at the end of input that the second does
not give. -/
def Follows (m : Margin) (isOpen : Prop) (k : Nat) (x : Parser α) : Prop :=
  ∀ us s s', s.Prolongs m us s' → Outcome m isOpen k us.length (x s) (x s')

/-- What a run does at the end of input: its fault is excused, or it stays there and is open. -/
inductive Closing (m : Margin) (isOpen : Prop) : EStateM.Result Fault State α → Prop
  | excused {f : Fault} {s : State} (h : Excused f.cause) : Closing m isOpen (.error f s)
  | ended {a : α} {s : State} (hopen : isOpen) (hs : s.AtEnd m) : Closing m isOpen (.ok a s)

/-- At the end of input the parser needs a further token, unless it is open. -/
def Ends (m : Margin) (isOpen : Prop) (x : Parser α) : Prop :=
  ∀ s, s.AtEnd m → Closing m isOpen (x s)

/-- Less may be known of the end of input and of the number of tokens taken. -/
theorem Outcome.imp {isOpen isOpen' : Prop} {k k' n n' : Nat} {r r' : EStateM.Result Fault State α}
    (h : Outcome m isOpen k n r r') (hopen : isOpen → isOpen')
    (hlength : ∀ l, l + k ≤ n → l + k' ≤ n') : Outcome m isOpen' k' n' r r' := by
  cases h with
  | same hs hl => exact .same hs (hlength _ hl)
  | fault => exact .fault
  | excused he => exact .excused he
  | ended ho hs => exact .ended (hopen ho) hs

/-- At the end of input the second run does not matter. -/
theorem Closing.outcome {isOpen : Prop} {k n : Nat} {r r' : EStateM.Result Fault State α}
    (h : Closing m isOpen r) : Outcome m isOpen k n r r' := by
  cases h with
  | excused he => exact .excused he
  | ended ho hs => exact .ended ho hs

/-! ## At the end of input -/

namespace Ends

variable {isOpen : Prop}

theorem pure (a : α) : Ends m True (pure a) := fun _ hs => .ended trivial hs

theorem imp {isOpen' : Prop} {x : Parser α} (h : Ends m isOpen x) (hopen : isOpen → isOpen') :
    Ends m isOpen' x := by
  intro s hs
  have hrun := h s hs
  generalize x s = r at hrun ⊢
  cases hrun with
  | excused he => exact .excused he
  | ended ho hs => exact .ended (hopen ho) hs

/-- What is open goes on at the end of input. -/
theorem bind_open {x : Parser α} {g : α → Parser β} (hx : Ends m True x)
    (hg : ∀ a, Ends m isOpen (g a)) : Ends m isOpen (x >>= g) := by
  intro s hs
  have hrun := hx s hs
  show Closing m isOpen (EStateM.bind x g s)
  unfold EStateM.bind
  generalize x s = r at hrun ⊢
  cases hrun with
  | excused he => exact .excused he
  | ended _ hs => exact hg _ _ hs

/-- Behind what needs a token nothing matters. -/
theorem bind {x : Parser α} {g : α → Parser β} (hx : Ends m False x) :
    Ends m isOpen (x >>= g) := by
  intro s hs
  have hrun := hx s hs
  show Closing m isOpen (EStateM.bind x g s)
  unfold EStateM.bind
  generalize x s = r at hrun ⊢
  cases hrun with
  | excused he => exact .excused he
  | ended ho _ => exact absurd ho id

theorem ite {p : Prop} [Decidable p] {x y : Parser α} (hx : Ends m isOpen x)
    (hy : Ends m isOpen y) : Ends m isOpen (if p then x else y) := by
  split
  · exact hx
  · exact hy

theorem look : Ends m True look := fun _ hs => .ended trivial hs.passComments

theorem unexpected (kinds : List TokenKind) :
    Ends m isOpen (Parser.unexpected kinds : Parser α) := by
  intro s hs
  rw [show Parser.unexpected kinds s = .error (s.unexpected kinds) s.passComments from rfl]
  refine .excused ?_
  rw [State.unexpected, hs.kind]
  exact .atEnd kinds _ _

theorem expect {kinds : List TokenKind} (hkinds : .endOfInput ∉ kinds) :
    Ends m isOpen (Parser.expect kinds) := by
  intro s hs
  have hkind : s.current.kind ∉ kinds := by rwa [hs.kind]
  rw [expect_of_notMem hkind]
  exact unexpected kinds _ hs.passComments

theorem take {kinds : List TokenKind} (hkinds : .endOfInput ∉ kinds) :
    Ends m isOpen (Parser.take kinds) :=
  (expect hkinds).bind

theorem accept {kind : TokenKind} (hkind : kind ≠ .endOfInput) :
    Ends m True (Parser.accept kind) := by
  intro s hs
  have hother : s.current.kind ≠ kind := by
    rw [hs.kind]
    exact hkind.symm
  have hrun : Parser.accept kind s = .ok false s.passComments :=
    accept_ok.mpr (.inr ⟨hother, rfl, rfl⟩)
  rw [hrun]
  exact .ended trivial hs.passComments

theorem canStart (rule : Rule) : Ends m True (Parser.canStart rule) :=
  look.bind_open fun _ => pure _

theorem declareName (n : Name) : Ends m True (Parser.declareName n) := by
  intro s hs
  unfold Parser.declareName
  split
  · exact .ended trivial hs
  · exact .excused (.nameInUse _ _ _)

/-- No rule begins at the end of input. -/
theorem canStart_atEnd (rule : Rule) (hs : s.AtEnd m) :
    rule.canStart s.current.kind = false := by
  rw [hs.kind]
  cases rule <;> rfl

theorem ensureStart (rule : Rule) : Ends m isOpen (Parser.ensureStart rule) := by
  intro s hs
  rw [ensureStart_of_not (canStart_atEnd rule hs)]
  exact unexpected rule.first s hs

theorem readRule (n : Nat) (rule : Rule) : Ends m isOpen (Parser.readRule n rule) := by
  cases n with
  | zero => exact (ensureStart rule).bind
  | succ n => exact (ensureStart rule).bind

theorem descend (n : Nat) (rule : Rule) : Ends m isOpen (Parser.descend (Parser.readRule n) rule) :=
  (readRule n rule).bind

theorem dispatch (n : Nat) (rules : List Rule) :
    Ends m isOpen (Parser.dispatch (Parser.readRule n) rules) := by
  refine look.bind_open fun t => ?_
  split
  · exact readRule n _
  · exact unexpected _

/-- A turn of a loop whose items need a token. -/
theorem turn {item : Parser α} {g : α → Parser β} (hi : Ends m False item) (b : β)
    (answer : Bool) : Ends m True (if answer = true then item >>= g else Pure.pure b) := by
  cases answer with
  | true => exact hi.bind
  | false => exact pure b

/-- A loop whose items need a token. -/
theorem manyWithin {more : Parser Bool} {item : List α → Parser α} (hm : Ends m True more)
    (hi : ∀ before, Ends m False (item before)) :
    ∀ (n : Nat) (before : List α), Ends m True (Parser.manyWithin more item n before)
  | 0, _ => pure _
  | _ + 1, before => hm.bind_open (turn (hi before) _)

end Ends

/-! ## Sequence and choice -/

namespace Follows

variable {isOpen : Prop} {k : Nat}

theorem pure (a : α) : Follows m isOpen 0 (pure a) :=
  fun _ _ _ hs => .same hs (Nat.le_refl _)

theorem fail (cause : Cause) : Follows m isOpen k (fail cause : Parser α) := by
  intro us s s' hs
  unfold Parser.fail
  rw [hs.source]
  exact .fault

theorem imp {isOpen' : Prop} {k' : Nat} {x : Parser α} (h : Follows m isOpen k x)
    (hopen : isOpen → isOpen') (hk : k' ≤ k) : Follows m isOpen' k' x :=
  fun us s s' hs => (h us s s' hs).imp hopen fun l hl => by omega

/-- One parser behind another whose results are known to have a property. If the first is open,
the second has to need a further token, or to be open as well. -/
theorem bind_known {isOpen₁ : Prop} {k₁ l : Nat} {P : α → Prop} {x : Parser α} {g : α → Parser β}
    (hx : Follows m isOpen₁ k₁ x) (hP : ∀ {s s' : State} {a : α}, x s = .ok a s' → P a)
    (hg : ∀ a, P a → Follows m isOpen l (g a))
    (hend : isOpen₁ → ∀ a, P a → Ends m isOpen (g a)) :
    Follows m isOpen (k₁ + l) (x >>= g) := by
  intro us s s' hs
  have hrun := hx us s s' hs
  show Outcome m isOpen _ us.length (EStateM.bind x g s) (EStateM.bind x g s')
  unfold EStateM.bind
  generalize hr : x s = r at hrun ⊢
  generalize x s' = r' at hrun ⊢
  cases hrun with
  | same hs hlength => exact (hg _ (hP hr) _ _ _ hs).imp id fun l hl => by omega
  | fault => exact .fault
  | excused he => exact .excused he
  | ended ho hs => exact (hend ho _ (hP hr) _ hs).outcome

theorem bind_all {isOpen₁ : Prop} {k₁ l : Nat} {x : Parser α} {g : α → Parser β}
    (hx : Follows m isOpen₁ k₁ x) (hg : ∀ a, Follows m isOpen l (g a))
    (hend : isOpen₁ → ∀ a, Ends m isOpen (g a)) : Follows m isOpen (k₁ + l) (x >>= g) :=
  hx.bind_known (fun _ => trivial) (fun a _ => hg a) fun ho a _ => hend ho a

/-- Behind a parser that takes enough tokens. -/
theorem bind {l : Nat} {x : Parser α} {g : α → Parser β} (hx : Follows m False k x)
    (hg : ∀ a, Follows m isOpen l (g a)) : Follows m isOpen k (x >>= g) :=
  (hx.bind_all hg False.elim).imp id (Nat.le_add_right k l)

/-- Behind a parser that is open and takes enough tokens. -/
theorem bind_open {l : Nat} {x : Parser α} {g : α → Parser β} (hx : Follows m True k x)
    (hg : ∀ a, Follows m isOpen l (g a)) (hend : ∀ a, Ends m isOpen (g a)) :
    Follows m isOpen k (x >>= g) :=
  (hx.bind_all hg fun _ => hend).imp id (Nat.le_add_right k l)

/-- A parser behind another one that takes enough tokens itself. -/
theorem open_bind {l : Nat} {x : Parser α} {g : α → Parser β} (hx : Follows m True l x)
    (hg : ∀ a, Follows m isOpen k (g a)) (hend : ∀ a, Ends m isOpen (g a)) :
    Follows m isOpen k (x >>= g) :=
  (hx.bind_all hg fun _ => hend).imp id (Nat.le_add_left k l)

theorem toOpen {x : Parser α} (h : Follows m False k x) : Follows m True k x :=
  h.imp False.elim (Nat.le_refl k)

theorem ite {p : Prop} [Decidable p] {x y : Parser α} (hx : Follows m isOpen k x)
    (hy : Follows m isOpen k y) : Follows m isOpen k (if p then x else y) := by
  split
  · exact hx
  · exact hy

/-! ## Tokens -/

/-- What is known at the end of input is left to show with a token ahead of both runs. -/
theorem of_ahead {x : Parser α} (hend : Ends m isOpen x)
    (h : ∀ t us s s', s.Prolongs m (t :: us) s' →
      Outcome m isOpen k (us.length + 1) (x s) (x s')) : Follows m isOpen k x := by
  intro us s s' hs
  cases us with
  | nil => exact (hend s hs.atEnd).outcome
  | cons t us => exact h t us s s' hs

/-- Both runs look at the same token unless the first is at the end of input. -/
theorem bind_look {g : Token → Parser β} (hend : Ends m isOpen (look >>= g))
    (hg : ∀ t, Follows m isOpen k (g t)) : Follows m isOpen k (look >>= g) := by
  refine of_ahead hend fun t us s s' hs => ?_
  obtain ⟨hcurrent, hcurrent'⟩ := hs.current
  show Outcome m isOpen k _ (g s.current s.passComments) (g s'.current s'.passComments)
  rw [hcurrent, hcurrent']
  exact hg t _ _ _ hs.passComments

theorem record (event : Event) : Follows m False 0 (record event) :=
  fun _ _ _ hs => .same (hs.record event) (Nat.le_refl _)

theorem unexpected (kinds : List TokenKind) :
    Follows m isOpen k (Parser.unexpected kinds : Parser α) :=
  bind_look (.unexpected kinds) fun _ => fail _

theorem expect {kinds : List TokenKind} (hkinds : .endOfInput ∉ kinds) :
    Follows m False 0 (Parser.expect kinds) :=
  bind_look (.expect hkinds) fun _ => .ite (pure _) (unexpected _)

theorem take {kinds : List TokenKind} (hkinds : .endOfInput ∉ kinds) :
    Follows m False 1 (Parser.take kinds) := by
  refine of_ahead (.take hkinds) fun t us s s' hs => ?_
  obtain ⟨hcurrent, hcurrent'⟩ := hs.current
  by_cases hk : t.kind ∈ kinds
  · rw [take_ok.mpr ⟨hcurrent ▸ hk, hcurrent.symm, rfl⟩,
      take_ok.mpr ⟨hcurrent' ▸ hk, hcurrent'.symm, rfl⟩]
    exact .same hs.skip (Nat.le_refl _)
  · rw [take_of_notMem (hcurrent ▸ hk), take_of_notMem (hcurrent' ▸ hk), hs.unexpected]
    exact .fault

theorem name : Follows m False 1 name := (take (by decide)).bind fun _ => pure _

theorem accept {kind : TokenKind} (hkind : kind ≠ .endOfInput) :
    Follows m True 0 (Parser.accept kind) := by
  refine of_ahead (.accept hkind) fun t us s s' hs => ?_
  obtain ⟨hcurrent, hcurrent'⟩ := hs.current
  by_cases hk : t.kind = kind
  · rw [accept_ok.mpr (.inl ⟨hcurrent ▸ hk, rfl, rfl⟩),
      accept_ok.mpr (.inl ⟨hcurrent' ▸ hk, rfl, rfl⟩)]
    exact .same hs.skip (Nat.le_succ _)
  · rw [accept_ok.mpr (.inr ⟨hcurrent ▸ hk, rfl, rfl⟩),
      accept_ok.mpr (.inr ⟨hcurrent' ▸ hk, rfl, rfl⟩)]
    exact .same hs.passComments (Nat.le_refl _)

/-- What follows a token that is accepted need not take one. -/
theorem accept_bind {kind : TokenKind} {x y : Parser β} (hkind : kind ≠ .endOfInput)
    (hx : Follows m isOpen 0 x) (hy : Follows m isOpen 1 y) (hend : Ends m isOpen x)
    (hend' : Ends m isOpen y) : Follows m isOpen 1
      (Parser.accept kind >>= fun answer => if answer = true then x else y) := by
  refine of_ahead ((Ends.accept hkind).bind_open fun _ => .ite hend hend') fun t us s s' hs => ?_
  obtain ⟨hcurrent, hcurrent'⟩ := hs.current
  by_cases hk : t.kind = kind
  · rw [bind_of_ok (accept_ok.mpr (.inl ⟨hcurrent ▸ hk, rfl, rfl⟩)),
      bind_of_ok (accept_ok.mpr (.inl ⟨hcurrent' ▸ hk, rfl, rfl⟩))]
    exact (hx us _ _ hs.skip).imp id fun l hl => by omega
  · rw [bind_of_ok (accept_ok.mpr (.inr ⟨hcurrent ▸ hk, rfl, rfl⟩)),
      bind_of_ok (accept_ok.mpr (.inr ⟨hcurrent' ▸ hk, rfl, rfl⟩))]
    exact hy _ _ _ hs.passComments

theorem canStart (rule : Rule) : Follows m True 0 (canStart rule) :=
  bind_look (.canStart rule) fun _ => pure _

/-! ## Names -/

theorem declareName (n : Name) : Follows m False 0 (declareName n) := by
  intro us s s' hs
  unfold Parser.declareName
  rw [hs.scope]
  split
  · exact .same ⟨hs.stream, hs.longer, hs.inner, hs.source, rfl, hs.types, hs.declaring, hs.depth⟩
      (Nat.le_refl _)
  · exact fail _ _ _ _ hs

theorem resolveName (n : Name) : Follows m False 0 (resolveName n) := by
  intro us s s' hs
  unfold Parser.resolveName
  rw [hs.scope]
  split
  · exact .same hs (Nat.le_refl _)
  · exact fail _ _ _ _ hs

theorem resolveType (n : Name) : Follows m False 0 (resolveType n) := by
  intro us s s' hs
  unfold Parser.resolveType
  rw [hs.types]
  split
  · exact .same hs (Nat.le_refl _)
  · exact fail _ _ _ _ hs

theorem ensureFree (n : Name) : Follows m False 0 (ensureFree n) := by
  intro us s s' hs
  unfold Parser.ensureFree
  rw [hs.types]
  split
  · exact .same hs (Nat.le_refl _)
  · exact fail _ _ _ _ hs

theorem declareType (n : Name) (count : Nat) : Follows m False 0 (declareType n count) := by
  intro us s s' hs
  unfold Parser.declareType
  rw [hs.types]
  split
  · exact .same ⟨hs.stream, hs.longer, hs.inner, hs.source, hs.scope, rfl, hs.declaring, hs.depth⟩
      (Nat.le_refl _)
  · exact fail _ _ _ _ hs

theorem openDeclaration (n : Name) : Follows m False 0 (openDeclaration n) :=
  fun _ _ _ hs => .same ⟨hs.stream, hs.longer, hs.inner, hs.source, rfl, hs.types, rfl, hs.depth⟩
    (Nat.le_refl _)

theorem closeDeclaration : Follows m False 0 closeDeclaration :=
  fun _ _ _ hs => .same
    ⟨hs.stream, hs.longer, hs.inner, hs.source, rfl, hs.types, hs.declaring, hs.depth⟩
    (Nat.le_refl _)

theorem declaring : Follows m False 0 declaring := by
  intro us s s' hs
  unfold Parser.declaring
  rw [hs.declaring]
  exact .same hs (Nat.le_refl _)

/-! ## Rules -/

theorem within {x : Parser α} (h : Follows m isOpen k x) : Follows m isOpen k (within x) := by
  intro us s s' hs
  have hrun := h us _ _ (hs.withDepth (s.depth + 1))
  unfold Parser.within
  rw [hs.depth]
  generalize x { s with depth := s.depth + 1 } = r at hrun ⊢
  generalize x { s' with depth := s.depth + 1 } = r' at hrun ⊢
  cases hrun with
  | same hs hlength =>
    simp only [hs.depth]
    exact .same (hs.withDepth _) hlength
  | fault => exact .fault
  | excused he => exact .excused he
  | ended ho hs => exact .ended ho hs

/-- A rule that begins has a token ahead in both runs. -/
theorem ensureStart_bind {rule : Rule} {g : Unit → Parser β}
    (hg : ∀ t us s s', s.Prolongs m (t :: us) s' →
      Outcome m isOpen k (us.length + 1) (g () s) (g () s')) :
    Follows m isOpen k (ensureStart rule >>= g) := by
  refine of_ahead (Ends.ensureStart rule).bind fun t us s s' hs => ?_
  obtain ⟨hcurrent, hcurrent'⟩ := hs.current
  cases hstart : rule.canStart t.kind with
  | false =>
    rw [bind_of_error (ensureStart_of_not (hcurrent ▸ hstart)),
      bind_of_error (ensureStart_of_not (hcurrent' ▸ hstart)), hs.unexpected]
    exact .fault
  | true =>
    by_cases hdepth : nestingLimit ≤ s.depth
    · rw [bind_of_error (ensureStart_of_deep (hcurrent ▸ hstart) hdepth),
        bind_of_error (ensureStart_of_deep (hcurrent' ▸ hstart) (hs.depth ▸ hdepth)), hs.tooDeep]
      exact .fault
    · have hless := Nat.lt_of_not_le hdepth
      rw [bind_of_ok (ensureStart_ok.mpr ⟨hcurrent ▸ hstart, hless, rfl⟩),
        bind_of_ok (ensureStart_ok.mpr ⟨hcurrent' ▸ hstart, hs.depth ▸ hless, rfl⟩)]
      exact hg t us _ _ hs.passComments

/-- What is made of a result does not matter. -/
theorem map {x : Parser α} (h : Follows m isOpen k x) (f : α → β) :
    Follows m isOpen k (x >>= fun a => Pure.pure (f a)) :=
  h.bind_all (l := 0) (fun a => pure (f a)) fun ho a => (Ends.pure (f a)).imp fun _ => ho

/-- A rule does in both runs what its function does. -/
theorem readRule_succ {n : Nat} {rule : Rule} (h : Follows m isOpen k (reader (readRule n) rule)) :
    Follows m isOpen k (readRule (n + 1) rule) := by
  refine ensureStart_bind fun t us s s' hs => ?_
  obtain ⟨hcurrent, hcurrent'⟩ := hs.current
  have hwithin : Follows m isOpen k (Parser.within (build (readRule n) rule)) := by
    rw [build_eq]
    exact within (h.map _)
  show Outcome m isOpen k _
    (Parser.within (build (readRule n) rule)
      (s.passComments.record (.ruleBegun rule s.current.offset)))
    (Parser.within (build (readRule n) rule)
      (s'.passComments.record (.ruleBegun rule s'.current.offset)))
  rw [hcurrent, hcurrent']
  exact hwithin _ _ _ (hs.passComments.record _)

theorem readRule_zero (rule : Rule) : Follows m isOpen k (readRule 0 rule) := by
  refine ensureStart_bind fun t us s s' hs => ?_
  rw [tooDeep_error.mpr ⟨rfl, rfl⟩, tooDeep_error.mpr ⟨rfl, rfl⟩, hs.tooDeep]
  exact .fault

/-- A rule gives its own node. -/
theorem descend {n : Nat} {rule : Rule} (h : Follows m isOpen k (readRule n rule)) :
    Follows m isOpen k (descend (readRule n) rule) := by
  refine h.bind_known (l := 0) rule_readRule (fun node hrule => ?_) fun ho node hrule => ?_
  · obtain rfl := hrule
    rw [dif_pos rfl]
    exact pure _
  · obtain rfl := hrule
    rw [dif_pos rfl]
    exact (Ends.pure _).imp fun _ => ho

theorem dispatch {n : Nat} {rules : List Rule}
    (h : ∀ rule ∈ rules, Follows m isOpen k (readRule n rule)) :
    Follows m isOpen k (dispatch (readRule n) rules) := by
  refine bind_look (.dispatch n rules) fun t => ?_
  cases hfind : rules.find? (·.canStart t.kind) with
  | some rule => exact h rule (List.mem_of_find?_eq_some hfind)
  | none => exact unexpected _

/-! ## Repetition -/

section Loops

variable {more : Parser Bool} {item : List α → Parser α} (hm : Follows m True 0 more)
  (hm' : Ends m True more) (hi : ∀ before, Follows m True 1 (item before))
  (hi' : ∀ before, Ends m False (item before))

include hm hm' hi hi'

/-- **Loops do the same** if their turns do and take a token each. Neither may run out of turns
before the tokens that are ahead of both are taken. -/
theorem manyWithin : ∀ (n n' : Nat) (before : List α) (us : List Token) (s s' : State),
    s.Prolongs m us s' → us.length < n → us.length < n' →
      Outcome m True 0 us.length (manyWithin more item n before s)
        (manyWithin more item n' before s')
  | 0, _, _, _, _, _, _, hn, _ => absurd hn (Nat.not_lt_zero _)
  | _ + 1, 0, _, _, _, _, _, _, hn' => absurd hn' (Nat.not_lt_zero _)
  | n + 1, n' + 1, before, us, s, s', hs, hn, hn' => by
    have hturn := hm us s s' hs
    unfold Parser.manyWithin
    show Outcome m True 0 _ (EStateM.bind more _ s) (EStateM.bind more _ s')
    unfold EStateM.bind
    generalize more s = r at hturn ⊢
    generalize more s' = r' at hturn ⊢
    cases hturn with
    | fault => exact .fault
    | excused he => exact .excused he
    | ended _ hs => exact (Ends.turn (hi' before) _ _ _ hs).outcome
    | @same answer _ _ rest hs hlength =>
      cases answer with
      | false => exact .same hs hlength
      | true =>
        have hread := hi before _ _ _ hs
        show Outcome m True 0 _ (EStateM.bind (item before) _ _) (EStateM.bind (item before) _ _)
        unfold EStateM.bind
        generalize item before _ = r at hread ⊢
        generalize item before _ = r' at hread ⊢
        cases hread with
        | fault => exact .fault
        | excused he => exact .excused he
        | @ended a _ _ _ hs => exact (Ends.manyWithin hm' hi' n (a :: before) _ hs).outcome
        | @same a _ _ rest' hs hlength' =>
          exact (manyWithin n n' (a :: before) _ _ _ hs (by omega) (by omega)).imp id
            fun l hl => by omega

/-- A loop that begins with an item. -/
theorem many1 : Follows m True 1 (many1 more item) := by
  have hturns (a : α) : Follows m True 0
      (tokensLeft >>= fun n => Parser.manyWithin more item n [a]) := fun us s s' hs =>
    manyWithin hm hm' hi hi' _ _ [a] us s s' hs hs.length_lt.1 hs.length_lt.2
  have hturns' (a : α) : Ends m True
      (tokensLeft >>= fun n => Parser.manyWithin more item n [a]) := fun s hs =>
    Ends.manyWithin hm' hi' _ [a] s hs
  exact (hi []).bind_open hturns hturns'

end Loops

end Follows

end RecordSchema.Parser
