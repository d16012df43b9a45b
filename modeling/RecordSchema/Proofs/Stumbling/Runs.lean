import RecordSchema.Proofs.Suggestions.Rules

/-!
# Runs that stumble over a token

Two texts have the same tokens up to a place where the one has a token that no run can get past: a
number or width that does not fit, or a token that no rule has a use for. If the run over the other
text succeeds, that over the first one does the same up to this token and fails because of it.

An `Obstacle` is such a place, and `Stumbles` says so of a parser. In front of the token it `Tracks`
the run that succeeds. At the token it may be that the run that stumbles has answered a question the
other way than that one and goes on with another rule; it is then on its own, and `Stalls` says that
it cannot but fail or hand the token on.

Results:
* `Tracks.bind`, `Stumbles.bind`, `Stumbles.then`: one parser behind another.
* `Stumbles.of_gate`, `Stumbles.of_gated`: parsers that begin with one of some kinds or fail.
* `Stumbles.take`, `Stumbles.accept`, `Stumbles.canStart`: tokens.
* `Stumbles.many1`: loops.
-/

namespace RecordSchema

/-- The token is read as the width of a built-in type with the keyword `k` in front of it. -/
def Token.Widens (w k : Token) : Prop :=
  (Parser.builtinOf k.kind).takesWidth = true ∧ w.kind = .width ∧ w.offset = k.stop

namespace Parser

open State

variable {α β : Type}

/-! ## Obstacles -/

/-- No rule has a use for the left token, and to find it unexpected is what a run is blamed for. -/
structure Fork.Foreign (f : Fork) (blame : Cause → Prop) : Prop where
  kind : f.left.kind ≠ .number
  blame : ∀ kinds, blame (.unexpectedToken kinds f.left.kind f.left.offset f.left.length)

/-- A fork whose left token no run gets past, and the causes that a run is blamed for. -/
structure Obstacle extends Fork where
  blame : Cause → Prop
  strange : left.kind ∈ [TokenKind.number, .width, .unrecognised]
  foreign_or_alike : toFork.Foreign blame ∨ left.kind = right.kind
  large : left.kind = .number → integerLimit ≤ Text.decimalValue left.text.toList ∧
    blame (.invalidNumber left.text left.offset)

variable {o : Obstacle} {us rest : List Token} {s s' : State} {a : α} {s₁' : State}

namespace Obstacle

/-- The left token is foreign. -/
def Foreign (o : Obstacle) : Prop := o.toFork.Foreign o.blame

/-- What is known of the token in front of the fork. If the left token is read as its width, the
width is out of bounds, and the right one is read as a width at most then; nor does the right one
begin the values of a declared type. -/
structure Meets (o : Obstacle) (k : Token) : Prop where
  left : o.left.Widens k → ¬ (0 < Text.decimalValue (o.left.text.toList.drop 1) ∧
    Text.decimalValue (o.left.text.toList.drop 1) < widthLimit) ∧
      o.blame (.invalidNumber o.left.text o.left.offset)
  right : o.right.Widens k → o.left.Widens k
  values : o.right.kind = .leftSquare → k.kind ≠ .identifier

/-- The last of the tokens in front of the fork, if any, is as it has to be. -/
def Approached (o : Obstacle) (us : List Token) : Prop := ∀ k ∈ us.getLast?, o.Meets k

theorem Approached.suffix (h : o.Approached us) (hs : rest <:+ us) : o.Approached rest := by
  obtain ⟨used, rfl⟩ := hs
  intro k hk
  refine h k ?_
  rw [List.getLast?_append, Option.mem_def.mp hk]
  rfl

theorem not_endOfInput (o : Obstacle) : o.left.kind ≠ .endOfInput := by
  intro h
  have hstrange := o.strange
  rw [h] at hstrange
  exact absurd hstrange (by decide)

/-- Kinds without those of obstacles. -/
theorem notMem (o : Obstacle) {kinds : List TokenKind}
    (h : ∀ kind ∈ [TokenKind.number, .width, .unrecognised], kind ∉ kinds) :
    o.left.kind ∉ kinds :=
  h _ o.strange

/-- Of some kinds that may be left only that of numbers. -/
theorem number_of_mem (o : Obstacle) {kinds : List TokenKind} (hk : o.left.kind ∈ kinds)
    (h : .width ∉ kinds ∧ .unrecognised ∉ kinds) : o.left.kind = .number := by
  obtain ⟨hwidth, hunrecognised⟩ := h
  rcases List.mem_cons.mp o.strange with hkind | hkind
  · exact hkind
  · rcases List.mem_pair.mp hkind with hkind | hkind
    · exact absurd (hkind ▸ hk) hwidth
    · exact absurd (hkind ▸ hk) hunrecognised

theorem Foreign.notMem (hforeign : o.Foreign) {kinds : List TokenKind}
    (h : .width ∉ kinds ∧ .unrecognised ∉ kinds) : o.left.kind ∉ kinds :=
  fun hk => hforeign.kind (o.number_of_mem hk h)

/-- No rule begins with a foreign token. -/
theorem Foreign.notMem_first (hforeign : o.Foreign) (rule : Rule) : o.left.kind ∉ rule.first :=
  hforeign.notMem (by cases rule <;> decide)

end Obstacle

/-! ## Outcomes -/

/-- The run has failed because of the left token, or stands in front of it with an answer. -/
inductive Stumbled (o : Obstacle) (P : α → Prop) : EStateM.Result Fault State α → Prop
  | blamed {fault : Fault} {s : State} (h : o.blame fault.cause) : Stumbled o P (.error fault s)
  | stuck {a : α} {s : State} (hforeign : o.Foreign) (hs : s.current = o.left) (ha : P a) :
      Stumbled o P (.ok a s)

/-- The outcome of a run next to that of one that gives `a`. -/
inductive Course (o : Obstacle) (P : α → Prop) (us : List Token) (a : α) (s' : State) :
    EStateM.Result Fault State α → Prop
  /-- Both are in front of the fork. -/
  | same {s : State} {rest : List Token} (hs : s.Parted o.toFork rest s') (hsuffix : rest <:+ us) :
      Course o P us a s' (.ok a s)
  | stumbled {r : EStateM.Result Fault State α} (h : Stumbled o P r) : Course o P us a s' r

/-- At the left token the parser cannot but fail or hand it on. -/
def Stalls (o : Obstacle) (P : α → Prop) (x : Parser α) : Prop :=
  ∀ s : State, o.Foreign → s.current = o.left → Stumbled o P (x s)

/-- In front of the fork the parser does the same as where it succeeds, or stumbles. -/
structure Tracks (o : Obstacle) (P : α → Prop) (x : Parser α) : Prop where
  course : ∀ {us : List Token} {s s' : State} {a : α} {s₁' : State}, s.Parted o.toFork us s' →
    o.Approached us → x s' = .ok a s₁' → Course o P us a s₁' (x s)

/-- A parser that does not get past the left token. With an answer `a` that has `P a` it may hand it
on. -/
structure Stumbles (o : Obstacle) (P : α → Prop) (x : Parser α) : Prop where
  stalls : Stalls o P x
  tracks : Tracks o P x

/-- A parser that does not hand the left token on. -/
abbrev Trips (o : Obstacle) (x : Parser α) : Prop := Stumbles o (fun _ => False) x

variable {P : α → Prop} {Q : β → Prop} {r : EStateM.Result Fault State α}

theorem Stumbled.imp {P' : α → Prop} (h : Stumbled o P r) (hP : ∀ a, P a → P' a) :
    Stumbled o P' r := by
  cases h with
  | blamed h => exact .blamed h
  | stuck hforeign hs ha => exact .stuck hforeign hs (hP _ ha)

theorem Stumbled.bind {x : Parser α} {g : α → Parser β} (h : Stumbled o P (x s))
    (hg : ∀ a, P a → Stalls o Q (g a)) : Stumbled o Q ((x >>= g) s) := by
  show Stumbled o Q (EStateM.bind x g s)
  unfold EStateM.bind
  generalize x s = r at h ⊢
  cases h with
  | blamed h => exact .blamed h
  | stuck hforeign hs ha => exact hg _ ha _ hforeign hs

theorem Stumbled.unexpected {kinds : List TokenKind} {s₁ : State} (h : o.Foreign)
    (hs : s.current = o.left) : Stumbled o P (.error (s.unexpected kinds) s₁) :=
  .blamed (by rw [State.unexpected, hs]; exact h.blame kinds)

namespace Course

theorem suffix (h : Course o P rest a s₁' r) (hs : rest <:+ us) : Course o P us a s₁' r := by
  cases h with
  | same h hsuffix => exact .same h (hsuffix.trans hs)
  | stumbled h => exact .stumbled h

theorem imp {P' : α → Prop} (h : Course o P us a s₁' r) (hP : ∀ a, P a → P' a) :
    Course o P' us a s₁' r := by
  cases h with
  | same h hsuffix => exact .same h hsuffix
  | stumbled h => exact .stumbled (h.imp hP)

/-- **What comes behind** is left to show where both runs are in front of the fork. -/
theorem bind {x : Parser α} {g : α → Parser β} {b : β} {s₂' : State}
    (h : Course o P us a s₁' (x s))
    (hg : ∀ s₁ rest, x s = .ok a s₁ → s₁.Parted o.toFork rest s₁' → rest <:+ us →
      Course o Q us b s₂' (g a s₁))
    (hstalls : ∀ a, P a → Stalls o Q (g a)) : Course o Q us b s₂' ((x >>= g) s) := by
  generalize hrun : x s = r at h
  cases h with
  | same hs hsuffix =>
    rw [bind_of_ok hrun]
    exact hg _ _ hrun hs hsuffix
  | stumbled h => exact .stumbled (Stumbled.bind (hrun ▸ h) hstalls)

end Course

/-! ## Sequence and choice -/

namespace Tracks

/-- **One parser behind another.** What the first one hands on the second one has to deal with. -/
theorem bind {x : Parser α} {g : α → Parser β} (hx : Tracks o P x) (hg : ∀ a, Tracks o Q (g a))
    (hstalls : ∀ a, P a → Stalls o Q (g a)) : Tracks o Q (x >>= g) := by
  refine ⟨fun hs hus hrun => ?_⟩
  obtain ⟨a, s₁', hx', hg'⟩ := bind_ok.mp hrun
  refine (hx.course hs hus hx').bind (fun s₁ rest _ hs₁ hsuffix => ?_) hstalls
  exact ((hg a).course hs₁ (hus.suffix hsuffix) hg').suffix hsuffix

/-- Behind a parser that does not hand the left token on, what tracks is enough. -/
theorem next {x : Parser α} {g : α → Parser β} (hx : Tracks o (fun _ => False) x)
    (hg : ∀ a, Tracks o Q (g a)) : Tracks o Q (x >>= g) :=
  hx.bind hg fun _ => False.elim

theorem pure (a : α) : Tracks o P (pure a) := by
  refine ⟨fun hs _ hrun => ?_⟩
  obtain ⟨rfl, rfl⟩ := pure_ok.mp hrun
  exact .same hs (List.suffix_refl _)

/-- A parser that never succeeds. -/
theorem of_not_ok {x : Parser α} (h : ∀ s a s₁, x s ≠ .ok a s₁) : Tracks o P x :=
  ⟨fun _ _ hrun => absurd hrun (h _ _ _)⟩

theorem fail {cause : Cause} : Tracks o P (Parser.fail cause : Parser α) :=
  of_not_ok fun _ _ _ => fail_ok.mp

theorem wrongNode {rule : Rule} : Tracks o P (Parser.wrongNode rule : Parser α) :=
  of_not_ok fun _ _ _ => wrongNode_ok.mp

theorem failDeclaring {cause : Name → Cause} :
    Tracks o P (Parser.declaring >>= fun n => Parser.fail (cause n) : Parser α) := by
  refine of_not_ok fun s a s₁ hrun => ?_
  obtain ⟨n, s₂, -, hfail⟩ := bind_ok.mp hrun
  exact fail_ok.mp hfail

theorem ite {c : Prop} [Decidable c] {x y : Parser α} (hx : Tracks o P x) (hy : Tracks o P y) :
    Tracks o P (if c then x else y) := by
  split
  · exact hx
  · exact hy

theorem record {P : Unit → Prop} (event : Event) : Tracks o P (Parser.record event) := by
  refine ⟨fun hs _ hrun => ?_⟩
  obtain rfl := record_ok.mp hrun
  exact .same (hs.record event event) (List.suffix_refl _)

/-- What deals with names alone leaves the tokens as they are. -/
theorem nominal {x : Parser α} (h : Nominal x) : Tracks o P x := by
  refine ⟨fun {us s s' a s₁'} hs _ hrun => ?_⟩
  rcases h.outcome s with ⟨b, ns, hok⟩ | ⟨cause, -, hfail⟩
  · rw [hok s' hs.names] at hrun
    obtain ⟨rfl, rfl⟩ := EStateM.Result.ok.inj hrun
    rw [hok s rfl]
    exact .same (hs.withNames ns) (List.suffix_refl _)
  · rw [hfail s' hs.names] at hrun
    exact absurd hrun fail_ok.mp

end Tracks

theorem Stalls.bind {x : Parser α} {g : α → Parser β} (hx : Stalls o P x)
    (hg : ∀ a, P a → Stalls o Q (g a)) : Stalls o Q (x >>= g) :=
  fun s hforeign hs => (hx s hforeign hs).bind hg

/-- A parser that asks for one of some kinds, and not for that of a foreign token. -/
theorem Stalls.of_gate {gate : List TokenKind} {x : Parser α} (hgate : Gated gate x)
    (h : o.Foreign → o.left.kind ∉ gate) : Stalls o P x := by
  intro s hforeign hs
  obtain ⟨s₁, hrun⟩ := hgate s (hs ▸ h hforeign)
  rw [hrun]
  exact .unexpected hforeign hs

namespace Stumbles

theorem imp {P' : α → Prop} {x : Parser α} (h : Stumbles o P x) (hP : ∀ a, P a → P' a) :
    Stumbles o P' x :=
  ⟨fun s hforeign hs => (h.stalls s hforeign hs).imp hP,
    ⟨fun hs hus hrun => (h.tracks.course hs hus hrun).imp hP⟩⟩

/-- **One parser behind another.** -/
theorem bind {x : Parser α} {g : α → Parser β} (hx : Stumbles o P x)
    (hg : ∀ a, Stumbles o Q (g a)) : Stumbles o Q (x >>= g) :=
  ⟨hx.stalls.bind fun a _ => (hg a).stalls, hx.tracks.bind (fun a => (hg a).tracks)
    fun a _ => (hg a).stalls⟩

/-- Behind a parser that does not hand the left token on, what tracks is enough. -/
theorem next {x : Parser α} {g : α → Parser β} (hx : Trips o x) (hg : ∀ a, Tracks o Q (g a)) :
    Stumbles o Q (x >>= g) :=
  ⟨hx.stalls.bind fun _ => False.elim, hx.tracks.next hg⟩

/-- An answer that is handed on may be turned into another one. -/
theorem map {x : Parser α} {g : α → β} (hx : Stumbles o P x) (hPQ : ∀ a, P a → Q (g a)) :
    Stumbles o Q (x >>= fun a => Pure.pure (g a)) := by
  have hstalls (a : α) (ha : P a) : Stalls o Q (Pure.pure (g a)) :=
    fun s hforeign hs => .stuck hforeign hs (hPQ a ha)
  exact ⟨hx.stalls.bind hstalls, hx.tracks.bind (fun a => .pure (g a)) hstalls⟩

/-! ## Tokens -/

/-- **A parser that asks for one of the kinds in `gate` or fails** is left to show for tokens of one
kind. -/
theorem of_gate {gate : List TokenKind} {x : Parser α} (hgate : Gated gate x)
    (hforeign : o.Foreign → o.left.kind ∉ gate)
    (h : ∀ {us : List Token} {s s' : State} {a : α} {s₁' : State}, s.Parted o.toFork us s' →
      o.Approached us → s.current.kind = s'.current.kind → s'.current.kind ∈ gate →
      x s' = .ok a s₁' → Course o P us a s₁' (x s)) : Stumbles o P x := by
  have hstalls : Stalls o P x := .of_gate hgate hforeign
  refine ⟨hstalls, ⟨fun {us s s' a s₁'} hs hus hrun => ?_⟩⟩
  have hmem : s'.current.kind ∈ gate := by
    by_contra hnot
    obtain ⟨s₂, herror⟩ := hgate s' hnot
    rw [herror] at hrun
    cases hrun
  cases us with
  | cons u us => exact h hs hus (by rw [hs.current.1, hs.current.2]) hmem hrun
  | nil =>
    rcases o.foreign_or_alike with hf | halike
    · exact .stumbled (hstalls s hf hs.atFork.1)
    · exact h hs hus (by rw [hs.atFork.1, hs.atFork.2, halike]) hmem hrun

/-- **A parser that begins with one of some kinds**, none of them that of an obstacle, is left to
show in front of the fork. -/
theorem of_gated {gate : List TokenKind} {x : Parser α}
    (hkinds : ∀ kind ∈ [TokenKind.number, .width, .unrecognised], kind ∉ gate)
    (hgate : Gated gate x)
    (h : ∀ {u : Token} {us : List Token} {s s' : State} {a : α} {s₁' : State},
      s.Parted o.toFork (u :: us) s' → o.Approached (u :: us) → u.kind ∈ gate →
      x s' = .ok a s₁' → Course o P (u :: us) a s₁' (x s)) : Stumbles o P x := by
  refine of_gate hgate (fun _ => o.notMem hkinds) fun {us s s' a s₁'} hs hus halike hmem hrun => ?_
  cases us with
  | nil => exact absurd (halike ▸ hmem) (hs.atFork.1 ▸ o.notMem hkinds)
  | cons u us => exact h hs hus (hs.current.2 ▸ hmem) hrun

/-- A token of one of the kinds is taken. -/
theorem take {kinds : List TokenKind}
    (hkinds : ∀ kind ∈ [TokenKind.number, .width, .unrecognised], kind ∉ kinds) :
    Trips o (Parser.take kinds) := by
  refine of_gated hkinds (.take kinds) fun {u us s s' t s₁'} hs _ hu hrun => ?_
  obtain ⟨-, rfl, rfl⟩ := take_ok.mp hrun
  obtain ⟨hcurrent, hcurrent'⟩ := hs.current
  have hok : Parser.take kinds s = .ok s'.current s.skip :=
    take_ok.mpr ⟨hcurrent ▸ hu, by rw [hcurrent, hcurrent'], rfl⟩
  rw [hok]
  exact .same hs.skip (List.suffix_cons _ _)

theorem name : Trips o Parser.name := (take (by decide)).next fun _ => .pure _

/-- A token of the kind is taken, and an obstacle is handed on. -/
theorem accept {kind : TokenKind}
    (hkind : ∀ other ∈ [TokenKind.number, .width, .unrecognised], other ≠ kind) :
    Stumbles o (fun answer => answer = false) (Parser.accept kind) := by
  have hno {s : State} (hs : s.current.kind ≠ kind) :
      Parser.accept kind s = .ok false s.passComments :=
    accept_ok.mpr (.inr ⟨hs, rfl, rfl⟩)
  have hleft : o.left.kind ≠ kind := hkind _ o.strange
  refine ⟨fun s hforeign hs => ?_, ⟨fun {us s s' a s₁'} hs _ hrun => ?_⟩⟩
  · rw [hno (hs ▸ hleft)]
    exact .stuck hforeign hs rfl
  · cases us with
    | nil =>
      obtain ⟨hcurrent, hcurrent'⟩ := hs.atFork
      rw [hno (hcurrent ▸ hleft)]
      rcases o.foreign_or_alike with hforeign | halike
      · exact .stumbled (.stuck hforeign hcurrent rfl)
      · rw [hno (hcurrent' ▸ halike ▸ hleft)] at hrun
        obtain ⟨rfl, rfl⟩ := EStateM.Result.ok.inj hrun
        exact .same hs.passComments (List.suffix_refl _)
    | cons u us =>
      obtain ⟨hcurrent, hcurrent'⟩ := hs.current
      rcases accept_ok.mp hrun with ⟨hk, rfl, rfl⟩ | ⟨hk, rfl, rfl⟩
      · rw [accept_ok.mpr (.inl ⟨hcurrent ▸ hcurrent' ▸ hk, rfl, rfl⟩)]
        exact .same hs.skip (List.suffix_cons _ _)
      · rw [hno (hcurrent ▸ hcurrent' ▸ hk)]
        exact .same hs.passComments (List.suffix_refl _)

/-- An answer that depends on the kind of the current token. -/
theorem look_pure {h : TokenKind → α} (hP : o.Foreign → P (h o.left.kind)) :
    Stumbles o P (Parser.look >>= fun t => Pure.pure (h t.kind)) := by
  have hok (s : State) : (Parser.look >>= fun t => Pure.pure (h t.kind)) s =
      .ok (h s.current.kind) s.passComments := rfl
  refine ⟨fun s hforeign hs => ?_, ⟨fun {us s s' a s₁'} hs _ hrun => ?_⟩⟩
  · rw [hok]
    exact .stuck hforeign hs (hs ▸ hP hforeign)
  · have hsame (heq : s.current.kind = s'.current.kind) : Course o P us a s₁'
        (.ok (h s.current.kind) s.passComments) := by
      rw [hok] at hrun
      obtain ⟨rfl, rfl⟩ := EStateM.Result.ok.inj hrun
      rw [heq]
      exact .same hs.passComments (List.suffix_refl _)
    rw [hok]
    cases us with
    | nil =>
      obtain ⟨hcurrent, hcurrent'⟩ := hs.atFork
      rcases o.foreign_or_alike with hforeign | halike
      · exact .stumbled (.stuck hforeign hcurrent (hcurrent ▸ hP hforeign))
      · exact hsame (by rw [hcurrent, hcurrent', halike])
    | cons u us => exact hsame (by rw [hs.current.1, hs.current.2])

/-- No rule can begin with an obstacle that is handed on. -/
theorem canStart (rule : Rule) :
    Stumbles o (fun answer => answer = false) (Parser.canStart rule) :=
  look_pure fun hforeign => decide_eq_false (hforeign.notMem_first rule)

/-- Looking at the current token in front of what asks for one of some kinds. -/
theorem look_bind {x : Token → Parser α} {gate : List TokenKind}
    (hkinds : ∀ kind ∈ [TokenKind.number, .width, .unrecognised], kind ∉ gate)
    (hgate : ∀ t, Gated gate (x t)) (hx : ∀ t, Tracks o P (x t)) :
    Stumbles o P (Parser.look >>= x) := by
  have hlook (s : State) : (Parser.look >>= x) s = x s.current s.passComments := rfl
  refine of_gated hkinds (fun s hk => hgate s.current s.passComments hk)
    fun {u us s s' a s₁'} hs hus _ hrun => ?_
  rw [hlook, hs.current.2] at hrun
  rw [hlook, hs.current.1]
  exact (hx u).course hs.passComments hus hrun

/-- One of two parsers, by an answer that hands an obstacle on only if it is no. -/
theorem choose {x : Parser Bool} {y z : Parser α}
    (hx : Stumbles o (fun answer => answer = false) x) (hy : Tracks o P y) (hz : Stumbles o P z) :
    Stumbles o P (x >>= fun answer => if answer = true then y else z) := by
  have hstalls (answer : Bool) (h : answer = false) :
      Stalls o P (if answer = true then y else z) := by
    rw [if_neg (by rw [h]; decide)]
    exact hz.stalls
  exact ⟨hx.stalls.bind hstalls, hx.tracks.bind (fun _ => hy.ite hz.tracks) hstalls⟩

/-! ## Loops -/

section Loops

variable {more : Parser Bool} {item : List α → Parser α} {R : Bool → Prop} {S : Prop}

/-- At the left token a loop asks whether to go on, and stops or reads an item. -/
theorem manyWithin_stalls (hm : Stumbles o R more) (hno : R false → S)
    (hi : ∀ before, Stumbles o (fun _ => S) (item before)) : ∀ (n : Nat) (before : List α),
      0 < n ∨ S → Stalls o (fun _ => S) (Parser.manyWithin more item n before)
  | 0, before, h => fun s hforeign hs => .stuck hforeign hs (h.resolve_left (Nat.lt_irrefl 0))
  | n + 1, before, _ => by
    refine hm.stalls.bind fun answer hanswer => ?_
    cases answer with
    | false => exact fun s hforeign hs => .stuck hforeign hs (hno hanswer)
    | true =>
      exact (hi before).stalls.bind fun a hS =>
        manyWithin_stalls hm hno hi n (a :: before) (.inr hS)

variable {kinds : List TokenKind} (hm : Stumbles o R more) (hno : R false → S)
  (hi : ∀ before, Stumbles o (fun _ => S) (item before))
  (hd : ∀ before, Decides o.toFork kinds (item before))
  (hgate : ∀ before, Gated kinds (item before))

include hm hno hi hd hgate

/-- **The turns of a loop** stumble as its items do. Neither run may end for want of turns before
the tokens in front of the fork are taken. -/
theorem manyWithin : ∀ (n n' : Nat) (before as : List α) (us : List Token) (s s' s₁' : State),
    s.Parted o.toFork us s' → o.Approached us → us.length < n → us.length < n' →
      Parser.manyWithin more item n' before s' = .ok as s₁' →
        Course o (fun _ => S) us as s₁' (Parser.manyWithin more item n before s)
  | 0, _, _, _, _, _, _, _, _, _, hn, _, _ => absurd hn (Nat.not_lt_zero _)
  | _ + 1, 0, _, _, _, _, _, _, _, _, _, hn', _ => absurd hn' (Nat.not_lt_zero _)
  | n + 1, n' + 1, before, as, us, s, s', s₁', hs, hus, hn, hn', hrun => by
    obtain ⟨answer, s₂', hanswer, hrun⟩ := bind_ok.mp hrun
    refine (hm.tracks.course hs hus hanswer).bind ?_ fun answer hR => ?_
    · intro s₂ rest _ hs₂ hsuffix
      have hrest := hus.suffix hsuffix
      cases answer with
      | false =>
        obtain ⟨rfl, rfl⟩ := pure_ok.mp hrun
        exact .same hs₂ hsuffix
      | true =>
        obtain ⟨a, s₃', hitem, hrun⟩ := bind_ok.mp hrun
        refine Course.suffix ?_ hsuffix
        refine ((hi before).tracks.course hs₂ hrest hitem).bind ?_ fun a hS =>
          manyWithin_stalls hm hno hi n (a :: before) (.inr hS)
        intro s₃ rest' hitem' hs₃ hsuffix'
        -- the item took a token in front of the fork, so that turns are left for the others
        have hshorter := Awaits.item_shorter (hd before) (hgate before) hs₂ hitem' hs₃ hsuffix'
        have hle := hsuffix.length_le
        exact (manyWithin n n' (a :: before) as rest' s₃ s₃' s₁' hs₃ (hrest.suffix hsuffix')
          (by omega) (by omega) hrun).suffix hsuffix'
    · cases answer with
      | false => exact fun s hforeign hs => .stuck hforeign hs (hno hR)
      | true =>
        exact (hi before).stalls.bind fun a hS =>
          manyWithin_stalls hm hno hi n (a :: before) (.inr hS)

/-- The turns of a loop, as many as there are tokens. -/
theorem turns (before : List α) : Stumbles o (fun _ => S)
    (tokensLeft >>= fun n => Parser.manyWithin more item n before) := by
  refine ⟨fun s hforeign hs => ?_, ⟨fun {us s s' as s₁'} hs hus hrun => ?_⟩⟩
  · exact manyWithin_stalls hm hno hi _ before (.inl (Nat.succ_pos _)) s hforeign hs
  · exact manyWithin hm hno hi hd hgate _ _ before as us s s' s₁' hs hus hs.length_lt.1
      hs.length_lt.2 hrun

/-- **A loop that begins with an item** stumbles as its items do. -/
theorem many1 : Stumbles o (fun _ => S) (Parser.many1 more item) :=
  (hi []).bind fun a => turns hm hno hi hd hgate [a]

end Loops

end Stumbles

end Parser

end RecordSchema
