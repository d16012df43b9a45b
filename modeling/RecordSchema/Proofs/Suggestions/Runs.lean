import RecordSchema.Proofs.Appending.Runs
import RecordSchema.Proofs.Positions

/-!
# Runs that part at a token

Two texts have the same tokens up to a place where the one has `left` and the other `right`. Runs
over them do the same until one of them decides about the token there. Either it takes the token,
and from then on whatever it finds unexpected stands behind, or it refuses it and tells what is
expected. If `right` is among that, the second run must not refuse it there.

`Awaits` says so of a parser. A parser that is at the fork and has asked about the token but not
taken it may wait with an answer, and what comes behind it takes the token: `kinds` is what a parser
is committed to take. `Decides` is the usual case, of parsers that do not wait.

Results:
* `Verdict.bind`: what is left to show of two runs behind a first part.
* `Awaits.bind`, `Decides.bind`: one parser behind another.
* `Awaits.of_gate`, `Awaits.of_gated`: parsers that begin with one of some kinds or fail.
* `Awaits.skipIf`, `Awaits.accept_bind`, `Awaits.canStart_bind`: choices.
-/

namespace RecordSchema

/-- A token behind another one. -/
def Token.Past (t u : Token) : Prop := t.offset < u.offset

namespace Parser

open State

variable {α β : Type} {s s' : State}

/-! ## Settled runs -/

/-- The cause tells what is expected in place of some token `t` with `p t`, if it tells such a thing
at all: at least one kind, each once, and not that of the token. -/
def Suggests (p : Token → Prop) (c : Cause) : Prop :=
  ∀ kinds got offset length, c = .unexpectedToken kinds got offset length →
    kinds ≠ [] ∧ kinds.Nodup ∧
      ∃ t, p t ∧ got = t.kind ∧ offset = t.offset ∧ length = t.length ∧ t.kind ∉ kinds

/-- A run that has only tokens with `p` ahead, or has found one of them to be unexpected. -/
inductive Settles (p : Token → Prop) : EStateM.Result Fault State α → Prop
  | ok {a : α} {s : State} (h : ∀ t ∈ s.stream, p t) : Settles p (.ok a s)
  | error {fault : Fault} {s : State} (h : Suggests p fault.cause) : Settles p (.error fault s)

/-- Behind a part that is settled the run stays so, if the other part sees to that. -/
theorem Settles.bind {p : Token → Prop} {x : Parser α} {g : α → Parser β} (h : Settles p (x s))
    (hg : ∀ a s₁, (∀ t ∈ s₁.stream, p t) → Settles p (g a s₁)) : Settles p ((x >>= g) s) := by
  show Settles p (EStateM.bind x g s)
  unfold EStateM.bind
  generalize x s = r at h ⊢
  cases h with
  | ok hs => exact hg _ _ hs
  | error h => exact .error h

theorem Settles.current {p : Token → Prop} (h : ∀ t ∈ s.stream, p t) : p s.current :=
  h s.current List.mem_cons_self

theorem passComments_all {p : Token → Prop} (h : ∀ t ∈ s.stream, p t) :
    ∀ t ∈ s.passComments.stream, p t := by
  rwa [stream_passComments]

theorem skip_all {p : Token → Prop} (h : ∀ t ∈ s.stream, p t) : ∀ t ∈ s.skip.stream, p t := by
  show ∀ t ∈ s.passComments.lexemes.advance.stream, p t
  rw [Lexemes.stream_advance]
  split
  · exact passComments_all h
  · exact fun t ht => passComments_all h t (List.mem_of_mem_tail ht)

/-- The fault of an unexpected token. -/
theorem Settles.unexpected {p : Token → Prop} {kinds : List TokenKind} {s₁ : State}
    (hne : kinds ≠ []) (hnodup : kinds.Nodup) (hp : p s.current) (hk : s.current.kind ∉ kinds) :
    Settles p (.error (s.unexpected kinds) s₁ : EStateM.Result Fault State α) := by
  refine .error fun expected got offset length h => ?_
  obtain ⟨rfl, rfl, rfl, rfl⟩ := Cause.unexpectedToken.inj h
  exact ⟨hne, hnodup, s.current, hp, rfl, rfl, rfl, hk⟩

theorem Other.suggests {c : Cause} (h : Other c) (p : Token → Prop) : Suggests p c :=
  fun kinds got offset length hc => absurd hc (h kinds got offset length)

theorem Settles.fail {p : Token → Prop} {cause : Cause} (h : Other cause) :
    Settles p (Parser.fail cause s : EStateM.Result Fault State α) :=
  .error (h.suggests p)

/-! ## States -/

/-- The tokens ahead stand in order, the end of input last. -/
structure State.Ordered (s : State) : Prop where
  closed : s.Closed
  increasing : s.stream.Pairwise Token.Past

namespace State

theorem Ordered.passComments (h : s.Ordered) : s.passComments.Ordered :=
  ⟨h.closed.passComments, by rw [stream_passComments]; exact h.increasing⟩

theorem Ordered.stream_eq (h : s.Ordered) (hk : s.current.kind ≠ .endOfInput) :
    s.stream = s.current :: s.skip.stream :=
  (Takes.skip h.closed hk).stream

/-- Behind the current token the others are still in order. -/
theorem Ordered.skip (h : s.Ordered) (hk : s.current.kind ≠ .endOfInput) : s.skip.Ordered := by
  have hincreasing := h.increasing
  rw [h.stream_eq hk] at hincreasing
  exact ⟨(Takes.skip h.closed hk).closed, (List.pairwise_cons.mp hincreasing).2⟩

/-- Behind the current token all others stand past it. -/
theorem Ordered.skip_past (h : s.Ordered) (hk : s.current.kind ≠ .endOfInput) :
    ∀ t ∈ s.skip.stream, Token.Past s.current t := by
  have hincreasing := h.increasing
  rw [h.stream_eq hk] at hincreasing
  exact (List.pairwise_cons.mp hincreasing).1

end State

/-- The tokens at which two texts part. -/
structure Fork where
  left : Token
  right : Token

variable {f : Fork} {us : List Token}

/-- The tokens `us` are ahead in both states, and behind them those of the fork. All else that a
parser depends on is the same. -/
structure State.Parted (f : Fork) (us : List Token) (s s' : State) : Prop where
  left : ∃ ts, s.stream = us ++ f.left :: ts
  right : ∃ ts, s'.stream = us ++ f.right :: ts
  ordered : s.Ordered
  ordered' : s'.Ordered
  scope : s'.scope = s.scope
  types : s'.types = s.types
  declaring : s'.declaring = s.declaring
  depth : s'.depth = s.depth

namespace State.Parted

theorem current {u : Token} (h : s.Parted f (u :: us) s') : s.current = u ∧ s'.current = u := by
  obtain ⟨⟨_, hs⟩, ⟨_, hs'⟩⟩ := And.intro h.left h.right
  exact ⟨current_of_stream hs, current_of_stream hs'⟩

theorem atFork (h : s.Parted f [] s') : s.current = f.left ∧ s'.current = f.right := by
  obtain ⟨⟨_, hs⟩, ⟨_, hs'⟩⟩ := And.intro h.left h.right
  exact ⟨current_of_stream hs, current_of_stream hs'⟩

/-- What stands in front of the fork is not the end of input. -/
theorem inner {u : Token} (h : s.Parted f (u :: us) s') : u.kind ≠ .endOfInput := by
  intro he
  obtain ⟨ts, hs⟩ := h.left
  have htokens : s.tokens = [] := h.ordered.closed.current_iff.mp (by rw [h.current.1, he])
  rw [State.stream_eq, htokens] at hs
  simp at hs

/-- What stands in front of the fork stands in front of its left token. -/
theorem past {u : Token} (h : s.Parted f (u :: us) s') : Token.Past u f.left := by
  obtain ⟨ts, hs⟩ := h.left
  have hincreasing := h.ordered.increasing
  rw [hs, List.cons_append] at hincreasing
  exact (List.pairwise_cons.mp hincreasing).1 f.left (by simp)

theorem passComments (h : s.Parted f us s') : s.passComments.Parted f us s'.passComments :=
  ⟨by rw [stream_passComments]; exact h.left, by rw [stream_passComments]; exact h.right,
    h.ordered.passComments, h.ordered'.passComments, h.scope, h.types, h.declaring, h.depth⟩

theorem skip {u : Token} (h : s.Parted f (u :: us) s') : s.skip.Parted f us s'.skip := by
  obtain ⟨hcurrent, hcurrent'⟩ := h.current
  have hk : s.current.kind ≠ .endOfInput := hcurrent ▸ h.inner
  have hk' : s'.current.kind ≠ .endOfInput := hcurrent' ▸ h.inner
  obtain ⟨⟨ts, hs⟩, ⟨ts', hs'⟩⟩ := And.intro h.left h.right
  rw [h.ordered.stream_eq hk] at hs
  rw [h.ordered'.stream_eq hk'] at hs'
  exact ⟨⟨ts, (List.cons.inj hs).2⟩, ⟨ts', (List.cons.inj hs').2⟩, h.ordered.skip hk,
    h.ordered'.skip hk', h.scope, h.types, h.declaring, h.depth⟩

theorem names (h : s.Parted f us s') : s'.names = s.names := by
  rw [State.names, State.names, h.scope, h.types, h.declaring]

theorem withNames (h : s.Parted f us s') (ns : Names) :
    (s.withNames ns).Parted f us (s'.withNames ns) :=
  ⟨h.left, h.right, ⟨h.ordered.closed, h.ordered.increasing⟩,
    ⟨h.ordered'.closed, h.ordered'.increasing⟩, rfl, rfl, rfl, h.depth⟩

theorem withDepth (h : s.Parted f us s') {n n' : Nat} (hn : n' = n) :
    State.Parted f us { s with depth := n } { s' with depth := n' } :=
  ⟨h.left, h.right, ⟨h.ordered.closed, h.ordered.increasing⟩,
    ⟨h.ordered'.closed, h.ordered'.increasing⟩, h.scope, h.types, h.declaring, hn⟩

theorem record (h : s.Parted f us s') (event event' : Event) :
    (s.record event).Parted f us (s'.record event') :=
  ⟨h.left, h.right, ⟨h.ordered.closed, h.ordered.increasing⟩,
    ⟨h.ordered'.closed, h.ordered'.increasing⟩, h.scope, h.types, h.declaring, h.depth⟩

/-- There are more lexemes than tokens in front of the fork. -/
theorem length_lt (h : s.Parted f us s') : us.length < s.lexemes.later.length + 1 ∧
    us.length < s'.lexemes.later.length + 1 := by
  have hlength (s : State) : s.stream.length = s.lexemes.later.length + 1 := by
    simp [State.stream, Lexemes.stream, Lexemes.toList]
  obtain ⟨⟨ts, hs⟩, ⟨ts', hs'⟩⟩ := And.intro h.left h.right
  rw [← hlength s, ← hlength s', hs, hs']
  simp only [List.length_append, List.length_cons]
  omega

end State.Parted

/-! ## Pairs of runs -/

/-- The outcomes of two runs in front of a fork. -/
inductive Verdict (f : Fork) (P : α → TokenKind → Prop) (us : List Token) :
    EStateM.Result Fault State α → EStateM.Result Fault State α → Prop
  /-- Both are in front of the fork. -/
  | same {a : α} {s s' : State} {rest : List Token} (hs : s.Parted f rest s')
      (hsuffix : rest <:+ us) : Verdict f P us (.ok a s) (.ok a s')
  /-- The first one has taken the token. -/
  | left {r r' : EStateM.Result Fault State α} (h : Settles (Token.Past f.left) r) :
      Verdict f P us r r'
  /-- The second one has taken the token. -/
  | right {r r' : EStateM.Result Fault State α} (h : Settles (Token.Past f.right) r') :
      Verdict f P us r r'
  /-- The first one waits at the fork. -/
  | waitsLeft {a : α} {s : State} {r' : EStateM.Result Fault State α} (hs : s.Ordered)
      (hcurrent : s.current = f.left) (hP : P a f.left.kind) : Verdict f P us (.ok a s) r'
  /-- The second one waits at the fork. -/
  | waitsRight {a : α} {s' : State} {r : EStateM.Result Fault State α} (hs : s'.Ordered)
      (hcurrent : s'.current = f.right) (hP : P a f.right.kind) : Verdict f P us r (.ok a s')
  /-- The first one fails, but not for the token at the fork. -/
  | elsewhere {fault : Fault} {s : State} {r' : EStateM.Result Fault State α}
      (h : ∀ kinds got offset length, fault.cause = .unexpectedToken kinds got offset length →
        offset ≠ f.left.offset) : Verdict f P us (.error fault s) r'
  /-- The first one refuses the token, and expects none like that of the second. -/
  | refused {kinds : List TokenKind} {got : TokenKind} {offset length : Nat} {fault : Fault}
      {s : State} {r' : EStateM.Result Fault State α}
      (h : fault.cause = .unexpectedToken kinds got offset length)
      (hright : f.right.kind ∉ kinds) : Verdict f P us (.error fault s) r'

/-- In front of the fork a parser does the same in two runs, or one of them decides about the token
there. It takes what it begins with if that is of one of the kinds. -/
structure Awaits (f : Fork) (P : α → TokenKind → Prop) (kinds : List TokenKind) (x : Parser α) :
    Prop where
  onward : ∀ {p : Token → Prop} {s : State}, (∀ t ∈ s.stream, p t) → Settles p (x s)
  commits : ∀ {s : State}, s.Ordered → s.current.kind ∈ kinds →
    Settles (Token.Past s.current) (x s)
  parts : ∀ {us : List Token} {s s' : State}, s.Parted f us s' → Verdict f P us (x s) (x s')

/-- A parser that does not wait. -/
abbrev Decides (f : Fork) (kinds : List TokenKind) (x : Parser α) : Prop :=
  Awaits f (fun _ _ => False) kinds x

/-- Where it cannot begin, the parser expects these kinds. -/
def Gated (kinds : List TokenKind) (x : Parser α) : Prop :=
  ∀ s, s.current.kind ∉ kinds → ∃ s₁, x s = .error (s.unexpected kinds) s₁

namespace Gated

variable {kinds : List TokenKind}

theorem bind {x : Parser α} (h : Gated kinds x) (g : α → Parser β) : Gated kinds (x >>= g) := by
  intro s hk
  obtain ⟨s₁, hrun⟩ := h s hk
  exact ⟨s₁, bind_of_error hrun⟩

theorem take (kinds : List TokenKind) : Gated kinds (Parser.take kinds) :=
  fun _ hk => ⟨_, take_of_notMem hk⟩

theorem name : Gated [.identifier] Parser.name := (take _).bind _

end Gated

namespace Verdict

variable {P Q : α → TokenKind → Prop} {vs : List Token} {r r' : EStateM.Result Fault State α}

/-- The tokens in front may be a part of others, and more may be waited for. -/
theorem imp (h : Verdict f P us r r') (hsuffix : us <:+ vs) (hPQ : ∀ a kind, P a kind → Q a kind) :
    Verdict f Q vs r r' := by
  cases h with
  | same hs hrest => exact .same hs (hrest.trans hsuffix)
  | left h => exact .left h
  | right h => exact .right h
  | waitsLeft hs hcurrent hP => exact .waitsLeft hs hcurrent (hPQ _ _ hP)
  | waitsRight hs hcurrent hP => exact .waitsRight hs hcurrent (hPQ _ _ hP)
  | elsewhere h => exact .elsewhere h
  | refused h hright => exact .refused h hright

/-- A token in front of the fork is unexpected. -/
theorem of_unexpected {u : Token} {kinds : List TokenKind} {s₁ : State}
    (h : s.Parted f (u :: us) s') : Verdict f P vs (.error (s.unexpected kinds) s₁) r' := by
  refine .elsewhere fun expected got offset length hcause => ?_
  obtain ⟨-, -, rfl, -⟩ := Cause.unexpectedToken.inj hcause
  have hpast : u.offset < f.left.offset := h.past
  rw [h.current.1]
  exact Nat.ne_of_lt hpast

theorem of_other {fault : Fault} {s₁ : State} (h : Other fault.cause) :
    Verdict f P us (.error fault s₁) r' :=
  .elsewhere fun kinds got offset length hcause => absurd hcause (h kinds got offset length)

/-- **What comes behind** is left to show where both runs are in front of the fork, and where one of
them waits. -/
theorem bind {R : β → TokenKind → Prop} {x : Parser α} {g g' : α → Parser β}
    (h : Verdict f P us (x s) (x s'))
    (hg : ∀ {p : Token → Prop} a s₁, (∀ t ∈ s₁.stream, p t) → Settles p (g a s₁))
    (hg' : ∀ {p : Token → Prop} a s₁, (∀ t ∈ s₁.stream, p t) → Settles p (g' a s₁))
    (hsame : ∀ a s₁ s₁' rest, x s = .ok a s₁ → s₁.Parted f rest s₁' → rest <:+ us →
      Verdict f R us (g a s₁) (g' a s₁'))
    (hleft : ∀ a s₁ r', s₁.Ordered → s₁.current = f.left → P a f.left.kind →
      Verdict f R us (g a s₁) r')
    (hright : ∀ a s₁ r, s₁.Ordered → s₁.current = f.right → P a f.right.kind →
      Verdict f R us r (g' a s₁)) :
    Verdict f R us ((x >>= g) s) ((x >>= g') s') := by
  have hsettled : Settles (Token.Past f.left) (x s) → Settles (Token.Past f.left) ((x >>= g) s) :=
    fun h => h.bind hg
  have hsettled' : Settles (Token.Past f.right) (x s') →
      Settles (Token.Past f.right) ((x >>= g') s') := fun h => h.bind hg'
  change _ → Settles _ (EStateM.bind x g s) at hsettled
  change _ → Settles _ (EStateM.bind x g' s') at hsettled'
  show Verdict f R us (EStateM.bind x g s) (EStateM.bind x g' s')
  unfold EStateM.bind at hsettled hsettled' ⊢
  generalize hrun : x s = r at h hsettled ⊢
  generalize x s' = r' at h hsettled' ⊢
  cases h with
  | same hs hsuffix => exact hsame _ _ _ _ hrun hs hsuffix
  | left h => exact .left (hsettled h)
  | right h => exact .right (hsettled' h)
  | waitsLeft hs hcurrent hP => exact hleft _ _ _ hs hcurrent hP
  | waitsRight hs hcurrent hP => exact hright _ _ _ hs hcurrent hP
  | elsewhere h => exact .elsewhere h
  | refused h hright => exact .refused h hright

end Verdict

/-! ## Sequence and choice -/

namespace Awaits

variable {P : α → TokenKind → Prop} {R : β → TokenKind → Prop} {kinds : List TokenKind}

/-- **One parser behind another.** What the first one may wait for the second one takes. -/
theorem bind {x : Parser α} {g : α → Parser β} {l : α → List TokenKind}
    (hx : Awaits f P kinds x) (hg : ∀ a, Awaits f R (l a) (g a))
    (htakes : ∀ a kind, P a kind → kind ∈ l a) : Awaits f R kinds (x >>= g) := by
  refine ⟨fun hs => (hx.onward hs).bind fun a _ => (hg a).onward,
    fun hs hk => (hx.commits hs hk).bind fun a _ => (hg a).onward, fun {us s s'} hs => ?_⟩
  refine (hx.parts hs).bind (fun a _ => (hg a).onward) (fun a _ => (hg a).onward) ?_ ?_ ?_
  · exact fun a s₁ s₁' rest _ hs hsuffix => ((hg a).parts hs).imp hsuffix fun _ _ => id
  · exact fun a s₁ r' hs hcurrent hP =>
      .left (hcurrent ▸ (hg a).commits hs (hcurrent ▸ htakes _ _ hP))
  · exact fun a s₁ r hs hcurrent hP =>
      .right (hcurrent ▸ (hg a).commits hs (hcurrent ▸ htakes _ _ hP))

/-- An answer that is waited for may be turned into another one. -/
theorem map {x : Parser α} {g : α → β} (hx : Awaits f P kinds x)
    (hPR : ∀ a kind, P a kind → R (g a) kind) :
    Awaits f R kinds (x >>= fun a => Pure.pure (g a)) := by
  refine ⟨fun hs => (hx.onward hs).bind fun _ _ => .ok,
    fun hs hk => (hx.commits hs hk).bind fun _ _ => .ok, fun {us s s'} hs => ?_⟩
  refine (hx.parts hs).bind (fun _ _ => .ok) (fun _ _ => .ok) ?_ ?_ ?_
  · exact fun a s₁ s₁' rest _ hs hsuffix => .same hs hsuffix
  · exact fun a s₁ r' hs hcurrent hP => .waitsLeft hs hcurrent (hPR _ _ hP)
  · exact fun a s₁ r hs hcurrent hP => .waitsRight hs hcurrent (hPR _ _ hP)

theorem ite {c : Prop} [Decidable c] {x y : Parser α} (hx : Awaits f P kinds x)
    (hy : Awaits f P kinds y) : Awaits f P kinds (if c then x else y) := by
  split
  · exact hx
  · exact hy

theorem pure (a : α) : Awaits f P [] (pure a) :=
  ⟨.ok, fun _ hk => absurd hk List.not_mem_nil, fun hs => .same hs (List.suffix_refl _)⟩

/-- A parser that always fails for another reason than an unexpected token. -/
theorem fault {x : Parser α} (h : ∀ s, ∃ fault s₁, x s = .error fault s₁ ∧ Other fault.cause) :
    Awaits f P kinds x := by
  have hsettled (p : Token → Prop) (s : State) : Settles p (x s) := by
    obtain ⟨fault, s₁, hrun, hother⟩ := h s
    rw [hrun]
    exact .error (hother.suggests p)
  refine ⟨fun _ => hsettled _ _, fun _ _ => hsettled _ _, fun {us s s'} _ => ?_⟩
  obtain ⟨fault, s₁, hrun, hother⟩ := h s
  rw [hrun]
  exact .of_other hother

theorem fail {cause : Cause} (h : Other cause) : Awaits f P kinds (Parser.fail cause : Parser α) :=
  fault fun _ => ⟨_, _, rfl, h⟩

theorem wrongNode (rule : Rule) : Awaits f P kinds (Parser.wrongNode rule : Parser α) :=
  fault fun _ => ⟨_, _, rfl, nofun⟩

theorem failDeclaring {cause : Name → Cause} (h : ∀ n, Other (cause n)) :
    Awaits f P kinds (Parser.declaring >>= fun n => Parser.fail (cause n) : Parser α) :=
  fault fun _ => ⟨_, _, rfl, h _⟩

/-! ## Tokens -/

/-- A parser that takes the current token under a condition, and else does something else. -/
theorem skipIf {c : Token → Prop} [DecidablePred c] {x : Token → Parser α} {y : Parser α}
    {first : List TokenKind} (l : Token → List TokenKind)
    (hc : ∀ t, c t → t.kind ≠ .endOfInput) (hfirst : ∀ t, t.kind ∈ first → c t ∨ t.kind ∈ kinds)
    (hx : ∀ t, Awaits f P (l t) (x t)) (hy : Awaits f P kinds y) :
    Awaits f P first (Parser.look >>= fun t =>
      if c t then Parser.advance >>= fun _ => x t else y) := by
  have hyes {s : State} (h : c s.current) : (Parser.look >>= fun t =>
      if c t then Parser.advance >>= fun _ => x t else y) s = x s.current s.skip :=
    congrFun (if_pos h) s.passComments
  have hno {s : State} (h : ¬ c s.current) : (Parser.look >>= fun t =>
      if c t then Parser.advance >>= fun _ => x t else y) s = y s.passComments :=
    congrFun (if_neg h) s.passComments
  refine ⟨fun {p s} hs => ?_, fun {s} hs hk => ?_, fun {us s s'} hs => ?_⟩
  · by_cases h : c s.current
    · rw [hyes h]
      exact (hx _).onward (skip_all hs)
    · rw [hno h]
      exact hy.onward (passComments_all hs)
  · by_cases h : c s.current
    · rw [hyes h]
      exact (hx _).onward (hs.skip_past (hc _ h))
    · rw [hno h]
      exact hy.commits hs.passComments ((hfirst _ hk).resolve_left h)
  · cases us with
    | nil =>
      -- at the fork the two runs look at different tokens, and either may take its own
      obtain ⟨hcurrent, hcurrent'⟩ := hs.atFork
      by_cases h : c s.current
      · rw [hyes h]
        exact .left ((hx _).onward (hcurrent ▸ hs.ordered.skip_past (hc _ h)))
      · by_cases h' : c s'.current
        · rw [hyes h']
          exact .right ((hx _).onward (hcurrent' ▸ hs.ordered'.skip_past (hc _ h')))
        · rw [hno h, hno h']
          exact hy.parts hs.passComments
    | cons u us =>
      obtain ⟨hcurrent, hcurrent'⟩ := hs.current
      by_cases h : c u
      · rw [hyes (hcurrent ▸ h), hyes (hcurrent' ▸ h), hcurrent, hcurrent']
        exact ((hx u).parts hs.skip).imp (List.suffix_cons _ _) fun _ _ => id
      · rw [hno (hcurrent ▸ h), hno (hcurrent' ▸ h)]
        exact hy.parts hs.passComments

theorem accept {kind : TokenKind} (hkind : kind ≠ .endOfInput) :
    Decides f [] (Parser.accept kind) :=
  skipIf (fun _ => []) (fun t ht => by rw [ht]; exact hkind)
    (fun t ht => absurd ht List.not_mem_nil) (fun _ => pure true) (pure false)

/-- **A parser that asks for one of the kinds in `gate` or fails** is left to show for a token of
these kinds: at the fork it takes the token or waits. -/
theorem of_gate {gate : List TokenKind} {x : Parser α} (hne : gate ≠ []) (hnodup : gate.Nodup)
    (hgate : Gated gate x)
    (honward : ∀ {p : Token → Prop} {s : State}, (∀ t ∈ s.stream, p t) →
      s.current.kind ∈ gate → Settles p (x s))
    (hcommits : ∀ {s : State}, s.Ordered → s.current.kind ∈ kinds →
      Settles (Token.Past s.current) (x s))
    (hfork : ∀ {s : State}, s.Ordered → s.current.kind ∈ gate →
      Settles (Token.Past s.current) (x s) ∨
        ∃ a s₁, x s = .ok a s₁ ∧ s₁.Ordered ∧ s₁.current = s.current ∧ P a s.current.kind)
    (hahead : ∀ {u : Token} {us : List Token} {s s' : State}, s.Parted f (u :: us) s' →
      u.kind ∈ gate → Verdict f P (u :: us) (x s) (x s')) : Awaits f P kinds x := by
  refine ⟨fun {p s} hs => ?_, hcommits, fun {us s s'} hs => ?_⟩
  · by_cases hk : s.current.kind ∈ gate
    · exact honward hs hk
    · obtain ⟨s₁, hfail⟩ := hgate s hk
      rw [hfail]
      exact .unexpected hne hnodup (Settles.current hs) hk
  · cases us with
    | nil =>
      -- where neither token is of the kinds, the first run tells them, and the second token is none
      obtain ⟨hcurrent, hcurrent'⟩ := hs.atFork
      by_cases hk : s.current.kind ∈ gate
      · rcases hfork hs.ordered hk with hpast | ⟨a, s₁, hrun, hs₁, hwaits, hP⟩
        · exact .left (hcurrent ▸ hpast)
        · rw [hrun]
          exact .waitsLeft hs₁ (hwaits.trans hcurrent) (hcurrent ▸ hP)
      · by_cases hk' : s'.current.kind ∈ gate
        · rcases hfork hs.ordered' hk' with hpast | ⟨a, s₁, hrun, hs₁, hwaits, hP⟩
          · exact .right (hcurrent' ▸ hpast)
          · rw [hrun]
            exact .waitsRight hs₁ (hwaits.trans hcurrent') (hcurrent' ▸ hP)
        · obtain ⟨s₁, hfail⟩ := hgate s hk
          rw [hfail]
          exact .refused rfl (hcurrent' ▸ hk')
    | cons u us =>
      by_cases hk : u.kind ∈ gate
      · exact hahead hs hk
      · obtain ⟨s₁, hfail⟩ := hgate s (hs.current.1 ▸ hk)
        rw [hfail]
        exact .of_unexpected hs

/-- **A parser that begins with one of the kinds or fails** decides about the token by them. -/
theorem of_gated {x : Parser α} (hne : kinds ≠ []) (hnodup : kinds.Nodup) (hgate : Gated kinds x)
    (honward : ∀ {p : Token → Prop} {s : State}, (∀ t ∈ s.stream, p t) →
      s.current.kind ∈ kinds → Settles p (x s))
    (hcommits : ∀ {s : State}, s.Ordered → s.current.kind ∈ kinds →
      Settles (Token.Past s.current) (x s))
    (hahead : ∀ {u : Token} {us : List Token} {s s' : State}, s.Parted f (u :: us) s' →
      u.kind ∈ kinds → Verdict f P (u :: us) (x s) (x s')) : Awaits f P kinds x :=
  of_gate hne hnodup hgate honward hcommits (fun hs hk => .inl (hcommits hs hk)) hahead

/-- A token of one of the kinds is taken. -/
theorem take {kinds : List TokenKind}
    (h : kinds ≠ [] ∧ kinds.Nodup ∧ TokenKind.endOfInput ∉ kinds) :
    Decides f kinds (Parser.take kinds) := by
  obtain ⟨hne, hnodup, hend⟩ := h
  have hok {s : State} (h : s.current.kind ∈ kinds) :
      Parser.take kinds s = .ok s.current s.skip :=
    take_ok.mpr ⟨h, rfl, rfl⟩
  refine of_gated hne hnodup (.take kinds) (fun {p s} hs hk => ?_) (fun {s} hs hk => ?_)
    fun {u us s s'} hs hk => ?_
  · rw [hok hk]
    exact .ok (skip_all hs)
  · rw [hok hk]
    exact .ok (hs.skip_past fun he => hend (he ▸ hk))
  · obtain ⟨hcurrent, hcurrent'⟩ := hs.current
    rw [hok (hcurrent ▸ hk), hok (hcurrent' ▸ hk), hcurrent, hcurrent']
    exact .same hs.skip (List.suffix_cons _ _)

theorem name : Decides f [.identifier] name :=
  (take (by decide)).map fun _ _ => id

/-- One of two parsers, by a token that is taken in front of the first one. -/
theorem accept_bind {kind : TokenKind} {x y : Parser α} {l : List TokenKind}
    (hkind : kind ≠ .endOfInput) (hx : Awaits f P l x) (hy : Awaits f P kinds y) :
    Awaits f P (kind :: kinds)
      (Parser.accept kind >>= fun answer => if answer = true then x else y) := by
  have heq : (Parser.accept kind >>= fun answer => if answer = true then x else y) =
      Parser.look >>= fun t => if t.kind = kind then Parser.advance >>= fun _ => x else y := by
    funext s
    by_cases h : s.current.kind = kind
    · rw [bind_of_ok (accept_ok.mpr (.inl ⟨h, rfl, rfl⟩)), if_pos rfl,
        bind_of_ok (look_ok.mpr ⟨rfl, rfl⟩), if_pos h]
      rfl
    · rw [bind_of_ok (accept_ok.mpr (.inr ⟨h, rfl, rfl⟩)), if_neg Bool.false_ne_true,
        bind_of_ok (look_ok.mpr ⟨rfl, rfl⟩), if_neg h]
  rw [heq]
  exact skipIf (fun _ => l) (fun t ht => by rw [ht]; exact hkind)
    (fun t ht => List.mem_cons.mp ht) (fun _ => hx) hy

/-- An answer that depends on the current token: where the two of the fork have different ones, one
of the runs waits. -/
theorem look_pure {h : Token → α}
    (hP : ∀ t t', P (h t) t.kind ∨ P (h t') t'.kind ∨ h t = h t') :
    Awaits f P [] (Parser.look >>= fun t => Pure.pure (h t)) := by
  have hrun (s : State) :
      (Parser.look >>= fun t => Pure.pure (h t)) s = .ok (h s.current) s.passComments := rfl
  refine ⟨fun {p s} hs => ?_, fun _ hk => absurd hk List.not_mem_nil, fun {us s s'} hs => ?_⟩
  · rw [hrun]
    exact .ok (passComments_all hs)
  · rw [hrun, hrun]
    cases us with
    | nil =>
      obtain ⟨hcurrent, hcurrent'⟩ := hs.atFork
      rcases hP s.current s'.current with hP | hP | heq
      · exact .waitsLeft hs.ordered.passComments hcurrent (hcurrent ▸ hP)
      · exact .waitsRight hs.ordered'.passComments hcurrent' (hcurrent' ▸ hP)
      · rw [heq]
        exact .same hs.passComments (List.suffix_refl _)
    | cons u us =>
      rw [hs.current.1, hs.current.2]
      exact .same hs.passComments (List.suffix_refl _)

/-- Whether a rule can begin. A run in which it can waits. -/
theorem canStart (rule : Rule) : Awaits f (fun answer kind => answer = true ∧ kind ∈ rule.first) []
    (Parser.canStart rule) := by
  refine look_pure fun t t' => ?_
  by_cases h : t.kind ∈ rule.first
  · exact .inl ⟨decide_eq_true h, h⟩
  · by_cases h' : t'.kind ∈ rule.first
    · exact .inr (.inl ⟨decide_eq_true h', h'⟩)
    · exact .inr (.inr ((decide_eq_false h).trans (decide_eq_false h').symm))

/-- One of two parsers, by whether a rule can begin. -/
theorem canStart_bind {rule : Rule} {x y : Parser α} (hx : Awaits f P rule.first x)
    (hy : Awaits f P kinds y) : Awaits f P (rule.first ++ kinds)
      (Parser.canStart rule >>= fun answer => if answer = true then x else y) := by
  have hg (answer : Bool) : Awaits f P (if answer = true then rule.first else kinds)
      (if answer = true then x else y) := by
    split
    · exact hx
    · exact hy
  have hbind := (canStart rule).bind hg fun answer kind ⟨hanswer, hk⟩ => by rwa [if_pos hanswer]
  refine ⟨hbind.onward, fun {s} hs hk => ?_, hbind.parts⟩
  by_cases h : s.current.kind ∈ rule.first
  · rw [bind_of_ok (canStart_ok.mpr ⟨(decide_eq_true h).symm, rfl⟩), if_pos rfl]
    exact hx.commits hs.passComments h
  · rw [bind_of_ok (canStart_ok.mpr ⟨(decide_eq_false h).symm, rfl⟩), if_neg Bool.false_ne_true]
    exact hy.commits hs.passComments ((List.mem_append.mp hk).resolve_left h)

/-- Looking at the current token in front of what takes it. -/
theorem look_bind {x : Token → Parser α} (hne : kinds ≠ []) (hnodup : kinds.Nodup)
    (hgate : ∀ t, Gated kinds (x t)) (hx : ∀ t, Awaits f P kinds (x t)) :
    Awaits f P kinds (Parser.look >>= x) := by
  have hrun (s : State) : (Parser.look >>= x) s = x s.current s.passComments := rfl
  refine of_gated hne hnodup (fun s hk => hgate s.current s.passComments hk)
    (fun {p s} hs _ => ?_) (fun {s} hs hk => ?_) fun {u us s s'} hs _ => ?_
  · rw [hrun]
    exact (hx _).onward (passComments_all hs)
  · rw [hrun]
    exact (hx _).commits hs.passComments hk
  · rw [hrun, hrun, hs.current.1, hs.current.2]
    exact (hx u).parts hs.passComments

/-! ## Names and the log -/

theorem record (event : Event) : Decides f [] (Parser.record event) :=
  ⟨fun hs => .ok hs, fun _ hk => absurd hk List.not_mem_nil,
    fun hs => .same (hs.record event event) (List.suffix_refl _)⟩

/-- What deals with names alone leaves the tokens as they are. -/
theorem nominal {x : Parser α} (h : Nominal x) : Decides f [] x := by
  refine ⟨fun {p s} hs => ?_, fun _ hk => absurd hk List.not_mem_nil, fun {us s s'} hs => ?_⟩
  · rcases h.outcome s with ⟨a, ns, hrun⟩ | ⟨cause, hother, hrun⟩
    · rw [hrun s rfl]
      exact .ok hs
    · rw [hrun s rfl]
      exact .fail hother
  · rcases h.outcome s with ⟨a, ns, hrun⟩ | ⟨cause, hother, hrun⟩
    · rw [hrun s rfl, hrun s' hs.names]
      exact .same (hs.withNames ns) (List.suffix_refl _)
    · rw [hrun s rfl]
      exact .of_other hother

end Awaits

/-- **One parser behind another** that does not wait. -/
theorem Decides.bind {R : β → TokenKind → Prop} {kinds : List TokenKind} {x : Parser α}
    {g : α → Parser β} {l : α → List TokenKind} (hx : Decides f kinds x)
    (hg : ∀ a, Awaits f R (l a) (g a)) : Awaits f R kinds (x >>= g) :=
  Awaits.bind hx hg fun _ _ => False.elim

end Parser

end RecordSchema
