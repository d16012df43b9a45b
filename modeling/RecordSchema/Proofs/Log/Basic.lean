import RecordSchema.Proofs.Log.Comments
import RecordSchema.Proofs.Log.Derivation
import RecordSchema.Proofs.Steps

/-!
# What a parser enters into the log

`Logs s es s'` says that the events `es` entered the log between two states, and ties them to the
lexemes: no comment is lost or entered twice, and events stand in the order of the text. It
composes, so it holds of a run if it holds of each step. There are three steps that do something:
looking at a token, moving behind it, and a rule that begins.

`Tells P` is what a parser is proved to do. Whatever its outcome it logs, and the rules that begin
inside it are none of declarations; if it gives a result, `P` relates that to the rules. A parser
that begins no rule is `Silent`.

Results:
* `Tells.bind`: what a parser tells is what its parts do, one behind the other.
* `Tells.many1`: a loop tells what its items do.
* `readRule_outcome`: a rule begins once it is read by the function for it, and else nothing does.
-/

namespace RecordSchema

/-! ## Events -/

namespace Event

/-- The milestone that an event is. -/
def milestone? : Event → Option Milestone
  | ruleBegun rule _ => some (.rule rule)
  | typeDeclared name index parameters => some (.declared name index parameters)
  | _ => none

/-- The offset of the comment that was passed. -/
def comment? : Event → Option Nat
  | commentSkipped offset => some offset
  | _ => none

/-- The offset of an event that has one: of a comment, and of the token a rule begins at. -/
def place? : Event → Option Nat
  | ruleBegun _ offset | commentSkipped offset => some offset
  | _ => none

/-- The event is one of those between the beginning and the end of a reading. -/
def Inner (e : Event) : Prop := e.milestone?.isSome ∨ e.comment?.isSome

end Event

theorem Lexemes.comments_mk (l : Lexeme) (later : List Lexeme) :
    comments ⟨l, later⟩ = l.comments ++ later.flatMap (·.comments) := rfl

theorem Lexemes.places_mk (l : Lexeme) (later : List Lexeme) : places ⟨l, later⟩ =
    l.comments ++ [l.token.offset] ++ later.flatMap fun l => l.comments ++ [l.token.offset] := rfl

namespace Parser

open State

variable {α β : Type}

/-! ## Events between two states -/

/-- The events entered the log between the states. Of the comments ahead, those that are not ahead
any more were passed. If the places ahead are in order then so are the events and the places that
are left, which are all among them. -/
structure Logs (s : State) (es : List Event) (s' : State) : Prop where
  log : s'.log = es.reverse ++ s.log
  inner : ∀ e ∈ es, e.Inner
  comments : es.filterMap Event.comment? ++ s'.lexemes.comments = s.lexemes.comments
  ordered : s.lexemes.places.Pairwise (· ≤ ·) →
    (es.filterMap Event.place? ++ s'.lexemes.places).Pairwise (· ≤ ·)
  subset : es.filterMap Event.place? ++ s'.lexemes.places ⊆ s.lexemes.places

namespace Logs

variable {s s₁ s' : State} {es es' : List Event}

/-- Nothing is logged if neither the log nor the lexemes change. -/
theorem nothing (hlog : s'.log = s.log) (hlexemes : s'.lexemes = s.lexemes) : Logs s [] s' where
  log := hlog
  inner _ he := absurd he List.not_mem_nil
  comments := by rw [hlexemes]; rfl
  ordered h := by rw [hlexemes]; exact h
  subset := by rw [hlexemes]; exact List.Subset.refl _

theorem trans (h : Logs s es s₁) (h' : Logs s₁ es' s') : Logs s (es ++ es') s' where
  log := by rw [h'.log, h.log, List.reverse_append, List.append_assoc]
  inner e he := (List.mem_append.mp he).elim (h.inner e) (h'.inner e)
  comments := by rw [List.filterMap_append, List.append_assoc, h'.comments, h.comments]
  ordered hs := by
    obtain ⟨hfirst, hahead, hbefore⟩ := List.pairwise_append.mp (h.ordered hs)
    rw [List.filterMap_append, List.append_assoc]
    exact List.pairwise_append.mpr ⟨hfirst, h'.ordered hahead, fun o ho p hp =>
      hbefore o ho p (h'.subset hp)⟩
  subset := by
    obtain ⟨hfirst, hahead⟩ := List.append_subset.mp h.subset
    rw [List.filterMap_append, List.append_assoc]
    exact List.append_subset.mpr ⟨hfirst, List.Subset.trans h'.subset hahead⟩

/-- The lexemes and the log alone matter. -/
theorem congr {t t' : State} (h : Logs s es s') (ht : t.log = s.log)
    (htl : t.lexemes = s.lexemes) (ht' : t'.log = s'.log) (htl' : t'.lexemes = s'.lexemes) :
    Logs t es t' where
  log := by rw [ht', ht, h.log]
  inner := h.inner
  comments := by rw [htl', htl, h.comments]
  ordered := by rw [htl', htl]; exact h.ordered
  subset := by rw [htl', htl]; exact h.subset

/-! ## Steps -/

/-- **Looking at a token** passes the comments in front of it. -/
theorem look (s : State) :
    Logs s (s.lexemes.current.comments.map .commentSkipped) s.passComments := by
  obtain ⟨_, ⟨⟨os, t⟩, later⟩, _, _, _, _, _⟩ := s
  have hcomments : (os.map Event.commentSkipped).filterMap Event.comment? = os := by
    rw [List.filterMap_map]
    exact List.filterMap_some
  have hplaces : (os.map Event.commentSkipped).filterMap Event.place? = os := by
    rw [List.filterMap_map]
    exact List.filterMap_some
  refine ⟨by simp [passComments], ?_, ?_, ?_, ?_⟩
  · intro e he
    obtain ⟨o, -, rfl⟩ := List.mem_map.mp he
    exact Or.inr rfl
  · rw [hcomments]
    simp [passComments, Lexemes.comments_mk]
  · rw [hplaces]
    simp [passComments, Lexemes.places_mk]
  · rw [hplaces]
    simp [passComments, Lexemes.places_mk]

/-- Moving behind a token that was looked at passes nothing. -/
theorem advance {s : State} (h : s.lexemes.current.comments = []) : Logs s [] s.advance := by
  obtain ⟨_, ⟨⟨os, t⟩, later⟩, _, _, _, _, _⟩ := s
  obtain rfl : os = [] := h
  cases later with
  | nil => exact nothing rfl rfl
  | cons l later =>
    refine ⟨rfl, by simp, rfl, fun hs => ?_, ?_⟩
    · exact (List.pairwise_cons.mp hs).2
    · exact List.subset_cons_self _ _

/-- **Reading a token** passes the comments in front of it. -/
theorem skip (s : State) : Logs s (s.lexemes.current.comments.map .commentSkipped) s.skip := by
  have hskip : Logs s.passComments [] s.passComments.advance := advance rfl
  have hall := (look s).trans hskip
  rwa [List.append_nil] at hall

/-- **A rule begins** at a token that was looked at. -/
theorem begins {s : State} (h : s.lexemes.current.comments = []) (rule : Rule) :
    Logs s [.ruleBegun rule s.current.offset] (s.record (.ruleBegun rule s.current.offset)) := by
  obtain ⟨_, ⟨⟨os, t⟩, later⟩, _, _, _, _, _⟩ := s
  obtain rfl : os = [] := h
  refine ⟨rfl, ?_, rfl, fun hs => ?_, ?_⟩
  · exact List.forall_mem_singleton.mpr (Or.inl rfl)
  · refine List.pairwise_cons.mpr ⟨fun o ho => ?_, hs⟩
    rcases List.mem_cons.mp ho with rfl | ho
    · exact Nat.le_refl _
    · exact (List.pairwise_cons.mp hs).1 o ho
  · exact List.cons_subset.mpr ⟨List.mem_cons_self, List.Subset.refl _⟩

/-- A rule that is opened begins at the current token, behind the comments in front of that. -/
theorem opened (s : State) (rule : Rule) :
    Logs s (s.lexemes.current.comments.map .commentSkipped ++ [.ruleBegun rule s.current.offset])
      (s.opened rule) := by
  have hbegins : Logs s.passComments [.ruleBegun rule s.current.offset]
      (s.passComments.record (.ruleBegun rule s.current.offset)) := begins rfl rule
  exact ((look s).trans hbegins).congr rfl rfl rfl rfl

end Logs

/-- Of the events between the states those that are milestones are rules that began, and none of
them is that of a declaration. No type was declared. -/
structure Begins (s : State) (rules : List Rule) (s' : State) : Prop where
  logs : ∃ es, Logs s es s' ∧ es.filterMap Event.milestone? = rules.map .rule
  inner : .declaration ∉ rules
  types : s'.types = s.types

namespace Begins

variable {s s₁ s' : State} {rs rs' : List Rule}

/-- No rule begins if neither the log nor the lexemes change. -/
theorem nothing (hlog : s'.log = s.log) (hlexemes : s'.lexemes = s.lexemes)
    (htypes : s'.types = s.types) : Begins s [] s' :=
  ⟨⟨[], .nothing hlog hlexemes, rfl⟩, List.not_mem_nil, htypes⟩

theorem trans (h : Begins s rs s₁) (h' : Begins s₁ rs' s') : Begins s (rs ++ rs') s' := by
  obtain ⟨es, hlogs, hes⟩ := h.logs
  obtain ⟨es', hlogs', hes'⟩ := h'.logs
  refine ⟨⟨es ++ es', hlogs.trans hlogs', ?_⟩, ?_, h'.types.trans h.types⟩
  · rw [List.filterMap_append, hes, hes', List.map_append]
  · rw [List.mem_append, not_or]
    exact ⟨h.inner, h'.inner⟩

/-- Comments are no milestones. -/
theorem milestones_comments (os : List Nat) :
    (os.map Event.commentSkipped).filterMap Event.milestone? = [] := by
  simp [List.filterMap_map, Event.milestone?]

theorem look (s : State) : Begins s [] s.passComments :=
  ⟨⟨_, .look s, milestones_comments _⟩, List.not_mem_nil, rfl⟩

theorem skip (s : State) : Begins s [] s.skip :=
  ⟨⟨_, .skip s, milestones_comments _⟩, List.not_mem_nil, rfl⟩

theorem opened (s : State) {rule : Rule} (h : rule ≠ .declaration) :
    Begins s [rule] (s.opened rule) := by
  refine ⟨⟨_, .opened s rule, ?_⟩, by simpa using h.symm, rfl⟩
  rw [List.filterMap_append, milestones_comments]
  rfl

theorem closed (h : Begins s rs s') : Begins s rs s'.closed := by
  obtain ⟨es, hlogs, hes⟩ := h.logs
  exact ⟨⟨es, hlogs.congr rfl rfl rfl rfl, hes⟩, h.inner, h.types⟩

end Begins

/-! ## What a parser tells -/

/-- Whatever the outcome it has logged the rules that began. A result is related to them. -/
def Told (s : State) (P : α → List Rule → Prop) : EStateM.Result Fault State α → Prop
  | .ok a s' => ∃ rs, Begins s rs s' ∧ P a rs
  | .error _ s' => ∃ rs, Begins s rs s'

/-- The parser logs the rules that begin in it, and relates what it reads to them. -/
def Tells (x : Parser α) (P : α → List Rule → Prop) : Prop := ∀ s, Told s P (x s)

/-- The parser begins no rule. -/
def Silent (x : Parser α) : Prop := Tells x fun _ rs => rs = []

/-- What is told behind some rules. -/
theorem Told.behind {P : α → List Rule → Prop} {s s₁ : State} {rs : List Rule}
    {r : EStateM.Result Fault State α} (h : Begins s rs s₁)
    (hr : Told s₁ (fun a rs' => P a (rs ++ rs')) r) : Told s P r := by
  cases r with
  | ok a s' =>
    obtain ⟨rs', hbegins, ha⟩ := hr
    exact ⟨rs ++ rs', h.trans hbegins, ha⟩
  | error fault s' =>
    obtain ⟨rs', hbegins⟩ := hr
    exact ⟨rs ++ rs', h.trans hbegins⟩

namespace Tells

variable {x y : Parser α} {f : α → Parser β} {P : α → List Rule → Prop}
  {Q : β → List Rule → Prop}

theorem mono {P' : α → List Rule → Prop} (h : Tells x P) (hp : ∀ a rs, P a rs → P' a rs) :
    Tells x P' := by
  intro s
  have hs := h s
  cases hrun : x s with
  | ok a s' =>
    rw [hrun] at hs
    obtain ⟨rs, hbegins, ha⟩ := hs
    exact ⟨rs, hbegins, hp a rs ha⟩
  | error fault s' =>
    rw [hrun] at hs
    exact hs

theorem pure {a : α} (h : P a []) : Tells (pure a) P :=
  fun _ => ⟨[], .nothing rfl rfl rfl, h⟩

theorem fail (cause : Cause) : Tells (fail cause : Parser α) P :=
  fun _ => ⟨[], .nothing rfl rfl rfl⟩

/-- **What a parser tells** is what its parts do, one behind the other. -/
theorem bind (hx : Tells x P) (hf : ∀ a rs, P a rs → Tells (f a) fun b rs' => Q b (rs ++ rs')) :
    Tells (x >>= f) Q := by
  intro s
  have hs := hx s
  cases hrun : x s with
  | error fault s₁ =>
    rw [hrun] at hs
    rw [bind_of_error hrun]
    exact hs
  | ok a s₁ =>
    rw [hrun] at hs
    obtain ⟨rs, hbegins, ha⟩ := hs
    rw [bind_of_ok hrun]
    exact .behind hbegins (hf a rs ha s₁)

theorem ite {c : Prop} [Decidable c] (hx : c → Tells x P) (hy : ¬ c → Tells y P) :
    Tells (if c then x else y) P := by
  split
  · exact hx ‹_›
  · exact hy ‹_›

end Tells

namespace Silent

variable {x : Parser α} {f : α → Parser β} {P : α → List Rule → Prop}
  {Q : β → List Rule → Prop}

/-- What follows a parser that begins no rule tells all. -/
theorem bind (hx : Silent x) (hf : ∀ a, Tells (f a) Q) : Tells (x >>= f) Q :=
  Tells.bind hx fun a rs hrs => by
    subst hrs
    exact hf a

theorem pure (a : α) : Silent (pure a) := Tells.pure rfl

theorem look : Silent look := fun s => ⟨[], .look s, rfl⟩

end Silent

section Tokens

variable {P : α → List Rule → Prop}

theorem Tells.unexpected (kinds : List TokenKind) : Tells (unexpected kinds : Parser α) P :=
  Silent.look.bind fun _ => .fail _

theorem Tells.wrongNode (rule : Rule) : Tells (wrongNode rule : Parser α) P :=
  Silent.look.bind fun _ => .fail _

namespace Silent

theorem expect (kinds : List TokenKind) : Silent (expect kinds) :=
  look.bind fun _ => .ite (fun _ => pure _) fun _ => .unexpected _

theorem take (kinds : List TokenKind) : Silent (take kinds) := by
  intro s
  cases hrun : Parser.take kinds s with
  | ok t s' =>
    obtain ⟨-, -, rfl⟩ := take_ok.mp hrun
    exact ⟨[], .skip s, rfl⟩
  | error fault s' =>
    have hexpect : Parser.expect kinds s = .error fault s' := by
      rcases bind_error.mp hrun with h | ⟨t, s₁, -, h⟩
      · exact h
      · simp only [bind_error, advance_error, pure_error, and_false, exists_false, or_self] at h
    have hs := expect kinds s
    rwa [hexpect] at hs

theorem accept (kind : TokenKind) : Silent (accept kind) := by
  intro s
  cases hrun : Parser.accept kind s with
  | ok answer s' =>
    rcases accept_ok.mp hrun with ⟨-, -, rfl⟩ | ⟨-, -, rfl⟩
    · exact ⟨[], .skip s, rfl⟩
    · exact ⟨[], .look s, rfl⟩
  | error fault s' => exact absurd hrun (by simp)

theorem name : Silent name := (take _).bind fun _ => pure _

theorem canStart (rule : Rule) : Silent (canStart rule) := look.bind fun _ => pure _

end Silent

/-- A token is looked at, and passed if it is one that belongs here. -/
theorem Tells.perhaps_pass {c : Token → Prop} [DecidablePred c] {y z : Token → Parser α}
    (hy : ∀ t, Tells (y t) P) (hz : ∀ t, Tells (z t) P) :
    Tells (look >>= fun t => if c t then Parser.advance >>= fun _ => y t else z t) P := by
  intro s
  rw [bind_of_ok (look_ok.mpr ⟨rfl, rfl⟩)]
  split
  · rw [bind_of_ok (advance_ok (u := ()).mpr rfl)]
    exact .behind (.skip s) (hy _ _)
  · exact .behind (.look s) (hz _ _)

end Tokens

/-! ## Names -/

namespace Silent

theorem declareName (n : Name) : Silent (declareName n) := by
  intro s
  unfold Parser.declareName
  cases s.scope.declare n with
  | ok scope => exact ⟨[], .nothing rfl rfl rfl, rfl⟩
  | error first => exact ⟨[], .nothing rfl rfl rfl⟩

theorem resolveName (n : Name) : Silent (resolveName n) := by
  intro s
  unfold Parser.resolveName
  cases s.scope.find? n.text with
  | some found => exact ⟨[], .nothing rfl rfl rfl, rfl⟩
  | none => exact ⟨[], .nothing rfl rfl rfl⟩

theorem resolveType (n : Name) : Silent (resolveType n) := by
  intro s
  unfold Parser.resolveType
  cases s.types.find? n.text with
  | some found => exact ⟨[], .nothing rfl rfl rfl, rfl⟩
  | none => exact ⟨[], .nothing rfl rfl rfl⟩

theorem ensureFree (n : Name) : Silent (ensureFree n) := by
  intro s
  unfold Parser.ensureFree
  cases s.types.ensureFree n with
  | ok u => exact ⟨[], .nothing rfl rfl rfl, rfl⟩
  | error first => exact ⟨[], .nothing rfl rfl rfl⟩

theorem openDeclaration (n : Name) : Silent (openDeclaration n) :=
  fun _ => ⟨[], .nothing rfl rfl rfl, rfl⟩

theorem closeDeclaration : Silent closeDeclaration := fun _ => ⟨[], .nothing rfl rfl rfl, rfl⟩

theorem declaring : Silent declaring := fun _ => ⟨[], .nothing rfl rfl rfl, rfl⟩

theorem tokensLeft : Silent tokensLeft := fun _ => ⟨[], .nothing rfl rfl rfl, rfl⟩

end Silent

/-! ## Loops -/

section Loops

variable {more : Parser Bool} {item : List α → Parser α} {w : α → List Rule}

/-- A loop tells what the items do that it reads behind those at hand. -/
theorem Tells.manyWithin (hm : Silent more)
    (hi : ∀ before, Tells (item before) fun a rs => rs = w a) :
    ∀ (n : Nat) (before : List α), Tells (manyWithin more item n before) fun all rs =>
      ∃ as, all = before.reverse ++ as ∧ rs = as.flatMap w
  | 0, _ => .pure ⟨[], (List.append_nil _).symm, rfl⟩
  | n + 1, before => by
    refine hm.bind fun answer => ?_
    cases answer with
    | false => exact .pure ⟨[], (List.append_nil _).symm, rfl⟩
    | true =>
      refine (hi before).bind fun a rs hrs => ?_
      refine (manyWithin hm hi n (a :: before)).mono ?_
      rintro all rs' ⟨as, rfl, rfl⟩
      exact ⟨a :: as, by simp, by rw [hrs, List.flatMap_cons]⟩

/-- **A loop tells what its items do**, of which there is one at least. -/
theorem Tells.many1 (hm : Silent more) (hi : ∀ before, Tells (item before) fun a rs => rs = w a) :
    Tells (many1 more item) fun as rs => as ≠ [] ∧ rs = as.flatMap w := by
  refine (hi []).bind fun a rs hrs => Silent.tokensLeft.bind fun n => ?_
  refine (manyWithin hm hi n [a]).mono ?_
  rintro all rs' ⟨as, rfl, rfl⟩
  exact ⟨by simp, by rw [hrs]; rfl⟩

end Loops

/-! ## Rules -/

/-- What is told of the function for a rule: its rules behind that rule itself. -/
def TellsRule (sub : Rule → Parser Node) (rule : Rule) : Prop :=
  Tells (reader sub rule) fun out rs => rule :: rs = rule.derivation out

/-- The outcome of a rule, by that of the function for it. -/
def State.conclude (rule : Rule) : EStateM.Result Fault State rule.Output →
    EStateM.Result Fault State Node
  | .ok out s => .ok ⟨rule, out⟩ s.closed
  | .error fault s => .error fault s.closed

/-- **A rule begins once it is read** by the function for it. If it cannot begin, or no level is
left for it, then nothing does. -/
theorem readRule_outcome (n : Nat) (rule : Rule) (s : State) :
    (∃ fault s', readRule n rule s = .error fault s' ∧ Begins s [] s') ∨
      ∃ m, n = m + 1 ∧
        readRule n rule s = State.conclude rule (reader (readRule m) rule (s.opened rule)) := by
  rcases refused_or_level n rule s with hrefused | ⟨m, rfl, hstart, hdepth⟩
  · obtain ⟨fault, hrun⟩ := readRule_of_refused hrefused
    exact Or.inl ⟨fault, s.passComments, hrun, .look s⟩
  · refine Or.inr ⟨m, rfl, ?_⟩
    rw [readRule_of_level hstart hdepth, build_eq]
    cases hrun : reader (readRule m) rule (s.opened rule) with
    | ok out s₁ =>
      rw [bind_of_ok hrun]
      rfl
    | error fault s₁ =>
      rw [bind_of_error hrun]
      rfl

namespace Tells

variable {n : Nat} {rule : Rule} {sub : Rule → Parser Node}

/-- **A rule tells its derivation**, if the function for it does. -/
theorem readRule (hrule : rule ≠ .declaration)
    (h : ∀ m, n = m + 1 → TellsRule (Parser.readRule m) rule) :
    Tells (Parser.readRule n rule) fun node rs => rs = node.derivation := by
  intro s
  rcases readRule_outcome n rule s with ⟨fault, s', hrun, hbegins⟩ | ⟨m, hm, hrun⟩
  · rw [hrun]
    exact ⟨[], hbegins⟩
  · have hs := h m hm (s.opened rule)
    have hopened := Begins.opened s hrule
    rw [hrun]
    cases hreader : reader (Parser.readRule m) rule (s.opened rule) with
    | ok out s₁ =>
      rw [hreader] at hs
      obtain ⟨rs, hbegins, hrs⟩ := hs
      exact ⟨_, (hopened.trans hbegins).closed, hrs⟩
    | error fault s₁ =>
      rw [hreader] at hs
      obtain ⟨rs, hbegins⟩ := hs
      exact ⟨_, (hopened.trans hbegins).closed⟩

theorem descend (h : Tells (sub rule) fun node rs => rs = node.derivation) :
    Tells (descend sub rule) fun out rs => rs = rule.derivation out := by
  refine h.bind ?_
  rintro ⟨rule', out⟩ rs rfl
  dsimp only
  split
  · rename_i hrule
    subst hrule
    exact .pure (List.append_nil _)
  · exact .wrongNode rule

end Tells

end Parser

end RecordSchema
