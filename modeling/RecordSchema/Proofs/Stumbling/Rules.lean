import RecordSchema.Proofs.Soundness.Reference
import RecordSchema.Proofs.Stumbling.Runs

/-!
# Rules that stumble over a token

Every rule tracks the same rule over the text that is read, up to the token that no run gets past.
Three rules may hand that token on, since they end where no connective follows; the rules around
them do not.

Three places are more than their steps. A built-in type looks at the token behind its keyword and
takes it for its width or leaves it. Behind the type of a reference the text that is read may have
values; but values stand behind the name of a declared type only, and the obstacle does not. And a
list of values ends with a token that may be a number, but none is left there.

Results:
* `Stumbles.rule`, `Stumbles.descend`, `Stumbles.dispatch`: the reading of a rule.
* `Stumbles.readRule`: every rule.
* `Stumbles.declarations`: the reading of a text.
-/

namespace RecordSchema

/-- The rules that end where no connective follows. -/
def Rule.Open (rule : Rule) : Prop := rule ∈ [Rule.condition, .disjunction, .conjunction]

instance (rule : Rule) : Decidable rule.Open := inferInstanceAs (Decidable (rule ∈ _))

/-- A scope holds its own names. -/
theorem Scope.holds_names (scope : Scope) : scope.Holds (texts scope.names.reverse) := by
  have hholds := Scope.holds_of scope.names.reverse
  rwa [Scope.of, List.reverse_reverse] at hholds

namespace Parser

open State

variable {α : Type} {o : Obstacle} {us : List Token} {s s' s₁' : State}

/-! ## The reading of a rule -/

/-- Closing the rule in both runs changes nothing. -/
theorem Course.shut {P : α → Prop} {a : α} {r : EStateM.Result Fault State α}
    (h : Course o P us a s₁' r) : Course o P us a s₁'.closed (Parser.shut r) := by
  cases h with
  | same hs hsuffix => exact .same hs.closed hsuffix
  | stumbled h =>
    cases h with
    | blamed h => exact .stumbled (.blamed h)
    | stuck hforeign hs ha => exact .stumbled (.stuck hforeign hs ha)

namespace Stumbles

variable {n : Nat}

/-- **A rule** stumbles if the function for it tracks. -/
theorem rule {rule : Rule}
    (h : ∀ m, n = m + 1 → Tracks o (fun _ => rule.Open) (reader (Parser.readRule m) rule)) :
    Stumbles o (fun node => node.rule = rule ∧ rule.Open) (Parser.readRule n rule) := by
  refine of_gate (.readRule n rule) (·.notMem_first rule)
    fun {us s s' node s₁'} hs hus halike hk hrun => ?_
  obtain ⟨m, s₂', rfl, hcan, hlevel, hbuild, rfl⟩ := level_of_readRule hrun
  rw [readRule_of_level (halike ▸ hcan) (hs.depth ▸ hlevel)]
  have hnode : Tracks o (fun node => node.rule = rule ∧ rule.Open)
      (build (Parser.readRule m) rule) := by
    rw [build_eq]
    exact (h m rfl).bind (fun _ => .pure _) fun _ hopen s hforeign hs =>
      .stuck hforeign hs ⟨rfl, hopen⟩
  exact (hnode.course (hs.opened rule) hus hbuild).shut

theorem descend {rule : Rule}
    (h : Stumbles o (fun node => node.rule = rule ∧ rule.Open) (Parser.readRule n rule)) :
    Stumbles o (fun _ => rule.Open) (descend (Parser.readRule n) rule) := by
  refine ⟨h.stalls.bind fun node ⟨hnode, hopen⟩ => ?_, h.tracks.bind (fun node => ?_)
    fun node ⟨hnode, hopen⟩ => ?_⟩
  · rw [dif_pos hnode]
    exact fun s hforeign hs => .stuck hforeign hs hopen
  · split
    · exact .pure _
    · exact .wrongNode
  · rw [dif_pos hnode]
    exact fun s hforeign hs => .stuck hforeign hs hopen

/-- **One of some rules** is read by the token. -/
theorem dispatch {rules : List Rule}
    (hkinds : ∀ kind ∈ [TokenKind.number, .width, .unrecognised], kind ∉ Rule.firstOfAny rules)
    (h : ∀ rule ∈ rules, Trips o (Parser.readRule n rule)) :
    Trips o (dispatch (Parser.readRule n) rules) := by
  have hgate : Gated (Rule.firstOfAny rules) (Parser.dispatch (Parser.readRule n) rules) := by
    intro s hk
    refine ⟨_, dispatch_of_none (List.find?_eq_none.mpr fun rule hrule hcan => hk ?_)⟩
    exact Rule.mem_firstOfAny.mpr ⟨rule, hrule, of_decide_eq_true hcan⟩
  refine of_gated hkinds hgate fun {u us s s' node s₁'} hs hus _ hrun => ?_
  obtain ⟨rule, hfind, hread⟩ := dispatch_ok.mp hrun
  rw [hs.current.2, ← hs.current.1] at hfind
  rw [dispatch_of_find hfind]
  exact (h rule (List.mem_of_find?_eq_some hfind)).tracks.course hs.passComments hus hread

/-! ## Rules without sub-rules -/

/-- A number that does not fit is taken and refused, and another obstacle is not taken. -/
theorem operand {P : Operand → Prop} : Tracks o P operand := by
  have hgate : Gated Rule.operandStart Parser.operand := (Gated.take _).bind _
  refine (of_gate hgate (·.notMem_first .operand)
    fun {us s s' a s₁'} hs hus halike hk hrun => ?_).tracks
  obtain ⟨t, s₂', htake, hrest⟩ := bind_ok.mp hrun
  obtain ⟨-, rfl, rfl⟩ := take_ok.mp htake
  have hok : Parser.take Rule.operandStart s = .ok s.current s.skip :=
    take_ok.mpr ⟨halike ▸ hk, rfl, rfl⟩
  rw [Parser.operand, bind_of_ok hok]
  cases us with
  | nil =>
    have hleft := hs.atFork.1
    have hnumber : o.left.kind = .number :=
      o.number_of_mem (hleft ▸ halike ▸ hk) (by decide)
    obtain ⟨hlarge, hblame⟩ := o.large hnumber
    rw [if_neg (by rw [hleft, hnumber]; decide), hleft, if_neg (Nat.not_lt_of_le hlarge)]
    exact .stumbled (.blamed hblame)
  | cons u us =>
    rw [hs.current.2] at hrest
    rw [hs.current.1]
    have hanswer : Tracks o P (if u.kind = .identifier then do
        resolveName ⟨u.text, u.offset⟩
        return .name ⟨u.text, u.offset⟩
      else if Text.decimalValue u.text.toList < integerLimit then
        return .integer (Text.decimalValue u.text.toList)
      else Parser.fail (.invalidNumber u.text u.offset)) :=
      .ite ((Tracks.nominal (.resolveName _)).next fun _ => .pure _) (.ite (.pure _) .fail)
    exact (hanswer.course hs.skip (hus.suffix (List.suffix_cons _ _)) hrest).suffix
      (List.suffix_cons _ _)

/-- A built-in type with a width. -/
theorem simpleType_of_widens (hk : s.current.kind ∈ Rule.typeWords)
    (hw : s.skip.current.Widens s.current) : Parser.simpleType s =
      (widthOf s.skip.current >>= fun w =>
        Pure.pure ⟨builtinOf s.current.kind, some w⟩) s.skip.skip := by
  rw [Parser.simpleType, bind_of_ok (take_ok.mpr ⟨hk, rfl, rfl⟩),
    bind_of_ok (look_ok.mpr ⟨rfl, rfl⟩)]
  exact congrFun (if_pos hw) s.skip.passComments

/-- A built-in type without a width leaves the token behind it. -/
theorem simpleType_of_not (hk : s.current.kind ∈ Rule.typeWords)
    (hw : ¬ s.skip.current.Widens s.current) : Parser.simpleType s =
      .ok ⟨builtinOf s.current.kind, none⟩ s.skip.passComments := by
  rw [Parser.simpleType, bind_of_ok (take_ok.mpr ⟨hk, rfl, rfl⟩),
    bind_of_ok (look_ok.mpr ⟨rfl, rfl⟩)]
  exact congrFun (if_neg hw) s.skip.passComments

/-- A width out of bounds is taken and refused, and a token that is no width of the type is left. -/
theorem simpleType {P : SimpleType → Prop} : Stumbles o P simpleType := by
  have hgate : Gated Rule.typeWords Parser.simpleType := (Gated.take _).bind _
  refine of_gated (by decide) hgate fun {u us s s' a s₁'} hs hus hk hrun => ?_
  obtain ⟨hcurrent, hcurrent'⟩ := hs.current
  have hskip := hs.skip
  have hk' : s'.current.kind ∈ Rule.typeWords := hcurrent' ▸ hk
  have hk : s.current.kind ∈ Rule.typeWords := hcurrent ▸ hk
  -- without a width both runs leave the token behind the keyword, be it that of the fork
  have hbare (hw : ¬ s.skip.current.Widens u) (hw' : ¬ s'.skip.current.Widens u) :
      Course o P (u :: us) a s₁' (Parser.simpleType s) := by
    rw [simpleType_of_not hk' (by rwa [hcurrent']), hcurrent'] at hrun
    obtain ⟨rfl, rfl⟩ := EStateM.Result.ok.inj hrun
    rw [simpleType_of_not hk (by rwa [hcurrent]), hcurrent]
    exact .same hskip.passComments (List.suffix_cons _ _)
  cases us with
  | nil =>
    obtain ⟨hleft, hright⟩ := hskip.atFork
    have hmeets : o.Meets u := hus u rfl
    by_cases hw : o.left.Widens u
    · obtain ⟨hbounds, hblame⟩ := hmeets.left hw
      have hwidth : widthOf o.left = Parser.fail (.invalidNumber o.left.text o.left.offset) :=
        if_neg hbounds
      rw [simpleType_of_widens hk (by rwa [hleft, hcurrent]), hleft, hwidth]
      exact .stumbled (.blamed hblame)
    · exact hbare (hleft ▸ hw) (hright ▸ fun hw' => hw (hmeets.right hw'))
  | cons v us =>
    obtain ⟨hnext, hnext'⟩ := hskip.current
    by_cases hw : v.Widens u
    · rw [simpleType_of_widens hk' (by rwa [hnext', hcurrent']), hnext', hcurrent'] at hrun
      rw [simpleType_of_widens hk (by rwa [hnext, hcurrent]), hnext, hcurrent]
      have hanswer : Tracks o P (widthOf v >>= fun w =>
          Pure.pure (⟨builtinOf u.kind, some w⟩ : SimpleType)) := by
        unfold widthOf
        exact (Tracks.ite (.pure _) .fail).next fun _ => .pure _
      exact (hanswer.course hskip.skip (hus.suffix (List.suffix_append [u, v] us)) hrun).suffix
        (List.suffix_append [u, v] us)
    · exact hbare (hnext ▸ hw) (hnext' ▸ hw)

theorem parameter : Trips o parameter :=
  name.next fun n => (Tracks.nominal (.declareName n)).next fun _ => .pure _

theorem moreParameters : Trips o moreParameters := by
  have hexpect : Trips o (Parser.expect [.identifier, .comma, .rightSquare]) := by
    have hgate : Gated [.identifier, .comma, .rightSquare]
        (Parser.expect [.identifier, .comma, .rightSquare]) :=
      fun s hk => ⟨_, expect_of_notMem hk⟩
    refine of_gated (by decide) hgate fun {u us s s' t s₁'} hs _ hk hrun => ?_
    obtain ⟨-, rfl, rfl⟩ := expect_ok.mp hrun
    obtain ⟨hcurrent, hcurrent'⟩ := hs.current
    rw [expect_ok.mpr ⟨hcurrent ▸ hk, hcurrent'.trans hcurrent.symm, rfl⟩]
    exact .same hs.passComments (List.suffix_refl _)
  exact choose (accept (by decide)) (.pure _) (hexpect.next fun _ => .pure _)

theorem parameters : Trips o parameters := by
  have hnames : Trips o (Parser.many1 Parser.moreParameters fun _ => Parser.parameter) :=
    many1 moreParameters id (fun _ => parameter) (fun _ => Awaits.parameter)
      fun _ => Gated.name.bind _
  exact (take (by decide)).next fun _ => hnames.tracks.next fun _ =>
    (take (by decide)).tracks.next fun _ => .pure _

/-- A type has no parameters, or goes by a name that was read. -/
theorem target_cases {sub : Rule → Parser Node} {n : Name} {t : Target} {count : Nat}
    (hrun : Parser.target sub s = .ok (n, t, count) s') :
    count = 0 ∨ s.current.kind = .identifier ∧ s' = s.passComments.skip := by
  obtain ⟨answer, s₁, hanswer, hrun⟩ := bind_ok.mp hrun
  obtain ⟨-, rfl⟩ := canStart_ok.mp hanswer
  cases answer with
  | true =>
    obtain ⟨_, _, -, hrun⟩ := bind_ok.mp hrun
    obtain ⟨_, _, -, hrun⟩ := bind_ok.mp hrun
    obtain ⟨h, -⟩ := pure_ok.mp hrun
    exact .inl (Prod.mk.inj (Prod.mk.inj h).2).2.symm
  | false =>
    obtain ⟨_, _, hname, hrun⟩ := bind_ok.mp hrun
    obtain ⟨hk, -, rfl⟩ := name_ok.mp hname
    obtain ⟨_, _, hresolve, hrun⟩ := bind_ok.mp hrun
    obtain ⟨-, -, -, rfl⟩ := resolveType_ok.mp hresolve
    obtain ⟨-, rfl⟩ := pure_ok.mp hrun
    exact .inr ⟨hk, rfl⟩

/-! ## Conditions -/

section Rules

variable (h : ∀ rule,
  Stumbles o (fun node => node.rule = rule ∧ rule.Open) (Parser.readRule n rule))

include h

/-- A rule that is not open does not hand an obstacle on. -/
theorem descend_closed (rule : Rule) (hclosed : ¬ rule.Open) :
    Trips o (Parser.descend (Parser.readRule n) rule) :=
  (descend (h rule)).imp fun _ => hclosed

theorem comparison : Trips o (comparison (Parser.readRule n)) :=
  (descend_closed h .operand (by decide)).next fun _ =>
    (take (by decide)).tracks.next fun _ =>
      (descend_closed h .operand (by decide)).tracks.next fun _ => .pure _

theorem term : Trips o (term (Parser.readRule n)) := by
  have hgroup : Trips o (Parser.descend (Parser.readRule n) .disjunction >>= fun d =>
      Parser.take [.and, .or, .rightParen] >>= fun _ => Pure.pure (Term.group d)) :=
    (descend (h .disjunction)).bind fun _ => (take (by decide)).next fun _ => .pure _
  exact choose (accept (by decide)) hgroup.tracks (descend_closed h .comparison (by decide))

/-- Terms or conjunctions with a connective between them. -/
theorem connective (rule : Rule) {kind : TokenKind}
    (hkind : ∀ other ∈ [TokenKind.number, .width, .unrecognised], other ≠ kind) :
    Stumbles o (fun _ => True)
      (Parser.many1 (Parser.accept kind) fun _ => Parser.descend (Parser.readRule n) rule) :=
  many1 (accept hkind) (fun _ => trivial) (fun _ => (descend (h rule)).imp fun _ _ => trivial)
    (fun _ => Awaits.descend (Awaits.readRule n rule)) fun _ => .descend n rule

theorem condition : Stumbles o (fun _ => True) (condition (Parser.readRule n)) := by
  have hexpression : Stumbles o (fun _ => True)
      (Parser.descend (Parser.readRule n) .disjunction >>= fun d =>
        Pure.pure (Condition.expression d)) :=
    (descend (h .disjunction)).map fun _ _ => trivial
  exact choose (accept (by decide)) (.pure _) hexpression

/-! ## Members -/

theorem values : Trips o (values (Parser.readRule n)) := by
  have hmore : Stumbles o (fun answer => answer = false) Parser.moreValues :=
    choose (accept (by decide)) (.pure _) (canStart .operand)
  have hitems : Stumbles o (fun _ => True)
      (Parser.many1 Parser.moreValues fun _ => Parser.descend (Parser.readRule n) .operand) :=
    many1 hmore (fun _ => trivial)
      (fun _ => (descend_closed h .operand (by decide)).imp fun _ => False.elim)
      (fun _ => Awaits.descend (Awaits.readRule n .operand)) fun _ => .descend n .operand
  have hgate : Gated [.identifier, .number, .comma, .rightSquare]
      (Parser.take [.identifier, .number, .comma, .rightSquare]) := .take _
  have hstalls (items : List Operand) : Stalls o (fun _ => False)
      (Parser.take [.identifier, .number, .comma, .rightSquare] >>= fun _ =>
        Pure.pure items) :=
    .of_gate (hgate.bind _) fun hforeign => hforeign.notMem (by decide)
  refine (take (by decide)).next fun _ => ⟨fun {us s s' vs s₁'} hs hus hrun => ?_⟩
  obtain ⟨items, s₂', hread, hclose⟩ := bind_ok.mp hrun
  obtain ⟨-, -, -, -, hstop⟩ := items_sound hs.ordered'.closed s'.scope.holds_names hread
  refine (hitems.tracks.course hs hus hread).bind (fun s₂ rest _ hs₂ hsuffix => ?_)
    fun _ _ => hstalls _
  obtain ⟨c, s₃', htake, hpure⟩ := bind_ok.mp hclose
  obtain ⟨hk, rfl, rfl⟩ := take_ok.mp htake
  obtain ⟨rfl, rfl⟩ := pure_ok.mp hpure
  cases rest with
  | nil =>
    obtain ⟨hleft, hright⟩ := hs₂.atFork
    rcases o.foreign_or_alike with hforeign | halike
    · exact .stumbled (hstalls _ s₂ hforeign hleft)
    · -- the token would have to be a number, but none is left behind the items
      rw [hright, ← halike] at hk hstop
      rw [o.number_of_mem hk (by decide)] at hstop
      exact absurd hstop (by decide)
  | cons v rest =>
    obtain ⟨hcurrent, hcurrent'⟩ := hs₂.current
    rw [bind_of_ok (take_ok.mpr ⟨hcurrent ▸ hcurrent' ▸ hk, rfl, rfl⟩)]
    exact .same hs₂.skip ((List.suffix_cons _ _).trans hsuffix)

theorem target : Trips o (target (Parser.readRule n)) := by
  have hbuiltin : Trips o (Parser.look >>= fun t =>
      Parser.descend (Parser.readRule n) .simpleType >>= fun (type : SimpleType) =>
        Pure.pure ((⟨type.builtin.keyword, t.offset⟩ : Name), Target.builtin type, 0)) :=
    look_bind (by decide) (fun _ => (Gated.descend n .simpleType).bind _) fun _ =>
      (descend_closed h .simpleType (by decide)).tracks.next fun _ => .pure _
  have hdeclared : Trips o (Parser.name >>= fun name => Parser.resolveType name >>= fun found =>
      Pure.pure (name, Target.declared found.1, found.2)) :=
    name.next fun n => (Tracks.nominal (.resolveType n)).next fun _ => .pure _
  exact choose (canStart .simpleType) hbuiltin.tracks hdeclared

omit h in
/-- In front of a list of values no obstacle is left out. A type without parameters takes none, and
behind the name of another type there is no obstacle. -/
theorem not_values_atFork {name : Name} {type : Target} {count : Nat} {vs : List Operand}
    {s₂ s₂' s₃' : State} (hs : s.Parted o.toFork us s') (hus : o.Approached us)
    (htarget : Parser.target (Parser.readRule n) s' = .ok (name, type, count) s₂')
    (hs₂ : s₂.Parted o.toFork [] s₂') (hright : o.right.kind = .leftSquare)
    (hvalues : Parser.descend (Parser.readRule n) .values s₂'.passComments = .ok vs s₃') :
    vs.length ≠ count := by
  rcases target_cases htarget with rfl | ⟨hk, rfl⟩
  · obtain ⟨_, -, hlist, -⟩ :=
      values_sound hs₂.ordered'.closed.passComments s₂'.scope.holds_names hvalues
    exact fun hlength => hlist.items_ne_nil (List.eq_nil_of_length_eq_zero hlength)
  · cases us with
    | nil =>
      rw [hs.atFork.2, hright] at hk
      cases hk
    | cons u us =>
      have hskip := hs.passComments.skip
      cases us with
      | nil => exact absurd (hs.current.2 ▸ hk) ((hus u rfl).values hright)
      | cons v us =>
        -- behind the name the right token would be both ahead and current
        obtain ⟨ts, hstream⟩ := hskip.right
        have hincreasing := hskip.ordered'.increasing
        rw [hstream, List.cons_append] at hincreasing
        have hpast : v.offset < o.right.offset :=
          (List.pairwise_cons.mp hincreasing).1 o.right (by simp)
        have hcurrent : v = o.right := hskip.current.2.symm.trans hs₂.atFork.2
        exact absurd (congrArg Token.offset hcurrent) (Nat.ne_of_lt hpast)

/-- The text that is read has no values where the other one has the obstacle. -/
theorem reference : Trips o (reference (Parser.readRule n)) := by
  refine ⟨(target h).stalls.bind fun _ => False.elim, ⟨fun {us s s' r s₁'} hs hus hrun => ?_⟩⟩
  obtain ⟨⟨name, type, count⟩, s₂', htarget, hrest⟩ := bind_ok.mp hrun
  refine ((target h).tracks.course hs hus htarget).bind (fun s₂ rest _ hs₂ hsuffix => ?_)
    fun _ => False.elim
  let withValues : Parser Reference := Parser.descend (Parser.readRule n) .values >>=
    fun (vs : List Operand) => if vs.length = count then
        Pure.pure (⟨name, type, some vs⟩ : Reference)
      else Parser.fail (.valueCount name.text count vs.length name.offset)
  let tail : Parser Reference := Parser.canStart .values >>= fun answer =>
    if answer = true then withValues else Pure.pure ⟨name, type, none⟩
  change tail s₂' = .ok r s₁' at hrest
  have hwith : Tracks o (fun _ => False) withValues :=
    (descend_closed h .values (by decide)).tracks.next fun _ => .ite (.pure _) .fail
  obtain ⟨answer, s₃', hanswer, hrest⟩ := bind_ok.mp hrest
  obtain ⟨rfl, rfl⟩ := canStart_ok.mp hanswer
  have hsame : Rule.values.canStart s₂.current.kind = Rule.values.canStart s₂'.current.kind := by
    cases rest with
    | cons v rest => rw [hs₂.current.1, hs₂.current.2]
    | nil =>
      have hleft : Rule.values.canStart o.left.kind = false :=
        decide_eq_false (o.notMem (by decide))
      rw [hs₂.atFork.1, hs₂.atFork.2, hleft, eq_comm, Bool.eq_false_iff]
      intro hcan
      have hright : o.right.kind = .leftSquare := List.mem_singleton.mp (of_decide_eq_true hcan)
      rw [hs₂.atFork.2, if_pos hcan] at hrest
      obtain ⟨vs, s₄', hvs, hlength⟩ := bind_ok.mp hrest
      have hne := not_values_atFork hs hus htarget hs₂ hright hvs
      rw [if_neg hne] at hlength
      exact fail_ok.mp hlength
  have hcourse : Course o (fun _ => False) rest r s₁' (tail s₂) := by
    have htail : tail s₂ = (if Rule.values.canStart s₂.current.kind = true then withValues
        else Pure.pure ⟨name, type, none⟩) s₂.passComments :=
      bind_of_ok (canStart_ok.mpr ⟨rfl, rfl⟩)
    rw [htail, hsame]
    exact (hwith.ite (.pure _)).course hs₂.passComments (hus.suffix hsuffix) hrest
  exact hcourse.suffix hsuffix

theorem field : Trips o (field (Parser.readRule n)) :=
  name.next fun _ => (descend_closed h .reference (by decide)).tracks.next fun _ =>
    (Tracks.nominal (.declareName _)).next fun _ => .pure _

theorem branch : Trips o (branch (Parser.readRule n)) := by
  have hguard (r : Reference) : Trips o (Parser.descend (Parser.readRule n) .condition >>=
      fun c => Parser.take [.rightParen] >>= fun _ => Pure.pure (⟨r, c⟩ : Branch)) :=
    (descend (h .condition)).bind fun _ => (take (by decide)).next fun _ => .pure _
  exact (descend_closed h .reference (by decide)).next fun r =>
    (take (by decide)).tracks.next fun _ => (hguard r).tracks

/-! ## Bodies -/

theorem fields : Trips o (fields (Parser.readRule n)) := by
  have hfields : Stumbles o (fun _ => True)
      (Parser.many1 (Parser.canStart .field) fun _ =>
        Parser.descend (Parser.readRule n) .field) :=
    many1 (canStart .field) (fun _ => trivial)
      (fun _ => (descend_closed h .field (by decide)).imp fun _ => False.elim)
      (fun _ => Awaits.descend (Awaits.readRule n .field)) fun _ => .descend n .field
  exact (take (by decide)).next fun _ =>
    (hfields.bind fun _ => (take (by decide)).next fun _ => .pure _).tracks

theorem sequence : Trips o (sequence (Parser.readRule n)) := by
  have hfields (ps : List Name) : Trips o
      (Parser.fields (Parser.readRule n) >>= fun fs => Pure.pure (Body.sequence ps fs)) :=
    (fields h).next fun _ => .pure _
  refine (take (by decide)).next fun _ => (choose (canStart .parameters) ?_ ?_).tracks
  · exact (descend_closed h .parameters (by decide)).tracks.next fun ps => (hfields ps).tracks
  · exact hfields []

theorem array : Trips o (array (Parser.readRule n)) := by
  refine (take (by decide)).next fun _ =>
    (descend_closed h .parameters (by decide)).tracks.next fun ps => ?_
  split
  · exact ((fields h).next fun _ => .pure _).tracks
  · exact .failDeclaring

theorem nextBranch (before : List Branch) :
    Trips o (nextBranch (Parser.readRule n) before) := by
  refine (descend_closed h .branch (by decide)).next fun b => ?_
  split
  · exact .failDeclaring
  · exact .pure _

theorem choice : Trips o (choice (Parser.readRule n)) := by
  have hbranches : Stumbles o (fun _ => True)
      (Parser.many1 (Parser.canStart .branch) (Parser.nextBranch (Parser.readRule n))) :=
    many1 (canStart .branch) (fun _ => trivial)
      (fun before => (nextBranch h before).imp fun _ => False.elim)
      (fun _ => Awaits.nextBranch (Awaits.readRule n) _)
      fun _ => (Gated.descend n .branch).bind _
  have hend (ps : List Name) (bs : List Branch) : Trips o
      (Parser.take (Rule.branch.first ++ [.rightCurly]) >>= fun _ =>
        if (defaultOffset? bs).isNone = true then
          Parser.declaring >>= fun name => Parser.fail (.missingDefault name.text name.offset)
        else Pure.pure (Body.choice ps bs)) :=
    (take (by decide)).next fun _ => .ite .failDeclaring (.pure _)
  exact (take (by decide)).next fun _ =>
    (descend_closed h .parameters (by decide)).tracks.next fun ps =>
      (take (by decide)).tracks.next fun _ => (hbranches.bind fun bs => hend ps bs).tracks

theorem body : Trips o (body (Parser.readRule n)) := by
  have hclosed : ∀ rule ∈ Rule.bodies, ¬ rule.Open := by decide
  rw [body_eq]
  refine (dispatch (by decide) fun rule hrule => (h rule).imp fun _ hopen =>
    hclosed rule hrule hopen.2).next fun node => ?_
  split
  · exact .pure _
  · exact .wrongNode

theorem declaration : Trips o (declaration (Parser.readRule n)) :=
  name.next fun n => (Tracks.nominal (.ensureFree n)).next fun _ =>
    (take (by decide)).tracks.next fun _ => (Tracks.nominal (.openDeclaration n)).next fun _ =>
      (body h).tracks.next fun _ => (Tracks.nominal .closeDeclaration).next fun _ =>
        (Tracks.nominal (.declareType n _)).next fun _ => (Tracks.record _).next fun _ => .pure _

omit h

/-- **Every rule** stumbles. -/
theorem readRule (n : Nat) (rule : Rule) :
    Stumbles o (fun node => node.rule = rule ∧ rule.Open) (Parser.readRule n rule) := by
  induction n generalizing rule with
  | zero => exact Stumbles.rule fun m hm => absurd hm (Nat.succ_ne_zero m).symm
  | succ n h =>
    refine Stumbles.rule fun m hm => ?_
    obtain rfl := Nat.succ.inj hm
    have hopen {rule : Rule} (hrule : rule.Open) {x : Parser rule.Output}
        (hx : Stumbles o (fun _ => True) x) : Tracks o (fun _ => rule.Open) x :=
      (hx.imp fun _ _ => hrule).tracks
    have hclosed {rule : Rule} {x : Parser rule.Output} (hx : Trips o x) :
        Tracks o (fun _ => rule.Open) x :=
      (hx.imp fun _ => False.elim).tracks
    cases rule with
    | declaration => exact hclosed (declaration h)
    | simpleType => exact simpleType.tracks
    | sequence => exact hclosed (sequence h)
    | array => exact hclosed (array h)
    | choice => exact hclosed (choice h)
    | parameters => exact hclosed parameters
    | field => exact hclosed (field h)
    | reference => exact hclosed (reference h)
    | values => exact hclosed (values h)
    | branch => exact hclosed (branch h)
    | condition => exact hopen (by decide) (condition h)
    | disjunction => exact hopen (by decide) (connective h .conjunction (by decide))
    | conjunction => exact hopen (by decide) (connective h .term (by decide))
    | term => exact hclosed (term h)
    | comparison => exact hclosed (comparison h)
    | operand => exact operand

/-- **The reading of a text** stumbles. -/
theorem declarations : Trips o declarations := by
  have hmore : Stumbles o (fun answer => answer = true) moreTokens :=
    look_pure (h := fun kind => decide (kind ≠ .endOfInput)) fun _ =>
      decide_eq_true o.not_endOfInput
  exact turns hmore (fun hno => Bool.noConfusion hno)
    (fun _ => (descend_closed (readRule nestingLimit) .declaration (by decide)))
    (fun _ => Awaits.descend (Awaits.readRule nestingLimit .declaration))
    (fun _ => .descend nestingLimit .declaration) []

end Rules

end Stumbles

end Parser

end RecordSchema
