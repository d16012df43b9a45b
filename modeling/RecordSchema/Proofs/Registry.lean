import RecordSchema.Proofs.Soundness

/-!
# The table of types along a run

Only a declaration changes the table of types, and only as its last step: no other rule does,
whether it is read or refused, and a declaration that is refused does not either. So a name that is
free in front of a body is free behind it. `Finished` follows a run from declaration to declaration;
the table of the state it is in is the one of the declarations finished so far.

Results:
* `KeepsTypes.readRule`: no rule but a declaration changes the table.
* `declaration_eq_unchecked`, `declaration_types`: what a declaration does to it.
* `Finished.types_eq`: the table holds the declarations finished so far.
* `Finished.declarations_eq`: what is left to do is told by the state alone.
* `Finished.isPrefix`, `Finished.of_isPrefix`: the declarations finished at some point of a run are
  the first ones of the schema, and each of its declarations is finished at some point.
-/

namespace RecordSchema.Parser

open State

variable {α β : Type} {sub : Rule → Parser Node}

/-! ## Parsers that keep the table -/

/-- The state that a run ends in, with a result or with a fault. -/
def final : EStateM.Result Fault State α → State
  | .ok _ s => s
  | .error _ s => s

/-- A run ends with the table of types it began with, whatever its outcome. -/
def KeepsTypes (x : Parser α) : Prop := ∀ s, (final (x s)).types = s.types

namespace KeepsTypes

theorem pure (a : α) : KeepsTypes (pure a) := fun _ => rfl

theorem bind {x : Parser α} {f : α → Parser β} (hx : KeepsTypes x)
    (hf : ∀ a, KeepsTypes (f a)) : KeepsTypes (x >>= f) := by
  intro s
  have hfinal := hx s
  show (final (EStateM.bind x f s)).types = s.types
  unfold EStateM.bind
  cases hrun : x s with
  | ok a s₁ =>
    rw [hrun] at hfinal
    exact (hf a s₁).trans hfinal
  | error fault s₁ =>
    rw [hrun] at hfinal
    exact hfinal

theorem ite {c : Prop} [Decidable c] {x y : Parser α} (hx : KeepsTypes x) (hy : KeepsTypes y) :
    KeepsTypes (if c then x else y) := by
  split
  · exact hx
  · exact hy

theorem get : KeepsTypes get := fun _ => rfl

theorem fail (cause : Cause) : KeepsTypes (fail cause : Parser α) := fun _ => rfl

theorem record (event : Event) : KeepsTypes (record event) := fun _ => rfl

theorem look : KeepsTypes look := fun _ => rfl

theorem advance : KeepsTypes advance := fun _ => rfl

theorem unexpected (kinds : List TokenKind) : KeepsTypes (unexpected kinds : Parser α) :=
  look.bind fun _ => fail _

theorem expect (kinds : List TokenKind) : KeepsTypes (expect kinds) :=
  look.bind fun _ => .ite (pure _) (unexpected _)

theorem take (kinds : List TokenKind) : KeepsTypes (take kinds) :=
  (expect kinds).bind fun _ => advance.bind fun _ => pure _

theorem accept (kind : TokenKind) : KeepsTypes (accept kind) :=
  look.bind fun _ => .ite (advance.bind fun _ => pure _) (pure _)

theorem name : KeepsTypes name := (take _).bind fun _ => pure _

theorem canStart (rule : Rule) : KeepsTypes (canStart rule) := look.bind fun _ => pure _

theorem declareName (n : Name) : KeepsTypes (declareName n) := by
  intro s
  unfold Parser.declareName
  split <;> rfl

theorem resolveName (n : Name) : KeepsTypes (resolveName n) := by
  intro s
  unfold Parser.resolveName
  split <;> rfl

theorem resolveType (n : Name) : KeepsTypes (resolveType n) := by
  intro s
  unfold Parser.resolveType
  split <;> rfl

theorem ensureFree (n : Name) : KeepsTypes (ensureFree n) := by
  intro s
  unfold Parser.ensureFree
  split <;> rfl

theorem openDeclaration (n : Name) : KeepsTypes (openDeclaration n) := fun _ => rfl

theorem closeDeclaration : KeepsTypes closeDeclaration := fun _ => rfl

theorem declaring : KeepsTypes declaring := fun _ => rfl

/-! ## Rules and loops -/

theorem within {body : Parser α} (h : KeepsTypes body) : KeepsTypes (within body) := by
  intro s
  have hfinal := h { s with depth := s.depth + 1 }
  unfold Parser.within
  cases hrun : body { s with depth := s.depth + 1 } with
  | ok a s₁ =>
    rw [hrun] at hfinal
    exact hfinal
  | error fault s₁ =>
    rw [hrun] at hfinal
    exact hfinal

theorem tooDeep : KeepsTypes (tooDeep : Parser α) := look.bind fun _ => fail _

theorem wrongNode (rule : Rule) : KeepsTypes (wrongNode rule : Parser α) :=
  look.bind fun _ => fail _

theorem ensureStart (rule : Rule) : KeepsTypes (ensureStart rule) := by
  refine (canStart rule).bind fun started => ?_
  cases started with
  | true => exact get.bind fun _ => .ite tooDeep (pure _)
  | false => exact (unexpected _).bind fun _ => get.bind fun _ => .ite tooDeep (pure _)

theorem descend {rule : Rule} (h : KeepsTypes (sub rule)) : KeepsTypes (descend sub rule) := by
  refine h.bind fun node => ?_
  split
  · exact pure _
  · exact wrongNode rule

theorem dispatch {rules : List Rule} (h : ∀ rule ∈ rules, KeepsTypes (sub rule)) :
    KeepsTypes (dispatch sub rules) := by
  refine look.bind fun t => ?_
  cases hfind : rules.find? (·.canStart t.kind) with
  | some rule => exact h rule (List.mem_of_find?_eq_some hfind)
  | none => exact unexpected _

theorem manyWithin {more : Parser Bool} {item : List α → Parser α} (hm : KeepsTypes more)
    (hi : ∀ before, KeepsTypes (item before)) :
    ∀ (n : Nat) (before : List α), KeepsTypes (manyWithin more item n before)
  | 0, _ => pure _
  | n + 1, before => by
    refine hm.bind fun answer => ?_
    cases answer with
    | true => exact (hi before).bind fun a => manyWithin hm hi n (a :: before)
    | false => exact pure _

theorem many1 {more : Parser Bool} {item : List α → Parser α} (hm : KeepsTypes more)
    (hi : ∀ before, KeepsTypes (item before)) : KeepsTypes (many1 more item) := by
  have hleft : KeepsTypes tokensLeft := fun _ => rfl
  exact (hi []).bind fun _ => hleft.bind fun _ => manyWithin hm hi _ _

/-! ## The rules of the grammar -/

theorem operand : KeepsTypes operand := by
  refine (take _).bind fun t => ?_
  split
  · exact (resolveName _).bind fun _ => pure _
  · exact .ite (pure _) (fail _)

theorem simpleType : KeepsTypes simpleType := by
  refine (take _).bind fun word => look.bind fun t => ?_
  refine .ite (advance.bind fun _ => .bind ?_ fun _ => pure _) (pure _)
  exact .ite (pure _) (fail _)

theorem parameters : KeepsTypes parameters := by
  have hparameter : KeepsTypes parameter :=
    name.bind fun n => (declareName n).bind fun _ => pure _
  have hmore : KeepsTypes moreParameters := by
    refine (accept _).bind fun answer => ?_
    exact .ite (pure _) ((expect _).bind fun _ => pure _)
  exact (take _).bind fun _ => (many1 hmore fun _ => hparameter).bind fun _ =>
    (take _).bind fun _ => pure _

variable (h : ∀ rule, rule ≠ .declaration → KeepsTypes (sub rule))

include h

theorem comparison : KeepsTypes (comparison sub) := by
  have hoperand := descend (h .operand (by decide))
  exact hoperand.bind fun _ => (take _).bind fun _ => hoperand.bind fun _ => pure _

theorem term : KeepsTypes (term sub) := by
  have hdisjunction := descend (h .disjunction (by decide))
  refine (accept _).bind fun answer => .ite ?_ (descend (h .comparison (by decide)))
  exact hdisjunction.bind fun _ => (take _).bind fun _ => pure _

theorem conjunction : KeepsTypes (conjunction sub) :=
  many1 (accept _) fun _ => descend (h .term (by decide))

theorem disjunction : KeepsTypes (disjunction sub) :=
  many1 (accept _) fun _ => descend (h .conjunction (by decide))

theorem condition : KeepsTypes (condition sub) := by
  refine (accept _).bind fun answer => .ite (pure _) ?_
  exact (descend (h .disjunction (by decide))).bind fun _ => pure _

theorem values : KeepsTypes (values sub) := by
  have hmore : KeepsTypes moreValues :=
    (accept _).bind fun answer => .ite (pure _) (canStart _)
  have hoperand := descend (h .operand (by decide))
  exact (take _).bind fun _ => (many1 hmore fun _ => hoperand).bind fun _ =>
    (take _).bind fun _ => pure _

theorem reference : KeepsTypes (reference sub) := by
  have htarget : KeepsTypes (target sub) := by
    refine (canStart _).bind fun answer => .ite ?_ ?_
    · exact look.bind fun _ => (descend (h .simpleType (by decide))).bind fun _ => pure _
    · exact name.bind fun _ => (resolveType _).bind fun _ => pure _
  refine htarget.bind fun found => (canStart _).bind fun answer => .ite ?_ (pure _)
  exact (descend (h .values (by decide))).bind fun _ => .ite (pure _) (fail _)

theorem field : KeepsTypes (field sub) :=
  name.bind fun _ => (descend (h .reference (by decide))).bind fun _ =>
    (declareName _).bind fun _ => pure _

theorem branch : KeepsTypes (branch sub) :=
  (descend (h .reference (by decide))).bind fun _ => (take _).bind fun _ =>
    (descend (h .condition (by decide))).bind fun _ => (take _).bind fun _ => pure _

theorem fields : KeepsTypes (fields sub) := by
  have hfield := descend (h .field (by decide))
  exact (take _).bind fun _ => (many1 (canStart _) fun _ => hfield).bind fun _ =>
    (take _).bind fun _ => pure _

theorem sequence : KeepsTypes (sequence sub) := by
  have hfields := fields h
  refine (take _).bind fun _ => (canStart _).bind fun answer => .ite ?_ ?_
  · exact (descend (h .parameters (by decide))).bind fun _ => hfields.bind fun _ => pure _
  · exact (pure _).bind fun _ => hfields.bind fun _ => pure _

theorem array : KeepsTypes (array sub) := by
  refine (take _).bind fun _ => (descend (h .parameters (by decide))).bind fun ps => ?_
  split
  · exact (fields h).bind fun _ => pure _
  · exact declaring.bind fun _ => fail _

theorem choice : KeepsTypes (choice sub) := by
  have hbranch : ∀ before, KeepsTypes (nextBranch sub before) := by
    intro before
    refine (descend (h .branch (by decide))).bind fun b => ?_
    split
    · exact declaring.bind fun _ => fail _
    · exact pure _
  refine (take _).bind fun _ => (descend (h .parameters (by decide))).bind fun _ =>
    (take _).bind fun _ => (many1 (canStart _) hbranch).bind fun _ => (take _).bind fun _ => ?_
  exact .ite (declaring.bind fun _ => fail _) (pure _)

theorem body : KeepsTypes (body sub) := by
  have hdispatch : KeepsTypes (Parser.dispatch sub Rule.bodies) := by
    refine dispatch fun rule hmem => h rule ?_
    rintro rfl
    exact absurd hmem (by decide)
  refine hdispatch.bind fun node => ?_
  split
  · exact pure _
  · exact pure _
  · exact pure _
  · exact pure _
  · exact wrongNode _

omit h

/-- **No rule but a declaration** changes the table of types, whether it is read or refused. -/
theorem readRule : ∀ (n : Nat) (rule : Rule), rule ≠ .declaration → KeepsTypes (readRule n rule)
  | 0, rule, _ => (ensureStart rule).bind fun _ => tooDeep
  | n + 1, rule, hrule => by
    have h := readRule n
    refine (ensureStart rule).bind fun _ => look.bind fun _ => (record _).bind fun _ => within ?_
    rw [build_eq]
    refine .bind ?_ fun _ => pure _
    cases rule with
    | declaration => exact absurd rfl hrule
    | simpleType => exact simpleType
    | sequence => exact sequence h
    | array => exact array h
    | choice => exact choice h
    | parameters => exact parameters
    | field => exact field h
    | reference => exact reference h
    | values => exact values h
    | branch => exact branch h
    | condition => exact condition h
    | disjunction => exact disjunction h
    | conjunction => exact conjunction h
    | term => exact term h
    | comparison => exact comparison h
    | operand => exact operand

end KeepsTypes

/-! ## Declarations -/

/-- A declaration up to the end of its body. -/
def heading (sub : Rule → Parser Node) : Parser (Name × Body) := do
  let name ← name
  ensureFree name
  let _ ← take [.assignment]
  openDeclaration name
  let body ← body sub
  closeDeclaration
  return (name, body)

/-- Behind its body a declaration becomes known, and is completed. -/
theorem declaration_eq (sub : Rule → Parser Node) :
    declaration sub = heading sub >>= fun found => do
      let id ← declareType found.1 found.2.parameters.length
      record (.typeDeclared found.1.text id.index found.2.parameters.length)
      return ⟨found.1, found.2⟩ := by
  simp only [declaration, heading, bind_assoc, pure_bind]

theorem keepsTypes_heading (n : Nat) : KeepsTypes (heading (readRule n)) := by
  refine KeepsTypes.name.bind fun x => (KeepsTypes.ensureFree x).bind fun _ => ?_
  refine (KeepsTypes.take _).bind fun _ => (KeepsTypes.openDeclaration x).bind fun _ => ?_
  exact (KeepsTypes.body (KeepsTypes.readRule n)).bind fun _ =>
    KeepsTypes.closeDeclaration.bind fun _ => .pure _

/-- The name of a declaration is still free behind its body, in the table there was in front. -/
theorem heading_ok {n : Nat} {found : Name × Body} {s s' : State}
    (h : heading (readRule n) s = .ok found s') :
    s'.types = s.types ∧ s.types.ensureFree found.1 = .ok () := by
  have hkeeps := keepsTypes_heading n s
  rw [h] at hkeeps
  refine ⟨hkeeps, ?_⟩
  obtain ⟨x, s₁, hx, h⟩ := bind_ok.mp h
  obtain ⟨_, s₂, hensure, h⟩ := bind_ok.mp h
  obtain ⟨_, s₃, -, h⟩ := bind_ok.mp h
  obtain ⟨_, s₄, -, h⟩ := bind_ok.mp h
  obtain ⟨b, s₅, -, h⟩ := bind_ok.mp h
  obtain ⟨_, s₆, -, h⟩ := bind_ok.mp h
  obtain ⟨rfl, rfl⟩ := pure_ok.mp h
  have hname := KeepsTypes.name s
  rw [hx] at hname
  obtain ⟨hfree, rfl⟩ := ensureFree_ok.mp hensure
  rwa [← hname]

/-- Enters a type in the table, whether its name is free or not, and tells its position. -/
def enter (name : Name) (parameters : Nat) : Parser TypeId := fun s =>
  .ok ⟨s.types.types.length⟩ { s with types := ⟨s.types.types ++ [⟨name, parameters⟩]⟩ }

/-- A declaration that does not look a second time whether its name is free. -/
def unchecked (sub : Rule → Parser Node) : Parser Declaration := do
  let name ← name
  ensureFree name
  let _ ← take [.assignment]
  openDeclaration name
  let body ← body sub
  closeDeclaration
  let count := body.parameters.length
  let id ← enter name count
  record (.typeDeclared name.text id.index count)
  return ⟨name, body⟩

theorem unchecked_eq (sub : Rule → Parser Node) :
    unchecked sub = heading sub >>= fun found => do
      let id ← enter found.1 found.2.parameters.length
      record (.typeDeclared found.1.text id.index found.2.parameters.length)
      return ⟨found.1, found.2⟩ := by
  simp only [unchecked, heading, bind_assoc, pure_bind]

/-- Behind the body of a declaration its name need not be checked again. -/
theorem declareType_eq_enter {n : Nat} {found : Name × Body} {s s' : State}
    (h : heading (readRule n) s = .ok found s') (count : Nat) :
    declareType found.1 count s' = enter found.1 count s' := by
  obtain ⟨htypes, hfree⟩ := heading_ok h
  refine declareType_ok.mpr ⟨_, ?_, rfl⟩
  rw [← htypes] at hfree
  rw [TypeTable.declare, hfree]
  rfl

/-- **The second look at the name** of a declaration makes no difference. -/
theorem declaration_eq_unchecked (n : Nat) (s : State) :
    declaration (readRule n) s = unchecked (readRule n) s := by
  rw [declaration_eq, unchecked_eq]
  cases hrun : heading (readRule n) s with
  | ok found s' =>
    rw [bind_of_ok hrun, bind_of_ok hrun]
    have henter := declareType_eq_enter hrun found.2.parameters.length
    rw [bind_of_ok (henter.trans rfl)]
    rfl
  | error f s' => rw [bind_of_error hrun, bind_of_error hrun]

/-- **What a declaration does to the table**: read, it is one more entry, and refused, none. -/
theorem declaration_types (n : Nat) (s : State) :
    (∀ d s', declaration (readRule n) s = .ok d s' →
      s'.types = ⟨s.types.types ++ [⟨d.name, d.body.parameters.length⟩]⟩) ∧
    ∀ f s', declaration (readRule n) s = .error f s' → s'.types = s.types := by
  rw [declaration_eq_unchecked, unchecked_eq]
  have hkeeps := keepsTypes_heading n s
  cases hrun : heading (readRule n) s with
  | ok found s₁ =>
    rw [hrun] at hkeeps
    have htypes : s₁.types = s.types := hkeeps
    rw [bind_of_ok hrun, ← htypes]
    constructor
    · intro d s' h
      obtain ⟨rfl, rfl⟩ := EStateM.Result.ok.inj h
      rfl
    · exact fun f s' h => absurd h nofun
  | error f s₁ =>
    rw [hrun] at hkeeps
    rw [bind_of_error hrun]
    refine ⟨fun d s' h => absurd h nofun, fun f' s' h => ?_⟩
    obtain ⟨-, rfl⟩ := EStateM.Result.error.inj h
    exact hkeeps

/-! ## From declaration to declaration -/

/-- A run that begins at some lexemes has finished the declarations `ds` and is in state `s`. -/
inductive Finished (source : SourceId) (lexemes : Lexemes) : List Declaration → State → Prop
  | start : Finished source lexemes [] { source, lexemes }
  | next {ds : List Declaration} {d : Declaration} {s s₁ s₂ : State}
      (h : Finished source lexemes ds s) (hm : moreTokens s = .ok true s₁)
      (hd : descend rule .declaration s₁ = .ok d s₂) : Finished source lexemes (ds ++ [d]) s₂

namespace Finished

variable {source : SourceId} {lexemes : Lexemes} {ds : List Declaration} {s s₁ s' : State}

/-- The invariant of a run. -/
theorem invariant (h : Finished source lexemes ds s) (hclosed : lexemes.Closed) :
    s.Closed ∧ s.types = TypeTable.of ds ∧ DeclarationsWellFormed [] ds := by
  induction h with
  | start => exact ⟨hclosed, rfl, trivial⟩
  | next _ hm hd ih =>
    obtain ⟨hs, htypes, hwf⟩ := ih
    obtain ⟨-, rfl⟩ := moreTokens_ok.mp hm
    obtain ⟨us, hreads, -, hbody, hnew, htypes'⟩ :=
      declaration_sound hs.passComments htypes (Nat.le_refl _) hd
    exact ⟨hreads.closed, htypes', hwf.concat hnew hbody⟩

/-- **The table of types** is the one of the declarations finished so far. -/
theorem types_eq (h : Finished source lexemes ds s) (hclosed : lexemes.Closed) :
    s.types = TypeTable.of ds :=
  (h.invariant hclosed).2.1

/-- What is left to do behind the declarations finished so far. -/
theorem turns_left {all : List Declaration} (h : Finished source lexemes ds s)
    (ht : Turns moreTokens (fun _ => descend rule .declaration) [] { source, lexemes } all s') :
    ∃ as, all = ds ++ as ∧
      Turns moreTokens (fun _ => descend rule .declaration) ds.reverse s as s' := by
  induction h with
  | start => exact ⟨all, rfl, ht⟩
  | next _ hm hd ih =>
    obtain ⟨as, hall, hleft⟩ := ih
    cases hleft with
    | stop hstop => exact absurd (hm.symm.trans hstop) (by simp)
    | turn hm' hd' hleft =>
      obtain ⟨-, rfl⟩ := EStateM.Result.ok.inj (hm.symm.trans hm')
      obtain ⟨rfl, rfl⟩ := EStateM.Result.ok.inj (hd.symm.trans hd')
      exact ⟨_, by simpa using hall, by simpa using hleft⟩

/-- Turns that follow finish each declaration in turn. -/
theorem of_turns {before as : List Declaration} (h : Finished source lexemes before.reverse s)
    (ht : Turns moreTokens (fun _ => descend rule .declaration) before s as s') :
    ∀ ds, ds <+: as → ∃ s₂, Finished source lexemes (before.reverse ++ ds) s₂ := by
  induction ht with
  | stop _ =>
    intro ds hds
    obtain rfl := List.prefix_nil.mp hds
    exact ⟨_, by simpa using h⟩
  | @turn before as d s s₁ s₂ s' hm hd _ ih =>
    intro ds hds
    cases ds with
    | nil => exact ⟨s, by simpa using h⟩
    | cons e ds =>
      obtain ⟨rfl, hrest⟩ := List.cons_prefix_cons.mp hds
      have hnext : Finished source lexemes (e :: before).reverse s₂ := by
        rw [List.reverse_cons]
        exact .next h hm hd
      obtain ⟨s₃, hs₃⟩ := ih hnext ds hrest
      exact ⟨s₃, by simpa using hs₃⟩

/-- A further declaration takes some of the tokens. -/
theorem reads_next {d : Declaration} {s₂ : State} (h : Finished source lexemes ds s)
    (hclosed : lexemes.Closed) (hm : moreTokens s = .ok true s₁)
    (hd : descend rule .declaration s₁ = .ok d s₂) : ∃ us, us ≠ [] ∧ Reads s us s₂ := by
  have hinv := h.invariant hclosed
  rw [← List.reverse_reverse ds] at hinv
  obtain ⟨-, js, us, -, -, hne, hreads⟩ := keeps_declarations.turn hinv hm hd
  exact ⟨js ++ us, by simp [hne], hreads⟩

/-- **What is left to do** is told by the state alone, and there are turns enough for it. -/
theorem declarations_eq (h : Finished source lexemes ds s) (hclosed : lexemes.Closed) :
    ∃ n, s.tokens.length < n ∧ declarations { source, lexemes } =
      manyWithin moreTokens (fun _ => descend rule .declaration) n ds.reverse s := by
  induction h with
  | start => exact ⟨_, Nat.lt_succ_self _, bind_of_ok (tokensLeft_ok.mpr ⟨rfl, rfl⟩)⟩
  | next h hm hd ih =>
    obtain ⟨n, hn, heq⟩ := ih
    obtain ⟨us, hne, hreads⟩ := h.reads_next hclosed hm hd
    have hpos := List.length_pos_of_ne_nil hne
    have hlength := congrArg List.length hreads.tokens
    simp only [List.length_append] at hlength
    obtain ⟨n, rfl⟩ := Nat.exists_eq_succ_of_ne_zero (Nat.ne_of_gt (Nat.zero_lt_of_lt hn))
    refine ⟨n, by omega, heq.trans ?_⟩
    rw [manyWithin, bind_of_ok hm, if_pos rfl, bind_of_ok hd, List.reverse_append]
    rfl

/-- Turns to the end of the text finish all declarations, and leave no token. -/
theorem of_turns_all {before as : List Declaration} (h : Finished source lexemes before.reverse s)
    (ht : Turns moreTokens (fun _ => descend rule .declaration) before s as s') :
    ∃ s₂, Finished source lexemes (before.reverse ++ as) s₂ ∧ s₂.current.kind = .endOfInput := by
  induction ht with
  | stop hm =>
    obtain ⟨hend, -⟩ := moreTokens_ok.mp hm
    exact ⟨_, by simpa using h, by simpa using hend.symm⟩
  | @turn before as d s s₁ s₂ s' hm hd _ ih =>
    have hnext : Finished source lexemes (d :: before).reverse s₂ := by
      rw [List.reverse_cons]
      exact .next h hm hd
    obtain ⟨s₃, hs₃, hend⟩ := ih hnext
    exact ⟨s₃, by simpa using hs₃, hend⟩

/-- **A run that gives a schema** finishes all its declarations, at the end of the text. -/
theorem of_ok {p : Schema} (hclosed : lexemes.Closed)
    (hp : (run source lexemes).result = .ok p) :
    ∃ s, Finished source lexemes p.declarations s ∧ s.current.kind = .endOfInput := by
  obtain ⟨s', hrun⟩ := run_ok.mp hp
  have hs : State.Closed { source, lexemes } := hclosed
  have hturns := turns_of_many keeps_declarations ⟨hs, rfl, trivial⟩ hrun
  have hstart : Finished source lexemes (List.reverse []) { source, lexemes } := .start
  exact of_turns_all hstart hturns

/-- **The declarations finished so far** are the first ones of the schema that a run gives. -/
theorem isPrefix {p : Schema} (h : Finished source lexemes ds s) (hclosed : lexemes.Closed)
    (hp : (run source lexemes).result = .ok p) : ds <+: p.declarations := by
  obtain ⟨s', hrun⟩ := run_ok.mp hp
  have hs : State.Closed { source, lexemes } := hclosed
  have hturns := turns_of_many keeps_declarations ⟨hs, rfl, trivial⟩ hrun
  obtain ⟨as, hall, -⟩ := h.turns_left hturns
  exact ⟨as, hall.symm⟩

/-- **A run that gives a schema** finishes its declarations one by one. -/
theorem of_isPrefix {p : Schema} (hclosed : lexemes.Closed)
    (hp : (run source lexemes).result = .ok p) (hds : ds <+: p.declarations) :
    ∃ s, Finished source lexemes ds s := by
  obtain ⟨s', hrun⟩ := run_ok.mp hp
  have hs : State.Closed { source, lexemes } := hclosed
  have hturns := turns_of_many keeps_declarations ⟨hs, rfl, trivial⟩ hrun
  have hstart : Finished source lexemes (List.reverse []) { source, lexemes } := .start
  exact of_turns hstart hturns ds hds

end Finished

end RecordSchema.Parser
