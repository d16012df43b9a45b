import RecordSchema.Proofs.Refusal.Basic
import RecordSchema.Proofs.Relocation.Basic

/-!
# Parsers in lockstep

Two states correspond if a relocation takes the tokens ahead, the names in scope and the types of
the one to those of the other. `Lockstep` relates two parsers: from states that correspond both give
a result, and these are related and the states behind correspond, or both end in a fault, and the
relocation takes the one cause to the other. It is closed under sequence, choice, repetition and the
reading of rules. What is in the log does not matter.

Results:
* `Lockstep.bind`, `Lockstep.ite`, `Lockstep.manyWithin`: how parsers are put together.
* `Lockstep.descend`, `Lockstep.dispatch`: reading a sub-rule.
-/

namespace RecordSchema

/-- A relocation and the names it may be used on. -/
structure Correspondence where
  map : Relocation
  names : Set String
  fits : map.Fits names

namespace Parser

open State

/-- The relocation takes the one state to the other. Inside a declaration that includes its name. -/
structure State.Corresponds (c : Correspondence) (inside : Prop) (s s' : State) : Prop where
  stream : Aligned (Token.Moves c.map c.names) s.stream s'.stream
  scope : s'.scope = s.scope.relocate c.map
  known : ∀ n ∈ s.scope.names, n.text ∈ c.names
  types : s'.types = s.types.relocate c.map
  declared : ∀ t ∈ s.types.types, t.name.text ∈ c.names
  declaring : inside → s'.declaring = s.declaring.relocate c.map
  depth : s'.depth = s.depth

variable {α β γ δ : Type} {c : Correspondence} {inside : Prop} {V : α → β → Prop}

/-- Two results that are related, or two faults with causes that correspond. -/
inductive Agree (c : Correspondence) (inside : Prop) (V : α → β → Prop) :
    EStateM.Result Fault State α → EStateM.Result Fault State β → Prop
  | ok {a : α} {b : β} {s s' : State} (hv : V a b) (hs : s.Corresponds c inside s') :
      Agree c inside V (.ok a s) (.ok b s')
  | error {f f' : Fault} {s s' : State} (hf : f'.cause = f.cause.relocate c.map) :
      Agree c inside V (.error f s) (.error f' s')

/-- Results that agree do so when less is asked of them and of the states behind. -/
theorem Agree.imp {V' : α → β → Prop} {r : EStateM.Result Fault State α}
    {r' : EStateM.Result Fault State β} {inside' : Prop} (h : Agree c inside V r r')
    (hv : ∀ a b, V a b → V' a b)
    (hs : ∀ s s', State.Corresponds c inside s s' → State.Corresponds c inside' s s') :
    Agree c inside' V' r r' := by
  cases h with
  | ok hab hcorresponds => exact .ok (hv _ _ hab) (hs _ _ hcorresponds)
  | error hf => exact .error hf

/-- From states that correspond, two parsers agree. -/
def Lockstep (c : Correspondence) (inside : Prop) (V : α → β → Prop) (x : Parser α)
    (y : Parser β) : Prop :=
  ∀ s s', s.Corresponds c inside s' → Agree c inside V (x s) (y s')

/-- The second is what a function makes of the first. -/
def Sends (f : α → α) (a b : α) : Prop := b = f a

/-- Names that correspond, which are among those the relocation may be used on. -/
def NameMoves (c : Correspondence) (n n' : Name) : Prop :=
  n' = n.relocate c.map ∧ n.text ∈ c.names

/-! ## States that correspond -/

namespace State.Corresponds

variable {s s' : State}

/-- The current tokens correspond. -/
theorem current (h : s.Corresponds c inside s') : s.current.Moves c.map c.names s'.current := by
  obtain ⟨ts, hts⟩ := s.stream_eq_cons
  obtain ⟨ts', hts'⟩ := s'.stream_eq_cons
  have hstream := h.stream
  rw [hts, hts'] at hstream
  exact (aligned_cons.mp hstream).1

theorem passComments (h : s.Corresponds c inside s') :
    s.passComments.Corresponds c inside s'.passComments :=
  ⟨by rw [stream_passComments, stream_passComments]; exact h.stream, h.scope, h.known, h.types,
    h.declared, h.declaring, h.depth⟩

/-- The last token stays, and so it does for both. -/
theorem advance (h : s.Corresponds c inside s') : s.advance.Corresponds c inside s'.advance := by
  refine ⟨?_, h.scope, h.known, h.types, h.declared, h.declaring, h.depth⟩
  obtain ⟨_, ⟨l, later⟩, _, _, _, _, _⟩ := s
  obtain ⟨_, ⟨l', later'⟩, _, _, _, _, _⟩ := s'
  cases h.stream with
  | cons ht htouch htail =>
    cases later with
    | nil =>
      cases later' with
      | nil => exact .cons ht htouch htail
      | cons _ _ => cases htail
    | cons _ _ =>
      cases later' with
      | nil => cases htail
      | cons _ _ => exact htail

/-- Behind the current token a width touches it in the one state if it does in the other. -/
theorem touches (h : s.Corresponds c inside s') (hkind : s.current.kind ≠ .width) :
    (s.advance.current.kind = .width ∧ s.advance.current.offset = s.current.stop) ↔
      (s'.advance.current.kind = .width ∧ s'.advance.current.offset = s'.current.stop) := by
  have hkind' : s'.current.kind ≠ .width := h.current.kind ▸ hkind
  obtain ⟨_, ⟨l, later⟩, _, _, _, _, _⟩ := s
  obtain ⟨_, ⟨l', later'⟩, _, _, _, _, _⟩ := s'
  cases h.stream with
  | cons ht htouch htail =>
    cases later with
    | nil =>
      cases later' with
      | nil => exact iff_of_false (fun hw => hkind hw.1) fun hw => hkind' hw.1
      | cons _ _ => cases htail
    | cons _ _ =>
      cases later' with
      | nil => cases htail
      | cons _ _ => simpa [Touches, State.advance, Lexemes.advance, State.current] using htouch

theorem record (h : s.Corresponds c inside s') (event event' : Event) :
    (s.record event).Corresponds c inside (s'.record event') :=
  ⟨h.stream, h.scope, h.known, h.types, h.declared, h.declaring, h.depth⟩

theorem withDepth (h : s.Corresponds c inside s') (n : Nat) :
    State.Corresponds c inside { s with depth := n } { s' with depth := n } :=
  ⟨h.stream, h.scope, h.known, h.types, h.declared, h.declaring, rfl⟩

theorem weaken (h : s.Corresponds c True s') : s.Corresponds c inside s' :=
  ⟨h.stream, h.scope, h.known, h.types, h.declared, fun _ => h.declaring trivial, h.depth⟩

end State.Corresponds

namespace Lockstep

variable {W : γ → δ → Prop} {s s' : State}

/-! ## Sequence and choice -/

theorem pure {a : α} {b : β} (h : V a b) : Lockstep c inside V (pure a) (pure b) :=
  fun _ _ hs => .ok h hs

theorem bind {x : Parser α} {y : Parser β} {g : α → Parser γ} {h : β → Parser δ}
    (hx : Lockstep c inside V x y) (hg : ∀ a b, V a b → Lockstep c inside W (g a) (h b)) :
    Lockstep c inside W (x >>= g) (y >>= h) := by
  intro s s' hs
  show Agree c inside W (EStateM.bind x g s) (EStateM.bind y h s')
  have hrun := hx s s' hs
  unfold EStateM.bind
  generalize x s = r at hrun ⊢
  generalize y s' = r' at hrun ⊢
  cases hrun with
  | ok hv hs => exact hg _ _ hv _ _ hs
  | error hf => exact .error hf

/-- Behind results that are the same. -/
theorem bind_eq {x y : Parser α} {g : α → Parser γ} {h : α → Parser δ}
    (hx : Lockstep c inside Eq x y) (hg : ∀ a, Lockstep c inside W (g a) (h a)) :
    Lockstep c inside W (x >>= g) (y >>= h) := by
  refine hx.bind fun a b hab => ?_
  subst hab
  exact hg a

/-- Behind results of which the second is what a function makes of the first. -/
theorem bind_sends {f : α → α} {x y : Parser α} {g : α → Parser γ} {h : α → Parser δ}
    (hx : Lockstep c inside (Sends f) x y) (hg : ∀ a, Lockstep c inside W (g a) (h (f a))) :
    Lockstep c inside W (x >>= g) (y >>= h) := by
  refine hx.bind fun a b hab => ?_
  subst hab
  exact hg a

theorem imp {x : Parser α} {y : Parser β} {V' : α → β → Prop} (h : Lockstep c inside V x y)
    (hv : ∀ a b, V a b → V' a b) : Lockstep c inside V' x y :=
  fun s s' hs => (h s s' hs).imp hv fun _ _ => id

theorem ite {p q : Prop} [Decidable p] [Decidable q] {x x' : Parser α} {y y' : Parser β}
    (hpq : p ↔ q) (hx : Lockstep c inside V x y) (hx' : Lockstep c inside V x' y') :
    Lockstep c inside V (if p then x else x') (if q then y else y') := by
  by_cases hp : p
  · rw [if_pos hp, if_pos (hpq.mp hp)]
    exact hx
  · rw [if_neg hp, if_neg fun hq => hp (hpq.mpr hq)]
    exact hx'

/-! ## Tokens -/

theorem fail {cause cause' : Cause} (h : cause' = cause.relocate c.map) :
    Lockstep c inside V (fail cause) (fail cause') :=
  fun _ _ _ => .error h

theorem record (event event' : Event) :
    Lockstep c inside (fun _ _ => True) (record event) (record event') :=
  fun _ _ hs => .ok trivial (hs.record event event')

theorem look : Lockstep c inside (Token.Moves c.map c.names) look look :=
  fun _ _ hs => .ok hs.current hs.passComments

theorem advance : Lockstep c inside (fun _ _ => True) advance advance :=
  fun _ _ hs => .ok trivial hs.advance

theorem unexpected (kinds : List TokenKind) :
    Lockstep c inside V (unexpected kinds) (unexpected kinds) :=
  look.bind fun t t' ht => fail (by rw [ht.kind, ht.offset, ht.length]; rfl)

theorem expect (kinds : List TokenKind) :
    Lockstep c inside (fun t t' => t.Moves c.map c.names t' ∧ t.kind ∈ kinds) (expect kinds)
      (expect kinds) := by
  refine look.bind fun t t' ht => ?_
  by_cases hk : t.kind ∈ kinds
  · rw [if_pos hk, if_pos (ht.kind ▸ hk)]
    exact pure ⟨ht, hk⟩
  · rw [if_neg hk, if_neg (ht.kind ▸ hk)]
    exact unexpected kinds

theorem take (kinds : List TokenKind) :
    Lockstep c inside (fun t t' => t.Moves c.map c.names t' ∧ t.kind ∈ kinds) (take kinds)
      (take kinds) :=
  (expect kinds).bind fun _ _ ht => advance.bind fun _ _ _ => pure ht

/-- A token is taken and the next one looked at: the latter is a width that touches the former for
both or for none. -/
theorem take_look {kinds : List TokenKind} {g : Token → Token → Parser γ}
    {h : Token → Token → Parser δ} (hkinds : .width ∉ kinds)
    (hg : ∀ t t' u u', t.Moves c.map c.names t' → t.kind ∈ kinds → u.Moves c.map c.names u' →
      ((u.kind = .width ∧ u.offset = t.stop) ↔ (u'.kind = .width ∧ u'.offset = t'.stop)) →
      Lockstep c inside W (g t u) (h t' u')) :
    Lockstep c inside W (Parser.take kinds >>= fun t => Parser.look >>= g t)
      (Parser.take kinds >>= fun t => Parser.look >>= h t) := by
  intro s s' hs
  have hrun := (Lockstep.take kinds) s s' hs
  show Agree c inside W (EStateM.bind _ _ s) (EStateM.bind _ _ s')
  unfold EStateM.bind
  cases htake : Parser.take kinds s with
  | ok t s₁ =>
    obtain ⟨hk, rfl, rfl⟩ := take_ok.mp htake
    have hk' : s'.current.kind ∈ kinds := hs.current.kind ▸ hk
    have hnext := hs.passComments.advance
    rw [take_ok.mpr ⟨hk', rfl, rfl⟩]
    exact hg _ _ _ _ hs.current hk hnext.current
      (hs.passComments.touches fun he => hkinds (he ▸ hk)) _ _ hnext.passComments
  | error f s₁ =>
    rw [htake] at hrun
    generalize Parser.take kinds s' = r' at hrun ⊢
    cases hrun with
    | error hf => exact .error hf

theorem accept (kind : TokenKind) : Lockstep c inside Eq (accept kind) (accept kind) :=
  look.bind fun _ _ ht => .ite (by rw [ht.kind]) (advance.bind fun _ _ _ => pure rfl) (pure rfl)

theorem canStart (rule : Rule) : Lockstep c inside Eq (canStart rule) (canStart rule) :=
  look.bind fun _ _ ht => pure (by rw [ht.kind])

theorem name : Lockstep c inside (NameMoves c) name name := by
  refine (take _).bind fun t t' ht => pure ?_
  obtain ⟨htext, hmem⟩ := ht.1.name (List.mem_singleton.mp ht.2)
  exact ⟨by rw [htext, ht.1.offset]; rfl, hmem⟩

/-! ## Names -/

theorem declareName {n n' : Name} (hn : NameMoves c n n') :
    Lockstep c inside (fun _ _ => True) (declareName n) (declareName n') := by
  obtain ⟨rfl, hmem⟩ := hn
  intro s s' hs
  have hfind : s'.scope.find? (n.relocate c.map).text =
      (s.scope.find? n.text).map (·.relocate c.map) := by
    rw [hs.scope]
    exact Scope.find?_relocate c.fits hs.known hmem
  unfold Parser.declareName Scope.declare
  rw [hfind]
  cases s.scope.find? n.text with
  | some first => exact .error rfl
  | none =>
    refine .ok trivial ⟨hs.stream, ?_, ?_, hs.types, hs.declared, hs.declaring, hs.depth⟩
    · rw [hs.scope]
      rfl
    · exact List.forall_mem_cons.mpr ⟨hmem, hs.known⟩

theorem resolveName {n n' : Name} (hn : NameMoves c n n') :
    Lockstep c inside (fun _ _ => True) (resolveName n) (resolveName n') := by
  obtain ⟨rfl, hmem⟩ := hn
  intro s s' hs
  have hfind : s'.scope.find? (n.relocate c.map).text =
      (s.scope.find? n.text).map (·.relocate c.map) := by
    rw [hs.scope]
    exact Scope.find?_relocate c.fits hs.known hmem
  unfold Parser.resolveName
  rw [hfind]
  cases s.scope.find? n.text with
  | some _ => exact .ok trivial hs
  | none => exact .error rfl

/-- The table of the one state finds what that of the other does. -/
theorem find?_types {n : Name} (hs : s.Corresponds c inside s') (hmem : n.text ∈ c.names) :
    s'.types.find? (n.relocate c.map).text =
      (s.types.find? n.text).map fun found => (found.1, found.2.relocate c.map) := by
  rw [hs.types]
  exact TypeTable.find?_relocate c.fits hs.declared hmem

theorem resolveType {n n' : Name} (hn : NameMoves c n n') :
    Lockstep c inside Eq (resolveType n) (resolveType n') := by
  obtain ⟨rfl, hmem⟩ := hn
  intro s s' hs
  unfold Parser.resolveType
  rw [find?_types hs hmem]
  cases s.types.find? n.text with
  | some found => exact .ok rfl hs
  | none => exact .error rfl

theorem ensureFree {n n' : Name} (hn : NameMoves c n n') :
    Lockstep c inside (fun _ _ => True) (ensureFree n) (ensureFree n') := by
  obtain ⟨rfl, hmem⟩ := hn
  intro s s' hs
  unfold Parser.ensureFree TypeTable.ensureFree
  rw [find?_types hs hmem]
  cases s.types.find? n.text with
  | some found => exact .error rfl
  | none => exact .ok trivial hs

theorem declareType {n n' : Name} (hn : NameMoves c n n') (count : Nat) :
    Lockstep c inside (fun _ _ => True) (declareType n count) (declareType n' count) := by
  obtain ⟨rfl, hmem⟩ := hn
  intro s s' hs
  unfold Parser.declareType TypeTable.declare TypeTable.ensureFree
  rw [find?_types hs hmem]
  cases s.types.find? n.text with
  | some found => exact .error rfl
  | none =>
    refine .ok trivial ⟨hs.stream, hs.scope, hs.known, ?_, ?_, hs.declaring, hs.depth⟩
    · simp [hs.types, TypeTable.relocate, DeclaredType.relocate]
    · exact List.forall_mem_append.mpr ⟨hs.declared, List.forall_mem_singleton.mpr hmem⟩

/-- The name of a declaration corresponds while it is open. -/
theorem openDeclaration {n n' : Name} (hn : NameMoves c n n') {x : Parser γ} {y : Parser δ}
    (h : Lockstep c True W x y) :
    Lockstep c inside W (Parser.openDeclaration n >>= fun _ => x)
      (Parser.openDeclaration n' >>= fun _ => y) := by
  intro s s' hs
  have hopened : State.Corresponds c True { s with scope := {}, declaring := n }
      { s' with scope := {}, declaring := n' } :=
    ⟨hs.stream, rfl, fun _ hn => absurd hn List.not_mem_nil, hs.types, hs.declared,
      fun _ => hn.1, hs.depth⟩
  exact (h _ _ hopened).imp (fun _ _ => id) fun _ _ hs => hs.weaken

theorem closeDeclaration :
    Lockstep c inside (fun _ _ => True) closeDeclaration closeDeclaration := by
  intro s s' hs
  refine .ok trivial ⟨hs.stream, rfl, ?_, hs.types, hs.declared, hs.declaring, hs.depth⟩
  exact fun n hn => absurd hn List.not_mem_nil

theorem declaring : Lockstep c True (Sends (Name.relocate c.map)) declaring declaring :=
  fun _ _ hs => .ok (hs.declaring trivial) hs

/-- Faults that name the open declaration. -/
theorem fail_declaring {cause cause' : Name → Cause}
    (h : ∀ n : Name, cause' (n.relocate c.map) = (cause n).relocate c.map) :
    Lockstep c True V (Parser.declaring >>= fun n => Parser.fail (cause n))
      (Parser.declaring >>= fun n => Parser.fail (cause' n)) :=
  declaring.bind_sends fun n => fail (h n)

/-! ## Rules -/

theorem get : Lockstep c inside (fun s s' => s'.depth = s.depth) get get :=
  fun _ _ hs => .ok hs.depth hs

theorem tooDeep : Lockstep c inside V tooDeep tooDeep :=
  look.bind fun _ _ ht => fail (by rw [ht.offset]; rfl)

theorem wrongNode (rule : Rule) : Lockstep c inside V (wrongNode rule) (wrongNode rule) :=
  look.bind fun _ _ ht => fail (by rw [ht.offset]; rfl)

theorem ensureStart (rule : Rule) :
    Lockstep c inside (fun _ _ => True) (ensureStart rule) (ensureStart rule) := by
  have hdepth : Lockstep c inside (fun _ _ => True)
      (do if nestingLimit ≤ (← EStateM.get).depth then Parser.tooDeep)
      (do if nestingLimit ≤ (← EStateM.get).depth then Parser.tooDeep) :=
    get.bind fun _ _ hd => .ite (by rw [hd]) tooDeep (pure trivial)
  refine (canStart rule).bind_eq fun started => ?_
  cases started with
  | true => exact hdepth
  | false => exact (unexpected (V := fun _ _ => True) _).bind fun _ _ _ => hdepth

theorem within {x : Parser α} {y : Parser β} (h : Lockstep c inside V x y) :
    Lockstep c inside V (within x) (within y) := by
  intro s s' hs
  have hrun := h _ _ (hs.withDepth (s.depth + 1))
  unfold Parser.within
  rw [hs.depth]
  generalize x { s with depth := s.depth + 1 } = r at hrun ⊢
  generalize y { s' with depth := s.depth + 1 } = r' at hrun ⊢
  cases hrun with
  | ok hv hs₁ =>
    simp only [hs₁.depth]
    exact .ok hv (hs₁.withDepth _)
  | error hf => exact .error hf

variable {sub : Rule → Parser Node}

/-- **A sub-rule is read in lockstep** if its reader is. -/
theorem descend {rule : Rule}
    (h : Lockstep c inside (Sends (Node.relocate c.map)) (sub rule) (sub rule)) :
    Lockstep c inside (Sends (rule.relocate c.map)) (descend sub rule) (descend sub rule) := by
  refine h.bind_sends fun node => ?_
  have hrule : (node.relocate c.map).rule = node.rule := rfl
  by_cases he : node.rule = rule
  · subst he
    rw [dif_pos rfl, dif_pos hrule]
    exact pure rfl
  · rw [dif_neg he, dif_neg (hrule ▸ he)]
    exact wrongNode rule

theorem dispatch {rules : List Rule} (h : ∀ rule ∈ rules,
      Lockstep c inside (Sends (Node.relocate c.map)) (sub rule) (sub rule)) :
    Lockstep c inside (Sends (Node.relocate c.map)) (dispatch sub rules) (dispatch sub rules) := by
  refine look.bind fun t t' ht => ?_
  rw [ht.kind]
  cases hfind : rules.find? (·.canStart t.kind) with
  | some rule => exact h rule (List.mem_of_find?_eq_some hfind)
  | none => exact unexpected _

/-! ## Repetition -/

theorem tokensLeft : Lockstep c inside Eq tokensLeft tokensLeft := by
  intro s s' hs
  refine .ok ?_ hs
  have hlength := hs.stream.length_eq
  simp only [State.stream, Lexemes.stream, Lexemes.toList, List.length_map,
    List.length_cons] at hlength
  exact hlength

variable {f : α → α} {more : Parser Bool} {item item' : List α → Parser α}

/-- **Loops are in lockstep** if their turns are. -/
theorem manyWithin (hm : Lockstep c inside Eq more more)
    (hi : ∀ as, Lockstep c inside (Sends f) (item as) (item' (as.map f))) :
    ∀ (n : Nat) (as : List α), Lockstep c inside (Sends (List.map f))
      (manyWithin more item n as) (manyWithin more item' n (as.map f))
  | 0, as => pure (by simp [Sends])
  | n + 1, as => by
    refine hm.bind_eq fun answer => .ite Iff.rfl ?_ (pure (by simp [Sends]))
    exact (hi as).bind_sends fun a => manyWithin hm hi n (a :: as)

theorem many (hm : Lockstep c inside Eq more more)
    (hi : ∀ as, Lockstep c inside (Sends f) (item as) (item' (as.map f))) :
    Lockstep c inside (Sends (List.map f)) (many more item) (many more item') :=
  tokensLeft.bind_eq fun n => manyWithin hm hi n []

theorem many1 (hm : Lockstep c inside Eq more more)
    (hi : ∀ as, Lockstep c inside (Sends f) (item as) (item' (as.map f))) :
    Lockstep c inside (Sends (List.map f)) (many1 more item) (many1 more item') :=
  (hi []).bind_sends fun a => tokensLeft.bind_eq fun n => manyWithin hm hi n [a]

end Lockstep

end Parser

end RecordSchema
