import Mathlib.Data.Set.Function
import RecordSchema.Fault
import RecordSchema.Parser.Node
import RecordSchema.Proofs.Names
import RecordSchema.Proofs.Placement

/-!
# Relocations

A relocation takes what was read from one text to what is read from another one whose tokens
correspond: it renames names, and takes the offset of a token to that of its counterpart. Reserved
words are not renamed, since a reference to a built-in type goes by its keyword.

`Aligned R` relates lists of tokens that correspond one to one and in which widths touch the same
tokens. With `Token.Alike` it says that two texts differ in layout and in the choice of names; with
`Token.Moves` that a relocation takes the one to the other.

Results:
* `Relocation.between_follows`: there is a relocation between two texts with as many tokens.
* `Relocation.Follows.moves`: it takes tokens to their counterparts if they are alike.
* `Scope.find?_relocate`, `TypeTable.find?_relocate`: a renamed name is found if the name was.
-/

namespace RecordSchema

/-- What becomes of names, of the offsets of tokens, and of how long the tokens there are. -/
structure Relocation where
  rename : String → String
  move : Nat → Nat
  extent : Nat → Nat

section Relocate

variable (m : Relocation)

/-! ## Schemas -/

/-- The name renamed, at its new offset. -/
def Name.relocate (n : Name) : Name := ⟨m.rename n.text, m.move n.offset⟩

/-- Only names change. -/
def Operand.relocate : Operand → Operand
  | name n => .name (n.relocate m)
  | integer value => .integer value

mutual

/-- Every operand is relocated. -/
def Term.relocate : Term → Term
  | .comparison left relation right => .comparison (left.relocate m) relation (right.relocate m)
  | .group alternatives => .group (Disjunction.relocate alternatives)

/-- Every term is relocated. -/
def Conjunction.relocate : List Term → List Term
  | [] => []
  | t :: rest => Term.relocate t :: Conjunction.relocate rest

/-- Every conjunction is relocated. -/
def Disjunction.relocate : List (List Term) → List (List Term)
  | [] => []
  | c :: rest => Conjunction.relocate c :: Disjunction.relocate rest

end

theorem Conjunction.relocate_eq_map (c : List Term) :
    Conjunction.relocate m c = c.map (Term.relocate m) := by
  induction c with
  | nil => rfl
  | cons t c ih => rw [Conjunction.relocate, ih, List.map_cons]

theorem Disjunction.relocate_eq_map (d : List (List Term)) :
    Disjunction.relocate m d = d.map (Conjunction.relocate m) := by
  induction d with
  | nil => rfl
  | cons c d ih => rw [Disjunction.relocate, ih, List.map_cons]

/-- The default stays. -/
def Condition.relocate : Condition → Condition
  | default => .default
  | expression alternatives => .expression (Disjunction.relocate m alternatives)

/-- What is referred to stays, since that is a position. -/
def Reference.relocate (r : Reference) : Reference :=
  ⟨r.name.relocate m, r.target, r.values.map (·.map (·.relocate m))⟩

/-- The name and the type are relocated. -/
def Field.relocate (f : Field) : Field := ⟨f.name.relocate m, f.type.relocate m⟩

/-- The type and the condition are relocated. -/
def Branch.relocate (b : Branch) : Branch := ⟨b.type.relocate m, b.condition.relocate m⟩

/-- Parameters and members are relocated. -/
def Body.relocate : Body → Body
  | simple type => .simple type
  | sequence parameters fields =>
    .sequence (parameters.map (·.relocate m)) (fields.map (·.relocate m))
  | array count fields => .array (count.relocate m) (fields.map (·.relocate m))
  | choice parameters branches =>
    .choice (parameters.map (·.relocate m)) (branches.map (·.relocate m))

/-- The name and the body are relocated. -/
def Declaration.relocate (d : Declaration) : Declaration :=
  ⟨d.name.relocate m, d.body.relocate m⟩

/-- Every declaration is relocated. -/
def Schema.relocate (p : Schema) : Schema := ⟨p.declarations.map (·.relocate m)⟩

@[simp] theorem Condition.isDefault_relocate (c : Condition) :
    (c.relocate m).isDefault = c.isDefault := by
  cases c <;> rfl

@[simp] theorem Body.parameters_relocate (b : Body) :
    (b.relocate m).parameters = b.parameters.map (·.relocate m) := by
  cases b <;> rfl

/-- What a rule reads is relocated. -/
def Rule.relocate : (rule : Rule) → rule.Output → rule.Output
  | .declaration => Declaration.relocate m
  | .simpleType => id
  | .sequence | .array | .choice => Body.relocate m
  | .parameters => List.map (Name.relocate m)
  | .field => Field.relocate m
  | .reference => Reference.relocate m
  | .values => List.map (Operand.relocate m)
  | .branch => Branch.relocate m
  | .condition => Condition.relocate m
  | .disjunction => Disjunction.relocate m
  | .conjunction => Conjunction.relocate m
  | .term | .comparison => Term.relocate m
  | .operand => Operand.relocate m

/-- The rule stays. -/
def Node.relocate (node : Node) : Node := ⟨node.rule, node.rule.relocate m node.output⟩

/-! ## Faults -/

/-- Names are renamed, and offsets are those of the counterparts. What was expected, found and
counted stays. -/
def Cause.relocate : Cause → Cause
  | unexpectedToken expected got offset _ =>
    .unexpectedToken expected got (m.move offset) (m.extent offset)
  | invalidNumber text offset => .invalidNumber text (m.move offset)
  | parameterCount name expected got offset =>
    .parameterCount (m.rename name) expected got (m.move offset)
  | nameInUse name offset first => .nameInUse (m.rename name) (m.move offset) (m.move first)
  | undeclaredType name offset => .undeclaredType (m.rename name) (m.move offset)
  | valueCount name expected got offset =>
    .valueCount (m.rename name) expected got (m.move offset)
  | missingDefault name offset => .missingDefault (m.rename name) (m.move offset)
  | duplicateDefault name offset first =>
    .duplicateDefault (m.rename name) (m.move offset) (m.move first)
  | undeclaredName name offset => .undeclaredName (m.rename name) (m.move offset)
  | nestedTooDeep offset => .nestedTooDeep (m.move offset)
  | unexpectedNode rule offset => .unexpectedNode rule (m.move offset)
  | notNormalized => .notNormalized

/-- What was read, or the fault, as it is of the text of another source. -/
def Relocation.result (source : SourceId) : Except Fault Schema → Except Fault Schema
  | .ok p => .ok (p.relocate m)
  | .error f => .error ⟨source, f.cause.relocate m⟩

/-! ## Names in scope -/

/-- Every name is relocated. -/
def Scope.relocate (s : Scope) : Scope := ⟨s.names.map (·.relocate m)⟩

/-- The name is relocated, and the number of parameters stays. -/
def DeclaredType.relocate (t : DeclaredType) : DeclaredType := ⟨t.name.relocate m, t.parameters⟩

/-- Every type is relocated. -/
def TypeTable.relocate (t : TypeTable) : TypeTable := ⟨t.types.map (·.relocate m)⟩

/-- A relocation may be used on some names: it keeps them apart and no keyword is renamed. -/
structure Relocation.Fits (names : Set String) : Prop where
  injOn : Set.InjOn m.rename names
  keyword : ∀ b : Builtin, m.rename b.keyword = b.keyword

variable {m} {names : Set String}

/-- An item is found among others if its image is found among theirs. -/
theorem find?_map_image {α β : Type} {f : α → β} {q : α → Bool} {q' : β → Bool} {as : List α}
    (h : ∀ a ∈ as, q' (f a) = q a) : (as.map f).find? q' = (as.find? q).map f := by
  induction as with
  | nil => rfl
  | cons a as ih =>
    obtain ⟨ha, has⟩ := List.forall_mem_cons.mp h
    rw [List.map_cons, List.find?_cons, List.find?_cons, ha, ih has]
    cases q a <;> rfl

theorem Relocation.Fits.beq (hm : m.Fits names) {x y : String} (hx : x ∈ names)
    (hy : y ∈ names) : (m.rename x == m.rename y) = (x == y) := by
  rw [Bool.eq_iff_iff, beq_iff_eq, beq_iff_eq]
  exact hm.injOn.eq_iff hx hy

/-- **A renamed name is found in scope** where the name was. -/
theorem Scope.find?_relocate (hm : m.Fits names) {s : Scope} (hs : ∀ n ∈ s.names, n.text ∈ names)
    {x : String} (hx : x ∈ names) :
    (s.relocate m).find? (m.rename x) = (s.find? x).map (·.relocate m) :=
  find?_map_image fun n hn => hm.beq (hs n hn) hx

/-- **A renamed type is found** where the type was. -/
theorem TypeTable.find?_relocate (hm : m.Fits names) {t : TypeTable}
    (ht : ∀ d ∈ t.types, d.name.text ∈ names) {x : String} (hx : x ∈ names) :
    (t.relocate m).find? (m.rename x) =
      (t.find? x).map fun found => (found.1, found.2.relocate m) := by
  have hmap : (t.relocate m).types.zipIdx =
      t.types.zipIdx.map fun entry => (entry.1.relocate m, entry.2) := by
    simp only [relocate, List.zipIdx_map]
    rfl
  unfold find?
  rw [hmap, find?_map_image (q := fun entry => entry.1.name.text == x), Option.map_map,
    Option.map_map]
  · rfl
  · rintro ⟨d, i⟩ hd
    have hmem : d ∈ t.types := by
      rw [List.mk_mem_zipIdx_iff_getElem?] at hd
      exact List.mem_of_getElem? hd
    exact hm.beq (ht d hmem) hx

end Relocate

/-! ## Tokens -/

/-- The token that follows is a width, and nothing stands before it. -/
def Touches (t : Token) (ts : List Token) : Prop :=
  ∃ w ∈ ts.head?, w.kind = .width ∧ w.offset = t.stop

theorem touches_nil (t : Token) : ¬ Touches t [] := by simp [Touches]

theorem touches_cons (t w : Token) (ts : List Token) :
    Touches t (w :: ts) ↔ w.kind = .width ∧ w.offset = t.stop := by
  simp [Touches]

instance (t : Token) : (ts : List Token) → Decidable (Touches t ts)
  | [] => isFalse (touches_nil t)
  | w :: ts => decidable_of_iff _ (touches_cons t w ts).symm

/-- Tokens that correspond one to one, with widths that touch the same tokens. -/
inductive Aligned (R : Token → Token → Prop) : List Token → List Token → Prop
  | nil : Aligned R [] []
  | cons {t t' : Token} {ts ts' : List Token} (ht : R t t')
      (htouch : Touches t ts ↔ Touches t' ts') (h : Aligned R ts ts') :
      Aligned R (t :: ts) (t' :: ts')

theorem aligned_cons {R : Token → Token → Prop} {t t' : Token} {ts ts' : List Token} :
    Aligned R (t :: ts) (t' :: ts') ↔
      R t t' ∧ (Touches t ts ↔ Touches t' ts') ∧ Aligned R ts ts' := by
  constructor
  · rintro (_ | ⟨ht, htouch, h⟩)
    exact ⟨ht, htouch, h⟩
  · rintro ⟨ht, htouch, h⟩
    exact .cons ht htouch h

instance Aligned.decidable {R : Token → Token → Prop} [DecidableRel R] :
    (ts ts' : List Token) → Decidable (Aligned R ts ts')
  | [], [] => isTrue .nil
  | [], _ :: _ => isFalse nofun
  | _ :: _, [] => isFalse nofun
  | _ :: ts, _ :: ts' =>
    have : Decidable (Aligned R ts ts') := Aligned.decidable ts ts'
    decidable_of_iff _ aligned_cons.symm

/-- Tokens of one kind. An identifier is renamed, a connective may be written in either case, and
any other token has the same text. -/
structure Token.Alike (rename : String → String) (t t' : Token) : Prop where
  kind : t'.kind = t.kind
  name : t.kind = .identifier → t'.text = rename t.text
  text : t.kind ∉ [.identifier, .and, .or] → t'.text = t.text

instance (rename : String → String) : DecidableRel (Token.Alike rename) := fun t t' =>
  decidable_of_iff (t'.kind = t.kind ∧ (t.kind = .identifier → t'.text = rename t.text) ∧
      (t.kind ∉ [TokenKind.identifier, .and, .or] → t'.text = t.text))
    ⟨fun h => ⟨h.1, h.2.1, h.2.2⟩, fun h => ⟨h.kind, h.name, h.text⟩⟩

/-- A relocation takes a token to another one. The text of an identifier is one of some names. -/
structure Token.Moves (m : Relocation) (names : Set String) (t t' : Token) : Prop where
  kind : t'.kind = t.kind
  name : t.kind = .identifier → t'.text = m.rename t.text ∧ t.text ∈ names
  text : t.kind ∉ [.identifier, .and, .or] → t'.text = t.text
  offset : t'.offset = m.move t.offset
  length : t'.length = m.extent t.offset

/-- The names of the identifiers among some tokens. -/
def identifiers (ts : List Token) : Set String :=
  { x | ∃ t ∈ ts, t.kind = .identifier ∧ t.text = x }

/-- A relocation renames the identifiers among some tokens, and takes the offset of each token to
that of its counterpart. Keywords stay, since they are the names of built-in types. -/
structure Relocation.Follows (m : Relocation) (rename : String → String) (ts ts' : List Token) :
    Prop where
  name : ∀ x ∈ identifiers ts, m.rename x = rename x
  keyword : ∀ b : Builtin, m.rename b.keyword = b.keyword
  offset : ∀ t t', (t, t') ∈ ts.zip ts' → m.move t.offset = t'.offset
  length : ∀ t t', (t, t') ∈ ts.zip ts' → m.extent t.offset = t'.length

/-- The counterpart of the token at an offset. -/
def counterpart? (ts ts' : List Token) (offset : Nat) : Option Token :=
  ((ts.zip ts').find? (·.1.offset == offset)).map (·.2)

/-- A relocation that takes the tokens of one list to those of another, and renames names except
for reserved words. -/
def Relocation.between (rename : String → String) (ts ts' : List Token) : Relocation where
  rename x := if x ∈ keywords.map (·.1) then x else rename x
  move offset := ((counterpart? ts ts' offset).map (·.offset)).getD offset
  extent offset := ((counterpart? ts ts' offset).map (·.length)).getD 0

/-! ## Relocations between two texts -/

namespace Aligned

variable {R R' : Token → Token → Prop} {ts ts' : List Token}

/-- Tokens that correspond in one way correspond in another, if each pair of them does. -/
theorem imp (h : Aligned R ts ts') (hr : ∀ t t', (t, t') ∈ ts.zip ts' → R t t' → R' t t') :
    Aligned R' ts ts' := by
  induction h with
  | nil => exact .nil
  | cons ht htouch _ ih =>
    refine .cons (hr _ _ List.mem_cons_self ht) htouch (ih fun t t' hmem => ?_)
    exact hr t t' (List.mem_cons_of_mem _ hmem)

theorem length_eq (h : Aligned R ts ts') : ts.length = ts'.length := by
  induction h with
  | nil => rfl
  | cons _ _ _ ih => rw [List.length_cons, List.length_cons, ih]

/-- A pair more behind the others. -/
theorem concat {t t' : Token} (h : Aligned R ts ts') (ht : R t t') (hwidth : t.kind ≠ .width)
    (hwidth' : t'.kind ≠ .width) : Aligned R (ts ++ [t]) (ts' ++ [t']) := by
  have hlast {u v : Token} (hv : v.kind ≠ .width) : ¬ Touches u [v] :=
    fun h => hv ((touches_cons u v []).mp h).1
  induction h with
  | nil => exact .cons ht (iff_of_false (touches_nil t) (touches_nil t')) .nil
  | @cons u u' us us' hu htouch h ih =>
    refine .cons hu ?_ ih
    cases h with
    | nil => exact iff_of_false (hlast hwidth) (hlast hwidth')
    | cons _ _ _ => exact htouch

end Aligned

/-- Where offsets differ, the counterpart of a token is found. -/
theorem counterpart?_eq : ∀ {ts ts' : List Token} {t t' : Token},
    ts.Pairwise (fun t u => t.offset < u.offset) → (t, t') ∈ ts.zip ts' →
      counterpart? ts ts' t.offset = some t'
  | [], _, _, _, _, h => absurd h (by simp)
  | _ :: _, [], _, _, _, h => absurd h (by simp)
  | u :: us, u' :: us', t, t', hordered, h => by
    obtain ⟨hfirst, hordered⟩ := List.pairwise_cons.mp hordered
    unfold counterpart?
    rw [List.zip_cons_cons, List.find?_cons]
    rw [List.zip_cons_cons] at h
    rcases List.mem_cons.mp h with he | h
    · obtain ⟨rfl, rfl⟩ := Prod.mk.inj he
      simp
    · have hne : u.offset ≠ t.offset := Nat.ne_of_lt (hfirst t (List.of_mem_zip h).1)
      rw [show ((u, u').1.offset == t.offset) = false from beq_false_of_ne hne]
      exact counterpart?_eq hordered h

/-- An identifier is no reserved word. -/
theorem Spelling.Spells.notMem_keywords {kind : TokenKind} {cs : List Char}
    (h : Spelling.Spells kind cs) (hkind : kind = .identifier) :
    String.ofList cs ∉ keywords.map (·.1) := by
  have hwords : ∀ entry ∈ keywords, Spelling.nameKind entry.1 ≠ .identifier := by decide
  cases h with
  | mark h => exact absurd (by rw [hkind]; decide) (marks_kind h)
  | name _ _ =>
    intro hmem
    obtain ⟨entry, hentry, he⟩ := List.mem_map.mp hmem
    exact hwords entry hentry (he ▸ hkind)
  | number _ _ _ => exact absurd hkind (by decide)
  | width _ _ => exact absurd hkind (by decide)

namespace Relocation

variable {m : Relocation} {rename : String → String} {ts ts' : List Token}

/-- A renaming that keeps identifiers apart may be used on them. -/
theorem Follows.fits (h : m.Follows rename ts ts') (hinj : Set.InjOn rename (identifiers ts)) :
    m.Fits (identifiers ts) where
  injOn := hinj.congr fun x hx => (h.name x hx).symm
  keyword := h.keyword

/-- Tokens that are alike are taken to their counterparts. -/
theorem Follows.moves (h : m.Follows rename ts ts') (ha : Aligned (Token.Alike rename) ts ts') :
    Aligned (Token.Moves m (identifiers ts)) ts ts' := by
  refine ha.imp fun t t' hmem halike => ?_
  refine ⟨halike.kind, fun hkind => ?_, halike.text, (h.offset t t' hmem).symm,
    (h.length t t' hmem).symm⟩
  have hname : t.text ∈ identifiers ts := ⟨t, (List.of_mem_zip hmem).1, hkind, rfl⟩
  exact ⟨by rw [h.name _ hname, halike.name hkind], hname⟩

/-- The identifiers among tokens of a text are no reserved words. -/
theorem notMem_keywords (hp : ∀ t ∈ ts, t.kind ≠ .endOfInput → t.Proper) {x : String}
    (hx : x ∈ identifiers ts) : x ∉ keywords.map (·.1) := by
  obtain ⟨t, ht, hkind, rfl⟩ := hx
  have hspells := hp t ht (by simp [hkind]) (by simp [hkind])
  have hword := hspells.notMem_keywords hkind
  rwa [String.ofList_toList] at hword

/-- **There is a relocation between two lists of tokens** if the first are those of a text. -/
theorem between_follows (hp : ∀ t ∈ ts, t.kind ≠ .endOfInput → t.Proper)
    (hordered : ts.Pairwise fun t u => t.offset < u.offset) :
    (between rename ts ts').Follows rename ts ts' where
  name x hx := if_neg (notMem_keywords hp hx)
  keyword b := if_pos (by cases b <;> decide)
  offset t t' hmem := by simp [between, counterpart?_eq hordered hmem]
  length t t' hmem := by simp [between, counterpart?_eq hordered hmem]

end Relocation

end RecordSchema
