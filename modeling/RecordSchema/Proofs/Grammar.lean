import Mathlib.Data.List.Basic
import RecordSchema.Schema.Rendering
import RecordSchema.Grammar
import RecordSchema.Text.Decimal

/-!
# Which tokens spell a schema

The grammar as relations between a part of a schema and the tokens it is read from, one relation
for each kind of part and one rule for each way to write it. They say nothing of what names mean,
and they do not look at the parser. A name is spelled at its offset, so that tokens spell at most
one schema.

Lists come in two shapes. In a `Trail` a separator stands before every item; a `Listed` list has a
first item and a trail behind it. What counts as a separator is a predicate on tokens: `only` one
of a kind, `perhaps` one of a kind, or `nothing`.
-/

namespace RecordSchema

/-! ## Separators and lists -/

/-- One token of a kind. -/
def only (kind : TokenKind) (ts : List Token) : Prop := ∃ t, ts = [t] ∧ t.kind = kind

/-- One token of a kind, or none. -/
def perhaps (kind : TokenKind) (ts : List Token) : Prop := ts = [] ∨ only kind ts

/-- No token. -/
def nothing (ts : List Token) : Prop := ts = []

section Lists

variable {α : Type}

/-- Items with a separator before each. -/
inductive Trail (sep : List Token → Prop) (item : α → List Token → Prop) :
    List α → List Token → Prop
  | nil : Trail sep item [] []
  | cons {a : α} {as : List α} {js us ts : List Token} (hj : sep js) (hi : item a us)
      (ht : Trail sep item as ts) : Trail sep item (a :: as) (js ++ us ++ ts)

/-- One item or more, with separators between them. -/
inductive Listed (sep : List Token → Prop) (item : α → List Token → Prop) :
    List α → List Token → Prop
  | mk {a : α} {as : List α} {us ts : List Token} (hi : item a us) (ht : Trail sep item as ts) :
      Listed sep item (a :: as) (us ++ ts)

/-- Items that one more can follow. -/
inductive Begun (sep : List Token → Prop) (item : α → List Token → Prop) :
    List α → List Token → Prop
  | nil : Begun sep item [] []
  | more {as : List α} {js us : List Token} (h : Listed sep item as us) (hj : sep js) :
      Begun sep item as (us ++ js)

/-- A stretch of tokens between an opening one and a closing one. -/
inductive Enclosed (opening closing : TokenKind) (inner : List Token → Prop) :
    List Token → Prop
  | mk {o c : Token} {ts : List Token} (ho : o.kind = opening) (hi : inner ts)
      (hc : c.kind = closing) : Enclosed opening closing inner (o :: (ts ++ [c]))

variable {sep : List Token → Prop} {item : α → List Token → Prop}

theorem Listed.ne_nil {as : List α} {ts : List Token} (h : Listed sep item as ts) : as ≠ [] := by
  cases h
  exact List.cons_ne_nil _ _

/-- A list of one item has no separators. -/
theorem Listed.single {a : α} {ts : List Token} (h : Listed sep item [a] ts) : item a ts := by
  cases h with
  | mk ha ht =>
    cases ht
    rwa [List.append_nil]

theorem Listed.of_single {a : α} {ts : List Token} (h : item a ts) : Listed sep item [a] ts := by
  have hlist : Listed sep item [a] (ts ++ []) := .mk h .nil
  rwa [List.append_nil] at hlist

/-- A trail can go on with one item more. -/
theorem Trail.concat {a : α} {as : List α} {js us ts : List Token} (h : Trail sep item as ts)
    (hj : sep js) (ha : item a us) : Trail sep item (as ++ [a]) (ts ++ (js ++ us)) := by
  induction h with
  | nil =>
    have htrail : Trail sep item [a] (js ++ us ++ []) := .cons hj ha .nil
    rwa [List.append_nil] at htrail
  | @cons b bs ks vs ws hk hb _ ih =>
    rw [List.append_assoc]
    exact .cons hk hb ih

/-- A list can go on with one item more. -/
theorem Listed.concat {a : α} {as : List α} {js us ts : List Token} (h : Listed sep item as ts)
    (hj : sep js) (ha : item a us) : Listed sep item (as ++ [a]) (ts ++ (js ++ us)) := by
  cases h with
  | mk hb ht =>
    rw [List.append_assoc]
    exact .mk hb (ht.concat hj ha)

/-- Without separators a list is a trail. -/
theorem Listed.trail {as : List α} {ts : List Token} (h : Listed nothing item as ts) :
    Trail nothing item as ts := by
  cases h with
  | mk ha ht => exact .cons (show nothing [] from rfl) ha ht

/-- A list of two items or more has a separator behind its first. -/
theorem Listed.uncons {a b : α} {as : List α} {ts : List Token}
    (h : Listed sep item (a :: b :: as) ts) :
    ∃ us js vs, ts = us ++ (js ++ vs) ∧ item a us ∧ sep js ∧ Listed sep item (b :: as) vs := by
  cases h with
  | mk ha ht =>
    cases ht with
    | @cons _ _ js us ts hj hb ht =>
      exact ⟨_, js, us ++ ts, by rw [List.append_assoc], ha, hj, .mk hb ht⟩

/-- A list between two tokens has an item. -/
theorem Enclosed.items_ne_nil {opening closing : TokenKind} {as : List α} {ts : List Token}
    (h : Enclosed opening closing (Listed sep item as) ts) : as ≠ [] := by
  cases h with
  | mk _ hlist _ => exact hlist.ne_nil

/-- Every item of a trail is spelled by some of its tokens. -/
theorem Trail.item_of_mem {a : α} {as : List α} {ts : List Token} (h : Trail sep item as ts)
    (ha : a ∈ as) : ∃ us, item a us ∧ us ⊆ ts := by
  induction h with
  | nil => exact absurd ha List.not_mem_nil
  | @cons b bs js us ts _ hi _ ih =>
    rcases List.mem_cons.mp ha with rfl | ha
    · exact ⟨us, hi, fun t ht => by simp [ht]⟩
    · obtain ⟨vs, hvs, hsub⟩ := ih ha
      exact ⟨vs, hvs, fun t ht => by simp [hsub ht]⟩

/-- Every item of a list is spelled by some of its tokens. -/
theorem Listed.item_of_mem {a : α} {as : List α} {ts : List Token} (h : Listed sep item as ts)
    (ha : a ∈ as) : ∃ us, item a us ∧ us ⊆ ts := by
  cases h with
  | @mk b bs us ts hi ht =>
    rcases List.mem_cons.mp ha with rfl | ha
    · exact ⟨us, hi, List.subset_append_left _ _⟩
    · obtain ⟨vs, hvs, hsub⟩ := ht.item_of_mem ha
      exact ⟨vs, hvs, List.subset_append_of_subset_right _ hsub⟩

theorem Begun.item_of_mem {a : α} {as : List α} {ts : List Token} (h : Begun sep item as ts)
    (ha : a ∈ as) : ∃ us, item a us ∧ us ⊆ ts := by
  cases h with
  | nil => exact absurd ha List.not_mem_nil
  | more h _ =>
    obtain ⟨us, hus, hsub⟩ := h.item_of_mem ha
    exact ⟨us, hus, List.subset_append_of_subset_left _ hsub⟩

/-- A trail of items that take tokens has at least as many tokens as items. -/
theorem Trail.length_le {as : List α} {ts : List Token} (h : Trail sep item as ts)
    (hn : ∀ a us, item a us → us ≠ []) : as.length ≤ ts.length := by
  induction h with
  | nil => exact Nat.le_refl _
  | cons _ hi _ ih =>
    have hpos := List.length_pos_of_ne_nil (hn _ _ hi)
    simp only [List.length_cons, List.length_append]
    omega

end Lists

/-! ## Conditions -/

/-- The kind of token that a relation is written with. -/
def Relation.sign : Relation → TokenKind
  | equal => .equal
  | notEqual => .notEqual
  | less => .less
  | lessEqual => .lessEqual
  | greater => .greater
  | greaterEqual => .greaterEqual

/-- An identifier. -/
inductive Name.SpelledBy : Name → List Token → Prop
  | mk {t : Token} (ht : t.kind = .identifier) : SpelledBy ⟨t.text, t.offset⟩ [t]

/-- An identifier or a number. -/
inductive Operand.SpelledBy : Operand → List Token → Prop
  | name {n : Name} {ts : List Token} (h : n.SpelledBy ts) : SpelledBy (.name n) ts
  | integer {t : Token} (ht : t.kind = .number) :
      SpelledBy (.integer (Text.decimalValue t.text.toList)) [t]

/-- A comparison, or a disjunction in parentheses. -/
inductive Term.SpelledBy : Term → List Token → Prop
  | comparison {l r : Operand} {x : Relation} {s : Token} {us ts : List Token}
      (hl : l.SpelledBy us) (hs : s.kind = x.sign) (hr : r.SpelledBy ts) :
      SpelledBy (.comparison l x r) (us ++ s :: ts)
  | group {d : List (List Term)} {o c : Token} {ts : List Token} (ho : o.kind = .leftParen)
      (hd : Listed (only .or) (Listed (only .and) SpelledBy) d ts) (hc : c.kind = .rightParen) :
      SpelledBy (.group d) (o :: (ts ++ [c]))

/-- Terms with `and` between them. -/
abbrev Conjunction.SpelledBy : Conjunction → List Token → Prop :=
  Listed (only .and) Term.SpelledBy

/-- Conjunctions with `or` between them. -/
abbrev Disjunction.SpelledBy : Disjunction → List Token → Prop :=
  Listed (only .or) Conjunction.SpelledBy

/-- `DEFAULT`, or a disjunction. -/
inductive Condition.SpelledBy : Condition → List Token → Prop
  | default {t : Token} (ht : t.kind = .default) : SpelledBy .default [t]
  | expression {d : Disjunction} {ts : List Token} (h : Disjunction.SpelledBy d ts) :
      SpelledBy (.expression d) ts

/-! ## Types and members -/

/-- The kind of token that a built-in type is written with. -/
def Builtin.word : Builtin → TokenKind
  | uint => .uint
  | bitString => .bitString
  | bool => .bool

/-- A keyword, and perhaps a width that touches it. -/
inductive SimpleType.SpelledBy : SimpleType → List Token → Prop
  | bare {b : Builtin} {k : Token} (hk : k.kind = b.word) : SpelledBy ⟨b, none⟩ [k]
  | wide {b : Builtin} {k w : Token} (hk : k.kind = b.word) (hw : w.kind = .width)
      (ho : w.offset = k.stop) :
      SpelledBy ⟨b, some (Text.decimalValue (w.text.toList.drop 1))⟩ [k, w]

/-- A list in square brackets, with or without commas between its items. -/
abbrev Bracketed {α : Type} (item : α → List Token → Prop) (as : List α) : List Token → Prop :=
  Enclosed .leftSquare .rightSquare (Listed (perhaps .comma) item as)

/-- The values of a reference, or nothing. -/
inductive ValuesSpelledBy : Option (List Operand) → List Token → Prop
  | none : ValuesSpelledBy none []
  | some {vs : List Operand} {ts : List Token} (h : Bracketed Operand.SpelledBy vs ts) :
      ValuesSpelledBy (some vs) ts

/-- A type and perhaps values. What a declared type refers to is not told by its spelling. -/
inductive Reference.SpelledBy : Reference → List Token → Prop
  | builtin {t : SimpleType} {k : Token} {vs : Option (List Operand)} {us ts : List Token}
      (ht : t.SpelledBy (k :: us)) (hv : ValuesSpelledBy vs ts) :
      SpelledBy ⟨⟨t.builtin.keyword, k.offset⟩, .builtin t, vs⟩ (k :: us ++ ts)
  | declared {n : Name} {id : TypeId} {vs : Option (List Operand)} {us ts : List Token}
      (hn : n.SpelledBy us) (hv : ValuesSpelledBy vs ts) :
      SpelledBy ⟨n, .declared id, vs⟩ (us ++ ts)

/-- A name and a type. -/
inductive Field.SpelledBy : Field → List Token → Prop
  | mk {n : Name} {r : Reference} {us ts : List Token} (hn : n.SpelledBy us)
      (hr : r.SpelledBy ts) : SpelledBy ⟨n, r⟩ (us ++ ts)

/-- A type and a condition in parentheses. -/
inductive Branch.SpelledBy : Branch → List Token → Prop
  | mk {r : Reference} {c : Condition} {us ts : List Token} (hr : r.SpelledBy us)
      (hc : Enclosed .leftParen .rightParen c.SpelledBy ts) : SpelledBy ⟨r, c⟩ (us ++ ts)

/-! ## Declarations -/

/-- Members in braces. -/
abbrev Braced {α : Type} (item : α → List Token → Prop) (as : List α) : List Token → Prop :=
  Enclosed .leftCurly .rightCurly (Listed nothing item as)

/-- What stands behind `::=`. Only a sequence can leave its brackets out. -/
inductive Body.SpelledBy : Body → List Token → Prop
  | simple {t : SimpleType} {ts : List Token} (h : t.SpelledBy ts) : SpelledBy (.simple t) ts
  | bare {k : Token} {fs : List Field} {ts : List Token} (hk : k.kind = .sequence)
      (hf : Braced Field.SpelledBy fs ts) : SpelledBy (.sequence [] fs) (k :: ts)
  | sequence {k : Token} {ps : List Name} {fs : List Field} {us ts : List Token}
      (hk : k.kind = .sequence) (hp : Bracketed Name.SpelledBy ps us)
      (hf : Braced Field.SpelledBy fs ts) : SpelledBy (.sequence ps fs) (k :: (us ++ ts))
  | array {k : Token} {p : Name} {fs : List Field} {us ts : List Token} (hk : k.kind = .array)
      (hp : Bracketed Name.SpelledBy [p] us) (hf : Braced Field.SpelledBy fs ts) :
      SpelledBy (.array p fs) (k :: (us ++ ts))
  | choice {k : Token} {ps : List Name} {bs : List Branch} {us ts : List Token}
      (hk : k.kind = .choice) (hp : Bracketed Name.SpelledBy ps us)
      (hb : Braced Branch.SpelledBy bs ts) : SpelledBy (.choice ps bs) (k :: (us ++ ts))

/-- `name ::= body` -/
inductive Declaration.SpelledBy : Declaration → List Token → Prop
  | mk {n : Name} {b : Body} {a : Token} {us ts : List Token} (hn : n.SpelledBy us)
      (ha : a.kind = .assignment) (hb : b.SpelledBy ts) : SpelledBy ⟨n, b⟩ (us ++ a :: ts)

/-- Declarations one behind the other. -/
def Schema.SpelledBy (s : Schema) (ts : List Token) : Prop :=
  Trail nothing Declaration.SpelledBy s.declarations ts

/-! ## First tokens -/

/-- The tokens begin with one of some kinds. -/
def Begins (kinds : List TokenKind) (ts : List Token) : Prop :=
  ∃ t us, ts = t :: us ∧ t.kind ∈ kinds

theorem begins_cons {kind : TokenKind} {t : Token} (h : t.kind = kind) (ts : List Token) :
    Begins [kind] (t :: ts) :=
  ⟨t, ts, rfl, List.mem_singleton.mpr h⟩

theorem Begins.ne_nil {kinds : List TokenKind} {ts : List Token} (h : Begins kinds ts) :
    ts ≠ [] := by
  obtain ⟨t, us, rfl, -⟩ := h
  exact List.cons_ne_nil t us

theorem Begins.append {kinds : List TokenKind} {ts : List Token} (h : Begins kinds ts)
    (us : List Token) : Begins kinds (ts ++ us) := by
  obtain ⟨t, ts, rfl, hk⟩ := h
  exact ⟨t, ts ++ us, rfl, hk⟩

/-- The tokens begin with none of some kinds. -/
def Avoids (kinds : List TokenKind) (ts : List Token) : Prop := ∀ t ∈ ts.head?, t.kind ∉ kinds

theorem avoids_cons {kinds : List TokenKind} {t : Token} {ts : List Token}
    (h : t.kind ∉ kinds) : Avoids kinds (t :: ts) := by
  intro t' ht'
  obtain rfl := Option.mem_some_iff.mp ht'
  exact h

theorem Begins.avoids {kinds others : List TokenKind} {ts : List Token} (h : Begins kinds ts)
    (hdisjoint : ∀ kind ∈ kinds, kind ∉ others) (us : List Token) : Avoids others (ts ++ us) := by
  obtain ⟨t, ts, rfl, hk⟩ := h
  exact avoids_cons (hdisjoint _ hk)

theorem Listed.begins {α : Type} {sep : List Token → Prop} {item : α → List Token → Prop}
    {kinds : List TokenKind} (hi : ∀ a us, item a us → Begins kinds us) {as : List α}
    {ts : List Token} (h : Listed sep item as ts) : Begins kinds ts := by
  cases h with
  | mk ha _ => exact (hi _ _ ha).append _

theorem Enclosed.begins {opening closing : TokenKind} {inner : List Token → Prop}
    {ts : List Token} (h : Enclosed opening closing inner ts) : Begins [opening] ts := by
  cases h with
  | mk ho _ _ => exact begins_cons ho _

theorem Name.SpelledBy.begins {n : Name} {ts : List Token} (h : n.SpelledBy ts) :
    Begins [.identifier] ts := by
  cases h with
  | mk ht => exact ⟨_, [], rfl, by simp [ht]⟩

theorem Operand.SpelledBy.begins {o : Operand} {ts : List Token} (h : o.SpelledBy ts) :
    Begins Rule.operandStart ts := by
  cases h with
  | name hn =>
    cases hn with
    | mk ht => exact ⟨_, [], rfl, by simp [ht, Rule.operandStart]⟩
  | integer ht => exact ⟨_, [], rfl, by simp [ht, Rule.operandStart]⟩

theorem Term.SpelledBy.begins {t : Term} {ts : List Token} (h : t.SpelledBy ts) :
    Begins Rule.termStart ts := by
  cases h with
  | comparison hl _ _ =>
    obtain ⟨k, us, rfl, hk⟩ := hl.begins
    exact ⟨k, _, rfl, List.mem_cons_of_mem _ hk⟩
  | group ho _ _ => exact ⟨_, _, rfl, by simp [ho, Rule.termStart]⟩

theorem Conjunction.begins {c : Conjunction} {ts : List Token} (h : Conjunction.SpelledBy c ts) :
    Begins Rule.termStart ts :=
  Listed.begins (fun _ _ ht => ht.begins) h

theorem Disjunction.begins {d : Disjunction} {ts : List Token} (h : Disjunction.SpelledBy d ts) :
    Begins Rule.termStart ts :=
  Listed.begins (fun _ _ hc => Conjunction.begins hc) h

theorem Condition.SpelledBy.begins {c : Condition} {ts : List Token} (h : c.SpelledBy ts) :
    Begins (.default :: Rule.termStart) ts := by
  cases h with
  | default ht => exact ⟨_, [], rfl, by simp [ht]⟩
  | expression hd =>
    obtain ⟨t, us, rfl, ht⟩ := Disjunction.begins hd
    exact ⟨t, us, rfl, List.mem_cons_of_mem _ ht⟩

theorem Builtin.word_mem (b : Builtin) : b.word ∈ Rule.typeWords := by
  cases b <;> decide

theorem SimpleType.SpelledBy.begins {t : SimpleType} {ts : List Token} (h : t.SpelledBy ts) :
    Begins Rule.typeWords ts := by
  cases h with
  | bare hk => exact ⟨_, [], rfl, hk ▸ Builtin.word_mem _⟩
  | wide hk _ _ => exact ⟨_, _, rfl, hk ▸ Builtin.word_mem _⟩

theorem Reference.SpelledBy.begins {r : Reference} {ts : List Token} (h : r.SpelledBy ts) :
    Begins Rule.reference.first ts := by
  cases h with
  | builtin ht _ =>
    obtain ⟨k, us, he, hk⟩ := ht.begins
    obtain ⟨rfl, rfl⟩ := List.cons.inj he
    exact ⟨_, _, rfl, List.mem_append_left _ hk⟩
  | declared hn _ =>
    obtain ⟨k, us, rfl, hk⟩ := hn.begins
    exact ⟨k, _, rfl, List.mem_append_right _ hk⟩

theorem Field.SpelledBy.begins {f : Field} {ts : List Token} (h : f.SpelledBy ts) :
    Begins Rule.field.first ts := by
  cases h with
  | mk hn _ => exact hn.begins.append _

theorem Branch.SpelledBy.begins {b : Branch} {ts : List Token} (h : b.SpelledBy ts) :
    Begins Rule.branch.first ts := by
  cases h with
  | mk hr _ => exact hr.begins.append _

theorem Declaration.SpelledBy.begins {d : Declaration} {ts : List Token} (h : d.SpelledBy ts) :
    Begins Rule.declaration.first ts := by
  cases h with
  | mk hn _ _ => exact hn.begins.append _

end RecordSchema
