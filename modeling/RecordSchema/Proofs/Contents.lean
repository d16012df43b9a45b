import RecordSchema.Proofs.Scoping
import RecordSchema.Proofs.Unambiguity.Member

/-!
# Contents of a schema

What a schema says in names and numbers, listed in the order of its text. A `Collector` tells what
to list for each of them, and `Schema.collect` goes over the whole tree once for all collectors. The
tokens that spell a schema say the same: what is listed for the parts of the tree is related to what
is listed for the tokens, if it is so for each single name, number and built-in type.

Results:
* `Schema.SpelledBy.collects`: the contents of a schema and those of its tokens.
* `Schema.names_offsets`, `Schema.identifiers_eq`: the names.
* `Schema.integers_eq`, `Schema.widths_eq`: the numbers and the widths.
-/

namespace RecordSchema

/-! ## Collectors -/

/-- What to list for the leaves of a schema. A built-in type is declared under a name of its own or
used by the name of its keyword. -/
structure Collector (α : Type) where
  name : Name → List α
  integer : Nat → List α
  declared : SimpleType → List α
  used : Name → SimpleType → List α

section Collect

variable {α : Type} (c : Collector α)

def Operand.collect : Operand → List α
  | name n => c.name n
  | integer value => c.integer value

def Reference.collect (r : Reference) : List α :=
  (match r.target with
    | .builtin type => c.used r.name type
    | .declared _ => c.name r.name) ++ r.operands.flatMap (·.collect c)

def Field.collect (f : Field) : List α := c.name f.name ++ f.type.collect c

def Condition.collect (d : Condition) : List α := d.operands.flatMap (·.collect c)

def Branch.collect (b : Branch) : List α := b.type.collect c ++ b.condition.collect c

def Body.collect : Body → List α
  | simple type => c.declared type
  | sequence parameters fields => parameters.flatMap c.name ++ fields.flatMap (·.collect c)
  | array count fields => c.name count ++ fields.flatMap (·.collect c)
  | choice parameters branches => parameters.flatMap c.name ++ branches.flatMap (·.collect c)

def Declaration.collect (d : Declaration) : List α := c.name d.name ++ d.body.collect c

/-- What a schema says, in the order of its text. -/
def Schema.collect (p : Schema) : List α := p.declarations.flatMap (·.collect c)

end Collect

namespace Collector

/-- Lists every name. -/
def ofNames : Collector Name := ⟨([·]), fun _ => [], fun _ => [], fun n _ => [n]⟩

/-- Lists the names that are no keywords. -/
def ofIdentifiers : Collector Name := ⟨([·]), fun _ => [], fun _ => [], fun _ _ => []⟩

/-- Lists every integer. -/
def ofIntegers : Collector Nat := ⟨fun _ => [], ([·]), fun _ => [], fun _ _ => []⟩

/-- Lists every width. -/
def ofWidths : Collector Nat :=
  ⟨fun _ => [], fun _ => [], (·.width.toList), fun _ t => t.width.toList⟩

end Collector

namespace Schema

/-- Every name of a schema: of declarations, parameters, fields, operands and types that are used. A
built-in type is used by its keyword. -/
def names : Schema → List Name := collect .ofNames

/-- The names that are no keywords. -/
def identifiers : Schema → List Name := collect .ofIdentifiers

/-- Every integer among the operands of a schema. -/
def integers : Schema → List Nat := collect .ofIntegers

/-- The width of every built-in type that has one. -/
def widths : Schema → List Nat := collect .ofWidths

end Schema

/-! ## Contents of tokens -/

theorem Conjunction.operands_eq (c : Conjunction) :
    Conjunction.operands c = c.flatMap Term.operands := by
  induction c with
  | nil => rfl
  | cons t c ih => rw [Conjunction.operands, ih, List.flatMap_cons]

theorem Disjunction.operands_eq (d : Disjunction) :
    Disjunction.operands d = d.flatMap Conjunction.operands := by
  induction d with
  | nil => rfl
  | cons c d ih => rw [Disjunction.operands, ih, List.flatMap_cons]

variable {α β : Type} {R : List α → List β → Prop} {g : Token → List β}

/-- Lists that are related stay so behind others that are. -/
structure Additive (R : List α → List β → Prop) : Prop where
  nil : R [] []
  append : ∀ {as cs : List α} {bs ds : List β}, R as bs → R cs ds → R (as ++ cs) (bs ++ ds)

theorem Additive.eq : Additive (Eq : List α → List α → Prop) :=
  ⟨rfl, fun h h' => by rw [h, h']⟩

/-- What the one list gives is among the other, in order. -/
theorem Additive.sublist (f : α → β) : Additive fun as bs => (as.map f).Sublist bs :=
  ⟨List.nil_sublist _, fun h h' => by rw [List.map_append]; exact h.append h'⟩

/-- What a collector lists for a leaf of a schema is related to what is listed for its tokens. -/
structure Collector.Reads (c : Collector α) (R : List α → List β → Prop) (g : Token → List β) :
    Prop extends Additive R where
  identifier : ∀ {t : Token}, t.kind = .identifier → R (c.name ⟨t.text, t.offset⟩) (g t)
  number : ∀ {t : Token}, t.kind = .number →
    R (c.integer (Text.decimalValue t.text.toList)) (g t)
  declared : ∀ {t : SimpleType} {ts : List Token}, t.SpelledBy ts →
    R (c.declared t) (ts.flatMap g)
  used : ∀ {t : SimpleType} {k : Token} {ts : List Token}, t.SpelledBy (k :: ts) →
    R (c.used ⟨t.builtin.keyword, k.offset⟩ t) ((k :: ts).flatMap g)
  mark : ∀ {t : Token}, t.kind ∉ .identifier :: .number :: .width :: Rule.typeWords → R [] (g t)

/-! ## Lists -/

section Lists

variable {γ : Type} {f : γ → List α} {item : γ → List Token → Prop} {sep : List Token → Prop}
  {as : List γ} {ts : List Token}

/-- What is listed for a trail is related to what is listed for its tokens, if this is so for each
item and the separators list nothing. -/
theorem Trail.collects (hR : Additive R) (h : Trail sep item as ts)
    (hsep : ∀ js, sep js → R [] (js.flatMap g))
    (hitem : ∀ a ∈ as, ∀ us, item a us → R (f a) (us.flatMap g)) :
    R (as.flatMap f) (ts.flatMap g) := by
  induction h with
  | nil => exact hR.nil
  | cons hj hi _ ih =>
    obtain ⟨ha, has⟩ := List.forall_mem_cons.mp hitem
    rw [List.flatMap_cons, List.flatMap_append, List.flatMap_append]
    exact hR.append (hR.append (hsep _ hj) (ha _ hi)) (ih has)

theorem Listed.collects (hR : Additive R) (h : Listed sep item as ts)
    (hsep : ∀ js, sep js → R [] (js.flatMap g))
    (hitem : ∀ a ∈ as, ∀ us, item a us → R (f a) (us.flatMap g)) :
    R (as.flatMap f) (ts.flatMap g) := by
  cases h with
  | mk hi ht =>
    obtain ⟨ha, has⟩ := List.forall_mem_cons.mp hitem
    rw [List.flatMap_cons, List.flatMap_append]
    exact hR.append (ha _ hi) (ht.collects hR hsep has)

end Lists

/-! ## Parts of schemas -/

namespace Collector.Reads

variable {c : Collector α} {ts : List Token}

theorem single {t : Token} {as : List α} (ht : R as (g t)) : R as ([t].flatMap g) := by
  rwa [List.flatMap_singleton]

section

variable (h : c.Reads R g)

include h

/-- A token that lists nothing, in front of others. -/
theorem cons {t : Token} {as : List α} (hR : R as (ts.flatMap g))
    (ht : t.kind ∉ .identifier :: .number :: .width :: Rule.typeWords) :
    R as ((t :: ts).flatMap g) := by
  rw [List.flatMap_cons, ← List.nil_append as]
  exact h.append (h.mark ht) hR

/-- Tokens in front of others. -/
theorem behind {as cs : List α} {us : List Token} (ha : R as (us.flatMap g))
    (hc : R cs (ts.flatMap g)) : R (as ++ cs) ((us ++ ts).flatMap g) := by
  rw [List.flatMap_append]
  exact h.append ha hc

theorem enclosed {opening closing : TokenKind} {inner : List Token → Prop} {as : List α}
    (hspell : Enclosed opening closing inner ts)
    (hopen : opening ∉ .identifier :: .number :: .width :: Rule.typeWords)
    (hclose : closing ∉ .identifier :: .number :: .width :: Rule.typeWords)
    (hinner : ∀ us, inner us → R as (us.flatMap g)) : R as (ts.flatMap g) := by
  cases hspell with
  | mk ho hi hc =>
    refine h.cons ?_ (ho ▸ hopen)
    rw [← List.append_nil as]
    exact h.behind (hinner _ hi) (single (h.mark (hc ▸ hclose)))

theorem only {kind : TokenKind}
    (hkind : kind ∉ .identifier :: .number :: .width :: Rule.typeWords) :
    ∀ js, only kind js → R [] (js.flatMap g) := by
  rintro js ⟨t, rfl, ht⟩
  exact single (h.mark (ht ▸ hkind))

theorem perhaps {kind : TokenKind}
    (hkind : kind ∉ .identifier :: .number :: .width :: Rule.typeWords) :
    ∀ js, perhaps kind js → R [] (js.flatMap g) := by
  rintro js (rfl | hj)
  · exact h.nil
  · exact h.only hkind js hj

theorem nothing : ∀ js, nothing js → R [] (js.flatMap g) := by
  rintro js rfl
  exact h.nil

theorem name {n : Name} (hspell : n.SpelledBy ts) : R (c.name n) (ts.flatMap g) := by
  cases hspell with
  | mk ht => exact single (h.identifier ht)

theorem operand {o : Operand} (hspell : o.SpelledBy ts) : R (o.collect c) (ts.flatMap g) := by
  cases hspell with
  | name hn => exact h.name hn
  | integer ht => exact single (h.number ht)

/-- A disjunction, if what is said holds of the terms in it. -/
theorem disjunction_of {d : Disjunction} (hspell : Disjunction.SpelledBy d ts)
    (ih : ∀ e ∈ d, ∀ t ∈ e, ∀ us, t.SpelledBy us →
      R (t.operands.flatMap (·.collect c)) (us.flatMap g)) :
    R ((Disjunction.operands d).flatMap (·.collect c)) (ts.flatMap g) := by
  rw [Disjunction.operands_eq, List.flatMap_assoc]
  refine hspell.collects h.toAdditive (h.only (by decide)) fun e he us hus => ?_
  rw [Conjunction.operands_eq, List.flatMap_assoc]
  exact hus.collects h.toAdditive (h.only (by decide)) (ih e he)

theorem term (t : Term) : ∀ us, t.SpelledBy us →
    R (t.operands.flatMap (·.collect c)) (us.flatMap g) := by
  have hsign (x : Relation) :
      x.sign ∉ TokenKind.identifier :: .number :: .width :: Rule.typeWords := by
    cases x <;> decide
  induction t using Term.induction with
  | comparison l x r =>
    intro us hspell
    cases hspell with
    | comparison hl hs hr =>
      rw [Term.operands, List.flatMap_cons, List.flatMap_singleton]
      exact h.behind (h.operand hl) (h.cons (h.operand hr) (hs ▸ hsign x))
  | group d ih =>
    intro us hspell
    exact h.enclosed hspell.enclosed (by decide) (by decide) fun vs hvs => h.disjunction_of hvs ih

theorem condition {d : Condition} (hspell : d.SpelledBy ts) : R (d.collect c) (ts.flatMap g) := by
  cases hspell with
  | default ht => exact single (h.mark (by rw [ht]; decide))
  | expression hd => exact h.disjunction_of hd fun _ _ t _ => h.term t

theorem bracketed {γ : Type} {f : γ → List α} {item : γ → List Token → Prop} {as : List γ}
    (hspell : Bracketed item as ts) (hitem : ∀ a us, item a us → R (f a) (us.flatMap g)) :
    R (as.flatMap f) (ts.flatMap g) :=
  h.enclosed hspell (by decide) (by decide) fun _ hlist =>
    hlist.collects h.toAdditive (h.perhaps (by decide)) fun a _ us => hitem a us

theorem braced {γ : Type} {f : γ → List α} {item : γ → List Token → Prop} {as : List γ}
    (hspell : Braced item as ts) (hitem : ∀ a us, item a us → R (f a) (us.flatMap g)) :
    R (as.flatMap f) (ts.flatMap g) :=
  h.enclosed hspell (by decide) (by decide) fun _ hlist =>
    hlist.collects h.toAdditive h.nothing fun a _ us => hitem a us

theorem values {vs : Option (List Operand)} (hspell : ValuesSpelledBy vs ts) :
    R ((vs.getD []).flatMap (·.collect c)) (ts.flatMap g) := by
  cases hspell with
  | none => exact h.nil
  | some hvs => exact h.bracketed hvs fun _ _ => h.operand

theorem reference {r : Reference} (hspell : r.SpelledBy ts) : R (r.collect c) (ts.flatMap g) := by
  cases hspell with
  | builtin ht hv => exact h.behind (h.used ht) (h.values hv)
  | declared hn hv => exact h.behind (h.name hn) (h.values hv)

theorem field {f : Field} (hspell : f.SpelledBy ts) : R (f.collect c) (ts.flatMap g) := by
  cases hspell with
  | mk hn hr => exact h.behind (h.name hn) (h.reference hr)

theorem branch {b : Branch} (hspell : b.SpelledBy ts) : R (b.collect c) (ts.flatMap g) := by
  cases hspell with
  | mk hr hc =>
    exact h.behind (h.reference hr) (h.enclosed hc (by decide) (by decide) fun _ => h.condition)

theorem body {b : Body} (hspell : b.SpelledBy ts) : R (b.collect c) (ts.flatMap g) := by
  have hnames {ps : List Name} {us : List Token} (hp : Bracketed Name.SpelledBy ps us) :
      R (ps.flatMap c.name) (us.flatMap g) := h.bracketed hp fun _ _ => h.name
  have hfields {fs : List Field} {us : List Token} (hf : Braced Field.SpelledBy fs us) :
      R (fs.flatMap (·.collect c)) (us.flatMap g) := h.braced hf fun _ _ => h.field
  cases hspell with
  | simple ht => exact h.declared ht
  | bare hk hf => exact h.cons (hfields hf) (by rw [hk]; decide)
  | sequence hk hp hf => exact h.cons (h.behind (hnames hp) (hfields hf)) (by rw [hk]; decide)
  | @array k p fs us ts hk hp hf =>
    have hcount := hnames hp
    rw [List.flatMap_singleton] at hcount
    exact h.cons (h.behind hcount (hfields hf)) (by rw [hk]; decide)
  | choice hk hp hb =>
    refine h.cons (h.behind (hnames hp) ?_) (by rw [hk]; decide)
    exact h.braced hb fun _ _ => h.branch

theorem declaration {d : Declaration} (hspell : d.SpelledBy ts) :
    R (d.collect c) (ts.flatMap g) := by
  cases hspell with
  | mk hn ha hb => exact h.behind (h.name hn) (h.cons (h.body hb) (by rw [ha]; decide))

end

end Collector.Reads

/-- **What a schema says** is what its tokens say. -/
theorem Schema.SpelledBy.collects {c : Collector α} {p : Schema} {ts : List Token}
    (h : p.SpelledBy ts) (hc : c.Reads R g) : R (p.collect c) (ts.flatMap g) :=
  Trail.collects hc.toAdditive h hc.nothing fun _ _ _ => hc.declaration

/-! ## Names and numbers -/

/-- The numbers among some tokens. -/
def numerals (ts : List Token) : List Nat :=
  ts.flatMap fun t => if t.kind = .number then [Text.decimalValue t.text.toList] else []

/-- The widths among some tokens. -/
def bitWidths (ts : List Token) : List Nat :=
  ts.flatMap fun t =>
    if t.kind = .width then [Text.decimalValue (t.text.toList.drop 1)] else []

theorem numerals_append (us ts : List Token) : numerals (us ++ ts) = numerals us ++ numerals ts :=
  List.flatMap_append

theorem bitWidths_append (us ts : List Token) :
    bitWidths (us ++ ts) = bitWidths us ++ bitWidths ts :=
  List.flatMap_append

/-- The tokens of a built-in type list nothing if keywords and widths do not. -/
theorem SimpleType.SpelledBy.flatMap_eq_nil {t : SimpleType} {ts : List Token}
    (h : t.SpelledBy ts) (hg : ∀ u : Token, u.kind ∈ .width :: Rule.typeWords → g u = []) :
    ts.flatMap g = [] := by
  have hword {b : Builtin} {k : Token} (hk : k.kind = b.word) : g k = [] :=
    hg k (List.mem_cons_of_mem _ (hk ▸ b.word_mem))
  cases h with
  | bare hk => rw [List.flatMap_singleton, hword hk]
  | wide hk hw _ =>
    rw [List.flatMap_cons, List.flatMap_singleton, hword hk, hg _ (by rw [hw]; decide),
      List.append_nil]

/-- The tokens of a built-in type list its width if keywords list nothing. -/
theorem SimpleType.SpelledBy.bitWidths_eq {t : SimpleType} {ts : List Token}
    (h : t.SpelledBy ts) : bitWidths ts = t.width.toList := by
  have hword {b : Builtin} {k : Token} (hk : k.kind = b.word) : k.kind ≠ .width := by
    rw [hk]
    cases b <;> decide
  cases h with
  | bare hk => simp [bitWidths, hword hk]
  | wide hk hw _ => simp [bitWidths, hword hk, hw]

namespace Schema

variable {p : Schema} {ts : List Token}

/-- **The names of a schema** stand at the offsets of tokens, in their order. -/
theorem names_offsets (h : p.SpelledBy ts) :
    (p.names.map (·.offset)).Sublist (ts.map (·.offset)) := by
  have hfirst (offset : Nat) (us : List Token) :
      [offset].Sublist (offset :: us.flatMap fun t => [t.offset]) :=
    List.cons_sublist_cons.mpr (List.nil_sublist _)
  have hreads : Collector.Reads .ofNames
      (fun (ns : List Name) os => (ns.map (·.offset)).Sublist os) fun t => [t.offset] :=
    ⟨.sublist _, fun _ => .refl _, fun _ => List.nil_sublist _, fun _ => List.nil_sublist _,
      fun _ => hfirst _ _, fun _ => List.nil_sublist _⟩
  have hmap : ts.map (·.offset) = ts.flatMap fun t => [t.offset] := List.map_eq_flatMap
  rw [hmap]
  exact h.collects hreads

/-- **The identifiers of a schema** are those among its tokens. -/
theorem identifiers_eq (h : p.SpelledBy ts) : p.identifiers =
    ts.flatMap fun t => if t.kind = .identifier then [⟨t.text, t.offset⟩] else [] := by
  have hnone {t : Token} {kinds : List TokenKind} (ht : t.kind ∈ kinds)
      (hkinds : .identifier ∉ kinds) :
      (if t.kind = .identifier then [(⟨t.text, t.offset⟩ : Name)] else []) = [] :=
    if_neg fun hk => hkinds (hk ▸ ht)
  refine h.collects ⟨.eq, fun ht => (if_pos ht).symm, fun ht => ?_, fun ht => ?_, fun ht => ?_,
    fun ht => (if_neg fun hk => ht (by rw [hk]; decide)).symm⟩
  · exact (hnone (List.mem_singleton.mpr ht) (by decide)).symm
  · exact (ht.flatMap_eq_nil fun _ hk => hnone hk (by decide)).symm
  · exact (ht.flatMap_eq_nil fun _ hk => hnone hk (by decide)).symm

/-- **The integers of a schema** are the numbers among its tokens. -/
theorem integers_eq (h : p.SpelledBy ts) : p.integers = numerals ts := by
  have hnone {t : Token} {kinds : List TokenKind} (ht : t.kind ∈ kinds) (hkinds : .number ∉ kinds) :
      (if t.kind = .number then [Text.decimalValue t.text.toList] else []) = [] :=
    if_neg fun hk => hkinds (hk ▸ ht)
  refine h.collects ⟨.eq, fun ht => ?_, fun ht => (if_pos ht).symm, fun ht => ?_, fun ht => ?_,
    fun ht => (if_neg fun hk => ht (by rw [hk]; decide)).symm⟩
  · exact (hnone (List.mem_singleton.mpr ht) (by decide)).symm
  · exact (ht.flatMap_eq_nil fun _ hk => hnone hk (by decide)).symm
  · exact (ht.flatMap_eq_nil fun _ hk => hnone hk (by decide)).symm

/-- **The widths of a schema** are those among its tokens. -/
theorem widths_eq (h : p.SpelledBy ts) : p.widths = bitWidths ts := by
  have hnone {t : Token} {kind : TokenKind} (ht : t.kind = kind) (hkind : kind ≠ .width) :
      (if t.kind = .width then [Text.decimalValue (t.text.toList.drop 1)] else []) = [] :=
    if_neg fun hk => hkind (ht.symm.trans hk)
  exact h.collects ⟨.eq, fun ht => (hnone ht (by decide)).symm,
    fun ht => (hnone ht (by decide)).symm, fun ht => ht.bitWidths_eq.symm,
    fun ht => ht.bitWidths_eq.symm,
    fun ht => (if_neg fun hk => ht (by rw [hk]; decide)).symm⟩

end Schema

end RecordSchema
