import RecordSchema.Proofs.Relocation

/-!
# The number of a source

The number that a text is read under is in its faults and nowhere else: a schema does not hold it,
and no rule asks for it. So a text can be read under any number, and what is read under another one
is told by that. Here this is a law of relocations. The relocation from a text to itself leaves
every name and every offset where it is, and it takes the result under one number to that under the
other.

Results:
* `Schema.relocate_eq_self`: a relocation that keeps names and offsets keeps schemas.
* `Schema.parse_inSource`: the result under one number tells that under any other.
-/

namespace RecordSchema

/-- The fault as it is of another source. -/
def Fault.inSource (source : SourceId) (f : Fault) : Fault := { f with source }

@[simp] theorem Fault.inSource_inSource (i j : SourceId) (f : Fault) :
    (f.inSource i).inSource j = f.inSource j := rfl

/-! ## Relocations that keep everything -/

/-- A relocation that renames no name and moves no offset. -/
structure Relocation.Keeps (m : Relocation) : Prop where
  rename : ∀ x, m.rename x = x
  move : ∀ o, m.move o = o

section Keeps

variable {m : Relocation}

theorem Name.relocate_eq_self (hm : m.Keeps) (n : Name) : n.relocate m = n := by
  rw [Name.relocate, hm.rename, hm.move]

theorem Operand.relocate_eq_self (hm : m.Keeps) (o : Operand) : o.relocate m = o := by
  cases o with
  | name n => rw [Operand.relocate, n.relocate_eq_self hm]
  | integer value => rfl

mutual

theorem Term.relocate_eq_self (hm : m.Keeps) : ∀ t : Term, t.relocate m = t
  | .comparison l x r => by
    rw [Term.relocate, Operand.relocate_eq_self hm, Operand.relocate_eq_self hm]
  | .group d => by rw [Term.relocate, Disjunction.relocate_eq_self hm d]

theorem Conjunction.relocate_eq_self (hm : m.Keeps) :
    ∀ c : List Term, Conjunction.relocate m c = c
  | [] => rfl
  | t :: c => by
    rw [Conjunction.relocate, Term.relocate_eq_self hm t, Conjunction.relocate_eq_self hm c]

theorem Disjunction.relocate_eq_self (hm : m.Keeps) :
    ∀ d : List (List Term), Disjunction.relocate m d = d
  | [] => rfl
  | c :: d => by
    rw [Disjunction.relocate, Conjunction.relocate_eq_self hm c, Disjunction.relocate_eq_self hm d]

end

variable (hm : m.Keeps)

include hm

theorem Condition.relocate_eq_self (c : Condition) : c.relocate m = c := by
  cases c with
  | default => rfl
  | expression d => rw [Condition.relocate, Disjunction.relocate_eq_self hm]

theorem Reference.relocate_eq_self (r : Reference) : r.relocate m = r := by
  obtain ⟨name, target, values⟩ := r
  cases values <;>
    simp [Reference.relocate, Name.relocate_eq_self hm, Operand.relocate_eq_self hm]

theorem Field.relocate_eq_self (f : Field) : f.relocate m = f := by
  rw [Field.relocate, Name.relocate_eq_self hm, Reference.relocate_eq_self hm]

theorem Branch.relocate_eq_self (b : Branch) : b.relocate m = b := by
  rw [Branch.relocate, Reference.relocate_eq_self hm, Condition.relocate_eq_self hm]

theorem Body.relocate_eq_self (b : Body) : b.relocate m = b := by
  cases b <;>
    simp [Body.relocate, Name.relocate_eq_self hm, Field.relocate_eq_self hm,
      Branch.relocate_eq_self hm]

theorem Declaration.relocate_eq_self (d : Declaration) : d.relocate m = d := by
  rw [Declaration.relocate, Name.relocate_eq_self hm, Body.relocate_eq_self hm]

/-- **A relocation that keeps names and offsets** keeps schemas. -/
theorem Schema.relocate_eq_self (p : Schema) : p.relocate m = p := by
  simp [Schema.relocate, Declaration.relocate_eq_self hm]

end Keeps

/-- A cause that is located among tokens stays if names and offsets do, and the relocation tells
the lengths of the tokens. -/
theorem Cause.Located.relocate_eq_self {m : Relocation} {ts : List Token} {c : Cause}
    (hm : m.Keeps) (hextent : ∀ t ∈ ts, m.extent t.offset = t.length) (h : Located ts c) :
    c.relocate m = c := by
  cases h with
  | unexpected ht => simp only [Cause.relocate, hm.move, hextent _ ht]
  | _ => simp only [Cause.relocate, hm.rename, hm.move]

/-! ## From a text to itself -/

/-- Tokens correspond to themselves in any way that relates each to itself. -/
theorem Aligned.refl {R : Token → Token → Prop} (h : ∀ t, R t t) : ∀ ts, Aligned R ts ts
  | [] => .nil
  | t :: ts => .cons (h t) Iff.rfl (Aligned.refl h ts)

theorem eq_of_mem_zip_self {α : Type} {as : List α} {a b : α} (h : (a, b) ∈ as.zip as) :
    a = b := by
  obtain ⟨i, hi⟩ := List.mem_iff_getElem?.mp h
  obtain ⟨ha, hb⟩ := List.getElem?_zip_eq_some.mp hi
  exact Option.some.inj (ha.symm.trans hb)

theorem mem_zip_self {α : Type} {as : List α} {a : α} (h : a ∈ as) : (a, a) ∈ as.zip as := by
  obtain ⟨i, hi⟩ := List.mem_iff_getElem?.mp h
  exact List.mem_iff_getElem?.mpr ⟨i, List.getElem?_zip_eq_some.mpr ⟨hi, hi⟩⟩

/-- A token that is found at an offset among tokens paired with themselves stands there. -/
theorem offset_of_counterpart?_self {ts : List Token} {o : Nat} {t : Token}
    (h : counterpart? ts ts o = some t) : t.offset = o := by
  obtain ⟨⟨u, v⟩, hfind, rfl⟩ := Option.map_eq_some_iff.mp h
  obtain rfl := eq_of_mem_zip_self (List.mem_of_find?_eq_some hfind)
  simpa using List.find?_some hfind

/-- The relocation from some tokens to themselves keeps names and offsets. -/
theorem Relocation.between_self_keeps (ts : List Token) : (between id ts ts).Keeps where
  rename x := ite_self x
  move o := by
    cases h : counterpart? ts ts o with
    | none => simp [between, h]
    | some t => simp [between, h, offset_of_counterpart?_self h]

namespace Parser

variable {lexemes : Lexemes}

/-- Runs on the same lexemes have the same result, but for the source of a fault. -/
theorem run_inSource (hclosed : lexemes.Closed) (hordered : lexemes.stream.Pairwise
    fun t u => t.offset < u.offset) (hproper : ∀ t ∈ lexemes.stream, t.kind ≠ .endOfInput →
    t.Proper) (source source' : SourceId) :
    (run source' lexemes).result =
      (run source lexemes).result.mapError (Fault.inSource source') := by
  have hkeeps := Relocation.between_self_keeps lexemes.stream
  have hfollows : (Relocation.between id lexemes.stream lexemes.stream).Follows id lexemes.stream
      lexemes.stream := Relocation.between_follows hproper hordered
  have halike : Aligned (Token.Alike id) lexemes.stream lexemes.stream :=
    .refl (fun t => ⟨rfl, fun _ => rfl, fun _ => rfl⟩) _
  have hrun : (run source' lexemes).result =
      (Relocation.between id lexemes.stream lexemes.stream).result source'
        (run source lexemes).result :=
    run_relocate (c := ⟨_, _, hfollows.fits (Set.injOn_id _)⟩) hclosed (hfollows.moves halike)
  rw [hrun]
  cases hresult : (run source lexemes).result with
  | ok p => exact congrArg Except.ok (p.relocate_eq_self hkeeps)
  | error f =>
    have hcause := (located_of_run hclosed hresult).2.relocate_eq_self hkeeps fun t ht =>
      hfollows.length t t (mem_zip_self ht)
    exact congrArg (fun c => Except.error (Fault.mk source' c)) hcause

end Parser

/-- The tokens of a text stand at different offsets, in order. -/
theorem Text.stream_increasing (text : String) :
    (Text.stream text).Pairwise fun t u => t.offset < u.offset := by
  have hplaced := Text.stream_placed text
  rw [Text.stream, Lexemes.stream_eq] at hplaced ⊢
  exact hplaced.increasing (Scan.lexemes_closed _).inner

/-- **The number that a text is read under** is in its fault and nowhere else. -/
theorem Schema.parse_inSource (source source' : SourceId) (text : String) :
    (Schema.parse source' text).result =
      (Schema.parse source text).result.mapError (Fault.inSource source') := by
  cases hnormal : Text.isNormalized text.toList with
  | false =>
    rw [Schema.parse_of_not_normalized hnormal, Schema.parse_of_not_normalized hnormal]
    rfl
  | true =>
    have hproper (t : Token) (ht : t ∈ Text.stream text) (hkind : t.kind ≠ .endOfInput) :
        t.Proper := ((Text.stream_placed text).proper t ht hkind).1
    rw [Schema.parse_of_normalized hnormal, Schema.parse_of_normalized hnormal]
    exact Parser.run_inSource (Scan.lexemes_closed _) (Text.stream_increasing text) hproper
      source source'

end RecordSchema
