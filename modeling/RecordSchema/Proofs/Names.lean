import RecordSchema.Proofs.WellFormed
import RecordSchema.Scope

/-!
# What the tables of names hold

A scope matters through the names it finds, and `Scope.Holds` says which they are; `Scope.of` is
the scope of a list of names. The table of types matters through the declarations it was made of:
`TypeTable.of` is the table of a list of declarations, each at its own position and with its own
number of parameters.

Results:
* `Scope.Holds.declare_iff`: a name can be declared exactly if it is new, and it is held then.
* `Scope.declare_of`, `Scope.declare_of_error`: declaring a name in the scope of some names.
* `TypeTable.find?_of`: what the table of some declarations finds is the first of that name.
* `TypeTable.declare_of`: declaring a new name makes the table of one declaration more.
-/

namespace RecordSchema

/-! ## Scopes -/

namespace Scope

/-- The names that a scope finds are the given ones. -/
def Holds (s : Scope) (names : List String) : Prop :=
  ∀ x, (s.find? x).isSome = true ↔ x ∈ names

theorem holds_empty : Holds {} [] := fun x => by simp [find?]

theorem Holds.find?_eq_none {s : Scope} {names : List String} (h : s.Holds names) {x : String} :
    s.find? x = none ↔ x ∉ names := by
  rw [← h x]
  cases s.find? x <;> simp

/-- A further name in front. -/
theorem Holds.cons {s : Scope} {names : List String} (h : s.Holds names) (n : Name) :
    Holds ⟨n :: s.names⟩ (names ++ [n.text]) := by
  intro x
  rw [List.mem_append, ← h x, List.mem_singleton]
  unfold find?
  rw [List.find?_cons]
  by_cases hx : n.text = x
  · simp [hx]
  · simp [beq_false_of_ne hx, Ne.symm hx]

/-- **A name can be declared exactly if it is new.** -/
theorem Holds.declare_iff {s s' : Scope} {names : List String} (h : s.Holds names) {n : Name} :
    s.declare n = .ok s' ↔ n.text ∉ names ∧ s' = ⟨n :: s.names⟩ := by
  rw [← h.find?_eq_none]
  unfold declare
  cases s.find? n.text with
  | none => simp [eq_comm]
  | some first => simp

/-- The scope of some names, which were declared in this order. -/
def of (ns : List Name) : Scope := ⟨ns.reverse⟩

theorem of_concat (ns : List Name) (n : Name) : of (ns ++ [n]) = ⟨n :: (of ns).names⟩ := by
  simp [of]

theorem holds_of (ns : List Name) : (of ns).Holds (texts ns) := by
  intro x
  simp [find?, of, texts]

/-- **Declaring a new name** puts it behind the others. -/
theorem declare_of {s' : Scope} {ns : List Name} {n : Name} :
    (of ns).declare n = .ok s' ↔ n.text ∉ texts ns ∧ s' = of (ns ++ [n]) := by
  rw [(holds_of ns).declare_iff, of_concat]

/-- A name that is not new is refused with the offset of one of its text. -/
theorem declare_of_error {ns : List Name} {n : Name} {first : Nat}
    (h : (of ns).declare n = .error first) :
    ∃ m ∈ ns, m.text = n.text ∧ m.offset = first := by
  unfold declare find? at h
  cases hfind : (of ns).names.find? (·.text == n.text) with
  | none => simp [hfind] at h
  | some m =>
    simp only [hfind, Except.error.injEq] at h
    refine ⟨m, ?_, by simpa using List.find?_some hfind, h⟩
    exact List.mem_reverse.mp (List.mem_of_find?_eq_some hfind)

end Scope

/-! ## Types -/

namespace TypeTable

/-- The table of some declarations. -/
def of (ds : List Declaration) : TypeTable :=
  ⟨ds.map fun d => ⟨d.name, d.body.parameters.length⟩⟩

theorem of_concat (ds : List Declaration) (d : Declaration) :
    of (ds ++ [d]) = ⟨(of ds).types ++ [⟨d.name, d.body.parameters.length⟩]⟩ := by
  simp [of]

/-- The table finds a name that is declared. -/
theorem find?_eq_none {ds : List Declaration} {x : String} :
    (of ds).find? x = none ↔ x ∉ ds.map (·.name.text) := by
  unfold find? of
  rw [Option.map_eq_none_iff, List.find?_eq_none]
  constructor
  · intro h hx
    obtain ⟨d, hd, rfl⟩ := List.mem_map.mp hx
    obtain ⟨i, hi, rfl⟩ := List.getElem_of_mem hd
    refine absurd (h (⟨ds[i].name, ds[i].body.parameters.length⟩, i) ?_) (by simp)
    rw [List.mk_mem_zipIdx_iff_getElem?]
    simp [hi]
  · rintro h ⟨t, i⟩ ht hx
    rw [List.mk_mem_zipIdx_iff_getElem?, List.getElem?_map] at ht
    obtain ⟨d, hd, rfl⟩ := Option.map_eq_some_iff.mp ht
    exact h (List.mem_map.mpr ⟨d, List.mem_of_getElem? hd, by simpa using hx⟩)

/-- **What the table finds** is a declaration of that name, by its position and its number of
parameters. -/
theorem find?_of {ds : List Declaration} {x : String} {id : TypeId} {type : DeclaredType}
    (h : (of ds).find? x = some (id, type)) :
    ∃ d, ds[id.index]? = some d ∧ d.name.text = x ∧
      type = ⟨d.name, d.body.parameters.length⟩ := by
  unfold find? of at h
  obtain ⟨⟨t, i⟩, hfind, he⟩ := Option.map_eq_some_iff.mp h
  obtain ⟨rfl, rfl⟩ := Prod.mk.inj he
  have hmem := List.mem_of_find?_eq_some hfind
  rw [List.mk_mem_zipIdx_iff_getElem?, List.getElem?_map] at hmem
  obtain ⟨d, hd, rfl⟩ := Option.map_eq_some_iff.mp hmem
  exact ⟨d, hd, by simpa using List.find?_some hfind, rfl⟩

/-- Two positions of one name are the same if no name is declared twice. -/
theorem position_unique {ds : List Declaration} (hn : (ds.map (·.name.text)).Nodup) {i j : Nat}
    {d e : Declaration} (hi : ds[i]? = some d) (hj : ds[j]? = some e)
    (he : d.name.text = e.name.text) : i = j := by
  have hlt : i < (ds.map (·.name.text)).length := by
    rw [List.length_map]
    exact (List.getElem?_eq_some_iff.mp hi).1
  refine (List.getElem?_inj hlt hn).mp ?_
  simp [hi, hj, he]

/-- **The table finds every declaration** if no name is declared twice. -/
theorem find?_of_getElem? {ds : List Declaration} (hn : (ds.map (·.name.text)).Nodup)
    {id : TypeId} {d : Declaration} (hd : ds[id.index]? = some d) :
    (of ds).find? d.name.text = some (id, ⟨d.name, d.body.parameters.length⟩) := by
  cases hfind : (of ds).find? d.name.text with
  | none =>
    exact absurd (List.mem_map.mpr ⟨d, List.mem_of_getElem? hd, rfl⟩) (find?_eq_none.mp hfind)
  | some found =>
    obtain ⟨⟨j⟩, type⟩ := found
    obtain ⟨e, he, hname, rfl⟩ := find?_of hfind
    obtain rfl : j = id.index := position_unique hn he hd hname
    obtain rfl : e = d := Option.some.inj (he.symm.trans hd)
    rfl

/-- A name is free exactly if no declaration has it. -/
theorem ensureFree_iff {ds : List Declaration} {n : Name} :
    (of ds).ensureFree n = .ok () ↔ n.text ∉ ds.map (·.name.text) := by
  rw [← find?_eq_none]
  unfold ensureFree
  cases (of ds).find? n.text <;> simp

/-- **Declaring a new name** puts it behind the others. -/
theorem declare_of {ds : List Declaration} {n : Name} (hn : n.text ∉ ds.map (·.name.text))
    (b : Body) :
    (of ds).declare n b.parameters.length = .ok (⟨ds.length⟩, of (ds ++ [⟨n, b⟩])) := by
  unfold declare
  rw [ensureFree_iff.mpr hn, of_concat]
  simp [of, bind, Except.bind, pure, Except.pure]

end TypeTable

end RecordSchema
