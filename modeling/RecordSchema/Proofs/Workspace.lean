import RecordSchema.Proofs.Resolution
import RecordSchema.Proofs.Sources
import RecordSchema.Workspace

/-!
# What a workspace holds

Files are added to a workspace one by one, in any mix of schemas and texts with a fault, and under
any names. The invariant is that the workspace holds the files: each of them, at its place, with the
schema that its text is when read alone. One addition carries the invariant on by one file. It gives
what reading the text alone does, under the number that is next, and touches no file before it.

Results:
* `Workspace.add_entries`, `Workspace.add_result`: what one addition stores, and what it gives.
* `Workspace.ofFiles_entries`: what any number of additions store.
* `Workspace.ofFiles_add`: the invariant, and how an addition goes on from it.
-/

namespace RecordSchema

/-- What is kept of a file, a name and a text. -/
def Entry.ofFile (file : String × String) : Entry :=
  ⟨file.1, file.2, (Schema.parse ⟨0⟩ file.2).result.toOption⟩

namespace Workspace

/-- The workspace that some files were added to in order. -/
def ofFiles (files : List (String × String)) : Workspace :=
  files.foldl (fun w file => (w.add file.1 file.2).workspace) {}

/-! ## One addition -/

/-- **An addition stores one file behind the others.** -/
theorem add_entries (w : Workspace) (name text : String) :
    (w.add name text).workspace.entries = w.entries ++ [.ofFile (name, text)] := by
  simp only [add, Entry.ofFile]
  rw [Schema.parse_inSource ⟨0⟩]
  cases (Schema.parse ⟨0⟩ text).result <;> rfl

/-- **An addition gives what reading the text alone does**: the number of the file if that is a
schema, and else the fault, as one of the file of that number. -/
theorem add_result (w : Workspace) (name text : String) :
    (w.add name text).result =
      ((Schema.parse ⟨0⟩ text).result.map fun _ => ⟨w.entries.length⟩).mapError
        (Fault.inSource ⟨w.entries.length⟩) := by
  simp only [add]
  rw [Schema.parse_inSource ⟨0⟩]
  cases (Schema.parse ⟨0⟩ text).result <;> rfl

theorem add_log (w : Workspace) (name text : String) :
    (w.add name text).log =
      .sourceAdded name ⟨w.entries.length⟩ :: (Schema.parse ⟨w.entries.length⟩ text).log := by
  simp only [add]
  cases (Schema.parse ⟨w.entries.length⟩ text).result <;> rfl

/-! ## Any number of additions -/

theorem ofFiles_concat (files : List (String × String)) (name text : String) :
    ofFiles (files ++ [(name, text)]) = ((ofFiles files).add name text).workspace := by
  simp [ofFiles]

/-- **The files are stored in order**, each as if it were the only one. -/
theorem ofFiles_entries (files : List (String × String)) :
    (ofFiles files).entries = files.map Entry.ofFile := by
  induction files using List.reverseRecOn with
  | nil => rfl
  | append_singleton files file ih =>
    rw [ofFiles_concat, add_entries, ih, List.map_append, List.map_singleton]

@[simp] theorem length_ofFiles (files : List (String × String)) :
    (ofFiles files).entries.length = files.length := by
  rw [ofFiles_entries, List.length_map]

/-- A workspace answers for some files: its numbers are those of the files, and for each number it
gives the name and the text of the file, and the schema that the text is when read alone. For any
other number it gives nothing. -/
structure Holds (w : Workspace) (files : List (String × String)) : Prop where
  sources : w.sources = (List.range files.length).map SourceId.mk
  name : ∀ n, w.name? n = files[n.index]?.map (·.1)
  text : ∀ n, w.text? n = files[n.index]?.map (·.2)
  schema : ∀ n, w.schema? n =
    files[n.index]?.bind fun file => (Schema.parse ⟨0⟩ file.2).result.toOption
  rendering : ∀ n, w.rendering? n =
    files[n.index]?.bind fun file => (Schema.parse ⟨0⟩ file.2).result.toOption.map Schema.render

theorem ofFiles_entry? (files : List (String × String)) (n : SourceId) :
    Workspace.entry? (ofFiles files) n = files[n.index]?.map Entry.ofFile := by
  unfold entry?
  rw [ofFiles_entries, List.getElem?_map]

theorem ofFiles_holds (files : List (String × String)) : (ofFiles files).Holds files where
  sources := by rw [sources, length_ofFiles]
  name n := by rw [name?, ofFiles_entry?, Option.map_map]; rfl
  text n := by rw [text?, ofFiles_entry?, Option.map_map]; rfl
  schema n := by rw [schema?, ofFiles_entry?, Option.bind_map]; rfl
  rendering n := by
    rw [rendering?, schema?, ofFiles_entry?, Option.bind_map, Option.map_bind]
    rfl

/-- The references of a stored schema resolve in that schema. -/
theorem resolves_of_schema? {files : List (String × String)} {n : SourceId} {p : Schema}
    (h : (ofFiles files).schema? n = some p) {i : Nat} {d : Declaration}
    (hd : p.declarations[i]? = some d) {r : Reference} (hr : r ∈ d.body.references) :
    r.Resolves p i := by
  rw [(ofFiles_holds files).schema] at h
  obtain ⟨file, -, hp⟩ := Option.bind_eq_some_iff.mp h
  cases hparse : (Schema.parse ⟨0⟩ file.2).result with
  | error f => simp [hparse, Except.toOption] at hp
  | ok q =>
    obtain rfl : q = p := by simpa [hparse, Except.toOption] using hp
    exact (Schema.parse_sound hparse).2.2.resolves hd hr

/-- **A workspace holds the files added to it**, and a further addition gives what reading its text
alone does. The addition takes the next number, whether texts had faults before it or not; it gives
that number if the text is a schema, and else the fault of the text in the source of that number. It
goes on to the workspace of one file more, and what is stored of the others stays. No type of one
file is one of another: the references of a stored schema resolve in that schema. -/
theorem ofFiles_add (files : List (String × String)) (name text : String) :
    (ofFiles files).Holds files ∧
    ((ofFiles files).add name text).workspace = ofFiles (files ++ [(name, text)]) ∧
    ((ofFiles files).add name text).log.head? = some (.sourceAdded name ⟨files.length⟩) ∧
    (∀ p, (Schema.parse ⟨0⟩ text).result = .ok p →
      ((ofFiles files).add name text).result = .ok ⟨files.length⟩) ∧
    (∀ f, (Schema.parse ⟨0⟩ text).result = .error f →
      ((ofFiles files).add name text).result = .error (f.inSource ⟨files.length⟩)) ∧
    (∀ n ∈ (ofFiles files).sources,
      Workspace.entry? ((ofFiles files).add name text).workspace n =
        Workspace.entry? (ofFiles files) n) ∧
    ∀ n p, (ofFiles files).schema? n = some p → ∀ (i : Nat) (d : Declaration),
      p.declarations[i]? = some d → ∀ r ∈ d.body.references, r.Resolves p i := by
  refine ⟨ofFiles_holds files, (ofFiles_concat files name text).symm, ?_, ?_, ?_, ?_, ?_⟩
  · rw [add_log, length_ofFiles, List.head?_cons]
  · intro p hp
    rw [add_result, hp, length_ofFiles]
    rfl
  · intro f hf
    rw [add_result, hf, length_ofFiles]
    rfl
  · intro n hn
    rw [(ofFiles_holds files).sources] at hn
    obtain ⟨i, hi, rfl⟩ := List.mem_map.mp hn
    rw [← ofFiles_concat, ofFiles_entry?, ofFiles_entry?,
      List.getElem?_append_left (List.mem_range.mp hi)]
  · exact fun n p h i d hd r hr => resolves_of_schema? h hd hr

/-- A file uses a type that the file before it declares, under the same name. The type is not
declared for it, and the fault is one of the second file. -/
theorem ofFiles_add_undeclared :
    ∃ file text, file = ("a.asn", "t ::= UINT_8") ∧ text = "s ::= SEQUENCE { b t }" ∧
      (Schema.parse ⟨0⟩ text).result = .error ⟨⟨0⟩, .undeclaredType "t" 19⟩ ∧
      ((ofFiles [file]).add "a.asn" text).result = .error ⟨⟨1⟩, .undeclaredType "t" 19⟩ ∧
      ((ofFiles [file]).schema? ⟨0⟩).isSome = true := by
  have h : (Schema.parse ⟨0⟩ "s ::= SEQUENCE { b t }").result =
      .error ⟨⟨0⟩, .undeclaredType "t" 19⟩ := by
    decide +kernel
  obtain ⟨-, -, -, -, hfault, -, -⟩ :=
    ofFiles_add [("a.asn", "t ::= UINT_8")] "a.asn" "s ::= SEQUENCE { b t }"
  exact ⟨_, _, rfl, rfl, h, hfault _ h, by decide +kernel⟩

end Workspace

end RecordSchema
