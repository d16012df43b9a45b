import RecordSchema.CommandLine
import RecordSchema.Proofs.Diagnostics
import RecordSchema.Proofs.Workspace

/-!
# Sessions

A session checks files one by one. What it keeps from one file to the next is a workspace, in which
the readable files are numbered, and what it has to say so far; neither changes what a later file
comes to. So a session is told by its files one at a time. The schemas among them make the output,
the faults of the others make the reports, each with the number of its own file, and every file has
its say in the exit code.

Results:
* `Report.ofDiagnostic_inSource`: a report depends on the source in its marks only.
* `Session.addFile_schema`, `Session.addFile_fault`: what one file does to a session.
* `Session.run_of_files`: what a session comes to.
-/

namespace RecordSchema

/-! ## Reports of faults -/

/-- The label as it is of another source, if it is of one. -/
def Label.inSource (source : SourceId) (l : Label) : Label :=
  { l with source := l.source.map fun _ => source }

/-- The diagnostic as it is of another source. -/
def Diagnostic.inSource (source : SourceId) (d : Diagnostic) : Diagnostic :=
  { d with labels := d.labels.map (·.inSource source) }

/-- The report as it is of another source. -/
def Report.inSource (source : SourceId) (r : Report) : Report :=
  { r with place := (source, r.place.2), marks := r.marks.map fun mark => { mark with source } }

/-- The notice as it is of another source. -/
def Notice.inSource (source : SourceId) : Notice → Notice
  | report r => .report (r.inSource source)
  | plain text => .plain text

theorem padTo_of_le {width : Nat} {text : String} (h : width ≤ text.length) :
    padTo width text = text := by
  simp [padTo, Nat.sub_eq_zero_of_le h]

/-- What the report of a diagnostic shows. -/
theorem Report.of_ofDiagnostic {d : Diagnostic} {r : Report}
    (h : Report.ofDiagnostic d = .ok r) :
    r.kind = kindOf d.severity ∧ r.code = padTo 2 d.code ∧ r.message = d.name ∧ r.marks ≠ [] ∧
      r.marks = d.labels.filterMap (·.mark?) := by
  unfold ofDiagnostic at h
  split at h
  · cases h
  · rename_i mark rest hmarks
    split at h
    · obtain rfl := Except.ok.inj h
      exact ⟨rfl, rfl, rfl, List.cons_ne_nil _ _, hmarks.symm⟩
    · cases h

theorem Label.mark?_inSource (source : SourceId) (l : Label) :
    (l.inSource source).mark? = l.mark?.map fun mark => { mark with source } := by
  obtain ⟨own, location, message⟩ := l
  cases own <;> cases location <;> rfl

theorem Label.marks_inSource (source : SourceId) (ls : List Label) :
    (ls.map (·.inSource source)).filterMap (·.mark?) =
      (ls.filterMap (·.mark?)).map fun mark => { mark with source } := by
  rw [List.filterMap_map, List.map_filterMap]
  exact List.filterMap_congr fun l _ => l.mark?_inSource source

theorem Report.noteOf_inSource (source : SourceId) (ls : List Label) :
    noteOf (ls.map (·.inSource source)) = noteOf ls := by
  have hsame : (ls.map (·.inSource source)).filter (·.mark?.isNone) =
      (ls.filter (·.mark?.isNone)).map (·.inSource source) := by
    rw [List.filter_map]
    refine congrArg _ (List.filter_congr fun l _ => ?_)
    simp [Label.mark?_inSource]
  unfold noteOf
  rw [hsame]
  cases ls.filter (·.mark?.isNone) with
  | nil => rfl
  | cons l rest => simp [Label.inSource, Function.comp_def]

/-- **The report of a diagnostic** depends on the source in its marks only. -/
theorem Report.ofDiagnostic_inSource (source : SourceId) (d : Diagnostic) :
    ofDiagnostic (d.inSource source) = (ofDiagnostic d).map (inSource source) := by
  unfold ofDiagnostic
  rw [show (d.inSource source).labels = d.labels.map (·.inSource source) from rfl,
    Label.marks_inSource, noteOf_inSource]
  cases d.labels.filterMap (·.mark?) with
  | nil => rfl
  | cons mark rest =>
    have hmoved : (∀ m ∈ (mark :: rest).map fun mark => { mark with source },
        m.location.IsForward) ↔ ∀ m ∈ mark :: rest, m.location.IsForward :=
      List.forall_mem_map
    simp only [List.map_cons] at hmoved ⊢
    by_cases hforward : ∀ m ∈ mark :: rest, m.location.IsForward
    · rw [if_pos (hmoved.mpr hforward), if_pos hforward]
      rfl
    · rw [if_neg (mt hmoved.mp hforward), if_neg hforward]
      rfl

theorem Fault.diagnostic_inSource (source : SourceId) (f : Fault) :
    (f.inSource source).diagnostic = f.diagnostic.inSource source := by
  obtain ⟨_, cause⟩ := f
  cases cause <;> rfl

/-- The notice of a fault is a report, in which only the marks depend on the source. -/
theorem Notice.inSource_ofDiagnostic (source : SourceId) (f : Fault) :
    (Notice.ofDiagnostic f.diagnostic).inSource source =
      .ofDiagnostic (f.inSource source).diagnostic := by
  obtain ⟨r, hr, -⟩ := f.ofDiagnostic_diagnostic
  rw [ofDiagnostic, ofDiagnostic, f.diagnostic_inSource, Report.ofDiagnostic_inSource, hr]
  rfl

theorem Fault.diagnostic_severity (f : Fault) : f.diagnostic.severity = .error := by
  obtain ⟨_, cause⟩ := f
  cases cause <;> rfl

theorem Fault.length_code (f : Fault) : f.diagnostic.code.length = 4 := by
  obtain ⟨_, cause⟩ := f
  cases cause <;> simp only [Fault.diagnostic] <;> decide

/-! ## Files -/

/-- The files that can be read, with what they hold. -/
def Session.readable (files : List (String × Option String)) : List (String × String) :=
  files.filterMap fun file => file.2.map fun text => (file.1, text)

/-- The schemas among some files, each read alone. -/
def Session.schemas (files : List (String × String)) : List Schema :=
  files.filterMap fun file => (Schema.parse ⟨0⟩ file.2).result.toOption

/-- The fault of a text, when it is read alone. -/
def Schema.fault? (text : String) : Option Fault :=
  match (Schema.parse ⟨0⟩ text).result with
  | .ok _ => none
  | .error f => some f

/-- The files that are no schemas, with the faults that they have when read alone. -/
def Session.refusals (files : List (String × String)) : List ((String × String) × Fault) :=
  files.filterMap fun file => (Schema.fault? file.2).map fun f => (file, f)

theorem Session.refusals_concat (files : List (String × String)) (file : String × String) :
    refusals (files ++ [file]) = refusals files ++ refusals [file] := by
  simp [refusals]

theorem Session.refusals_schema {name text : String} {p : Schema}
    (h : (Schema.parse ⟨0⟩ text).result = .ok p) : refusals [(name, text)] = [] := by
  simp [refusals, Schema.fault?, h]

theorem Session.refusals_fault {name text : String} {f : Fault}
    (h : (Schema.parse ⟨0⟩ text).result = .error f) :
    refusals [(name, text)] = [((name, text), f)] := by
  simp [refusals, Schema.fault?, h]

/-- A report shows the fault of a file that a workspace holds. It is the report of the fault that
the file has when read alone, but of the source that has the file in the workspace. Its marks are in
that source, at spans of the file. -/
structure Report.Shows (w : Workspace) (refusal : (String × String) × Fault) (r : Report) :
    Prop where
  own : ∃ own, Report.ofDiagnostic refusal.2.diagnostic = .ok own ∧ r = own.inSource r.place.1
  file : w.entry? r.place.1 = some (.ofFile refusal.1)
  code : r.code = refusal.2.diagnostic.code
  message : r.message = refusal.2.diagnostic.name
  kind : r.kind = "Error"
  marked : r.marks ≠ []
  marks : ∀ m ∈ r.marks, m.source = r.place.1 ∧ m.location.ValidIn refusal.1.2

/-- The fault of a text is of the source that is read. -/
theorem Schema.inSource_of_fault {source : SourceId} {text : String} {f : Fault}
    (h : (Schema.parse source text).result = .error f) : f.inSource source = f := by
  have hsame := Schema.parse_inSource source source text
  rw [h] at hsame
  exact (Except.error.inj hsame).symm

/-- The fault of a file has a report, which shows it in the source that has the file. -/
theorem Fault.exists_shows {w : Workspace} {name text : String} {source : SourceId} {f : Fault}
    (hfault : (Schema.parse ⟨0⟩ text).result = .error f)
    (hentry : w.entry? source = some (.ofFile (name, text))) :
    ∃ r, Notice.ofDiagnostic (f.inSource source).diagnostic = .report r ∧
      r.Shows w ((name, text), f) := by
  obtain ⟨own, hown, -⟩ := f.ofDiagnostic_diagnostic
  have hreport : Report.ofDiagnostic (f.inSource source).diagnostic =
      .ok (own.inSource source) := by
    rw [f.diagnostic_inSource, Report.ofDiagnostic_inSource, hown]
    rfl
  obtain ⟨hkind, hcode, hmessage, hmarked, hmarks⟩ := Report.of_ofDiagnostic hown
  refine ⟨own.inSource source, by rw [Notice.ofDiagnostic, hreport], ?_⟩
  refine ⟨⟨own, hown, rfl⟩, hentry, ?_, hmessage, ?_, by simpa [Report.inSource], ?_⟩
  · exact hcode.trans (padTo_of_le (by rw [f.length_code]; decide))
  · exact hkind.trans (by rw [f.diagnostic_severity]; rfl)
  · intro m hm
    obtain ⟨m, hm', rfl⟩ := List.mem_map.mp hm
    rw [hmarks] at hm'
    obtain ⟨l, hl, hmark⟩ := List.mem_filterMap.mp hm'
    have hvalid := Fault.labels_valid (Schema.pointsInto_of_fault hfault).2 l hl
    exact ⟨rfl, (hvalid m.location (by rw [Report.mark?_eq_some.mp hmark]; rfl)).2⟩

/-- More files in a workspace do not change what a report shows. -/
theorem Report.Shows.concat {files : List (String × String)} {refusal : (String × String) × Fault}
    {r : Report} (h : r.Shows (Workspace.ofFiles files) refusal) (file : String × String) :
    r.Shows (Workspace.ofFiles (files ++ [file])) refusal := by
  refine { h with file := ?_ }
  have hfile := h.file
  rw [Workspace.ofFiles_entry?] at hfile ⊢
  obtain ⟨file', hfile', heq⟩ := Option.map_eq_some_iff.mp hfile
  rw [List.getElem?_append_left (List.getElem?_eq_some_iff.mp hfile').1, hfile']
  exact congrArg some heq

namespace Session

variable {quiet : Bool} {s : Session} {name text : String}

/-! ## One file -/

/-- **A file that is a schema** goes on in the output. -/
theorem addFile_schema {p : Schema} (h : (Schema.parse ⟨0⟩ text).result = .ok p) :
    s.addFile quiet name (some text) =
      { s with
        workspace := (s.workspace.add name text).workspace
        output := s.output ++ if quiet then "" else p.render } := by
  have hresult := s.workspace.add_result name text
  have hrendering : (s.workspace.add name text).workspace.rendering? ⟨s.workspace.entries.length⟩ =
      some p.render := by
    rw [Workspace.rendering?, Workspace.schema?, Workspace.entry?, Workspace.add_entries,
      List.getElem?_concat_length]
    simp [Entry.ofFile, h, Except.toOption]
  rw [h] at hresult
  cases quiet <;> simp [addFile, hresult, hrendering, Except.map, Except.mapError]

/-- **A file with a fault** goes on in the notices. -/
theorem addFile_fault {f : Fault} (h : (Schema.parse ⟨0⟩ text).result = .error f) :
    s.addFile quiet name (some text) =
      { s with
        workspace := (s.workspace.add name text).workspace
        notices := s.notices ++
          [.ofDiagnostic (f.inSource ⟨s.workspace.entries.length⟩).diagnostic] } := by
  have hresult := s.workspace.add_result name text
  rw [h] at hresult
  simp [addFile, hresult, Except.map, Except.mapError]

/-! ## Any number of files -/

theorem run_concat (quiet : Bool) (files : List (String × Option String)) (name : String)
    (contents : Option String) : run quiet (files ++ [(name, contents)]) =
      (run quiet files).addFile quiet name contents := by
  simp [run]

/-- The output of some files: the renderings of the schemas among them, unless they are not asked
for. -/
def outputOf (quiet : Bool) (files : List (String × String)) : String :=
  if quiet then "" else String.join ((schemas files).map Schema.render)

theorem outputOf_concat (quiet : Bool) (files : List (String × String)) (file : String × String) :
    outputOf quiet (files ++ [file]) = outputOf quiet files ++ outputOf quiet [file] := by
  cases quiet <;> simp [outputOf, schemas, String.join_append]

theorem outputOf_schema {p : Schema} (h : (Schema.parse ⟨0⟩ text).result = .ok p) :
    outputOf quiet [(name, text)] = if quiet then "" else p.render := by
  simp [outputOf, schemas, h, Except.toOption]

theorem outputOf_fault {f : Fault} (h : (Schema.parse ⟨0⟩ text).result = .error f) :
    outputOf quiet [(name, text)] = "" := by
  simp [outputOf, schemas, h, Except.toOption]

/-- What a session has come to behind some files. -/
structure Behind (quiet : Bool) (files : List (String × Option String)) (s : Session) : Prop where
  workspace : s.workspace = .ofFiles (readable files)
  output : s.output = outputOf quiet (readable files)
  notices : ∃ reports, s.notices = reports.map .report ∧
    List.Forall₂ (fun refusal r => r.Shows s.workspace refusal) (refusals (readable files)) reports
  unreadable : s.unreadable = files.countP (·.2.isNone)

theorem behind_nil : Behind quiet [] (run quiet []) where
  workspace := rfl
  output := by cases quiet <;> rfl
  notices := ⟨[], rfl, .nil⟩
  unreadable := rfl

/-- **A file carries on what a session has come to.** -/
theorem Behind.concat {files : List (String × Option String)} (h : Behind quiet files s)
    (name : String) (contents : Option String) :
    Behind quiet (files ++ [(name, contents)]) (s.addFile quiet name contents) := by
  obtain ⟨reports, hnotices, hshows⟩ := h.notices
  cases contents with
  | none =>
    have hreadable : readable (files ++ [(name, none)]) = readable files := by simp [readable]
    refine ⟨?_, ?_, ?_, ?_⟩
    · rw [hreadable]; exact h.workspace
    · rw [hreadable]; exact h.output
    · rw [hreadable]; exact h.notices
    · simp [addFile, h.unreadable]
  | some text =>
    have hreadable : readable (files ++ [(name, some text)]) =
        readable files ++ [(name, text)] := by
      simp [readable]
    have hworkspace : (s.workspace.add name text).workspace =
        .ofFiles (readable files ++ [(name, text)]) := by
      rw [h.workspace, Workspace.ofFiles_concat]
    have hkept : List.Forall₂
        (fun refusal r => r.Shows (.ofFiles (readable files ++ [(name, text)])) refusal)
        (refusals (readable files)) reports := by
      rw [h.workspace] at hshows
      exact hshows.imp fun _ _ hshow => hshow.concat (name, text)
    cases hparse : (Schema.parse ⟨0⟩ text).result with
    | ok p =>
      rw [addFile_schema hparse]
      refine ⟨hworkspace.trans (by rw [hreadable]), ?_, ⟨reports, hnotices, ?_⟩, ?_⟩
      · rw [hreadable, outputOf_concat, outputOf_schema hparse, ← h.output]
      · rw [hreadable, refusals_concat, refusals_schema hparse, List.append_nil]
        exact hworkspace ▸ hkept
      · simp [h.unreadable]
    | error f =>
      have hentry : Workspace.entry? (Workspace.ofFiles (readable files ++ [(name, text)]))
          ⟨s.workspace.entries.length⟩ = some (.ofFile (name, text)) := by
        rw [Workspace.ofFiles_entry?, h.workspace, Workspace.length_ofFiles,
          List.getElem?_concat_length]
        rfl
      obtain ⟨r, hnotice, hshow⟩ := Fault.exists_shows hparse hentry
      rw [addFile_fault hparse]
      refine ⟨hworkspace.trans (by rw [hreadable]), ?_, ⟨reports ++ [r], ?_, ?_⟩, ?_⟩
      · rw [hreadable, outputOf_concat, outputOf_fault hparse, String.append_empty, ← h.output]
      · rw [hnotice, hnotices, List.map_append, List.map_singleton]
      · rw [hreadable, refusals_concat, refusals_fault hparse]
        exact hworkspace ▸ List.rel_append hkept (.cons hshow .nil)
      · simp [h.unreadable]

/-- **What a session comes to** is carried from file to file. -/
theorem behind_run (quiet : Bool) (files : List (String × Option String)) :
    Behind quiet files (run quiet files) := by
  induction files using List.reverseRecOn with
  | nil => exact behind_nil
  | append_singleton files file ih =>
    rw [run_concat]
    exact ih.concat file.1 file.2

/-- No text among the files has a fault exactly if each of them is a schema. -/
theorem refusals_eq_nil {files : List (String × String)} :
    refusals files = [] ↔ ∀ file ∈ files, ∃ p, (Schema.parse ⟨0⟩ file.2).result = .ok p := by
  rw [refusals, List.filterMap_eq_nil_iff]
  refine forall₂_congr fun file _ => ?_
  unfold Schema.fault?
  cases (Schema.parse ⟨0⟩ file.2).result <;> simp

theorem exitCode_eq_zero : s.exitCode = 0 ↔ s.notices = [] ∧ s.unreadable = 0 := by
  unfold exitCode succeeded
  split <;> simp_all

/-- **The exit code is 0** exactly if every file can be read and is a schema. -/
theorem exitCode_run (quiet : Bool) (files : List (String × Option String)) :
    (run quiet files).exitCode = 0 ↔ ∀ file ∈ files,
      ∃ text p, file.2 = some text ∧ (Schema.parse ⟨0⟩ text).result = .ok p := by
  have h := behind_run quiet files
  obtain ⟨reports, hnotices, hshows⟩ := h.notices
  have hreports : reports = [] ↔ refusals (readable files) = [] := by
    rw [← List.length_eq_zero_iff, ← List.length_eq_zero_iff, hshows.length_eq]
  have hcode : (run quiet files).exitCode = 0 ↔
      refusals (readable files) = [] ∧ ∀ file ∈ files, file.2.isSome := by
    rw [exitCode_eq_zero, hnotices, List.map_eq_nil_iff, hreports, h.unreadable,
      List.countP_eq_zero]
    simp [Option.isSome_iff_ne_none]
  rw [hcode, refusals_eq_nil]
  constructor
  · rintro ⟨hparse, hread⟩ ⟨name, contents⟩ hfile
    obtain ⟨text, rfl⟩ := Option.isSome_iff_exists.mp (hread _ hfile)
    obtain ⟨p, hp⟩ := hparse (name, text) (List.mem_filterMap.mpr ⟨_, hfile, rfl⟩)
    exact ⟨text, p, rfl, hp⟩
  · intro hall
    constructor
    · intro file hfile
      obtain ⟨file', hfile', hmap⟩ := List.mem_filterMap.mp hfile
      obtain ⟨text, p, htext, hp⟩ := hall file' hfile'
      rw [htext] at hmap
      obtain rfl := Option.some.inj hmap
      exact ⟨p, hp⟩
    · intro file hfile
      obtain ⟨text, -, htext, -⟩ := hall file hfile
      rw [htext]
      rfl

/-! ## Each file on its own -/

/-- **A file adds what it comes to alone** to the output and, but for the number of its source, to
the notices. -/
theorem addFile_alone (quiet : Bool) (s : Session) (name : String) (contents : Option String) :
    (s.addFile quiet name contents).output =
        s.output ++ (run quiet [(name, contents)]).output ∧
      (s.addFile quiet name contents).notices.map (.inSource ⟨0⟩) =
        s.notices.map (.inSource ⟨0⟩) ++ (run quiet [(name, contents)]).notices := by
  have hrun : run quiet [(name, contents)] = addFile quiet {} name contents := rfl
  cases contents with
  | none => simp [hrun, addFile]
  | some text =>
    cases hparse : (Schema.parse ⟨0⟩ text).result with
    | ok p => simp [hrun, addFile_schema hparse]
    | error f =>
      rw [hrun, addFile_fault hparse, addFile_fault hparse]
      simp [Notice.inSource_ofDiagnostic, Schema.inSource_of_fault hparse]

/-- What files come to together is what they come to alone, one behind the other. -/
theorem run_alone (quiet : Bool) (files : List (String × Option String)) :
    (run quiet files).output = String.join (files.map fun file => (run quiet [file]).output) ∧
      (run quiet files).notices.map (.inSource ⟨0⟩) =
        files.flatMap fun file => (run quiet [file]).notices := by
  induction files using List.reverseRecOn with
  | nil => exact ⟨rfl, rfl⟩
  | append_singleton files file ih =>
    obtain ⟨houtput, hnotices⟩ := addFile_alone quiet (run quiet files) file.1 file.2
    rw [run_concat, houtput, hnotices, ih.1, ih.2]
    simp [String.join_append]

/-- **What a session comes to**, for any files and whether output is asked for or not. Its workspace
holds the files that can be read, so that one that cannot takes no number. The schemas among them
are the output, in order. Each of the others has one report, in order, that shows its fault in its
own source, and there are no other notices. The exit code is 0 if every file can be read and is a
schema, and 1 otherwise. The output and, but for the numbers of sources, the notices are what the
files come to alone. -/
theorem run_of_files (quiet : Bool) (files : List (String × Option String)) :
    (run quiet files).workspace = .ofFiles (readable files) ∧
      (run quiet files).output =
        (if quiet then "" else String.join ((schemas (readable files)).map Schema.render)) ∧
      (∃ reports, (run quiet files).notices = reports.map .report ∧
        List.Forall₂ (fun refusal r => r.Shows (run quiet files).workspace refusal)
          (refusals (readable files)) reports) ∧
      ((run quiet files).exitCode = 0 ↔ ∀ file ∈ files,
        ∃ text p, file.2 = some text ∧ (Schema.parse ⟨0⟩ text).result = .ok p) ∧
      ((run quiet files).exitCode = 0 ∨ (run quiet files).exitCode = 1) ∧
      (run quiet files).output = String.join (files.map fun file => (run quiet [file]).output) ∧
      (run quiet files).notices.map (.inSource ⟨0⟩) =
        files.flatMap fun file => (run quiet [file]).notices := by
  have h := behind_run quiet files
  refine ⟨h.workspace, h.output, h.notices, exitCode_run quiet files, ?_, run_alone quiet files⟩
  unfold exitCode
  split
  · exact Or.inl rfl
  · exact Or.inr rfl

/-- A file that cannot be read, one with a fault, and a schema. The fault is shown in the file that
has it, and the schema makes the output. -/
theorem run_of_files_mixed :
    ∃ files, files = [("a", none), ("b", some "s ::= t"), ("c", some "t ::= UINT")] ∧
      (run false files).output = "t ::= UINT\n" ∧ (run false files).exitCode = 1 ∧
      ∃ r, (run false files).notices = [.report r] ∧ r.code = "0001" ∧
        Workspace.entry? (run false files).workspace r.place.1 =
          some (.ofFile ("b", "s ::= t")) := by
  obtain ⟨-, houtput, ⟨reports, hnotices, hshows⟩, hzero, hcode, -, -⟩ :=
    run_of_files false [("a", none), ("b", some "s ::= t"), ("c", some "t ::= UINT")]
  have hrefusals : refusals (readable
      [("a", none), ("b", some "s ::= t"), ("c", some "t ::= UINT")]) =
      [(("b", "s ::= t"),
        ⟨⟨0⟩, .unexpectedToken (Rule.firstOfAny Rule.bodies) .identifier 6 1⟩)] := by
    decide +kernel
  rw [hrefusals] at hshows
  obtain ⟨r, rest, hshow, hrest, rfl⟩ := List.forall₂_cons_left_iff.mp hshows
  obtain rfl := List.forall₂_nil_left_iff.mp hrest
  refine ⟨_, rfl, houtput.trans (by decide +kernel), ?_, r, hnotices, hshow.code, hshow.file⟩
  refine hcode.resolve_left fun h => ?_
  obtain ⟨text, p, htext, -⟩ := hzero.mp h _ List.mem_cons_self
  exact absurd htext (by simp)

end Session

end RecordSchema
