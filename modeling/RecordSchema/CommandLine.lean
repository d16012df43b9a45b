import RecordSchema.Report
import RecordSchema.Workspace

/-!
# The command line (specification, 4.8)

The program reads schema files, each on its own. It prints the rendering of every file that is a
schema and reports the fault of every other. `Request.ofArguments` says what the arguments ask for,
and `Session.run` what checking the files of a request comes to, given what each file holds.

Out of scope: the help, the wording of a usage error, the filter that picks the events of the log to
be printed, and the lines of text that a report is drawn with.
-/

namespace RecordSchema

/-- When reports are coloured. -/
inductive Colour where
  | auto
  | always
  | never
deriving DecidableEq, Repr

namespace Colour

/-- The setting of a word. -/
def ofWord? : String → Option Colour
  | "auto" => some auto
  | "always" => some always
  | "never" => some never
  | _ => none

/-- Whether to colour, given whether reports go to a terminal. -/
def enabled (terminal : Bool) : Colour → Bool
  | auto => terminal
  | always => true
  | never => false

end Colour

/-- The options of a request. A setting that was not given is not there. -/
structure Options where
  quiet : Bool := false
  colour : Option Colour := none
  files : List String := []
deriving DecidableEq, Repr

namespace Options

/-- Sets quiet, once at most. -/
def setQuiet (o : Options) : Option Options :=
  if o.quiet then none else some { o with quiet := true }

/-- Sets the colour by its word, once at most. -/
def setColour (o : Options) (word : String) : Option Options :=
  match o.colour, Colour.ofWord? word with
  | none, some colour => some { o with colour := some colour }
  | _, _ => none

/-- Adds a file, whose name is not empty. -/
def addFile (o : Options) (file : String) : Option Options :=
  if file.isEmpty then none else some { o with files := o.files ++ [file] }

end Options

/-- What the arguments ask for. -/
inductive Request where
  /-- They are no valid usage. -/
  | invalid
  /-- They ask for the version of the program. -/
  | version
  /-- They ask to check files. -/
  | check (options : Options)
deriving DecidableEq, Repr

namespace Request

/-- The name and version of the program. -/
def versionText : String := "miniasn-cli 0.1.0"

/-- Goes on with changed options, unless the change was refused. -/
def andThen (changed : Option Options) (next : Options → Request) : Request :=
  match changed with
  | some o => next o
  | none => invalid

/-- The request at the end of the arguments, which have to name a file. -/
def ofOptions (o : Options) : Request := if o.files.isEmpty then invalid else check o

/-- The short options of one argument, in order. What follows them is asked with the options they
leave. -/
def ofCluster (next : Options → Request) : List Char → Options → Request
  | [], o => next o
  | 'q' :: rest, o => andThen o.setQuiet (ofCluster next rest)
  | 'V' :: _, _ => version
  | _ :: _, _ => invalid

/-- The word that a long option is given behind an equals sign. -/
def attachedColour? (argument : List Char) : Option String :=
  let option := "--color=".toList
  if option.isPrefixOf argument then some (String.ofList (argument.drop option.length)) else none

/-- Arguments behind `--` are files. -/
def ofFiles : List String → Options → Request
  | [], o => ofOptions o
  | file :: rest, o => andThen (o.addFile file) (ofFiles rest)

/-- The arguments from left to right, behind those that gave the options. -/
def ofRest : List String → Options → Request
  | [], o => ofOptions o
  | "--" :: rest, o => ofFiles rest o
  | "--version" :: _, _ => version
  | "--quiet" :: rest, o => andThen o.setQuiet (ofRest rest)
  | ["--color"], _ => invalid
  | "--color" :: word :: rest, o => andThen (o.setColour word) (ofRest rest)
  | argument :: rest, o =>
    match attachedColour? argument.toList, argument.toList with
    | some word, _ => andThen (o.setColour word) (ofRest rest)
    | none, '-' :: '-' :: _ => invalid
    | none, '-' :: c :: letters => ofCluster (ofRest rest) (c :: letters) o
    | none, _ => andThen (o.addFile argument) (ofRest rest)

/-- What arguments ask for. -/
def ofArguments (arguments : List String) : Request := ofRest arguments {}

end Request

/-- How a fault is shown: as a report, or as plain text if it has none. -/
inductive Notice where
  | report (report : Report)
  | plain (text : String)
deriving DecidableEq, Repr

/-- The notice of a diagnostic. A label that cannot be drawn is no matter here: no span of a fault
ends before it begins. -/
def Notice.ofDiagnostic (d : Diagnostic) : Notice :=
  match Report.ofDiagnostic d with
  | .ok r => .report r
  | .error _ => .plain d.text

/-- What checking files came to: the workspace of those that could be read, the output, the notices
in order, and how many files could not be read. -/
structure Session where
  workspace : Workspace := {}
  output : String := ""
  notices : List Notice := []
  unreadable : Nat := 0

namespace Session

/-- Checks one more file, that holds a text or cannot be read. -/
def addFile (quiet : Bool) (s : Session) (file : String) (contents : Option String) : Session :=
  match contents with
  | none => { s with unreadable := s.unreadable + 1 }
  | some text =>
    let addition := s.workspace.add file text
    let s := { s with workspace := addition.workspace }
    match addition.result with
    | .ok id =>
      if quiet then s
      else { s with output := s.output ++ (s.workspace.rendering? id).getD "" }
    | .error fault => { s with notices := s.notices ++ [.ofDiagnostic fault.diagnostic] }

/-- Checks files in order, each with what it holds. -/
def run (quiet : Bool) (files : List (String × Option String)) : Session :=
  files.foldl (fun s file => s.addFile quiet file.1 file.2) {}

/-- Whether every file could be read and is a schema. -/
def succeeded (s : Session) : Bool := s.notices.isEmpty && s.unreadable == 0

/-- The exit code of the program. -/
def exitCode (s : Session) : Nat := if s.succeeded then 0 else 1

end Session

/-- The exit code for arguments that are no valid usage. -/
def usageExitCode : Nat := 2

end RecordSchema
