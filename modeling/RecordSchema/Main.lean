import RecordSchema.CommandLine

/-!
# The program

Reads the files that the arguments name, prints the renderings to the standard output and the
notices to the standard error.
-/

namespace RecordSchema

/-- What a file holds, if it can be read as text. -/
def readSource (file : String) : IO (String × Option String) := do
  try
    let text ← IO.FS.readFile file
    return (file, some text)
  catch _ => return (file, none)

/-- A notice as printed; of a report, the header may be coloured. -/
def drawNotice (coloured : Bool) : Notice → String
  | .plain text => text
  | .report report =>
    let header := if coloured then s!"\x1b[31m{report.header}\x1b[0m" else report.header
    let lines := report.marks.map fun mark =>
      s!"\n  {mark.location.start}..{mark.location.stop}: {mark.message}"
    let note := match report.note with
      | some note => s!"\n  Note: {note}"
      | none => ""
    header ++ String.join lines ++ note

end RecordSchema

open RecordSchema in
/-- Runs the program on its arguments. -/
def main (arguments : List String) : IO UInt32 := do
  match Request.ofArguments arguments with
  | .invalid =>
    IO.eprintln "usage: miniasn [-q] [--color auto|always|never] FILE..."
    return usageExitCode.toUInt32
  | .version =>
    IO.println Request.versionText
    return 0
  | .check options =>
    let files ← options.files.mapM readSource
    let session := Session.run options.quiet files
    let coloured := (options.colour.getD .auto).enabled (← (← IO.getStderr).isTty)
    IO.print session.output
    for (file, contents) in files do
      if contents.isNone then IO.eprintln s!"unable to read file {file}"
    for notice in session.notices do
      IO.eprintln (drawNotice coloured notice)
    return session.exitCode.toUInt32
