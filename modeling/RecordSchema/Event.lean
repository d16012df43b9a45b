import RecordSchema.Fault

/-!
# The log (specification, 10.2)

Reading a text leaves a log of what happened, event by event. An event has a level, a title and
fields, each a name and its value as text.

Out of scope: which events are printed, when they happened, and how a line of the log is laid out.
-/

namespace RecordSchema

/-- Something that happened while a text was read. -/
inductive Event where
  /-- A text was added to a workspace. -/
  | sourceAdded (file : String) (source : SourceId)
  /-- A rule began at an offset. -/
  | ruleBegun (rule : Rule) (offset : Nat)
  /-- A comment that began at an offset was passed. -/
  | commentSkipped (offset : Nat)
  /-- A declaration was completed. -/
  | typeDeclared (name : String) (index parameters : Nat)
  /-- A fault ended the reading. -/
  | parseAborted (fault : Fault)
  /-- The text was read to its end. -/
  | parseFinished (types : List String)
deriving DecidableEq, Repr

namespace Event

/-- How much detail the event is. -/
def level : Event → String
  | sourceAdded .. => "INFO"
  | ruleBegun .. | commentSkipped _ => "TRACE"
  | typeDeclared .. | parseAborted _ | parseFinished _ => "DEBUG"

/-- What happened, in fixed words. -/
def title : Event → String
  | sourceAdded .. => "adding source file"
  | ruleBegun .. => "parse rule"
  | commentSkipped _ => "skipped comment"
  | typeDeclared .. => "type declared"
  | parseAborted _ => "parse aborted"
  | parseFinished _ => "parse finished"

/-- A list of names in brackets, each in quotes. -/
def quotedNames (names : List String) : String :=
  "[" ++ ", ".intercalate (names.map fun name => "\"" ++ name ++ "\"") ++ "]"

/-- The fields of an event by name, in order. -/
def fields : Event → List (String × String)
  | sourceAdded file source => [("file", file), ("id", source.label)]
  | ruleBegun rule offset => [("rule", rule.label), ("offset", toString offset)]
  | commentSkipped offset => [("offset", toString offset)]
  | typeDeclared name index parameters =>
    [("name", name), ("id", toString index), ("parameters", toString parameters)]
  | parseAborted fault => [("err", fault.message), ("offset", toString fault.span.start)]
  | parseFinished types => [("types", quotedNames types)]

end Event

end RecordSchema
