import RecordSchema.Parser.Rules
import RecordSchema.Schema.Rendering

/-!
# Workspaces (specification, 4.7)

A workspace keeps every text that was added to it, numbered in order, with the schema that reading
the text gave. A text with a fault is kept too, so that the fault can be shown next to it. Texts
know nothing of one another.
-/

namespace RecordSchema

/-- A text of a workspace. It has no schema if it had a fault. -/
structure Entry where
  name : String
  text : String
  schema : Option Schema
deriving DecidableEq, Repr

/-- Texts in the order they were added. -/
structure Workspace where
  entries : List Entry := []
deriving DecidableEq, Repr

namespace Workspace

/-- What adding a text gives: the workspace with it, its number or its fault, and the log. -/
structure Addition where
  workspace : Workspace
  result : Except Fault SourceId
  log : List Event

/-- Adds a text under a name. -/
def add (w : Workspace) (name text : String) : Addition :=
  let id : SourceId := ⟨w.entries.length⟩
  let outcome := Schema.parse id text
  let log := .sourceAdded name id :: outcome.log
  match outcome.result with
  | .ok schema => ⟨⟨w.entries ++ [⟨name, text, some schema⟩]⟩, .ok id, log⟩
  | .error fault => ⟨⟨w.entries ++ [⟨name, text, none⟩]⟩, .error fault, log⟩

/-- The numbers of all texts. -/
def sources (w : Workspace) : List SourceId := (List.range w.entries.length).map SourceId.mk

/-- The text of a number. -/
def entry? (w : Workspace) (id : SourceId) : Option Entry := w.entries[id.index]?

/-- The name that a text was added under. -/
def name? (w : Workspace) (id : SourceId) : Option String := (w.entry? id).map (·.name)

/-- The text itself. -/
def text? (w : Workspace) (id : SourceId) : Option String := (w.entry? id).map (·.text)

/-- The schema of a number, if there is such a text and it has one. -/
def schema? (w : Workspace) (id : SourceId) : Option Schema := (w.entry? id).bind (·.schema)

/-- The rendering of that schema. -/
def rendering? (w : Workspace) (id : SourceId) : Option String := (w.schema? id).map (·.render)

end Workspace

end RecordSchema
