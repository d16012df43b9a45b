/-!
# Source numbers

The texts of a workspace are numbered from 0 in the order they were added.
-/

namespace RecordSchema

/-- The number of a text. -/
structure SourceId where
  index : Nat
deriving DecidableEq, Repr

/-- How messages and the log write a source number. -/
def SourceId.label (id : SourceId) : String := s!"SourceId({id.index})"

end RecordSchema
