import RecordSchema.Schema.Basic

/-!
# Scopes (specification, 4.3)

What names mean at a place in a text. A `Scope` holds the parameters and fields of the declaration
that is being read, which share one namespace; a `TypeTable` holds the types declared before it, in
order. Both refuse a name they hold already, and answer with the offset it was first declared at.
Whether a name in scope is a parameter or a field is not kept, since no rule asks for it.
-/

namespace RecordSchema

/-- The names declared so far in one declaration, newest first. -/
structure Scope where
  names : List Name := []
deriving DecidableEq, Repr

namespace Scope

/-- The declaration of a name. -/
def find? (s : Scope) (text : String) : Option Name := s.names.find? (·.text == text)

/-- Adds a name; of a name it holds, the offset of its declaration. -/
def declare (s : Scope) (name : Name) : Except Nat Scope :=
  match s.find? name.text with
  | some first => .error first.offset
  | none => .ok ⟨name :: s.names⟩

end Scope

/-- A declared type: its name and the number of its parameters. -/
structure DeclaredType where
  name : Name
  parameters : Nat
deriving DecidableEq, Repr

/-- The types declared so far, in order. -/
structure TypeTable where
  types : List DeclaredType := []
deriving DecidableEq, Repr

namespace TypeTable

/-- The position of a type and what is known of it. -/
def find? (t : TypeTable) (text : String) : Option (TypeId × DeclaredType) :=
  (t.types.zipIdx.find? fun entry => entry.1.name.text == text).map fun entry =>
    (⟨entry.2⟩, entry.1)

/-- Nothing if the name is free; of a name it holds, the offset of its declaration. -/
def ensureFree (t : TypeTable) (name : Name) : Except Nat Unit :=
  match t.find? name.text with
  | some (_, first) => .error first.name.offset
  | none => .ok ()

/-- Adds a type behind the others, at the position it returns. -/
def declare (t : TypeTable) (name : Name) (parameters : Nat) : Except Nat (TypeId × TypeTable) := do
  t.ensureFree name
  return (⟨t.types.length⟩, ⟨t.types ++ [⟨name, parameters⟩]⟩)

/-- The names of the types, in order. -/
def names (t : TypeTable) : List String := t.types.map (·.name.text)

end TypeTable

end RecordSchema
