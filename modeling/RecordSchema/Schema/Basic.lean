import RecordSchema.Schema.Condition

/-!
# Schemas (specification, 4.4)

A schema is a list of declarations in the order of its text. A declaration names a built-in type, a
sequence, an array or a choice; its members refer to built-in types or, by position, to earlier
declarations.
-/

namespace RecordSchema

/-- The built-in types. -/
inductive Builtin where
  | uint
  | bitString
  | bool
deriving DecidableEq, Repr

/-- Whether a bit width can follow the type. -/
def Builtin.takesWidth : Builtin → Bool
  | uint | bitString => true
  | bool => false

/-- A built-in type, perhaps with a width in bits. -/
structure SimpleType where
  builtin : Builtin
  width : Option Nat
deriving DecidableEq, Repr

/-- A declaration of a schema, as its position among all of them. -/
structure TypeId where
  index : Nat
deriving DecidableEq, Repr

/-- What a reference refers to. -/
inductive Target where
  | builtin (type : SimpleType)
  | declared (id : TypeId)
deriving DecidableEq, Repr

/-- A use of a type. The name is as written, and for a built-in type its keyword; the values are
those given for the parameters of the type, if a list of them was written. -/
structure Reference where
  name : Name
  target : Target
  values : Option (List Operand)
deriving DecidableEq, Repr

/-- A named member of a sequence or array. -/
structure Field where
  name : Name
  type : Reference
deriving DecidableEq, Repr

/-- A member of a choice, selected by its condition. -/
structure Branch where
  type : Reference
  condition : Condition
deriving DecidableEq, Repr

/-- What a declaration declares. -/
inductive Body where
  | simple (type : SimpleType)
  | sequence (parameters : List Name) (fields : List Field)
  /-- The one parameter of an array is the count of its elements. -/
  | array (count : Name) (fields : List Field)
  | choice (parameters : List Name) (branches : List Branch)
deriving DecidableEq, Repr

namespace Body

/-- The parameters of a body, in order. -/
def parameters : Body → List Name
  | simple _ => []
  | sequence parameters _ => parameters
  | array count _ => [count]
  | choice parameters _ => parameters

/-- The references of the members of a body, in order. -/
def references : Body → List Reference
  | simple _ => []
  | sequence _ fields | array _ fields => fields.map (·.type)
  | choice _ branches => branches.map (·.type)

end Body

/-- A name and what it declares. -/
structure Declaration where
  name : Name
  body : Body
deriving DecidableEq, Repr

/-- The declarations of one text, in order. -/
structure Schema where
  declarations : List Declaration
deriving DecidableEq, Repr

namespace Schema

/-- The declaration at a position. -/
def get? (s : Schema) (id : TypeId) : Option Declaration := s.declarations[id.index]?

/-- The first declaration of a name. -/
def find? (s : Schema) (text : String) : Option Declaration :=
  s.declarations.find? (·.name.text == text)

end Schema

end RecordSchema
