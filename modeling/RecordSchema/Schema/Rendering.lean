import RecordSchema.Schema.Basic

/-!
# Rendering (specification, 4.4)

Every part of a schema has one canonical text. A rendering writes one member a line, behind a tab,
without braces; it separates listed items by single blanks and spells the connectives in lower
case. It is total and checks nothing.
-/

namespace RecordSchema

/-- An integer is written in decimal. -/
def Operand.render : Operand → String
  | name n => n.text
  | integer value => toString value

/-- The sign of a relation. -/
def Relation.render : Relation → String
  | equal => "=="
  | notEqual => "!="
  | less => "<"
  | lessEqual => "<="
  | greater => ">"
  | greaterEqual => ">="

/-! ## Conditions -/

mutual

/-- A comparison has a blank on either side of its sign. -/
def Term.render : Term → String
  | .comparison left relation right =>
    left.render ++ " " ++ relation.render ++ " " ++ right.render
  | .group alternatives => "(" ++ Disjunction.render alternatives ++ ")"

/-- The terms joined by `and`. -/
def Conjunction.render : List Term → String
  | [] => ""
  | [t] => Term.render t
  | t :: u :: rest => Term.render t ++ " and " ++ Conjunction.render (u :: rest)

/-- The conjunctions joined by `or`. -/
def Disjunction.render : List (List Term) → String
  | [] => ""
  | [c] => Conjunction.render c
  | c :: d :: rest => Conjunction.render c ++ " or " ++ Disjunction.render (d :: rest)

end

/-- The default is a keyword. -/
def Condition.render : Condition → String
  | default => "DEFAULT"
  | expression alternatives => Disjunction.render alternatives

/-! ## Types and their uses -/

/-- The keyword of a built-in type. -/
def Builtin.keyword : Builtin → String
  | uint => "UINT"
  | bitString => "BITSTRING"
  | bool => "BOOL"

/-- The keyword, and the width behind an underscore. -/
def SimpleType.render (t : SimpleType) : String :=
  t.builtin.keyword ++
    match t.width with
    | none => ""
    | some width => "_" ++ toString width

/-- A bracketed list, its items separated by blanks. -/
def bracketed (items : List String) : String := "[" ++ " ".intercalate items ++ "]"

/-- The parameters of a declaration; none are written as nothing at all. -/
def renderParameters (parameters : List Name) : String :=
  if parameters.isEmpty then "" else bracketed (parameters.map (·.text))

/-- The values of a reference, in brackets even if there are none. -/
def renderValues (values : List Operand) : String := bracketed (values.map (·.render))

/-- A built-in type is written from its target, not from the name of the reference. -/
def Reference.render (r : Reference) : String :=
  (match r.target with
    | .builtin type => type.render
    | .declared _ => r.name.text) ++
  (match r.values with
    | none => ""
    | some values => renderValues values)

/-- The name and the type. -/
def Field.render (f : Field) : String := f.name.text ++ " " ++ f.type.render

/-- The type, and the condition in parentheses. -/
def Branch.render (b : Branch) : String := b.type.render ++ "(" ++ b.condition.render ++ ")"

/-! ## Declarations -/

/-- Each member on a line of its own. -/
def renderMembers (members : List String) : String := String.join (members.map ("\n\t" ++ ·))

/-- The keyword and the parameters on one line, and the members on those below. -/
def Body.render : Body → String
  | simple type => type.render
  | sequence parameters fields =>
    "SEQUENCE" ++ renderParameters parameters ++ renderMembers (fields.map (·.render))
  | array count fields => "ARRAY" ++ bracketed [count.text] ++ renderMembers (fields.map (·.render))
  | choice parameters branches =>
    "CHOICE" ++ renderParameters parameters ++ renderMembers (branches.map (·.render))

/-- The name and what it declares. -/
def Declaration.render (d : Declaration) : String := d.name.text ++ " ::= " ++ d.body.render

/-- The declarations, each ended by a line feed. -/
def Schema.render (s : Schema) : String := String.join (s.declarations.map (·.render ++ "\n"))

end RecordSchema
