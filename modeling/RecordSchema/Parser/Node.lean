import RecordSchema.Grammar
import RecordSchema.Schema.Basic

/-!
# Nodes (specification, 4.1)

What a rule reads has a type of its own, `Rule.Output`. A node is a rule together with what it
read, so that rules can be tried without knowing which one will match.
-/

namespace RecordSchema

/-- The type of what a rule reads. -/
@[reducible] def Rule.Output : Rule → Type
  | .declaration => Declaration
  | .simpleType => SimpleType
  | .sequence | .array | .choice => Body
  | .parameters => List Name
  | .field => Field
  | .reference => Reference
  | .values => List Operand
  | .branch => Branch
  | .condition => Condition
  | .disjunction => Disjunction
  | .conjunction => Conjunction
  | .term | .comparison => Term
  | .operand => Operand

/-- A rule and what it read. -/
structure Node where
  rule : Rule
  output : rule.Output

end RecordSchema
