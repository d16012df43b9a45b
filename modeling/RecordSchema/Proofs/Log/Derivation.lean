import RecordSchema.Event
import RecordSchema.Parser.Node

/-!
# Derivations

What is read has a derivation: the rules that begin on the way, in the order in which they begin.
`Term.rules`, `Reference.rules` and so on list them for each kind of node, a rule in front of those
it is made of. A declaration is completed behind all of its rules, and `Milestone` tells the two
apart: a rule that begins, and a declaration that is completed.

`Rule.derivation` is the list for whatever a rule reads.
-/

namespace RecordSchema

/-! ## Conditions -/

mutual

/-- The rules of a term. -/
def Term.rules : Term → List Rule
  | .comparison .. => [.term, .comparison, .operand, .operand]
  | .group alternatives => .term :: .disjunction :: Disjunction.parts alternatives

/-- The rules of some terms. -/
def Conjunction.parts : List Term → List Rule
  | [] => []
  | t :: rest => Term.rules t ++ Conjunction.parts rest

/-- The rules of some conjunctions. -/
def Disjunction.parts : List (List Term) → List Rule
  | [] => []
  | c :: rest => .conjunction :: Conjunction.parts c ++ Disjunction.parts rest

end

/-- The rules of a conjunction. -/
def Conjunction.rules (c : Conjunction) : List Rule := .conjunction :: Conjunction.parts c

/-- The rules of a disjunction. -/
def Disjunction.rules (d : Disjunction) : List Rule := .disjunction :: Disjunction.parts d

theorem Conjunction.parts_eq (c : Conjunction) : Conjunction.parts c = c.flatMap Term.rules := by
  induction c with
  | nil => rfl
  | cons t c ih => rw [Conjunction.parts, ih, List.flatMap_cons]

theorem Disjunction.parts_eq (d : Disjunction) :
    Disjunction.parts d = d.flatMap Conjunction.rules := by
  induction d with
  | nil => rfl
  | cons c d ih => rw [Disjunction.parts, ih, List.flatMap_cons, Conjunction.rules]

/-- A term begins with its own rule. -/
theorem Term.rules_eq (t : Term) : t.rules = .term :: t.rules.tail := by
  cases t <;> rw [Term.rules, List.tail_cons]

/-- The rules of a condition. The default has none inside. -/
def Condition.rules : Condition → List Rule
  | default => [.condition]
  | expression alternatives => .condition :: Disjunction.rules alternatives

/-! ## Members -/

/-- The rules of a list of values, one for each. -/
def valuesRules (values : List Operand) : List Rule := .values :: values.map fun _ => .operand

/-- A built-in type is read by a rule of its own. -/
def Target.rules : Target → List Rule
  | builtin _ => [.simpleType]
  | declared _ => []

/-- The rules of a reference. -/
def Reference.rules (r : Reference) : List Rule :=
  .reference :: r.target.rules ++ (r.values.map valuesRules).getD []

/-- The rules of a field. -/
def Field.rules (f : Field) : List Rule := .field :: f.type.rules

/-- The rules of a branch. -/
def Branch.rules (b : Branch) : List Rule := .branch :: b.type.rules ++ b.condition.rules

/-! ## Declarations -/

/-- The rule of parameters, whose brackets are left out if there are none. -/
def parametersRules (parameters : List Name) : List Rule :=
  if parameters.isEmpty then [] else [.parameters]

/-- The rules of a body. -/
def Body.rules : Body → List Rule
  | simple _ => [.simpleType]
  | sequence parameters fields =>
    .sequence :: parametersRules parameters ++ fields.flatMap Field.rules
  | array count fields => .array :: parametersRules [count] ++ fields.flatMap Field.rules
  | choice parameters branches =>
    .choice :: parametersRules parameters ++ branches.flatMap Branch.rules

/-- The rules of a declaration. -/
def Declaration.rules (d : Declaration) : List Rule := .declaration :: d.body.rules

/-- What happens while a schema is read. -/
inductive Milestone where
  /-- A rule begins. -/
  | rule (rule : Rule)
  /-- The declaration at an index is completed. -/
  | declared (name : String) (index parameters : Nat)
deriving DecidableEq, Repr

/-- What happens while the declaration at an index is read: its rules begin, and then it is
completed. -/
def Declaration.milestones (d : Declaration) (index : Nat) : List Milestone :=
  d.rules.map .rule ++ [.declared d.name.text index d.body.parameters.length]

/-- What happens while declarations are read, the first of them at index 0. -/
def milestones (ds : List Declaration) : List Milestone :=
  ds.zipIdx.flatMap fun entry => entry.1.milestones entry.2

theorem milestones_concat (ds : List Declaration) (d : Declaration) :
    milestones (ds ++ [d]) = milestones ds ++ d.milestones ds.length := by
  simp [milestones, List.zipIdx_append]

/-! ## Rules -/

/-- The rules of what a rule reads. -/
def Rule.derivation : (rule : Rule) → rule.Output → List Rule
  | .declaration => Declaration.rules
  | .simpleType => fun _ => [.simpleType]
  | .sequence | .array | .choice => Body.rules
  | .parameters => parametersRules
  | .field => Field.rules
  | .reference => Reference.rules
  | .values => valuesRules
  | .branch => Branch.rules
  | .condition => Condition.rules
  | .disjunction => Disjunction.rules
  | .conjunction => Conjunction.rules
  | .term => Term.rules
  | .comparison => fun t => t.rules.tail
  | .operand => fun _ => [.operand]

/-- The rules of a node. -/
def Node.derivation (node : Node) : List Rule := node.rule.derivation node.output

end RecordSchema
