/-!
# Conditions (specification, 4.4)

The guard of a branch is the default or a disjunction of conjunctions of terms. A term compares two
operands, or groups a disjunction of its own in parentheses.
-/

namespace RecordSchema

/-- A name as written, with the offset it was found at. -/
structure Name where
  text : String
  offset : Nat
deriving DecidableEq, Repr

/-- A parameter or field by its name, or an integer. -/
inductive Operand where
  | name (name : Name)
  | integer (value : Nat)
deriving DecidableEq, Repr

/-- How a comparison relates its operands. -/
inductive Relation where
  | equal
  | notEqual
  | less
  | lessEqual
  | greater
  | greaterEqual
deriving DecidableEq, Repr

/-- A comparison, or a disjunction in parentheses. -/
inductive Term where
  | comparison (left : Operand) (relation : Relation) (right : Operand)
  | group (alternatives : List (List Term))
deriving Repr

/-- Terms that all have to hold. -/
abbrev Conjunction := List Term

/-- Conjunctions of which one has to hold. -/
abbrev Disjunction := List Conjunction

/-- The guard of a branch. -/
inductive Condition where
  /-- Selected when no other branch is. -/
  | default
  | expression (alternatives : Disjunction)
deriving Repr

/-! ## Equality

`Term` is nested in lists, so its equality is decided together with that of its lists. -/

mutual

/-- Decides whether two terms are equal. -/
def Term.decEq : (s t : Term) → Decidable (s = t)
  | .comparison l r x, .comparison l' r' x' =>
    if h : l = l' ∧ r = r' ∧ x = x' then isTrue (by simp [h])
    else isFalse (by simpa using h)
  | .comparison .., .group _ => isFalse nofun
  | .group _, .comparison .. => isFalse nofun
  | .group a, .group b =>
    match Disjunction.decEq a b with
    | isTrue h => isTrue (by rw [h])
    | isFalse h => isFalse (by simpa using h)

/-- Decides whether two conjunctions are equal. -/
def Conjunction.decEq : (s t : List Term) → Decidable (s = t)
  | [], [] => isTrue rfl
  | [], _ :: _ => isFalse nofun
  | _ :: _, [] => isFalse nofun
  | a :: as, b :: bs =>
    match Term.decEq a b, Conjunction.decEq as bs with
    | isTrue h, isTrue h' => isTrue (by rw [h, h'])
    | isFalse h, _ => isFalse (by simp [h])
    | _, isFalse h => isFalse (by simp [h])

/-- Decides whether two disjunctions are equal. -/
def Disjunction.decEq : (s t : List (List Term)) → Decidable (s = t)
  | [], [] => isTrue rfl
  | [], _ :: _ => isFalse nofun
  | _ :: _, [] => isFalse nofun
  | a :: as, b :: bs =>
    match Conjunction.decEq a b, Disjunction.decEq as bs with
    | isTrue h, isTrue h' => isTrue (by rw [h, h'])
    | isFalse h, _ => isFalse (by simp [h])
    | _, isFalse h => isFalse (by simp [h])

end

instance : DecidableEq Term := Term.decEq

deriving instance DecidableEq for Condition

namespace Condition

/-- Whether the condition is the default. -/
def isDefault : Condition → Bool
  | default => true
  | expression _ => false

end Condition

end RecordSchema
