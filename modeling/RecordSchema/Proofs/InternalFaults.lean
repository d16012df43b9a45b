import RecordSchema.Proofs.Refusal

/-!
# Internal faults

Two faults would be the parser's own and not the text's: that a rule gives the node of another one,
and that a name which was free before a body was read is taken behind it. Neither occurs. A rule
gives its own node from whatever state it is read, so what it gives can be used for what it is; and
the body of a declaration leaves the table of types alone, so that a declaration reads the same with
its second check left out.

Results:
* `Parser.descend_refused_iff`, `Parser.body_refused_iff`: a node that was read is never refused.
* `Schema.no_internal_fault`: no text ends in an internal fault.
-/

namespace RecordSchema

namespace Parser

open State

variable {n : Nat} {rule : Rule} {s s' : State} {f : Fault}

/-! ## Nodes -/

/-- What is read for a sub-rule is refused only where the rule is. -/
theorem descend_refused_iff :
    descend (readRule n) rule s = .error f s' ↔ readRule n rule s = .error f s' :=
  ⟨descend_error_readRule, fun h => bind_of_error h⟩

/-- The node that is read for a body is of one of the rules for bodies. -/
theorem rule_dispatch {node : Node} {rules : List Rule}
    (h : dispatch (readRule n) rules s = .ok node s') : node.rule ∈ rules := by
  obtain ⟨rule, hfind, hnode⟩ := dispatch_ok.mp h
  rw [rule_readRule hnode]
  exact List.mem_of_find?_eq_some hfind

/-- A node of one of the rules for bodies gives a body. -/
theorem bodyOf?_isSome {node : Node} (h : node.rule ∈ Rule.bodies) :
    ∃ b, bodyOf? node = some b := by
  obtain ⟨rule, out⟩ := node
  simp only [Rule.bodies, List.mem_cons, List.not_mem_nil, or_false] at h
  rcases h with rfl | rfl | rfl | rfl <;> exact ⟨_, rfl⟩

/-- A body is refused only where its rule is. -/
theorem body_refused_iff :
    body (readRule n) s = .error f s' ↔ dispatch (readRule n) Rule.bodies s = .error f s' := by
  rw [body_eq]
  refine ⟨fun h => ?_, fun h => bind_of_error h⟩
  rcases bind_error.mp h with h | ⟨node, s₁, hnode, h⟩
  · exact h
  · obtain ⟨b, hb⟩ := bodyOf?_isSome (rule_dispatch hnode)
    rw [hb] at h
    exact absurd (pure_error.mp h) id

end Parser

/-! ## Texts -/

/-- What the fault of a text points at is located in the text, as no unexpected node is. -/
theorem Schema.cause_ne_unexpectedNode {source : SourceId} {text : String} {f : Fault}
    (h : (Schema.parse source text).result = .error f) (rule : Rule) (offset : Nat) :
    f.cause ≠ .unexpectedNode rule offset := by
  intro hcause
  cases hnormal : Text.isNormalized text.toList with
  | false =>
    rw [Schema.parse_of_not_normalized hnormal] at h
    obtain rfl := Except.error.inj h
    cases hcause
  | true =>
    rw [Schema.parse_of_normalized hnormal] at h
    have hlocated := (Parser.located_of_run (Scan.lexemes_closed _) h).2
    rw [hcause] at hlocated
    cases hlocated

/-- **No text ends in an internal fault.** A rule that is read gives its own node and a body that of
a rule for bodies, from any state, so a node that was read is never refused for being another's. No
rule inside a declaration changes the table of types, whether it is read or refused. So the second
check of a declaration, behind its body, never fails: the declaration reads as if it entered its
name without one. It is one more entry of the table if it is read, and none if it is refused. -/
theorem Schema.no_internal_fault :
    (∀ source text f, (Schema.parse source text).result = .error f →
      ∀ rule offset, f.cause ≠ .unexpectedNode rule offset) ∧
    (∀ n rule s node s', Parser.readRule n rule s = .ok node s' → node.rule = rule) ∧
    (∀ n rule s f s', Parser.descend (Parser.readRule n) rule s = .error f s' ↔
      Parser.readRule n rule s = .error f s') ∧
    (∀ n s node s', Parser.dispatch (Parser.readRule n) Rule.bodies s = .ok node s' →
      node.rule ∈ [Rule.simpleType, Rule.sequence, Rule.array, Rule.choice]) ∧
    (∀ n s f s', Parser.body (Parser.readRule n) s = .error f s' ↔
      Parser.dispatch (Parser.readRule n) Rule.bodies s = .error f s') ∧
    (∀ n rule s, rule ≠ .declaration →
      (Parser.final (Parser.readRule n rule s)).types = s.types) ∧
    (∀ n s, Parser.declaration (Parser.readRule n) s = Parser.unchecked (Parser.readRule n) s) ∧
    ∀ n s, (∀ d s', Parser.declaration (Parser.readRule n) s = .ok d s' →
        s'.types = ⟨s.types.types ++ [⟨d.name, d.body.parameters.length⟩]⟩) ∧
      ∀ f s', Parser.declaration (Parser.readRule n) s = .error f s' → s'.types = s.types := by
  exact ⟨fun _ _ _ => Schema.cause_ne_unexpectedNode, fun _ _ _ _ _ => Parser.rule_readRule,
    fun _ _ _ _ _ => Parser.descend_refused_iff, fun _ _ _ _ => Parser.rule_dispatch,
    fun _ _ _ _ => Parser.body_refused_iff, fun n rule s h => Parser.KeepsTypes.readRule n rule h s,
    Parser.declaration_eq_unchecked, Parser.declaration_types⟩

/-- A choice without a default branch is refused for that, and a built-in type enters the table. -/
theorem Schema.no_internal_fault_choice :
    (∃ text f, text = "c ::= CHOICE[n] \x7b UINT (n == 1) \x7d" ∧
      (Schema.parse ⟨3⟩ text).result = .error f ∧ f = ⟨⟨3⟩, .missingDefault "c" 0⟩ ∧
      ∀ rule offset, f.cause ≠ .unexpectedNode rule offset) ∧
    ∃ (s s' : Parser.State) (d : Declaration),
      s.lexemes = (Scan.ofText "u ::= BOOL".toList).lexemes ∧ d.name = ⟨"u", 0⟩ ∧
      Parser.declaration (Parser.readRule 1) s = .ok d s' ∧
      Parser.unchecked (Parser.readRule 1) s = .ok d s' ∧
      s'.types = ⟨s.types.types ++ [⟨d.name, d.body.parameters.length⟩]⟩ := by
  obtain ⟨hcause, -, -, -, -, -, hunchecked, htypes⟩ := Schema.no_internal_fault
  have hrefused : (Schema.parse ⟨3⟩ "c ::= CHOICE[n] \x7b UINT (n == 1) \x7d").result =
      .error ⟨⟨3⟩, .missingDefault "c" 0⟩ := by
    decide +kernel
  refine ⟨⟨_, _, rfl, hrefused, rfl, hcause _ _ _ hrefused⟩, ?_⟩
  let s : Parser.State := { source := ⟨3⟩, lexemes := (Scan.ofText "u ::= BOOL".toList).lexemes }
  have hread : ∃ d s', Parser.declaration (Parser.readRule 1) s = .ok d s' ∧ d.name = ⟨"u", 0⟩ :=
    ⟨_, _, rfl, rfl⟩
  obtain ⟨d, s', hd, hname⟩ := hread
  exact ⟨s, s', d, rfl, hname, hd, (hunchecked 1 s).symm.trans hd, (htypes 1 s).1 d s' hd⟩

end RecordSchema
