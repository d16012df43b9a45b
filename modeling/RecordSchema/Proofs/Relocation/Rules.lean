import RecordSchema.Proofs.Relocation.Lockstep

/-!
# Rules in lockstep

Every rule is read in lockstep: the relocation takes what is read from the one text to what is read
from the other, and the cause of a fault to that of the other fault. The rules inside a declaration
name it in some faults, so that the names of the open declarations have to correspond.

Results:
* `Lockstep.readRule`: all rules inside a declaration are read in lockstep.
* `Lockstep.declarations`: so are declarations up to the end of input.
-/

namespace RecordSchema.Parser

namespace Lockstep

variable {c : Correspondence} {inside : Prop} {sub : Rule → Parser Node}

/-! ## Rules without sub-rules -/

theorem operand : Lockstep c inside (Sends (Operand.relocate c.map)) operand operand := by
  refine (take _).bind fun t t' ⟨ht, hkind⟩ => ?_
  rw [ht.kind, ht.offset]
  by_cases hname : t.kind = .identifier
  · obtain ⟨htext, hmem⟩ := ht.name hname
    have hn : NameMoves c ⟨t.text, t.offset⟩ ⟨t'.text, c.map.move t.offset⟩ :=
      ⟨by rw [htext]; rfl, hmem⟩
    rw [if_pos hname, if_pos hname]
    refine (resolveName hn).bind fun _ _ _ => pure ?_
    rw [hn.1]
    rfl
  · have hnumber : t.kind = .number := by simpa [Rule.operandStart, hname] using hkind
    have htext : t'.text = t.text := ht.text (by simp [hnumber])
    rw [if_neg hname, if_neg hname, htext]
    exact .ite Iff.rfl (pure rfl) (fail rfl)

theorem widthOf {t t' : Token} (ht : t.Moves c.map c.names t') (hkind : t.kind = .width) :
    Lockstep c inside Eq (widthOf t) (widthOf t') := by
  have htext : t'.text = t.text := ht.text (by simp [hkind])
  unfold Parser.widthOf
  rw [htext, ht.offset]
  exact .ite Iff.rfl (pure rfl) (fail rfl)

theorem simpleType : Lockstep c inside Eq simpleType simpleType := by
  refine take_look (by decide) fun t t' u u' ht _ hu htouches => ?_
  rw [ht.kind]
  by_cases hw : u.kind = .width ∧ u.offset = t.stop
  · refine .ite (and_congr_right fun _ => htouches) ?_ (pure rfl)
    exact advance.bind fun _ _ _ => (widthOf hu hw.1).bind_eq fun _ => pure rfl
  · rw [if_neg fun h => hw h.2, if_neg fun h => hw (htouches.mpr h.2)]
    exact pure rfl

theorem parameter : Lockstep c inside (Sends (Name.relocate c.map)) parameter parameter :=
  name.bind fun _ _ hn => (declareName hn).bind fun _ _ _ => pure hn.1

theorem moreParameters : Lockstep c inside Eq moreParameters moreParameters := by
  refine (accept _).bind_eq fun answer => .ite Iff.rfl (pure rfl) ?_
  exact (expect _).bind fun _ _ ht => pure (by rw [ht.1.kind])

theorem parameters :
    Lockstep c inside (Sends (List.map (Name.relocate c.map))) parameters parameters :=
  (take _).bind fun _ _ _ => (many1 moreParameters fun _ => parameter).bind fun _ _ hns =>
    (take _).bind fun _ _ _ => pure hns

variable (h : ∀ rule, rule ≠ .declaration →
  Lockstep c True (Sends (Node.relocate c.map)) (sub rule) (sub rule))

include h

/-! ## Conditions -/

theorem comparison :
    Lockstep c True (Sends (Term.relocate c.map)) (comparison sub) (comparison sub) := by
  have hoperand := descend (h .operand (by decide))
  refine hoperand.bind_sends fun left => (take _).bind fun t t' ht =>
    hoperand.bind_sends fun right => pure ?_
  rw [ht.1.kind]
  rfl

theorem term : Lockstep c True (Sends (Term.relocate c.map)) (term sub) (term sub) := by
  refine (accept _).bind_eq fun answer => .ite Iff.rfl ?_ (descend (h .comparison (by decide)))
  exact (descend (h .disjunction (by decide))).bind_sends fun _ => (take _).bind fun _ _ _ =>
    pure rfl

theorem conjunction :
    Lockstep c True (Sends (Conjunction.relocate c.map)) (conjunction sub) (conjunction sub) := by
  have hterms : Lockstep c True (Sends (List.map (Term.relocate c.map))) (Parser.conjunction sub)
      (Parser.conjunction sub) := many1 (accept _) fun _ => descend (h .term (by decide))
  exact hterms.imp fun ts _ hts => hts.trans (Conjunction.relocate_eq_map _ ts).symm

theorem disjunction :
    Lockstep c True (Sends (Disjunction.relocate c.map)) (disjunction sub) (disjunction sub) := by
  have hconjunctions : Lockstep c True (Sends (List.map (Conjunction.relocate c.map)))
      (Parser.disjunction sub) (Parser.disjunction sub) :=
    many1 (accept _) fun _ => descend (h .conjunction (by decide))
  exact hconjunctions.imp fun cs _ hcs => hcs.trans (Disjunction.relocate_eq_map _ cs).symm

theorem condition :
    Lockstep c True (Sends (Condition.relocate c.map)) (condition sub) (condition sub) := by
  refine (accept _).bind_eq fun answer => .ite Iff.rfl (pure rfl) ?_
  exact (descend (h .disjunction (by decide))).bind_sends fun _ => pure rfl

/-! ## Members -/

theorem values :
    Lockstep c True (Sends (List.map (Operand.relocate c.map))) (values sub) (values sub) := by
  have hmore : Lockstep c True Eq moreValues moreValues :=
    (accept _).bind_eq fun answer => .ite Iff.rfl (pure rfl) (canStart _)
  have hoperand := descend (h .operand (by decide))
  exact (take _).bind fun _ _ _ => (many1 hmore fun _ => hoperand).bind fun _ _ hs =>
    (take _).bind fun _ _ _ => pure hs

theorem target :
    Lockstep c True (fun found found' => found' = (found.1.relocate c.map, found.2))
      (target sub) (target sub) := by
  refine (canStart _).bind_eq fun answer => .ite Iff.rfl ?_ ?_
  · refine look.bind fun t t' ht => (descend (h .simpleType (by decide))).bind_sends fun type =>
      pure ?_
    have hkeyword := c.fits.keyword type.builtin
    simp only [Name.relocate, hkeyword, ht.offset]
    rfl
  · refine name.bind fun n n' hn => (resolveType hn).bind_eq fun found => pure ?_
    rw [hn.1]

theorem reference :
    Lockstep c True (Sends (Reference.relocate c.map)) (reference sub) (reference sub) := by
  refine (target h).bind_sends fun found => (canStart _).bind_eq fun answer =>
    .ite Iff.rfl ?_ (pure rfl)
  refine (descend (h .values (by decide))).bind_sends fun vs => ?_
  have hlength : List.length (Rule.relocate c.map .values vs) = vs.length := List.length_map _
  rw [hlength]
  exact .ite Iff.rfl (pure rfl) (fail rfl)

theorem field : Lockstep c True (Sends (Field.relocate c.map)) (field sub) (field sub) := by
  refine name.bind fun n n' hn => (descend (h .reference (by decide))).bind_sends fun type =>
    (declareName hn).bind fun _ _ _ => pure ?_
  rw [hn.1]
  rfl

theorem branch : Lockstep c True (Sends (Branch.relocate c.map)) (branch sub) (branch sub) :=
  (descend (h .reference (by decide))).bind_sends fun _ => (take _).bind fun _ _ _ =>
    (descend (h .condition (by decide))).bind_sends fun _ => (take _).bind fun _ _ _ => pure rfl

/-! ## Bodies -/

theorem fields :
    Lockstep c True (Sends (List.map (Field.relocate c.map))) (fields sub) (fields sub) := by
  have hfield := descend (h .field (by decide))
  exact (take _).bind fun _ _ _ => (many1 (canStart _) fun _ => hfield).bind fun _ _ hfs =>
    (take _).bind fun _ _ _ => pure hfs

theorem sequence :
    Lockstep c True (Sends (Body.relocate c.map)) (sequence sub) (sequence sub) := by
  have hnone : Lockstep c True (Sends (List.map (Name.relocate c.map))) (Pure.pure [])
      (Pure.pure []) := pure rfl
  refine (take _).bind fun _ _ _ => (canStart _).bind_eq fun answer => .ite Iff.rfl ?_ ?_
  · exact (descend (h .parameters (by decide))).bind_sends fun _ => (fields h).bind_sends fun _ =>
      pure rfl
  · exact hnone.bind_sends fun _ => (fields h).bind_sends fun _ => pure rfl

theorem array : Lockstep c True (Sends (Body.relocate c.map)) (array sub) (array sub) := by
  refine (take _).bind fun _ _ _ => (descend (h .parameters (by decide))).bind_sends fun ps => ?_
  rcases ps with _ | ⟨count, _ | ⟨q, ps⟩⟩
  · exact fail_declaring fun _ => rfl
  · exact (fields h).bind_sends fun _ => pure rfl
  · exact fail_declaring fun _ => by simp [Rule.relocate]; rfl

omit h in
theorem defaultOffset?_relocate (bs : List Branch) :
    defaultOffset? (bs.map (Branch.relocate c.map)) = (defaultOffset? bs).map c.map.move := by
  unfold defaultOffset?
  rw [find?_map_image (q := fun b => b.condition.isDefault), Option.map_map, Option.map_map]
  · rfl
  · exact fun b _ => Condition.isDefault_relocate _ _

theorem nextBranch (before : List Branch) :
    Lockstep c True (Sends (Branch.relocate c.map)) (nextBranch sub before)
      (nextBranch sub (before.map (Branch.relocate c.map))) := by
  refine (descend (h .branch (by decide))).bind_sends fun b => ?_
  have hdefault : (Rule.relocate c.map .branch b).condition.isDefault = b.condition.isDefault :=
    Condition.isDefault_relocate _ _
  rw [defaultOffset?_relocate, hdefault]
  cases defaultOffset? before with
  | none => exact pure rfl
  | some first =>
    cases b.condition.isDefault with
    | true => exact fail_declaring fun _ => rfl
    | false => exact pure rfl

theorem choice : Lockstep c True (Sends (Body.relocate c.map)) (choice sub) (choice sub) := by
  refine (take _).bind fun _ _ _ => (descend (h .parameters (by decide))).bind_sends fun ps =>
    (take _).bind fun _ _ _ => (many1 (canStart _) (nextBranch h)).bind_sends fun bs =>
    (take _).bind fun _ _ _ => ?_
  refine .ite ?_ (fail_declaring fun _ => rfl) (pure rfl)
  rw [defaultOffset?_relocate, Option.isNone_map]

theorem body : Lockstep c True (Sends (Body.relocate c.map)) (body sub) (body sub) := by
  have hbodies : ∀ rule ∈ Rule.bodies, rule ≠ .declaration := by decide
  rw [body_eq]
  refine (dispatch fun rule hrule => h rule (hbodies rule hrule)).bind_sends fun node => ?_
  have hbody : bodyOf? (node.relocate c.map) = (bodyOf? node).map (Body.relocate c.map) := by
    obtain ⟨rule, output⟩ := node
    cases rule <;> rfl
  rw [hbody]
  cases bodyOf? node with
  | some b => exact pure rfl
  | none => exact wrongNode _

theorem declaration :
    Lockstep c inside (Sends (Declaration.relocate c.map)) (declaration sub) (declaration sub) := by
  refine name.bind fun n n' hn => (ensureFree hn).bind fun _ _ _ => (take _).bind fun _ _ _ =>
    openDeclaration hn ((body h).bind_sends fun b => closeDeclaration.bind fun _ _ _ => ?_)
  rw [Body.parameters_relocate, List.length_map]
  refine (declareType hn _).bind fun _ _ _ => (record _ _).bind fun _ _ _ => pure ?_
  rw [hn.1]
  rfl

omit h

/-! ## Reading rules -/

/-- A rule is read in lockstep if the function for it is. -/
theorem readRule_succ {n : Nat} {rule : Rule}
    (h : Lockstep c inside (Sends (rule.relocate c.map)) (reader (readRule n) rule)
      (reader (readRule n) rule)) :
    Lockstep c inside (Sends (Node.relocate c.map)) (readRule (n + 1) rule)
      (readRule (n + 1) rule) := by
  refine (ensureStart rule).bind fun _ _ _ => look.bind fun _ _ _ => (record _ _).bind fun _ _ _ =>
    within ?_
  rw [build_eq]
  exact h.bind_sends fun _ => pure rfl

/-- **No rule inside a declaration** depends on where tokens stand, nor on what names are. -/
theorem readRule : ∀ (n : Nat) (rule : Rule), rule ≠ .declaration →
    Lockstep c True (Sends (Node.relocate c.map)) (readRule n rule) (readRule n rule)
  | 0, rule, _ => (ensureStart rule).bind fun _ _ _ => tooDeep
  | n + 1, rule, hrule => by
    have h := readRule n
    refine readRule_succ ?_
    cases rule with
    | declaration => exact absurd rfl hrule
    | simpleType => exact simpleType.imp fun _ _ => Eq.symm
    | sequence => exact sequence h
    | array => exact array h
    | choice => exact choice h
    | parameters => exact parameters
    | field => exact field h
    | reference => exact reference h
    | values => exact values h
    | branch => exact branch h
    | condition => exact condition h
    | disjunction => exact disjunction h
    | conjunction => exact conjunction h
    | term => exact term h
    | comparison => exact comparison h
    | operand => exact operand

/-- **Declarations are read in lockstep**, up to the end of input. -/
theorem declarations :
    Lockstep c inside (Sends (List.map (Declaration.relocate c.map))) declarations
      declarations := by
  have hmore : Lockstep c inside Eq moreTokens moreTokens :=
    look.bind fun _ _ ht => pure (by rw [ht.kind])
  have hread : Lockstep c inside (Sends (Node.relocate c.map)) (rule .declaration)
      (rule .declaration) := readRule_succ (declaration (readRule _))
  exact many hmore fun _ => descend hread

end Lockstep

end RecordSchema.Parser
