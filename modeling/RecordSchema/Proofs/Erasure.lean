import RecordSchema.Proofs.Relocation.Basic
import RecordSchema.Proofs.WellFormed

/-!
# Schemas without offsets

Erasing the offsets of a schema keeps everything else: what is declared, with which parameters and
members, what references refer to, and how conditions are grouped. It is the relocation that keeps
every name and takes it to offset zero. A rendering shows no offsets, so it is that of the erased
schema.

Results:
* `Schema.render_relocate`: a relocation that renames nothing does not change the rendering.
* `Schema.render_eq_of_erase_eq`: schemas that differ in offsets only have one rendering.
-/

namespace RecordSchema

/-- Keeps names, and forgets where they stand. -/
def Relocation.erasure : Relocation := ⟨id, fun _ => 0, fun _ => 0⟩

/-- The schema without the offsets of its names. -/
def Schema.erase (p : Schema) : Schema := p.relocate .erasure

/-! ## Renderings -/

section Render

variable {m : Relocation}

theorem Name.text_relocate (hm : ∀ x, m.rename x = x) (n : Name) :
    (n.relocate m).text = n.text :=
  hm n.text

theorem Operand.render_relocate (hm : ∀ x, m.rename x = x) (o : Operand) :
    (o.relocate m).render = o.render := by
  cases o with
  | name n => exact n.text_relocate hm
  | integer value => rfl

mutual

theorem Term.render_relocate (hm : ∀ x, m.rename x = x) :
    ∀ t : Term, (t.relocate m).render = t.render
  | .comparison l x r => by
    simp only [Term.relocate, Term.render, Operand.render_relocate hm]
  | .group d => by
    simp only [Term.relocate, Term.render, Disjunction.render_relocate hm d]

theorem Conjunction.render_relocate (hm : ∀ x, m.rename x = x) :
    ∀ c : List Term, Conjunction.render (Conjunction.relocate m c) = Conjunction.render c
  | [] => rfl
  | [t] => Term.render_relocate hm t
  | t :: u :: rest => by
    have hrest := Conjunction.render_relocate hm (u :: rest)
    rw [Conjunction.relocate] at hrest
    simp only [Conjunction.relocate, Conjunction.render, Term.render_relocate hm t, hrest]

theorem Disjunction.render_relocate (hm : ∀ x, m.rename x = x) :
    ∀ d : List (List Term), Disjunction.render (Disjunction.relocate m d) = Disjunction.render d
  | [] => rfl
  | [c] => Conjunction.render_relocate hm c
  | c :: d :: rest => by
    have hrest := Disjunction.render_relocate hm (d :: rest)
    rw [Disjunction.relocate] at hrest
    simp only [Disjunction.relocate, Disjunction.render, Conjunction.render_relocate hm c, hrest]

end

variable (hm : ∀ x, m.rename x = x)

include hm

theorem Condition.render_relocate (c : Condition) : (c.relocate m).render = c.render := by
  cases c with
  | default => rfl
  | expression d => exact Disjunction.render_relocate hm d

theorem Reference.render_relocate (r : Reference) : (r.relocate m).render = r.render := by
  obtain ⟨name, target, values⟩ := r
  cases target <;> cases values <;>
    simp only [Reference.relocate, Reference.render, Name.text_relocate hm, Option.map_none,
      Option.map_some, renderValues, List.map_map, Function.comp_def, Operand.render_relocate hm]

theorem Field.render_relocate (f : Field) : (f.relocate m).render = f.render := by
  simp only [Field.relocate, Field.render, Name.text_relocate hm, Reference.render_relocate hm]

theorem Branch.render_relocate (b : Branch) : (b.relocate m).render = b.render := by
  simp only [Branch.relocate, Branch.render, Condition.render_relocate hm,
    Reference.render_relocate hm]

theorem renderParameters_relocate (ps : List Name) :
    renderParameters (ps.map (·.relocate m)) = renderParameters ps := by
  simp only [renderParameters, List.isEmpty_map, List.map_map, Function.comp_def,
    Name.text_relocate hm]

theorem Body.render_relocate (b : Body) : (b.relocate m).render = b.render := by
  cases b <;>
    simp only [Body.relocate, Body.render, List.map_map, Function.comp_def, Name.text_relocate hm,
      renderParameters_relocate hm, Field.render_relocate hm, Branch.render_relocate hm]

theorem Declaration.render_relocate (d : Declaration) : (d.relocate m).render = d.render := by
  simp only [Declaration.relocate, Declaration.render, Name.text_relocate hm,
    Body.render_relocate hm]

/-- **A relocation that renames nothing** does not change the rendering. -/
theorem Schema.render_relocate (p : Schema) : (p.relocate m).render = p.render := by
  simp only [Schema.relocate, Schema.render, List.map_map, Function.comp_def,
    Declaration.render_relocate hm]

end Render

/-- **Schemas that differ in offsets only** have one rendering. -/
theorem Schema.render_eq_of_erase_eq {p q : Schema} (h : p.erase = q.erase) :
    p.render = q.render := by
  have hkept : ∀ x, Relocation.erasure.rename x = x := fun _ => rfl
  rw [← p.render_relocate hkept, ← q.render_relocate hkept]
  exact congrArg Schema.render h

end RecordSchema
