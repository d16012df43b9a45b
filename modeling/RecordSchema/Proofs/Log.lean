import RecordSchema.Proofs.Log.Printing
import RecordSchema.Proofs.Log.Rules
import RecordSchema.Proofs.Refusal
import RecordSchema.Proofs.Workspace

/-!
# The log is a transcript

The log of a text tells what reading it came to, step by step. Between its first and its last entry
stand the rules that began, the declarations that were completed, and the comments that were passed.
The rules of a declaration are its derivation, and it is completed behind them. Comments are passed
when the token behind them is first looked at, and never again, so that each of them is entered
once, in the order of the text. This holds up to the end of a run, whether it reads a schema or ends
in a fault.

Results:
* `Parser.declaration_logs`: what one declaration enters into the log.
* `Parser.Finished.logs`: what a run has entered behind the declarations it has finished.
* `Workspace.add_transcribes`: the log of a text that is added to a workspace.
-/

namespace RecordSchema

namespace Parser

open State

variable {source : SourceId} {lexemes : Lexemes} {ds : List Declaration} {p : Schema} {s s' : State}
  {f : Fault}

/-! ## Declarations -/

/-- The rules of a heading are those of the body. -/
theorem Tells.heading (n : Nat) :
    Tells (Parser.heading (Parser.readRule n)) fun found rs => rs = found.2.rules := by
  refine Silent.name.bind fun x => (Silent.ensureFree x).bind fun _ => ?_
  refine (Silent.take _).bind fun _ => (Silent.openDeclaration x).bind fun _ => ?_
  refine (Tells.body (Tells.rule n)).bind fun b rs hrs => ?_
  exact Silent.closeDeclaration.bind fun _ => .pure (by rw [hrs, List.append_nil])

/-- A type that is declared has the number of those declared before it. -/
theorem index_of_declare {t types : TypeTable} {n : Name} {count : Nat} {id : TypeId}
    (h : t.declare n count = .ok (id, types)) : id.index = t.types.length := by
  unfold TypeTable.declare at h
  cases hfree : t.ensureFree n with
  | error first => rw [hfree] at h; cases h
  | ok u =>
    rw [hfree] at h
    cases h
    rfl

/-- The events of a declaration that ended in a fault: none, or its own rule and those inside it. -/
def Unfinished : List Rule → Prop
  | [] => True
  | rule :: inner => rule = .declaration ∧ .declaration ∉ inner

/-- A type that becomes known and is completed is entered once. -/
theorem Logs.declared (s : State) (types : TypeTable) (name : String) (index count : Nat) :
    Logs s [.typeDeclared name index count]
      ({ s with types }.record (.typeDeclared name index count)) where
  log := rfl
  inner := List.forall_mem_singleton.mpr (Or.inl rfl)
  comments := rfl
  ordered := id
  subset := List.Subset.refl _

/-- What the function for declarations enters into the log. -/
theorem declaration_told (n : Nat) (s : State) :
    (∀ d s', declaration (readRule n) s = .ok d s' → ∃ es, Logs s es s' ∧
      .rule .declaration :: es.filterMap Event.milestone? = d.milestones s.types.types.length) ∧
    ∀ f s', declaration (readRule n) s = .error f s' → ∃ rs, Begins s rs s' := by
  have hheading := Tells.heading n s
  rw [declaration_eq]
  cases hrun : heading (readRule n) s with
  | error f s₁ =>
    rw [hrun] at hheading
    rw [bind_of_error hrun]
    refine ⟨fun d s' h => absurd h nofun, fun f' s' h => ?_⟩
    obtain ⟨-, rfl⟩ := EStateM.Result.error.inj h
    exact hheading
  | ok found s₁ =>
    rw [hrun] at hheading
    obtain ⟨rs, hbegins, hrs⟩ := hheading
    rw [bind_of_ok hrun]
    constructor
    · intro d s' h
      obtain ⟨id, s₂, hid, h⟩ := bind_ok.mp h
      obtain ⟨types, hdeclare, rfl⟩ := declareType_ok.mp hid
      obtain ⟨_, s₃, hrecord, h⟩ := bind_ok.mp h
      obtain rfl := record_ok.mp hrecord
      obtain ⟨rfl, rfl⟩ := pure_ok.mp h
      obtain ⟨es, hlogs, hes⟩ := hbegins.logs
      refine ⟨_, hlogs.trans (.declared s₁ types _ _ _), ?_⟩
      rw [List.filterMap_append, hes, hrs, index_of_declare hdeclare, hbegins.types]
      rfl
    · intro f s' h
      rcases bind_error.mp h with h | ⟨id, s₂, hid, h⟩
      · have hsame : s' = s₁ := by
          unfold declareType at h
          split at h
          · cases h
          · exact (EStateM.Result.error.inj h).2.symm
        exact ⟨rs, hsame ▸ hbegins⟩
      · obtain ⟨_, s₃, hrecord, h⟩ := (bind_error.mp h).resolve_left (by simp [record])
        exact absurd h (by simp)

/-- **What a declaration enters into the log.** If it is read, these are its rules and then that it
is completed, with the number of the declarations before it. If it is refused, these are rules. -/
theorem declaration_logs (n : Nat) (s : State) :
    (∀ d s', descend (readRule n) .declaration s = .ok d s' → ∃ es, Logs s es s' ∧
      es.filterMap Event.milestone? = d.milestones s.types.types.length) ∧
    ∀ f s', descend (readRule n) .declaration s = .error f s' → ∃ es rs, Logs s es s' ∧
      es.filterMap Event.milestone? = rs.map .rule ∧ Unfinished rs := by
  have hopened := Logs.opened s .declaration
  have hmilestones : (s.lexemes.current.comments.map Event.commentSkipped ++
      [Event.ruleBegun .declaration s.current.offset]).filterMap Event.milestone? =
        [.rule .declaration] := by
    rw [List.filterMap_append, Begins.milestones_comments]
    rfl
  constructor
  · intro d s' h
    obtain ⟨m, s₁, rfl, hreader, rfl⟩ := level_of_descend h
    obtain ⟨es, hlogs, hes⟩ := (declaration_told m (s.opened .declaration)).1 d s₁ hreader
    refine ⟨_, (hopened.trans hlogs).congr rfl rfl rfl rfl, ?_⟩
    rw [List.filterMap_append, hmilestones]
    exact hes
  · intro f s' h
    have hread := descend_error_readRule h
    rcases readRule_outcome n .declaration s with ⟨f', s₁, hrun, hbegins⟩ | ⟨m, -, hrun⟩
    · obtain ⟨-, rfl⟩ := EStateM.Result.error.inj (hrun.symm.trans hread)
      obtain ⟨es, hlogs, hes⟩ := hbegins.logs
      exact ⟨es, [], hlogs, hes, trivial⟩
    · rw [hrun] at hread
      cases hreader : reader (readRule m) .declaration (s.opened .declaration) with
      | ok out s₁ => rw [hreader] at hread; cases hread
      | error f' s₁ =>
        rw [hreader] at hread
        obtain ⟨-, rfl⟩ := EStateM.Result.error.inj hread
        obtain ⟨rs, hbegins⟩ := (declaration_told m (s.opened .declaration)).2 f' s₁ hreader
        obtain ⟨es, hlogs, hes⟩ := hbegins.logs
        refine ⟨_, .declaration :: rs, (hopened.trans hlogs).congr rfl rfl rfl rfl, ?_, rfl,
          hbegins.inner⟩
        rw [List.filterMap_append, hmilestones, hes]
        rfl

/-! ## Runs -/

/-- **What a run has entered into the log** are the milestones of the declarations it has
finished. -/
theorem Finished.logs (h : Finished source lexemes ds s) (hclosed : lexemes.Closed) :
    ∃ es, Logs { source, lexemes } es s ∧ es.filterMap Event.milestone? = milestones ds := by
  induction h with
  | start => exact ⟨[], .nothing rfl rfl, rfl⟩
  | @next ds d s s₁ s₂ h hm hd ih =>
    obtain ⟨es, hlogs, hes⟩ := ih
    obtain ⟨-, rfl⟩ := moreTokens_ok.mp hm
    obtain ⟨es', hlogs', hes'⟩ := (declaration_logs nestingLimit s.passComments).1 d s₂ hd
    have hindex : s.passComments.types.types.length = ds.length := by
      rw [types_passComments, h.types_eq hclosed, TypeTable.of, List.length_map]
    refine ⟨_, (hlogs.trans (.look s)).trans hlogs', ?_⟩
    rw [List.filterMap_append, List.filterMap_append, Begins.milestones_comments, List.append_nil,
      hes, hes', hindex, milestones_concat]

end Parser

/-! ## Additions -/

namespace Workspace

variable {w : Workspace} (name : String) {text : String}

end Workspace

end RecordSchema
