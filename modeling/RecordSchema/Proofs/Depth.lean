import RecordSchema.Proofs.Registry
import RecordSchema.Proofs.Steps

/-!
# The depth counter

A moment of a run is the state between two steps, with the rules whose functions are at work there.
`Trace` lists the moments of a run in order, one for the beginning and one for the end of every step
and every rule. The depth of a state is nothing but the number of these rules: opening a rule counts
one up, closing it counts one down whatever the outcome, and no step changes the count.

Results:
* `Built.trace`: every run has a trace.
* `Trace.balanced`: at each moment of it the depth is the number of open rules, within the limit.
* `depth_readRule`: reading a rule leaves the depth as it was, with a result and with a fault.
* `Finished.depth_eq`: between declarations no rule is open.
-/

namespace RecordSchema.Parser

open State

variable {α β : Type}

/-- The rules whose functions are at work, the innermost one first, and the state. -/
structure Moment where
  opened : List Rule
  state : State

/-- A moment of the function for a rule is one of the reading of the rule. -/
def Moment.inside (rule : Rule) (m : Moment) : Moment := ⟨m.opened ++ [rule], m.state⟩

/-- The moments of a run, in order. -/
inductive Trace : {α : Type} → Parser α → State → List Moment → Prop
  | step {α : Type} {x : Parser α} {s : State} (h : Step x) :
      Trace x s [⟨[], s⟩, ⟨[], final (x s)⟩]
  | bind {α β : Type} {x : Parser α} {g : α → Parser β} {a : α} {s s₁ : State}
      {ms ms' : List Moment} (hx : x s = .ok a s₁) (h : Trace x s ms) (h' : Trace (g a) s₁ ms') :
      Trace (x >>= g) s (ms ++ ms')
  | fault {α β : Type} {x : Parser α} {g : α → Parser β} {f : Fault} {s s₁ : State}
      {ms : List Moment} (hx : x s = .error f s₁) (h : Trace x s ms) : Trace (x >>= g) s ms
  | refused {n : Nat} {rule : Rule} {s : State}
      (h : rule.canStart s.current.kind = false ∨ nestingLimit ≤ s.depth ∨ n = 0) :
      Trace (readRule n rule) s [⟨[], s⟩, ⟨[], final (readRule n rule s)⟩]
  | rule {n : Nat} {rule : Rule} {s : State} {ms : List Moment}
      (hstart : rule.canStart s.current.kind = true) (hdepth : s.depth < nestingLimit)
      (h : Trace (build (readRule n) rule) (s.opened rule) ms) :
      Trace (readRule (n + 1) rule) s
        (⟨[], s⟩ :: ms.map (.inside rule) ++ [⟨[], final (readRule (n + 1) rule s)⟩])

/-- **Every run has a trace.** -/
theorem Built.trace {x : Parser α} (h : Built x) : ∀ s, ∃ ms, Trace x s ms := by
  have hrule (n : Nat) (rule : Rule) (s : State) (hbuild : ∀ m, n = m + 1 →
      ∃ ms, Trace (build (Parser.readRule m) rule) (s.opened rule) ms) :
      ∃ ms, Trace (Parser.readRule n rule) s ms := by
    rcases refused_or_level n rule s with hrefused | ⟨m, rfl, hstart, hdepth⟩
    · exact ⟨_, .refused hrefused⟩
    · obtain ⟨ms, hms⟩ := hbuild m rfl
      exact ⟨_, .rule hstart hdepth hms⟩
  induction h with
  | step h => exact fun s => ⟨_, .step h⟩
  | @bind α β x g _ _ hx hg =>
    intro s
    obtain ⟨ms, hms⟩ := hx s
    cases hrun : x s with
    | ok a s₁ =>
      obtain ⟨ms', hms'⟩ := hg a s₁
      exact ⟨_, .bind hrun hms hms'⟩
    | error f s₁ => exact ⟨_, .fault hrun hms⟩
  | readZero rule => exact fun s => hrule 0 rule s nofun
  | readSucc _ ih => exact fun s => hrule _ _ s fun m hm => by cases hm; exact ih _

/-! ## The depth along a trace -/

theorem Nominal.depth_eq {x : Parser α} (h : Nominal x) (s : State) :
    (final (x s)).depth = s.depth := by
  rcases h.outcome s with ⟨a, ns, hrun⟩ | ⟨cause, -, hrun⟩
  · rw [hrun s rfl]
    rfl
  · rw [hrun s rfl]
    rfl

/-- No step changes the depth. -/
theorem Step.depth_eq {x : Parser α} (h : Step x) (s : State) : (final (x s)).depth = s.depth := by
  cases h with
  | pure => rfl
  | look => rfl
  | advance => rfl
  | record => rfl
  | unexpected => rfl
  | fail => rfl
  | tokensLeft => rfl
  | declareName n => exact (Nominal.declareName n).depth_eq s
  | resolveName n => exact (Nominal.resolveName n).depth_eq s
  | resolveType n => exact (Nominal.resolveType n).depth_eq s
  | ensureFree n => exact (Nominal.ensureFree n).depth_eq s
  | declareType n count => exact (Nominal.declareType n count).depth_eq s
  | openDeclaration => rfl
  | closeDeclaration => rfl
  | declaring => rfl

/-- A rule that is refused leaves the depth as it was. -/
theorem depth_of_refused {n : Nat} {rule : Rule} {s : State}
    (h : rule.canStart s.current.kind = false ∨ nestingLimit ≤ s.depth ∨ n = 0) :
    (final (readRule n rule s)).depth = s.depth := by
  obtain ⟨fault, hrun⟩ := readRule_of_refused h
  rw [hrun]
  rfl

theorem final_shut (r : EStateM.Result Fault State α) : final (shut r) = (final r).closed := by
  cases r <;> rfl

/-- What holds of the depth at the moments of a run that begins at some depth, and at its end. -/
structure Balanced (depth : Nat) (ms : List Moment) (last : State) : Prop where
  restored : last.depth = depth
  counted : ∀ m ∈ ms, m.state.depth = depth + m.opened.length
  bounded : depth ≤ nestingLimit → ∀ m ∈ ms, m.state.depth ≤ nestingLimit

/-- A run of one step, or of a rule that is refused. -/
theorem Balanced.pair {s last : State} (h : last.depth = s.depth) :
    Balanced s.depth [⟨[], s⟩, ⟨[], last⟩] last := by
  refine ⟨h, fun m hm => ?_, fun hle m hm => ?_⟩
  · simp only [List.mem_cons, List.not_mem_nil, or_false] at hm
    rcases hm with rfl | rfl
    · rfl
    · exact h
  · simp only [List.mem_cons, List.not_mem_nil, or_false] at hm
    rcases hm with rfl | rfl
    · exact hle
    · exact h.trans_le hle

/-- **The depth is the number of open rules** at each moment of a run, and it is restored. -/
theorem Trace.balanced {x : Parser α} {s : State} {ms : List Moment} (h : Trace x s ms) :
    Balanced s.depth ms (final (x s)) := by
  induction h with
  | step h => exact .pair (h.depth_eq _)
  | @bind α β x g a s s₁ ms ms' hx _ _ ih ih' =>
    rw [hx] at ih
    have hfinal : final ((x >>= g) s) = final (g a s₁) := congrArg final (bind_of_ok hx)
    have hs₁ : s₁.depth = s.depth := ih.restored
    rw [hs₁] at ih'
    rw [hfinal]
    refine ⟨ih'.restored, fun m hm => ?_, fun hle m hm => ?_⟩
    · exact (List.mem_append.mp hm).elim (ih.counted m) (ih'.counted m)
    · exact (List.mem_append.mp hm).elim (ih.bounded hle m) (ih'.bounded hle m)
  | @fault α β x g f s s₁ ms hx _ ih =>
    rw [hx] at ih
    rw [bind_of_error hx]
    exact ih
  | refused h => exact .pair (depth_of_refused h)
  | @rule n rule s ms hstart hdepth _ ih =>
    have hopened : (s.opened rule).depth = s.depth + 1 := rfl
    have hrun := readRule_of_level (n := n) hstart hdepth
    have hrestored : (final (readRule (n + 1) rule s)).depth = s.depth := by
      rw [hrun, final_shut]
      show (final _).depth - 1 = s.depth
      rw [ih.restored, hopened]
      rfl
    refine ⟨hrestored, fun m hm => ?_, fun hle m hm => ?_⟩
    · simp only [List.cons_append, List.mem_cons, List.mem_append, List.mem_map,
        List.not_mem_nil, or_false] at hm
      rcases hm with rfl | ⟨m, hm, rfl⟩ | rfl
      · rfl
      · have hcount := ih.counted m hm
        rw [hopened] at hcount
        simp only [Moment.inside, List.length_append, List.length_singleton]
        omega
      · exact hrestored
    · simp only [List.cons_append, List.mem_cons, List.mem_append, List.mem_map,
        List.not_mem_nil, or_false] at hm
      rcases hm with rfl | ⟨m, hm, rfl⟩ | rfl
      · exact hle
      · exact ih.bounded hdepth m hm
      · exact hrestored.trans_le hle

/-- **Reading a rule leaves the depth as it was**, with a result and with a fault. -/
theorem depth_readRule (n : Nat) (rule : Rule) (s : State) :
    (final (readRule n rule s)).depth = s.depth := by
  obtain ⟨ms, hms⟩ := (Built.readRule n rule).trace s
  exact hms.balanced.restored

/-- **Between declarations** no rule is open. -/
theorem Finished.depth_eq {source : SourceId} {lexemes : Lexemes} {ds : List Declaration}
    {s : State} (h : Finished source lexemes ds s) : s.depth = 0 := by
  induction h with
  | start => rfl
  | @next ds d s s₁ s₂ _ hm hd ih =>
    obtain ⟨-, rfl⟩ := moreTokens_ok.mp hm
    have hdepth := depth_readRule nestingLimit .declaration s.passComments
    rw [show readRule nestingLimit .declaration s.passComments = .ok ⟨.declaration, d⟩ s₂ from
      descend_ok.mp hd] at hdepth
    exact hdepth.trans ih

end RecordSchema.Parser
