import RecordSchema.Proofs.Completeness
import RecordSchema.Proofs.Refusal
import RecordSchema.Proofs.Reparsing.Heading

/-!
# Declarations without braces

A declaration with a heading and no brace behind it is refused for the token that stands there. The
heading is read as in any declaration, so the rules around it have no say in the fault.

Results:
* `body_unbraced`, `declaration_unbraced`: the fault of a heading without a brace.
* `Finished.extend`: declarations that are spelled behind those finished are finished as well.
* `run_unbraced`: the fault of a run that comes to such a heading.
-/

namespace RecordSchema.Parser

open State

variable {α β : Type} {n : Nat} {before : List Declaration} {us rest : List Token} {t : Token}
  {s s₁ : State} {f : Fault}

/-! ## Runs that end in a fault -/

/-- The run ends in the fault. -/
def Fails (x : Parser α) (s : State) (f : Fault) : Prop := ∃ s', x s = .error f s'

theorem Fails.first {x : Parser α} {g : α → Parser β} (h : Fails x s f) : Fails (x >>= g) s f := by
  obtain ⟨s', h⟩ := h
  exact ⟨s', bind_of_error h⟩

theorem Fails.behind {x : Parser α} {g : α → Parser β} {a : α} (hx : x s = .ok a s₁)
    (h : Fails (g a) s₁ f) : Fails (x >>= g) s f := by
  obtain ⟨s', h⟩ := h
  exact ⟨s', (bind_of_ok hx).trans h⟩

theorem Fails.within {x : Parser α} (h : Fails x { s with depth := s.depth + 1 } f) :
    Fails (within x) s f := by
  obtain ⟨s', h⟩ := h
  unfold Fails Parser.within
  rw [h]
  exact ⟨_, rfl⟩

/-- **A rule that can begin is refused** if the function for it refuses it. -/
theorem Fails.descend {rule : Rule} (hs : Ready (n + 1) s) (hb : Begins rule.first us)
    (ht : s.tokens = us ++ rest) (h : Fails (reader (readRule n) rule) (s.opened rule) f) :
    Fails (descend (readRule (n + 1)) rule) s f := by
  have hlevels := hs.levels
  have hstart : ensureStart rule s = .ok () s.passComments :=
    ensureStart_ok.mpr ⟨decide_eq_true (current_of_begins hb ht), by omega, rfl⟩
  have hbuild : Fails (build (readRule n) rule) (s.opened rule) f := by
    rw [build_eq]
    exact h.first
  rw [Parser.descend, readRule]
  refine first (behind hstart (behind (look_ok.mpr ⟨rfl, rfl⟩) ?_))
  exact behind (record_ok (u := ()).mpr rfl) hbuild.within

/-- A body is refused if the rule that its first token begins is. -/
theorem Fails.body (rule : Rule) (hmem : rule ∈ Rule.bodies) (hb : Begins rule.first us)
    (ht : s.tokens = us ++ rest) (h : Fails (Parser.descend (readRule n) rule) s.passComments f) :
    Fails (body (readRule n)) s f := by
  have hfind := find?_bodies rule hmem _ (current_of_begins hb ht)
  obtain ⟨s', h⟩ := h
  have hread : Fails (dispatch (readRule n) Rule.bodies) s f := by
    refine behind (look_ok.mpr ⟨rfl, rfl⟩) ⟨s', ?_⟩
    simp only [hfind]
    exact descend_error_readRule h
  rw [body_eq]
  exact hread.first

/-! ## Headings without a brace -/

/-- The fault of a token where an opening brace has to be. -/
def unbraced (source : SourceId) (t : Token) : Fault :=
  ⟨source, .unexpectedToken [.leftCurly] t.kind t.offset t.length⟩

theorem take_unbraced (ht : s.tokens = t :: rest) (hk : t.kind ∉ [TokenKind.leftCurly]) :
    Fails (take [.leftCurly]) s (unbraced s.source t) := by
  obtain rfl := current_of_tokens ht
  exact ⟨_, take_of_notMem hk⟩

theorem fields_unbraced {sub : Rule → Parser Node} (ht : s.tokens = t :: rest)
    (hk : t.kind ∉ [TokenKind.leftCurly]) : Fails (fields sub) s (unbraced s.source t) :=
  (take_unbraced ht hk).first

/-- The keyword of a body is read, and its parameters can be. -/
theorem keyword_reads {rule : Rule} {k : Token} (hs : Ready (n + 1) s) (hn : s.scope.Holds [])
    (ht : s.tokens = k :: rest) (hk : k.kind ∈ rule.first) :
    ∃ s₁, take rule.first (s.opened rule) = .ok k s₁ ∧ s₁.tokens = rest ∧
      s₁.source = s.source ∧ Ready n s₁ ∧ s₁.scope.Holds [] := by
  rw [← tokens_opened s rule] at ht
  have hs₁ := hs.opened rule
  obtain ⟨s₁, hrun, htakes⟩ := take_complete hs₁.closed ht hk
  refine ⟨s₁, hrun, htakes.tokens_of ht, htakes.source, hs₁.of_reads htakes.toReads, ?_⟩
  rw [htakes.scope]
  exact hn

/-- Parameters are read, and what is behind them is refused. -/
theorem parameters_unbraced {qs : List Name} {g : List Name → Parser β} (hs : Ready n s)
    (hn : s.scope.Holds []) (ht : s.tokens = us ++ t :: rest)
    (hq : Bracketed Name.SpelledBy qs us) (hnodup : (texts qs).Nodup) (hlevel : 1 ≤ n)
    (hg : ∀ s, s.tokens = t :: rest → Fails (g qs) s (unbraced s.source t)) :
    Fails (descend (readRule n) .parameters >>= g) s (unbraced s.source t) := by
  obtain ⟨s₁, hrun, hpasses, -⟩ := parameters_complete hs hn ht hq hnodup hlevel
  have hfails := hg s₁ (hpasses.tokens_of ht)
  rw [hpasses.source] at hfails
  exact .behind hrun hfails

/-- A sequence without a brace is refused, whether it has parameters or not. -/
theorem sequence_unbraced {k : Token} {qs : List Name} (hs : Ready (n + 1) s)
    (hn : s.scope.Holds []) (ht : s.tokens = k :: (us ++ t :: rest)) (hk : k.kind = .sequence)
    (hq : qs = [] ∧ us = [] ∨ Bracketed Name.SpelledBy qs us) (hnodup : (texts qs).Nodup)
    (hbrace : t.kind ∉ [TokenKind.leftCurly]) (hopen : t.kind ∉ Rule.parameters.first)
    (hlevel : 1 ≤ n) :
    Fails (descend (readRule (n + 1)) .sequence) s (unbraced s.source t) := by
  refine .descend hs (begins_cons hk []) ht ?_
  have hkeyword : k.kind ∈ Rule.sequence.first := List.mem_singleton.mpr hk
  obtain ⟨s₁, hrun₁, ht₁, hsource, hs₁, hn₁⟩ := keyword_reads hs hn ht hkeyword
  have hlook : Takes s₁ [] s₁.passComments := .look hs₁.closed
  rw [← hsource]
  refine .behind hrun₁ ?_
  rcases hq with ⟨rfl, rfl⟩ | hq
  · have hnone : s₁.current.kind ∉ Rule.parameters.first := by rwa [current_of_tokens ht₁]
    refine .behind (canStart_complete_false hnone) (.behind (pure_ok.mpr ⟨rfl, rfl⟩) ?_)
    exact (fields_unbraced (hlook.tokens_of ht₁) hbrace).first
  · have hsome : s₁.current.kind ∈ Rule.parameters.first := current_of_begins hq.begins ht₁
    refine .behind (canStart_complete hsome) ?_
    exact parameters_unbraced (hs₁.of_reads hlook.toReads) hn₁ (hlook.tokens_of ht₁) hq hnodup
      hlevel fun _ ht => (fields_unbraced ht hbrace).first

/-- An array without a brace is refused. -/
theorem array_unbraced {k : Token} {q : Name} (hs : Ready (n + 1) s) (hn : s.scope.Holds [])
    (ht : s.tokens = k :: (us ++ t :: rest)) (hk : k.kind = .array)
    (hq : Bracketed Name.SpelledBy [q] us) (hbrace : t.kind ∉ [TokenKind.leftCurly])
    (hlevel : 1 ≤ n) :
    Fails (descend (readRule (n + 1)) .array) s (unbraced s.source t) := by
  refine .descend hs (begins_cons hk []) ht ?_
  have hkeyword : k.kind ∈ Rule.array.first := List.mem_singleton.mpr hk
  obtain ⟨s₁, hrun₁, ht₁, hsource, hs₁, hn₁⟩ := keyword_reads hs hn ht hkeyword
  rw [← hsource]
  refine .behind hrun₁ ?_
  exact parameters_unbraced hs₁ hn₁ ht₁ hq (List.nodup_singleton _) hlevel fun _ ht =>
    (fields_unbraced ht hbrace).first

/-- A choice without a brace is refused. -/
theorem choice_unbraced {k : Token} {qs : List Name} (hs : Ready (n + 1) s)
    (hn : s.scope.Holds []) (ht : s.tokens = k :: (us ++ t :: rest)) (hk : k.kind = .choice)
    (hq : Bracketed Name.SpelledBy qs us) (hnodup : (texts qs).Nodup)
    (hbrace : t.kind ∉ [TokenKind.leftCurly]) (hlevel : 1 ≤ n) :
    Fails (descend (readRule (n + 1)) .choice) s (unbraced s.source t) := by
  refine .descend hs (begins_cons hk []) ht ?_
  have hkeyword : k.kind ∈ Rule.choice.first := List.mem_singleton.mpr hk
  obtain ⟨s₁, hrun₁, ht₁, hsource, hs₁, hn₁⟩ := keyword_reads hs hn ht hkeyword
  rw [← hsource]
  refine .behind hrun₁ ?_
  exact parameters_unbraced hs₁ hn₁ ht₁ hq hnodup hlevel fun _ ht => (take_unbraced ht hbrace).first

/-- **The heading of a body without a brace** behind it. -/
theorem body_unbraced {b : Body} (hs : Ready (n + 1) s) (hn : s.scope.Holds [])
    (ht : s.tokens = us ++ t :: rest) (h : b.HeadedBy us) (hnodup : (texts b.parameters).Nodup)
    (hbrace : t.kind ∉ [TokenKind.leftCurly]) (hopen : t.kind ∉ Rule.parameters.first)
    (hlevel : 1 ≤ n) :
    Fails (body (readRule (n + 1))) s (unbraced s.source t) := by
  have hlook : Takes s [] s.passComments := .look hs.closed
  have hs₁ := hs.of_reads hlook.toReads
  have ht₁ := hlook.tokens_of ht
  cases h with
  | bare hk =>
    refine .body .sequence (by decide) (begins_cons hk []) ht ?_
    exact sequence_unbraced hs₁ hn ht₁ hk (.inl ⟨rfl, rfl⟩) hnodup hbrace hopen hlevel
  | sequence hk hq hps =>
    refine .body .sequence (by decide) (begins_cons hk _) ht ?_
    exact sequence_unbraced hs₁ hn ht₁ hk (.inr hq) (hps ▸ hnodup) hbrace hopen hlevel
  | array hk hq =>
    refine .body .array (by decide) (begins_cons hk _) ht ?_
    exact array_unbraced hs₁ hn ht₁ hk hq hbrace hlevel
  | choice hk hq hps =>
    refine .body .choice (by decide) (begins_cons hk _) ht ?_
    exact choice_unbraced hs₁ hn ht₁ hk hq (hps ▸ hnodup) hbrace hlevel

/-- **A declaration without a brace** is refused for the token behind its heading. -/
theorem declaration_unbraced {x : Name} {b : Body} {a : Token} {ns : List Token}
    (hs : Ready (n + 2) s) (htypes : s.types = TypeTable.of before)
    (hx : x.SpelledBy ns) (ha : a.kind = .assignment) (h : b.HeadedBy us)
    (ht : s.tokens = ns ++ a :: (us ++ t :: rest))
    (hnew : x.text ∉ before.map (·.name.text)) (hnodup : (texts b.parameters).Nodup)
    (hbrace : t.kind ∉ [TokenKind.leftCurly]) (hopen : t.kind ∉ Rule.parameters.first)
    (hlevel : 1 ≤ n) :
    Fails (descend (readRule (n + 2)) .declaration) s (unbraced s.source t) := by
  refine .descend hs hx.begins ht ?_
  rw [← tokens_opened s .declaration] at ht
  have hs₁ : Ready (n + 1) (s.opened .declaration) := hs.opened .declaration
  obtain ⟨s₁, hrun₁, htakes₁⟩ := name_complete hs₁.closed ht hx
  have hfree : ensureFree x s₁ = .ok () s₁ := by
    refine ensureFree_ok.mpr ⟨?_, rfl⟩
    rw [htakes₁.types.trans htypes]
    exact TypeTable.ensureFree_iff.mpr hnew
  have ht₁ := htakes₁.tokens_of ht
  obtain ⟨s₂, hrun₂, htakes₂⟩ := take_complete htakes₁.closed ht₁ (List.mem_singleton.mpr ha)
  have htakes := htakes₁.trans htakes₂
  have hs₂ := hs₁.of_reads htakes.toReads
  have hopened : Ready (n + 1) { s₂ with scope := {}, declaring := x } := ⟨hs₂.closed, hs₂.levels⟩
  have hbody : Fails (body (readRule (n + 1))) { s₂ with scope := {}, declaring := x }
      (unbraced s₂.source t) :=
    body_unbraced hopened Scope.holds_empty (htakes₂.tokens_of ht₁) h hnodup hbrace hopen hlevel
  have hopening : openDeclaration x s₂ = .ok () { s₂ with scope := {}, declaring := x } :=
    openDeclaration_ok.mpr rfl
  rw [← show s₂.source = s.source from htakes.source]
  exact .behind hrun₁ (.behind hfree (.behind hrun₂ (.behind hopening hbody.first)))

/-! ## Declarations behind others -/

theorem current_ne_end (h : Begins [.identifier] us) (ht : s.tokens = us ++ rest) :
    s.current.kind ≠ .endOfInput := by
  have hfirst := List.mem_singleton.mp (current_of_begins h ht)
  simp [hfirst]

/-- **Declarations that are spelled** and well-formed behind those that a run has finished are
finished as well. -/
theorem Finished.extend {source : SourceId} {lexemes : Lexemes} {ds : List Declaration}
    {used : List Token} (h : Finished source lexemes before s) (hclosed : lexemes.Closed)
    (hs : Ready nestingLimit s) (ht : s.tokens = used ++ rest)
    (hspell : Trail nothing Declaration.SpelledBy ds used) (hwf : DeclarationsWellFormed before ds)
    (hrest : Avoids [.width] rest) :
    ∃ s', Finished source lexemes (before ++ ds) s' ∧ Reads s used s' := by
  induction hspell generalizing before s with
  | nil => exact ⟨s, (List.append_nil before).symm ▸ h, (Takes.rfl hs.closed).toReads⟩
  | @cons d ds js us ts hj hd htrail ih =>
    obtain rfl : js = [] := hj
    obtain ⟨hnew, hbody, hwf⟩ := hwf
    obtain ⟨-, htypes, hbefore⟩ := h.invariant hclosed
    have hnodup := hbefore.nodup List.nodup_nil
    rw [List.nil_append, List.append_assoc] at ht
    have hlook : Takes s [] s.passComments := .look hs.closed
    have hm : moreTokens s = .ok true s.passComments :=
      moreTokens_ok.mpr ⟨(decide_eq_true (current_ne_end hd.begins ht)).symm, rfl⟩
    have hfollow : Avoids [.width] (ts ++ rest) := by
      cases htrail with
      | nil => exact hrest
      | cons hj he _ =>
        obtain rfl := show _ = [] from hj
        rw [List.append_assoc, List.append_assoc]
        exact he.begins.avoids (by decide) _
    obtain ⟨s₁, hrun, hreads, -⟩ := declaration_complete (hs.of_reads hlook.toReads) htypes hnodup
      (hlook.tokens_of ht) hd hbody hnew (Nat.le_refl _) hfollow
    have hread := hlook.toReads.trans hreads
    obtain ⟨s', hs', hreads'⟩ := ih (h.next hm hrun) (hs.of_reads hread) (hread.tokens_of ht) hwf
    rw [List.append_assoc] at hs'
    exact ⟨s', hs', hread.trans hreads'⟩

/-- **A run on well-formed declarations and one without a brace** behind them ends in the fault of
that. -/
theorem run_unbraced {source : SourceId} {lexemes : Lexemes} {ds : List Declaration} {x : Name}
    {b : Body} {a : Token} {used ns : List Token} (hclosed : lexemes.Closed)
    (ht : lexemes.tokens = used ++ (ns ++ a :: (us ++ t :: rest)))
    (hspell : Trail nothing Declaration.SpelledBy ds used) (hwf : DeclarationsWellFormed [] ds)
    (hx : x.SpelledBy ns) (ha : a.kind = .assignment) (h : b.HeadedBy us)
    (hnew : x.text ∉ ds.map (·.name.text)) (hnodup : (texts b.parameters).Nodup)
    (hbrace : t.kind ∉ [TokenKind.leftCurly]) (hopen : t.kind ∉ Rule.parameters.first) :
    (run source lexemes).result = .error (unbraced source t) := by
  have hready : Ready nestingLimit { source, lexemes } := ⟨hclosed, Nat.zero_add _⟩
  have hrest : Avoids [.width] (ns ++ a :: (us ++ t :: rest)) := hx.begins.avoids (by decide) _
  obtain ⟨s, hs, hreads⟩ := Finished.start.extend hclosed hready ht hspell hwf hrest
  have hlook : Takes s [] s.passComments := .look hreads.closed
  have hread := hreads.trans hlook.toReads
  have htokens := hreads.tokens_of ht
  have hn : 1 ≤ nestingLimit - 2 := by decide
  obtain ⟨s', hd⟩ := declaration_unbraced (hready.of_reads hread) (hs.types_eq hclosed) hx ha h
    (hlook.tokens_of htokens) hnew hnodup hbrace hopen hn
  rw [hread.source] at hd
  exact hs.error_of hclosed (current_ne_end hx.begins htokens) hd

end RecordSchema.Parser
