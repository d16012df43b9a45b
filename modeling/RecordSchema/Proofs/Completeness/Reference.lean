import RecordSchema.Proofs.Completeness.Condition
import RecordSchema.Proofs.Names

/-!
# What is spelled as a member is read

The same for built-in types, lists of values, references, fields and branches. A reference must not
be followed by a width or an opening bracket, which would be taken for a part of it.

The table of types has to be that of declarations with different names: only then does it find a
declaration at the position that the reference gives.
-/

namespace RecordSchema.Parser

open State

variable {n : Nat} {names : List String} {before : List Declaration} {us rest : List Token}
  {s s' : State}

/-! ## Built-in types -/

theorem builtinOf_word {b : Builtin} {kind : TokenKind} (h : kind = b.word) :
    builtinOf kind = b := by
  subst h
  cases b <;> rfl

theorem simpleType_complete {t : SimpleType} (hs : Ready n s) (ht : s.tokens = us ++ rest)
    (h : t.SpelledBy us) (hwf : t.WellFormed) (hlevel : 1 ≤ n) (hrest : Avoids [.width] rest) :
    ∃ s', descend (readRule n) .simpleType s = .ok t s' ∧ Takes s us s' := by
  obtain ⟨n, rfl⟩ := Nat.exists_eq_add_of_le' hlevel
  refine takes_rule hs h.begins ht ?_
  rw [← tokens_opened s .simpleType] at ht
  have hs₁ := hs.opened .simpleType
  cases h with
  | @bare b k hk =>
    have hword : k.kind ∈ Rule.typeWords := hk ▸ b.word_mem
    obtain ⟨s₁, hrun₁, htakes₁⟩ := take_complete hs₁.closed ht hword
    have hnext := current_of_avoids hrest htakes₁.closed (htakes₁.tokens_of ht) (by decide)
    have hwidth : s₁.current.kind ≠ .width := fun he => hnext (by simp [he])
    refine ⟨s₁.passComments, bind_ok.mpr ⟨k, s₁, hrun₁, bind_ok.mpr ⟨_, _,
      look_ok.mpr ⟨rfl, rfl⟩, ?_⟩⟩, htakes₁.trans (.look htakes₁.closed)⟩
    rw [if_neg (fun hwide => hwidth hwide.2.1), builtinOf_word hk]
    exact pure_ok.mpr ⟨rfl, rfl⟩
  | @wide b k w hk hw ho =>
    have hword : k.kind ∈ Rule.typeWords := hk ▸ b.word_mem
    obtain ⟨s₁, hrun₁, htakes₁⟩ := take_complete hs₁.closed ht hword
    have ht₁ : s₁.tokens = w :: rest := htakes₁.tokens_of ht
    have hcurrent := current_of_tokens ht₁
    subst hcurrent
    obtain ⟨htakesWidth, hbounds⟩ := hwf _ rfl
    refine ⟨s₁.skip, bind_ok.mpr ⟨k, s₁, hrun₁, bind_ok.mpr ⟨_, _, look_ok.mpr ⟨rfl, rfl⟩, ?_⟩⟩,
      htakes₁.trans (skip_complete htakes₁.closed ht₁)⟩
    rw [builtinOf_word hk, if_pos ⟨htakesWidth, hw, ho⟩]
    refine bind_ok.mpr ⟨(), s₁.skip, advance_ok.mpr rfl, bind_ok.mpr ⟨_, s₁.skip, ?_,
      pure_ok.mpr ⟨rfl, rfl⟩⟩⟩
    unfold widthOf
    rw [if_pos hbounds]
    exact pure_ok.mpr ⟨rfl, rfl⟩

/-! ## References -/

theorem moreValues_complete {js ts : List Token} (hs : s.Closed) (hj : perhaps .comma js)
    (hb : Begins Rule.operandStart us) (ht : s.tokens = js ++ us ++ ts) :
    ∃ s', moreValues s = .ok true s' ∧ Takes s js s' := by
  rcases hj with rfl | ⟨t, rfl, hk⟩
  · have hstart := current_of_begins hb ht
    have hcomma : s.current.kind ≠ .comma := by
      intro he
      rw [he] at hstart
      exact absurd hstart (by decide)
    have hlook : Takes s [] s.passComments := .look hs
    exact ⟨_, bind_ok.mpr ⟨false, _, accept_complete_false hcomma, canStart_complete hstart⟩,
      hlook.trans (.look hlook.closed)⟩
  · obtain ⟨s₁, hrun₁, htakes₁⟩ := accept_complete hs ht hk
    exact ⟨s₁, bind_ok.mpr ⟨true, s₁, hrun₁, pure_ok.mpr ⟨rfl, rfl⟩⟩, htakes₁⟩

theorem moreValues_complete_false (hs : s.Closed) (hk : s.current.kind = .rightSquare) :
    ∃ s', moreValues s = .ok false s' ∧ Takes s [] s' := by
  have hcomma : s.current.kind ≠ .comma := by simp [hk]
  have hstart : s.current.kind ∉ Rule.operand.first := by
    rw [hk]
    decide
  have hlook : Takes s [] s.passComments := .look hs
  exact ⟨_, bind_ok.mpr ⟨false, _, accept_complete_false hcomma, canStart_complete_false hstart⟩,
    hlook.trans (.look hlook.closed)⟩

theorem values_complete {vs : List Operand} (hs : Ready n s) (hn : s.scope.Holds names)
    (ht : s.tokens = us ++ rest) (h : Bracketed Operand.SpelledBy vs us)
    (hwf : ∀ v ∈ vs, v.WellFormed names) (hlevel : 2 ≤ n) :
    ∃ s', descend (readRule n) .values s = .ok vs s' ∧ Takes s us s' := by
  obtain ⟨n, rfl⟩ := Nat.exists_eq_add_of_le' (Nat.le_of_succ_le hlevel)
  cases h with
  | @mk o c ts ho hlist hc =>
    refine takes_rule hs ⟨o, _, rfl, by simp [ho, Rule.first]⟩ ht ?_
    rw [← tokens_opened s .values, List.cons_append, List.append_assoc] at ht
    have hs₁ := hs.opened .values
    obtain ⟨s₁, hrun₁, htakes₁⟩ := take_complete hs₁.closed ht (List.mem_singleton.mpr ho)
    have ht₁ : s₁.tokens = ts ++ (c :: rest) := htakes₁.tokens_of ht
    have hscope : s₁.scope.Holds names := by rwa [htakes₁.scope]
    obtain ⟨s₂, hrun₂, htakes₂⟩ := takes_many1 (Operand.WellFormed names) (fun _ => True)
      (fun hv => hv.begins.ne_nil) (fun _ _ => trivial) trivial
      (fun hs hj hv ht => moreValues_complete hs hj hv.begins ht)
      (fun hs ht => moreValues_complete_false hs (by rw [current_of_tokens ht, hc]))
      (fun hs hn hwf hv _ ht => operand_complete hs hn ht hv hwf (by omega))
      (hs₁.of_reads htakes₁.toReads) hscope hwf hlist ht₁
    have hclose : c.kind ∈ [TokenKind.identifier, .number, .comma, .rightSquare] := by simp [hc]
    obtain ⟨s₃, hrun₃, htakes₃⟩ := take_complete htakes₂.closed (htakes₂.tokens_of ht₁) hclose
    refine ⟨s₃, ?_, by simpa using (htakes₁.trans htakes₂).trans htakes₃⟩
    exact bind_ok.mpr ⟨o, s₁, hrun₁, bind_ok.mpr ⟨vs, s₂, hrun₂, bind_ok.mpr ⟨c, s₃, hrun₃,
      pure_ok.mpr ⟨rfl, rfl⟩⟩⟩⟩

theorem target_builtin {t : SimpleType} {k : Token} (hs : Ready n s)
    (ht : s.tokens = (k :: us) ++ rest) (h : t.SpelledBy (k :: us)) (hwf : t.WellFormed)
    (hlevel : 1 ≤ n) (hrest : Avoids [.width] rest) :
    ∃ s', Parser.target (readRule n) s =
        .ok (⟨t.builtin.keyword, k.offset⟩, .builtin t, 0) s' ∧ Takes s (k :: us) s' := by
  have hstart : s.current.kind ∈ Rule.simpleType.first := current_of_begins h.begins ht
  have hlook : Takes s [] s.passComments := .look hs.closed
  have hlook₂ : Takes s [] s.passComments.passComments := hlook.trans (.look hlook.closed)
  obtain ⟨s₁, hrun₁, htakes₁⟩ := simpleType_complete (hs.of_reads hlook₂.toReads)
    (hlook₂.tokens_of ht) h hwf hlevel hrest
  refine ⟨s₁, ?_, hlook₂.trans htakes₁⟩
  refine bind_ok.mpr ⟨true, _, canStart_complete hstart, bind_ok.mpr ⟨_, _,
    look_ok.mpr ⟨rfl, rfl⟩, bind_ok.mpr ⟨t, s₁, hrun₁, pure_ok.mpr ⟨?_, rfl⟩⟩⟩⟩
  rw [current_passComments, current_of_tokens ht]

theorem target_declared {x : Name} {id : TypeId} {d : Declaration} (hs : Ready n s)
    (htypes : s.types = TypeTable.of before) (hnodup : (before.map (·.name.text)).Nodup)
    (ht : s.tokens = us ++ rest) (h : x.SpelledBy us) (hd : before[id.index]? = some d)
    (hx : d.name.text = x.text) :
    ∃ s', Parser.target (readRule n) s = .ok (x, .declared id, d.body.parameters.length) s' ∧
      Takes s us s' := by
  have hstart := current_of_begins h.begins ht
  have hword : s.current.kind ∉ Rule.simpleType.first := by
    rw [List.mem_singleton.mp hstart]
    decide
  have hlook : Takes s [] s.passComments := .look hs.closed
  obtain ⟨s₁, hrun₁, htakes₁⟩ := name_complete hlook.closed (hlook.tokens_of ht) h
  have hfind : s₁.types.find? x.text = some (id, ⟨d.name, d.body.parameters.length⟩) := by
    rw [htakes₁.types, types_passComments, htypes, ← hx]
    exact TypeTable.find?_of_getElem? hnodup hd
  refine ⟨s₁, ?_, hlook.trans htakes₁⟩
  exact bind_ok.mpr ⟨false, _, canStart_complete_false hword, bind_ok.mpr ⟨x, s₁, hrun₁,
    bind_ok.mpr ⟨(id, d.body.parameters.length), s₁, resolveType_ok.mpr ⟨_, hfind, rfl, rfl⟩,
      pure_ok.mpr ⟨rfl, rfl⟩⟩⟩⟩

theorem reference_complete {r : Reference} (hs : Ready n s) (hn : s.scope.Holds names)
    (htypes : s.types = TypeTable.of before) (hnodup : (before.map (·.name.text)).Nodup)
    (ht : s.tokens = us ++ rest) (h : r.SpelledBy us) (hwf : r.WellFormed before names)
    (hlevel : 3 ≤ n) (hrest : Avoids [.width, .leftSquare] rest) :
    ∃ s', descend (readRule n) .reference s = .ok r s' ∧ Takes s us s' := by
  obtain ⟨n, rfl⟩ := Nat.exists_eq_add_of_le' (show 1 ≤ n by omega)
  refine takes_rule hs h.begins ht ?_
  rw [← tokens_opened s .reference] at ht
  have hs₁ := hs.opened .reference
  have hrestWidth : Avoids [.width] rest := fun t hmem hk =>
    hrest t hmem (by simp [List.mem_singleton.mp hk])
  -- without values the rest decides that none are read
  have hnone : ∀ {s₁ : State}, s₁.Closed → s₁.tokens = rest →
      canStart .values s₁ = .ok false s₁.passComments := by
    intro s₁ hclosed hrest₁
    have hnext := current_of_avoids hrest hclosed hrest₁ (by decide)
    refine canStart_complete_false fun he => hnext ?_
    simp [List.mem_singleton.mp he]
  cases h with
  | @builtin t k vs us ts hspell hvs =>
    obtain ⟨htype, -, rfl⟩ := hwf
    cases hvs with
    | none =>
      rw [List.append_nil] at ht ⊢
      obtain ⟨s₁, hrun₁, htakes₁⟩ := target_builtin hs₁ ht hspell htype (by omega) hrestWidth
      have hfalse := hnone htakes₁.closed (htakes₁.tokens_of ht)
      refine ⟨s₁.passComments, ?_, by simpa using htakes₁.trans (.look htakes₁.closed)⟩
      exact bind_ok.mpr ⟨_, s₁, hrun₁, bind_ok.mpr ⟨false, _, hfalse, pure_ok.mpr ⟨rfl, rfl⟩⟩⟩
  | @declared x id vs us ts hspell hvs =>
    obtain ⟨d, hd, hx, hvalues⟩ := hwf
    rw [List.append_assoc] at ht
    obtain ⟨s₁, hrun₁, htakes₁⟩ := target_declared hs₁ htypes hnodup ht hspell hd hx
    have ht₁ := htakes₁.tokens_of ht
    cases hvs with
    | none =>
      have hfalse := hnone htakes₁.closed ht₁
      refine ⟨s₁.passComments, ?_, htakes₁.trans (.look htakes₁.closed)⟩
      exact bind_ok.mpr ⟨_, s₁, hrun₁, bind_ok.mpr ⟨false, _, hfalse, pure_ok.mpr ⟨rfl, rfl⟩⟩⟩
    | @some vs _ hvs =>
      obtain ⟨hlen, hgood⟩ := hvalues vs rfl
      have hbegins : Begins Rule.values.first ts := by
        cases hvs with
        | mk ho _ _ => exact ⟨_, _, rfl, List.mem_singleton.mpr ho⟩
      have htrue := canStart_complete (current_of_begins hbegins ht₁)
      have hlook : Takes s₁ [] s₁.passComments := .look htakes₁.closed
      have htakes := htakes₁.trans hlook
      rw [List.append_nil] at htakes
      have hscope : s₁.passComments.scope.Holds names := by rwa [htakes.scope]
      obtain ⟨s₂, hrun₂, htakes₂⟩ := values_complete (hs₁.of_reads htakes.toReads) hscope
        (hlook.tokens_of ht₁) hvs hgood (by omega)
      refine ⟨s₂, bind_ok.mpr ⟨_, s₁, hrun₁, bind_ok.mpr ⟨true, _, htrue, bind_ok.mpr ⟨vs, s₂,
        hrun₂, ?_⟩⟩⟩, htakes.trans htakes₂⟩
      rw [if_pos hlen]
      exact pure_ok.mpr ⟨rfl, rfl⟩

/-! ## Members -/

theorem field_complete {f : Field} (hs : Ready n s) (hn : s.scope.Holds names)
    (htypes : s.types = TypeTable.of before) (hnodup : (before.map (·.name.text)).Nodup)
    (ht : s.tokens = us ++ rest) (h : f.SpelledBy us) (hwf : f.type.WellFormed before names)
    (hnew : f.name.text ∉ names) (hlevel : 4 ≤ n) (hrest : Avoids [.width, .leftSquare] rest) :
    ∃ s', descend (readRule n) .field s = .ok f s' ∧ Passes s us s' ∧
      s'.scope.Holds (names ++ [f.name.text]) := by
  obtain ⟨n, rfl⟩ := Nat.exists_eq_add_of_le' (show 1 ≤ n by omega)
  have hstart : s.current.kind ∈ Rule.field.first := current_of_begins h.begins ht
  rw [← tokens_opened s .field] at ht
  have hs₁ := hs.opened .field
  cases h with
  | @mk x r us ts hx hr =>
    rw [List.append_assoc] at ht
    obtain ⟨s₁, hrun₁, htakes₁⟩ := name_complete hs₁.closed ht hx
    have hscope : s₁.scope.Holds names := by rwa [htakes₁.scope]
    obtain ⟨s₂, hrun₂, htakes₂⟩ := reference_complete (hs₁.of_reads htakes₁.toReads) hscope
      (htakes₁.types.trans htypes) hnodup (htakes₁.tokens_of ht) hr hwf (by omega) hrest
    have hscope₂ : s₂.scope.Holds names := by rwa [htakes₂.scope]
    have hdeclare := hscope₂.declare_iff.mpr ⟨hnew, rfl⟩
    have hall := (htakes₁.trans htakes₂).toPasses.withScope ⟨x :: s₂.scope.names⟩
    refine ⟨_, descend_of_reader hs hstart ?_, hall.rule, hscope₂.cons x⟩
    exact bind_ok.mpr ⟨x, s₁, hrun₁, bind_ok.mpr ⟨r, s₂, hrun₂, bind_ok.mpr ⟨(), _,
      declareName_ok.mpr ⟨_, hdeclare, rfl⟩, pure_ok.mpr ⟨rfl, rfl⟩⟩⟩⟩

theorem branch_complete {b : Branch} (hs : Ready n s) (hn : s.scope.Holds names)
    (htypes : s.types = TypeTable.of before) (hnodup : (before.map (·.name.text)).Nodup)
    (ht : s.tokens = us ++ rest) (h : b.SpelledBy us) (hwf : b.WellFormed before names)
    (hlevels : nestingLimit ≤ n + 2) :
    ∃ s', descend (readRule n) .branch s = .ok b s' ∧ Takes s us s' := by
  have hlimit : 256 ≤ n + 2 := hlevels
  obtain ⟨n, rfl⟩ := Nat.exists_eq_add_of_le' (show 1 ≤ n by omega)
  refine takes_rule hs h.begins ht ?_
  rw [← tokens_opened s .branch] at ht
  have hs₁ := hs.opened .branch
  obtain ⟨hrwf, hcwf⟩ := hwf
  cases h with
  | @mk r c us ts hr hc =>
    cases hc with
    | @mk o e ts ho hc he =>
      rw [List.append_assoc, List.cons_append, List.append_assoc] at ht
      obtain ⟨s₁, hrun₁, htakes₁⟩ := reference_complete hs₁ hn htypes hnodup ht hr hrwf (by omega)
        (avoids_cons (by rw [ho]; decide))
      have ht₁ := htakes₁.tokens_of ht
      obtain ⟨s₂, hrun₂, htakes₂⟩ :=
        take_complete htakes₁.closed ht₁ (List.mem_singleton.mpr ho)
      have htakes := htakes₁.trans htakes₂
      have hscope : s₂.scope.Holds names := by rwa [htakes.scope]
      have ht₂ : s₂.tokens = ts ++ (e :: rest) := htakes₂.tokens_of ht₁
      obtain ⟨s₃, hrun₃, htakes₃⟩ := condition_complete (hs₁.of_reads htakes.toReads) hscope ht₂ hc
        hcwf hlevels (avoids_cons (by rw [he]; decide))
      obtain ⟨s₄, hrun₄, htakes₄⟩ := take_complete htakes₃.closed (htakes₃.tokens_of ht₂)
        (List.mem_singleton.mpr he)
      refine ⟨s₄, ?_, by simpa using (htakes.trans htakes₃).trans htakes₄⟩
      exact bind_ok.mpr ⟨r, s₁, hrun₁, bind_ok.mpr ⟨o, s₂, hrun₂, bind_ok.mpr ⟨c, s₃, hrun₃,
        bind_ok.mpr ⟨e, s₄, hrun₄, pure_ok.mpr ⟨rfl, rfl⟩⟩⟩⟩⟩

end RecordSchema.Parser
