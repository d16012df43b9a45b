import RecordSchema.Proofs.Erasure
import RecordSchema.Proofs.Reparsing.Unbraced

/-!
# Reading a rendering again

A rendering is not always a schema: members are written without braces. It is one exactly if there
are no members to write. Then reading it gives the schema again, with names where the rendering has
them, and from there on rendering and reading change nothing. Otherwise reading it ends at the first
member, where a brace would have to be.

Results:
* `Schema.parse_render_simple`: what is read from the rendering of built-in types.
* `Schema.parse_render_members`: the fault of any other rendering.
* `Schema.parse_render`: which renderings are read, as what, and where the others are refused.
-/

namespace RecordSchema

open Spelling

/-! ## Declarations at the places of a rendering -/

theorem relocate_settle (offset : Nat) (ds : List Declaration) :
    (settle offset ds).map (·.relocate .erasure) = ds.map (·.relocate .erasure) := by
  induction ds generalizing offset with
  | nil => rfl
  | cons d ds ih =>
    rw [settle, List.map_cons, List.map_cons, ih]
    rfl

/-- Declarations at other places differ in offsets only. -/
theorem Schema.erase_settle (p : Schema) :
    Schema.erase ⟨settle 0 p.declarations⟩ = p.erase :=
  congrArg Schema.mk (relocate_settle 0 p.declarations)

/-- Built-in types are well-formed wherever their names stand. -/
theorem DeclarationsWellFormed.settle {ds : List Declaration}
    (hds : ∀ d ∈ ds, d.body.isSimple = true) :
    ∀ {before before' : List Declaration} {offset : Nat},
      before'.map (·.name.text) = before.map (·.name.text) → DeclarationsWellFormed before ds →
      DeclarationsWellFormed before' (settle offset ds) := by
  induction ds with
  | nil => exact fun _ _ => trivial
  | cons d ds ih =>
    obtain ⟨hsimple, hrest⟩ := List.forall_mem_cons.mp hds
    rintro before before' offset hnames ⟨hnew, hbody, hwf⟩
    obtain ⟨name, body⟩ := d
    refine ⟨hnames ▸ hnew, ?_, ih hrest ?_ hwf⟩
    · cases body with
      | simple type => exact hbody
      | _ => exact absurd hsimple Bool.false_ne_true
    · rw [List.map_append, List.map_append, hnames]
      rfl

/-- The names of declarations that are spelled by tokens of a text are spelled as names. -/
theorem spells_of_trail {ds : List Declaration} {ts : List Token}
    (h : Trail nothing Declaration.SpelledBy ds ts) (hp : ∀ t ∈ ts, t.Proper) :
    ∀ d ∈ ds, Spells .identifier d.name.text.toList := by
  intro d hd
  obtain ⟨us, hus, hsub⟩ := h.item_of_mem hd
  cases hus with
  | mk hx _ _ => exact hx.spells fun t ht => hp t (hsub (List.mem_append_left _ ht))

/-! ## Built-in types only -/

/-- **The rendering of declarations of built-in types** is read as the same declarations, with
names where the rendering has them. -/
theorem Schema.parse_render_simple {source source' : SourceId} {text : String} {p : Schema}
    (h : (Schema.parse source text).result = .ok p)
    (hsimple : ∀ d ∈ p.declarations, d.body.isSimple = true) :
    (Schema.parse source' p.render).result = .ok ⟨settle 0 p.declarations⟩ := by
  obtain ⟨-, hspell, hwf⟩ := Schema.parse_sound h
  have hread := (Schema.faithful p _ hspell (Scan.tokens_proper _)).readsAs
  have hnames := spells_of_trail hspell (Scan.tokens_proper _)
  obtain ⟨ts, htrail, hlays⟩ :=
    Lays.declarations (fun d hd => ⟨hsimple d hd, hnames d hd⟩) (Lays.empty _)
  rw [String.append_empty, List.append_nil] at hlays
  refine Schema.parse_ok_iff.mpr ⟨hread.tokens.1, ?_, hwf.settle hsimple rfl⟩
  rw [hlays.tokens hread]
  exact htrail

/-! ## Where the first member stands -/

/-- The text is the first member of the first declaration that is not of a built-in type, and the
rendering is `front` up to there. -/
inductive Schema.FirstMember (p : Schema) (front member : String) : Prop
  | mk {ds later : List Declaration} {d : Declaration} {others : List String}
      (hds : p.declarations = ds ++ d :: later) (hsimple : ∀ e ∈ ds, e.body.isSimple = true)
      (hd : d.body.isSimple = false) (hmembers : d.body.members = member :: others)
      (hfront : front = Schema.render ⟨ds⟩ ++ d.heading ++ "\n\t")

theorem Body.WellFormed.members_ne_nil {before : List Declaration} {b : Body}
    (h : b.WellFormed before) (hsimple : b.isSimple = false) : b.members ≠ [] := by
  cases b with
  | simple type => exact absurd hsimple.symm Bool.false_ne_true
  | sequence ps fs => exact mt List.map_eq_nil_iff.mp h.2.1
  | array count fs => exact mt List.map_eq_nil_iff.mp h.1
  | choice ps bs => exact mt List.map_eq_nil_iff.mp h.2.2.1

/-- There is a first member unless all declarations are of built-in types. -/
theorem Schema.WellFormed.exists_firstMember {p : Schema} (h : p.WellFormed)
    (hsimple : ¬ ∀ d ∈ p.declarations, d.body.isSimple = true) :
    ∃ front member, p.FirstMember front member := by
  cases hfind : p.declarations.find? (fun d => !d.body.isSimple) with
  | none => exact absurd (by simpa using hfind) hsimple
  | some d =>
    obtain ⟨hd, ds, later, hds, hall⟩ := List.find?_eq_some_iff_append.mp hfind
    rw [Bool.not_eq_true'] at hd
    rw [Schema.WellFormed, hds] at h
    obtain ⟨-, -, hbody, -⟩ := DeclarationsWellFormed.append_iff.mp h
    obtain ⟨member, others, hmembers⟩ := List.exists_cons_of_ne_nil (hbody.members_ne_nil hd)
    exact ⟨_, member, .mk hds (by simpa using hall) hd hmembers rfl⟩

/-- The member stands behind the text in front of it. -/
theorem Schema.FirstMember.render_eq {p : Schema} {front member : String}
    (h : p.FirstMember front member) : ∃ after, p.render = front ++ member ++ after := by
  cases h with
  | @mk ds later d others hds _ _ hmembers hfront =>
    subst hfront
    have hmember : renderMembers d.body.members = "\n\t" ++ member ++ renderMembers others := by
      rw [hmembers, renderMembers, List.map_cons, String.join_cons]
      rfl
    refine ⟨renderMembers others ++ "\n" ++ Schema.render ⟨later⟩, ?_⟩
    rw [show p = ⟨ds ++ d :: later⟩ from congrArg Schema.mk hds, Schema.render_append,
      Schema.render_cons, Declaration.render_eq, hmember]
    simp only [String.append_assoc]

/-! ## Other declarations -/

/-- **The rendering of any other declarations** is refused for the first token of the first member,
which stands where an opening brace has to be. -/
theorem Schema.parse_render_members {source source' : SourceId} {text front member : String}
    {p : Schema} (h : (Schema.parse source text).result = .ok p) (hm : p.FirstMember front member) :
    ∃ t ∈ Text.tokens p.render, t.offset = front.utf8ByteSize ∧
      (Text.tokens member).head? = some { t with offset := 0 } ∧
      (Schema.parse source' p.render).result =
        .error ⟨source', .unexpectedToken [.leftCurly] t.kind t.offset t.length⟩ := by
  obtain ⟨-, hspell, hwf⟩ := Schema.parse_sound h
  have hread := (Schema.faithful p _ hspell (Scan.tokens_proper _)).readsAs
  have hnames := spells_of_trail hspell (Scan.tokens_proper _)
  obtain ⟨after, hrender⟩ := hm.render_eq
  cases hm with
  | @mk ds later d others hds hsimple hd hmembers hfront =>
    subst hfront
    rw [Schema.WellFormed, hds] at hwf
    obtain ⟨hbefore, hnew, hbody, -⟩ := DeclarationsWellFormed.append_iff.mp hwf
    -- The heading and the first token of the member, from the tokens the declaration was read from.
    obtain ⟨us, hus, hsub⟩ := hspell.item_of_mem (show d ∈ p.declarations by simp [hds])
    have hproper : ∀ t ∈ us, t.Proper := fun t ht => Scan.tokens_proper _ t (hsub ht)
    obtain ⟨ns, a, bs, hn, ha, hheaded, hheading⟩ :=
      hus.headed hproper hd (0 + (Schema.render ⟨ds⟩).utf8ByteSize)
    obtain ⟨kind, hkind, word, hopens⟩ := hus.opens hproper hmembers
    -- Where they stand in the rendering.
    obtain ⟨ts, htrail, hlays⟩ := Lays.declarations
      (fun e he => ⟨hsimple e he, hnames e (by simp [hds, he])⟩) hheading
    obtain ⟨more, htokens⟩ := hopens.behind hlays (show Blanks "\n\t" by decide) after
    rw [← hrender, ← hread.ofText, List.append_assoc, List.append_assoc,
      List.cons_append] at htokens
    refine ⟨⟨kind, word, _⟩, ?_, Nat.zero_add _, hopens.tokens, ?_⟩
    · rw [Text.tokens, htokens]
      simp
    · rw [Schema.parse_of_normalized hread.tokens.1]
      have hdistinct : d.name.text ∉ (settle 0 ds).map (·.name.text) := by
        rwa [names_settle]
      have hothers : ∀ k ∈ Rule.branch.first,
          k ∉ [TokenKind.leftCurly] ∧ k ∉ Rule.parameters.first := by
        decide
      exact Parser.run_unbraced (Scan.lexemes_closed _) htokens htrail (hbefore.settle hsimple rfl)
        hn ha hheaded hdistinct hbody.nodup_parameters (hothers kind hkind).1 (hothers kind hkind).2

/-! ## All renderings -/

/-- **Reading a rendering again.** The rendering of a schema that was read is read exactly if all
its declarations are of built-in types. What is read then differs from the schema in offsets only,
has the same rendering, and is what that is read as, offsets included. Any other rendering is
refused because an opening brace has to be where the first token of the first member stands. -/
theorem Schema.parse_render {source : SourceId} {text : String} {p : Schema}
    (h : (Schema.parse source text).result = .ok p) (source' : SourceId) :
    ((∃ q, (Schema.parse source' p.render).result = .ok q) ↔
        ∀ d ∈ p.declarations, d.body.isSimple = true) ∧
      (∀ q, (Schema.parse source' p.render).result = .ok q →
        q.erase = p.erase ∧ q.render = p.render ∧
          ∀ source'', (Schema.parse source'' q.render).result = .ok q) ∧
      ((¬ ∀ d ∈ p.declarations, d.body.isSimple = true) →
        ∃ front member after, p.FirstMember front member ∧ p.render = front ++ member ++ after ∧
          ∃ t ∈ Text.tokens p.render, t.offset = front.utf8ByteSize ∧
            (Text.tokens member).head? = some { t with offset := 0 } ∧
            (Schema.parse source' p.render).result =
              .error ⟨source', .unexpectedToken [.leftCurly] t.kind t.offset t.length⟩) := by
  have hwf := (Schema.parse_sound h).2.2
  have hall {q : Schema} (hq : (Schema.parse source' p.render).result = .ok q) :
      ∀ d ∈ p.declarations, d.body.isSimple = true := by
    by_contra hsimple
    obtain ⟨front, member, hm⟩ := hwf.exists_firstMember hsimple
    obtain ⟨t, -, -, -, hfails⟩ := Schema.parse_render_members h hm
    cases hq.symm.trans hfails
  refine ⟨⟨fun ⟨_, hq⟩ => hall hq, fun hsimple => ⟨_, Schema.parse_render_simple h hsimple⟩⟩,
    fun q hq => ?_, fun hsimple => ?_⟩
  · have hsettled : (Schema.parse source' p.render).result = .ok ⟨settle 0 p.declarations⟩ :=
      Schema.parse_render_simple h (hall hq)
    obtain rfl := Except.ok.inj (hsettled.symm.trans hq)
    have hrender := Schema.render_eq_of_erase_eq p.erase_settle
    refine ⟨p.erase_settle, hrender, fun source'' => ?_⟩
    rw [hrender]
    exact Schema.parse_render_simple h (hall hq)
  · obtain ⟨front, member, hm⟩ := hwf.exists_firstMember hsimple
    obtain ⟨after, hrender⟩ := hm.render_eq
    exact ⟨front, member, after, hm, hrender, Schema.parse_render_members h hm⟩

/-- Built-in types with a width that has a leading zero, and a sequence behind one of them. -/
theorem Schema.parse_render_sequence :
    ∃ p p', (Schema.parse ⟨0⟩ "a::=UINT_08 b::=BOOL").result = .ok p ∧
      (Schema.parse ⟨0⟩ "a::=UINT_08 s::=SEQUENCE[n]\x7bx a\x7d").result = .ok p' ∧
      p.render = "a ::= UINT_8\nb ::= BOOL\n" ∧
      p'.render = "a ::= UINT_8\ns ::= SEQUENCE[n]\n\tx a\n" ∧
      (∃ q, (Schema.parse ⟨1⟩ p.render).result = .ok q ∧ q ≠ p ∧ q.erase = p.erase ∧
        q.render = p.render ∧ (Schema.parse ⟨2⟩ q.render).result = .ok q) ∧
      ∃ front member after, p'.render = front ++ member ++ after ∧
        ∃ t ∈ Text.tokens p'.render, t.offset = front.utf8ByteSize ∧
          (Schema.parse ⟨1⟩ p'.render).result =
            .error ⟨⟨1⟩, .unexpectedToken [.leftCurly] t.kind t.offset t.length⟩ := by
  have hp : (Schema.parse ⟨0⟩ "a::=UINT_08 b::=BOOL").result =
      .ok ⟨[⟨⟨"a", 0⟩, .simple ⟨.uint, some 8⟩⟩, ⟨⟨"b", 12⟩, .simple ⟨.bool, none⟩⟩]⟩ := by
    decide +kernel
  have hp' : (Schema.parse ⟨0⟩ "a::=UINT_08 s::=SEQUENCE[n]\x7bx a\x7d").result =
      .ok ⟨[⟨⟨"a", 0⟩, .simple ⟨.uint, some 8⟩⟩, ⟨⟨"s", 12⟩, .sequence [⟨"n", 25⟩]
        [⟨⟨"x", 28⟩, ⟨⟨"a", 30⟩, .declared ⟨0⟩, none⟩⟩]⟩]⟩ := by
    decide +kernel
  refine ⟨_, _, hp, hp', by decide +kernel, by decide +kernel, ?_, ?_⟩
  · obtain ⟨hread, hsame, -⟩ := Schema.parse_render hp ⟨1⟩
    obtain ⟨q, hq⟩ := hread.mpr (by decide)
    obtain ⟨herase, hrender, hagain⟩ := hsame q hq
    refine ⟨q, hq, ?_, herase, hrender, hagain ⟨2⟩⟩
    rintro rfl
    exact absurd hq (by decide +kernel)
  · obtain ⟨-, -, hrefused⟩ := Schema.parse_render hp' ⟨1⟩
    obtain ⟨front, member, after, -, hrender, t, ht, hoffset, -, hfails⟩ := hrefused (by decide)
    exact ⟨front, member, after, hrender, t, ht, hoffset, hfails⟩

end RecordSchema
