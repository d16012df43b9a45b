import RecordSchema.Proofs.Reparsing.Layout
import RecordSchema.Proofs.WellFormed

/-!
# The lines of a rendering

A rendering writes a declaration as a heading and its members, one on a line. Declarations of
built-in types have no members, so what is written for them is spelled again by its own tokens, with
their names at new offsets. Of the others only the heading is: what stands behind it is the first
token of a member where a brace would have to be.

Results:
* `Declaration.render_eq`: a rendering is the heading and the members.
* `Lays.declarations`: declarations of built-in types are laid out as they are spelled.
* `Declaration.SpelledBy.headed`: so is the heading of any other declaration.
* `Declaration.SpelledBy.opens`: the first token of its first member.
-/

namespace RecordSchema

open Spelling

/-! ## Headings and members -/

namespace Body

/-- Whether the body is a built-in type. -/
def isSimple : Body → Bool
  | simple _ => true
  | _ => false

/-- What is written in front of the members. -/
def heading : Body → String
  | simple type => type.render
  | sequence parameters _ => "SEQUENCE" ++ renderParameters parameters
  | array count _ => "ARRAY" ++ bracketed [count.text]
  | choice parameters _ => "CHOICE" ++ renderParameters parameters

/-- What is written for the members. -/
def members : Body → List String
  | simple _ => []
  | sequence _ fields | array _ fields => fields.map (·.render)
  | choice _ branches => branches.map (·.render)

theorem render_eq (b : Body) : b.render = b.heading ++ renderMembers b.members := by
  cases b with
  | simple type => exact (String.append_empty).symm
  | _ => rfl

end Body

/-- What is written in front of the members of a declaration. -/
def Declaration.heading (d : Declaration) : String := d.name.text ++ " ::= " ++ d.body.heading

/-- **The rendering of a declaration** is its heading, and its members behind that. -/
theorem Declaration.render_eq (d : Declaration) :
    d.render = d.heading ++ renderMembers d.body.members := by
  rw [render, heading, Body.render_eq, ← String.append_assoc]

theorem Schema.render_cons (d : Declaration) (ds : List Declaration) :
    Schema.render ⟨d :: ds⟩ = d.render ++ "\n" ++ Schema.render ⟨ds⟩ := by
  rw [Schema.render, List.map_cons, String.join_cons]
  rfl

theorem Schema.render_append (ds es : List Declaration) :
    Schema.render ⟨ds ++ es⟩ = Schema.render ⟨ds⟩ ++ Schema.render ⟨es⟩ := by
  simp only [Schema.render, List.map_append, String.join_append]

/-! ## What spells the parts -/

theorem Name.SpelledBy.spells {n : Name} {ts : List Token} (h : n.SpelledBy ts)
    (hp : ∀ t ∈ ts, t.Proper) : Spells .identifier n.text.toList := by
  cases h with
  | @mk t ht =>
    have hspells := hp t List.mem_cons_self (by rw [ht]; decide)
    rwa [ht] at hspells

theorem keywords_spelled : ∀ entry ∈ keywords, entry.1.toList.head?.any Char.isAlpha = true ∧
    nameTail entry.1.toList.tail = entry.1.toList.tail.length ∧ nameKind entry.1 = entry.2 := by
  decide

/-- A reserved word spells a token of its kind. -/
theorem spells_keyword {word : String} {kind : TokenKind} (h : (word, kind) ∈ keywords) :
    Spells kind word.toList := by
  obtain ⟨hhead, htail, hkind⟩ := keywords_spelled _ h
  dsimp only at hhead htail hkind
  cases hword : word.toList with
  | nil => exact absurd hhead (by simp [hword])
  | cons c tail =>
    rw [hword] at hhead htail
    have hspells : Spells (nameKind (String.ofList (c :: tail))) (c :: tail) := .name hhead htail
    rw [← hword, String.ofList_toList, hkind, hword] at hspells
    exact hspells

/-! ## Tokens of the parts -/

/-- A name is its own token, at its offset. -/
theorem Lays.name {text : String} (h : Spells .identifier text.toList) (offset : Nat) :
    ∃ ts, Name.SpelledBy ⟨text, offset⟩ ts ∧ Lays text offset ts := by
  refine ⟨_, ?_, token h offset⟩
  exact Name.SpelledBy.mk (t := ⟨.identifier, text, offset⟩) rfl

/-- A built-in type is spelled by the tokens of its rendering. -/
theorem Lays.simpleType (t : SimpleType) (offset : Nat) :
    ∃ ts, t.SpelledBy ts ∧ Lays t.render offset ts := by
  obtain ⟨b, width⟩ := t
  have hkeyword := token (spells_keyword b.keyword_mem) offset
  cases width with
  | none =>
    rw [SimpleType.render, String.append_empty]
    exact ⟨_, .bare rfl, hkeyword⟩
  | some width =>
    have hdigits : ("_" ++ toString width).toList = '_' :: Nat.toDigits 10 width := by
      simp only [Nat.toString_eq_ofList_toDigits, String.toList_append, String.toList_ofList]
      rfl
    have hwidth : Spells .width ("_" ++ toString width).toList := hdigits ▸ spells_width width
    have hvalue : Text.decimalValue (("_" ++ toString width).toList.drop 1) = width := by
      rw [hdigits]
      exact Text.decimalValue_toDigits width
    refine ⟨_, ?_, hkeyword.append (token hwidth _) (stops_append (by decide) (by decide) _)⟩
    have hspell : SimpleType.SpelledBy ⟨b, some _⟩ [⟨b.word, b.keyword, offset⟩,
        ⟨.width, "_" ++ toString width, offset + b.keyword.utf8ByteSize⟩] := .wide rfl rfl rfl
    rwa [hvalue] at hspell

/-- A declaration up to its body. -/
theorem Lays.assigned {a b : String} {offset : Nat} {us ts : List Token} (ha : Lays a offset us)
    (hb : Lays b (offset + (a ++ " ::= ").utf8ByteSize) ts) :
    ∃ t, t.kind = .assignment ∧ Lays (a ++ " ::= " ++ b) offset (us ++ t :: ts) := by
  have hmark : Spells .assignment "::=".toList := .mark (by decide)
  have hjoint : a ++ " ::= " = a ++ " " ++ "::=" ++ " " := by
    simp only [String.append_assoc]
    rfl
  have hsign := ha.spaced " " (by decide) (token hmark _)
  rw [hjoint] at hb ⊢
  have hall := hsign.spaced " " (by decide) hb
  rw [List.append_assoc] at hall
  exact ⟨_, rfl, hall⟩

/-! ## Declarations of built-in types -/

/-- Declarations with their names where a rendering that begins at the offset has them. -/
def settle : Nat → List Declaration → List Declaration
  | _, [] => []
  | offset, d :: ds =>
    ⟨⟨d.name.text, offset⟩, d.body⟩ :: settle (offset + (d.render ++ "\n").utf8ByteSize) ds

theorem names_settle (offset : Nat) (ds : List Declaration) :
    (settle offset ds).map (·.name.text) = ds.map (·.name.text) := by
  induction ds generalizing offset with
  | nil => rfl
  | cons d ds ih => rw [settle, List.map_cons, List.map_cons, ih]

/-- **Declarations of built-in types are laid out as they are spelled**, in front of a part. -/
theorem Lays.declarations {ds : List Declaration}
    (hds : ∀ d ∈ ds, d.body.isSimple = true ∧ Spells .identifier d.name.text.toList) :
    ∀ {b : String} {offset : Nat} {us : List Token},
      Lays b (offset + (Schema.render ⟨ds⟩).utf8ByteSize) us →
      ∃ ts, Trail nothing Declaration.SpelledBy (settle offset ds) ts ∧
        Lays (Schema.render ⟨ds⟩ ++ b) offset (ts ++ us) := by
  induction ds with
  | nil =>
    intro b offset us hb
    refine ⟨[], .nil, ?_⟩
    rwa [show Schema.render ⟨[]⟩ = "" from rfl, String.empty_append]
  | cons d ds ih =>
    obtain ⟨⟨hsimple, hname⟩, hds⟩ := List.forall_mem_cons.mp hds
    intro b offset us hb
    rw [Schema.render_cons, String.utf8ByteSize_append, ← Nat.add_assoc] at hb
    obtain ⟨ts, htrail, hlays⟩ := ih hds hb
    obtain ⟨⟨text, place⟩, body⟩ := d
    cases body with
    | simple type =>
      obtain ⟨ns, hn, hlaysName⟩ := name hname offset
      obtain ⟨vs, ht, hlaysType⟩ := simpleType type (offset + (text ++ " ::= ").utf8ByteSize)
      obtain ⟨t, hassign, hdeclaration⟩ := hlaysName.assigned hlaysType
      have hspell : Declaration.SpelledBy ⟨⟨text, offset⟩, .simple type⟩ (ns ++ t :: vs) :=
        .mk hn hassign (.simple ht)
      refine ⟨[] ++ (ns ++ t :: vs) ++ ts, .cons (show nothing [] from rfl) hspell htrail, ?_⟩
      have hall := hdeclaration.spaced "\n" (by decide) hlays
      rw [Schema.render_cons, String.append_assoc, List.nil_append, List.append_assoc]
      exact hall
    | _ => exact absurd hsimple Bool.false_ne_true

/-! ## Headings of other declarations -/

/-- Names behind a part, each behind a blank. -/
theorem Lays.names {ns : List Name} (hns : ∀ n ∈ ns, Spells .identifier n.text.toList) :
    ∀ {a : String} {offset : Nat} {us : List Token}, Lays a offset us →
      ∃ ms ts, Trail (perhaps .comma) Name.SpelledBy ms ts ∧ texts ms = texts ns ∧
        Lays (a ++ String.join ((texts ns).map (" " ++ ·))) offset (us ++ ts) := by
  induction ns with
  | nil =>
    intro a offset us ha
    refine ⟨[], [], .nil, rfl, ?_⟩
    rwa [texts, List.map_nil, List.map_nil, String.join_nil, String.append_empty, List.append_nil]
  | cons n ns ih =>
    obtain ⟨hn, hns⟩ := List.forall_mem_cons.mp hns
    intro a offset us ha
    obtain ⟨vs, hname, hlays⟩ := name hn (offset + (a ++ " ").utf8ByteSize)
    obtain ⟨ms, ts, htrail, htexts, hall⟩ := ih hns (ha.spaced " " (by decide) hlays)
    refine ⟨_ :: ms, [] ++ vs ++ ts, .cons (.inl rfl) hname htrail, ?_, ?_⟩
    · rw [texts, List.map_cons, ← texts, htexts]
      rfl
    · rw [texts, List.map_cons, ← texts, List.map_cons, String.join_cons, ← String.append_assoc,
        ← String.append_assoc, List.nil_append, ← List.append_assoc]
      exact hall

/-- Names in square brackets. -/
theorem Lays.parameters {ns : List Name} (hne : ns ≠ [])
    (hns : ∀ n ∈ ns, Spells .identifier n.text.toList) (offset : Nat) :
    ∃ ms ts, Bracketed Name.SpelledBy ms ts ∧ texts ms = texts ns ∧
      Lays (RecordSchema.bracketed (texts ns)) offset ts := by
  obtain ⟨n, ns, rfl⟩ := List.exists_cons_of_ne_nil hne
  obtain ⟨hn, hns⟩ := List.forall_mem_cons.mp hns
  obtain ⟨vs, hname, hlays⟩ := name hn (offset + 1)
  obtain ⟨ms, ts, htrail, htexts, hall⟩ := names hns hlays
  obtain ⟨us, hspell, hlays⟩ := hall.bracketed (Listed.mk hname htrail)
  refine ⟨_, us, hspell, ?_, ?_⟩
  · rw [texts, List.map_cons, ← texts, htexts]
    rfl
  · rw [RecordSchema.bracketed, texts, List.map_cons, Prints.intercalate_eq]
    exact hlays

/-- Tokens spell the heading of a body with members, with its parameters anywhere. -/
inductive Body.HeadedBy : Body → List Token → Prop
  | bare {k : Token} {fs : List Field} (hk : k.kind = .sequence) :
      HeadedBy (.sequence [] fs) [k]
  | sequence {k : Token} {ps qs : List Name} {fs : List Field} {us : List Token}
      (hk : k.kind = .sequence) (hq : Bracketed Name.SpelledBy qs us) (hps : texts qs = texts ps) :
      HeadedBy (.sequence ps fs) (k :: us)
  | array {k : Token} {p q : Name} {fs : List Field} {us : List Token} (hk : k.kind = .array)
      (hq : Bracketed Name.SpelledBy [q] us) : HeadedBy (.array p fs) (k :: us)
  | choice {k : Token} {ps qs : List Name} {bs : List Branch} {us : List Token}
      (hk : k.kind = .choice) (hq : Bracketed Name.SpelledBy qs us) (hps : texts qs = texts ps) :
      HeadedBy (.choice ps bs) (k :: us)

theorem spells_of_bracketed {ns : List Name} {ts : List Token} (h : Bracketed Name.SpelledBy ns ts)
    (hp : ∀ t ∈ ts, t.Proper) : ∀ n ∈ ns, Spells .identifier n.text.toList := by
  intro n hn
  cases h with
  | mk ho hlist hc =>
    obtain ⟨us, hus, hsub⟩ := hlist.item_of_mem hn
    exact hus.spells fun t ht => hp t (by simp [hsub ht])

/-- A keyword with parameters behind it. -/
theorem Lays.headed {word : String} {kind : TokenKind} {ps : List Name} {us : List Token}
    (hword : (word, kind) ∈ keywords) (hps : Bracketed Name.SpelledBy ps us)
    (hp : ∀ t ∈ us, t.Proper) (offset : Nat) :
    ∃ k qs ts, k.kind = kind ∧ Bracketed Name.SpelledBy qs ts ∧ texts qs = texts ps ∧
      Lays (word ++ RecordSchema.bracketed (texts ps)) offset (k :: ts) := by
  obtain ⟨qs, ts, hqs, htexts, hlays⟩ := parameters hps.items_ne_nil (spells_of_bracketed hps hp)
    (offset + word.utf8ByteSize)
  have hkeyword := token (spells_keyword hword) offset
  exact ⟨_, qs, ts, rfl, hqs, htexts, hkeyword.append hlays (stops_bracketed _)⟩

/-- **The heading of a body with members** is laid out as it is spelled. -/
theorem Body.SpelledBy.headed {b : Body} {us : List Token} (h : b.SpelledBy us)
    (hp : ∀ t ∈ us, t.Proper) (hsimple : b.isSimple = false) (offset : Nat) :
    ∃ ts, b.HeadedBy ts ∧ Lays b.heading offset ts := by
  cases h with
  | simple ht => exact absurd hsimple.symm Bool.false_ne_true
  | bare hk hf =>
    have hword : ("SEQUENCE", TokenKind.sequence) ∈ keywords := by decide
    exact ⟨_, .bare rfl, Lays.token (spells_keyword hword) offset⟩
  | sequence hk hps hf =>
    rw [List.forall_mem_cons, List.forall_mem_append] at hp
    have hword : ("SEQUENCE", TokenKind.sequence) ∈ keywords := by decide
    obtain ⟨k, qs, ts, hk, hqs, htexts, hlays⟩ := Lays.headed hword hps hp.2.1 offset
    rw [heading, renderParameters_of_ne_nil hps.items_ne_nil]
    exact ⟨_, .sequence hk hqs htexts, hlays⟩
  | array hk hps hf =>
    rw [List.forall_mem_cons, List.forall_mem_append] at hp
    have hword : ("ARRAY", TokenKind.array) ∈ keywords := by decide
    obtain ⟨k, qs, ts, hk, hqs, htexts, hlays⟩ := Lays.headed hword hps hp.2.1 offset
    obtain ⟨q, rfl, -⟩ := List.map_eq_singleton_iff.mp htexts
    exact ⟨_, .array hk hqs, hlays⟩
  | choice hk hps hb =>
    rw [List.forall_mem_cons, List.forall_mem_append] at hp
    have hword : ("CHOICE", TokenKind.choice) ∈ keywords := by decide
    obtain ⟨k, qs, ts, hk, hqs, htexts, hlays⟩ := Lays.headed hword hps hp.2.1 offset
    rw [heading, renderParameters_of_ne_nil hps.items_ne_nil]
    exact ⟨_, .choice hk hqs htexts, hlays⟩

/-- **The heading of a declaration** with members. -/
theorem Declaration.SpelledBy.headed {d : Declaration} {ts : List Token} (h : d.SpelledBy ts)
    (hp : ∀ t ∈ ts, t.Proper) (hsimple : d.body.isSimple = false) (offset : Nat) :
    ∃ ns a us, Name.SpelledBy ⟨d.name.text, offset⟩ ns ∧ a.kind = .assignment ∧
      d.body.HeadedBy us ∧ Lays d.heading offset (ns ++ a :: us) := by
  cases h with
  | @mk x b a us vs hx ha hb =>
    rw [List.forall_mem_append, List.forall_mem_cons] at hp
    obtain ⟨ns, hn, hname⟩ := Lays.name (hx.spells hp.1) offset
    obtain ⟨us, hheaded, hbody⟩ :=
      hb.headed hp.2.2 hsimple (offset + (x.text ++ " ::= ").utf8ByteSize)
    obtain ⟨a, ha, hall⟩ := hname.assigned hbody
    exact ⟨ns, a, us, hn, ha, hheaded, hall⟩

/-! ## First tokens of members -/

theorem Field.SpelledBy.opens {f : Field} {ts : List Token} (h : f.SpelledBy ts)
    (hp : ∀ t ∈ ts, t.Proper) : Opens f.render .identifier f.name.text := by
  cases h with
  | @mk n r _ _ hn hr =>
    rw [List.forall_mem_append] at hp
    refine ⟨hn.spells hp.1, " " ++ r.render, String.append_assoc .., ?_, ?_⟩
    · rw [String.toList_append]
      exact List.cons_ne_nil _ _
    · exact stops_append (by decide) (by decide) _

/-- A width stops the keyword in front of it. -/
theorem SimpleType.render_keyword (t : SimpleType) :
    ∃ front, t.render = t.builtin.keyword ++ front ∧ Stops front.toList := by
  refine ⟨_, rfl, ?_⟩
  cases t.width with
  | none => exact stops_nil
  | some width => exact stops_append (by decide) (by decide) _

/-- What stands behind a name or keyword of a type stops it. -/
theorem Branch.opens_of {kind : TokenKind} {word front : String} {b : Branch}
    (hspells : Spells kind word.toList) (hfront : Stops front.toList)
    (h : b.type.render = word ++ (front ++ b.type.values.elim "" renderValues)) :
    Opens b.render kind word := by
  refine ⟨hspells,
    front ++ b.type.values.elim "" renderValues ++ ("(" ++ b.condition.render ++ ")"), ?_, ?_, ?_⟩
  · rw [Branch.render, h]
    simp only [String.append_assoc]
  · simp
  · have hvalues : Stops (b.type.values.elim "" renderValues).toList := by
      cases b.type.values with
      | none => exact stops_nil
      | some values => exact stops_bracketed _
    have hcondition : Stops ("(" ++ b.condition.render ++ ")").toList := by
      rw [String.append_assoc]
      exact stops_append (by decide) (by decide) _
    rw [String.toList_append, String.toList_append]
    exact (hfront.append hvalues).append hcondition

theorem Branch.SpelledBy.opens {b : Branch} {ts : List Token} (h : b.SpelledBy ts)
    (hp : ∀ t ∈ ts, t.Proper) :
    ∃ kind ∈ Rule.branch.first, ∃ word, Opens b.render kind word := by
  cases h with
  | @mk r c us vs hr hc =>
    rw [List.forall_mem_append] at hp
    cases hr with
    | @builtin t k values us ts ht hv =>
      have hword : t.builtin.word ∈ Rule.branch.first :=
        List.mem_append_left _ t.builtin.word_mem
      obtain ⟨front, hrender, hfront⟩ := t.render_keyword
      refine ⟨_, hword, _, opens_of (spells_keyword t.builtin.keyword_mem) hfront ?_⟩
      rw [Reference.render_eq, ← String.append_assoc, ← hrender]
    | declared hn hv =>
      rw [List.forall_mem_append] at hp
      have hempty : Stops "".toList := stops_nil
      refine ⟨.identifier, by decide, _, opens_of (hn.spells hp.1.1) hempty ?_⟩
      rw [Reference.render_eq, String.empty_append]

/-- **The first token of the first member** of a body that has members. -/
theorem Body.SpelledBy.opens {b : Body} {ts : List Token} (h : b.SpelledBy ts)
    (hp : ∀ t ∈ ts, t.Proper) (hsimple : b.isSimple = false) :
    ∃ member others, b.members = member :: others ∧
      ∃ kind ∈ Rule.branch.first, ∃ word, Opens member kind word := by
  have hfields {fs : List Field} {us : List Token} (hf : Braced Field.SpelledBy fs us)
      (hus : ∀ t ∈ us, t.Proper) : ∃ member others, fs.map (·.render) = member :: others ∧
        ∃ kind ∈ Rule.branch.first, ∃ word, Opens member kind word := by
    cases hf with
    | mk _ hlist _ =>
      cases hlist with
      | @mk f _ vs _ hf _ =>
        have hopens := hf.opens fun t ht => hus t (by simp [ht])
        exact ⟨_, _, List.map_cons .., .identifier, by decide, _, hopens⟩
  cases h with
  | simple ht => exact absurd hsimple.symm Bool.false_ne_true
  | bare _ hf => exact hfields hf (List.forall_mem_cons.mp hp).2
  | sequence _ _ hf | array _ _ hf =>
    rw [List.forall_mem_cons, List.forall_mem_append] at hp
    exact hfields hf hp.2.2
  | choice _ _ hb =>
    rw [List.forall_mem_cons, List.forall_mem_append] at hp
    cases hb with
    | mk _ hlist _ =>
      cases hlist with
      | mk hb _ =>
        obtain ⟨kind, hkind, word, hopens⟩ := hb.opens fun t ht => hp.2.2 t (by simp [ht])
        exact ⟨_, _, List.map_cons .., kind, hkind, word, hopens⟩

/-- The first member of a declaration begins with a token that a type of a member begins with. -/
theorem Declaration.SpelledBy.opens {d : Declaration} {ts : List Token} {member : String}
    {others : List String} (h : d.SpelledBy ts) (hp : ∀ t ∈ ts, t.Proper)
    (hmembers : d.body.members = member :: others) :
    ∃ kind ∈ Rule.branch.first, ∃ word, Opens member kind word := by
  cases h with
  | @mk x b a us vs _ _ hb =>
    rw [List.forall_mem_append, List.forall_mem_cons] at hp
    have hsimple : b.isSimple = false := by
      cases b with
      | simple type => cases hmembers
      | _ => rfl
    obtain ⟨_, _, heq, hopens⟩ := hb.opens hp.2.2 hsimple
    obtain ⟨rfl, -⟩ := List.cons.inj (hmembers.symm.trans heq)
    exact hopens

end RecordSchema
