import Mathlib.Data.Bool.AllAny
import VisitorGen.Proofs.Json.Heeding
import VisitorGen.Proofs.Schema.RoundTrip

/-! Entries with and without their tag. An entry is read in another way than the struct that it
holds. The struct is made while its text is read; of an entry all members are kept until the text
has come to its end, and only then is the struct made of them. What is read is the same
(`Entry.tagged_read_alike`), in whatever order the members stand, and whether they are complete,
missing, repeated or of the wrong type.

That takes a struct with none but its own members: others are skipped by the one reader and kept
by the other, which may fail on them. A numeral out of range is no such exception, since no struct
keeps a number and so both readers fail. -/
namespace VisitorGen
open Json (Value Decoder Record Tagged Spaced Commas StringWritten MemberWritten ScalarFormed
  Formed)
open Json.Decoder (heeds_string heeds_optional_string heeds_list)

variable {α : Type} {v w : Value} {m n : Nat}

/-! ### What the structs heed -/

/-- The objects in a list of fields hold no members but a name and a type. -/
def FieldsKnown (v : Value) : Prop :=
  ∀ items, v = .array items → ∀ members, .object members ∈ items →
    ∀ member ∈ members, member.1 ∈ ["name", "type"]

theorem Field.heeds (hknown : ∀ members, v = .object members →
    ∀ member ∈ members, member.1 ∈ ["name", "type"]) : decoder.Heeds 1 v := by
  refine Record.heeds_decoder_of_slots Field.faithful ?_ hknown
  simp only [record, List.forall_mem_cons]
  exact ⟨fun v => (heeds_string v).map _, fun v => (heeds_string v).map _, List.forall_mem_nil _⟩

theorem AbstractKind.heeds (hknown : ∀ members, v = .object members →
    ∀ member ∈ members, member.1 ∈ ["name", "parent"]) : decoder.Heeds 1 v := by
  refine Record.heeds_decoder_of_slots AbstractKind.faithful ?_ hknown
  simp only [record, List.forall_mem_cons]
  exact ⟨fun v => (heeds_string v).map _, fun v => (heeds_optional_string v).map _,
    List.forall_mem_nil _⟩

theorem ConcreteKind.heeds
    (hmembers : ∀ members, v = .object members → ∀ member ∈ members,
      member.1 ∈ ["name", "fields", "parent"] ∧ (member.1 = "fields" → FieldsKnown member.2))
    (hitems : ∀ items, v = .array items → ∀ fields, items[1]? = some fields → FieldsKnown fields) :
    decoder.Heeds 3 v := by
  have hslots : ∀ slot ∈ record.slots, ∀ v, (slot.key = "fields" → FieldsKnown v) →
      slot.decoder.Heeds 2 v := by
    have hstring (v : Value) := (heeds_string v).mono (Nat.zero_le 2)
    simp only [record, List.forall_mem_cons]
    refine ⟨fun v _ => (hstring v).map _, fun v hfields => ?_, fun v _ => (hstring v).map _,
      List.forall_mem_nil _⟩
    refine (heeds_list Field.inverts.faithful fun items hv item hitem => ?_).map _
    exact Field.heeds fun members hobject => hfields trivial items hv members (hobject ▸ hitem)
  refine Record.heeds_decoder (fun key v => key = "fields" → FieldsKnown v) ConcreteKind.faithful
    hslots (fun items hv pair hpair hkey => ?_) hmembers
  have hname : "name" ≠ "fields" := by decide
  have hparent : "parent" ≠ "fields" := by decide
  -- Of the items only the second is one of fields.
  rcases items with _ | ⟨name, _ | ⟨fields, more⟩⟩
  · exact absurd hpair List.not_mem_nil
  · obtain rfl := List.mem_singleton.1 hpair
    exact absurd hkey hname
  · rcases List.mem_cons.1 hpair with rfl | hpair
    · exact absurd hkey hname
    rcases List.mem_cons.1 hpair with rfl | hpair
    · exact hitems _ hv fields rfl
    · rw [List.mem_singleton.1 (List.of_mem_zip hpair).1] at hkey
      exact absurd hkey hparent

/-! ### The tag -/

namespace Entry

def Tag.word : Tag → String
  | isAbstract => "abstract"
  | isConcrete => "concrete"

/-- The members of the struct that the tag names. -/
def Tag.members : Tag → List String
  | isAbstract => ["name", "parent"]
  | isConcrete => ["name", "fields", "parent"]

/-- The second value is the first, a struct with none but its own members, with the tag put in:
among the members of an object, or in front of the items of a list. -/
inductive Tagging (tag : Tag) : Value → Value → Prop where
  | object {before after : List (String × Value)}
      (hnames : ∀ member ∈ before ++ after, member.1 ∈ tag.members)
      (hfields : ∀ member ∈ before ++ after, member.1 = "fields" → FieldsKnown member.2) :
      Tagging tag (.object (before ++ after))
        (.object (before ++ ("kind", .string tag.word) :: after))
  | array {items : List Value}
      (hfields : tag = .isConcrete → ∀ fields, items[1]? = some fields → FieldsKnown fields) :
      Tagging tag (.array items) (.array (.string tag.word :: items))

theorem Tagging.convert {tag : Tag} (h : Tagging tag v w) :
    decoder.convert w = tagged.content tag v := by
  have htag : tagged.tag.convert (.string tag.word) = .ok tag := by cases tag <;> rfl
  cases h with
  | array => exact congrArg (· >>= fun tag => tagged.content tag _) htag
  | object hnames =>
    refine Tagged.convert_object _ htag fun member hmember hkey => ?_
    have hname := hnames member hmember
    rw [hkey] at hname
    cases tag <;> simp [Tag.members, tagged] at hname

theorem Tagging.plain {tag : Tag} (h : Tagging tag v w) (hv : v.Plain 3) : w.Plain 3 := by
  cases h with
  | array => exact List.forall_mem_cons.2 ⟨trivial, hv⟩
  | object =>
    obtain ⟨hbefore, hafter⟩ := List.forall_mem_append.1 hv
    exact List.forall_mem_append.2 ⟨hbefore, List.forall_mem_cons.2 ⟨trivial, hafter⟩⟩

/-- The one reading succeeds with a kind if and only if the other succeeds with the entry that the
kind makes. No other entry is read. -/
structure ReadAlike (wrap : α → Entry) (plain : Except Json.ReadError α)
    (tagged : Except Json.ReadError Entry) : Prop where
  iff : ∀ kind, plain = .ok kind ↔ tagged = .ok (wrap kind)
  only : ∀ e, tagged = .ok e → ∃ kind, e = wrap kind

theorem Tagging.readAlike {tag : Tag} {d : Decoder α} {wrap : α → Entry} (h : Tagging tag v w)
    (hcontent : ∀ v, tagged.content tag v = (d.convert v).map wrap)
    (hwrap : Function.Injective wrap) (hd : d.Faithful) (hheeds : d.Heeds 3 v) {a b : String}
    (ha : Spaced (Formed m) a.toList v) (hb : Spaced (Formed n) b.toList w) :
    ReadAlike wrap (d.read a) (decoder.read b) := by
  have hconvert : ∀ e, decoder.convert w = .ok e ↔
      ∃ kind, d.convert v = .ok kind ∧ wrap kind = e := by
    intro e
    rw [h.convert, hcontent, Json.map_eq_ok]
  have hheeds' : decoder.Heeds 3 w := by
    refine ⟨Tagged.thorough_decoder (Json.Decoder.faithful_choice _ _ _)
      (Json.Decoder.strict_choice _ _ _) w, fun e he => ?_⟩
    obtain ⟨kind, hkind, -⟩ := (hconvert e).1 he
    exact h.plain (hheeds.plain kind hkind)
  have hread : ∀ e, decoder.read b = .ok e ↔ ∃ kind, d.read a = .ok kind ∧ wrap kind = e := by
    intro e
    simp only [hheeds'.read_eq_ok_iff inverts.faithful (by decide) hb, hconvert,
      hheeds.read_eq_ok_iff hd (by decide) ha]
  constructor
  · intro kind
    constructor
    · exact fun hkind => (hread _).2 ⟨kind, hkind, rfl⟩
    · intro hentry
      obtain ⟨kind', hkind, heq⟩ := (hread _).1 hentry
      exact hwrap heq ▸ hkind
  · intro e he
    obtain ⟨kind, -, rfl⟩ := (hread e).1 he
    exact ⟨kind, rfl⟩

/-- **The tag changes nothing but the type that is read.** Put into any well-formed text of a
struct with none but its own members, the tag makes an entry of the kind that is read without it,
and where none is read without it no entry is read with it: the one reader meets a missing,
repeated, superfluous or ill-typed member while it goes through the text, the other when it looks
through all that it has kept. -/
theorem tagged_read_alike {a b : String} (ha : Spaced (Formed m) a.toList v)
    (hb : Spaced (Formed n) b.toList w) :
    (Tagging .isAbstract v w →
      ReadAlike .ofAbstract (AbstractKind.decoder.read a) (decoder.read b)) ∧
    (Tagging .isConcrete v w →
      ReadAlike .ofConcrete (ConcreteKind.decoder.read a) (decoder.read b)) := by
  constructor
  · intro h
    have hheeds : AbstractKind.decoder.Heeds 1 v := AbstractKind.heeds fun members hv => by
      cases h with
      | array => cases hv
      | object hnames =>
        cases hv
        exact hnames
    refine h.readAlike (fun v => ?_) (fun _ _ => Entry.ofAbstract.inj)
      AbstractKind.inverts.faithful (hheeds.mono (by decide)) ha hb
    cases hconvert : AbstractKind.decoder.convert v <;> simp only [tagged, hconvert] <;> rfl
  · intro h
    have hheeds : ConcreteKind.decoder.Heeds 3 v := by
      cases h with
      | array hfields =>
        refine ConcreteKind.heeds nofun fun items hv => ?_
        cases hv
        exact hfields rfl
      | object hnames hfields =>
        refine ConcreteKind.heeds (fun members hv member hmember => ?_) nofun
        cases hv
        exact ⟨hnames member hmember, hfields member hmember⟩
    refine h.readAlike (fun v => ?_) (fun _ _ => Entry.ofConcrete.inj)
      ConcreteKind.inverts.faithful hheeds ha hb
    cases hconvert : ConcreteKind.decoder.convert v <;> simp only [tagged, hconvert] <;> rfl

/-- An abstract kind as an object, and a concrete kind as a list. -/
def untaggedTexts : String × String :=
  ("\x7b\"parent\":null, \"name\":\"A\"\x7d",
    "[\"B\",[\x7b\"type\":\"int\",\"name\":\"x\"\x7d],\"A\"]")

/-- The same with their tags. -/
def taggedTexts : String × String :=
  ("\x7b\"parent\":null,\"kind\":\"abstract\", \"name\":\"A\"\x7d",
    "[\"concrete\",\"B\",[\x7b\"type\":\"int\",\"name\":\"x\"\x7d],\"A\"]")

theorem tagged_read_alike_texts :
    decoder.read taggedTexts.1 = .ok (.ofAbstract ⟨"A", none⟩) ∧
      decoder.read taggedTexts.2 = .ok (.ofConcrete ⟨"B", [⟨"x", "int"⟩], "A"⟩) := by
  have hword (s : String)
      (h : s.toList.all (fun c => 0x20 ≤ c.toNat ∧ c ≠ '"' ∧ c ≠ '\\') = true) :
      StringWritten ('"' :: s.toList ++ ['"']) s := .plain (List.all_iff_forall_prop.1 h)
  have hstring {s : String} {text : List Char} (h : StringWritten text s) (depth : Nat) :
      Formed depth text (.string s) := ScalarFormed.formed (.written (.string h)) depth
  -- the object
  have hgap : ∀ c ∈ [' '], Json.isSpace c = true := List.all_eq_true.1 rfl
  have hparent : MemberWritten (Formed 0) _ ("parent", .null) :=
    .named (.bare (hword "parent" rfl)) (.bare (ScalarFormed.written .null))
  have hkind : MemberWritten (Formed 0) _ ("kind", .string "abstract") :=
    .named (.bare (hword "kind" rfl)) (.bare (hstring (hword "abstract" rfl) 0))
  have hname : MemberWritten (Formed 0) _ ("name", .string "A") :=
    .named (@Spaced.around _ _ [' '] _ [] _ hgap nofun (hword "name" rfl))
      (.bare (hstring (hword "A" rfl) 0))
  have hobject : Formed 1 untaggedTexts.1.toList
      (.object ([("parent", .null)] ++ [("name", .string "A")])) :=
    Or.inr (.object (.more hparent (.last hname)))
  have hobject' : Formed 1 taggedTexts.1.toList
      (.object ([("parent", .null)] ++ ("kind", .string "abstract") :: [("name", .string "A")])) :=
    Or.inr (.object (.more hparent (.more hkind (.last hname))))
  -- the list
  have htype : MemberWritten (Formed 0) _ ("type", .string "int") :=
    .named (.bare (hword "type" rfl)) (.bare (hstring (hword "int" rfl) 0))
  have hname' : MemberWritten (Formed 0) _ ("name", .string "x") :=
    .named (.bare (hword "name" rfl)) (.bare (hstring (hword "x" rfl) 0))
  have hfield : Formed 1 _ (.object [("type", .string "int"), ("name", .string "x")]) :=
    Or.inr (.object (.more htype (.last hname')))
  have hfields : Formed 2 _ (.array [.object [("type", .string "int"), ("name", .string "x")]]) :=
    Or.inr (.array (.last (.bare hfield)))
  have hlist : Commas (Spaced (Formed 2)) _ [.string "B", _, .string "A"] :=
    .more (.bare (hstring (hword "B" rfl) 2))
      (.more (.bare hfields) (.last (.bare (hstring (hword "A" rfl) 2))))
  have harray : Formed 3 untaggedTexts.2.toList _ := Or.inr (.array hlist)
  have harray' : Formed 3 taggedTexts.2.toList _ :=
    Or.inr (.array (.more (.bare (hstring (hword "concrete" rfl) 2)) hlist))
  have hknown : FieldsKnown
      (.array [.object [("type", .string "int"), ("name", .string "x")]]) := by
    rintro _ ⟨⟩ members hmembers member hmember
    cases List.mem_singleton.1 hmembers
    simp only [List.mem_cons, List.not_mem_nil, or_false] at hmember
    rcases hmember with rfl | rfl <;> decide
  have habstract := (tagged_read_alike (.bare hobject) (.bare hobject')).1
    (.object (by decide) (by simp))
  have hconcrete := (tagged_read_alike (.bare harray) (.bare harray')).2
    (.array fun _ fields hfields => by cases hfields; exact hknown)
  have hread : (AbstractKind.decoder.read untaggedTexts.1).toOption = some ⟨"A", none⟩ := by decide
  have hread' : (ConcreteKind.decoder.read untaggedTexts.2).toOption =
      some ⟨"B", [⟨"x", "int"⟩], "A"⟩ := by decide
  exact ⟨(habstract.iff _).1 (Json.toOption_eq_some_iff.1 hread),
    (hconcrete.iff _).1 (Json.toOption_eq_some_iff.1 hread')⟩

end Entry
end VisitorGen
