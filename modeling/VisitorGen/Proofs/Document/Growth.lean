import Mathlib.Data.List.Flatten
import Mathlib.Data.List.Infix
import VisitorGen.Proofs.Document.Lines
import VisitorGen.Proofs.Hierarchy.Ancestors
import VisitorGen.Proofs.Integrity.Rearranged

/-! Growing schemas. A schema grows by entries at its end (`Schema.Begins`). What was sound
stays sound when the last entries are taken away again, since the entries that are left have
their parents before them as ever. The path of a kind is told by the kinds up to
it, so that the growth leaves every path alone; it adds a declaration at the end of a scope, a
block at the end of the entries, a visit at the end of a visitor and a visitor at the end of
the header, and a body at the end of the source. `growth_keeps_documents` is the main result:
growth adds lines and changes none. -/
namespace VisitorGen

/-! ### Texts -/

namespace Document

/-- The lines of a text are those that the lines of the document hold. -/
theorem parts_text_eq (d : Document) :
    Text.parts '\n' d.text = d.lines.flatMap (Text.parts '\n') ++ [""] := by
  obtain ⟨lines⟩ := d
  unfold text
  induction lines with
  | nil => rfl
  | cons line lines ih =>
    rw [List.map_cons, String.join_cons, Text.parts_append_separator rfl, ih, List.flatMap_cons,
      List.append_assoc]

/-- Lines that are kept in order are kept in order in the text. -/
theorem sublist_parts_text {small large : Document} (h : small.lines.Sublist large.lines) :
    (Text.parts '\n' small.text).Sublist (Text.parts '\n' large.text) := by
  rw [parts_text_eq, parts_text_eq]
  exact (h.flatMap _).append_right [""]

/-- A text that goes on after its last line goes on after its last line feed. -/
theorem exists_text_eq {small large : Document} (hne : small.lines ≠ [])
    (h : small.lines <+: large.lines) :
    ∃ body more, small.text = body ++ "\n" ∧ large.text = body ++ "\n" ++ more := by
  obtain ⟨rest, hrest⟩ := h
  obtain ⟨front, last, hlast⟩ := (List.eq_nil_or_concat small.lines).resolve_left hne
  have hsmall : small.text = String.join (front.map (· ++ "\n")) ++ last ++ "\n" := by
    simp [text, hlast, String.join_append, String.append_assoc]
  refine ⟨_, String.join (rest.map (· ++ "\n")), hsmall, ?_⟩
  rw [← hsmall, text, text, ← hrest, List.map_append, String.join_append]

end Document

namespace Schema
open Document

/-- The schema is what the other began with: the entries of the other are its own and then
some more. -/
structure Begins (s t : Schema) : Prop where
  includes : s.includes = t.includes
  entries : s.entries <+: t.entries

namespace Begins

variable {s t : Schema} {e : Entry}

/-! ### Entries -/

theorem mem (h : s.Begins t) (he : e ∈ s.entries) : e ∈ t.entries := h.entries.subset he

theorem prefix_concreteKinds (h : s.Begins t) : s.concreteKinds <+: t.concreteKinds :=
  h.entries.filterMap _

theorem prefix_membersOf (h : s.Begins t) (parent : String) :
    s.membersOf parent <+: t.membersOf parent :=
  h.entries.filter _

/-! ### Soundness -/

/-- A sound schema was sound at every stage of its growth. -/
theorem sound (h : s.Begins t) (ht : t.Sound) : s.Sound := ht.of_prefix h.entries

/-! ### Paths -/

/-- The path of a kind is the same in both. The induction is on the position: the kinds above
stand before it. -/
theorem components_eq (h : s.Begins t) (ht : t.Sound) {kind : AbstractKind}
    (hkind : kind ∈ s.abstractKinds) : s.components kind.name = t.components kind.name := by
  have hs := h.sound ht
  obtain ⟨position, he⟩ := List.mem_iff_getElem?.1 (mem_abstractKinds.1 hkind)
  induction position using Nat.strongRecOn generalizing kind with
  | ind position ih =>
    have hgrown : kind ∈ t.abstractKinds := mem_abstractKinds.2 (h.mem (mem_abstractKinds.1 hkind))
    cases hp : kind.parent? with
    | none => rw [hs.components_root hkind hp, ht.components_root hgrown hp]
    | some p =>
      obtain ⟨parent, hparent, rfl⟩ := hs.exists_earlier_parent he hp
      obtain ⟨above, hlt, hentry⟩ := List.mem_take_iff_getElem.1 hparent
      have habove : s.entries[above]? = some (.ofAbstract parent) :=
        List.getElem?_eq_some_iff.2 ⟨by omega, hentry⟩
      rw [hs.components_nested hkind hp, ht.components_nested hgrown hp,
        ih above (by omega) (mem_abstractKinds.2 (List.mem_of_getElem? habove)) habove]

theorem qualifiedName_abstract (h : s.Begins t) (ht : t.Sound) {kind : AbstractKind}
    (hkind : kind ∈ s.abstractKinds) : s.qualifiedName kind.name = t.qualifiedName kind.name := by
  rw [qualifiedName_eq, qualifiedName_eq, h.components_eq ht hkind]

/-- The scope of a concrete kind stays where it is. -/
theorem qualifiedName_parent (h : s.Begins t) (ht : t.Sound) {kind : ConcreteKind}
    (hkind : kind ∈ s.concreteKinds) :
    s.qualifiedName kind.parent = t.qualifiedName kind.parent := by
  obtain ⟨parent, hparent, hname⟩ := (h.sound ht).exists_parent (mem_concreteKinds.1 hkind) rfl
  exact hname ▸ h.qualifiedName_abstract ht hparent

/-! ### Headers -/

/-- The block of an abstract kind gains the declarations of its new members. -/
theorem sublist_abstractBlock (h : s.Begins t) (ht : t.Sound) {kind : AbstractKind}
    (hkind : kind ∈ s.abstractKinds) : (s.abstractBlock kind).Sublist (t.abstractBlock kind) := by
  rw [abstractBlock, abstractBlock, h.qualifiedName_abstract ht hkind]
  have hmembers := (h.prefix_membersOf kind.name).sublist.map fun e => "    class " ++ e.name ++ ";"
  exact ((List.Sublist.refl _).append hmembers).append (List.Sublist.refl _)

theorem concreteBlock_eq (h : s.Begins t) (ht : t.Sound) {kind : ConcreteKind}
    (hkind : kind ∈ s.concreteKinds) : s.concreteBlock kind = t.concreteBlock kind := by
  rw [concreteBlock, concreteBlock, h.qualifiedName_parent ht hkind]

theorem sublist_entryBlock (h : s.Begins t) (ht : t.Sound) (he : e ∈ s.entries) :
    (s.entryBlock e).Sublist (t.entryBlock e) := by
  cases e with
  | ofAbstract kind => exact h.sublist_abstractBlock ht (mem_abstractKinds.2 he)
  | ofConcrete kind =>
    rw [entryBlock, entryBlock, h.concreteBlock_eq ht (mem_concreteKinds.2 he)]

/-- Parents keep their order, since it is that of their first children. -/
theorem prefix_parentsAmong (h : s.Begins t) :
    parentsAmong s.concreteKinds <+: parentsAmong t.concreteKinds := by
  obtain ⟨more, hmore⟩ := h.prefix_concreteKinds
  rw [← hmore, parentsAmong, parentsAmong, List.map_append, List.eraseDups_append]
  exact List.prefix_append _ _

theorem prefix_childrenAmong (h : s.Begins t) (parent : String) :
    childrenAmong s.concreteKinds parent <+: childrenAmong t.concreteKinds parent :=
  h.prefix_concreteKinds.filter _

/-- The block of a visitor gains the visits of the new children. -/
theorem sublist_visitorBlock (h : s.Begins t) (ht : t.Sound) {parent : String}
    (hparent : parent ∈ parentsAmong s.concreteKinds) :
    (s.visitorBlock parent (childrenAmong s.concreteKinds parent)).Sublist
      (t.visitorBlock parent (childrenAmong t.concreteKinds parent)) := by
  obtain ⟨kind, hkind, rfl⟩ := mem_parentsAmong.1 hparent
  have hscope := h.qualifiedName_parent ht hkind
  have hvisit (child : ConcreteKind) :
      s.visitLine kind.parent child = t.visitLine kind.parent child := by
    unfold visitLine
    rw [hscope]
  rw [visitorBlock, visitorBlock, hscope, funext hvisit]
  have hvisits := (h.prefix_childrenAmong kind.parent).sublist.map (t.visitLine kind.parent)
  exact ((List.Sublist.refl _).append hvisits).append (List.Sublist.refl _)

/-- The header gains lines in four places and loses none. -/
theorem sublist_header (h : s.Begins t) (ht : t.Sound) :
    s.header.lines.Sublist t.header.lines := by
  have hincludes : s.headerIncludes = t.headerIncludes := by
    rw [headerIncludes, headerIncludes, h.includes]
  have hblocks : (s.entries.flatMap s.entryBlock).Sublist (t.entries.flatMap t.entryBlock) :=
    (List.Sublist.flatMap_right _ fun e he => h.sublist_entryBlock ht he).trans
      (h.entries.sublist.flatMap _)
  have hvisitors :
      ((parentsAmong s.concreteKinds).flatMap fun parent =>
        s.visitorBlock parent (childrenAmong s.concreteKinds parent)).Sublist
      ((parentsAmong t.concreteKinds).flatMap fun parent =>
        t.visitorBlock parent (childrenAmong t.concreteKinds parent)) :=
    (List.Sublist.flatMap_right _ fun parent hparent => h.sublist_visitorBlock ht hparent).trans
      (h.prefix_parentsAmong.sublist.flatMap _)
  simp only [header, HierarchyIndex.groups_ofSchema, List.flatMap_map, hincludes]
  exact ((List.Sublist.refl _).append hblocks).append hvisitors

/-! ### Sources -/

theorem bodyBlock_eq (h : s.Begins t) (ht : t.Sound) {kind : ConcreteKind}
    (hkind : kind ∈ s.concreteKinds) : s.bodyBlock kind = t.bodyBlock kind := by
  rw [bodyBlock, bodyBlock, constructorLine, constructorLine, acceptLine, acceptLine,
    h.qualifiedName_parent ht hkind]

/-- The source goes on where it ended. -/
theorem prefix_source (h : s.Begins t) (ht : t.Sound) (header : String) :
    (s.source header).lines <+: (t.source header).lines := by
  have hbodies : s.concreteKinds.flatMap s.bodyBlock = s.concreteKinds.flatMap t.bodyBlock :=
    List.flatMap_congr fun kind hkind => h.bodyBlock_eq ht hkind
  rw [source, source, hbodies]
  exact (List.prefix_append_right_inj _).2 (h.prefix_concreteKinds.flatMap _)

end Begins

/-! ### Generation -/

/-- **Growth keeps the documents.** When entries are appended to a schema and the result is
accepted, the schema was accepted before. Under every header that is not blank the source of
the grown schema begins with the source as it was, and the lines of the header as it was are
lines of the grown header, in the same order. -/
theorem growth_keeps_documents {s t : Schema} (h : t.verify = .ok ())
    (hincludes : s.includes = t.includes) (hentries : s.entries <+: t.entries) :
    s.verify = .ok () ∧
      (∀ header, Text.trim header ≠ "" → ∃ small large body more,
        s.generate .definition (some header) = .ok small ∧
        t.generate .definition (some header) = .ok large ∧
        small.text = body ++ "\n" ∧ large.text = body ++ "\n" ++ more) ∧
      ∀ header?, ∃ small large,
        s.generate .declaration header? = .ok small ∧
        t.generate .declaration header? = .ok large ∧
        (Text.parts '\n' small.text).Sublist (Text.parts '\n' large.text) := by
  have hgrows : s.Begins t := ⟨hincludes, hentries⟩
  have ht := sound_of_verify h
  have hs : s.verify = .ok () := verify_eq_ok_iff.2 (hgrows.sound ht)
  refine ⟨hs, fun header hblank => ?_, fun header? => ?_⟩
  · have hne : (s.source (Text.trim header)).lines ≠ [] := by simp [source, provenance]
    obtain ⟨body, more, hsmall, hlarge⟩ :=
      exists_text_eq hne (hgrows.prefix_source ht (Text.trim header))
    exact ⟨_, _, body, more, generate_definition hs hblank, generate_definition h hblank, hsmall,
      hlarge⟩
  · exact ⟨_, _, generate_declaration hs header?, generate_declaration h header?,
      sublist_parts_text (hgrows.sublist_header ht)⟩

/-- One parent has children on both sides of the cut, another its first child behind it. -/
theorem growth_keeps_documents_siblings :
    let kinds : List Entry :=
      [.ofAbstract (.root "Node"), .ofAbstract (.root "Token"), .ofConcrete ⟨"Call", [], "Node"⟩]
    let more : List Entry :=
      [.ofConcrete ⟨"Word", [⟨"text", "std::string"⟩], "Token"⟩, .ofConcrete ⟨"Unary", [], "Node"⟩]
    (Schema.mk [] (kinds ++ more)).verify = .ok () ∧ (Schema.mk [] kinds).verify = .ok () ∧
      ∃ small large, (Schema.mk [] kinds).generate .declaration none = .ok small ∧
        (Schema.mk [] (kinds ++ more)).generate .declaration none = .ok large ∧
        (Text.parts '\n' small.text).Sublist (Text.parts '\n' large.text) := by
  intro kinds more
  have hverify : (Schema.mk [] (kinds ++ more)).verify = .ok () := rfl
  obtain ⟨hsmall, -, hheaders⟩ := growth_keeps_documents (s := ⟨[], kinds⟩) hverify rfl
    (List.prefix_append kinds more)
  exact ⟨hverify, hsmall, hheaders none⟩

end Schema
end VisitorGen
