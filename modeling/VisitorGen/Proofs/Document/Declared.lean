import VisitorGen.Proofs.Document.Dispatch
import VisitorGen.Proofs.Hierarchy.Ancestors

/-! Declared before use. A header is compiled from top to bottom: a class may only be defined
in a scope that is defined above it and has declared it, and may only name bases and classes
that are known there. `declared_before_use` says of a sound schema that its header has one
struct for each entry, in schema order (`StructsInOrder`), and that whatever a class of the
header names is known from the classes above it (`Known`). -/
namespace VisitorGen

/-- The head of a class: its path and, behind a colon, its base. -/
structure ClassHead where
  path : String
  base? : Option String
deriving DecidableEq, Repr

namespace Declared
open Dispatch

/-! ### Reading heads and declarations -/

/-- A heading is spelt with words: the path is the second, the base the fourth. -/
def head? (b : Block) : Option ClassHead :=
  match Text.parts ' ' b.heading with
  | [_, path] => some ⟨path, none⟩
  | [_, path, ":", base] => some ⟨path, some base⟩
  | _ => none

/-- The class that a line declares without defining it. -/
def forward? (line : String) : Option String :=
  (Text.within? "    class ".toList ";".toList line.toList).map String.ofList

/-- The block is the struct of this path. -/
def Defines (b : Block) (path : String) : Prop :=
  isStruct b.heading = true ∧ ∃ base?, head? b = some ⟨path, base?⟩

/-- The classes that a block of this head uses: its base and those that its visit methods
take. -/
def used (head : ClassHead) (b : Block) : List String :=
  head.base?.toList ++ b.body.filterMap visited?

/-- The classes above a block define what it uses, every scope of its path and of what it
uses, and its innermost scope declares it. -/
structure Known (above : List Block) (b : Block) (head : ClassHead) : Prop where
  used : ∀ path ∈ used head b, ∃ d ∈ above, Defines d path
  scopes : ∀ path ∈ head.path :: Declared.used head b, ∀ scope rest,
    path = scope ++ "::" ++ rest → ∃ d ∈ above, Defines d scope
  declared : ∀ scope name, ':' ∉ name.toList → head.path = scope ++ "::" ++ name →
    ∃ d ∈ above, Defines d scope ∧ "    class " ++ name ++ ";" ∈ d.body

/-- The structs of a header against the entries of its schema: one for each, in the order of
the entries, each after that of its parent, which declares it once; and an abstract kind
declares its visitor and its members only. -/
structure StructsInOrder (s : Schema) (lines : List String) (structs : List Block) : Prop where
  headings : structs.map (·.heading) = s.entries.map s.heading
  once : ∀ e ∈ s.entries, lines.count (s.heading e) = 1
  parents : ∀ (i : Nat) (e : Entry) (p : String), s.entries[i]? = some e → e.parent? = some p →
    s.classPath e = s.qualifiedName p ++ "::" ++ e.name ∧ ∃ j < i, ∃ b : Block,
      structs[j]? = some b ∧ b.heading = "struct " ++ s.qualifiedName p ∧
      b.body.count ("    class " ++ e.name ++ ";") = 1
  forwards : ∀ (i : Nat) (kind : AbstractKind), s.entries[i]? = some (.ofAbstract kind) →
    ∃ b : Block, structs[i]? = some b ∧
      b.body.filterMap forward? = "Visitor" :: (s.membersOf kind.name).map Entry.name ∧
      ("Visitor" :: (s.membersOf kind.name).map Entry.name).Nodup

variable {s : Schema}

/-! ### Heads -/

theorem parts_heading (h : s.Sound) {e : Entry} (he : e ∈ s.entries) :
    Text.parts ' ' (s.heading e) = "struct" :: s.classPath e ::
      (e.concrete?.elim [] fun kind => [":", s.qualifiedName kind.parent]) := by
  have hword : ' ' ∉ "struct".toList := by decide
  cases e with
  | ofAbstract kind =>
    have hpath := h.not_mem_qualifiedName (h.isIdentifier_name he) (c := ' ') rfl (by decide)
    have hline : s.heading (.ofAbstract kind) = "struct" ++ " " ++ s.qualifiedName kind.name := by
      simp [Schema.heading]
    rw [hline, Text.parts_append hword rfl]
    exact congrArg _ (Text.parts_of_not_mem hpath)
  | ofConcrete kind =>
    have hkind := Schema.mem_concreteKinds.2 he
    have hpath : ' ' ∉ (s.signature kind).path.toList :=
      Signature.not_mem_path h hkind rfl (by decide)
    have hbase := h.not_mem_qualifiedName (h.isIdentifier_concrete hkind).2 (c := ' ') rfl
      (by decide)
    have hline : s.heading (.ofConcrete kind) = "struct" ++ " " ++ ((s.signature kind).path ++
        " " ++ (":" ++ " " ++ s.qualifiedName kind.parent)) := by
      simp [Schema.heading, Schema.signature, ← String.toList_inj]
    rw [hline, Text.parts_append hword rfl, Text.parts_append hpath rfl,
      Text.parts_append (by decide) rfl, Text.parts_of_not_mem hbase]
    rfl

theorem head?_structOf (h : s.Sound) {e : Entry} (he : e ∈ s.entries) :
    head? (s.structOf e) =
      some ⟨s.classPath e, e.concrete?.map fun kind => s.qualifiedName kind.parent⟩ := by
  rw [head?, Schema.structOf, parts_heading h he]
  cases e <;> rfl

theorem head?_visitorOf (h : s.Sound) {parent : String}
    (hparent : Name.isIdentifier parent = true) :
    head? (s.visitorOf parent) = some ⟨s.visitorPath parent, none⟩ := by
  have hname := h.not_mem_qualifiedName hparent (c := ' ') rfl (by decide)
  have hpath : ' ' ∉ (s.visitorPath parent).toList := by simp [Schema.visitorPath, hname]
  have hparts : Text.parts ' ' ("class" ++ " " ++ s.visitorPath parent) =
      ["class", s.visitorPath parent] := by
    rw [Text.parts_append (by decide) rfl, Text.parts_of_not_mem hpath]
  have hline : (s.visitorOf parent).heading = "class" ++ " " ++ s.visitorPath parent := by
    simp [Schema.visitorOf]
  rw [head?, hline, hparts]

/-- The struct of an entry defines its class. -/
theorem defines_structOf (h : s.Sound) {e : Entry} (he : e ∈ s.entries) :
    Defines (s.structOf e) (s.classPath e) :=
  ⟨isStruct_heading e, _, head?_structOf h he⟩

theorem nodup_headings (h : s.Sound) : (s.entries.map s.heading).Nodup := by
  refine List.Nodup.map_on (fun a ha b hb heq => ?_) (List.Nodup.of_map _ h.nodup_classPaths)
  have hparts := congrArg (Text.parts ' ') heq
  rw [parts_heading h ha, parts_heading h hb, List.cons.injEq, List.cons.injEq] at hparts
  exact List.inj_on_of_nodup_map h.nodup_classPaths ha hb hparts.2.1

/-! ### Declarations -/

theorem forward?_eq_some_iff {line name : String} :
    forward? line = some name ↔ line = "    class " ++ name ++ ";" := by
  constructor
  · intro hline
    obtain ⟨inner, hinner, rfl⟩ := Option.map_eq_some_iff.1 hline
    rw [← String.toList_inj, Text.eq_of_within? hinner]
    simp
  · rintro rfl
    rw [forward?, String.toList_append, String.toList_append, Text.within?_append,
      Option.map_some, String.ofList_toList]

theorem forward?_eq_none {line : String} (h : "    class ".toList.isPrefixOf line.toList = false) :
    forward? line = none := by
  rw [forward?, Text.within?_eq_none h]
  rfl

/-- An abstract kind declares its visitor and then its members. -/
theorem filterMap_forward? (kind : AbstractKind) :
    (s.structBody (.ofAbstract kind)).filterMap forward? =
      "Visitor" :: (s.membersOf kind.name).map Entry.name := by
  have hbrace : forward? "\x7b" = none := forward?_eq_none rfl
  have hvisitor : forward? "    class Visitor;" = some "Visitor" := forward?_eq_some_iff.2 rfl
  have hdestructor : forward? ("    virtual ~" ++ kind.name ++ "() = default;") = none :=
    forward?_eq_none (by simp [List.isPrefixOf])
  have haccept : forward? "    virtual void accept(Visitor& visitor) const = 0;" = none :=
    forward?_eq_none rfl
  have hmembers : ((s.membersOf kind.name).map fun e => "    class " ++ e.name ++ ";").filterMap
      forward? = (s.membersOf kind.name).map Entry.name := by
    rw [List.filterMap_map, List.filterMap_eq_map_iff_forall_eq_some]
    exact fun e _ => forward?_eq_some_iff.2 rfl
  simp only [Schema.structBody, List.filterMap_append, List.filterMap_cons, List.filterMap_nil,
    hbrace, hvisitor, hdestructor, haccept, hmembers, List.append_nil]
  rfl

/-- The members of a scope have names of their own, and none is that of the visitor. -/
theorem nodup_members (h : s.Sound) (p : String) :
    ("Visitor" :: (s.membersOf p).map Entry.name).Nodup := by
  refine List.nodup_cons.2 ⟨fun hvisitor => ?_, ?_⟩
  · obtain ⟨e, he, hname⟩ := List.mem_map.1 hvisitor
    obtain ⟨position, he⟩ := List.mem_iff_getElem?.1 (List.mem_of_mem_filter he)
    exact h.not_broken he .unreserved (Or.inl (by rw [hname]; decide))
  · refine List.Pairwise.map _ (fun _ _ hne => hne)
      ((h.pairwise_scope.sublist List.filter_sublist).imp_of_mem ?_)
    intro a b ha hb hne hname
    have hparent : ∀ e ∈ s.membersOf p, e.parent? = some p := fun e he => by
      simpa using (List.mem_filter.1 he).2
    exact hne ⟨(hparent a ha).trans (hparent b hb).symm, hname⟩

/-- The struct of a parent declares each of its members once. -/
theorem count_forward (h : s.Sound) {kind : AbstractKind} {e : Entry} (he : e ∈ s.entries)
    (hp : e.parent? = some kind.name) :
    (s.structBody (.ofAbstract kind)).count ("    class " ++ e.name ++ ";") = 1 := by
  have hmember : e.name ∈ (s.membersOf kind.name).map Entry.name :=
    List.mem_map_of_mem (List.mem_filter.2 ⟨he, by simp [hp]⟩)
  have hcount := List.nodup_iff_count_eq_one.1 (nodup_members h kind.name) e.name
    (List.mem_cons_of_mem _ hmember)
  rw [← filterMap_forward?, List.count_filterMap] at hcount
  rw [← hcount, List.count]
  congr 1
  funext line
  rw [Bool.eq_iff_iff, beq_iff_eq, beq_iff_eq, forward?_eq_some_iff]

/-! ### What is known -/

theorem filterMap_visited?_structBody (h : s.Sound) {e : Entry} (he : e ∈ s.entries) :
    (s.structBody e).filterMap visited? = [] := by
  have hblock := filterMap_visited?_entry h he
  rw [List.filterMap_eq_nil_iff, entryBlock_eq] at hblock
  exact List.filterMap_eq_nil_iff.2 fun line hline => hblock line (by simp [hline])

section Above

variable {above : List Block} {limit : Nat} {b : Block} {head : ClassHead}

/-- The scopes of a class are the structs of entries before it. -/
theorem exists_scope_above (h : s.Sound) (habove : ∀ e ∈ s.entries.take limit, s.structOf e ∈ above)
    {e : Entry} (he : e ∈ s.entries.take limit) {scope rest : String}
    (hscope : s.classPath e = scope ++ "::" ++ rest) : ∃ d ∈ above, Defines d scope := by
  obtain ⟨position, hlt, hget⟩ := List.mem_take_iff_getElem.1 he
  obtain ⟨kind, hkind, rfl⟩ := h.exists_scope (List.getElem?_eq_some_iff.2 ⟨by omega, hget⟩) hscope
  have hearlier := List.take_subset_take_left s.entries (show position ≤ limit by omega) hkind
  exact ⟨_, habove _ hearlier, defines_structOf h (List.mem_of_mem_take hkind)⟩

/-- A block is known when it uses only classes of entries above it and, if its class lies in a
scope, that is the struct of an abstract kind above it which declares the class. -/
theorem known_of_above (h : s.Sound) (habove : ∀ e ∈ s.entries.take limit, s.structOf e ∈ above)
    (hused : ∀ path ∈ used head b, ∃ e ∈ s.entries.take limit, s.classPath e = path)
    (hpath : ':' ∉ head.path.toList ∨ ∃ kind name, .ofAbstract kind ∈ s.entries.take limit ∧
      ':' ∉ name.toList ∧ head.path = s.qualifiedName kind.name ++ "::" ++ name ∧
      "    class " ++ name ++ ";" ∈ s.structBody (.ofAbstract kind)) :
    Known above b head := by
  have hscope : ∀ scope rest, head.path = scope ++ "::" ++ rest → (∃ d ∈ above, Defines d scope) ∧
      (':' ∉ rest.toList → ∃ d ∈ above, Defines d scope ∧ "    class " ++ rest ++ ";" ∈ d.body) := by
    intro scope rest heq
    rcases hpath with hroot | ⟨kind, name, hkind, hname, hnested, hforward⟩
    · exact absurd (by simp [heq]) hroot
    · have hentry := List.mem_of_mem_take hkind
      have hdefines := defines_structOf h hentry
      rcases Schema.scope_of_nested (h.isIdentifier_name hentry) hname (hnested ▸ heq) with
        ⟨rfl, rfl⟩ | ⟨middle, hmiddle, rfl⟩
      · exact ⟨⟨_, habove _ hkind, hdefines⟩, fun _ => ⟨_, habove _ hkind, hdefines, hforward⟩⟩
      · exact ⟨exists_scope_above h habove hkind hmiddle, fun hrest => absurd (by simp) hrest⟩
  refine ⟨fun path hused' => ?_, ?_, fun scope name hname heq => (hscope scope name heq).2 hname⟩
  · obtain ⟨e, he, rfl⟩ := hused path hused'
    exact ⟨_, habove e he, defines_structOf h (List.mem_of_mem_take he)⟩
  · intro path hmem scope rest heq
    rcases List.mem_cons.1 hmem with rfl | hmem
    · exact (hscope scope rest heq).1
    · obtain ⟨e, he, rfl⟩ := hused path hmem
      exact exists_scope_above h habove he heq

/-- What the struct of an entry names is known from those of the entries before it. -/
theorem known_struct (h : s.Sound) {e : Entry} (he : s.entries[limit]? = some e)
    (habove : ∀ d ∈ s.entries.take limit, s.structOf d ∈ above) :
    ∃ head, head? (s.structOf e) = some head ∧ Known above (s.structOf e) head := by
  have hmem := List.mem_of_getElem? he
  have hcolon := Name.not_mem_of_isIdentifier (h.isIdentifier_name hmem) (c := ':') rfl
  refine ⟨_, head?_structOf h hmem, known_of_above h habove (fun path hpath => ?_) ?_⟩
  · have hbody : (s.structOf e).body.filterMap visited? = [] :=
      filterMap_visited?_structBody h hmem
    rw [used, hbody, List.append_nil] at hpath
    cases e with
    | ofAbstract kind => cases hpath
    | ofConcrete kind =>
      obtain rfl : path = s.qualifiedName kind.parent := by simpa [Entry.concrete?] using hpath
      obtain ⟨parent, hparent, hname⟩ := h.exists_earlier_parent he rfl
      exact ⟨_, hparent, congrArg s.qualifiedName hname⟩
  · have hclass := h.classPath_eq hmem
    cases hp : e.parent? with
    | none =>
      rw [hp] at hclass
      exact Or.inl (hclass ▸ hcolon)
    | some p =>
      rw [hp] at hclass
      obtain ⟨parent, hparent, rfl⟩ := h.exists_earlier_parent he hp
      have hforward := count_forward h hmem hp
      exact Or.inr ⟨parent, e.name, hparent, hcolon, hclass,
        List.count_pos_iff.1 (by omega)⟩

/-- What a visitor names is known from the structs of the entries. -/
theorem known_visitor (h : s.Sound) {parent : String}
    (hparent : parent ∈ parentsAmong s.concreteKinds)
    (habove : ∀ e ∈ s.entries, s.structOf e ∈ above) :
    ∃ head, head? (s.visitorOf parent) = some head ∧ Known above (s.visitorOf parent) head := by
  have hall : s.entries.take s.entries.length = s.entries := List.take_length
  rw [← hall] at habove
  refine ⟨_, head?_visitorOf h (isIdentifier_of_mem_parentsAmong h hparent),
    known_of_above h habove (fun path hpath => ?_) (Or.inr ?_)⟩
  · rw [used, Schema.visitorOf, filterMap_visited?_visitorMembers h] at hpath
    obtain ⟨kind, hkind, rfl⟩ := List.mem_map.1 hpath
    rw [hall]
    exact ⟨_, Schema.mem_concreteKinds.1 (mem_childrenAmong.1 hkind).1, rfl⟩
  · obtain ⟨child, hchild, rfl⟩ := mem_parentsAmong.1 hparent
    obtain ⟨kind, hkind, hname⟩ := h.exists_parent (Schema.mem_concreteKinds.1 hchild) rfl
    refine ⟨kind, "Visitor", hall.symm ▸ Schema.mem_abstractKinds.1 hkind, by decide, ?_, ?_⟩
    · rw [hname, String.append_assoc]
      rfl
    · simp [Schema.structBody]

end Above

/-! ### The order of a header -/

/-- The headings among the lines are those of the classes read. -/
theorem filter_isHeading (lines : List String) :
    lines.filter isHeading = (blocks lines).map (·.heading) := by
  induction lines with
  | nil => rfl
  | cons line lines ih =>
    rw [blocks]
    by_cases hline : isHeading line = true
    · rw [List.filter_cons_of_pos hline, if_pos hline, List.map_cons, ih]
    · rw [List.filter_cons_of_neg hline, if_neg hline, ih]

theorem isStruct_visitorOf (parent : String) : isStruct (s.visitorOf parent).heading = false := by
  simp [Schema.visitorOf, isStruct, List.isPrefixOf]

theorem count_heading (h : s.Sound) {e : Entry} (he : e ∈ s.entries) :
    (s.header.lines ++ [""]).count (s.heading e) = 1 := by
  have hheading : isHeading (s.heading e) = true := by rw [isHeading, isStruct_heading]; rfl
  have hvisitors : s.heading e ∉
      ((parentsAmong s.concreteKinds).map s.visitorOf).map (·.heading) := by
    intro hmem
    obtain ⟨b, hb, heq⟩ := List.mem_map.1 hmem
    obtain ⟨parent, -, rfl⟩ := List.mem_map.1 hb
    have hstruct : isStruct (s.visitorOf parent).heading = true := heq ▸ isStruct_heading e
    rw [isStruct_visitorOf] at hstruct
    cases hstruct
  have hentries : ((s.entries.map s.structOf).map (·.heading)).count (s.heading e) = 1 := by
    rw [List.map_map]
    exact List.nodup_iff_count_eq_one.1 (nodup_headings h) _ (List.mem_map_of_mem he)
  rw [← List.count_filter hheading, filter_isHeading, blocks_header, List.map_append,
    List.count_append, hentries, List.count_eq_zero_of_not_mem hvisitors]

theorem structsInOrder (h : s.Sound) :
    StructsInOrder s (s.header.lines ++ [""]) (s.entries.map s.structOf) where
  headings := List.map_map
  once e he := count_heading h he
  parents i e p he hp := by
    obtain ⟨kind, hkind, rfl⟩ := h.exists_earlier_parent he hp
    obtain ⟨j, hj, hget⟩ := List.mem_take_iff_getElem.1 hkind
    have hentry : s.entries[j]? = some (.ofAbstract kind) :=
      List.getElem?_eq_some_iff.2 ⟨by omega, hget⟩
    have hmem := List.mem_of_getElem? he
    have hclass := h.classPath_eq hmem
    rw [hp] at hclass
    refine ⟨hclass, j, by omega, s.structOf (.ofAbstract kind), ?_, rfl, count_forward h hmem hp⟩
    rw [List.getElem?_map, hentry]
    rfl
  forwards i kind he := by
    refine ⟨s.structOf (.ofAbstract kind), ?_, filterMap_forward? kind, nodup_members h kind.name⟩
    rw [List.getElem?_map, he]
    rfl

/-- Wherever a header is cut before a class, what that names is known from the classes above. -/
theorem exists_known (h : s.Sound) {above below : List Block} {b : Block}
    (hcut : s.entries.map s.structOf ++ (parentsAmong s.concreteKinds).map s.visitorOf =
      above ++ b :: below) : ∃ head, head? b = some head ∧ Known above b head := by
  have hvisitor : ∀ visitors, (parentsAmong s.concreteKinds).map s.visitorOf = visitors →
      b ∈ visitors → (∀ e ∈ s.entries, s.structOf e ∈ above) →
        ∃ head, head? b = some head ∧ Known above b head := by
    rintro _ rfl hb habove
    obtain ⟨parent, hparent, rfl⟩ := List.mem_map.1 hb
    exact known_visitor h hparent habove
  rcases List.append_eq_append_iff.1 hcut with ⟨more, rfl, hmore⟩ | ⟨more, hstructs, hmore⟩
  · exact hvisitor _ hmore (by simp) fun e he =>
      List.mem_append_left _ (List.mem_map_of_mem he)
  · match more, hmore with
    | [], hmore =>
      rw [List.append_nil] at hstructs
      exact hvisitor _ hmore.symm List.mem_cons_self fun e he =>
        hstructs ▸ List.mem_map_of_mem he
    | d :: more, hmore =>
      obtain ⟨rfl, -⟩ : b = d ∧ _ := by simpa using hmore
      obtain ⟨before, rest, hentries, rfl, hrest⟩ := List.map_eq_append_iff.1 hstructs
      obtain ⟨e, rest, rfl, rfl, -⟩ := List.map_eq_cons_iff.1 hrest
      have he : s.entries[before.length]? = some e := by simp [hentries]
      refine known_struct h he fun d hd => List.mem_map_of_mem ?_
      rwa [hentries, List.take_left] at hd

/-- The header of a sound schema has one struct for each entry, in schema order and after that
of its parent, and whatever a class of it names is known from the classes above. -/
theorem declared_before_use (hs : s.verify = .ok ()) (hlines : s.Unbroken)
    (header? : Option String) : ∃ declaration structs visitors,
      s.generate .declaration header? = .ok declaration ∧
      blocks (Text.parts '\n' declaration.text) = structs ++ visitors ∧
      (∀ b ∈ visitors, isStruct b.heading = false) ∧
      StructsInOrder s (Text.parts '\n' declaration.text) structs ∧
      ∀ above b below, structs ++ visitors = above ++ b :: below →
        ∃ head, head? b = some head ∧ Known above b head := by
  have h := Schema.sound_of_verify hs
  have hparts := Document.parts_text (h.unbroken_header hlines)
  refine ⟨s.header, _, _, Schema.generate_declaration hs header?, ?_,
    List.forall_mem_map.2 fun parent _ => isStruct_visitorOf parent, ?_,
    fun above b below hcut => exists_known h hcut⟩
  · rw [hparts, blocks_header]
  · rw [hparts]
    exact structsInOrder h

theorem nestedCall_declared_before_use : ∃ declaration structs visitors,
    Schema.nestedCall.generate .declaration none = .ok declaration ∧
    blocks (Text.parts '\n' declaration.text) = structs ++ visitors ∧
    structs.map (·.heading) =
      ["struct Node", "struct Node::Expr", "struct Node::Expr::Call : Node::Expr"] ∧
    ∀ above b below, structs ++ visitors = above ++ b :: below →
      ∃ head, head? b = some head ∧ Known above b head := by
  obtain ⟨declaration, structs, visitors, hdeclaration, hblocks, -, horder, hknown⟩ :=
    declared_before_use Schema.nestedCall_verify Schema.nestedCall_unbroken none
  exact ⟨declaration, structs, visitors, hdeclaration, hblocks, horder.headings, hknown⟩

end Declared
end VisitorGen
