import VisitorGen.Document.Target
import VisitorGen.Proofs.Hierarchy.Grouping
import VisitorGen.Proofs.Hierarchy.Qualified

/-! The lines of a generated text. A document is a list of lines, its text is cut at line
feeds, and the two agree as long as no line holds a line feed (`parts_text`). For a sound
schema only the texts that are copied as they are could hold one: the field types, the
includes and the name of the header. -/
namespace VisitorGen

/-- The text holds no line feed. -/
def Text.Unbroken (text : String) : Prop := '\n' ∉ text.toList

instance (text : String) : Decidable (Text.Unbroken text) := inferInstanceAs (Decidable (¬ _))

@[simp] theorem Text.unbroken_append {a b : String} :
    Unbroken (a ++ b) ↔ Unbroken a ∧ Unbroken b := by
  simp [Unbroken]

/-- The line begins as no heading of a class does. -/
def Text.Inner (line : String) : Prop :=
  line.toList.head? ≠ some 's' ∧ line.toList.head? ≠ some 'c'

instance (line : String) : Decidable (Text.Inner line) := inferInstanceAs (Decidable (_ ∧ _))

/-- No include and no field type of the schema holds a line feed. -/
structure Schema.Unbroken (s : Schema) : Prop where
  includes : ∀ target ∈ s.includes, Text.Unbroken target
  types : ∀ kind ∈ s.concreteKinds, ∀ f ∈ kind.fields, Text.Unbroken f.type

theorem Name.unbroken {name : String} (h : Name.isIdentifier name = true) :
    Text.Unbroken name := not_mem_of_isIdentifier h rfl

theorem Name.unbroken_parameterName {kind : String} (h : Name.isIdentifier kind = true) :
    Text.Unbroken (parameterName kind) := fun hmem =>
  Bool.false_ne_true (isIdentifierRest_of_mem_parameterName h _ hmem)

namespace Document

/-- An unbroken document is read back line by line, and after its last line feed the
empty line. -/
theorem parts_text {d : Document} (h : ∀ line ∈ d.lines, Text.Unbroken line) :
    Text.parts '\n' d.text = d.lines ++ [""] := by
  obtain ⟨lines⟩ := d
  unfold text
  induction lines with
  | nil => rfl
  | cons line lines ih =>
    have hline : '\n' ∉ line.toList := h line List.mem_cons_self
    have hrest := ih fun l hl => h l (List.mem_cons_of_mem line hl)
    rw [List.map_cons, String.join_cons, Text.parts_append hline rfl, hrest, List.cons_append]

theorem unbroken_includeLine {target : String} (h : Text.Unbroken target) :
    Text.Unbroken (includeLine target) := by
  have hquote : Text.Unbroken "\"" := by decide
  have hinclude : Text.Unbroken "#include " := by decide
  unfold includeLine includeTarget
  split <;> simp [h, hquote, hinclude]

theorem unbroken_parameters {fields : List Field}
    (hnames : ∀ f ∈ fields, Text.Unbroken f.name) (htypes : ∀ f ∈ fields, Text.Unbroken f.type) :
    Text.Unbroken (parameters fields) := by
  intro h
  rcases Text.mem_intercalate h with h | ⟨text, htext, h⟩
  · exact absurd h (by decide)
  · obtain ⟨f, hf, rfl⟩ := List.mem_map.1 htext
    have hspace : Text.Unbroken " " := by decide
    exact Text.unbroken_append.2 ⟨Text.unbroken_append.2 ⟨htypes f hf, hspace⟩, hnames f hf⟩ h

end Document

namespace Schema
open Document

variable {s : Schema}

theorem Sound.unbroken_qualifiedName (h : s.Sound) {name : String}
    (hname : Name.isIdentifier name = true) : Text.Unbroken (s.qualifiedName name) :=
  h.not_mem_qualifiedName hname rfl (by decide)

theorem Sound.unbroken_fields (h : s.Sound) {kind : ConcreteKind}
    (hkind : kind ∈ s.concreteKinds) : ∀ f ∈ kind.fields, Text.Unbroken f.name :=
  fun _ hf => Name.unbroken (h.isIdentifier_field hkind hf)

theorem Sound.isIdentifier_concrete (h : s.Sound) {kind : ConcreteKind}
    (hkind : kind ∈ s.concreteKinds) :
    Name.isIdentifier kind.name = true ∧ Name.isIdentifier kind.parent = true :=
  ⟨h.isIdentifier_name (mem_concreteKinds.1 hkind),
    h.isIdentifier_parent (mem_concreteKinds.1 hkind) rfl⟩

/-! ### Headers -/

theorem Sound.unbroken_abstractBlock (h : s.Sound) {kind : AbstractKind}
    (hkind : kind ∈ s.abstractKinds) : ∀ line ∈ s.abstractBlock kind, Text.Unbroken line := by
  have hid : Name.isIdentifier kind.name = true := h.isIdentifier_name (mem_abstractKinds.1 hkind)
  have hmembers : ∀ e ∈ s.membersOf kind.name, Text.Unbroken e.name := fun e he =>
    Name.unbroken (h.isIdentifier_name (List.mem_of_mem_filter he))
  rw [abstractBlock]
  simp only [List.forall_mem_append, List.forall_mem_cons, List.forall_mem_map,
    Text.unbroken_append, h.unbroken_qualifiedName hid, Name.unbroken hid]
  refine ⟨⟨by decide, fun e he => ?_⟩, by decide⟩
  exact ⟨⟨by decide, hmembers e he⟩, by decide⟩

theorem Sound.unbroken_concreteBlock (h : s.Sound) (hs : s.Unbroken) {kind : ConcreteKind}
    (hkind : kind ∈ s.concreteKinds) : ∀ line ∈ s.concreteBlock kind, Text.Unbroken line := by
  obtain ⟨hname, hparent⟩ := h.isIdentifier_concrete hkind
  have hfields := h.unbroken_fields hkind
  rw [concreteBlock]
  simp only [List.forall_mem_append, List.forall_mem_cons, List.forall_mem_map,
    Text.unbroken_append, h.unbroken_qualifiedName hparent, Name.unbroken hname,
    unbroken_parameters hfields (hs.types kind hkind)]
  refine ⟨⟨by decide, fun f hf => ?_⟩, by decide⟩
  exact ⟨⟨⟨⟨by decide, hs.types kind hkind f hf⟩, by decide⟩, hfields f hf⟩, by decide⟩

theorem Sound.unbroken_visitorBlock (h : s.Sound) {parent : String}
    (hparent : Name.isIdentifier parent = true) :
    ∀ line ∈ s.visitorBlock parent (childrenAmong s.concreteKinds parent), Text.Unbroken line := by
  rw [visitorBlock]
  simp only [List.forall_mem_append, List.forall_mem_cons, List.forall_mem_map,
    Text.unbroken_append, h.unbroken_qualifiedName hparent]
  refine ⟨⟨by decide, fun child hchild => ?_⟩, by decide⟩
  have hname := (h.isIdentifier_concrete (mem_childrenAmong.1 hchild).1).1
  have hparameter := Name.unbroken_parameterName hname
  unfold visitLine
  simp only [Text.unbroken_append, h.unbroken_qualifiedName hparent, Name.unbroken hname,
    hparameter]
  decide

theorem Unbroken.headerIncludes (hs : s.Unbroken) :
    ∀ line ∈ s.headerIncludes, Text.Unbroken line := by
  rw [Schema.headerIncludes]
  split
  · decide
  · simp only [List.forall_mem_append, List.forall_mem_cons, List.forall_mem_map]
    exact ⟨by decide, by decide, fun target htarget =>
      unbroken_includeLine (hs.includes target htarget)⟩

theorem Sound.unbroken_header (h : s.Sound) (hs : s.Unbroken) :
    ∀ line ∈ s.header.lines, Text.Unbroken line := by
  simp only [header, HierarchyIndex.groups_ofSchema, List.forall_mem_append, List.flatMap_map]
  refine ⟨⟨⟨by decide, hs.headerIncludes⟩, fun line hline => ?_⟩, fun line hline => ?_⟩
  · obtain ⟨e, he, hline⟩ := List.mem_flatMap.1 hline
    cases e with
    | ofAbstract kind => exact h.unbroken_abstractBlock (mem_abstractKinds.2 he) line hline
    | ofConcrete kind => exact h.unbroken_concreteBlock hs (mem_concreteKinds.2 he) line hline
  · obtain ⟨parent, hparent, hline⟩ := List.mem_flatMap.1 hline
    obtain ⟨kind, hkind, rfl⟩ := mem_parentsAmong.1 hparent
    exact h.unbroken_visitorBlock (h.isIdentifier_concrete hkind).2 line hline

/-! ### Sources -/

theorem unbroken_initializers {fields : List Field}
    (hnames : ∀ f ∈ fields, Text.Unbroken f.name) : Text.Unbroken (initializers fields) := by
  unfold initializers
  split
  · decide
  · refine Text.unbroken_append.2 ⟨by decide, fun h => ?_⟩
    rcases Text.mem_intercalate h with h | ⟨text, htext, h⟩
    · exact absurd h (by decide)
    · obtain ⟨f, hf, rfl⟩ := List.mem_map.1 htext
      have hmove : Text.Unbroken "\x7bstd::move(" ∧ Text.Unbroken ")\x7d" := by decide
      exact Text.unbroken_append.2 ⟨Text.unbroken_append.2 ⟨Text.unbroken_append.2
        ⟨hnames f hf, hmove.1⟩, hnames f hf⟩, hmove.2⟩ h

theorem Sound.unbroken_bodyBlock (h : s.Sound) {kind : ConcreteKind}
    (hkind : kind ∈ s.concreteKinds) (htypes : ∀ f ∈ kind.fields, Text.Unbroken f.type) :
    ∀ line ∈ s.bodyBlock kind, Text.Unbroken line := by
  obtain ⟨hname, hparent⟩ := h.isIdentifier_concrete hkind
  have hfields := h.unbroken_fields hkind
  rw [bodyBlock]
  simp only [List.forall_mem_cons, constructorLine, acceptLine, Text.unbroken_append,
    h.unbroken_qualifiedName hparent, Name.unbroken hname, unbroken_initializers hfields,
    unbroken_parameters hfields htypes]
  decide

/-- Of the texts that are copied the bodies hold the types alone. -/
theorem Sound.unbroken_bodies_of_types (h : s.Sound)
    (htypes : ∀ kind ∈ s.concreteKinds, ∀ f ∈ kind.fields, Text.Unbroken f.type) :
    ∀ line ∈ s.concreteKinds.flatMap s.bodyBlock, Text.Unbroken line := fun line hline => by
  obtain ⟨kind, hkind, hline⟩ := List.mem_flatMap.1 hline
  exact h.unbroken_bodyBlock hkind (htypes kind hkind) line hline

theorem Sound.unbroken_bodies (h : s.Sound) (hs : s.Unbroken) :
    ∀ line ∈ s.concreteKinds.flatMap s.bodyBlock, Text.Unbroken line :=
  h.unbroken_bodies_of_types hs.types

theorem Sound.unbroken_source_of_types (h : s.Sound)
    (htypes : ∀ kind ∈ s.concreteKinds, ∀ f ∈ kind.fields, Text.Unbroken f.type) {header : String}
    (hheader : Text.Unbroken header) : ∀ line ∈ (s.source header).lines, Text.Unbroken line := by
  simp only [source, List.forall_mem_append, List.forall_mem_cons]
  exact ⟨⟨by decide, by decide, by decide, by decide, unbroken_includeLine hheader, by decide⟩,
    h.unbroken_bodies_of_types htypes⟩

theorem Sound.unbroken_source (h : s.Sound) (hs : s.Unbroken) {header : String}
    (hheader : Text.Unbroken header) : ∀ line ∈ (s.source header).lines, Text.Unbroken line :=
  h.unbroken_source_of_types hs.types hheader

theorem unbroken_trim {text : String} (h : Text.Unbroken text) :
    Text.Unbroken (Text.trim text) := by
  intro hmem
  rw [Text.trim, String.toList_ofList, Text.trimmed, List.mem_reverse] at hmem
  have hrest := List.mem_reverse.1 ((List.dropWhile_sublist Text.isBlank).subset hmem)
  exact h ((List.dropWhile_sublist Text.isBlank).subset hrest)

/-! ### Headings and members

The headings of classes stand at the beginning of their lines. Every other line of a header
begins with another character or is empty. -/

def abstractMembers (s : Schema) (kind : AbstractKind) : List String :=
  ["\x7b", "    class Visitor;"] ++
    (s.membersOf kind.name).map (fun e => "    class " ++ e.name ++ ";") ++
    ["    virtual ~" ++ kind.name ++ "() = default;",
     "    virtual void accept(Visitor& visitor) const = 0;", "\x7d;"]

def concreteMembers (s : Schema) (kind : ConcreteKind) : List String :=
  ["\x7b", "    " ++ kind.name ++ "(" ++ parameters kind.fields ++ ");",
    "    void accept(" ++ s.qualifiedName kind.parent ++ "::Visitor& visitor) const override;"] ++
    kind.fields.map (fun f => "    " ++ f.type ++ " " ++ f.name ++ ";") ++ ["\x7d;"]

def visitorMembers (s : Schema) (parent : String) (children : List ConcreteKind) : List String :=
  ["\x7b", "public:"] ++ children.map (s.visitLine parent)

theorem abstractBlock_eq (kind : AbstractKind) : s.abstractBlock kind =
    ["", ""] ++ ("struct " ++ s.qualifiedName kind.name) :: s.abstractMembers kind := rfl

theorem concreteBlock_eq (kind : ConcreteKind) : s.concreteBlock kind =
    ["", ""] ++ ("struct " ++ s.qualifiedName kind.parent ++ "::" ++ kind.name ++ " : " ++
      s.qualifiedName kind.parent) :: s.concreteMembers kind := rfl

theorem visitorBlock_eq (parent : String) (children : List ConcreteKind) :
    s.visitorBlock parent children = ["", ""] ++
      ("class " ++ s.qualifiedName parent ++ "::Visitor") :: s.visitorMembers parent children ++
        ["\x7d;"] := rfl

theorem inner_abstractMembers (kind : AbstractKind) :
    ∀ line ∈ s.abstractMembers kind, Text.Inner line := by
  simp only [abstractMembers, List.forall_mem_append, List.forall_mem_cons, List.forall_mem_map]
  refine ⟨⟨by decide, fun e _ => ?_⟩, ?_, by decide⟩
  · simp [Text.Inner]
  · simp [Text.Inner]

theorem inner_concreteMembers (kind : ConcreteKind) :
    ∀ line ∈ s.concreteMembers kind, Text.Inner line := by
  simp only [concreteMembers, List.forall_mem_append, List.forall_mem_cons, List.forall_mem_map]
  refine ⟨⟨⟨by decide, ?_, ?_, by simp⟩, fun f _ => ?_⟩, by decide⟩
  · simp [Text.Inner]
  · simp [Text.Inner]
  · simp [Text.Inner]

theorem inner_visitorMembers (parent : String) (children : List ConcreteKind) :
    ∀ line ∈ s.visitorMembers parent children, Text.Inner line := by
  simp only [visitorMembers, List.forall_mem_append, List.forall_mem_cons, List.forall_mem_map]
  refine ⟨by decide, fun child _ => ?_⟩
  unfold visitLine
  simp [Text.Inner]

theorem inner_headerIncludes : ∀ line ∈ provenance ++ s.headerIncludes, Text.Inner line := by
  have hinclude : ∀ target, Text.Inner (includeLine target) := fun target => by
    simp [Text.Inner, includeLine]
  rw [headerIncludes]
  simp only [List.forall_mem_append]
  refine ⟨by decide, by decide, ?_⟩
  split
  · simp
  · simp only [List.forall_mem_cons, List.forall_mem_map]
    exact ⟨by decide, fun target _ => hinclude target⟩

/-! ### Generation -/

theorem generate_declaration (h : s.verify = .ok ()) (header? : Option String) :
    s.generate .declaration header? = .ok s.header := by
  show (s.verify >>= fun _ => pure s.header) = _
  rw [h]
  rfl

theorem generate_definition (h : s.verify = .ok ()) {header : String}
    (hblank : Text.trim header ≠ "") :
    s.generate .definition (some header) = .ok (s.source (Text.trim header)) := by
  have hselect : Target.select .definition (some header) = .ok (.source (Text.trim header)) :=
    if_neg fun hblankText => hblank (Text.isBlankText_iff.1 hblankText)
  rw [generate, hselect]
  show (s.verify >>= fun _ => pure (s.source (Text.trim header))) = _
  rw [h]
  rfl

/-- A sound schema with a kind in a nested scope and a type that holds parentheses. -/
def nestedCall : Schema where
  includes := ["ast/base.hpp"]
  entries :=
    [.ofAbstract (.root "Node"), .ofAbstract (.nested "Expr" "Node"),
     .ofConcrete ⟨"Call", [⟨"callee", "std::function<int(int)>"⟩], "Expr"⟩]

theorem nestedCall_verify : nestedCall.verify = .ok () := rfl

theorem nestedCall_unbroken : nestedCall.Unbroken := ⟨by decide, by decide⟩

end Schema
end VisitorGen
