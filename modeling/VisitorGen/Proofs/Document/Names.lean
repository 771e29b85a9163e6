import VisitorGen.Proofs.Document.Lines
import VisitorGen.Proofs.Hierarchy.Namesakes
import VisitorGen.Proofs.Name.Keywords

/-! The names in a generated document. Every line of a document is cut into pieces, of which
some are marked as names: those of the classes and their members, of constructors, of methods
and of parameters, where they are declared and where they are referred to. Taking the marks
away gives the document (`spelled_headerMarks`, `spelled_sourceMarks`), so no name is left out.

All marked names are identifiers. None of them is a keyword exactly when no kind, no field and
no parameter comes out as a keyword that the check of names does not know
(`legal_names_iff`). -/
namespace VisitorGen

/-- A piece of a line: words as they stand, or a name. -/
inductive Piece where
  | text (words : String)
  | name (identifier : String)
deriving DecidableEq, Repr

namespace Piece

def spelling : Piece → String
  | text words => words
  | name identifier => identifier

def name? : Piece → Option String
  | text _ => none
  | name identifier => some identifier

/-- The line without the marks. -/
def spelled (line : List Piece) : String := String.join (line.map spelling)

/-- The names of a marked document, line by line. -/
def names (lines : List (List Piece)) : List String := lines.flatMap (·.filterMap name?)

/-- A line without names. -/
def plain (line : String) : List Piece := [.text line]

/-- Pieced texts one after the other, with words between them. -/
def joined (separator : String) : List (List Piece) → List Piece
  | [] => []
  | [line] => line
  | line :: next :: rest => line ++ .text separator :: joined separator (next :: rest)

variable {line : List Piece} {words : String}

@[simp] theorem spelled_nil : spelled [] = "" := rfl

@[simp] theorem spelled_cons (p : Piece) : spelled (p :: line) = p.spelling ++ spelled line := by
  rw [spelled, List.map_cons, String.join_cons, spelled]

@[simp] theorem spelled_append (more : List Piece) :
    spelled (line ++ more) = spelled line ++ spelled more := by
  rw [spelled, List.map_append, String.join_append, spelled, spelled]

@[simp] theorem spelled_plain : spelled (plain words) = words := by simp [plain, spelling]

theorem map_spelled_plain (lines : List String) : (lines.map plain).map spelled = lines := by
  rw [List.map_map]
  exact List.map_id'' (fun _ => spelled_plain) lines

theorem spelled_joined (separator : String) (lines : List (List Piece)) :
    spelled (joined separator lines) = String.intercalate separator (lines.map spelled) := by
  induction lines with
  | nil => rfl
  | cons line rest ih =>
    cases rest with
    | nil => rw [joined, List.map_singleton, String.intercalate_singleton]
    | cons next rest =>
      rw [joined, spelled_append, spelled_cons, ih, List.map_cons, List.map_cons, List.map_cons,
        String.intercalate_cons_cons, String.append_assoc]
      rfl

/-! ### What holds of every name of a line -/

/-- Every name of the line has the property. -/
def Named (P : String → Prop) (line : List Piece) : Prop := ∀ n ∈ line.filterMap name?, P n

section Named

variable {P : String → Prop}

@[simp] theorem named_nil : Named P [] := fun n hn => by cases hn

@[simp] theorem named_text : Named P (.text words :: line) ↔ Named P line := by
  simp [Named, name?]

@[simp] theorem named_name {n : String} : Named P (.name n :: line) ↔ P n ∧ Named P line := by
  simp [Named, name?]

@[simp] theorem named_append {more : List Piece} :
    Named P (line ++ more) ↔ Named P line ∧ Named P more := by
  simp only [Named, List.filterMap_append, List.forall_mem_append]

@[simp] theorem named_plain : Named P (plain words) := named_text.2 named_nil

theorem named_joined {separator : String} {lines : List (List Piece)}
    (h : ∀ line ∈ lines, Named P line) : Named P (joined separator lines) := by
  induction lines with
  | nil => exact named_nil
  | cons line rest ih =>
    obtain ⟨hline, hrest⟩ := List.forall_mem_cons.1 h
    cases rest with
    | nil => exact hline
    | cons next rest => exact named_append.2 ⟨hline, named_text.2 (ih hrest)⟩

theorem forall_names_iff {lines : List (List Piece)} :
    (∀ n ∈ names lines, P n) ↔ ∀ line ∈ lines, Named P line := by
  simp only [names, List.mem_flatMap, Named]
  exact ⟨fun h line hline n hn => h n ⟨line, hline, hn⟩,
    fun h n ⟨line, hline, hn⟩ => h line hline n hn⟩

end Named

end Piece

namespace Schema
open Document Piece

/-! ### Marked headers -/

/-- The qualified name, with every component marked. -/
def pathMarks (s : Schema) (name : String) : List Piece :=
  joined "::" ((s.components name).map fun c => [.name c])

def parameterMarks (fields : List Field) : List Piece :=
  joined ", " (fields.map fun f => [.text f.type, .text " ", .name f.name])

def abstractMarks (s : Schema) (kind : AbstractKind) : List (List Piece) :=
  [plain "", plain "", .text "struct " :: s.pathMarks kind.name, plain "\x7b",
    [.text "    class ", .name "Visitor", .text ";"]] ++
    (s.membersOf kind.name).map (fun e => [.text "    class ", .name e.name, .text ";"]) ++
    [[.text "    virtual ~", .name kind.name, .text "() = default;"],
     [.text "    virtual void ", .name "accept", .text "(", .name "Visitor", .text "& ",
      .name "visitor", .text ") const = 0;"],
     plain "\x7d;"]

def headingMarks (s : Schema) (kind : ConcreteKind) : List Piece :=
  .text "struct " :: s.pathMarks kind.parent ++ [.text "::", .name kind.name, .text " : "] ++
    s.pathMarks kind.parent

def declarationMarks (kind : ConcreteKind) : List Piece :=
  [.text "    ", .name kind.name, .text "("] ++ parameterMarks kind.fields ++ [.text ");"]

def overrideMarks (s : Schema) (kind : ConcreteKind) : List Piece :=
  [.text "    void ", .name "accept", .text "("] ++ s.pathMarks kind.parent ++
    [.text "::", .name "Visitor", .text "& ", .name "visitor", .text ") const override;"]

def memberMarks (f : Field) : List Piece :=
  [.text "    ", .text f.type, .text " ", .name f.name, .text ";"]

def concreteMarks (s : Schema) (kind : ConcreteKind) : List (List Piece) :=
  [plain "", plain "", s.headingMarks kind, plain "\x7b", declarationMarks kind,
    s.overrideMarks kind] ++ kind.fields.map memberMarks ++ [plain "\x7d;"]

def entryMarks (s : Schema) : Entry → List (List Piece)
  | .ofAbstract kind => s.abstractMarks kind
  | .ofConcrete kind => s.concreteMarks kind

def visitMarks (s : Schema) (parent : String) (child : ConcreteKind) : List Piece :=
  [.text "    virtual void ", .name "visit", .text "(const "] ++ s.pathMarks parent ++
    [.text "::", .name child.name, .text "& ", .name (Name.parameterName child.name),
     .text ") = 0;"]

def visitorMarks (s : Schema) (parent : String) (children : List ConcreteKind) :
    List (List Piece) :=
  [plain "", plain "", .text "class " :: s.pathMarks parent ++ [.text "::", .name "Visitor"],
    plain "\x7b", plain "public:"] ++
    children.map (s.visitMarks parent) ++ [plain "\x7d;"]

def headerMarks (s : Schema) : List (List Piece) :=
  (provenance ++ s.headerIncludes).map plain ++ s.entries.flatMap s.entryMarks ++
    (HierarchyIndex.ofSchema s).groups.flatMap fun (parent, children) =>
      s.visitorMarks parent children

/-! ### Marked sources -/

def initializerMarks (fields : List Field) : List Piece :=
  if fields.isEmpty then []
  else .text " : " :: joined ", " (fields.map fun f =>
    [.name f.name, .text "\x7bstd::move(", .name f.name, .text ")\x7d"])

def constructorMarks (s : Schema) (kind : ConcreteKind) : List Piece :=
  s.pathMarks kind.parent ++
    [.text "::", .name kind.name, .text "::", .name kind.name, .text "("] ++
    parameterMarks kind.fields ++ .text ")" :: initializerMarks kind.fields ++
    [.text " \x7b\x7d"]

def acceptMarks (s : Schema) (kind : ConcreteKind) : List Piece :=
  .text "void " :: s.pathMarks kind.parent ++
    [.text "::", .name kind.name, .text "::", .name "accept", .text "("] ++
    s.pathMarks kind.parent ++
    [.text "::", .name "Visitor", .text "& ", .name "visitor", .text ") const \x7b ",
     .name "visitor", .text ".", .name "visit", .text "(*this); \x7d"]

def bodyMarks (s : Schema) (kind : ConcreteKind) : List (List Piece) :=
  [plain "", plain "", s.constructorMarks kind, s.acceptMarks kind]

def sourceMarks (s : Schema) (header : String) : List (List Piece) :=
  (provenance ++ ["", "#include <optional>", "", includeLine header]).map plain ++
    s.concreteKinds.flatMap s.bodyMarks

/-! ### Taking the marks away -/

variable {s : Schema} {kind : ConcreteKind}

theorem spelled_pathMarks (name : String) : spelled (s.pathMarks name) = s.qualifiedName name := by
  rw [pathMarks, spelled_joined, List.map_map, qualifiedName_eq]
  exact congrArg _ (List.map_id'' (fun c => by simp [spelling]) _)

theorem spelled_parameterMarks (fields : List Field) :
    spelled (parameterMarks fields) = parameters fields := by
  rw [parameterMarks, spelled_joined, List.map_map, parameters]
  exact congrArg _ (List.map_congr_left fun f _ => by simp [spelling, String.append_assoc])

theorem spelled_initializerMarks (fields : List Field) :
    spelled (initializerMarks fields) = initializers fields := by
  unfold initializerMarks initializers
  split
  · rfl
  · rw [spelled_cons, spelled_joined, List.map_map]
    refine congrArg (" : " ++ String.intercalate ", " ·) (List.map_congr_left fun f _ => ?_)
    simp [spelling, String.append_assoc]

theorem spelled_abstractMarks (kind : AbstractKind) :
    (s.abstractMarks kind).map spelled = s.abstractBlock kind := by
  simp [abstractMarks, abstractBlock, spelled_pathMarks, spelling, String.append_assoc]

/-- Words around a name that are written as one. -/
theorem append_around (before name after rest : String) :
    before ++ (name ++ (after ++ rest)) = before ++ name ++ after ++ rest := by
  simp only [String.append_assoc]

theorem spelled_concreteMarks : (s.concreteMarks kind).map spelled = s.concreteBlock kind := by
  have haccept := append_around "    void " "accept" "("
  simp [concreteMarks, headingMarks, declarationMarks, overrideMarks, memberMarks, concreteBlock,
    spelled_pathMarks, spelled_parameterMarks, spelling, String.append_assoc, haccept]

theorem spelled_entryMarks (e : Entry) : (s.entryMarks e).map spelled = s.entryBlock e := by
  cases e with
  | ofAbstract kind => exact s.spelled_abstractMarks kind
  | ofConcrete kind => exact spelled_concreteMarks

theorem spelled_visitMarks (parent : String) :
    spelled (s.visitMarks parent kind) = s.visitLine parent kind := by
  have hvisit := append_around "    virtual void " "visit" "(const "
  unfold visitLine
  simp [visitMarks, spelled_pathMarks, spelling, String.append_assoc, hvisit]

theorem spelled_visitorMarks (parent : String) (children : List ConcreteKind) :
    (s.visitorMarks parent children).map spelled = s.visitorBlock parent children := by
  have hvisits : children.map (spelled ∘ s.visitMarks parent) = children.map (s.visitLine parent) :=
    List.map_congr_left fun child _ => spelled_visitMarks parent
  simp [visitorMarks, visitorBlock, spelled_pathMarks, spelling, String.append_assoc, hvisits]

/-- The marks of the header are marks of the header. -/
theorem spelled_headerMarks (s : Schema) : s.headerMarks.map spelled = s.header.lines := by
  have hentries : ∀ e ∈ s.entries, (s.entryMarks e).map spelled = s.entryBlock e := fun e _ =>
    spelled_entryMarks e
  rw [headerMarks, header, List.map_append, List.map_append, map_spelled_plain, List.map_flatMap,
    List.map_flatMap, List.flatMap_congr hentries]
  exact congrArg _ (List.flatMap_congr fun group _ => spelled_visitorMarks group.1 group.2)

theorem spelled_bodyMarks : (s.bodyMarks kind).map spelled = s.bodyBlock kind := by
  have haccept := append_around "::" "accept" "("
  simp [bodyMarks, bodyBlock, constructorMarks, constructorLine, acceptMarks, acceptLine,
    spelled_pathMarks, spelled_parameterMarks, spelled_initializerMarks, spelling,
    String.append_assoc, haccept]

/-- The marks of the source are marks of the source. -/
theorem spelled_sourceMarks (s : Schema) (header : String) :
    (s.sourceMarks header).map spelled = (s.source header).lines := by
  rw [sourceMarks, source, List.map_append, map_spelled_plain, List.map_flatMap]
  exact congrArg _ (List.flatMap_congr fun kind _ => spelled_bodyMarks)

/-! ### What holds of every name -/

/-- The names that stand in every document, whatever the schema. -/
def fixedNames : List String := Name.memberNames ++ ["visitor"]

/-- The property holds of the names of kinds and fields and of the parameters that visit methods
name after kinds. -/
structure NamesAre (s : Schema) (P : String → Prop) : Prop where
  entries : ∀ e ∈ s.entries, P e.name
  fields : ∀ kind ∈ s.concreteKinds, ∀ f ∈ kind.fields, P f.name
  parameters : ∀ kind ∈ s.concreteKinds, P (Name.parameterName kind.name)

section Names

variable {P : String → Prop}

/-- The components of a path are names of kinds. -/
theorem NamesAre.named_pathMarks (hP : s.NamesAre P) (h : s.Sound) {kind : AbstractKind}
    (hkind : kind ∈ s.abstractKinds) : Named P (s.pathMarks kind.name) := by
  refine named_joined fun line hline => ?_
  obtain ⟨c, hc, rfl⟩ := List.mem_map.1 hline
  obtain ⟨position, he⟩ := List.mem_iff_getElem?.1 (mem_abstractKinds.1 hkind)
  obtain ⟨other, hother, rfl⟩ := h.exists_component he hc
  exact named_name.2 ⟨hP.entries _ (List.mem_of_mem_take hother), named_nil⟩

theorem NamesAre.named_scope (hP : s.NamesAre P) (h : s.Sound) (hkind : kind ∈ s.concreteKinds) :
    Named P (s.pathMarks kind.parent) := by
  obtain ⟨parent, hparent, hname⟩ := h.exists_parent (mem_concreteKinds.1 hkind) rfl
  exact hname ▸ hP.named_pathMarks h hparent

theorem NamesAre.named_parameterMarks (hP : s.NamesAre P) (hkind : kind ∈ s.concreteKinds) :
    Named P (parameterMarks kind.fields) := by
  refine named_joined fun line hline => ?_
  obtain ⟨f, hf, rfl⟩ := List.mem_map.1 hline
  simpa using hP.fields kind hkind f hf

theorem NamesAre.named_initializerMarks (hP : s.NamesAre P) (hkind : kind ∈ s.concreteKinds) :
    Named P (initializerMarks kind.fields) := by
  unfold initializerMarks
  split
  · exact named_nil
  · refine named_text.2 (named_joined fun line hline => ?_)
    obtain ⟨f, hf, rfl⟩ := List.mem_map.1 hline
    simpa using hP.fields kind hkind f hf

theorem named_plain_lines (lines : List String) : ∀ line ∈ lines.map plain, Named P line :=
  List.forall_mem_map.2 fun _ _ => named_plain

theorem NamesAre.named_abstractMarks (hP : s.NamesAre P) (hfixed : ∀ n ∈ fixedNames, P n)
    (h : s.Sound) {kind : AbstractKind} (hkind : kind ∈ s.abstractKinds) :
    ∀ line ∈ s.abstractMarks kind, Named P line := by
  have hmembers : ∀ e ∈ s.membersOf kind.name, P e.name := fun e he =>
    hP.entries e (List.mem_of_mem_filter he)
  have hname : P kind.name := hP.entries _ (mem_abstractKinds.1 hkind)
  have hvisitor : P "Visitor" := hfixed _ (by decide)
  have haccept : P "accept" := hfixed _ (by decide)
  have hparameter : P "visitor" := hfixed _ (by decide)
  simpa [abstractMarks, or_imp, forall_and, hP.named_pathMarks h hkind, hname, hvisitor, haccept,
    hparameter] using hmembers

theorem NamesAre.named_concreteMarks (hP : s.NamesAre P) (hfixed : ∀ n ∈ fixedNames, P n)
    (h : s.Sound) (hkind : kind ∈ s.concreteKinds) :
    ∀ line ∈ s.concreteMarks kind, Named P line := by
  have hname : P kind.name := hP.entries _ (mem_concreteKinds.1 hkind)
  have hvisitor : P "Visitor" := hfixed _ (by decide)
  have haccept : P "accept" := hfixed _ (by decide)
  have hparameter : P "visitor" := hfixed _ (by decide)
  simpa [concreteMarks, headingMarks, declarationMarks, overrideMarks, memberMarks, or_imp,
    forall_and, hP.named_scope h hkind, hP.named_parameterMarks hkind, hname, hvisitor, haccept,
    hparameter] using hP.fields kind hkind

theorem NamesAre.named_visitorMarks (hP : s.NamesAre P) (hfixed : ∀ n ∈ fixedNames, P n)
    (h : s.Sound) {parent : String} (hparent : parent ∈ parentsAmong s.concreteKinds) :
    ∀ line ∈ s.visitorMarks parent (childrenAmong s.concreteKinds parent), Named P line := by
  obtain ⟨kind, hkind, rfl⟩ := mem_parentsAmong.1 hparent
  have hvisitor : P "Visitor" := hfixed _ (by decide)
  have hvisit : P "visit" := hfixed _ (by decide)
  have hchildren : ∀ child ∈ childrenAmong s.concreteKinds kind.parent,
      P child.name ∧ P (Name.parameterName child.name) := fun child hchild => by
    have hmem := (mem_childrenAmong.1 hchild).1
    exact ⟨hP.entries _ (mem_concreteKinds.1 hmem), hP.parameters child hmem⟩
  simpa [visitorMarks, visitMarks, or_imp, forall_and, hP.named_scope h hkind, hvisitor,
    hvisit] using hchildren

/-- The names of a header are those of the schema and the fixed ones. -/
theorem NamesAre.named_headerMarks (hP : s.NamesAre P) (hfixed : ∀ n ∈ fixedNames, P n)
    (h : s.Sound) : ∀ line ∈ s.headerMarks, Named P line := by
  simp only [headerMarks, HierarchyIndex.groups_ofSchema, List.flatMap_map,
    List.forall_mem_append]
  refine ⟨⟨named_plain_lines _, fun line hline => ?_⟩, fun line hline => ?_⟩
  · obtain ⟨e, he, hline⟩ := List.mem_flatMap.1 hline
    cases e with
    | ofAbstract kind => exact hP.named_abstractMarks hfixed h (mem_abstractKinds.2 he) line hline
    | ofConcrete kind => exact hP.named_concreteMarks hfixed h (mem_concreteKinds.2 he) line hline
  · obtain ⟨parent, hparent, hline⟩ := List.mem_flatMap.1 hline
    exact hP.named_visitorMarks hfixed h hparent line hline

theorem NamesAre.named_bodyMarks (hP : s.NamesAre P) (hfixed : ∀ n ∈ fixedNames, P n)
    (h : s.Sound) (hkind : kind ∈ s.concreteKinds) : ∀ line ∈ s.bodyMarks kind, Named P line := by
  have hname : P kind.name := hP.entries _ (mem_concreteKinds.1 hkind)
  have hvisitor : P "Visitor" := hfixed _ (by decide)
  have haccept : P "accept" := hfixed _ (by decide)
  have hvisit : P "visit" := hfixed _ (by decide)
  have hparameter : P "visitor" := hfixed _ (by decide)
  simp [bodyMarks, constructorMarks, acceptMarks, hP.named_scope h hkind,
    hP.named_parameterMarks hkind, hP.named_initializerMarks hkind, hname, hvisitor, haccept,
    hvisit, hparameter]

theorem NamesAre.named_sourceMarks (hP : s.NamesAre P) (hfixed : ∀ n ∈ fixedNames, P n)
    (h : s.Sound) (header : String) : ∀ line ∈ s.sourceMarks header, Named P line := by
  simp only [sourceMarks, List.forall_mem_append]
  refine ⟨named_plain_lines _, fun line hline => ?_⟩
  obtain ⟨kind, hkind, hline⟩ := List.mem_flatMap.1 hline
  exact hP.named_bodyMarks hfixed h hkind line hline

/-- A header holds every name of the schema. -/
theorem namesAre_of_named (hnamed : ∀ line ∈ s.headerMarks, Named P line) : s.NamesAre P := by
  simp only [headerMarks, HierarchyIndex.groups_ofSchema, List.flatMap_map,
    List.forall_mem_append] at hnamed
  obtain ⟨⟨-, hentries⟩, hvisitors⟩ := hnamed
  have hblock : ∀ e ∈ s.entries, ∀ line ∈ s.entryMarks e, Named P line := fun e he line hline =>
    hentries line (List.mem_flatMap.2 ⟨e, he, hline⟩)
  refine ⟨fun e he => ?_, fun kind hkind f hf => ?_, fun kind hkind => ?_⟩
  · cases e with
    | ofAbstract kind =>
      have hdestructor := hblock _ he
        [.text "    virtual ~", .name kind.name, .text "() = default;"]
        (by simp [entryMarks, abstractMarks])
      simpa [Entry.name] using hdestructor
    | ofConcrete kind =>
      have hconstructor := hblock _ he (declarationMarks kind) (by simp [entryMarks, concreteMarks])
      simp only [declarationMarks, named_append, named_text, named_name] at hconstructor
      exact hconstructor.1.1.1
  · have hmember := hblock _ (mem_concreteKinds.1 hkind) (memberMarks f)
      (List.mem_append_left _ (List.mem_append_right _ (List.mem_map_of_mem hf)))
    simpa [memberMarks] using hmember
  · have hchild : kind ∈ childrenAmong s.concreteKinds kind.parent :=
      mem_childrenAmong.2 ⟨hkind, rfl⟩
    have hvisit := hvisitors (s.visitMarks kind.parent kind) (List.mem_flatMap.2
      ⟨kind.parent, mem_parentsAmong.2 ⟨kind, hkind, rfl⟩,
        List.mem_append_left _ (List.mem_append_right _ (List.mem_map_of_mem hchild))⟩)
    simp only [visitMarks, named_append, named_text, named_name] at hvisit
    exact hvisit.2.2.1

/-- Both documents together hold the names of the schema, fixed names and no others. -/
theorem Sound.forall_names_iff (h : s.Sound) (hfixed : ∀ n ∈ fixedNames, P n) (header : String) :
    (∀ n ∈ names (s.headerMarks ++ s.sourceMarks header), P n) ↔ s.NamesAre P := by
  rw [Piece.forall_names_iff, List.forall_mem_append]
  exact ⟨fun hnamed => namesAre_of_named hnamed.1,
    fun hP => ⟨hP.named_headerMarks hfixed h, hP.named_sourceMarks hfixed h header⟩⟩

end Names

/-! ### Legal names -/

theorem Sound.namesAre_isIdentifier (h : s.Sound) :
    s.NamesAre fun n => Name.isIdentifier n = true where
  entries _ he := h.isIdentifier_name he
  fields _ hkind _ hf := h.isIdentifier_field hkind hf
  parameters _ hkind := Name.isIdentifier_parameterName (h.isIdentifier_concrete hkind).1

theorem Sound.not_mem_keywords_name (h : s.Sound) {e : Entry} (he : e ∈ s.entries) :
    e.name ∉ Name.keywords := by
  obtain ⟨position, he⟩ := List.mem_iff_getElem?.1 he
  exact fun hmem => h.not_broken he .unreserved (Or.inr hmem)

theorem Sound.not_mem_keywords_field (h : s.Sound) (hkind : kind ∈ s.concreteKinds) {f : Field}
    (hf : f ∈ kind.fields) : f.name ∉ Name.keywords := by
  obtain ⟨position, hf⟩ := List.mem_iff_getElem?.1 hf
  exact fun hmem => h.not_broken_field hkind hf .unreserved (Or.inr hmem)

/-- No kind and no field is an unlisted keyword, and no concrete kind is one in snake case. -/
structure AvoidsUnlisted (s : Schema) : Prop where
  entries : ∀ e ∈ s.entries, e.name ∉ Name.unlisted
  fields : ∀ kind ∈ s.concreteKinds, ∀ f ∈ kind.fields, f.name ∉ Name.unlisted
  parameters : ∀ kind ∈ s.concreteKinds, Name.snakeCase kind.name ∉ Name.unlisted

theorem Sound.namesAre_legal_iff (h : s.Sound) :
    (s.NamesAre fun n => n ∉ Name.languageKeywords) ↔ s.AvoidsUnlisted := by
  have hentry : ∀ e ∈ s.entries, e.name ∈ Name.languageKeywords ↔ e.name ∈ Name.unlisted :=
    fun e he => Name.mem_languageKeywords_of_not_mem (h.not_mem_keywords_name he)
  have hfield : ∀ kind ∈ s.concreteKinds, ∀ f ∈ kind.fields,
      f.name ∈ Name.languageKeywords ↔ f.name ∈ Name.unlisted := fun kind hkind f hf =>
    Name.mem_languageKeywords_of_not_mem (h.not_mem_keywords_field hkind hf)
  have hparameter (kind : ConcreteKind) : Name.parameterName kind.name ∈ Name.languageKeywords ↔
      Name.snakeCase kind.name ∈ Name.unlisted := Name.parameterName_mem_languageKeywords
  constructor
  · exact fun ⟨hentries, hfields, hparameters⟩ =>
      ⟨fun e he => (hentry e he).not.1 (hentries e he),
        fun kind hkind f hf => (hfield kind hkind f hf).not.1 (hfields kind hkind f hf),
        fun kind hkind => (hparameter kind).not.1 (hparameters kind hkind)⟩
  · exact fun ⟨hentries, hfields, hparameters⟩ =>
      ⟨fun e he => (hentry e he).not.2 (hentries e he),
        fun kind hkind f hf => (hfield kind hkind f hf).not.2 (hfields kind hkind f hf),
        fun kind hkind => (hparameter kind).not.2 (hparameters kind hkind)⟩

/-- **Legal names.** The documents of an accepted schema are their marked pieces, and every
marked name is an identifier. None of them is a keyword exactly when the schema avoids the
keywords that the check of names does not know, also in the snake case of its concrete kinds. -/
theorem legal_names_iff (h : s.verify = .ok ()) {header : String}
    (hblank : Text.trim header ≠ "") (header? : Option String) :
    s.generate .declaration header? = .ok ⟨s.headerMarks.map spelled⟩ ∧
      s.generate .definition (some header) =
        .ok ⟨(s.sourceMarks (Text.trim header)).map spelled⟩ ∧
      (∀ n ∈ names (s.headerMarks ++ s.sourceMarks (Text.trim header)),
        Name.isIdentifier n = true) ∧
      ((∀ n ∈ names (s.headerMarks ++ s.sourceMarks (Text.trim header)),
        n ∉ Name.languageKeywords) ↔ s.AvoidsUnlisted) := by
  have hs := sound_of_verify h
  refine ⟨?_, ?_, ?_, ?_⟩
  · rw [generate_declaration h, spelled_headerMarks]
  · rw [generate_definition h hblank, spelled_sourceMarks]
  · exact (hs.forall_names_iff (by decide) _).2 hs.namesAre_isIdentifier
  · rw [hs.forall_names_iff (by decide), hs.namesAre_legal_iff]

theorem legal_names_nestedCall :
    nestedCall.verify = .ok () ∧ Text.trim "call.hpp" ≠ "" ∧
      ∀ n ∈ names (nestedCall.headerMarks ++ nestedCall.sourceMarks (Text.trim "call.hpp")),
        n ∉ Name.languageKeywords := by
  have hblank : Text.trim "call.hpp" ≠ "" := by decide
  have hclean : nestedCall.AvoidsUnlisted := ⟨by decide, by decide, by decide⟩
  exact ⟨nestedCall_verify, hblank,
    (legal_names_iff nestedCall_verify hblank none).2.2.2.2 hclean⟩

/-- A sound schema with a concrete kind that is a keyword in snake case. -/
def tryStatement : Schema where
  includes := []
  entries := [.ofAbstract (.root "Statement"), .ofConcrete ⟨"Try", [], "Statement"⟩]

/-- A keyword that is not listed passes for a name: the visit of the kind has it for a
parameter, and as the name of a kind it passes every check. -/
theorem tryStatement_names_keyword :
    tryStatement.verify = .ok () ∧
      tryStatement.generate .declaration none = .ok tryStatement.header ∧
      "    virtual void visit(const Statement::Try& try) = 0;" ∈ tryStatement.header.lines ∧
      "try" ∈ names tryStatement.headerMarks ∧ "try" ∈ Name.languageKeywords ∧
      (Schema.mk [] [.ofAbstract (.root "try")]).verify = .ok () :=
  ⟨rfl, rfl, by decide, by decide, by decide, rfl⟩

end Schema
end VisitorGen
