import Mathlib.Data.List.Infix
import VisitorGen.Proofs.Document.Signature

/-! Double dispatch closes. The body of an acceptance hands a node to a visitor, and the
visitor has to have a method that takes it. Here a header is read as a list of classes,
each with the lines of its body, a source as a list of acceptances, and
`dispatch_closes` says of a sound schema which visitors its header has, in which order and
with which methods (`DefinesVisitors`), which acceptances its source has (`DefinesAcceptances`),
and that methods and acceptances answer to each other one to one (`Closed`). -/
namespace VisitorGen

/-- A class of a header: its heading and the lines of its body. -/
structure Block where
  heading : String
  body : List String
deriving DecidableEq, Repr

/-- The class of a visitor: its path and the paths that its methods take. -/
structure VisitorClass where
  path : String
  visited : List String
deriving DecidableEq, Repr

namespace Dispatch

/-! ### Reading classes -/

def isStruct (line : String) : Bool := "struct ".toList.isPrefixOf line.toList

def isClass (line : String) : Bool := "class ".toList.isPrefixOf line.toList

def isHeading (line : String) : Bool := isStruct line || isClass line

/-- The classes that the lines of a header define. A heading stands at the beginning of a
line, and the body goes on to the closing brace there. -/
def blocks : List String → List Block
  | [] => []
  | line :: rest =>
    if isHeading line then ⟨line, rest.takeWhile (· != "\x7d;")⟩ :: blocks rest
    else blocks rest

/-- The path that a visit method takes by constant reference. -/
def visited? (line : String) : Option String := do
  let parameter ← Text.within? "    virtual void visit(const ".toList ") = 0;".toList line.toList
  let (path, _) ← parameter.dropInfix? "& ".toList
  return .ofList path

/-- The visitor that a class is, if it has public visit methods and nothing else. -/
def visitor? (b : Block) : Option VisitorClass := do
  let path ← b.heading.toList.dropPrefix? "class ".toList
  match b.body with
  | "\x7b" :: "public:" :: methods => return ⟨.ofList path, ← methods.mapM visited?⟩
  | _ => none

/-! ### Reading acceptances -/

/-- The class and the visitor of every acceptance that the lines of a source define. -/
def acceptances (lines : List String) : List (String × String) :=
  lines.filterMap fun line => (Signature.acceptance? line).map fun (path, visitor) =>
    (.ofList path, .ofList visitor)

/-- Every acceptance finds its visitor defined once and in it one method that takes its
class, and every method is called by one acceptance. -/
structure Closed (visitors : List VisitorClass) (accepted : List (String × String)) : Prop where
  answered : ∀ a ∈ accepted, (visitors.map (·.path)).count a.2 = 1 ∧
    ∃ v ∈ visitors, v.path = a.2 ∧ v.visited.count a.1 = 1
  called : ∀ v ∈ visitors, ∀ path ∈ v.visited, accepted.count (path, v.path) = 1

end Dispatch

namespace Schema

def visitorPath (s : Schema) (parent : String) : String := s.qualifiedName parent ++ "::Visitor"

/-- A concrete kind accepts the visitor of its parent. -/
def acceptance (s : Schema) (kind : ConcreteKind) : String × String :=
  ((s.signature kind).path, s.visitorPath kind.parent)

/-- The lines of a source up to the inclusion of its header. -/
def opening (header : String) : List String :=
  Document.provenance ++ ["", "#include <optional>", "", Document.includeLine header]

/-- The heading of the struct of an entry. A concrete kind derives from its parent. -/
def heading (s : Schema) : Entry → String
  | .ofAbstract kind => "struct " ++ s.qualifiedName kind.name
  | .ofConcrete kind =>
    "struct " ++ s.qualifiedName kind.parent ++ "::" ++ kind.name ++ " : " ++
      s.qualifiedName kind.parent

/-- The lines between the heading of a struct and its closing brace. -/
def structBody (s : Schema) : Entry → List String
  | .ofAbstract kind =>
    ["\x7b", "    class Visitor;"] ++
      (s.membersOf kind.name).map (fun e => "    class " ++ e.name ++ ";") ++
      ["    virtual ~" ++ kind.name ++ "() = default;",
       "    virtual void accept(Visitor& visitor) const = 0;"]
  | .ofConcrete kind =>
    ["\x7b", "    " ++ kind.name ++ "(" ++ Document.parameters kind.fields ++ ");",
      "    void accept(" ++ s.qualifiedName kind.parent ++ "::Visitor& visitor) const override;"] ++
      kind.fields.map (fun f => "    " ++ f.type ++ " " ++ f.name ++ ";")

def structOf (s : Schema) (e : Entry) : Block := ⟨s.heading e, s.structBody e⟩

def visitorOf (s : Schema) (parent : String) : Block where
  heading := "class " ++ s.visitorPath parent
  body := s.visitorMembers parent (childrenAmong s.concreteKinds parent)

/-- The visitor of an abstract kind takes each of its concrete children. -/
def visitorClass (s : Schema) (parent : String) : VisitorClass where
  path := s.visitorPath parent
  visited := (childrenAmong s.concreteKinds parent).map fun kind => (s.signature kind).path

end Schema

namespace Dispatch
variable {s : Schema} {kind : ConcreteKind} {parent : String}

/-! ### Classes of a header -/

theorem isHeading_inner {line : String} (h : Text.Inner line) : isHeading line = false := by
  cases hline : line.toList with
  | nil => simp [isHeading, isStruct, isClass, hline]
  | cons c cs =>
    obtain ⟨hs, hc⟩ := h
    rw [hline, List.head?_cons, ne_eq, Option.some.injEq] at hs hc
    simp [isHeading, isStruct, isClass, hline, List.isPrefixOf, Ne.symm hs, Ne.symm hc]

theorem blocks_inner {lines : List String} (h : ∀ line ∈ lines, Text.Inner line)
    (rest : List String) : blocks (lines ++ rest) = blocks rest := by
  induction lines with
  | nil => rfl
  | cons line lines ih =>
    rw [List.cons_append, blocks, isHeading_inner (h line List.mem_cons_self)]
    exact ih fun l hl => h l (List.mem_cons_of_mem line hl)

/-- The line begins as those of the body of a class do: with its opening brace, an access label
or an indentation. -/
def IsMember (line : String) : Prop :=
  line.toList.head? = some '\x7b' ∨ line.toList.head? = some 'p' ∨ line.toList.head? = some ' '

instance (line : String) : Decidable (IsMember line) := inferInstanceAs (Decidable (_ ∨ _))

theorem IsMember.inner {line : String} (h : IsMember line) : Text.Inner line := by
  rcases h with h | h | h <;> exact ⟨by rw [h]; decide, by rw [h]; decide⟩

theorem IsMember.ne_closing {line : String} (h : IsMember line) : (line != "\x7d;") = true := by
  refine bne_iff_ne.2 fun heq => ?_
  subst heq
  exact absurd h (by decide)

/-- A class is read with its heading and all lines up to its closing brace. -/
theorem blocks_class {heading : String} {body : List String} (hheading : isHeading heading = true)
    (hbody : ∀ line ∈ body, IsMember line) (rest : List String) :
    blocks (["", ""] ++ heading :: body ++ ["\x7d;"] ++ rest) = ⟨heading, body⟩ :: blocks rest := by
  have hopen : (body ++ (["\x7d;"] ++ rest)).takeWhile (· != "\x7d;") = body := by
    rw [List.takeWhile_append_of_pos fun line hline => (hbody line hline).ne_closing]
    exact List.append_nil _
  rw [List.append_assoc, List.append_assoc, blocks_inner (by decide), List.cons_append, blocks,
    if_pos hheading, hopen, blocks_inner fun line hline => (hbody line hline).inner,
    blocks_inner (by decide)]

theorem entryBlock_eq (e : Entry) :
    s.entryBlock e = ["", ""] ++ s.heading e :: s.structBody e ++ ["\x7d;"] := by
  cases e <;> simp [Schema.entryBlock, Schema.abstractBlock, Schema.concreteBlock, Schema.heading,
    Schema.structBody]

theorem isStruct_heading (e : Entry) : isStruct (s.heading e) = true := by
  cases e <;> simp [isStruct, Schema.heading]

theorem isMember_structBody (e : Entry) : ∀ line ∈ s.structBody e, IsMember line := by
  cases e <;>
    simp [Schema.structBody, IsMember, or_imp, forall_and]

/-- The entries of a schema are read as one struct each. -/
theorem blocks_entries (entries : List Entry) (rest : List String) :
    blocks (entries.flatMap s.entryBlock ++ rest) = entries.map s.structOf ++ blocks rest := by
  induction entries with
  | nil => rfl
  | cons e entries ih =>
    have hheading : isHeading (s.heading e) = true := by rw [isHeading, isStruct_heading]; rfl
    rw [List.flatMap_cons, List.append_assoc, entryBlock_eq,
      blocks_class hheading (isMember_structBody e), ih]
    rfl

theorem visited?_visitLine (h : s.Sound) (hchild : kind ∈ childrenAmong s.concreteKinds parent) :
    visited? (s.visitLine parent kind) = some (s.signature kind).path := by
  obtain ⟨hkind, rfl⟩ := mem_childrenAmong.1 hchild
  have hamp : '&' ∉ (s.signature kind).path.toList :=
    Signature.not_mem_path h hkind rfl (by decide)
  have hline : (s.visitLine kind.parent kind).toList = "    virtual void visit(const ".toList ++
      ((s.signature kind).path.toList ++ "& ".toList ++ (Name.parameterName kind.name).toList) ++
        ") = 0;".toList := by
    unfold Schema.visitLine Schema.signature
    simp only [String.toList_append, List.append_assoc]
  have hsplit : ((s.signature kind).path.toList ++ "& ".toList ++
      (Name.parameterName kind.name).toList).dropInfix? "& ".toList =
        some ((s.signature kind).path.toList, (Name.parameterName kind.name).toList) :=
    Text.dropInfix?_of_not_mem hamp [' '] _
  rw [visited?, hline, Text.within?_append]
  simp only [Option.bind_eq_bind, Option.bind_some, hsplit, String.ofList_toList]
  rfl

theorem isMember_visitorMembers (parent : String) (children : List ConcreteKind) :
    ∀ line ∈ s.visitorMembers parent children, IsMember line := by
  simp only [Schema.visitorMembers, List.forall_mem_append, List.forall_mem_cons,
    List.forall_mem_map]
  refine ⟨by decide, fun child _ => Or.inr (Or.inr ?_)⟩
  unfold Schema.visitLine
  simp

/-- The visitors of parents are read as one class each. -/
theorem blocks_visitors (parents : List String) (rest : List String) :
    blocks (parents.flatMap (fun parent =>
      s.visitorBlock parent (childrenAmong s.concreteKinds parent)) ++ rest) =
        parents.map s.visitorOf ++ blocks rest := by
  induction parents with
  | nil => rfl
  | cons parent parents ih =>
    have hheading : "class " ++ s.qualifiedName parent ++ "::Visitor" =
        "class " ++ s.visitorPath parent := by rw [Schema.visitorPath, String.append_assoc]
    have hclass : isHeading ("class " ++ s.visitorPath parent) = true := by
      simp [isHeading, isStruct, isClass]
    rw [List.flatMap_cons, List.append_assoc, Schema.visitorBlock_eq, hheading,
      blocks_class hclass (isMember_visitorMembers _ _), ih]
    rfl

/-- A header is read as the structs of the entries and then the visitors of the parents, by
first child. -/
theorem blocks_header : blocks (s.header.lines ++ [""]) =
    s.entries.map s.structOf ++ (parentsAmong s.concreteKinds).map s.visitorOf := by
  rw [Schema.header, HierarchyIndex.groups_ofSchema, List.flatMap_map, List.append_assoc,
    List.append_assoc, blocks_inner Schema.inner_headerIncludes, blocks_entries, blocks_visitors]
  exact congrArg _ (List.append_nil _)

theorem visitor?_visitorOf (h : s.Sound) (parent : String) :
    visitor? (s.visitorOf parent) = some (s.visitorClass parent) := by
  have hvisited : ((childrenAmong s.concreteKinds parent).map (s.visitLine parent)).mapM visited? =
      some (s.visitorClass parent).visited :=
    Text.mapM_map_eq_some fun kind hkind => visited?_visitLine h hkind
  rw [visitor?, Schema.visitorOf, String.toList_append, Text.dropPrefix?_append]
  simp only [Schema.visitorMembers, List.cons_append, List.nil_append, Option.bind_eq_bind,
    Option.bind_some, hvisited, String.ofList_toList]
  rfl

theorem exists_blocks_header (h : s.Sound) : ∃ structs classes,
    blocks (s.header.lines ++ [""]) = structs ++ classes ∧
    (∀ b ∈ structs, isStruct b.heading = true) ∧
    classes.mapM visitor? = some ((parentsAmong s.concreteKinds).map s.visitorClass) := by
  exact ⟨_, _, blocks_header, List.forall_mem_map.2 fun e _ => isStruct_heading e,
    Text.mapM_map_eq_some fun parent _ => visitor?_visitorOf h parent⟩

/-! ### Methods of a header -/

theorem visited?_eq_none {line : String}
    (h : "    virtual void visit(const ".toList.isPrefixOf line.toList = false) :
    visited? line = none := by
  rw [visited?, Text.within?_eq_none h]
  rfl

/-- A field is no method, whatever its type holds: its line ends with a name. -/
theorem visited?_field {name : String} (hname : Name.isIdentifier name = true) (type : String) :
    visited? ("    " ++ type ++ " " ++ name ++ ";") = none := by
  refine Option.eq_none_iff_forall_ne_some.2 fun path hsome => ?_
  obtain ⟨inner, hinner, -⟩ := Option.bind_eq_some_iff.1 hsome
  have hmethod : ") = 0;".toList <:+ ("    " ++ type ++ " " ++ name ++ ";").toList :=
    Text.eq_of_within? hinner ▸ List.suffix_append _ _
  have hfield : name.toList ++ [';'] <:+ ("    " ++ type ++ " " ++ name ++ ";").toList := by
    rw [String.toList_append, String.toList_append, List.append_assoc]
    exact List.suffix_append _ _
  rcases List.suffix_or_suffix_of_suffix hmethod hfield with hlong | hshort
  · have hclosing : ')' ∈ name.toList ++ [';'] := hlong.subset List.mem_cons_self
    rw [List.mem_append] at hclosing
    exact hclosing.elim (Name.not_mem_of_isIdentifier hname rfl) (by decide)
  · have htails : ∀ tail ∈ ") = 0;".toList.tails,
        Name.isIdentifierChars tail.dropLast = false := by decide
    have hnot := htails _ ((List.mem_tails _ _).2 hshort)
    rw [List.dropLast_concat] at hnot
    exact Bool.false_ne_true (hnot.symm.trans hname)

/-- The name of a constructor is followed by a parenthesis, so that its line does not begin with
a word that is followed by a space, not even when the kind has the name of a keyword. -/
theorem isPrefixOf_declaredConstructor {name : String} (hname : Name.isIdentifier name = true)
    (parameters : String) {word : List Char} (hword : ' ' ∈ word ∧ '(' ∉ word) (more : List Char) :
    ("    ".toList ++ (word ++ more)).isPrefixOf
      ("    " ++ name ++ "(" ++ parameters ++ ");").toList = false := by
  have hspace : ' ' ∉ name.toList ++ ['('] := by
    rw [List.mem_append, not_or]
    exact ⟨Name.not_mem_of_isIdentifier hname rfl, by decide⟩
  have hline : ("    " ++ name ++ "(" ++ parameters ++ ");").toList =
      "    ".toList ++ (name.toList ++ ['('] ++ (parameters.toList ++ ");".toList)) := by
    simp only [String.toList_append, List.append_assoc]
    rfl
  rw [Bool.eq_false_iff, ne_eq, List.isPrefixOf_iff_prefix, hline, List.prefix_append_right_inj]
  exact fun hstart => Text.not_prefix_of_mem hword.1 hspace hword.2 _
    ((List.prefix_append word more).trans hstart)

theorem visited?_constructor {name : String} (hname : Name.isIdentifier name = true)
    (parameters : String) : visited? ("    " ++ name ++ "(" ++ parameters ++ ");") = none := by
  have hword : ' ' ∈ "virtual void".toList ∧ '(' ∉ "virtual void".toList := by decide
  exact visited?_eq_none
    (isPrefixOf_declaredConstructor hname parameters hword " visit(const ".toList)

theorem filterMap_visited?_entry (h : s.Sound) {e : Entry} (he : e ∈ s.entries) :
    (s.entryBlock e).filterMap visited? = [] := by
  have hempty : visited? "" = none := visited?_eq_none rfl
  rw [List.filterMap_eq_nil_iff]
  cases e with
  | ofAbstract kind =>
    simp only [Schema.entryBlock, Schema.abstractBlock_eq, Schema.abstractMembers,
      List.forall_mem_append, List.forall_mem_cons, List.forall_mem_map]
    refine ⟨⟨hempty, hempty, by simp⟩, visited?_eq_none ?_,
      ⟨⟨visited?_eq_none rfl, visited?_eq_none rfl, by simp⟩, fun e _ => visited?_eq_none ?_⟩,
      visited?_eq_none ?_, visited?_eq_none rfl, visited?_eq_none rfl, by simp⟩
    · simp [List.isPrefixOf]
    · simp [List.isPrefixOf]
    · simp [List.isPrefixOf]
  | ofConcrete kind =>
    have hkind := Schema.mem_concreteKinds.2 he
    simp only [Schema.entryBlock, Schema.concreteBlock_eq, Schema.concreteMembers,
      List.forall_mem_append, List.forall_mem_cons, List.forall_mem_map]
    refine ⟨⟨hempty, hempty, by simp⟩, visited?_eq_none ?_, ⟨⟨visited?_eq_none rfl,
      visited?_constructor (h.isIdentifier_name he) _, visited?_eq_none ?_, by simp⟩,
      fun f hf => visited?_field (h.isIdentifier_field hkind hf) _⟩, visited?_eq_none rfl, by simp⟩
    · simp [List.isPrefixOf]
    · simp [List.isPrefixOf]

theorem filterMap_visited?_visitorMembers (h : s.Sound) (parent : String) :
    (s.visitorMembers parent (childrenAmong s.concreteKinds parent)).filterMap visited? =
      (s.visitorClass parent).visited := by
  have hbrace : visited? "\x7b" = none := visited?_eq_none rfl
  have hpublic : visited? "public:" = none := visited?_eq_none rfl
  have hmethods : ((childrenAmong s.concreteKinds parent).map (s.visitLine parent)).filterMap
      visited? = (s.visitorClass parent).visited := by
    rw [List.filterMap_map, Schema.visitorClass, List.filterMap_eq_map_iff_forall_eq_some]
    exact fun kind hkind => visited?_visitLine h hkind
  rw [Schema.visitorMembers, List.filterMap_append, hmethods]
  simp only [List.filterMap_cons, List.filterMap_nil, hbrace, hpublic, List.nil_append]

theorem filterMap_visited?_visitor (h : s.Sound) (parent : String) :
    (s.visitorBlock parent (childrenAmong s.concreteKinds parent)).filterMap visited? =
      (s.visitorClass parent).visited := by
  have hempty : visited? "" = none := visited?_eq_none rfl
  have hclosing : visited? "\x7d;" = none := visited?_eq_none rfl
  have hhead : visited? ("class " ++ s.qualifiedName parent ++ "::Visitor") = none :=
    visited?_eq_none (by simp [List.isPrefixOf])
  rw [Schema.visitorBlock_eq]
  simp only [List.filterMap_append, List.filterMap_cons, List.filterMap_nil, hempty, hhead,
    hclosing, filterMap_visited?_visitorMembers h, List.nil_append, List.append_nil]

theorem filterMap_visited?_includes :
    (Document.provenance ++ s.headerIncludes).filterMap visited? = [] := by
  rw [List.filterMap_eq_nil_iff]
  intro line hline
  apply visited?_eq_none
  revert line
  rw [Schema.headerIncludes]
  simp only [List.forall_mem_append]
  refine ⟨by decide, by decide, ?_⟩
  split
  · simp
  · simp only [List.forall_mem_cons, List.forall_mem_map]
    exact ⟨by decide, fun target _ => by simp [Document.includeLine, List.isPrefixOf]⟩

/-- The methods of a header are those of its visitors. -/
theorem filterMap_visited?_header (h : s.Sound) :
    (s.header.lines ++ [""]).filterMap visited? =
      ((parentsAmong s.concreteKinds).map s.visitorClass).flatMap (·.visited) := by
  have hentries : (s.entries.flatMap s.entryBlock).filterMap visited? = [] := by
    rw [List.filterMap_flatMap, List.flatMap_eq_nil_iff]
    exact fun e he => filterMap_visited?_entry h he
  have hlast : [""].filterMap visited? = [] := by
    rw [List.filterMap_cons, visited?_eq_none rfl]
    rfl
  rw [Schema.header, HierarchyIndex.groups_ofSchema, List.flatMap_map, List.filterMap_append,
    List.filterMap_append, List.filterMap_append, filterMap_visited?_includes, hentries, hlast,
    List.filterMap_flatMap, List.flatMap_map]
  simp only [filterMap_visited?_visitor h, List.nil_append, List.append_nil]

/-! ### Acceptances of a source -/

theorem acceptance?_eq_none {line : String} (h : "void ".toList.isPrefixOf line.toList = false) :
    Signature.acceptance? line = none := by
  rw [Signature.acceptance?, Text.within?_eq_none h]
  rfl

theorem acceptances_append (lines rest : List String) :
    acceptances (lines ++ rest) = acceptances lines ++ acceptances rest := List.filterMap_append

/-- The body of a concrete kind defines its acceptance. -/
theorem acceptances_bodyBlock (h : s.Sound) (hkind : kind ∈ s.concreteKinds) :
    acceptances (s.bodyBlock kind) = [s.acceptance kind] := by
  have hempty : Signature.acceptance? "" = none := acceptance?_eq_none rfl
  have hconstructor : Signature.acceptance? (s.constructorLine kind) = none :=
    acceptance?_eq_none (Signature.isPrefixOf_constructorLine h hkind (by decide) (by decide))
  simp only [acceptances, Schema.bodyBlock, List.filterMap_cons, List.filterMap_nil, hempty,
    hconstructor, Signature.acceptance?_eq h hkind, Option.map_none, Option.map_some,
    String.ofList_toList]
  rfl

/-- The bodies define one acceptance for each concrete kind, in schema order. -/
theorem acceptances_bodies (h : s.Sound) {kinds : List ConcreteKind}
    (hkinds : kinds ⊆ s.concreteKinds) :
    acceptances (kinds.flatMap s.bodyBlock ++ [""]) =
      kinds.map s.acceptance := by
  induction kinds with
  | nil => exact List.filterMap_eq_nil_iff.2 (by simp [acceptance?_eq_none])
  | cons kind kinds ih =>
    obtain ⟨hkind, htail⟩ := List.cons_subset.1 hkinds
    rw [List.flatMap_cons, List.append_assoc, acceptances_append, acceptances_bodyBlock h hkind,
      ih htail]
    rfl

theorem acceptances_opening (header : String) : acceptances (Schema.opening header) = [] := by
  rw [acceptances, List.filterMap_eq_nil_iff]
  intro line hline
  rw [Option.map_eq_none_iff]
  apply acceptance?_eq_none
  revert line
  simp only [Schema.opening, List.forall_mem_append, List.forall_mem_cons]
  refine ⟨by decide, rfl, rfl, rfl, ?_, by simp⟩
  simp [Document.includeLine, List.isPrefixOf]

theorem lines_source (header : String) :
    (s.source header).lines = Schema.opening header ++ s.concreteKinds.flatMap s.bodyBlock := rfl

/-- The text of a source is the text of its opening and that of its bodies. -/
theorem text_source (header : String) : (s.source header).text =
    (Document.mk (Schema.opening header)).text ++
      (Document.mk (s.concreteKinds.flatMap s.bodyBlock)).text := by
  rw [Document.text, lines_source, List.map_append, String.join_append]
  rfl

/-! ### Dispatch -/

theorem visitorPath_injective {a b : String} (ha : Name.isIdentifier a = true)
    (hb : Name.isIdentifier b = true) (heq : s.visitorPath a = s.visitorPath b) : a = b :=
  Schema.qualifiedName_injective ha hb ((String.append_left_inj "::Visitor").1 heq)

theorem isIdentifier_of_mem_parentsAmong (h : s.Sound)
    (hparent : parent ∈ parentsAmong s.concreteKinds) : Name.isIdentifier parent = true := by
  obtain ⟨kind, hkind, rfl⟩ := mem_parentsAmong.1 hparent
  exact (h.isIdentifier_concrete hkind).2

theorem nodup_visitorPaths (h : s.Sound) :
    (((parentsAmong s.concreteKinds).map s.visitorClass).map VisitorClass.path).Nodup := by
  rw [List.map_map]
  exact List.Nodup.map_on (fun a ha b hb heq => visitorPath_injective
    (isIdentifier_of_mem_parentsAmong h ha) (isIdentifier_of_mem_parentsAmong h hb) heq)
    (nodup_parentsAmong s.concreteKinds)

/-- An abstract kind has a visitor when it has a concrete child. -/
theorem mem_visitorPaths (h : s.Sound) {name : String} (hname : Name.isIdentifier name = true) :
    s.visitorPath name ∈
        ((parentsAmong s.concreteKinds).map s.visitorClass).map VisitorClass.path ↔
      ∃ child ∈ s.concreteKinds, child.parent = name := by
  rw [List.map_map, List.mem_map, ← mem_parentsAmong]
  constructor
  · rintro ⟨parent, hparent, heq⟩
    exact visitorPath_injective (isIdentifier_of_mem_parentsAmong h hparent) hname heq ▸ hparent
  · exact fun hparent => ⟨name, hparent, rfl⟩

theorem nodup_visited (h : s.Sound) (parent : String) : (s.visitorClass parent).visited.Nodup := by
  have hkinds : s.concreteKinds.Nodup := List.Nodup.of_map _ h.nodup_concreteKinds
  refine List.Nodup.map_on (fun a ha b hb hpath => ?_) (hkinds.filter _)
  exact Signature.path_injective h (mem_childrenAmong.1 ha).1 (mem_childrenAmong.1 hb).1 hpath

theorem nodup_acceptances (h : s.Sound) : (s.concreteKinds.map s.acceptance).Nodup := by
  have hpaths := Signature.nodup_paths h
  apply List.Nodup.of_map Prod.fst
  rw [List.map_map] at hpaths ⊢
  exact hpaths

theorem closed (h : s.Sound) :
    Closed ((parentsAmong s.concreteKinds).map s.visitorClass)
      (s.concreteKinds.map s.acceptance) := by
  refine ⟨fun a ha => ?_, fun v hv path hpath => ?_⟩
  · obtain ⟨kind, hkind, rfl⟩ := List.mem_map.1 ha
    have hvisitor :
        s.visitorClass kind.parent ∈ (parentsAmong s.concreteKinds).map s.visitorClass :=
      List.mem_map_of_mem (mem_parentsAmong.2 ⟨kind, hkind, rfl⟩)
    have hvisited : (s.signature kind).path ∈ (s.visitorClass kind.parent).visited :=
      List.mem_map_of_mem (mem_childrenAmong.2 ⟨hkind, rfl⟩)
    refine ⟨?_, _, hvisitor, rfl, ?_⟩
    · exact List.nodup_iff_count_eq_one.1 (nodup_visitorPaths h) _ (List.mem_map_of_mem hvisitor)
    · exact List.nodup_iff_count_eq_one.1 (nodup_visited h _) _ hvisited
  · obtain ⟨parent, -, rfl⟩ := List.mem_map.1 hv
    obtain ⟨kind, hkind, rfl⟩ := List.mem_map.1 hpath
    obtain ⟨hmem, rfl⟩ := mem_childrenAmong.1 hkind
    exact List.nodup_iff_count_eq_one.1 (nodup_acceptances h) _ (List.mem_map_of_mem hmem)

/-- What the lines of a header owe: the classes of these visitors, and no other methods. -/
structure DefinesVisitors (s : Schema) (lines : List String) (visitors : List VisitorClass) :
    Prop where
  /-- All classes are structs or, after all structs, visitors. -/
  afterStructs : ∃ structs classes, blocks lines = structs ++ classes ∧
    (∀ b ∈ structs, isStruct b.heading = true) ∧ classes.mapM visitor? = some visitors
  byFirstChild : visitors = (parentsAmong s.concreteKinds).map s.visitorClass
  ofAbstract : ∀ v ∈ visitors, ∃ kind ∈ s.abstractKinds, v.path = s.visitorPath kind.name
  /-- An abstract kind has one visitor if it has a concrete child, and else none. -/
  count : ∀ kind ∈ s.abstractKinds, (visitors.map (·.path)).count (s.visitorPath kind.name) =
    if ∃ child ∈ s.concreteKinds, child.parent = kind.name then 1 else 0
  methods : lines.filterMap visited? = visitors.flatMap (·.visited)

/-- What the text of a source owes: these acceptances. They are read after its opening, and where
the header has no line end there are no others in the whole text. -/
structure DefinesAcceptances (s : Schema) (header text : String)
    (accepted : List (String × String)) : Prop where
  afterOpening : ∃ bodies, text = (Document.mk (Schema.opening (Text.trim header))).text ++ bodies ∧
    acceptances (Text.parts '\n' bodies) = accepted
  whole : Text.Unbroken header → acceptances (Text.parts '\n' text) = accepted
  bySchema : accepted = s.concreteKinds.map s.acceptance

theorem definesVisitors_header (h : s.Sound) (hlines : s.Unbroken) :
    DefinesVisitors s (Text.parts '\n' s.header.text)
      ((parentsAmong s.concreteKinds).map s.visitorClass) where
  afterStructs := by
    obtain ⟨structs, classes, hblocks, hstructs, hclasses⟩ := exists_blocks_header h
    rw [Document.parts_text (h.unbroken_header hlines)]
    exact ⟨structs, classes, hblocks, hstructs, hclasses⟩
  byFirstChild := rfl
  ofAbstract v hv := by
    obtain ⟨parent, hparent, rfl⟩ := List.mem_map.1 hv
    obtain ⟨child, hchild, rfl⟩ := mem_parentsAmong.1 hparent
    obtain ⟨kind, hkind, hname⟩ := h.exists_parent (Schema.mem_concreteKinds.1 hchild) rfl
    exact ⟨kind, hkind, congrArg s.visitorPath hname.symm⟩
  count kind hkind := by
    have hname := h.isIdentifier_name (Schema.mem_abstractKinds.1 hkind)
    rw [(nodup_visitorPaths h).count]
    exact if_congr (mem_visitorPaths h hname) rfl rfl
  methods := by rw [Document.parts_text (h.unbroken_header hlines), filterMap_visited?_header h]

theorem definesAcceptances_source (h : s.Sound) (hlines : s.Unbroken) (header : String) :
    DefinesAcceptances s header (s.source (Text.trim header)).text
      (s.concreteKinds.map s.acceptance) := by
  have hbodies := acceptances_bodies h (List.Subset.refl s.concreteKinds)
  refine ⟨⟨_, text_source _, ?_⟩, fun hheader => ?_, rfl⟩
  · rw [Document.parts_text (d := ⟨s.concreteKinds.flatMap s.bodyBlock⟩)
      (h.unbroken_bodies hlines), hbodies]
  · rw [Document.parts_text (h.unbroken_source hlines (Schema.unbroken_trim hheader)), ← hbodies]
    show acceptances (Schema.opening _ ++ _ ++ [""]) = _
    rw [List.append_assoc, acceptances_append, acceptances_opening, List.nil_append]

/-- **Dispatch closes.** The header of a sound schema has a visitor for each abstract kind with
concrete children and no other, and the visitors and the acceptances of its source answer to each
other. The acceptances are those that stand after the opening of the source: a header with a line
end is written as it is, and may itself hold a line that looks like an acceptance. -/
theorem dispatch_closes (hs : s.verify = .ok ()) (hlines : s.Unbroken) (header? : Option String) :
    ∃ declaration visitors, s.generate .declaration header? = .ok declaration ∧
      DefinesVisitors s (Text.parts '\n' declaration.text) visitors ∧
      ∀ header, Text.trim header ≠ "" → ∃ definition accepted,
        s.generate .definition (some header) = .ok definition ∧
        DefinesAcceptances s header definition.text accepted ∧ Closed visitors accepted := by
  have h := Schema.sound_of_verify hs
  exact ⟨s.header, _, Schema.generate_declaration hs header?, definesVisitors_header h hlines,
    fun header hblank => ⟨s.source (Text.trim header), _, Schema.generate_definition hs hblank,
      definesAcceptances_source h hlines header, closed h⟩⟩

theorem nestedCall_dispatch_closes : ∃ declaration definition,
    Schema.nestedCall.generate .declaration none = .ok declaration ∧
    Schema.nestedCall.generate .definition (some "ast.hpp") = .ok definition ∧
    (Text.parts '\n' declaration.text).filterMap visited? = ["Node::Expr::Call"] ∧
    acceptances (Text.parts '\n' definition.text) =
      [("Node::Expr::Call", "Node::Expr::Visitor")] ∧
    Closed [⟨"Node::Expr::Visitor", ["Node::Expr::Call"]⟩]
      [("Node::Expr::Call", "Node::Expr::Visitor")] := by
  obtain ⟨declaration, visitors, hdeclaration, hvisitors, hsource⟩ :=
    dispatch_closes Schema.nestedCall_verify Schema.nestedCall_unbroken none
  obtain ⟨definition, accepted, hdefinition, haccepted, hclosed⟩ := hsource "ast.hpp" (by decide)
  obtain rfl := hvisitors.byFirstChild
  obtain rfl := haccepted.bySchema
  exact ⟨declaration, definition, hdeclaration, hdefinition, hvisitors.methods,
    haccepted.whole (by decide), hclosed⟩

end Dispatch
end VisitorGen
