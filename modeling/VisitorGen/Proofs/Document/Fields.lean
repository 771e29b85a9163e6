import VisitorGen.Proofs.Document.Declared

/-! Fields keep their names, types and order. The fields of a concrete kind are written three
times: as the members of its struct, as the parameters of its constructor, in both documents, and
as the initializers of the members. `fields_kept` says of a sound schema that the three lists are
the fields of the kind, one for one and in their order, whatever text the types are, and that no
name stands twice in them: every member is initialised once, from the parameter of its name. -/
namespace VisitorGen

namespace Fields
open Signature Dispatch

/-! ### Reading constructors -/

/-- The class whose constructor a line of a source defines, and what follows the parenthesis. -/
def constructor? (line : String) : Option (List Char × List Char) := do
  let (name, text) ← line.toList.dropInfix? "(".toList
  let path ← definedPath? name
  return (path, text)

/-- The line defines the constructor of the class of this path. -/
def constructs (path line : String) : Bool :=
  (constructor? line).any fun (owner, _) => owner == path.toList

/-- An item of a list, less the space that sets it apart from the one before. -/
def spaced? (item : String) : Option String :=
  (item.toList.dropPrefix? " ".toList).map String.ofList

/-- The initializers between the parameters and the empty body. There are none where the body
follows on the parameters. -/
def initializers? (text : List Char) : Option (List String) :=
  match Text.splitLast? ") : ".toList text with
  | some (_, list) => do
    let items ← list.dropSuffix? " \x7b\x7d".toList
    (Text.parts ',' (" " ++ .ofList items)).mapM spaced?
  | none => (text.dropSuffix? ") \x7b\x7d".toList).map fun _ => []

/-- The member that an initializer names and the parameter that it moves there. -/
def moved? (item : String) : Option (String × String) := do
  let (member, rest) ← item.toList.dropInfix? "\x7bstd::move(".toList
  let parameter ← rest.dropSuffix? ")\x7d".toList
  return (.ofList member, .ofList parameter)

/-! ### What is asked of the documents -/

/-- The lines of a header have the struct of the kind once. Between the acceptance and the closing
brace stands a line for each field and no other, and the parameters of the constructor are the
fields, too. -/
structure InHeader (s : Schema) (kind : ConcreteKind) (lines : List String) : Prop where
  once : lines.count (s.heading (.ofConcrete kind)) = 1
  members : ∃ above constructor accept below,
    lines = above ++ [s.heading (.ofConcrete kind), "\x7b", constructor, accept] ++
      (kind.fields.map fun f => "    " ++ f.type ++ " " ++ f.name ++ ";") ++ "\x7d;" :: below ∧
    declaredVisitor? constructor = none ∧
    declaredVisitor? accept = some (s.visitorPath kind.parent).toList ∧
    declaredParameters? constructor =
      some (String.intercalate ", " (kind.fields.map fun f => f.type ++ " " ++ f.name)).toList

/-- The lines of a source define the constructor of the kind once. Its parameters are the fields,
and so are its initializers, each of which moves a parameter to the member of its name. Without
fields the empty body follows on the parentheses. -/
def InSource (s : Schema) (kind : ConcreteKind) (lines : List String) : Prop :=
  ∃ line text items,
    lines.filter (constructs (s.signature kind).path) = [line] ∧
    constructor? line = some ((s.signature kind).path.toList, text) ∧
    definedParameters? text =
      some (String.intercalate ", " (kind.fields.map fun f => f.type ++ " " ++ f.name)).toList ∧
    initializers? text = some items ∧
    items = (kind.fields.map fun f => f.name ++ "\x7bstd::move(" ++ f.name ++ ")\x7d") ∧
    items.mapM moved? = some (kind.fields.map fun f => (f.name, f.name)) ∧
    (kind.fields = [] → text = ") \x7b\x7d".toList)

variable {s : Schema} {kind : ConcreteKind}

/-! ### Names of fields -/

theorem nodup_fieldNames (h : s.Sound) (hkind : kind ∈ s.concreteKinds) :
    (kind.fields.map (·.name)).Nodup := by
  rw [List.Nodup, List.pairwise_map, List.pairwise_iff_getElem]
  intro i j hi hj hij heq
  exact h.not_broken_field hkind (List.getElem?_eq_getElem hj) .unrepeated
    ⟨_, List.mem_take_iff_getElem.2 ⟨i, by omega, rfl⟩, heq⟩

theorem name_not_mem_fieldNames (h : s.Sound) (hkind : kind ∈ s.concreteKinds) :
    kind.name ∉ kind.fields.map (·.name) := fun hmem => by
  obtain ⟨f, hf, hname⟩ := List.mem_map.1 hmem
  obtain ⟨position, hf⟩ := List.mem_iff_getElem?.1 hf
  exact h.not_broken_field hkind hf .unlikeKind hname

/-! ### The header -/

/-- The struct of an entry stands among the lines of its header. -/
theorem exists_struct {e : Entry} (he : e ∈ s.entries) : ∃ above below,
    s.header.lines ++ [""] = above ++ s.heading e :: s.structBody e ++ "\x7d;" :: below := by
  obtain ⟨before, after, hentries⟩ := List.append_of_mem he
  have hsplit : s.entries.flatMap s.entryBlock = before.flatMap s.entryBlock ++
      (["", ""] ++ s.heading e :: s.structBody e ++ ["\x7d;"] ++ after.flatMap s.entryBlock) := by
    rw [hentries, List.flatMap_append, List.flatMap_cons, entryBlock_eq]
  rw [Schema.header, hsplit]
  exact ⟨Document.provenance ++ s.headerIncludes ++ before.flatMap s.entryBlock ++ ["", ""], _, by
    simp only [List.append_assoc, List.cons_append, List.nil_append]; rfl⟩

theorem declaredVisitor?_constructor {name : String} (hname : Name.isIdentifier name = true)
    (parameters : String) :
    declaredVisitor? ("    " ++ name ++ "(" ++ parameters ++ ");") = none := by
  have hword : ' ' ∈ "void accept".toList ∧ '(' ∉ "void accept".toList := by decide
  exact Text.within?_eq_none (isPrefixOf_declaredConstructor hname parameters hword "(".toList) _

theorem inHeader (h : s.Sound) (hkind : kind ∈ s.concreteKinds) :
    InHeader s kind (s.header.lines ++ [""]) where
  once := Declared.count_heading h (Schema.mem_concreteKinds.1 hkind)
  members := by
    obtain ⟨hname, -⟩ := h.isIdentifier_concrete hkind
    obtain ⟨above, below, hlines⟩ := exists_struct (Schema.mem_concreteKinds.1 hkind)
    refine ⟨above, _, _, below, ?_, declaredVisitor?_constructor hname _,
      declaredVisitor?_accept s kind, declaredParameters?_eq hname⟩
    rw [hlines, Schema.structBody]
    simp only [List.append_assoc, List.cons_append, List.nil_append]
    rfl

/-! ### The constructor lines of a source -/

/-- The constructor belongs to a class whose path begins the line. -/
theorem prefix_of_constructor? {line : String} {path text : List Char}
    (h : constructor? line = some (path, text)) : path <+: line.toList := by
  obtain ⟨⟨name, rest⟩, hname, hbody⟩ := Option.bind_eq_some_iff.1 h
  obtain ⟨owner, hpath, heq⟩ := Option.bind_eq_some_iff.1 hbody
  obtain ⟨rfl, -⟩ : owner = path ∧ rest = text := by simpa using heq
  obtain ⟨⟨front, last⟩, hlast, hrepeat⟩ := Option.bind_eq_some_iff.1 hpath
  obtain ⟨⟨scope, again⟩, -, hif⟩ := Option.bind_eq_some_iff.1 hrepeat
  obtain ⟨-, rfl⟩ : again = last ∧ front = owner := by simpa using hif
  obtain ⟨⟨separator, hline, -⟩, -⟩ := List.dropInfix?_eq_some_iff.1 hname
  rw [hline, Text.eq_of_splitLast? hlast]
  simp only [List.append_assoc]
  exact List.prefix_append _ _

/-- A line that begins with a plain word and a space constructs no class with a scope. -/
theorem constructs_eq_false {path line : String} (hscope : ':' ∈ path.toList)
    (hspace : ' ' ∉ path.toList) {word rest : List Char}
    (hline : line.toList = word ++ [' '] ++ rest) (hword : ':' ∉ word) :
    constructs path line = false := by
  rw [constructs, Option.any_eq_false]
  rintro ⟨owner, text⟩ hsome
  rw [beq_eq_false_iff_ne]
  rintro rfl
  have hbefore : ':' ∉ word ++ [' '] := by simp [hword]
  exact Text.not_prefix_of_mem hscope hbefore hspace rest
    (hline ▸ prefix_of_constructor? hsome)

theorem constructor?_constructorLine (h : s.Sound) (hkind : kind ∈ s.concreteKinds) :
    constructor? (s.constructorLine kind) = some ((s.signature kind).path.toList,
      (Document.parameters kind.fields ++ ")" ++ Schema.initializers kind.fields ++
        " \x7b\x7d").toList) := by
  rw [constructor?, dropInfix?_constructorLine h hkind]
  simp only [Option.bind_eq_bind, Option.bind_some,
    definedPath?_eq (h.isIdentifier_concrete hkind).1]
  rfl

/-- Of the lines of a body the first one constructs the class of its kind, the other no class. -/
theorem filter_bodyBlock (h : s.Sound) (hkind : kind ∈ s.concreteKinds) {other : ConcreteKind}
    (hother : other ∈ s.concreteKinds) :
    (s.bodyBlock other).filter (constructs (s.signature kind).path) =
      if other = kind then [s.constructorLine other] else [] := by
  have hscope : ':' ∈ (s.signature kind).path.toList := by simp [Schema.signature]
  have hspace : ' ' ∉ (s.signature kind).path.toList := not_mem_path h hkind rfl (by decide)
  have hempty : constructs (s.signature kind).path "" = false := rfl
  have hvoid : (s.acceptLine other).toList = "void".toList ++ [' '] ++
      (s.qualifiedName other.parent ++ "::" ++ other.name ++ "::accept(" ++
        s.qualifiedName other.parent ++
          "::Visitor& visitor) const \x7b visitor.visit(*this); \x7d").toList := by
    simp [Schema.acceptLine]
  have haccept : constructs (s.signature kind).path (s.acceptLine other) = false :=
    constructs_eq_false hscope hspace hvoid (by decide)
  have hconstructor : constructs (s.signature kind).path (s.constructorLine other) =
      decide (other = kind) := by
    rw [constructs, constructor?_constructorLine h hother, Option.any_some, Bool.eq_iff_iff,
      beq_iff_eq, String.toList_inj, decide_eq_true_iff]
    exact ⟨path_injective h hother hkind, fun heq => heq ▸ rfl⟩
  rw [Schema.bodyBlock, List.filter_cons, List.filter_cons, List.filter_cons, List.filter_cons,
    hempty, haccept, hconstructor]
  by_cases heq : other = kind <;> simp [heq]

theorem filter_bodies (h : s.Sound) (hkind : kind ∈ s.concreteKinds) {kinds : List ConcreteKind}
    (hkinds : kinds ⊆ s.concreteKinds) :
    (kinds.flatMap s.bodyBlock).filter (constructs (s.signature kind).path) =
      (kinds.filter (· == kind)).map s.constructorLine := by
  induction kinds with
  | nil => rfl
  | cons other kinds ih =>
    obtain ⟨hother, hrest⟩ := List.cons_subset.1 hkinds
    rw [List.flatMap_cons, List.filter_append, filter_bodyBlock h hkind hother, ih hrest]
    by_cases heq : other = kind <;> simp [heq]

theorem filter_opening (h : s.Sound) (hkind : kind ∈ s.concreteKinds) (header : String) :
    (Schema.opening header).filter (constructs (s.signature kind).path) = [] := by
  have hscope : ':' ∈ (s.signature kind).path.toList := by simp [Schema.signature]
  have hspace : ' ' ∉ (s.signature kind).path.toList := not_mem_path h hkind rfl (by decide)
  have hinclude : ∀ target, constructs (s.signature kind).path ("#include " ++ target) = false := by
    intro target
    have hline : ("#include " ++ target).toList = "#include".toList ++ [' '] ++ target.toList := by
      simp
    exact constructs_eq_false hscope hspace hline (by decide)
  rw [List.filter_eq_nil_iff]
  simp only [Schema.opening, Document.provenance, Document.includeLine, List.forall_mem_append,
    List.forall_mem_cons, Bool.not_eq_true]
  exact ⟨⟨rfl, rfl, rfl, by simp⟩, rfl, hinclude "<optional>", rfl, hinclude _, by simp⟩

/-- A source defines the constructor of each of its kinds once. -/
theorem filter_source (h : s.Sound) (hkind : kind ∈ s.concreteKinds) (header : String) :
    ((s.source header).lines ++ [""]).filter (constructs (s.signature kind).path) =
      [s.constructorLine kind] := by
  have hnodup : s.concreteKinds.Nodup := List.Nodup.of_map _ h.nodup_concreteKinds
  rw [lines_source, List.filter_append, List.filter_append, filter_opening h hkind,
    filter_bodies h hkind (List.Subset.refl _), List.filter_beq,
    List.nodup_iff_count_eq_one.1 hnodup kind hkind]
  rfl

/-! ### Initializers -/

theorem moved?_eq {name : String} (hname : Name.isIdentifier name = true) :
    moved? (name ++ "\x7bstd::move(" ++ name ++ ")\x7d") = some (name, name) := by
  have hbrace : '\x7b' ∉ name.toList := Name.not_mem_of_isIdentifier hname rfl
  have hitem : (name ++ "\x7bstd::move(" ++ name ++ ")\x7d").toList =
      name.toList ++ "\x7bstd::move(".toList ++ (name.toList ++ ")\x7d".toList) := by
    simp only [String.toList_append, List.append_assoc]
  have hsplit : (name.toList ++ "\x7bstd::move(".toList ++
      (name.toList ++ ")\x7d".toList)).dropInfix? "\x7bstd::move(".toList =
        some (name.toList, name.toList ++ ")\x7d".toList) :=
    Text.dropInfix?_of_not_mem hbrace _ _
  rw [moved?, hitem, hsplit]
  simp only [Option.bind_eq_bind, Option.bind_some, Text.dropSuffix?_append, String.ofList_toList]
  rfl

/-- Items without a comma are read back from their list. -/
theorem mapM_spaced? {items : List String} (hne : items ≠ [])
    (h : ∀ item ∈ items, ',' ∉ item.toList) :
    (Text.parts ',' (" " ++ String.intercalate ", " items)).mapM spaced? = some items := by
  have hparts : Text.parts ',' (" " ++ String.intercalate ", " items) = items.map (" " ++ ·) :=
    Text.parts_intercalate (show ",".toList = [','] from rfl) (by decide) hne h
  rw [hparts]
  refine Text.mapM_map_eq_self fun item _ => ?_
  rw [spaced?, String.toList_append, Text.dropPrefix?_append, Option.map_some, String.ofList_toList]

/-- The initializers are read back whatever the types of the parameters before them hold. -/
theorem initializers?_eq {fields : List Field}
    (hnames : ∀ f ∈ fields, Name.isIdentifier f.name = true) :
    initializers? (Document.parameters fields ++ ")" ++ Schema.initializers fields ++
      " \x7b\x7d").toList =
        some (fields.map fun f => f.name ++ "\x7bstd::move(" ++ f.name ++ ")\x7d") := by
  cases fields with
  | nil => rfl
  | cons f fields =>
    have hne := List.cons_ne_nil f fields
    have hcomma : ∀ item ∈ (f :: fields).map fun f =>
        f.name ++ "\x7bstd::move(" ++ f.name ++ ")\x7d", ',' ∉ item.toList := by
      intro item hitem
      obtain ⟨g, hg, rfl⟩ := List.mem_map.1 hitem
      have hname := Name.not_mem_of_isIdentifier (hnames g hg) (c := ',') rfl
      simp [hname]
    rw [initializers?, splitLast?_constructor hne hnames]
    simp only [Text.dropSuffix?_append, Option.bind_eq_bind, Option.bind_some, String.ofList_toList]
    exact mapM_spaced? (List.cons_ne_nil _ _) hcomma

theorem inSource (h : s.Sound) (hkind : kind ∈ s.concreteKinds) (header : String) :
    InSource s kind ((s.source header).lines ++ [""]) := by
  have hnames : ∀ f ∈ kind.fields, Name.isIdentifier f.name = true := fun f hf =>
    h.isIdentifier_field hkind hf
  refine ⟨s.constructorLine kind, _, _, filter_source h hkind header,
    constructor?_constructorLine h hkind, definedParameters?_eq hnames, initializers?_eq hnames,
    rfl, Text.mapM_map_eq_some fun f hf => moved?_eq (hnames f hf), fun hnone => ?_⟩
  rw [hnone]
  rfl

/-! ### Fidelity -/

/-- **Fields keep name, type and order.** The documents of a sound schema have of each concrete kind
one struct, whose members are its fields, and one constructor, whose parameters and initializers
are its fields. The names of the fields differ from one another and from that of the kind. -/
theorem fields_kept (hs : s.verify = .ok ()) (hlines : s.Unbroken) {header : String}
    (hblank : Text.trim header ≠ "") (hheader : Text.Unbroken header) (header? : Option String) :
    ∃ declaration definition,
      s.generate .declaration header? = .ok declaration ∧
      s.generate .definition (some header) = .ok definition ∧
      ∀ kind ∈ s.concreteKinds,
        InHeader s kind (Text.parts '\n' declaration.text) ∧
        InSource s kind (Text.parts '\n' definition.text) ∧
        (kind.fields.map (·.name)).Nodup ∧ kind.name ∉ kind.fields.map (·.name) := by
  have h := Schema.sound_of_verify hs
  refine ⟨s.header, s.source (Text.trim header), Schema.generate_declaration hs header?,
    Schema.generate_definition hs hblank, fun kind hkind => ⟨?_, ?_, nodup_fieldNames h hkind,
      name_not_mem_fieldNames h hkind⟩⟩
  · rw [Document.parts_text (h.unbroken_header hlines)]
    exact inHeader h hkind
  · rw [Document.parts_text (h.unbroken_source hlines (Schema.unbroken_trim hheader))]
    exact inSource h hkind _

/-- A sound schema with a kind of two fields, the first of a type that looks like two parameters,
and a kind without fields. -/
def pairAndUnit : Schema where
  includes := []
  entries :=
    [.ofAbstract (.root "Node"),
     .ofConcrete ⟨"Pair", [⟨"first", "std::map<int, int>"⟩, ⟨"second", "int"⟩], "Node"⟩,
     .ofConcrete ⟨"Unit", [], "Node"⟩]

theorem pairAndUnit_fields_kept : ∃ declaration definition,
    pairAndUnit.generate .declaration none = .ok declaration ∧
    pairAndUnit.generate .definition (some "ast.hpp") = .ok definition ∧
    (∃ line text,
      (Text.parts '\n' definition.text).filter (constructs "Node::Pair") = [line] ∧
      constructor? line = some ("Node::Pair".toList, text) ∧
      definedParameters? text = some "std::map<int, int> first, int second".toList ∧
      initializers? text =
        some ["first\x7bstd::move(first)\x7d", "second\x7bstd::move(second)\x7d"]) ∧
    ∃ line, (Text.parts '\n' definition.text).filter (constructs "Node::Unit") = [line] ∧
      constructor? line = some ("Node::Unit".toList, ") \x7b\x7d".toList) := by
  obtain ⟨declaration, definition, hdeclaration, hdefinition, hkept⟩ := fields_kept
    (s := pairAndUnit) rfl ⟨by decide, by decide⟩ (show Text.trim "ast.hpp" ≠ "" by decide)
      (by decide) none
  refine ⟨declaration, definition, hdeclaration, hdefinition, ?_, ?_⟩
  · obtain ⟨-, ⟨line, text, items, hline, hconstructor, hparameters, hitems, rfl, -⟩, -⟩ :=
      hkept ⟨"Pair", [⟨"first", "std::map<int, int>"⟩, ⟨"second", "int"⟩], "Node"⟩ (by decide)
    exact ⟨line, text, hline, hconstructor, hparameters, hitems⟩
  · obtain ⟨-, ⟨line, text, items, hline, hconstructor, -, -, -, -, hbody⟩, -⟩ :=
      hkept ⟨"Unit", [], "Node"⟩ (by decide)
    exact ⟨line, hline, hbody rfl ▸ hconstructor⟩

end Fields
end VisitorGen
