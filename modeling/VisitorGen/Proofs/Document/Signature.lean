import VisitorGen.Proofs.Document.Lines

/-! The two documents of a schema say the same of every class.

A signature is what a reader of a document learns of the class of a concrete kind: its
path, the parameters of its constructor and the visitor that it accepts. A header gives it
in the lines that follow a line `struct X : Y`, a source in the two lines of a body. Both
are read here as plain lines of text, without the schema. `header_source_agree` says that
the header and the source of a sound schema give the same signatures in the same order,
one for each concrete kind and no two of the same path. -/
namespace VisitorGen

structure Signature where
  path : String
  parameters : String
  visitor : String
deriving DecidableEq, Repr

namespace Signature

/-! ### Reading a header -/

/-- The path and the base of a line of the form `struct X : Y`. -/
def heading? (line : String) : Option (List Char × List Char) :=
  (line.toList.dropPrefix? "struct ".toList).bind (·.dropInfix? " : ".toList)

/-- What stands between the first parenthesis and the closing one at the end. -/
def declaredParameters? (line : String) : Option (List Char) := do
  let (_, rest) ← line.toList.dropInfix? "(".toList
  rest.dropSuffix? ");".toList

def declaredVisitor? (line : String) : Option (List Char) :=
  Text.within? "    void accept(".toList "& visitor) const override;".toList line.toList

/-- The signature of a class, from its path and the lines that follow its heading. -/
def declared? (path : List Char) : List String → Option Signature
  | _ :: constructor :: accept :: _ => do
    let parameters ← declaredParameters? constructor
    let visitor ← declaredVisitor? accept
    return ⟨.ofList path, .ofList parameters, .ofList visitor⟩
  | _ => none

/-- The signatures that the lines of a header declare. -/
def ofHeader? : List String → Option (List Signature)
  | [] => some []
  | line :: rest =>
    match heading? line with
    | none => ofHeader? rest
    | some (path, _) => do
      let signature ← declared? path rest
      let others ← ofHeader? rest
      return signature :: others

/-! ### Reading a source -/

/-- The lines after the last inclusion. -/
def afterInclusions (lines : List String) : List String :=
  (lines.reverse.takeWhile fun line => !"#include ".toList.isPrefixOf line.toList).reverse

/-- The name of a constructor less its last component, which has to repeat the one before. -/
def definedPath? (name : List Char) : Option (List Char) := do
  let (path, last) ← Text.splitLast? "::".toList name
  let (_, repeated) ← Text.splitLast? "::".toList path
  if repeated = last then some path else none

/-- What stands before the last beginning of an initializer list, or without one before
the empty body. -/
def definedParameters? (text : List Char) : Option (List Char) :=
  match Text.splitLast? ") : ".toList text with
  | some (parameters, _) => some parameters
  | none => text.dropSuffix? ") \x7b\x7d".toList

/-- The path and the visitor of the body of an acceptance. -/
def acceptance? (line : String) : Option (List Char × List Char) := do
  let inner ← Text.within? "void ".toList
    "& visitor) const \x7b visitor.visit(*this); \x7d".toList line.toList
  let (name, visitor) ← inner.dropInfix? "(".toList
  let path ← name.dropSuffix? "::accept".toList
  return (path, visitor)

/-- The signature of a class, from the line of its constructor and the lines that follow. -/
def defined? (constructor : String) (rest : List String) : Option Signature := do
  let (name, text) ← constructor.toList.dropInfix? "(".toList
  let path ← definedPath? name
  let parameters ← definedParameters? text
  let (accepting, visitor) ← rest.head?.bind acceptance?
  if accepting = path then some ⟨.ofList path, .ofList parameters, .ofList visitor⟩ else none

/-- The signatures that the lines of a source define. Every line begins the body of a
constructor unless it is empty or begins that of an acceptance. -/
def ofSource? : List String → Option (List Signature)
  | [] => some []
  | line :: rest =>
    if line = "" ∨ "void ".toList.isPrefixOf line.toList then ofSource? rest
    else do
      let signature ← defined? line rest
      let others ← ofSource? rest
      return signature :: others

end Signature

/-- The signature of a concrete kind. -/
def Schema.signature (s : Schema) (kind : ConcreteKind) : Signature where
  path := s.qualifiedName kind.parent ++ "::" ++ kind.name
  parameters := Document.parameters kind.fields
  visitor := s.qualifiedName kind.parent ++ "::Visitor"

namespace Signature
variable {s : Schema} {kind : ConcreteKind}

/-- A path is spelt with identifiers and separators. -/
theorem not_mem_path (h : s.Sound) (hkind : kind ∈ s.concreteKinds) {c : Char}
    (hc : Name.isIdentifierRest c = false) (hcolon : c ≠ ':') :
    c ∉ (s.signature kind).path.toList := by
  obtain ⟨hname, hparent⟩ := h.isIdentifier_concrete hkind
  have hstart := h.not_mem_qualifiedName hparent hc hcolon
  have hlast := Name.not_mem_of_isIdentifier hname hc
  simp [Schema.signature, hstart, hlast, hcolon]

/-! ### What a header declares -/

/-- Lines that head no class are passed over. -/
theorem ofHeader?_append {lines : List String} (h : ∀ line ∈ lines, heading? line = none)
    (rest : List String) : ofHeader? (lines ++ rest) = ofHeader? rest := by
  induction lines with
  | nil => rfl
  | cons line lines ih =>
    rw [List.cons_append, ofHeader?, h line List.mem_cons_self]
    exact ih fun l hl => h l (List.mem_cons_of_mem line hl)

theorem heading?_eq_none {line : String} (h : Text.Inner line) : heading? line = none := by
  unfold heading?
  cases hline : line.toList with
  | nil => rfl
  | cons c cs =>
    have hc : (c == 's') = false := beq_eq_false_iff_ne.2 fun hs => h.1 (by rw [hline, hs]; rfl)
    simp [List.dropPrefix?, hc]

theorem ofHeader?_inner {lines : List String} (h : ∀ line ∈ lines, Text.Inner line)
    (rest : List String) : ofHeader? (lines ++ rest) = ofHeader? rest :=
  ofHeader?_append (fun line hline => heading?_eq_none (h line hline)) rest

theorem heading?_abstract (h : s.Sound) {name : String} (hname : Name.isIdentifier name = true) :
    heading? ("struct " ++ s.qualifiedName name) = none := by
  rw [heading?, String.toList_append, Text.dropPrefix?_append]
  exact Text.dropInfix?_eq_none_of_not_mem (h.not_mem_qualifiedName hname rfl (by decide)) _

theorem heading?_concrete (h : s.Sound) (hkind : kind ∈ s.concreteKinds) :
    heading? ("struct " ++ s.qualifiedName kind.parent ++ "::" ++ kind.name ++ " : " ++
      s.qualifiedName kind.parent) =
        some ((s.signature kind).path.toList, (s.qualifiedName kind.parent).toList) := by
  have hpath : ' ' ∉ (s.signature kind).path.toList := not_mem_path h hkind rfl (by decide)
  have hline : ("struct " ++ s.qualifiedName kind.parent ++ "::" ++ kind.name ++ " : " ++
      s.qualifiedName kind.parent).toList = "struct ".toList ++
        ((s.signature kind).path.toList ++ " : ".toList ++
          (s.qualifiedName kind.parent).toList) := by
    simp [Schema.signature]
  rw [heading?, hline, Text.dropPrefix?_append]
  exact Text.dropInfix?_of_not_mem hpath _ _

theorem declaredParameters?_eq {name parameters : String} (hname : Name.isIdentifier name = true) :
    declaredParameters? ("    " ++ name ++ "(" ++ parameters ++ ");") = some parameters.toList := by
  have hopen : '(' ∉ ("    " ++ name).toList := by
    have := Name.not_mem_of_isIdentifier hname (c := '(') rfl
    simp [this]
  have hline : ("    " ++ name ++ "(" ++ parameters ++ ");").toList =
      ("    " ++ name).toList ++ "(".toList ++ (parameters.toList ++ ");".toList) := by
    simp
  rw [declaredParameters?, hline]
  simp only [String.reduceToList, Text.dropInfix?_of_not_mem hopen]
  exact Text.dropSuffix?_append _ _

/-- The acceptance of a concrete block is that of the visitor of its parent. -/
theorem declaredVisitor?_accept (s : Schema) (kind : ConcreteKind) :
    declaredVisitor? ("    void accept(" ++ s.qualifiedName kind.parent ++
      "::Visitor& visitor) const override;") = some (s.signature kind).visitor.toList := by
  have hline : ("    void accept(" ++ s.qualifiedName kind.parent ++
      "::Visitor& visitor) const override;").toList = "    void accept(".toList ++
        (s.signature kind).visitor.toList ++ "& visitor) const override;".toList := by
    simp [Schema.signature]
  rw [declaredVisitor?, hline]
  exact Text.within?_append _ _ _

theorem ofHeader?_abstractBlock (h : s.Sound) {kind : AbstractKind}
    (hname : Name.isIdentifier kind.name = true) (rest : List String) :
    ofHeader? (s.abstractBlock kind ++ rest) = ofHeader? rest := by
  rw [Schema.abstractBlock_eq, List.append_assoc, ofHeader?_inner (by decide), List.cons_append,
    ofHeader?, heading?_abstract h hname]
  exact ofHeader?_inner (Schema.inner_abstractMembers kind) rest

/-- The two lines under the heading of a concrete block declare its signature. -/
theorem declared?_concrete (hname : Name.isIdentifier kind.name = true) (brace : String)
    (rest : List String) :
    declared? (s.signature kind).path.toList
      (brace :: ("    " ++ kind.name ++ "(" ++ Document.parameters kind.fields ++ ");") ::
        ("    void accept(" ++ s.qualifiedName kind.parent ++
          "::Visitor& visitor) const override;") :: rest) = some (s.signature kind) := by
  rw [declared?, declaredParameters?_eq hname, declaredVisitor?_accept]
  simp only [Option.bind_eq_bind, Option.bind_some, String.ofList_toList]
  rfl

/-- The lines of a concrete block give its signature and nothing else. -/
theorem ofHeader?_concreteBlock (h : s.Sound) (hkind : kind ∈ s.concreteKinds)
    (rest : List String) :
    ofHeader? (s.concreteBlock kind ++ rest) = (ofHeader? rest).map (s.signature kind :: ·) := by
  have hdeclared : declared? (s.signature kind).path.toList (s.concreteMembers kind ++ rest) =
      some (s.signature kind) := declared?_concrete (h.isIdentifier_concrete hkind).1 "\x7b" _
  rw [Schema.concreteBlock_eq, List.append_assoc, ofHeader?_inner (by decide), List.cons_append,
    ofHeader?, heading?_concrete h hkind]
  simp only [hdeclared, ofHeader?_inner (Schema.inner_concreteMembers kind)]
  cases ofHeader? rest <;> rfl

/-- The lines of the entries give the signatures of the concrete kinds among them. -/
theorem ofHeader?_entries (h : s.Sound) {entries : List Entry} (hentries : entries ⊆ s.entries)
    {rest : List String} (hrest : ofHeader? rest = some []) :
    ofHeader? (entries.flatMap s.entryBlock ++ rest) =
      some ((entries.filterMap Entry.concrete?).map s.signature) := by
  induction entries with
  | nil => exact hrest
  | cons e entries ih =>
    obtain ⟨he, htail⟩ := List.cons_subset.1 hentries
    rw [List.flatMap_cons, List.append_assoc]
    cases e with
    | ofAbstract kind =>
      rw [Schema.entryBlock, ofHeader?_abstractBlock h (h.isIdentifier_name he), ih htail]
      rfl
    | ofConcrete kind =>
      rw [Schema.entryBlock, ofHeader?_concreteBlock h (Schema.mem_concreteKinds.2 he),
        ih htail]
      rfl

/-- A visitor is no struct, whatever it visits. -/
theorem ofHeader?_visitorBlock (parent : String) (children : List ConcreteKind)
    (rest : List String) : ofHeader? (s.visitorBlock parent children ++ rest) = ofHeader? rest := by
  have hheading : heading? ("class " ++ s.qualifiedName parent ++ "::Visitor") = none := by
    simp [heading?, List.dropPrefix?]
  rw [Schema.visitorBlock_eq, List.append_assoc, List.append_assoc, ofHeader?_inner (by decide),
    List.cons_append, ofHeader?, hheading]
  exact (ofHeader?_inner (Schema.inner_visitorMembers parent children) _).trans
    (ofHeader?_inner (by decide) rest)

theorem ofHeader?_visitors (groups : List (String × List ConcreteKind)) :
    ofHeader? (groups.flatMap (fun (parent, children) => s.visitorBlock parent children) ++ [""]) =
      some [] := by
  induction groups with
  | nil => rfl
  | cons group groups ih =>
    rw [List.flatMap_cons, List.append_assoc, ofHeader?_visitorBlock]
    exact ih

/-- The lines of a header give the signatures of the concrete kinds. -/
theorem ofHeader?_header (h : s.Sound) :
    ofHeader? (s.header.lines ++ [""]) = some (s.concreteKinds.map s.signature) := by
  rw [Schema.header, List.append_assoc, List.append_assoc,
    ofHeader?_inner Schema.inner_headerIncludes]
  exact ofHeader?_entries h (List.Subset.refl s.entries)
    (ofHeader?_visitors (HierarchyIndex.ofSchema s).groups)

/-! ### What a source defines -/

/-- Nothing but what stands after the last inclusion is kept. -/
theorem afterInclusions_append (front : List String) (target : String) {rest : List String}
    (h : ∀ line ∈ rest, "#include ".toList.isPrefixOf line.toList = false) :
    afterInclusions (front ++ Document.includeLine target :: rest) = rest := by
  have hinclude :
      (!"#include ".toList.isPrefixOf (Document.includeLine target).toList) = false := by
    simp [Document.includeLine]
  have hkept : ∀ line ∈ rest.reverse, (!"#include ".toList.isPrefixOf line.toList) = true :=
    fun line hline => by rw [h line (List.mem_reverse.1 hline)]; rfl
  rw [afterInclusions, List.reverse_append, List.reverse_cons, List.append_assoc,
    List.takeWhile_append_of_pos hkept, List.singleton_append, List.takeWhile_cons_of_neg,
    List.append_nil, List.reverse_reverse]
  rw [hinclude]
  exact Bool.false_ne_true

theorem definedPath?_eq (hname : Name.isIdentifier kind.name = true) :
    definedPath? (s.qualifiedName kind.parent ++ "::" ++ kind.name ++ "::" ++ kind.name).toList =
      some (s.signature kind).path.toList := by
  have hpath : (s.signature kind).path.toList =
      (s.qualifiedName kind.parent).toList ++ Schema.pathSeparator ++ kind.name.toList :=
    Schema.toList_nested _ _
  have htext : (s.qualifiedName kind.parent ++ "::" ++ kind.name ++ "::" ++ kind.name).toList =
      (s.signature kind).path.toList ++ Schema.pathSeparator ++ kind.name.toList :=
    Schema.toList_nested _ _
  have hsplit := Schema.splitLast?_path hname (s.signature kind).path.toList
  have hsplit' := Schema.splitLast?_path hname (s.qualifiedName kind.parent).toList
  rw [← hpath] at hsplit'
  rw [definedPath?, htext]
  show ((Text.splitLast? Schema.pathSeparator _).bind _) = _
  rw [hsplit]
  show ((Text.splitLast? Schema.pathSeparator _).bind _) = _
  rw [hsplit']
  exact if_pos rfl

/-- The beginning of an initializer list does not occur in one of its items: there a
closing parenthesis stands before a brace. -/
theorem splitLast?_initializer {name : String} (hname : Name.isIdentifier name = true)
    {rest : List Char} (hrest : Text.splitLast? ") : ".toList rest = none) :
    Text.splitLast? ") : ".toList ((name ++ "\x7bstd::move(" ++ name ++ ")\x7d").toList ++ rest) =
      none := by
  have hfront : ')' ∉ (name ++ "\x7bstd::move(" ++ name).toList := by
    have hnot := Name.not_mem_of_isIdentifier hname (c := ')') rfl
    simp [hnot]
  have hclosing : Text.splitLast? ") : ".toList (")\x7d".toList ++ rest) = none := by
    have hbrace : Text.splitLast? ") : ".toList ("\x7d".toList ++ rest) = none :=
      Text.splitLast?_append_eq_none (by decide) hrest
    rw [show ")\x7d".toList ++ rest = ')' :: ("\x7d".toList ++ rest) from rfl, Text.splitLast?,
      hbrace]
    rfl
  rw [String.toList_append, List.append_assoc]
  exact Text.splitLast?_append_eq_none hfront hclosing

theorem splitLast?_initializers {names : List String}
    (hnames : ∀ name ∈ names, Name.isIdentifier name = true) {rest : List Char}
    (hrest : Text.splitLast? ") : ".toList rest = none) :
    Text.splitLast? ") : ".toList ((String.intercalate ", " (names.map fun name =>
      name ++ "\x7bstd::move(" ++ name ++ ")\x7d")).toList ++ rest) = none := by
  induction names with
  | nil => exact hrest
  | cons name names ih =>
    obtain ⟨hname, htail⟩ := List.forall_mem_cons.1 hnames
    cases names with
    | nil =>
      rw [List.map_singleton, String.intercalate_singleton]
      exact splitLast?_initializer hname hrest
    | cons next names =>
      rw [List.map_cons, List.map_cons, String.intercalate_cons_cons, String.toList_append,
        String.toList_append, List.append_assoc, List.append_assoc]
      exact splitLast?_initializer hname (Text.splitLast?_append_eq_none (by decide) (ih htail))

/-- The last beginning of an initializer list is that of the constructor, whatever the types of
its parameters hold. -/
theorem splitLast?_constructor {fields : List Field} (hne : fields ≠ [])
    (hnames : ∀ f ∈ fields, Name.isIdentifier f.name = true) :
    Text.splitLast? ") : ".toList (Document.parameters fields ++ ")" ++
      Schema.initializers fields ++ " \x7b\x7d").toList = some ((Document.parameters fields).toList,
        (String.intercalate ", " (fields.map fun f =>
          f.name ++ "\x7bstd::move(" ++ f.name ++ ")\x7d")).toList ++ " \x7b\x7d".toList) := by
  have hitems : Text.splitLast? ") : ".toList ((String.intercalate ", " ((fields.map (·.name)).map
      fun name => name ++ "\x7bstd::move(" ++ name ++ ")\x7d")).toList ++
        " \x7b\x7d".toList) = none :=
    splitLast?_initializers (by simpa using hnames) rfl
  rw [List.map_map] at hitems
  have hlist : ')' ∉ " : ".toList := by decide
  have hafter := Text.splitLast?_append_eq_none hlist hitems
  have htext : (Document.parameters fields ++ ")" ++ Schema.initializers fields ++
      " \x7b\x7d").toList = (Document.parameters fields).toList ++ ") : ".toList ++
        ((String.intercalate ", " (fields.map fun f =>
          f.name ++ "\x7bstd::move(" ++ f.name ++ ")\x7d")).toList ++ " \x7b\x7d".toList) := by
    rw [Schema.initializers, if_neg (by simpa using hne)]
    simp only [String.toList_append, List.append_assoc]
    rfl
  rw [htext]
  exact Text.splitLast?_eq_some hafter _

/-- The parameters of a constructor end where its initializer list begins, or with the
parenthesis before the empty body, whatever the types hold. -/
theorem definedParameters?_eq {fields : List Field}
    (hnames : ∀ f ∈ fields, Name.isIdentifier f.name = true) :
    definedParameters? (Document.parameters fields ++ ")" ++ Schema.initializers fields ++
      " \x7b\x7d").toList = some (Document.parameters fields).toList := by
  cases fields with
  | nil => rfl
  | cons f fields =>
    rw [definedParameters?, splitLast?_constructor (List.cons_ne_nil f fields) hnames]

/-- The body of an acceptance names the class and the visitor that it accepts. -/
theorem acceptance?_eq (h : s.Sound) (hkind : kind ∈ s.concreteKinds) :
    acceptance? (s.acceptLine kind) =
      some ((s.signature kind).path.toList, (s.signature kind).visitor.toList) := by
  have hopen : '(' ∉ (s.signature kind).path.toList ++ "::accept".toList := by
    have hpath : '(' ∉ (s.signature kind).path.toList := not_mem_path h hkind rfl (by decide)
    simp [hpath]
  have hline : (s.acceptLine kind).toList = "void ".toList ++ ((s.signature kind).path.toList ++
      "::accept".toList ++ "(".toList ++ (s.signature kind).visitor.toList) ++
        "& visitor) const \x7b visitor.visit(*this); \x7d".toList := by
    simp [Schema.acceptLine, Schema.signature]
  have hsplit : ((s.signature kind).path.toList ++ "::accept".toList ++ "(".toList ++
      (s.signature kind).visitor.toList).dropInfix? "(".toList =
        some ((s.signature kind).path.toList ++ "::accept".toList,
          (s.signature kind).visitor.toList) :=
    Text.dropInfix?_of_not_mem hopen [] _
  rw [acceptance?, hline, Text.within?_append]
  simp only [Option.bind_eq_bind, Option.bind_some, hsplit, Text.dropSuffix?_append]
  rfl

theorem not_mem_constructor (h : s.Sound) (hkind : kind ∈ s.concreteKinds) {c : Char}
    (hc : Name.isIdentifierRest c = false) (hcolon : c ≠ ':') :
    c ∉ (s.qualifiedName kind.parent ++ "::" ++ kind.name ++ "::" ++ kind.name).toList := by
  have hpath : c ∉ (s.qualifiedName kind.parent ++ "::" ++ kind.name).toList :=
    not_mem_path h hkind hc hcolon
  have hseparator : c ∉ "::".toList := by simp [hcolon]
  have hlast := Name.not_mem_of_isIdentifier (h.isIdentifier_concrete hkind).1 hc
  rw [String.toList_append, String.toList_append, List.mem_append, List.mem_append, not_or, not_or]
  exact ⟨⟨hpath, hseparator⟩, hlast⟩

theorem toList_constructorLine : (s.constructorLine kind).toList =
    (s.qualifiedName kind.parent ++ "::" ++ kind.name ++ "::" ++ kind.name).toList ++ "(".toList ++
      (Document.parameters kind.fields ++ ")" ++ Schema.initializers kind.fields ++
        " \x7b\x7d").toList := by
  rw [Schema.constructorLine]
  simp only [String.toList_append, List.append_assoc]

/-- The first parenthesis of a constructor line stands behind the name of the constructor. -/
theorem dropInfix?_constructorLine (h : s.Sound) (hkind : kind ∈ s.concreteKinds) :
    (s.constructorLine kind).toList.dropInfix? "(".toList =
      some ((s.qualifiedName kind.parent ++ "::" ++ kind.name ++ "::" ++ kind.name).toList,
        (Document.parameters kind.fields ++ ")" ++ Schema.initializers kind.fields ++
          " \x7b\x7d").toList) := by
  have hopen := not_mem_constructor h hkind (c := '(') rfl (by decide)
  rw [toList_constructorLine]
  exact Text.dropInfix?_of_not_mem hopen [] _

theorem defined?_eq (h : s.Sound) (hkind : kind ∈ s.concreteKinds) (rest : List String) :
    defined? (s.constructorLine kind) (s.acceptLine kind :: rest) = some (s.signature kind) := by
  obtain ⟨hname, -⟩ := h.isIdentifier_concrete hkind
  have hfields : ∀ f ∈ kind.fields, Name.isIdentifier f.name = true := fun f hf =>
    h.isIdentifier_field hkind hf
  rw [defined?, dropInfix?_constructorLine h hkind]
  simp only [Option.bind_eq_bind, Option.bind_some, definedPath?_eq hname,
    definedParameters?_eq hfields, List.head?_cons, acceptance?_eq h hkind, if_true,
    String.ofList_toList]
  rfl

/-- A constructor line has no space before its first parenthesis, so it cannot begin with
a word that is followed by one. -/
theorem isPrefixOf_constructorLine (h : s.Sound) (hkind : kind ∈ s.concreteKinds)
    {word : List Char} (hspace : ' ' ∈ word) (hopen : '(' ∉ word) :
    word.isPrefixOf (s.constructorLine kind).toList = false := by
  have hbefore : ' ' ∉
      (s.qualifiedName kind.parent ++ "::" ++ kind.name ++ "::" ++ kind.name).toList ++ ['('] := by
    rw [List.mem_append, not_or]
    exact ⟨not_mem_constructor h hkind rfl (by decide), by decide⟩
  rw [Bool.eq_false_iff, ne_eq, List.isPrefixOf_iff_prefix, toList_constructorLine]
  exact Text.not_prefix_of_mem hspace hbefore hopen _

/-- The lines of a body give its signature and nothing else. -/
theorem ofSource?_bodyBlock (h : s.Sound) (hkind : kind ∈ s.concreteKinds) (rest : List String) :
    ofSource? (s.bodyBlock kind ++ rest) = (ofSource? rest).map (s.signature kind :: ·) := by
  have hvoid : "void ".toList.isPrefixOf (s.constructorLine kind).toList = false :=
    isPrefixOf_constructorLine h hkind (by decide) (by decide)
  have hline : ¬ (s.constructorLine kind = "" ∨
      "void ".toList.isPrefixOf (s.constructorLine kind).toList = true) := by
    rw [hvoid]
    simp [Schema.constructorLine]
  have haccept : "void ".toList.isPrefixOf (s.acceptLine kind).toList = true := by
    simp [Schema.acceptLine]
  have hbody : ofSource? (s.constructorLine kind :: s.acceptLine kind :: rest) =
      (ofSource? rest).map (s.signature kind :: ·) := by
    rw [ofSource?, if_neg hline, ofSource?, if_pos (Or.inr haccept), defined?_eq h hkind]
    cases ofSource? rest <;> rfl
  rw [Schema.bodyBlock, List.cons_append, List.cons_append, ofSource?, if_pos (Or.inl rfl),
    ofSource?, if_pos (Or.inl rfl)]
  exact hbody

/-- The lines of the bodies give the signatures of their kinds. -/
theorem ofSource?_bodies (h : s.Sound) {kinds : List ConcreteKind}
    (hkinds : kinds ⊆ s.concreteKinds) :
    ofSource? (kinds.flatMap s.bodyBlock ++ [""]) = some (kinds.map s.signature) := by
  induction kinds with
  | nil => rfl
  | cons kind kinds ih =>
    obtain ⟨hkind, htail⟩ := List.cons_subset.1 hkinds
    rw [List.flatMap_cons, List.append_assoc, ofSource?_bodyBlock h hkind, ih htail]
    rfl

/-- The bodies are what stands after the inclusions of a source. -/
theorem afterInclusions_source (h : s.Sound) (header : String) :
    afterInclusions ((s.source header).lines ++ [""]) =
      s.concreteKinds.flatMap s.bodyBlock ++ [""] := by
  have hbodies : ∀ line ∈ s.concreteKinds.flatMap s.bodyBlock ++ [""],
      "#include ".toList.isPrefixOf line.toList = false := by
    intro line hline
    rcases List.mem_append.1 hline with hline | hline
    · obtain ⟨kind, hkind, hline⟩ := List.mem_flatMap.1 hline
      simp only [Schema.bodyBlock, List.mem_cons, List.not_mem_nil, or_false] at hline
      rcases hline with rfl | rfl | rfl | rfl
      · rfl
      · rfl
      · exact isPrefixOf_constructorLine h hkind (by decide) (by decide)
      · simp [Schema.acceptLine, List.isPrefixOf]
    · rw [List.mem_singleton.1 hline]
      rfl
  have hlines : (s.source header).lines ++ [""] =
      Document.provenance ++ ["", "#include <optional>", ""] ++
        Document.includeLine header :: (s.concreteKinds.flatMap s.bodyBlock ++ [""]) := by
    rw [Schema.source]
    simp only [List.append_assoc, List.cons_append, List.nil_append]
  rw [hlines]
  exact afterInclusions_append _ header hbodies

/-! ### Agreement -/

/-- The path of a concrete kind of a sound schema tells the kind. -/
theorem path_injective (h : s.Sound) {a b : ConcreteKind} (ha : a ∈ s.concreteKinds)
    (hb : b ∈ s.concreteKinds) (hpath : (s.signature a).path = (s.signature b).path) : a = b := by
  obtain ⟨hname, hparent⟩ := h.isIdentifier_concrete ha
  obtain ⟨hname', hparent'⟩ := h.isIdentifier_concrete hb
  obtain ⟨hscope, hlast⟩ := Schema.nested_injective hname hname' hpath
  have heq := Schema.qualifiedName_injective hparent hparent' hscope
  exact List.inj_on_of_nodup_map h.nodup_concreteKinds ha hb (Prod.ext heq hlast)

theorem nodup_paths (h : s.Sound) :
    ((s.concreteKinds.map s.signature).map Signature.path).Nodup := by
  rw [List.map_map]
  exact List.Nodup.map_on (fun _ ha _ hb hpath => path_injective h ha hb hpath)
    (List.Nodup.of_map _ h.nodup_concreteKinds)

/-- The header of a sound schema declares and its source defines the same signatures, one
for each concrete kind and no two of one path. -/
theorem header_source_agree (hs : s.verify = .ok ()) (hlines : s.Unbroken) {header : String}
    (hblank : Text.trim header ≠ "") (hheader : Text.Unbroken header) (header? : Option String) :
    ∃ declaration definition,
      s.generate .declaration header? = .ok declaration ∧
      s.generate .definition (some header) = .ok definition ∧
      ofHeader? (Text.parts '\n' declaration.text) = some (s.concreteKinds.map s.signature) ∧
      ofSource? (afterInclusions (Text.parts '\n' definition.text)) =
        some (s.concreteKinds.map s.signature) ∧
      ((s.concreteKinds.map s.signature).map Signature.path).Nodup := by
  have h := Schema.sound_of_verify hs
  refine ⟨s.header, s.source (Text.trim header), Schema.generate_declaration hs header?,
    Schema.generate_definition hs hblank, ?_, ?_, nodup_paths h⟩
  · rw [Document.parts_text (h.unbroken_header hlines)]
    exact ofHeader?_header h
  · rw [Document.parts_text (h.unbroken_source hlines (Schema.unbroken_trim hheader)),
      afterInclusions_source h]
    exact ofSource?_bodies h (List.Subset.refl _)

theorem nestedCall_header_source_agree : ∃ declaration definition,
    Schema.nestedCall.generate .declaration none = .ok declaration ∧
    Schema.nestedCall.generate .definition (some " ast.hpp ") = .ok definition ∧
    ofHeader? (Text.parts '\n' declaration.text) =
      some [⟨"Node::Expr::Call", "std::function<int(int)> callee", "Node::Expr::Visitor"⟩] ∧
    ofSource? (afterInclusions (Text.parts '\n' definition.text)) =
      some [⟨"Node::Expr::Call", "std::function<int(int)> callee", "Node::Expr::Visitor"⟩] ∧
    ["Node::Expr::Call"].Nodup :=
  header_source_agree Schema.nestedCall_verify Schema.nestedCall_unbroken (by decide) (by decide)
    none

end Signature
end VisitorGen
