import VisitorGen.Proofs.Document.Declared

/-! A header determines its schema. The struct of an entry tells the entry: its heading the
name, the parent and whether the kind is concrete, its last lines the fields. A parent is
written as a whole path, but its name is the last component and that is all an entry holds
of it. Types are copied as they are and may look like anything; a field line is read from
its two ends, where nothing of the type stands. `header_determines_schema` says of two sound
schemas that their headers are one text just when they have the same entries and include
the same targets. -/
namespace VisitorGen

namespace Readback
open Dispatch Declared

/-! ### Reading entries -/

/-- The name of the innermost scope of a path. -/
def scopeName? (path : String) : Option String :=
  (Text.splitLast? Schema.pathSeparator path.toList).map fun (scope, _) =>
    Schema.lastName (.ofList scope)

/-- The field that a declaration spells: the name is the last word, the type all before it. -/
def spelled? (text : List Char) : Option Field :=
  (Text.splitLast? " ".toList text).map fun (type, name) => ⟨.ofList name, .ofList type⟩

/-- The field of an indented line. -/
def field? (line : String) : Option Field :=
  (Text.within? "    ".toList ";".toList line.toList).bind spelled?

/-- The entry of a struct. One with a base is concrete, and after the brace, the constructor
and the acceptance its body has the fields. -/
def entryOf? (b : Block) : Option Entry := do
  let head ← head? b
  match head.base? with
  | none => return .ofAbstract ⟨Schema.lastName head.path, scopeName? head.path⟩
  | some base =>
    return .ofConcrete ⟨Schema.lastName head.path, ← (b.body.drop 3).mapM field?,
      Schema.lastName base⟩

/-- The entries of all structs that the lines of a header define. -/
def entries? (lines : List String) : Option (List Entry) :=
  ((blocks lines).filter fun b => isStruct b.heading).mapM entryOf?

/-! ### Reading inclusions -/

def target? (line : String) : Option String :=
  (line.toList.dropPrefix? "#include ".toList).map String.ofList

/-- What a header includes after its own two standard headers. -/
def targets (lines : List String) : List String := (lines.filterMap target?).drop 2

variable {s : Schema}

/-! ### Entries of a header -/

theorem scopeName?_nested {name p : String} (hname : Name.isIdentifier name = true)
    (hp : Name.isIdentifier p = true) :
    scopeName? (s.qualifiedName p ++ "::" ++ name) = some p := by
  rw [scopeName?, Schema.toList_nested, Schema.splitLast?_path hname]
  show some (Schema.lastName (.ofList (s.qualifiedName p).toList)) = _
  rw [String.ofList_toList, Schema.lastName_qualifiedName hp]

theorem scopeName?_name {name : String} (hname : Name.isIdentifier name = true) :
    scopeName? name = none := by
  rw [scopeName?, Schema.splitLast?_name hname]
  rfl

/-- The class of an entry ends with the name of the entry. -/
theorem lastName_classPath (h : s.Sound) {e : Entry} (he : e ∈ s.entries) :
    Schema.lastName (s.classPath e) = e.name := by
  have hname := h.isIdentifier_name he
  cases e with
  | ofAbstract kind => exact Schema.lastName_qualifiedName hname
  | ofConcrete kind => exact Schema.lastName_nested hname _

/-- The scope of an abstract kind has the name of its parent. -/
theorem scopeName?_classPath (h : s.Sound) {e : Entry} (he : e ∈ s.entries) :
    scopeName? (s.classPath e) = e.parent? := by
  have hname := h.isIdentifier_name he
  rw [h.classPath_eq he]
  cases hp : e.parent? with
  | none => exact scopeName?_name hname
  | some p => exact scopeName?_nested hname (h.isIdentifier_parent he hp)

/-- A field is read back whatever its type holds: no space stands in its name. -/
theorem spelled?_eq {f : Field} (hname : Name.isIdentifier f.name = true) :
    spelled? (f.type.toList ++ " ".toList ++ f.name.toList) = some f := by
  have hspace : Text.splitLast? " ".toList ([] ++ f.name.toList) = none :=
    Text.splitLast?_eq_none_of_not_mem (Name.not_mem_of_isIdentifier hname rfl) []
  have hsplit : Text.splitLast? " ".toList (f.type.toList ++ " ".toList ++ f.name.toList) =
      some (f.type.toList, f.name.toList) := Text.splitLast?_eq_some hspace _
  rw [spelled?, hsplit]
  show some (Field.mk (.ofList f.name.toList) (.ofList f.type.toList)) = some f
  rw [String.ofList_toList, String.ofList_toList]

theorem field?_eq {f : Field} (hname : Name.isIdentifier f.name = true) :
    field? ("    " ++ f.type ++ " " ++ f.name ++ ";") = some f := by
  have hline : ("    " ++ f.type ++ " " ++ f.name ++ ";").toList = "    ".toList ++
      (f.type.toList ++ " ".toList ++ f.name.toList) ++ ";".toList := by
    simp only [String.toList_append, List.append_assoc]
  rw [field?, hline, Text.within?_append]
  exact spelled?_eq hname

theorem mapM_field? (h : s.Sound) {kind : ConcreteKind} (hkind : kind ∈ s.concreteKinds) :
    ((s.structBody (.ofConcrete kind)).drop 3).mapM field? = some kind.fields :=
  Text.mapM_map_eq_self fun _ hf => field?_eq (h.isIdentifier_field hkind hf)

theorem entryOf?_structOf (h : s.Sound) {e : Entry} (he : e ∈ s.entries) :
    entryOf? (s.structOf e) = some e := by
  rw [entryOf?, head?_structOf h he]
  cases e with
  | ofAbstract kind =>
    show some (Entry.ofAbstract ⟨Schema.lastName _, scopeName? _⟩) = _
    rw [lastName_classPath h he, scopeName?_classPath h he]
    rfl
  | ofConcrete kind =>
    have hkind := Schema.mem_concreteKinds.2 he
    show ((((s.structBody (.ofConcrete kind)).drop 3).mapM field?).bind fun fields =>
      some (Entry.ofConcrete ⟨Schema.lastName _, fields, Schema.lastName _⟩)) = _
    rw [mapM_field? h hkind, lastName_classPath h he,
      Schema.lastName_qualifiedName (h.isIdentifier_concrete hkind).2]
    rfl

/-- The structs of a header are read back as the entries of its schema. -/
theorem entries?_header (h : s.Sound) : entries? (s.header.lines ++ [""]) = some s.entries := by
  have hstructs : ∀ b ∈ s.entries.map s.structOf, isStruct b.heading = true :=
    List.forall_mem_map.2 fun e _ => isStruct_heading e
  have hvisitors : ∀ b ∈ (parentsAmong s.concreteKinds).map s.visitorOf,
      ¬ isStruct b.heading = true :=
    List.forall_mem_map.2 fun parent _ => by rw [isStruct_visitorOf]; decide
  rw [entries?, blocks_header, List.filter_append, List.filter_eq_self.2 hstructs,
    List.filter_eq_nil_iff.2 hvisitors, List.append_nil]
  exact Text.mapM_map_eq_self fun _ he => entryOf?_structOf h he

/-! ### Inclusions of a header -/

theorem target?_includeLine (target : String) :
    target? (Document.includeLine target) = some (Document.includeTarget target) := by
  rw [target?, Document.includeLine, String.toList_append, Text.dropPrefix?_append,
    Option.map_some, String.ofList_toList]

/-- Only a line that begins with a number sign is an inclusion. -/
theorem target?_eq_none {line : String} (h : line.toList.head? ≠ some '#') :
    target? line = none := by
  refine Option.map_eq_none_iff.2 (Option.eq_none_iff_forall_ne_some.2 fun rest hrest => h ?_)
  obtain ⟨word, hline, hword⟩ := List.dropPrefix?_eq_some_iff.1 hrest
  rw [hline, eq_of_beq hword]
  rfl

theorem target?_member {line : String} (h : IsMember line) : target? line = none := by
  apply target?_eq_none
  rcases h with h | h | h <;> (rw [h]; decide)

theorem target?_heading {line : String} (h : isHeading line = true) : target? line = none := by
  apply target?_eq_none
  rcases Bool.or_eq_true_iff.1 h with h | h
  all_goals
    obtain ⟨rest, hline⟩ := List.isPrefixOf_iff_prefix.1 h
    rw [← hline]
    simp

/-- No line of a class is an inclusion, whatever the types of its fields hold. -/
theorem filterMap_target?_class {heading : String} {body : List String}
    (hheading : isHeading heading = true) (hbody : ∀ line ∈ body, IsMember line) :
    (["", ""] ++ heading :: body ++ ["\x7d;"]).filterMap target? = [] := by
  have hempty : target? "" = none := target?_eq_none (by decide)
  rw [List.filterMap_eq_nil_iff]
  simp only [List.forall_mem_append, List.forall_mem_cons]
  exact ⟨⟨⟨hempty, hempty, by simp⟩, target?_heading hheading,
    fun line hline => target?_member (hbody line hline)⟩, target?_eq_none (by decide), by simp⟩

theorem filterMap_target?_entries :
    (s.entries.flatMap s.entryBlock).filterMap target? = [] := by
  rw [List.filterMap_flatMap, List.flatMap_eq_nil_iff]
  intro e _
  rw [entryBlock_eq]
  exact filterMap_target?_class (by rw [isHeading, isStruct_heading]; rfl) (isMember_structBody e)

theorem filterMap_target?_visitors (parents : List String) :
    (parents.flatMap fun parent =>
      s.visitorBlock parent (childrenAmong s.concreteKinds parent)).filterMap target? = [] := by
  rw [List.filterMap_flatMap, List.flatMap_eq_nil_iff]
  intro parent _
  rw [Schema.visitorBlock_eq]
  exact filterMap_target?_class (by simp [isHeading, isStruct, isClass])
    (isMember_visitorMembers _ _)

theorem filterMap_target?_headerIncludes : s.headerIncludes.filterMap target? =
    ["<memory>", "<optional>"] ++ s.includes.map Document.includeTarget := by
  have hempty : target? "" = none := target?_eq_none (by decide)
  have hpragma : target? "#pragma once" = none := by rfl
  have hmemory : target? "#include <memory>" = some "<memory>" := target?_includeLine "<memory>"
  have hoptional : target? "#include <optional>" = some "<optional>" :=
    target?_includeLine "<optional>"
  have hincludes : (s.includes.map Document.includeLine).filterMap target? =
      s.includes.map Document.includeTarget := by
    rw [List.filterMap_map, List.filterMap_eq_map_iff_forall_eq_some]
    exact fun target _ => target?_includeLine target
  rw [Schema.headerIncludes, List.filterMap_append]
  simp only [List.filterMap_cons, List.filterMap_nil, hempty, hpragma, hmemory, hoptional]
  split
  · rename_i hnone
    rw [List.isEmpty_iff.1 hnone]
    rfl
  · simp only [List.filterMap_cons, hempty, hincludes]

theorem targets_header :
    targets (s.header.lines ++ [""]) = s.includes.map Document.includeTarget := by
  have hprovenance : Document.provenance.filterMap target? = [] :=
    List.filterMap_eq_nil_iff.2 fun line hline => target?_eq_none (by revert line; decide)
  have hlast : [""].filterMap target? = [] :=
    List.filterMap_cons_none (target?_eq_none (by decide))
  rw [targets, Schema.header, HierarchyIndex.groups_ofSchema, List.flatMap_map]
  simp only [List.filterMap_append, hprovenance, filterMap_target?_headerIncludes,
    filterMap_target?_entries, filterMap_target?_visitors, hlast, List.append_nil]
  rfl

/-! ### The header as a function of what is read -/

section Same

variable {t : Schema}

theorem entryBlock_congr (h : s.entries = t.entries) : s.entryBlock = t.entryBlock := by
  have hname := Schema.qualifiedName_congr h
  funext e
  cases e with
  | ofAbstract kind =>
    rw [Schema.entryBlock, Schema.entryBlock, Schema.abstractBlock, Schema.abstractBlock, hname,
      Schema.membersOf, Schema.membersOf, h]
  | ofConcrete kind =>
    rw [Schema.entryBlock, Schema.entryBlock, Schema.concreteBlock, Schema.concreteBlock, hname]

theorem visitorBlock_congr (h : s.entries = t.entries) : s.visitorBlock = t.visitorBlock := by
  have hline : s.visitLine = t.visitLine := by
    funext parent child
    unfold Schema.visitLine
    rw [Schema.qualifiedName_congr h]
  funext parent children
  rw [Schema.visitorBlock, Schema.visitorBlock, Schema.qualifiedName_congr h, hline]

theorem headerIncludes_congr
    (h : s.includes.map Document.includeTarget = t.includes.map Document.includeTarget) :
    s.headerIncludes = t.headerIncludes := by
  have hlines : ∀ u : Schema, u.headerIncludes =
      ["", "#pragma once", "", "#include <memory>", "#include <optional>"] ++
        if (u.includes.map Document.includeTarget).isEmpty then []
        else "" :: (u.includes.map Document.includeTarget).map ("#include " ++ ·) := by
    intro u
    rw [Schema.headerIncludes, List.isEmpty_map, List.map_map]
    rfl
  rw [hlines s, hlines t, h]

theorem header_congr (hentries : s.entries = t.entries)
    (hincludes : s.includes.map Document.includeTarget = t.includes.map Document.includeTarget) :
    s.header = t.header := by
  have hkinds : s.concreteKinds = t.concreteKinds :=
    congrArg (List.filterMap Entry.concrete?) hentries
  rw [Schema.header, Schema.header, headerIncludes_congr hincludes, entryBlock_congr hentries,
    visitorBlock_congr hentries, HierarchyIndex.ofSchema, HierarchyIndex.ofSchema, hkinds, hentries]

end Same

/-- The headers of two sound schemas are one text just when the schemas have the same entries
and include the same targets. The header names given to the generation play no part. -/
theorem header_determines_schema {a b : Schema} (ha : a.verify = .ok ()) (hb : b.verify = .ok ())
    (halines : a.Unbroken) (hblines : b.Unbroken) (header? header?' : Option String) :
    ∃ da db, a.generate .declaration header? = .ok da ∧
      b.generate .declaration header?' = .ok db ∧
      (da.text = db.text ↔ a.entries = b.entries ∧
        a.includes.map Document.includeTarget = b.includes.map Document.includeTarget) := by
  have hsa := Schema.sound_of_verify ha
  have hsb := Schema.sound_of_verify hb
  refine ⟨a.header, b.header, Schema.generate_declaration ha header?,
    Schema.generate_declaration hb header?', fun htext => ?_, fun ⟨hentries, hincludes⟩ => ?_⟩
  · have hlines : a.header.lines ++ [""] = b.header.lines ++ [""] := by
      rw [← Document.parts_text (hsa.unbroken_header halines),
        ← Document.parts_text (hsb.unbroken_header hblines), htext]
    refine ⟨Option.some.inj ?_, ?_⟩
    · rw [← entries?_header hsa, ← entries?_header hsb, hlines]
    · rw [← targets_header, ← targets_header, hlines]
  · rw [header_congr hentries hincludes]

/-- An include with quotes of its own is the include without them. -/
theorem nestedCall_header_determines_schema : ∃ da db,
    Schema.nestedCall.generate .declaration none = .ok da ∧
    ({ Schema.nestedCall with includes := ["\"ast/base.hpp\""] } : Schema).generate .declaration
      (some "ast.hpp") = .ok db ∧ da.text = db.text := by
  obtain ⟨da, db, hda, hdb, htext⟩ := header_determines_schema
    (b := { Schema.nestedCall with includes := ["\"ast/base.hpp\""] }) Schema.nestedCall_verify rfl
    Schema.nestedCall_unbroken ⟨by decide, by decide⟩ none (some "ast.hpp")
  exact ⟨da, db, hda, hdb, htext.2 ⟨rfl, by decide⟩⟩

end Readback
end VisitorGen
