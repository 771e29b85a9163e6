import VisitorGen.Proofs.Document.Readback

/-! What a source depends on. The bodies of a source are written from the concrete kinds of
the schema and the paths of their parents (`placedKinds`), and the one line before them from
the target of the header. Includes, abstract kinds that no concrete kind needs and the places
of the abstract kinds leave no trace. The other way round, a source tells both apart: as long
as no type holds a comma, the parameters of a constructor are read back as its fields.
`source_depends` says both. -/
namespace VisitorGen

namespace Schema

/-- The concrete kinds in schema order, each with the path of its parent. -/
def placedKinds (s : Schema) : List (String × ConcreteKind) :=
  s.concreteKinds.map fun kind => (s.qualifiedName kind.parent, kind)

/-- No type holds a character that ends a parameter or a line. -/
def PlainTypes (s : Schema) : Prop :=
  ∀ kind ∈ s.concreteKinds, ∀ f ∈ kind.fields, ',' ∉ f.type.toList ∧ Text.Unbroken f.type

theorem PlainTypes.unbroken {s : Schema} (h : s.PlainTypes) :
    ∀ kind ∈ s.concreteKinds, ∀ f ∈ kind.fields, Text.Unbroken f.type :=
  fun kind hkind f hf => (h kind hkind f hf).2

instance (s : Schema) : Decidable s.PlainTypes :=
  inferInstanceAs (Decidable (∀ kind ∈ s.concreteKinds, ∀ f ∈ kind.fields, _ ∧ _))

end Schema

namespace Dependence
open Document

variable {s : Schema} {kind : ConcreteKind}

/-! ### The source as a function of the placed kinds -/

/-- The body of a concrete kind, with the path of its parent given. -/
def placedBody : String × ConcreteKind → List String
  | (scope, kind) =>
    ["", "", scope ++ "::" ++ kind.name ++ "::" ++ kind.name ++ "(" ++ parameters kind.fields ++
        ")" ++ Schema.initializers kind.fields ++ " \x7b\x7d",
      "void " ++ scope ++ "::" ++ kind.name ++ "::accept(" ++ scope ++
        "::Visitor& visitor) const \x7b visitor.visit(*this); \x7d"]

theorem source_eq (header : String) :
    s.source header = ⟨Schema.opening header ++ s.placedKinds.flatMap placedBody⟩ := by
  rw [Schema.placedKinds, List.flatMap_map]
  rfl

theorem source_congr {t : Schema} {header header' : String}
    (htarget : includeTarget header = includeTarget header')
    (hkinds : s.placedKinds = t.placedKinds) : s.source header = t.source header' := by
  rw [source_eq, source_eq, hkinds, Schema.opening, Schema.opening, includeLine, includeLine,
    htarget]

/-! ### Reading placed kinds -/

/-- The field of a parameter with a space before it. -/
def parameter? (text : String) : Option Field :=
  (text.toList.dropPrefix? " ".toList).bind Readback.spelled?

/-- The fields of a list of parameters, which a comma and a space set apart. -/
def fields? (parameters : String) : Option (List Field) :=
  if parameters = "" then some [] else (Text.parts ',' (" " ++ parameters)).mapM parameter?

/-- The concrete kind of a signature and the path of its parent. -/
def placed? (signature : Signature) : Option (String × ConcreteKind) := do
  let (scope, name) ← Text.splitLast? Schema.pathSeparator signature.path.toList
  let fields ← fields? signature.parameters
  return (.ofList scope, ⟨.ofList name, fields, Schema.lastName (.ofList scope)⟩)

theorem parameter?_eq {f : Field} (hname : Name.isIdentifier f.name = true) :
    parameter? (" " ++ (f.type ++ " " ++ f.name)) = some f := by
  rw [parameter?, String.toList_append, Text.dropPrefix?_append, String.toList_append,
    String.toList_append]
  exact Readback.spelled?_eq hname

/-- Parameters without a comma in their types are read back as the fields they were. -/
theorem fields?_parameters {fields : List Field}
    (hnames : ∀ f ∈ fields, Name.isIdentifier f.name = true)
    (htypes : ∀ f ∈ fields, ',' ∉ f.type.toList) : fields? (parameters fields) = some fields := by
  cases fields with
  | nil => rfl
  | cons f fields =>
    have hempty : parameters (f :: fields) ≠ "" := by
      unfold parameters
      cases fields with
      | nil => simp
      | cons next fields =>
        rw [List.map_cons, List.map_cons, String.intercalate_cons_cons]
        simp
    have hplain : ∀ text ∈ (f :: fields).map fun f => f.type ++ " " ++ f.name,
        ',' ∉ text.toList := by
      refine List.forall_mem_map.2 fun f hf => ?_
      have hname := Name.not_mem_of_isIdentifier (hnames f hf) (c := ',') rfl
      simp [htypes f hf, hname]
    have hseparator : ", " = "," ++ " " := rfl
    rw [fields?, if_neg hempty, parameters, hseparator,
      Text.parts_intercalate rfl (by decide) (by simp) hplain, List.map_map]
    exact Text.mapM_map_eq_self fun f hf => parameter?_eq (hnames f hf)

theorem placed?_signature (h : s.Sound) (hplain : s.PlainTypes) (hkind : kind ∈ s.concreteKinds) :
    placed? (s.signature kind) = some (s.qualifiedName kind.parent, kind) := by
  obtain ⟨hname, hparent⟩ := h.isIdentifier_concrete hkind
  have hfields := fields?_parameters (fun f hf => h.isIdentifier_field hkind hf)
    fun f hf => (hplain kind hkind f hf).1
  have hpath : (s.signature kind).path.toList =
      (s.qualifiedName kind.parent).toList ++ Schema.pathSeparator ++ kind.name.toList :=
    Schema.toList_nested _ _
  rw [placed?, hpath, Schema.splitLast?_path hname]
  show ((fields? (parameters kind.fields)).bind fun fields => some (String.ofList _,
    ConcreteKind.mk (.ofList _) fields (Schema.lastName (.ofList _)))) = _
  rw [hfields, String.ofList_toList, String.ofList_toList,
    Schema.lastName_qualifiedName hparent]
  rfl

/-- The bodies of a source tell the placed kinds. -/
theorem placedKinds_of_bodies (h : s.Sound) (hplain : s.PlainTypes) :
    ((Signature.ofSource? (s.concreteKinds.flatMap s.bodyBlock ++ [""])).bind
      (List.mapM placed?)) = some s.placedKinds := by
  rw [Signature.ofSource?_bodies h (List.Subset.refl _)]
  exact Text.mapM_map_eq_some fun kind hkind => placed?_signature h hplain hkind

/-! ### Dependence -/

theorem length_opening (header : String) : (Schema.opening header).length = 7 := rfl

/-- The opening of a source tells the target of its header. -/
theorem opening_injective {header header' : String}
    (h : Schema.opening header = Schema.opening header') :
    includeTarget header = includeTarget header' := by
  have hline : includeLine header = includeLine header' := by simpa [Schema.opening] using h
  exact (String.append_right_inj "#include ").1 hline

/-- The text of a source with plain types tells what the source depends on. -/
theorem eq_of_text_source {t : Schema} (hs : s.Sound) (ht : t.Sound) (hsplain : s.PlainTypes)
    (htplain : t.PlainTypes) {header header' : String} (hheader : Text.Unbroken header)
    (hheader' : Text.Unbroken header') (htext : (s.source header).text = (t.source header').text) :
    includeTarget header = includeTarget header' ∧ s.placedKinds = t.placedKinds := by
  have hparts := parts_text (hs.unbroken_source_of_types hsplain.unbroken hheader)
  have hparts' := parts_text (ht.unbroken_source_of_types htplain.unbroken hheader')
  have hlines : Schema.opening header ++ s.concreteKinds.flatMap s.bodyBlock =
      Schema.opening header' ++ t.concreteKinds.flatMap t.bodyBlock := by
    rw [← Dispatch.lines_source, ← Dispatch.lines_source]
    exact List.append_cancel_right (hparts.symm.trans (htext ▸ hparts'))
  obtain ⟨hopening, hbodies⟩ := List.append_inj hlines (by rw [length_opening, length_opening])
  refine ⟨opening_injective hopening, Option.some.inj ?_⟩
  rw [← placedKinds_of_bodies hs hsplain, ← placedKinds_of_bodies ht htplain, hbodies]

/-- A source depends on the target of its header and on the placed kinds of its schema, and on
nothing else; with plain types it tells both. -/
theorem source_depends {a b : Schema} (ha : a.verify = .ok ()) (hb : b.verify = .ok ())
    {h k : String} (hh : Text.trim h ≠ "") (hk : Text.trim k ≠ "") :
    ∃ da db, a.generate .definition (some h) = .ok da ∧
      b.generate .definition (some k) = .ok db ∧
      (includeTarget (Text.trim h) = includeTarget (Text.trim k) →
        a.placedKinds = b.placedKinds → da.text = db.text) ∧
      (a.PlainTypes → b.PlainTypes → Text.Unbroken h → Text.Unbroken k → da.text = db.text →
        includeTarget (Text.trim h) = includeTarget (Text.trim k) ∧
          a.placedKinds = b.placedKinds) := by
  have hsa := Schema.sound_of_verify ha
  have hsb := Schema.sound_of_verify hb
  refine ⟨a.source (Text.trim h), b.source (Text.trim k), Schema.generate_definition ha hh,
    Schema.generate_definition hb hk, fun htarget hkinds => ?_, ?_⟩
  · rw [source_congr htarget hkinds]
  · intro haplain hbplain hhlines hklines htext
    exact eq_of_text_source hsa hsb haplain hbplain (Schema.unbroken_trim hhlines)
      (Schema.unbroken_trim hklines) htext

/-- Another spelling of the header and a kind that nothing is placed in change no source, another
header does. -/
theorem nestedCall_source_depends : ∃ da db dc,
    Schema.nestedCall.generate .definition (some " ast.hpp ") = .ok da ∧
    (Schema.mk [] (.ofAbstract (.root "Aside") :: Schema.nestedCall.entries)).generate .definition
      (some "\"ast.hpp\"") = .ok db ∧
    Schema.nestedCall.generate .definition (some "<ast.hpp>") = .ok dc ∧
    da.text = db.text ∧ da.text ≠ dc.text := by
  obtain ⟨da, db, hda, hdb, hsame, -⟩ := source_depends
    (b := ⟨[], .ofAbstract (.root "Aside") :: Schema.nestedCall.entries⟩)
    Schema.nestedCall_verify rfl (h := " ast.hpp ") (k := "\"ast.hpp\"")
    (by decide) (by decide)
  obtain ⟨da', dc, hda', hdc, -, hapart⟩ := source_depends Schema.nestedCall_verify
    Schema.nestedCall_verify (h := " ast.hpp ") (k := "<ast.hpp>") (by decide) (by decide)
  obtain rfl : da' = da := by simpa [hda'] using hda
  refine ⟨da', db, dc, hda', hdb, hdc, hsame (by decide) (by decide), fun htext => ?_⟩
  have htargets := (hapart (by decide) (by decide) (by decide) (by decide) htext).1
  exact absurd htargets (by decide)

end Dependence
end VisitorGen
