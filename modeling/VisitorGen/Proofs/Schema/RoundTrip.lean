import VisitorGen.Proofs.Json.Layout
import VisitorGen.Proofs.Json.Members
import VisitorGen.Schema.Encoding
import VisitorGen.Schema.Loading

/-! Stored schemas are read back. A decoder inverts a way of writing when it is faithful
and converts what is written (`Json.Decoder.Inverts`). That the text makes no difference
to it then follows for either layout (`read_compact`, `read_pretty`), so each type of the
schema has only its members to be looked at. `stored_reads_back` says it of all five types,
and of compiling the text of a schema. -/
namespace VisitorGen
open Json (Decoder Value nestingLimit)

namespace Json.Decoder
variable {α : Type}

/-- The decoder takes back what is written as a JSON value of at most the given depth. -/
structure Inverts (d : Decoder α) (toJson : α → Value) (depth : Nat) : Prop where
  faithful : d.Faithful
  convert : ∀ a, d.convert (toJson a) = .ok a
  plain : ∀ a, (toJson a).Plain depth

variable {d : Decoder α} {toJson : α → Value} {depth : Nat}

theorem mapM_convert (hd : ∀ a, d.convert (toJson a) = .ok a) (as : List α) :
    (as.map toJson).mapM d.convert = .ok as := by
  induction as with
  | nil => rfl
  | cons a as ih =>
    rw [List.map_cons, List.mapM_cons, hd, ih]
    rfl

theorem inverts_string : string.Inverts .string 0 :=
  ⟨faithful_string, fun _ => rfl, fun _ => trivial⟩

theorem Inverts.list (h : d.Inverts toJson depth) :
    d.list.Inverts (fun as => .array (as.map toJson)) (depth + 1) where
  faithful := faithful_list h.faithful
  convert := mapM_convert h.convert
  plain as := by
    intro item hitem
    obtain ⟨a, -, rfl⟩ := List.mem_map.1 hitem
    exact h.plain a

/-- White space after what is written makes no difference. -/
theorem Inverts.read_before_space (h : d.Inverts toJson depth) (a : α) {text space : List Char}
    (htext : Spells nestingLimit text (toJson a)) (hspace : ∀ c ∈ space, isSpace c = true) :
    d.read (String.ofList (text ++ space)) = .ok a := by
  have hend : skipSpace space = [] := List.append_nil space ▸ skipSpace_append hspace []
  have hscan := h.faithful (htext space)
  rw [h.convert a] at hscan
  rw [read, String.toList_ofList]
  cases hread : d.scan nestingLimit (text ++ space) with
  | error fault => simp [hread] at hscan
  | ok result =>
    rw [hread] at hscan
    cases hscan
    simp only [hend]

theorem Inverts.read_spelled (h : d.Inverts toJson depth) (a : α) {text : List Char}
    (htext : Spells nestingLimit text (toJson a)) : d.read (String.ofList text) = .ok a := by
  have hread := h.read_before_space a htext (List.forall_mem_nil _)
  rwa [List.append_nil] at hread

theorem Inverts.read_compact (h : d.Inverts toJson depth) (hdepth : depth ≤ nestingLimit) (a : α) :
    d.read (toJson a).compact = .ok a :=
  h.read_spelled a (Value.spells_compact ((h.plain a).mono hdepth))

theorem Inverts.read_pretty (h : d.Inverts toJson depth) (hdepth : depth ≤ nestingLimit) (a : α) :
    d.read (toJson a).pretty = .ok a :=
  h.read_spelled a (Value.spells_pretty 0 ((h.plain a).mono hdepth))

theorem Inverts.read_pretty_line (h : d.Inverts toJson depth) (hdepth : depth ≤ nestingLimit)
    (a : α) : d.read ((toJson a).pretty ++ "\n") = .ok a := by
  have hspace : ∀ c ∈ ['\n'], isSpace c = true := List.forall_mem_singleton.2 rfl
  have hread := h.read_before_space a (Value.spells_pretty 0 ((h.plain a).mono hdepth)) hspace
  rwa [String.ofList_append] at hread

theorem convert_map {β : Type} {v : Value} {a : α} (h : d.convert v = .ok a) (f : α → β) :
    (d.map f).convert v = .ok (f a) :=
  Json.bind_eq_ok.2 ⟨a, h, rfl⟩

end Json.Decoder

/-! ### Objects -/

namespace Json
variable {α δ τ : Type}

theorem Record.foldlM_cons {r : Record δ α} {slot : Slot δ} {draft draft' : δ} {fill : δ → δ}
    {key : String} {v : Value} {members : List (String × Value)} (hslot : r.slot? key = some slot)
    (hempty : slot.filled draft = false) (hfill : slot.decoder.convert v = .ok fill)
    (hmore : members.foldlM r.convertMember (fill draft) = .ok draft') :
    ((key, v) :: members).foldlM r.convertMember draft = .ok draft' := by
  have hmember : r.convertMember draft (key, v) = .ok (fill draft) := by
    simp only [Record.convertMember, hslot, hempty, hfill]
    rfl
  rw [List.foldlM_cons]
  exact bind_eq_ok.2 ⟨fill draft, hmember, hmore⟩

theorem Record.convert_object {r : Record δ α} {draft : δ} {members : List (String × Value)} {a : α}
    (hfold : members.foldlM r.convertMember r.empty = .ok draft)
    (hfinish : r.finish Record.lackInObject draft = .ok a) :
    r.decoder.convert (.object members) = .ok a :=
  bind_eq_ok.2 ⟨draft, hfold, hfinish⟩

/-- The tag is told from the other members by its key, wherever it stands. -/
theorem Tagged.convert_object {t : Tagged τ α} {v : Value} {tag : τ}
    (before : List (String × Value)) {after : List (String × Value)}
    (htag : t.tag.convert v = .ok tag) (hothers : ∀ member ∈ before ++ after, member.1 ≠ t.key) :
    t.decoder.convert (.object (before ++ (t.key, v) :: after)) =
      t.content tag (.object (before ++ after)) := by
  have htags : (before ++ after).filter (·.1 == t.key) = [] :=
    List.filter_eq_nil_iff.2 fun member hmember => by simpa using hothers member hmember
  have hrest : (before ++ after).filter (·.1 != t.key) = before ++ after :=
    List.filter_eq_self.2 fun member hmember => by simpa using hothers member hmember
  have hkey : (t.key, v).1 = t.key := rfl
  rw [List.filter_append] at htags hrest
  obtain ⟨hbefore, hafter⟩ := List.append_eq_nil_iff.1 htags
  simp only [Tagged.decoder, Tagged.convert, Tagged.convertObject, List.filter_append]
  rw [(Tagged.filter_tag hkey after).1, (Tagged.filter_tag hkey after).2, hbefore, hafter, hrest]
  exact congrArg (· >>= fun tag => t.content tag (.object (before ++ after))) htag

end Json

/-! ### The schema types -/

open Json (Record Tagged)
open Json.Decoder

theorem Field.faithful : Field.record.Faithful := by simp [Record.Faithful, record]

theorem Field.inverts : Field.decoder.Inverts Field.toJson 1 where
  faithful := Record.faithful_decoder Field.faithful
  convert _ := rfl
  plain f := by simp [toJson, members, Value.Plain]

theorem AbstractKind.faithful : AbstractKind.record.Faithful := by simp [Record.Faithful, record]

theorem AbstractKind.inverts : AbstractKind.decoder.Inverts AbstractKind.toJson 1 where
  faithful := Record.faithful_decoder AbstractKind.faithful
  convert kind := by
    obtain ⟨name, parent?⟩ := kind
    cases parent? <;> rfl
  plain kind := by
    obtain ⟨name, parent?⟩ := kind
    cases parent? <;> simp [toJson, members, Value.Plain]

theorem ConcreteKind.faithful : ConcreteKind.record.Faithful := by
  simp [Record.Faithful, record, Field.inverts.list.faithful]

theorem ConcreteKind.inverts : ConcreteKind.decoder.Inverts ConcreteKind.toJson 3 where
  faithful := Record.faithful_decoder ConcreteKind.faithful
  convert kind := by
    have hfields := Field.inverts.list.convert kind.fields
    exact Record.convert_object (Record.foldlM_cons rfl rfl rfl
      (Record.foldlM_cons rfl rfl (convert_map hfields _) (Record.foldlM_cons rfl rfl rfl rfl))) rfl
  plain kind := by
    have hfields := Field.inverts.list.plain kind.fields
    refine List.forall_mem_cons.2 ⟨trivial, List.forall_mem_cons.2 ⟨hfields, ?_⟩⟩
    exact List.forall_mem_singleton.2 trivial

theorem Entry.inverts : Entry.decoder.Inverts Entry.toJson 3 where
  faithful := Tagged.faithful_decoder (faithful_choice _ _ _)
  convert e := by
    cases e with
    | ofAbstract kind =>
      have hothers : ∀ member ∈ kind.members, member.1 ≠ "kind" := by
        obtain ⟨name, parent?⟩ := kind
        cases parent? <;> simp [AbstractKind.members]
      have htag : tagged.tag.convert (.string "abstract") = .ok .isAbstract := rfl
      exact (Tagged.convert_object [] htag hothers).trans
        (Json.bind_eq_ok.2 ⟨kind, AbstractKind.inverts.convert kind, rfl⟩)
    | ofConcrete kind =>
      have hothers : ∀ member ∈ kind.members, member.1 ≠ "kind" := by simp [ConcreteKind.members]
      have htag : tagged.tag.convert (.string "concrete") = .ok .isConcrete := rfl
      exact (Tagged.convert_object [] htag hothers).trans
        (Json.bind_eq_ok.2 ⟨kind, ConcreteKind.inverts.convert kind, rfl⟩)
  plain e := by
    cases e with
    | ofAbstract kind =>
      have hkind := (AbstractKind.inverts.plain kind).mono (by decide : 1 ≤ 3)
      exact List.forall_mem_cons.2 ⟨trivial, hkind⟩
    | ofConcrete kind =>
      exact List.forall_mem_cons.2 ⟨trivial, ConcreteKind.inverts.plain kind⟩

theorem Schema.inverts : Schema.decoder.Inverts Schema.toJson 5 where
  faithful := Record.faithful_decoder (by
    simp [Record.Faithful, record, inverts_string.list.faithful, Entry.inverts.list.faithful])
  convert s := by
    have hincludes := inverts_string.list.convert s.includes
    have hentries := Entry.inverts.list.convert s.entries
    exact Record.convert_object (Record.foldlM_cons rfl rfl (convert_map hincludes _)
      (Record.foldlM_cons rfl rfl (convert_map hentries _) rfl)) rfl
  plain s := by
    have hincludes := (inverts_string.list.plain s.includes).mono (by decide : 1 ≤ 4)
    have hentries := Entry.inverts.list.plain s.entries
    exact List.forall_mem_cons.2 ⟨hincludes, List.forall_mem_singleton.2 hentries⟩

/-- A text with a line end after it is what a file with a schema holds. -/
theorem read_text_line (s : Schema) : Schema.decoder.read (s.text ++ "\n") = .ok s :=
  Schema.inverts.read_pretty_line (by decide) s

theorem compile_text (s : Schema) : Schema.compile s.text = s.verify.map fun _ => s := by
  have hread : Schema.decoder.read s.text = .ok s := Schema.inverts.read_pretty (by decide) s
  rw [Schema.compile, hread]
  show (s.verify >>= fun _ => pure s) = s.verify.map fun _ => s
  cases s.verify <;> rfl

/-- Whatever strings they hold, schemas are read back from the text in which they are stored,
and each of the schema types from its compact text. Compiling the text of a schema only
verifies the schema. -/
theorem stored_reads_back :
    (∀ s : Schema, Schema.decoder.read s.text = .ok s ∧
      Schema.compile s.text = s.verify.map fun _ => s) ∧
    (∀ f : Field, Field.decoder.read f.toJson.compact = .ok f) ∧
    (∀ kind : AbstractKind, AbstractKind.decoder.read kind.toJson.compact = .ok kind) ∧
    (∀ kind : ConcreteKind, ConcreteKind.decoder.read kind.toJson.compact = .ok kind) ∧
    (∀ e : Entry, Entry.decoder.read e.toJson.compact = .ok e) ∧
    ∀ s : Schema, Schema.decoder.read s.toJson.compact = .ok s := by
  refine ⟨fun s => ⟨Schema.inverts.read_pretty ?_ s, compile_text s⟩,
    Field.inverts.read_compact ?_, AbstractKind.inverts.read_compact ?_,
    ConcreteKind.inverts.read_compact ?_, Entry.inverts.read_compact ?_,
    Schema.inverts.read_compact ?_⟩
  all_goals decide

end VisitorGen
