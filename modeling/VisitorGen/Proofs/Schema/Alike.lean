import Mathlib.Data.List.Forall2
import VisitorGen.Proofs.Json.Invariance
import VisitorGen.Schema.Decoding

/-! Values of one schema. What a JSON value stands for depends on its place: at the place of a
schema, a field or an entry it is a struct with known members, the struct of an entry being
told by its tag. Two values are alike at a place when the one is made from the other by
changing the order of members, by adding or dropping members that the struct at the place does
not know, by writing out a default, and by making such changes further in (`Alike`).

Values that are alike are decoded to the same (`Alike.sameAt`). The induction is on the
changes: each is invisible to the decoder for its place, records and tagged values alike. -/
namespace VisitorGen
open Json (Value Decoder Record Slot Tagged Number)

/-- What a value is read for. At other places there are strings or nothing that is kept. -/
inductive Place where
  | schema
  | entries
  | entry
  | fields
  | field
  | other
deriving DecidableEq

/-- The structs of the schema types. -/
inductive Shape where
  | schema
  | abstractKind
  | concreteKind
  | field
deriving DecidableEq

namespace Shape

/-- The members that a struct knows, in its own order, and the place of each. The tag of an
entry comes first. -/
def places : Shape → List (String × Place)
  | schema => [("includes", .other), ("entries", .entries)]
  | abstractKind => [("kind", .other), ("name", .other), ("parent", .other)]
  | concreteKind => [("kind", .other), ("name", .other), ("fields", .fields), ("parent", .other)]
  | field => [("name", .other), ("type", .other)]

/-- The members that may be absent, with what their absence stands for. -/
def defaults : Shape → List (String × Value)
  | schema => [("includes", .array [])]
  | abstractKind => [("parent", .null)]
  | concreteKind => [("fields", .array [])]
  | field => []

/-- The struct that a tag names. -/
def ofTag? : Value → Option Shape
  | .string "abstract" => some abstractKind
  | .string "concrete" => some concreteKind
  | _ => none

end Shape

namespace Place

/-- The struct that a value at the place is. -/
def shape? : Place → Value → Option Shape
  | schema, _ => some .schema
  | field, _ => some .field
  | entry, .object members => (members.lookup "kind").bind Shape.ofTag?
  | entry, .array (tag :: _) => Shape.ofTag? tag
  | _, _ => none

/-- The place of the member of this name of an object at the place. -/
def member (p : Place) (members : List (String × Value)) (key : String) : Place :=
  ((p.shape? (.object members)).bind fun shape => shape.places.lookup key).getD other

/-- The place of the item at this position of a list at the place. -/
def item (p : Place) (items : List Value) (position : Nat) : Place :=
  match p with
  | entries => entry
  | fields => field
  | p => ((p.shape? (.array items)).bind fun shape => shape.places[position]?.map (·.2)).getD other

end Place

/-- The values are the same at the place but for the order of members, members that are not
known there and members that are written out with their defaults. No struct keeps a number, so
any two are alike. -/
inductive Alike : Place → Value → Value → Prop where
  | refl (p : Place) (v : Value) : Alike p v v
  | symm {p : Place} {v w : Value} (h : Alike p v w) : Alike p w v
  | trans {p : Place} {u v w : Value} (h : Alike p u v) (h' : Alike p v w) : Alike p u w
  | number (p : Place) (m n : Number) : Alike p (.number m) (.number n)
  | order (p : Place) {members members' : List (String × Value)} (h : members.Perm members') :
      Alike p (.object members) (.object members')
  | unknown {p : Place} {members : List (String × Value)} {shape : Shape} {key : String}
      (hshape : p.shape? (.object members) = some shape)
      (hkey : key ∉ shape.places.map (·.1)) (v : Value) :
      Alike p (.object ((key, v) :: members)) (.object members)
  | absent {p : Place} {members : List (String × Value)} {shape : Shape} {key : String} {v : Value}
      (hshape : p.shape? (.object members) = some shape) (hdefault : (key, v) ∈ shape.defaults)
      (habsent : key ∉ members.map (·.1)) :
      Alike p (.object (members ++ [(key, v)])) (.object members)
  | member {p : Place} {before after : List (String × Value)} {key : String} {v w : Value}
      (h : Alike (p.member (before ++ (key, v) :: after) key) v w) :
      Alike p (.object (before ++ (key, v) :: after)) (.object (before ++ (key, w) :: after))
  | item {p : Place} {before after : List Value} {v w : Value}
      (h : Alike (p.item (before ++ v :: after) before.length) v w) :
      Alike p (.array (before ++ v :: after)) (.array (before ++ w :: after))

/-! ### Records -/

/-- What every decoder for the place makes of the one value it makes of the other. -/
def SameAt : Place → Value → Value → Prop
  | .schema, v, w => Schema.decoder.Agrees v w
  | .entries, v, w => (Decoder.list Entry.decoder).Agrees v w
  | .entry, v, w => Entry.decoder.Agrees v w
  | .fields, v, w => (Decoder.list Field.decoder).Agrees v w
  | .field, v, w => Field.decoder.Agrees v w
  | .other, v, w => Decoder.string.Agrees v w ∧ (Decoder.optional .string).Agrees v w ∧
      (Decoder.list .string).Agrees v w ∧ Entry.tagged.tag.Agrees v w

variable {α δ : Type} {r : Record δ α} {places : List (String × Place)} {key : String} {v w : Value}

/-- The slots are for the members of these names, and each decoder is one for its place. -/
def Fits (slots : List (Slot δ)) (places : List (String × Place)) : Prop :=
  List.Forall₂ (fun slot place => slot.key = place.1 ∧
    ∀ v w, SameAt place.2 v w → slot.decoder.Agrees v w) slots places

theorem Fits.keys_eq {slots : List (Slot δ)} (h : Fits slots places) :
    slots.map (·.key) = places.map (·.1) := by
  induction h with
  | nil => rfl
  | cons hfirst _ ih => rw [List.map_cons, List.map_cons, hfirst.1, ih]

theorem Fits.slot?_eq_none (h : Fits r.slots places) (hkey : key ∉ places.map (·.1)) :
    r.slot? key = none := by
  rw [← h.keys_eq] at hkey
  exact List.find?_eq_none.2 fun slot hslot heq =>
    hkey (eq_of_beq heq ▸ List.mem_map_of_mem hslot)

theorem Fits.agrees_of_slot? {slots : List (Slot δ)} (h : Fits slots places) {slot : Slot δ}
    (hslot : slots.find? (·.key == key) = some slot)
    (hsame : SameAt ((places.lookup key).getD .other) v w) : slot.decoder.Agrees v w := by
  induction h with
  | nil => cases hslot
  | @cons first place slots places hfirst _ ih =>
    obtain ⟨hname, hagrees⟩ := hfirst
    obtain ⟨name, at'⟩ := place
    rw [List.find?_cons] at hslot
    rw [List.lookup_cons] at hsame
    by_cases hkey : key = name
    · have hhere : (first.key == key) = true := by simp [hname, hkey]
      rw [hhere] at hslot
      cases hslot
      simp only [hkey, beq_self_eq_true] at hsame
      exact hagrees v w hsame
    · have hthere : (first.key == key) = false := by simpa [hname] using Ne.symm hkey
      have hnext : (key == name) = false := by simpa using hkey
      rw [hthere] at hslot
      rw [hnext] at hsame
      exact ih hslot hsame

theorem Fits.agrees_of_getElem? {slots : List (Slot δ)} (h : Fits slots places) {position : Nat}
    {slot : Slot δ} (hslot : slots[position]? = some slot)
    (hsame : SameAt ((places[position]?.map (·.2)).getD .other) v w) :
    slot.decoder.Agrees v w := by
  obtain ⟨hlt, rfl⟩ := List.getElem?_eq_some_iff.1 hslot
  have hlt' : position < places.length := h.length_eq ▸ hlt
  rw [List.getElem?_eq_getElem hlt'] at hsame
  exact (List.Forall₂.get h hlt hlt').2 v w hsame

/-- The record reads the members at their places, in any order, and finishes without those that
have defaults as with them. -/
structure Sees (r : Record δ α) (places : List (String × Place))
    (defaults : List (String × Value)) : Prop where
  independent : r.Independent
  fits : Fits r.slots places
  absent : ∀ key v, (key, v) ∈ defaults → ∃ slot fill, r.slot? key = some slot ∧
    slot.decoder.convert v = .ok fill ∧ slot.filled r.empty = false ∧
    ∀ draft, slot.filled draft = false →
      r.finish Record.lackInObject (fill draft) = r.finish Record.lackInObject draft

namespace Sees

variable {defaults : List (String × Value)}

theorem agrees_absent (h : Sees r places defaults) {members : List (String × Value)}
    (hdefault : (key, v) ∈ defaults) (habsent : key ∉ members.map (·.1)) :
    r.decoder.Agrees (.object (members ++ [(key, v)])) (.object members) := by
  obtain ⟨slot, fill, hslot, hfill, hempty, hfinish⟩ := h.absent key v hdefault
  exact Record.agrees_absent h.independent hslot hfill hempty hfinish habsent

theorem agrees_member (h : Sees r places defaults) {before after : List (String × Value)}
    (hsame : SameAt ((places.lookup key).getD .other) v w) :
    r.decoder.Agrees (.object (before ++ (key, v) :: after))
      (.object (before ++ (key, w) :: after)) :=
  Record.agrees_member fun _ hslot => h.fits.agrees_of_slot? hslot hsame

theorem agrees_item (h : Sees r places defaults) {before after : List Value}
    (hsame : SameAt ((places[before.length]?.map (·.2)).getD .other) v w) :
    r.decoder.Agrees (.array (before ++ v :: after)) (.array (before ++ w :: after)) :=
  Record.agrees_item fun _ hslot => h.fits.agrees_of_getElem? hslot hsame

end Sees

/-! ### The schema types -/

theorem Field.sees : Sees record Shape.field.places Shape.field.defaults where
  independent :=
    .of_apart ⟨Slot.marks_map fun _ _ => rfl, Slot.marks_map fun _ _ => rfl⟩
      (List.pairwise_pair.2 (Slot.apart_map (fun _ _ => rfl) (fun _ _ => rfl) fun _ _ _ => rfl))
  fits := by
    refine .cons ⟨rfl, ?_⟩ (.cons ⟨rfl, ?_⟩ .nil)
    · exact fun v w hsame => hsame.1.map _
    · exact fun v w hsame => hsame.1.map _
  absent := by simp [Shape.defaults]

theorem AbstractKind.sees :
    Sees record Shape.abstractKind.places.tail Shape.abstractKind.defaults where
  independent :=
    .of_apart ⟨Slot.marks_map fun _ _ => rfl, Slot.marks_map fun _ _ => rfl⟩
      (List.pairwise_pair.2 (Slot.apart_map (fun _ _ => rfl) (fun _ _ => rfl) fun _ _ _ => rfl))
  fits := by
    refine .cons ⟨rfl, ?_⟩ (.cons ⟨rfl, ?_⟩ .nil)
    · exact fun v w hsame => hsame.1.map _
    · exact fun v w hsame => hsame.2.1.map _
  absent := by
    intro key v hdefault
    obtain ⟨rfl, rfl⟩ : key = "parent" ∧ v = .null := by simpa [Shape.defaults] using hdefault
    refine ⟨_, _, rfl, rfl, rfl, fun draft hunfilled => ?_⟩
    obtain ⟨name?, parent?⟩ := draft
    cases parent? with
    | none => rfl
    | some parent => cases hunfilled

theorem ConcreteKind.sees :
    Sees record Shape.concreteKind.places.tail Shape.concreteKind.defaults where
  independent :=
    .of_apart ⟨Slot.marks_map fun _ _ => rfl, Slot.marks_map fun _ _ => rfl,
        Slot.marks_map fun _ _ => rfl⟩
      (.cons (List.forall_iff_forall_mem.1
          ⟨Slot.apart_map (fun _ _ => rfl) (fun _ _ => rfl) fun _ _ _ => rfl,
            Slot.apart_map (fun _ _ => rfl) (fun _ _ => rfl) fun _ _ _ => rfl⟩)
        (List.pairwise_pair.2 (Slot.apart_map (fun _ _ => rfl) (fun _ _ => rfl) fun _ _ _ => rfl)))
  fits := by
    refine .cons ⟨rfl, ?_⟩ (.cons ⟨rfl, ?_⟩ (.cons ⟨rfl, ?_⟩ .nil))
    · exact fun v w hsame => hsame.1.map _
    · exact fun v w hsame => Decoder.Agrees.map hsame _
    · exact fun v w hsame => hsame.1.map _
  absent := by
    intro key v hdefault
    obtain ⟨rfl, rfl⟩ : key = "fields" ∧ v = .array [] := by simpa [Shape.defaults] using hdefault
    refine ⟨_, _, rfl, rfl, rfl, fun draft hunfilled => ?_⟩
    obtain ⟨name?, fields?, parent?⟩ := draft
    cases fields? with
    | none => rfl
    | some fields => cases hunfilled

theorem Schema.sees : Sees record Shape.schema.places Shape.schema.defaults where
  independent :=
    .of_apart ⟨Slot.marks_map fun _ _ => rfl, Slot.marks_map fun _ _ => rfl⟩
      (List.pairwise_pair.2 (Slot.apart_map (fun _ _ => rfl) (fun _ _ => rfl) fun _ _ _ => rfl))
  fits := by
    refine .cons ⟨rfl, ?_⟩ (.cons ⟨rfl, ?_⟩ .nil)
    · exact fun v w hsame => hsame.2.2.1.map _
    · exact fun v w hsame => Decoder.Agrees.map hsame _
  absent := by
    intro key v hdefault
    obtain ⟨rfl, rfl⟩ : key = "includes" ∧ v = .array [] := by
      simpa [Shape.defaults] using hdefault
    refine ⟨_, _, rfl, rfl, rfl, fun draft hunfilled => ?_⟩
    obtain ⟨includes?, entries?⟩ := draft
    cases includes? with
    | none => rfl
    | some includes => cases hunfilled

/-! ### Entries -/

namespace Entry

/-- The struct of an entry with this tag. -/
def Tag.shape : Tag → Shape
  | .isAbstract => .abstractKind
  | .isConcrete => .concreteKind

/-- What a record of the tagged struct cannot tell apart, an entry cannot. -/
theorem content_agrees (tag : Tag)
    (h : ∀ {δ α : Type} (r : Record δ α), Sees r tag.shape.places.tail tag.shape.defaults →
      r.decoder.Agrees v w) :
    (tagged.content tag v).toOption = (tagged.content tag w).toOption := by
  cases tag with
  | isAbstract =>
    have hsame : (AbstractKind.decoder.convert v).toOption =
        (AbstractKind.decoder.convert w).toOption := h _ AbstractKind.sees
    simp only [tagged, Json.toOption_bind, hsame]
  | isConcrete =>
    have hsame : (ConcreteKind.decoder.convert v).toOption =
        (ConcreteKind.decoder.convert w).toOption := h _ ConcreteKind.sees
    simp only [tagged, Json.toOption_bind, hsame]

/-- A value is a tag when it is one of the two words. -/
theorem ofTag?_of_convert {tag : Tag} (h : tagged.tag.convert v = .ok tag) :
    Shape.ofTag? v = some tag.shape := by
  cases v with
  | string word =>
    by_cases hword : word = "abstract"
    · subst hword
      cases h
      rfl
    · by_cases hword' : word = "concrete"
      · subst hword'
        cases h
        rfl
      · have hpick : tagged.tag.convert (.string word) =
            .error (.unknownVariant word "abstract" "concrete") := by
          show Decoder.choice.pick _ _ word = _
          rw [Decoder.choice.pick, if_neg hword, if_neg hword']
        rw [hpick] at h
        cases h
  | _ => cases h

theorem places_of_ofTag? {shape : Shape} (h : Shape.ofTag? v = some shape) :
    shape.places = ("kind", .other) :: shape.places.tail := by
  unfold Shape.ofTag? at h
  split at h
  · cases h
    rfl
  · cases h
    rfl
  · cases h

theorem shape?_of_tag? {members : List (String × Value)} {tag : Tag}
    (h : tagged.tag? members = some tag) :
    Place.entry.shape? (.object members) = some tag.shape := by
  have hlookup : members.lookup "kind" =
      (members.filter (·.1 == "kind")).head?.map (·.2) := by
    clear h
    induction members with
    | nil => rfl
    | cons member members ih =>
      obtain ⟨name, u⟩ := member
      by_cases hname : name = "kind"
      · subst hname
        rfl
      · have hnext : ("kind" == name) = false := by simpa using Ne.symm hname
        have hdrop : (name == "kind") = false := by simpa using hname
        rw [List.lookup_cons, hnext, List.filter_cons, hdrop]
        exact ih
  unfold Json.Tagged.tag? at h
  have hkey : tagged.key = "kind" := rfl
  rw [hkey] at h
  split at h
  · rename_i name u htags
    cases htag : tagged.tag.convert u with
    | error m =>
      rw [htag] at h
      cases h
    | ok tag' =>
      rw [htag] at h
      cases h
      show (members.lookup "kind").bind Shape.ofTag? = _
      rw [hlookup, htags]
      exact ofTag?_of_convert htag
  · cases h

/-- What is no tag may be told apart only by the record that the tag names. -/
theorem agrees_of_others {members members' : List (String × Value)}
    (htag : tagged.tag? members = tagged.tag? members')
    (h : ∀ tag : Tag, Place.entry.shape? (.object members) = some tag.shape → ∀ {δ α : Type}
      (r : Record δ α), Sees r tag.shape.places.tail tag.shape.defaults →
      r.decoder.Agrees (.object (tagged.others members)) (.object (tagged.others members'))) :
    decoder.Agrees (.object members) (.object members') :=
  Json.Tagged.agrees_object htag fun tag hsome =>
    content_agrees tag fun r hr => h tag (shape?_of_tag? hsome) r hr

theorem places_of_shape? {members : List (String × Value)} {shape : Shape}
    (h : Place.entry.shape? (.object members) = some shape) :
    shape.places = ("kind", .other) :: shape.places.tail := by
  obtain ⟨u, -, hshape⟩ := Option.bind_eq_some_iff.1 h
  exact places_of_ofTag? hshape

theorem agrees_order {members members' : List (String × Value)} (h : members.Perm members') :
    decoder.Agrees (.object members) (.object members') :=
  agrees_of_others (Json.Tagged.tag?_perm h) fun _ _ _ _ _ hr =>
    Record.agrees_perm hr.independent (h.filter _)

theorem agrees_unknown {members : List (String × Value)} {shape : Shape}
    (hshape : Place.entry.shape? (.object members) = some shape)
    (hkey : key ∉ shape.places.map (·.1)) (v : Value) :
    decoder.Agrees (.object ((key, v) :: members)) (.object members) := by
  have hplaces := places_of_shape? hshape
  rw [hplaces, List.map_cons, List.mem_cons, not_or] at hkey
  have hothers : tagged.others ((key, v) :: members) = (key, v) :: tagged.others members :=
    Json.Tagged.others_other hkey.1 [] members v
  refine Json.Decoder.Agrees.symm (agrees_of_others
    (Json.Tagged.tag?_other hkey.1 [] members v).symm fun tag htag δ α r hr => ?_)
  obtain rfl : shape = tag.shape := Option.some.inj (hshape.symm.trans htag)
  rw [hothers]
  exact (Record.agrees_unknown (hr.fits.slot?_eq_none hkey.2)).symm

theorem agrees_absent {members : List (String × Value)} {shape : Shape}
    (hshape : Place.entry.shape? (.object members) = some shape)
    (hdefault : (key, v) ∈ shape.defaults) (habsent : key ∉ members.map (·.1)) :
    decoder.Agrees (.object (members ++ [(key, v)])) (.object members) := by
  have hkey : key ≠ tagged.key := by
    intro heq
    rw [heq] at hdefault
    cases shape <;> simp [Shape.defaults, tagged] at hdefault
  have htag := Json.Tagged.tag?_other hkey members [] v
  have hothers := Json.Tagged.others_other hkey members [] v
  rw [List.append_nil] at htag
  refine Json.Decoder.Agrees.symm (agrees_of_others htag.symm fun tag hshape' δ α r hr => ?_)
  obtain rfl : shape = tag.shape := Option.some.inj (hshape.symm.trans hshape')
  have habsent' : key ∉ (tagged.others members).map (·.1) := fun hmem =>
    habsent ((List.filter_sublist.map _).subset hmem)
  rw [hothers]
  exact (hr.agrees_absent hdefault habsent').symm

theorem agrees_member {before after : List (String × Value)}
    (h : SameAt (Place.entry.member (before ++ (key, v) :: after) key) v w) :
    decoder.Agrees (.object (before ++ (key, v) :: after))
      (.object (before ++ (key, w) :: after)) := by
  by_cases hkey : key = tagged.key
  · subst hkey
    have hother : Place.entry.member (before ++ (tagged.key, v) :: after) tagged.key = .other := by
      unfold Place.member
      cases hshape : Place.entry.shape? (.object (before ++ (tagged.key, v) :: after)) with
      | none => rfl
      | some shape =>
        rw [Option.bind_some, places_of_shape? hshape]
        rfl
    rw [hother] at h
    exact Json.Tagged.agrees_tag h.2.2.2
  · have htag := (Json.Tagged.tag?_other hkey before after v).trans
      (Json.Tagged.tag?_other hkey before after w).symm
    refine agrees_of_others htag fun tag hshape δ α r hr => ?_
    rw [Place.member, hshape, Option.bind_some, places_of_shape? hshape] at h
    have hnext : (key == "kind") = false := beq_eq_false_iff_ne.2 hkey
    rw [List.lookup_cons, hnext] at h
    rw [Json.Tagged.others_other hkey, Json.Tagged.others_other hkey]
    exact hr.agrees_member h

theorem agrees_item {before after : List Value}
    (h : SameAt (Place.entry.item (before ++ v :: after) before.length) v w) :
    decoder.Agrees (.array (before ++ v :: after)) (.array (before ++ w :: after)) := by
  cases before with
  | nil =>
    have hother : Place.entry.item (v :: after) 0 = .other := by
      show ((Shape.ofTag? v).bind fun shape => shape.places[0]?.map (·.2)).getD .other = _
      cases hshape : Shape.ofTag? v with
      | none => rfl
      | some shape =>
        rw [Option.bind_some, places_of_ofTag? hshape]
        rfl
    have hfirst : SameAt (Place.entry.item (v :: after) 0) v w := h
    rw [hother] at hfirst
    exact Json.Tagged.agrees_first hfirst.2.2.2
  | cons u before =>
    refine Json.Tagged.agrees_rest fun tag htag => content_agrees tag fun r hr => ?_
    have hshape := ofTag?_of_convert htag
    have hrest : SameAt (((Shape.ofTag? u).bind fun shape =>
      shape.places[before.length + 1]?.map (·.2)).getD .other) v w := h
    rw [hshape, Option.bind_some, places_of_ofTag? hshape] at hrest
    exact hr.agrees_item hrest

end Entry

/-! ### Values that are alike -/

theorem SameAt.refl (p : Place) (v : Value) : SameAt p v v := by
  cases p <;> simp [SameAt, Decoder.Agrees]

theorem SameAt.symm {p : Place} (h : SameAt p v w) : SameAt p w v := by
  cases p <;> simp_all [SameAt, Decoder.Agrees]

theorem SameAt.trans {p : Place} {u : Value} (h : SameAt p u v) (h' : SameAt p v w) :
    SameAt p u w := by
  cases p <;> simp_all [SameAt, Decoder.Agrees]

/-- Values that are alike are decoded to the same. Each change is invisible to the decoder for
its place, given that the changes further in are invisible to those for theirs. -/
theorem Alike.sameAt {p : Place} (h : Alike p v w) : SameAt p v w := by
  induction h with
  | refl p v => exact .refl p v
  | symm _ ih => exact ih.symm
  | trans _ _ ih ih' => exact ih.trans ih'
  | number p m n =>
    cases p with
    | other => exact ⟨rfl, rfl, rfl, rfl⟩
    | _ => rfl
  | order p hperm =>
    cases p with
    | schema => exact Record.agrees_perm Schema.sees.independent hperm
    | field => exact Record.agrees_perm Field.sees.independent hperm
    | entry => exact Entry.agrees_order hperm
    | other => exact ⟨rfl, rfl, rfl, rfl⟩
    | _ => rfl
  | @unknown p members shape key hshape hkey v =>
    cases p with
    | schema =>
      cases hshape
      exact Record.agrees_unknown (Schema.sees.fits.slot?_eq_none hkey)
    | field =>
      cases hshape
      exact Record.agrees_unknown (Field.sees.fits.slot?_eq_none hkey)
    | entry => exact Entry.agrees_unknown hshape hkey v
    | _ => cases hshape
  | @absent p members shape key v hshape hdefault habsent =>
    cases p with
    | schema =>
      cases hshape
      exact Schema.sees.agrees_absent hdefault habsent
    | field =>
      cases hshape
      exact Field.sees.agrees_absent hdefault habsent
    | entry => exact Entry.agrees_absent hshape hdefault habsent
    | _ => cases hshape
  | @member p before after key v w _ ih =>
    cases p with
    | schema => exact Schema.sees.agrees_member ih
    | field => exact Field.sees.agrees_member ih
    | entry => exact Entry.agrees_member ih
    | other => exact ⟨rfl, rfl, rfl, rfl⟩
    | _ => rfl
  | @item p before after v w _ ih =>
    cases p with
    | schema => exact Schema.sees.agrees_item ih
    | field => exact Field.sees.agrees_item ih
    | entry => exact Entry.agrees_item ih
    | entries => exact Json.Decoder.agrees_list ih
    | fields => exact Json.Decoder.agrees_list ih
    | other => exact ⟨rfl, rfl, Json.Decoder.agrees_list ih.1, rfl⟩

end VisitorGen
