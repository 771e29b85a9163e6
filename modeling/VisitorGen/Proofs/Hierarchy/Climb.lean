import Mathlib.Data.List.Dedup
import Mathlib.Data.List.Perm.Subperm
import VisitorGen.Proofs.Document.Lines
import VisitorGen.Proofs.Hierarchy.Ancestors

/-! The climb as a loop. In every turn the loop looks up the first abstract kind of the name in
front of its chain and puts the parent of this kind in front, until there is none. Nothing limits
its turns, and on a cycle of parents it goes on for ever. It ends exactly when it never comes back
to a name (`ends_iff_neverReturns`), since a name that has an end to its climb has only one, and
then each turn has used up another name of an abstract kind. The path that is looked for with a
limit is the chain with which the loop ends (`path?_eq_some_iff`). `climb_ends_faithfully` adds
what a sound schema makes of it: the loop ends for every name, and no two entries have one full
name. -/
namespace VisitorGen.Schema

/-! ### The loop -/

/-- One turn of the loop, on the chain of the names passed, outermost first. -/
def turn? (s : Schema) : List String → Option (List String)
  | [] => none
  | name :: below => (s.parentOf? name).map fun parent => parent :: name :: below

/-- The chain after so many turns, unless the loop has ended before. -/
def chainAfter? (s : Schema) (name : String) : (turns : Nat) → Option (List String)
  | 0 => some [name]
  | turns + 1 => (s.chainAfter? name turns).bind s.turn?

/-- The loop ends after so many turns, with this chain. -/
def EndsWith (s : Schema) (name : String) (turns : Nat) (chain : List String) : Prop :=
  s.chainAfter? name turns = some chain ∧ s.turn? chain = none

/-- The loop never comes to a name that it has visited already. -/
def NeverReturns (s : Schema) (name : String) : Prop :=
  ∀ turns chain, s.chainAfter? name turns = some chain → chain.Nodup

/-- The names of the abstract kinds, each of them once. -/
def abstractNames (s : Schema) : List String := (s.abstractKinds.map (·.name)).dedup

variable {s : Schema} {name parent : String} {turns steps : Nat} {chain path : List String}

/-- A turn from a chain that is one name longer at its lower end. -/
theorem turn?_append (hne : chain ≠ []) (below : List String) :
    s.turn? (chain ++ below) = (s.turn? chain).map (· ++ below) := by
  cases chain with
  | nil => exact absurd rfl hne
  | cons first rest =>
    show (s.parentOf? first).map _ = ((s.parentOf? first).map _).map _
    rw [Option.map_map]
    rfl

/-- A turn that was taken has put the parent of the first name in front. -/
theorem exists_turn (h : s.chainAfter? name (turns + 1) = some chain) :
    ∃ first rest parent, s.chainAfter? name turns = some (first :: rest) ∧
      s.parentOf? first = some parent ∧ chain = parent :: first :: rest := by
  obtain ⟨before, hbefore, hturn⟩ := Option.bind_eq_some_iff.1 h
  cases before with
  | nil => cases hturn
  | cons first rest =>
    obtain ⟨parent, hparent, rfl⟩ := Option.map_eq_some_iff.1 hturn
    exact ⟨first, rest, parent, hbefore, hparent, rfl⟩

theorem chain_ne_nil (h : s.chainAfter? name turns = some chain) : chain ≠ [] := by
  cases turns with
  | zero =>
    cases h
    exact List.cons_ne_nil name []
  | succ turns =>
    obtain ⟨first, rest, parent, -, -, rfl⟩ := exists_turn h
    exact List.cons_ne_nil parent _

/-- After its first turn the loop goes on as it does from the parent. -/
theorem chainAfter?_succ (hparent : s.parentOf? name = some parent) (turns : Nat) :
    s.chainAfter? name (turns + 1) = (s.chainAfter? parent turns).map (· ++ [name]) := by
  induction turns with
  | zero =>
    show (s.parentOf? name).map _ = _
    rw [hparent]
    rfl
  | succ turns ih =>
    rw [chainAfter?, ih, chainAfter?]
    cases hchain : s.chainAfter? parent turns with
    | none => rfl
    | some chain => exact turn?_append (chain_ne_nil hchain) [name]

theorem endsWith_zero (hroot : s.parentOf? name = none) : s.EndsWith name 0 [name] :=
  ⟨rfl, by simp [turn?, hroot]⟩

theorem EndsWith.eq_of_root (h : s.EndsWith name turns chain) (hroot : s.parentOf? name = none) :
    turns = 0 ∧ chain = [name] := by
  have hnone : ∀ more, s.chainAfter? name (more + 1) = none := fun more => by
    induction more with
    | zero => exact (endsWith_zero hroot).2
    | succ more ih => rw [chainAfter?, ih]; rfl
  cases turns with
  | zero => exact ⟨rfl, (Option.some.inj h.1).symm⟩
  | succ more => rw [EndsWith, hnone more] at h; cases h.1

/-- The end of the climb from a name is the end of the climb from its parent and the name. -/
theorem endsWith_succ_iff (hparent : s.parentOf? name = some parent) :
    s.EndsWith name turns chain ↔
      ∃ more front, turns = more + 1 ∧ chain = front ++ [name] ∧ s.EndsWith parent more front := by
  constructor
  · rintro ⟨hchain, hturn⟩
    cases turns with
    | zero =>
      cases hchain
      simp [turn?, hparent] at hturn
    | succ more =>
      rw [chainAfter?_succ hparent] at hchain
      obtain ⟨front, hfront, rfl⟩ := Option.map_eq_some_iff.1 hchain
      rw [turn?_append (chain_ne_nil hfront), Option.map_eq_none_iff] at hturn
      exact ⟨more, front, rfl, rfl, hfront, hturn⟩
  · rintro ⟨more, front, rfl, rfl, hfront, hturn⟩
    refine ⟨by rw [chainAfter?_succ hparent, hfront]; rfl, ?_⟩
    rw [turn?_append (chain_ne_nil hfront), hturn]
    rfl

theorem EndsWith.exists_parent (h : s.EndsWith name (turns + 1) chain) : ∃ parent front,
    s.parentOf? name = some parent ∧ chain = front ++ [name] ∧ s.EndsWith parent turns front := by
  cases hparent : s.parentOf? name with
  | none => exact absurd (h.eq_of_root hparent).1 (Nat.succ_ne_zero turns)
  | some parent =>
    obtain ⟨more, front, hmore, hchain, hfront⟩ := (endsWith_succ_iff hparent).1 h
    obtain rfl : turns = more := Nat.succ.inj hmore
    exact ⟨parent, front, rfl, hchain, hfront⟩

/-! ### The loop and the limited climb -/

/-- The climb with a limit finds the chain with which the loop ends within the limit. -/
theorem climb?_eq_some_iff :
    s.climb? steps name = some path ↔ ∃ turns < steps, s.EndsWith name turns path := by
  induction steps generalizing name path with
  | zero => simp [climb?]
  | succ steps ih =>
    cases hparent : s.parentOf? name with
    | none =>
      have hclimb : s.climb? (steps + 1) name = some [name] := by rw [climb?, hparent]
      rw [hclimb]
      constructor
      · rintro ⟨⟩
        exact ⟨0, by omega, endsWith_zero hparent⟩
      · rintro ⟨turns, -, hends⟩
        rw [(hends.eq_of_root hparent).2]
    | some parent =>
      have hclimb : s.climb? (steps + 1) name = (s.climb? steps parent).map (· ++ [name]) := by
        rw [climb?, hparent]
      rw [hclimb, Option.map_eq_some_iff]
      simp only [ih, endsWith_succ_iff hparent]
      constructor
      · rintro ⟨front, ⟨more, hlt, hends⟩, rfl⟩
        exact ⟨more + 1, by omega, more, front, rfl, rfl, hends⟩
      · rintro ⟨-, hlt, more, front, rfl, rfl, hends⟩
        exact ⟨front, ⟨more, by omega, hends⟩, rfl⟩

theorem EndsWith.climb? (h : s.EndsWith name turns chain) :
    s.climb? (turns + 1) name = some chain :=
  climb?_eq_some_iff.2 ⟨turns, by omega, h⟩

/-- The climb from a name has one end at most. -/
theorem EndsWith.unique {turns' : Nat} {chain' : List String} (h : s.EndsWith name turns chain)
    (h' : s.EndsWith name turns' chain') : chain = chain' := by
  have hlong := climb?_mono h.climb? (Nat.le_max_left (turns + 1) (turns' + 1))
  have hlong' := climb?_mono h'.climb? (Nat.le_max_right (turns + 1) (turns' + 1))
  exact Option.some.inj (hlong.symm.trans hlong')

theorem length_chainAfter? (h : s.chainAfter? name turns = some chain) :
    chain.length = turns + 1 := by
  induction turns generalizing chain with
  | zero =>
    cases h
    rfl
  | succ turns ih =>
    obtain ⟨first, rest, parent, hbefore, -, rfl⟩ := exists_turn h
    rw [List.length_cons, ih hbefore]

/-! ### A loop that ends never returns -/

/-- From every name on a chain that has come to its end the climb ends, with a part of it. -/
theorem EndsWith.exists_of_mem (h : s.EndsWith name turns chain) {visited : String}
    (hvisited : visited ∈ chain) : ∃ fewer part, fewer ≤ turns ∧ s.EndsWith visited fewer part := by
  induction turns generalizing name chain with
  | zero =>
    obtain rfl : chain = [name] := (Option.some.inj h.1).symm
    obtain rfl := List.mem_singleton.1 hvisited
    exact ⟨0, _, Nat.le_refl 0, h⟩
  | succ turns ih =>
    obtain ⟨parent, front, -, rfl, hfront⟩ := h.exists_parent
    rcases List.mem_append.1 hvisited with hvisited | hself
    · obtain ⟨fewer, part, hle, hends⟩ := ih hfront hvisited
      exact ⟨fewer, part, by omega, hends⟩
    · obtain rfl := List.mem_singleton.1 hself
      exact ⟨_, _, Nat.le_refl _, h⟩

/-- A chain that has come to its end holds no name twice: the climb from the second occurrence
would be shorter than the one from the first. -/
theorem EndsWith.nodup (h : s.EndsWith name turns chain) : chain.Nodup := by
  induction turns generalizing name chain with
  | zero =>
    obtain rfl : chain = [name] := (Option.some.inj h.1).symm
    exact List.nodup_singleton name
  | succ turns ih =>
    obtain ⟨parent, front, -, rfl, hfront⟩ := h.exists_parent
    have hnot : name ∉ front := fun hmem => by
      obtain ⟨fewer, part, hle, hends⟩ := hfront.exists_of_mem hmem
      have hlong := length_chainAfter? h.1
      have hshort := length_chainAfter? hends.1
      rw [h.unique hends] at hlong
      omega
    exact List.nodup_append.2 ⟨ih hfront, List.nodup_singleton name, fun a ha b hb heq =>
      hnot (List.mem_singleton.1 hb ▸ heq ▸ ha)⟩

/-- Turns only put names in front. -/
theorem suffix_of_turns {earlier more : Nat} {part : List String}
    (hpart : s.chainAfter? name earlier = some part)
    (h : s.chainAfter? name (earlier + more) = some chain) : part <:+ chain := by
  induction more generalizing chain with
  | zero =>
    obtain rfl : part = chain := Option.some.inj (hpart.symm.trans h)
    exact List.suffix_refl part
  | succ more ih =>
    obtain ⟨first, rest, parent, hbefore, -, rfl⟩ := exists_turn h
    exact (ih hbefore).trans (List.suffix_cons parent _)

/-- No turn is taken after the end. -/
theorem EndsWith.eq_of_turns (h : s.EndsWith name turns chain) {more : Nat} {part : List String}
    (hpart : s.chainAfter? name (turns + more) = some part) : part = chain := by
  induction more generalizing part with
  | zero => exact Option.some.inj (hpart.symm.trans h.1)
  | succ more ih =>
    obtain ⟨before, hbefore, hturn⟩ := Option.bind_eq_some_iff.1 hpart
    rw [ih hbefore, h.2] at hturn
    cases hturn

/-- Every chain on the way is the lower part of that with which the loop ends. -/
theorem EndsWith.suffix (h : s.EndsWith name turns chain) {earlier : Nat} {part : List String}
    (hpart : s.chainAfter? name earlier = some part) : part <:+ chain := by
  rcases Nat.le_total earlier turns with hle | hle
  · obtain ⟨more, rfl⟩ := Nat.exists_eq_add_of_le hle
    exact suffix_of_turns hpart h.1
  · obtain ⟨more, rfl⟩ := Nat.exists_eq_add_of_le hle
    exact h.eq_of_turns hpart ▸ List.suffix_refl part

/-! ### A loop that never returns ends -/

/-- The names below the first have a parent, so that they are names of abstract kinds. -/
theorem tail_subset_abstractNames (h : s.chainAfter? name turns = some chain) :
    chain.tail ⊆ s.abstractNames := by
  induction turns generalizing chain with
  | zero =>
    cases h
    exact List.nil_subset _
  | succ turns ih =>
    obtain ⟨first, rest, parent, hbefore, hparent, rfl⟩ := exists_turn h
    obtain ⟨kind, hkind, -⟩ := Option.bind_eq_some_iff.1 hparent
    have hname : kind.name = first := by simpa using List.find?_some hkind
    have hfirst : first ∈ s.abstractNames := List.mem_dedup.2
      (hname ▸ List.mem_map_of_mem (List.mem_of_find?_eq_some hkind))
    exact List.cons_subset.2 ⟨hfirst, ih hbefore⟩

/-- Turns that lead to ever new names are no more than there are names of abstract kinds. -/
theorem turns_le_of_nodup (h : s.chainAfter? name turns = some chain) (hnodup : chain.Nodup) :
    turns ≤ s.abstractNames.length := by
  have hlength := length_chainAfter? h
  have hle := (List.subperm_of_subset hnodup.tail (tail_subset_abstractNames h)).length_le
  rw [List.length_tail] at hle
  omega

theorem exists_endsWith_of_neverReturns (h : s.NeverReturns name) :
    ∃ turns chain, s.EndsWith name turns chain := by
  by_contra hnone
  have hsome : ∀ turns, ∃ chain, s.chainAfter? name turns = some chain := fun turns => by
    induction turns with
    | zero => exact ⟨_, rfl⟩
    | succ turns ih =>
      obtain ⟨chain, hchain⟩ := ih
      cases hturn : s.turn? chain with
      | none => exact absurd ⟨turns, chain, hchain, hturn⟩ hnone
      | some next => exact ⟨next, by rw [chainAfter?, hchain]; exact hturn⟩
  obtain ⟨chain, hchain⟩ := hsome (s.abstractNames.length + 1)
  have hle := turns_le_of_nodup hchain (h _ _ hchain)
  omega

/-- **The end of the loop**: it ends exactly when it never comes to a name a second time. -/
theorem ends_iff_neverReturns :
    (∃ turns chain, s.EndsWith name turns chain) ↔ s.NeverReturns name :=
  ⟨fun ⟨_, _, hends⟩ _ _ hpart => (hends.suffix hpart).sublist.nodup hends.nodup,
    exists_endsWith_of_neverReturns⟩

/-- The path of a name is the chain with which the loop ends: the limit is never in the way. -/
theorem path?_eq_some_iff : s.path? name = some path ↔ ∃ turns, s.EndsWith name turns path := by
  have hnames : s.abstractNames.length ≤ s.abstractKinds.length := by
    have hsublist := (List.dedup_sublist (s.abstractKinds.map (·.name))).length_le
    rwa [List.length_map] at hsublist
  rw [path?, climb?_eq_some_iff]
  constructor
  · rintro ⟨turns, -, hends⟩
    exact ⟨turns, hends⟩
  · rintro ⟨turns, hends⟩
    have hle := turns_le_of_nodup hends.1 hends.nodup
    exact ⟨turns, by omega, hends⟩

/-! ### Sound schemas -/

/-- A name that no abstract kind has is its own path. -/
theorem endsWith_unknown (hunknown : ∀ kind ∈ s.abstractKinds, kind.name ≠ name) :
    s.EndsWith name 0 [name] := by
  have hnone : s.abstractKind? name = none := List.find?_eq_none.2 (by simpa using hunknown)
  exact endsWith_zero (by rw [parentOf?, hnone]; rfl)

theorem Sound.exists_endsWith (h : s.Sound) (name : String) :
    ∃ turns chain, s.EndsWith name turns chain := by
  by_cases hknown : ∃ kind ∈ s.abstractKinds, kind.name = name
  · obtain ⟨kind, hkind, rfl⟩ := hknown
    obtain ⟨turns, -, hends⟩ := climb?_eq_some_iff.1 (h.climb?_eq_components hkind)
    exact ⟨turns, _, hends⟩
  · exact ⟨0, [name], endsWith_unknown fun kind hkind heq => hknown ⟨kind, hkind, heq⟩⟩

theorem EndsWith.qualifiedName_eq (h : s.EndsWith name turns chain) :
    s.qualifiedName name = String.intercalate "::" chain := by
  rw [qualifiedName, path?_eq_some_iff.2 ⟨turns, h⟩]
  rfl

/-- The full name of an entry: the qualified name of its parent and its own name. -/
def fullName (s : Schema) (e : Entry) : String :=
  match e.parent? with
  | none => e.name
  | some parent => s.qualifiedName parent ++ "::" ++ e.name

/-- **The climb ends and is faithful.** In any schema the loop ends exactly when it never returns to
a name, after no more turns than abstract kinds have names, and the qualified name is its last
chain. In an accepted schema it ends for every name; a nested kind is qualified by the qualified
name of its parent, a root and an unknown name by nothing; and no two entries have one full
name. -/
theorem climb_ends_faithfully (s : Schema) :
    (∀ name, ((∃ turns chain, s.EndsWith name turns chain) ↔ s.NeverReturns name) ∧
      ∀ turns chain, s.EndsWith name turns chain → turns ≤ s.abstractNames.length ∧
        s.qualifiedName name = String.intercalate "::" chain) ∧
    (s.verify = .ok () →
      (∀ name, ∃ turns chain, s.EndsWith name turns chain) ∧
      (∀ kind ∈ s.abstractKinds, ∀ p, kind.parent? = some p →
        s.qualifiedName kind.name = s.qualifiedName p ++ "::" ++ kind.name) ∧
      (∀ kind ∈ s.abstractKinds, kind.parent? = none → s.qualifiedName kind.name = kind.name) ∧
      (∀ name, (∀ kind ∈ s.abstractKinds, kind.name ≠ name) → s.qualifiedName name = name) ∧
      (s.entries.map s.fullName).Nodup) := by
  refine ⟨fun name => ⟨ends_iff_neverReturns, fun turns chain hends =>
    ⟨turns_le_of_nodup hends.1 hends.nodup, hends.qualifiedName_eq⟩⟩, fun hs => ?_⟩
  have h := sound_of_verify hs
  refine ⟨h.exists_endsWith, fun kind hkind p hp => h.qualifiedName_nested hkind hp,
    fun kind hkind hroot => h.qualifiedName_root hkind hroot, fun name hunknown => ?_, ?_⟩
  · rw [(endsWith_unknown hunknown).qualifiedName_eq, String.intercalate_singleton]
  · have hfull : s.entries.map s.fullName = s.entries.map s.classPath :=
      List.map_congr_left fun e he => (h.classPath_eq he).symm
    rw [hfull]
    exact h.nodup_classPaths

/-- Two abstract kinds that are each nested in the other. -/
def twoCycle : Schema where
  includes := []
  entries := [.ofAbstract (.nested "Left" "Right"), .ofAbstract (.nested "Right" "Left")]

theorem climb_ends_nestedCall :
    nestedCall.verify = .ok () ∧ nestedCall.EndsWith "Expr" 1 ["Node", "Expr"] ∧
      nestedCall.qualifiedName "Expr" = nestedCall.qualifiedName "Node" ++ "::" ++ "Expr" ∧
      (nestedCall.entries.map nestedCall.fullName).Nodup ∧
      ¬ ∃ turns chain, twoCycle.EndsWith "Left" turns chain := by
  obtain ⟨-, hnested, -, -, hdistinct⟩ := (climb_ends_faithfully nestedCall).2 nestedCall_verify
  have hreturns : ¬ twoCycle.NeverReturns "Left" := fun hnever =>
    absurd (hnever 2 ["Left", "Right", "Left"] (by decide)) (by decide)
  exact ⟨nestedCall_verify, ⟨by decide, by decide⟩,
    hnested (.nested "Expr" "Node") (by decide) "Node" rfl, hdistinct,
    ((climb_ends_faithfully twoCycle).1 "Left").1.not.2 hreturns⟩

end VisitorGen.Schema
