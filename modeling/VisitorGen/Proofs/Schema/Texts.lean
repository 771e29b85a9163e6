import Mathlib.Data.Bool.AllAny
import VisitorGen.Proofs.Integrity.Checklist
import VisitorGen.Proofs.Json.Wellformed
import VisitorGen.Proofs.Schema.Alike
import VisitorGen.Proofs.Schema.RoundTrip

/-! Texts of one schema. Compiling a well-formed text depends on the value that it is written
for alone, and on that only up to the changes that no decoder sees (`Schema.compile_alike`):
white space, the spelling of strings, the order of members, members that are not known and
defaults that are written out leave no trace. -/
namespace VisitorGen
open Json (Value Decoder nestingLimit Spaced StringWritten CharWritten IntegerWritten MemberWritten
  Written)

variable {α : Type} {v w : Value}

/-- What a faithful decoder makes of a well-formed text is what it makes of its value. -/
theorem Json.Decoder.Faithful.toOption_read {d : Decoder α} (h : d.Faithful) {text : String}
    {depth : Nat} (hdepth : depth ≤ nestingLimit) (htext : Spaced (Written depth) text.toList v) :
    (d.read text).toOption = (d.convert v).toOption :=
  h.toOption_read_of_reads (htext.imp fun _ hwritten => hwritten.reads hdepth)

theorem Schema.compile_of_read {text : String} {s : Schema} (h : decoder.read text = .ok s) :
    compile text = s.verify.map fun _ => s := by
  rw [compile, h]
  show (s.verify >>= fun _ => pure s) = _
  cases s.verify <;> rfl

theorem Schema.compile_of_error {text : String} {e : Json.ReadError}
    (h : decoder.read text = .error e) : compile text = .error (.json e) := by
  rw [compile, h]
  rfl

/-- **Texts of one schema.** Two well-formed texts of values that are alike are compiled to the
same schema, or refused for the same defect, or both cannot be read. -/
theorem Schema.compile_alike {a b : String} {m n : Nat} (hm : m ≤ nestingLimit)
    (hn : n ≤ nestingLimit) (ha : Spaced (Written m) a.toList v)
    (hb : Spaced (Written n) b.toList w) (halike : Alike .schema v w) :
    (∃ s, compile a = .ok s ∧ compile b = .ok s) ∨
      (∃ d, compile a = .error (.defect d) ∧ compile b = .error (.defect d)) ∨
      ∃ e e', compile a = .error (.json e) ∧ compile b = .error (.json e') := by
  have hfaithful := Schema.inverts.faithful
  have hsame : (decoder.read a).toOption = (decoder.read b).toOption := by
    rw [hfaithful.toOption_read hm ha, hfaithful.toOption_read hn hb]
    exact halike.sameAt
  cases hreadA : decoder.read a with
  | error e =>
    cases hreadB : decoder.read b with
    | error e' => exact Or.inr (Or.inr ⟨e, e', compile_of_error hreadA, compile_of_error hreadB⟩)
    | ok s =>
      rw [hreadA, hreadB] at hsame
      cases hsame
  | ok s =>
    rw [hreadA] at hsame
    have hreadB : decoder.read b = .ok s := by
      cases hreadB : decoder.read b with
      | error e => simp [hreadB] at hsame
      | ok s' => simpa [hreadB, eq_comm] using hsame
    rw [compile_of_read hreadA, compile_of_read hreadB]
    cases hverify : s.verify with
    | ok _ => exact Or.inl ⟨s, rfl, rfl⟩
    | error f =>
      obtain ⟨d, -, rfl⟩ := verify_eq_error_iff.1 hverify
      exact Or.inr (Or.inl ⟨d, rfl, rfl⟩)

/-- A schema of one kind, without a blank. -/
def terseText : String :=
  "\x7b\"entries\":[\x7b\"kind\":\"abstract\",\"name\":\"A\"\x7d]\x7d"

/-- The same with blanks, an escape, a stray member, a default written out and the tag at the
end. -/
def verboseText : String :=
  "\x7b\"x\":-1, \"includes\":[ ],\"entries\":[\x7b\"name\":\"\\u0041\",\"kind\":\"abstract\"\x7d]\x7d"

theorem Schema.compile_alike_spellings :
    ∃ s, compile terseText = .ok s ∧ compile verboseText = .ok s := by
  let entry : Value := .object [("kind", .string "abstract"), ("name", .string "A")]
  let entry' : Value := .object [("name", .string "A"), ("kind", .string "abstract")]
  have hword (s : String)
      (h : s.toList.all (fun c => 0x20 ≤ c.toNat ∧ c ≠ '"' ∧ c ≠ '\\') = true) :
      StringWritten ('"' :: s.toList ++ ['"']) s := .plain (List.all_iff_forall_prop.1 h)
  have hgap : ∀ c ∈ [' '], Json.isSpace c = true := List.all_eq_true.1 rfl
  have hkind : MemberWritten (Written 0) _ ("kind", .string "abstract") :=
    .named (.bare (hword "kind" rfl)) (.bare (.string (hword "abstract" rfl)))
  -- the text without blanks
  have hname : MemberWritten (Written 0) _ ("name", .string "A") :=
    .named (.bare (hword "name" rfl)) (.bare (.string (hword "A" rfl)))
  have hentry : Written 1 _ entry := Or.inr (.object (.more hkind (.last hname)))
  have hentries : Written 2 _ (.array [entry]) := Or.inr (.array (.last (.bare hentry)))
  have hterse : Written 3 terseText.toList (.object [("entries", .array [entry])]) :=
    Or.inr (.object (.last (.named (.bare (hword "entries" rfl)) (.bare hentries))))
  -- the other text
  have hletter : StringWritten _ "A" :=
    .quoted (.cons (@CharWritten.unicode ['0', '0', '4', '1'] _ rfl rfl rfl) .nil)
  have hname' : MemberWritten (Written 0) _ ("name", .string "A") :=
    .named (.bare (hword "name" rfl)) (.bare (.string hletter))
  have hentry' : Written 1 _ entry' := Or.inr (.object (.more hname' (.last hkind)))
  have hentries' : Written 2 _ (.array [entry']) := Or.inr (.array (.last (.bare hentry')))
  have hnumber : Written 2 _ (.number (.negative 1)) :=
    Or.inl (.number (@IntegerWritten.negative ['1']
      ⟨List.all_eq_true.1 rfl, by decide, by decide⟩ (by decide) (by decide)))
  have hincludes : Spaced StringWritten _ "includes" :=
    @Spaced.around _ _ [' '] _ [] _ hgap nofun (hword "includes" rfl)
  have hempty : Written 2 _ (.array []) := Or.inr (.emptyArray hgap)
  have hverbose : Written 3 verboseText.toList (.object [("x", .number (.negative 1)),
      ("includes", .array []), ("entries", .array [entry'])]) :=
    Or.inr (.object (.more (.named (.bare (hword "x" rfl)) (.bare hnumber))
      (.more (.named hincludes (.bare hempty))
        (.last (.named (.bare (hword "entries" rfl)) (.bare hentries'))))))
  -- the changes from the one value to the other
  have hitem : Alike .entries (.array [entry]) (.array [entry']) :=
    @Alike.item .entries [] [] _ _ (.order .entry (.swap _ _ _))
  have hmember : Alike .schema (.object [("entries", .array [entry])])
      (.object [("entries", .array [entry'])]) := @Alike.member .schema [] [] "entries" _ _ hitem
  have habsent : Alike .schema (.object [("entries", .array [entry'])])
      (.object [("entries", .array [entry']), ("includes", .array [])]) :=
    .symm (@Alike.absent .schema [("entries", .array [entry'])] _ "includes" _ rfl
      (.head _) (by decide))
  have hunknown : Alike .schema (.object [("includes", .array []), ("entries", .array [entry'])])
      (.object [("x", .number (.negative 1)), ("includes", .array []),
        ("entries", .array [entry'])]) := .symm (.unknown rfl (by decide) _)
  have halike := hmember.trans (habsent.trans ((Alike.order .schema (.swap _ _ _)).trans hunknown))
  have hcompiles : (compile terseText).toOption.isSome = true := by decide
  obtain hsame | ⟨d, hdefect, -⟩ | ⟨e, e', hjson, -⟩ :=
    compile_alike (by decide) (by decide) (.bare hterse) (.bare hverbose) halike
  · exact hsame
  · rw [hdefect] at hcompiles
    cases hcompiles
  · rw [hjson] at hcompiles
    cases hcompiles

end VisitorGen
