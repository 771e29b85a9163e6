import Mathlib.Logic.Basic
import VisitorGen.Proofs.Name.Characters

/-! The keywords of the generated language. The words that a name is kept from are keywords,
but not all of them (`unlisted`): a word that is missing from the list is taken for a name like
any other, and a parameter in snake case that comes out as one is left without its underscore
(`parameterName_mem_languageKeywords`). -/
namespace VisitorGen.Name

/-- The keywords of C++17, after the table of keywords of the standard. -/
def languageKeywords : List String :=
  ["alignas", "alignof", "asm", "auto", "bool", "break", "case", "catch", "char", "char16_t",
   "char32_t", "class", "const", "constexpr", "const_cast", "continue", "decltype", "default",
   "delete", "do", "double", "dynamic_cast", "else", "enum", "explicit", "export", "extern",
   "false", "float", "for", "friend", "goto", "if", "inline", "int", "long", "mutable",
   "namespace", "new", "noexcept", "nullptr", "operator", "private", "protected", "public",
   "register", "reinterpret_cast", "return", "short", "signed", "sizeof", "static",
   "static_assert", "static_cast", "struct", "switch", "template", "this", "thread_local",
   "throw", "true", "try", "typedef", "typeid", "typename", "union", "unsigned", "using",
   "virtual", "void", "volatile", "wchar_t", "while"]

/-- The keywords that no name is kept from. -/
def unlisted : List String := languageKeywords.filter fun word => !isKeyword word

theorem mem_unlisted {word : String} :
    word ∈ unlisted ↔ word ∈ languageKeywords ∧ word ∉ keywords := by
  simp [unlisted, isKeyword]

example : unlisted =
    ["asm", "char16_t", "char32_t", "const_cast", "decltype", "dynamic_cast", "mutable",
     "noexcept", "nullptr", "register", "reinterpret_cast", "signed", "static_assert",
     "static_cast", "thread_local", "throw", "try", "typeid", "typename", "unsigned", "using",
     "virtual", "void", "volatile", "wchar_t"] := by decide

/-- Of the names that pass for unreserved the keywords are the unlisted ones. -/
theorem mem_languageKeywords_of_not_mem {word : String} (h : word ∉ keywords) :
    word ∈ languageKeywords ↔ word ∈ unlisted := by
  rw [mem_unlisted, and_iff_left h]

theorem getLast?_of_mem_languageKeywords {word : String} (h : word ∈ languageKeywords) :
    word.toList.getLast? ≠ some '_' := by
  revert word
  decide

/-- An underscore makes a name of every keyword, since no keyword ends with one. -/
theorem append_underscore_not_mem (name : String) : name ++ "_" ∉ languageKeywords := fun hmem => by
  refine getLast?_of_mem_languageKeywords hmem ?_
  rw [String.toList_append, List.getLast?_append]
  rfl

theorem isKeyword_iff {name : String} : isKeyword name = true ↔ name ∈ keywords := by
  simp [isKeyword]

/-- The underscore makes a parameter of a listed keyword. The unlisted keywords remain. -/
theorem parameterName_mem_languageKeywords {kind : String} :
    parameterName kind ∈ languageKeywords ↔ snakeCase kind ∈ unlisted := by
  rw [parameterName, escapeKeyword, mem_unlisted]
  by_cases hlisted : snakeCase kind ∈ keywords
  · rw [if_pos (isKeyword_iff.2 hlisted)]
    exact iff_of_false (append_underscore_not_mem _) fun hmem => hmem.2 hlisted
  · rw [if_neg (isKeyword_iff.not.2 hlisted), and_iff_left hlisted]

/-! ### The escape of keywords -/

theorem keywords_subset : keywords ⊆ languageKeywords := by decide

theorem escapeKeyword_of_not_mem {name : String} (h : name ∉ keywords) :
    escapeKeyword name = name := if_neg (isKeyword_iff.not.2 h)

theorem escapeKeyword_not_mem (name : String) : escapeKeyword name ∉ keywords := by
  by_cases hlisted : name ∈ keywords
  · rw [escapeKeyword, if_pos (isKeyword_iff.2 hlisted)]
    exact fun hmem => append_underscore_not_mem name (keywords_subset hmem)
  · rwa [escapeKeyword_of_not_mem hlisted]

end VisitorGen.Name
