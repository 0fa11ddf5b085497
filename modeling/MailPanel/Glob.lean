import Mathlib.Data.List.Infix

/-
File name patterns with `*` and `?`, as long as neither a bracket nor a backslash stands in
them.
-/

namespace MailPanel

namespace Glob

def fnmatch : List Char → List Char → Bool
  | [], name => name.isEmpty
  | '*' :: pattern, name => name.tails.any (fnmatch pattern)
  | '?' :: pattern, name => !name.isEmpty && fnmatch pattern name.tail
  | c :: pattern, name => name.head? = some c && fnmatch pattern name.tail

/-- No wildcard, and nothing that quotes one or opens a class of characters. -/
def Literal (pattern : List Char) : Prop := ∀ c ∈ pattern, c ∉ ['*', '?', '[', '\\']

variable {pattern name : List Char}

theorem fnmatch_literal (hliteral : Literal pattern) :
    fnmatch pattern name = true ↔ name = pattern := by
  induction pattern generalizing name with
  | nil =>
      rw [fnmatch]
      exact List.isEmpty_iff
  | cons c pattern ih =>
      have hc := hliteral c List.mem_cons_self
      have hstar : c ≠ '*' := fun heq => hc (by simp [heq])
      have hany : c ≠ '?' := fun heq => hc (by simp [heq])
      have hrest : Literal pattern := fun d hd => hliteral d (List.mem_cons_of_mem c hd)
      rw [fnmatch, Bool.and_eq_true, decide_eq_true_eq, ih hrest]
      · cases name with
        | nil => simp
        | cons d name => simp
      · exact hstar
      · exact hany

/-- A wildcard before literal text matches the names that end with the text. -/
theorem fnmatch_star_literal (hliteral : Literal pattern) :
    fnmatch ('*' :: pattern) name = true ↔ pattern <:+ name := by
  rw [fnmatch, List.any_eq_true]
  constructor
  · rintro ⟨tail, htail, hmatch⟩
    rw [(fnmatch_literal hliteral).mp hmatch] at htail
    exact (List.mem_tails pattern name).mp htail
  · intro hsuffix
    exact ⟨pattern, (List.mem_tails pattern name).mpr hsuffix,
      (fnmatch_literal hliteral).mpr rfl⟩

end Glob

end MailPanel
