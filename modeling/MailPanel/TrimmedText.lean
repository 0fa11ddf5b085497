import MailPanel.ScriptText
import Mathlib.Data.List.DropRight

/-
Blanks around a text, and around the fields between its separators.
-/

namespace MailPanel

namespace ScriptText

/-- What is left when the blanks at the end are gone. -/
def trimEnd (text : List Char) : List Char := text.rdropWhile isSpace

theorem trim_eq (text : List Char) : trim text = trimEnd (text.dropWhile isSpace) :=
  rfl

section Blanks

variable {blanks text : List Char}

theorem trimEnd_append (hblanks : ∀ c ∈ blanks, isSpace c = true) :
    trimEnd (text ++ blanks) = trimEnd text := by
  rw [trimEnd, List.rdropWhile, List.reverse_append, List.dropWhile_append_of_pos]
  · rfl
  · exact fun c hc => hblanks c (List.mem_reverse.mp hc)

theorem trim_append_left (hblanks : ∀ c ∈ blanks, isSpace c = true) :
    trim (blanks ++ text) = trim text := by
  rw [trim_eq, List.dropWhile_append_of_pos hblanks]
  rfl

theorem trim_append_right (hblanks : ∀ c ∈ blanks, isSpace c = true) :
    trim (text ++ blanks) = trim text := by
  rw [trim_eq, trim_eq, List.dropWhile_append]
  by_cases hnone : (text.dropWhile isSpace).isEmpty = true
  · have hall : ∀ c ∈ text, isSpace c = true :=
      List.dropWhile_eq_nil_iff.mp (List.isEmpty_iff.mp hnone)
    rw [if_pos hnone, List.isEmpty_iff.mp hnone, List.dropWhile_eq_nil_iff.mpr hblanks]
  · rw [if_neg hnone, trimEnd_append hblanks]

theorem trim_of_forall (htext : ∀ c ∈ text, isSpace c = false) : trim text = text := by
  have hfront : text.dropWhile isSpace = text := by
    rw [List.dropWhile_eq_self_iff]
    intro hpos
    rw [htext _ (List.getElem_mem hpos)]
    exact Bool.false_ne_true
  rw [trim_eq, hfront, trimEnd, List.rdropWhile_eq_self_iff]
  intro hne
  rw [htext _ (List.getLast_mem hne)]
  exact Bool.false_ne_true

/-- A text between its blanks. -/
theorem exists_trim (text : List Char) : ∃ before after,
    text = before ++ (trim text ++ after) ∧ (∀ c ∈ before, isSpace c = true) ∧
      ∀ c ∈ after, isSpace c = true := by
  refine ⟨text.takeWhile isSpace, (text.dropWhile isSpace).rtakeWhile isSpace, ?_, ?_, ?_⟩
  · rw [trim_eq, trimEnd, List.rdropWhile_append_rtakeWhile, List.takeWhile_append_dropWhile]
  · exact fun c hc => List.mem_takeWhile_imp hc
  · exact fun c hc => List.mem_rtakeWhile_imp hc

theorem trim_eq_nil_iff : trim text = [] ↔ ∀ c ∈ text, isSpace c = true := by
  constructor
  · intro hnil c hc
    obtain ⟨before, after, htext, hbefore, hafter⟩ := exists_trim text
    rw [hnil, List.nil_append] at htext
    rw [htext] at hc
    rcases List.mem_append.mp hc with hc | hc
    · exact hbefore c hc
    · exact hafter c hc
  · intro hall
    rw [trim_eq, List.dropWhile_eq_nil_iff.mpr hall]
    rfl

theorem dropWhile_append_cons {α : Type} {p : α → Bool} {a : α} (ha : p a = false)
    (before after : List α) :
    (before ++ a :: after).dropWhile p = before.dropWhile p ++ a :: after := by
  have hstop : (a :: after).dropWhile p = a :: after := by
    rw [List.dropWhile_cons, ha, if_neg Bool.false_ne_true]
  rw [List.dropWhile_append, hstop]
  by_cases hnone : (before.dropWhile p).isEmpty = true
  · rw [if_pos hnone, List.isEmpty_iff.mp hnone]
    rfl
  · rw [if_neg hnone]

/-- Around a character that is no blank, each side keeps what it has next to it. -/
theorem trim_append_cons {c : Char} (hc : isSpace c = false) (before after : List Char) :
    trim (before ++ c :: after) = before.dropWhile isSpace ++ c :: trimEnd after := by
  rw [trim_eq, dropWhile_append_cons hc, trimEnd, List.rdropWhile, List.reverse_append,
    List.reverse_cons, List.append_assoc, List.singleton_append, dropWhile_append_cons hc]
  simp [trimEnd, List.rdropWhile]

theorem trim_trimEnd (text : List Char) : trim (trimEnd text) = trim text := by
  have hsplit := List.rdropWhile_append_rtakeWhile (p := isSpace) (l := text)
  conv_rhs => rw [← hsplit]
  exact (trim_append_right fun c hc => List.mem_rtakeWhile_imp hc).symm

theorem trim_dropWhile (text : List Char) : trim (text.dropWhile isSpace) = trim text := by
  conv_rhs => rw [← List.takeWhile_append_dropWhile (p := isSpace) (l := text)]
  exact (trim_append_left fun c hc => List.mem_takeWhile_imp hc).symm

end Blanks

section Fields

variable {sep : Char} {text blanks : List Char}

theorem map_trim_splitOn_append_left (hsep : isSpace sep = false)
    (hblanks : ∀ c ∈ blanks, isSpace c = true) :
    ((blanks ++ text).splitOn sep).map trim = (text.splitOn sep).map trim := by
  induction blanks with
  | nil => rfl
  | cons c blanks ih =>
      have hspace := hblanks c List.mem_cons_self
      have hne : (c == sep) = false := by
        rw [beq_eq_false_iff_ne]
        rintro rfl
        exact Bool.false_ne_true (hsep.symm.trans hspace)
      rw [List.cons_append, List.splitOn_cons_eq_if_modifyHead, hne, if_neg Bool.false_ne_true,
        ← ih fun d hd => hblanks d (List.mem_cons_of_mem c hd)]
      cases hsplit : (blanks ++ text).splitOn sep with
      | nil => rfl
      | cons field fields =>
          have htrim : trim (c :: field) = trim field :=
            @trim_append_left [c] field (by simpa using hspace)
          rw [List.modifyHead_cons, List.map_cons, List.map_cons, htrim]

theorem map_trim_splitOn_append_right (hsep : isSpace sep = false)
    (hblanks : ∀ c ∈ blanks, isSpace c = true) (text : List Char) :
    ((text ++ blanks).splitOn sep).map trim = (text.splitOn sep).map trim := by
  have hnot : sep ∉ blanks := fun hmem => Bool.false_ne_true (hsep.symm.trans (hblanks sep hmem))
  by_cases hmem : sep ∈ text
  · obtain ⟨before, after, htext⟩ := List.append_of_mem hmem
    have hshorter : after.length < text.length := by
      rw [htext, List.length_append, List.length_cons]
      omega
    rw [htext, List.append_assoc, List.cons_append, List.splitOn_append_cons_self,
      List.splitOn_append_cons_self, List.map_append, List.map_append,
      map_trim_splitOn_append_right hsep hblanks after]
  · rw [List.splitOn_eq_singleton (by simp [hmem, hnot]), List.splitOn_eq_singleton hmem,
      List.map_singleton, List.map_singleton, trim_append_right hblanks]
termination_by text.length

/-- Trimming a text first changes no trimmed field. -/
theorem map_trim_splitOn (hsep : isSpace sep = false) (text : List Char) :
    ((trim text).splitOn sep).map trim = (text.splitOn sep).map trim := by
  obtain ⟨before, after, htext, hbefore, hafter⟩ := exists_trim text
  conv_rhs => rw [htext]
  rw [map_trim_splitOn_append_left hsep hbefore, map_trim_splitOn_append_right hsep hafter]

end Fields

end ScriptText

end MailPanel
