import MailPanel.ScriptText
import Mathlib.Data.List.Infix

/-
The tokens of a Sieve script, with its two forms of strings: quoted, where a backslash takes
the next character as it is, and lines after `text:`, where a doubled dot at the front of a
line stands for one.
-/

namespace MailPanel

namespace SieveText

/-- A string as the script spells it; the lines keep their breaks. -/
inductive Literal where
  | quoted (spelling : List Char)
  | multiLine (lines : List (List Char))
deriving DecidableEq, Repr

inductive Token where
  | word (text : List Char)
  | literal (literal : Literal)
  | symbol (c : Char)
deriving DecidableEq, Repr

/- Values -/

def unescape : List Char → List Char
  | '\\' :: c :: rest => c :: unescape rest
  | c :: rest => c :: unescape rest
  | [] => []

def unstuff : List Char → List Char
  | '.' :: '.' :: rest => '.' :: rest
  | line => line

/-- What the string stands for. -/
def Literal.value : Literal → List Char
  | .quoted spelling => unescape spelling
  | .multiLine lines => (lines.map unstuff).flatten

/- Reading -/

/-- The spelling of a quoted string up to its closing quote, and what follows. -/
def quotedString : List Char → Option (List Char × List Char)
  | '"' :: rest => some ([], rest)
  | '\\' :: c :: rest =>
      (quotedString rest).map fun (spelling, left) => ('\\' :: c :: spelling, left)
  | c :: rest => (quotedString rest).map fun (spelling, left) => (c :: spelling, left)
  | [] => none

/-- The first line with its break, and what follows. -/
def firstLine : List Char → Option (List Char × List Char)
  | '\n' :: rest => some (['\n'], rest)
  | c :: rest => (firstLine rest).map fun (line, left) => (c :: line, left)
  | [] => none

def lineBreaks : List (List Char) := [['\n'], ['\r', '\n']]

/-- Lines up to one with a dot alone. Without such a line the text does not end. -/
def dottedLines : Nat → List Char → Option (List (List Char) × List Char)
  | 0, _ => none
  | turns + 1, text =>
      match firstLine text with
      | none => none
      | some (line, left) =>
          if line ∈ lineBreaks.map ('.' :: ·) then some ([], left)
          else (dottedLines turns left).map fun (lines, left) => (line :: lines, left)

/-- What `text:` begins: blanks or a comment until the end of the line, then the lines. -/
def multiLine (text : List Char) : Option (List (List Char) × List Char) :=
  match firstLine (text.dropWhile (· ∈ [' ', '\t'])) with
  | none => none
  | some (line, left) =>
      if line ∈ lineBreaks ∨ line.head? = some '#' then dottedLines left.length left else none

def afterComment : List Char → Option (List Char)
  | '*' :: '/' :: rest => some rest
  | _ :: rest => afterComment rest
  | [] => none

def isWordChar (c : Char) : Bool := c.isAlphanum || c = '_'

/-- The tokens of a text, with comments and blanks left out. A script is read no further than a
string or a comment that does not end. -/
def tokensFrom : Nat → List Char → List Token
  | 0, _ => []
  | _ + 1, [] => []
  | turns + 1, c :: rest =>
      if c ∈ [' ', '\t', '\r', '\n'] then tokensFrom turns rest
      else if c = '#' then tokensFrom turns (rest.dropWhile (· ≠ '\n'))
      else if c = '/' ∧ rest.head? = some '*' then
        match afterComment rest.tail with
        | none => []
        | some left => tokensFrom turns left
      else if c = '"' then
        match quotedString rest with
        | none => []
        | some (spelling, left) => .literal (.quoted spelling) :: tokensFrom turns left
      else if isWordChar c then
        let word := (c :: rest).takeWhile isWordChar
        let left := (c :: rest).dropWhile isWordChar
        if word.map Char.toLower = "text".toList ∧ left.head? = some ':' then
          match multiLine left.tail with
          | none => []
          | some (lines, left) => .literal (.multiLine lines) :: tokensFrom turns left
        else .word word :: tokensFrom turns left
      else .symbol c :: tokensFrom turns rest

def tokens (script : List Char) : List Token := tokensFrom script.length script

/-- The strings of a script. -/
def literals (script : List Char) : List Literal :=
  (tokens script).filterMap fun
    | .literal literal => some literal
    | .word _ | .symbol _ => none

example : literals "require [\"file\\into\"]; # \"no\"\nredirect text:\n..a\n.\n;".toList =
    [.quoted "file\\into".toList, .multiLine ["..a\n".toList]] := by
  decide

theorem mem_literals {script : List Char} {literal : Literal} :
    literal ∈ literals script ↔ .literal literal ∈ tokens script := by
  rw [literals, List.mem_filterMap]
  constructor
  · rintro ⟨token, htoken, hliteral⟩
    cases token with
    | literal found =>
        rw [← Option.some.inj hliteral]
        exact htoken
    | word text => cases hliteral
    | symbol c => cases hliteral
  · intro hliteral
    exact ⟨_, hliteral, rfl⟩

/- Where a token stands -/

theorem quotedString_spelled {text spelling left : List Char}
    (hquoted : quotedString text = some (spelling, left)) : text = spelling ++ '"' :: left := by
  induction text using quotedString.induct generalizing spelling with
  | case1 rest =>
      cases hquoted
      rfl
  | case2 c rest ih =>
      rw [quotedString] at hquoted
      obtain ⟨found, hfound, heq⟩ := Option.map_eq_some_iff.mp hquoted
      cases heq
      rw [ih hfound]
      rfl
  | case3 c rest hquote hescape ih =>
      rw [quotedString] at hquoted
      · obtain ⟨found, hfound, heq⟩ := Option.map_eq_some_iff.mp hquoted
        cases heq
        rw [ih hfound]
        rfl
      · exact hquote
      · exact hescape
  | case4 => cases hquoted

theorem firstLine_spelled {text line left : List Char}
    (hline : firstLine text = some (line, left)) :
    text = line ++ left ∧ line.getLast? = some '\n' := by
  induction text using firstLine.induct generalizing line with
  | case1 rest =>
      cases hline
      exact ⟨rfl, rfl⟩
  | case2 c rest hbreak ih =>
      rw [firstLine] at hline
      · obtain ⟨⟨line', left'⟩, hfound, heq⟩ := Option.map_eq_some_iff.mp hline
        cases heq
        obtain ⟨htext, hlast⟩ := ih hfound
        refine ⟨congrArg (c :: ·) htext, ?_⟩
        rw [List.getLast?_cons, hlast]
        rfl
      · exact hbreak
  | case3 => cases hline

theorem dottedLines_left {turns : Nat} {text left : List Char} {lines : List (List Char)}
    (hlines : dottedLines turns text = some (lines, left)) :
    left <:+ text ∧ ∀ line ∈ lines, line.getLast? = some '\n' := by
  induction turns generalizing text lines with
  | zero => cases hlines
  | succ turns ih =>
      rw [dottedLines] at hlines
      split at hlines
      · cases hlines
      · rename_i line rest hline
        obtain ⟨htext, hlast⟩ := firstLine_spelled hline
        have hrest : rest <:+ text := ⟨line, htext.symm⟩
        split at hlines
        · cases hlines
          exact ⟨hrest, nofun⟩
        · obtain ⟨found, hfound, heq⟩ := Option.map_eq_some_iff.mp hlines
          cases heq
          obtain ⟨hleft, hall⟩ := ih hfound
          exact ⟨hleft.trans hrest, List.forall_mem_cons.mpr ⟨hlast, hall⟩⟩

theorem multiLine_left {text left : List Char} {lines : List (List Char)}
    (hlines : multiLine text = some (lines, left)) :
    left <:+ text ∧ ∀ line ∈ lines, line.getLast? = some '\n' := by
  rw [multiLine] at hlines
  split at hlines
  · cases hlines
  · rename_i line rest hline
    split at hlines
    · obtain ⟨hleft, hall⟩ := dottedLines_left hlines
      have hrest : rest <:+ text.dropWhile (· ∈ [' ', '\t']) :=
        ⟨line, (firstLine_spelled hline).1.symm⟩
      exact ⟨hleft.trans (hrest.trans (List.dropWhile_suffix _)), hall⟩
    · cases hlines

theorem afterComment_left {text left : List Char} (hcomment : afterComment text = some left) :
    left <:+ text := by
  induction text using afterComment.induct with
  | case1 rest =>
      cases hcomment
      exact ⟨['*', '/'], rfl⟩
  | case2 c rest hend ih =>
      rw [afterComment] at hcomment
      · exact (ih hcomment).trans (List.suffix_cons c rest)
      · exact hend
  | case3 => cases hcomment

/-- Where a literal of a script comes from: between quotes, or from whole lines. -/
theorem literal_spelled {turns : Nat} {text : List Char} {literal : Literal}
    (hliteral : .literal literal ∈ tokensFrom turns text) :
    (∃ spelling, literal = .quoted spelling ∧ spelling <:+: text) ∨
      ∃ lines, literal = .multiLine lines ∧ ∀ line ∈ lines, line.getLast? = some '\n' := by
  have hlater : ∀ {text left : List Char}, left <:+ text →
      ((∃ spelling, literal = .quoted spelling ∧ spelling <:+: left) ∨
        ∃ lines, literal = .multiLine lines ∧ ∀ line ∈ lines, line.getLast? = some '\n') →
      (∃ spelling, literal = .quoted spelling ∧ spelling <:+: text) ∨
        ∃ lines, literal = .multiLine lines ∧ ∀ line ∈ lines, line.getLast? = some '\n' := by
    rintro text left hleft (⟨spelling, heq, hspelling⟩ | hlines)
    · exact Or.inl ⟨spelling, heq, hspelling.trans hleft.isInfix⟩
    · exact Or.inr hlines
  induction turns generalizing text with
  | zero => cases hliteral
  | succ turns ih =>
      cases text with
      | nil => cases hliteral
      | cons c rest =>
          have hrest : rest <:+ c :: rest := List.suffix_cons c rest
          rw [tokensFrom] at hliteral
          split at hliteral
          · exact hlater hrest (ih hliteral)
          split at hliteral
          · exact hlater ((List.dropWhile_suffix _).trans hrest) (ih hliteral)
          split at hliteral
          · split at hliteral
            · cases hliteral
            · rename_i left hcomment
              have hleft := (afterComment_left hcomment).trans (List.tail_suffix rest)
              exact hlater (hleft.trans hrest) (ih hliteral)
          split at hliteral
          · split at hliteral
            · cases hliteral
            · rename_i spelling left hquoted
              have htext := quotedString_spelled hquoted
              rcases List.mem_cons.mp hliteral with heq | hliteral
              · injection heq with heq
                exact Or.inl ⟨spelling, heq, ⟨[c], '"' :: left, by rw [htext]; rfl⟩⟩
              · refine hlater ⟨c :: (spelling ++ ['"']), ?_⟩ (ih hliteral)
                rw [htext]
                simp
          have hword : (c :: rest).dropWhile isWordChar <:+ c :: rest := List.dropWhile_suffix _
          split at hliteral
          · dsimp only at hliteral
            split at hliteral
            · split at hliteral
              · cases hliteral
              · rename_i lines left hlines
                obtain ⟨hleft, hall⟩ := multiLine_left hlines
                rcases List.mem_cons.mp hliteral with heq | hliteral
                · injection heq with heq
                  exact Or.inr ⟨lines, heq, hall⟩
                · exact hlater ((hleft.trans (List.tail_suffix _)).trans hword) (ih hliteral)
            · rcases List.mem_cons.mp hliteral with heq | hliteral
              · cases heq
              · exact hlater hword (ih hliteral)
          · rcases List.mem_cons.mp hliteral with heq | hliteral
            · cases heq
            · exact hlater hrest (ih hliteral)

/- Values that are spelled out -/

theorem unescape_eq {spelling : List Char} (hplain : '\\' ∉ spelling) :
    unescape spelling = spelling := by
  induction spelling with
  | nil => rfl
  | cons c rest ih =>
      rw [List.mem_cons, not_or] at hplain
      rw [unescape, ih hplain.2]
      rintro d left rfl -
      exact hplain.1 rfl

/-- The value of whole lines is nothing, or ends in a line break. -/
theorem multiLine_value {lines : List (List Char)}
    (hlines : ∀ line ∈ lines, line.getLast? = some '\n') :
    (Literal.multiLine lines).value = [] ∨ '\n' ∈ (Literal.multiLine lines).value := by
  cases lines with
  | nil => exact Or.inl rfl
  | cons line lines =>
      have hlast : '\n' ∈ unstuff line := by
        have hmem := List.mem_of_getLast? (hlines line List.mem_cons_self)
        rw [unstuff.eq_def]
        split
        · rcases List.mem_cons.mp hmem with hdot | hmem
          · exact absurd hdot (by decide)
          · exact hmem
        · exact hmem
      refine Or.inr ?_
      rw [Literal.value, List.map_cons, List.flatten_cons]
      exact List.mem_append_left _ hlast

end SieveText

end MailPanel
