import MailPanel.SieveText

/-
The grammar of Sieve scripts: commands with arguments, tests and blocks.  A line may end with
a line feed alone.
-/

namespace MailPanel

namespace SieveGrammar

open SieveText

abbrev Text := List Char

/-- The characters of a script: no NUL, and a carriage return only where a line ends. -/
def legal : Text → Bool
  | '\r' :: '\n' :: rest => legal rest
  | '\r' :: _ => false
  | c :: rest => c ≠ '\x00' && legal rest
  | [] => true

/-- The tokens of a script, each with what it stands for. A string is its value, whichever way
it was quoted, so that two spellings of one text are one token. -/
inductive Token where
  | identifier (name : Text)
  | tag (name : Text)
  | number (spelling : Text)
  | string (value : Text)
  | symbol (c : Char)
deriving DecidableEq, Repr

/- Tokens -/

def blanks : List Char := [' ', '\t', '\r', '\n']

def symbols : List Char := ['[', ']', '(', ')', '\x7b', '\x7d', ',', ';']

def isNameStart (c : Char) : Bool := c.isAlpha || c = '_'

def isNameChar (c : Char) : Bool := isNameStart c || c.isDigit

def quantifiers : List Char := ['K', 'M', 'G', 'k', 'm', 'g']

/-- A name, and what follows. -/
def name (text : Text) : Option (Text × Text) :=
  if text.head?.any isNameStart then some (text.takeWhile isNameChar, text.dropWhile isNameChar)
  else none

/-- Digits, and a quantifier perhaps. The quantifier belongs to the number. -/
def number (text : Text) : Text × Text :=
  let left := text.dropWhile Char.isDigit
  let digits := text.takeWhile Char.isDigit
  match left with
  | c :: rest => if c ∈ quantifiers then (digits ++ [c], rest) else (digits, left)
  | [] => (digits, [])

/-- The piece at the front of a text, a token or what separates tokens, and what follows. -/
def lexeme : Text → Option (Option Token × Text)
  | [] => none
  | c :: rest =>
      if c ∈ blanks then some (none, rest)
      else if c = '#' then some (none, rest.dropWhile (· ≠ '\n'))
      else if c = '/' ∧ rest.head? = some '*' then
        (afterComment rest.tail).map fun left => (none, left)
      else if c = '"' then
        (quotedString rest).map fun (spelling, left) =>
          (some (.string (unescape spelling)), left)
      else if c = ':' then (name rest).map fun (name, left) => (some (.tag name), left)
      else if isNameStart c then
        let word := (c :: rest).takeWhile isNameChar
        let left := (c :: rest).dropWhile isNameChar
        if word.map Char.toLower = ['t', 'e', 'x', 't'] ∧ left.head? = some ':' then
          (multiLine left.tail).map fun (lines, left) =>
            (some (.string (Literal.multiLine lines).value), left)
        else some (some (.identifier word), left)
      else if c.isDigit then
        some (some (.number (number (c :: rest)).1), (number (c :: rest)).2)
      else if c ∈ symbols then some (some (.symbol c), rest)
      else none

def lexFrom : Nat → Text → Option (List Token)
  | _, [] => some []
  | 0, _ :: _ => none
  | turns + 1, text =>
      match lexeme text with
      | none => none
      | some (token, left) => (lexFrom turns left).map (token.toList ++ ·)

def lex (script : Text) : Option (List Token) := lexFrom script.length script

/- Commands -/

inductive Argument where
  | strings (values : List Text)
  | number (spelling : Text)
  | tag (name : Text)
deriving DecidableEq, Repr

inductive Test where
  | test (name : Text) (arguments : List Argument) (tests : List Test)
deriving Repr

inductive Command where
  | command (name : Text) (arguments : List Argument) (tests : List Test)
      (block : Option (List Command))
deriving Repr

/-- The strings after an opening bracket. -/
def stringList : List Token → Option (List Text × List Token)
  | .string value :: .symbol ']' :: rest => some ([value], rest)
  | .string value :: .symbol ',' :: rest =>
      (stringList rest).map fun (values, left) => (value :: values, left)
  | _ => none

/-- Arguments up to the first token that is none. The number of turns only has to be large
enough, which the number of tokens is. -/
def parseArguments : Nat → List Token → Option (List Argument × List Token)
  | 0, _ => none
  | turns + 1, tokens =>
      let more := fun (argument : Argument) (rest : List Token) =>
        (parseArguments turns rest).map fun (others, left) => (argument :: others, left)
      match tokens with
      | .tag name :: rest => more (.tag name) rest
      | .number spelling :: rest => more (.number spelling) rest
      | .string value :: rest => more (.strings [value]) rest
      | .symbol '[' :: rest =>
          match stringList rest with
          | none => none
          | some (values, left) => more (.strings values) left
      | _ => some ([], tokens)

/-- Tests separated by commas, up to a closing parenthesis. A list has at least one test. -/
def testList (test : List Token → Option (Test × List Token)) :
    Nat → List Token → Option (List Test × List Token)
  | 0, _ => none
  | turns + 1, tokens =>
      match test tokens with
      | some (first, .symbol ')' :: rest) => some ([first], rest)
      | some (first, .symbol ',' :: rest) =>
          (testList test turns rest).map fun (others, left) => (first :: others, left)
      | _ => none

/-- What may follow the arguments: one test, or several in parentheses. -/
def testsAfter (test : List Token → Option (Test × List Token)) (tokens : List Token) :
    Option (List Test × List Token) :=
  match tokens with
  | .identifier _ :: _ => (test tokens).map fun (only, left) => ([only], left)
  | .symbol '(' :: rest => testList test rest.length rest
  | _ => some ([], tokens)

def parseTest : Nat → List Token → Option (Test × List Token)
  | 0, _ => none
  | turns + 1, .identifier name :: rest =>
      match parseArguments (rest.length + 1) rest with
      | none => none
      | some (arguments, left) =>
          (testsAfter (parseTest turns) left).map fun (tests, left) =>
            (.test name arguments tests, left)
  | _ + 1, _ => none

/-- Commands up to the end, or up to the end of their block. A command ends with a semicolon or
has a block, and anything else makes the script no script. -/
def parseCommands : Nat → List Token → Option (List Command × List Token)
  | 0, _ => none
  | turns + 1, .identifier name :: rest =>
      match parseArguments (rest.length + 1) rest with
      | none => none
      | some (arguments, left) =>
          match testsAfter (parseTest left.length) left with
          | some (tests, .symbol ';' :: rest) =>
              (parseCommands turns rest).map fun (others, left) =>
                (.command name arguments tests none :: others, left)
          | some (tests, .symbol '\x7b' :: rest) =>
              match parseCommands turns rest with
              | some (inner, .symbol '\x7d' :: rest) =>
                  (parseCommands turns rest).map fun (others, left) =>
                    (.command name arguments tests (some inner) :: others, left)
              | _ => none
          | _ => none
  | _ + 1, tokens => some ([], tokens)

/-- The commands of a script that the grammar accepts: legal characters, known pieces, and
commands up to the very end. -/
def parse (script : Text) : Option (List Command) :=
  if legal script then
    match lex script with
    | none => none
    | some tokens =>
        match parseCommands (tokens.length + 1) tokens with
        | some (commands, []) => some commands
        | _ => none
  else none

/- Texts in pieces -/

section Legal

variable {front rest : Text}

theorem legal_append (hfront : ∀ c ∈ front, c ≠ '\r' ∧ c ≠ '\x00') :
    legal (front ++ rest) = legal rest := by
  induction front with
  | nil => rfl
  | cons c front ih =>
      obtain ⟨hreturn, hnul⟩ := hfront c List.mem_cons_self
      rw [List.cons_append, legal, ih fun d hd => hfront d (List.mem_cons_of_mem c hd),
        decide_eq_true hnul, Bool.true_and]
      · rintro left rfl -
        exact hreturn rfl
      · rintro rfl
        exact hreturn rfl

theorem not_legal_of_nul {text : Text} (hnul : '\x00' ∈ text) : legal text = false := by
  induction text using legal.induct with
  | case1 rest ih =>
      rw [legal]
      refine ih ?_
      rcases List.mem_cons.mp hnul with heq | hnul
      · exact absurd heq (by decide)
      · exact (List.mem_cons.mp hnul).resolve_left (by decide)
  | case2 => rw [legal]; assumption
  | case3 c rest _ _ ih =>
      rw [legal]
      · rcases List.mem_cons.mp hnul with rfl | hnul
        · rfl
        · rw [ih hnul, Bool.and_false]
      · assumption
      · assumption
  | case4 => cases hnul

end Legal

/- Pieces -/

theorem length_name {text left found : Text} (hname : name text = some (found, left)) :
    left.length ≤ text.length := by
  rw [name] at hname
  split at hname
  · obtain ⟨-, rfl⟩ := Prod.mk.inj (Option.some.inj hname)
    exact (List.dropWhile_suffix _).length_le
  · cases hname

/-- A number takes its digits at least. -/
theorem length_number {c : Char} {rest : Text} (hdigit : c.isDigit = true) :
    (number (c :: rest)).2.length ≤ rest.length := by
  have hle : ((c :: rest).dropWhile Char.isDigit).length ≤ rest.length := by
    rw [List.dropWhile_cons_of_pos hdigit]
    exact (List.dropWhile_suffix _).length_le
  rw [number]
  split
  · rename_i d left hleft
    rw [hleft, List.length_cons] at hle
    split
    · exact Nat.le_of_succ_le hle
    · rw [hleft]
      exact hle
  · exact Nat.zero_le _

theorem isNameChar_of_start {c : Char} (hstart : isNameStart c = true) : isNameChar c = true := by
  rw [isNameChar, hstart, Bool.true_or]

/-- A piece takes something off the text, so that the lexer comes to an end. -/
theorem lexeme_length {text left : Text} {token : Option Token}
    (hlexeme : lexeme text = some (token, left)) : left.length < text.length := by
  cases text with
  | nil => cases hlexeme
  | cons c rest =>
      rw [List.length_cons, Nat.lt_succ_iff]
      rw [lexeme] at hlexeme
      split at hlexeme
      · obtain ⟨-, rfl⟩ := Prod.mk.inj (Option.some.inj hlexeme)
        exact Nat.le_refl _
      split at hlexeme
      · obtain ⟨-, rfl⟩ := Prod.mk.inj (Option.some.inj hlexeme)
        exact (List.dropWhile_suffix _).length_le
      split at hlexeme
      · obtain ⟨found, hfound, heq⟩ := Option.map_eq_some_iff.mp hlexeme
        obtain ⟨-, rfl⟩ := Prod.mk.inj heq
        exact ((afterComment_left hfound).trans (List.tail_suffix rest)).length_le
      split at hlexeme
      · obtain ⟨⟨spelling, found⟩, hfound, heq⟩ := Option.map_eq_some_iff.mp hlexeme
        obtain ⟨-, rfl⟩ := Prod.mk.inj heq
        rw [quotedString_spelled hfound, List.length_append, List.length_cons]
        omega
      split at hlexeme
      · obtain ⟨⟨found, _⟩, hfound, heq⟩ := Option.map_eq_some_iff.mp hlexeme
        obtain ⟨-, rfl⟩ := Prod.mk.inj heq
        exact length_name hfound
      split at hlexeme
      · rename_i hstart
        have hle : ((c :: rest).dropWhile isNameChar).length ≤ rest.length := by
          rw [List.dropWhile_cons_of_pos (isNameChar_of_start hstart)]
          exact (List.dropWhile_suffix _).length_le
        dsimp only at hlexeme
        split at hlexeme
        · obtain ⟨⟨lines, found⟩, hfound, heq⟩ := Option.map_eq_some_iff.mp hlexeme
          obtain ⟨-, rfl⟩ := Prod.mk.inj heq
          exact ((multiLine_left hfound).1.trans (List.tail_suffix _)).length_le.trans hle
        · obtain ⟨-, rfl⟩ := Prod.mk.inj (Option.some.inj hlexeme)
          exact hle
      split at hlexeme
      · rename_i hdigit
        obtain ⟨-, rfl⟩ := Prod.mk.inj (Option.some.inj hlexeme)
        exact length_number hdigit
      split at hlexeme
      · obtain ⟨-, rfl⟩ := Prod.mk.inj (Option.some.inj hlexeme)
        exact Nat.le_refl _
      · cases hlexeme

section Append

variable {front left rest : Text}

theorem dropWhile_append_left {p : Char → Bool} (hleft : front.dropWhile p ≠ []) :
    (front ++ rest).dropWhile p = front.dropWhile p ++ rest := by
  rw [List.dropWhile_append, if_neg]
  rw [List.isEmpty_iff]
  exact hleft

theorem takeWhile_append_left {p : Char → Bool} (hleft : front.dropWhile p ≠ []) :
    (front ++ rest).takeWhile p = front.takeWhile p := by
  rw [List.takeWhile_append, if_neg]
  intro hlength
  have hwhole : front.takeWhile p = front :=
    (List.takeWhile_prefix p).eq_of_length hlength
  have hparts : front.takeWhile p ++ front.dropWhile p = front := List.takeWhile_append_dropWhile
  rw [hwhole] at hparts
  exact hleft (List.append_right_eq_self.mp hparts)

theorem afterComment_append (hcomment : afterComment front = some left) :
    afterComment (front ++ rest) = some (left ++ rest) := by
  induction front using afterComment.induct with
  | case1 text =>
      cases hcomment
      rfl
  | case2 c text hend ih =>
      rw [afterComment] at hcomment
      · rw [List.cons_append, afterComment]
        · exact ih hcomment
        · rintro tail rfl htail
          cases text with
          | nil => cases hcomment
          | cons d text =>
              obtain ⟨rfl, -⟩ := List.cons.inj htail
              exact hend text rfl rfl
      · exact hend
  | case3 => cases hcomment

theorem quotedString_append {spelling : Text}
    (hquoted : quotedString front = some (spelling, left)) :
    quotedString (front ++ rest) = some (spelling, left ++ rest) := by
  induction front using quotedString.induct generalizing spelling with
  | case1 text =>
      cases hquoted
      rfl
  | case2 c text ih =>
      rw [quotedString] at hquoted
      obtain ⟨⟨found, _⟩, hfound, heq⟩ := Option.map_eq_some_iff.mp hquoted
      obtain ⟨rfl, rfl⟩ := Prod.mk.inj heq
      rw [List.cons_append, List.cons_append, quotedString, ih hfound]
      rfl
  | case3 c text hquote hescape ih =>
      rw [quotedString] at hquoted
      · obtain ⟨⟨found, _⟩, hfound, heq⟩ := Option.map_eq_some_iff.mp hquoted
        obtain ⟨rfl, rfl⟩ := Prod.mk.inj heq
        rw [List.cons_append, quotedString, ih hfound]
        · rfl
        · exact hquote
        · rintro d tail rfl htail
          cases text with
          | nil => cases hfound
          | cons e text => exact hescape e text rfl rfl
      · exact hquote
      · exact hescape
  | case4 => cases hquoted

theorem number_append {c : Char} (hleft : (number (c :: front)).2 ≠ []) :
    number (c :: front ++ rest) =
      ((number (c :: front)).1, (number (c :: front)).2 ++ rest) := by
  have hdrop : (c :: front).dropWhile Char.isDigit ≠ [] := by
    intro hnil
    rw [number, hnil] at hleft
    exact hleft rfl
  rw [number, dropWhile_append_left hdrop, takeWhile_append_left hdrop, number]
  cases hcases : (c :: front).dropWhile Char.isDigit with
  | nil => exact absurd hcases hdrop
  | cons d text =>
      rw [List.cons_append]
      dsimp only
      split
      · rfl
      · rfl

theorem name_append {found : Text} (hname : name front = some (found, left)) (hleft : left ≠ []) :
    name (front ++ rest) = some (found, left ++ rest) := by
  rw [name] at hname ⊢
  split at hname
  · rename_i hstart
    obtain ⟨rfl, rfl⟩ := Prod.mk.inj (Option.some.inj hname)
    have hhead : (front ++ rest).head?.any isNameStart = true := by
      cases front with
      | nil => cases hstart
      | cons c front => exact hstart
    rw [if_pos hhead, dropWhile_append_left hleft, takeWhile_append_left hleft]
  · cases hname

/-- A piece that ends before the text does is the same in a longer text. The word that begins a
multi-line string is the one exception. -/
theorem lexeme_append {token : Option Token} (hlexeme : lexeme front = some (token, left))
    (hleft : left ≠ [])
    (hword : (front.takeWhile isNameChar).map Char.toLower ≠ ['t', 'e', 'x', 't']) :
    lexeme (front ++ rest) = some (token, left ++ rest) := by
  have hlength := lexeme_length hlexeme
  cases front with
  | nil => cases hlexeme
  | cons c front =>
      have hfront : front ≠ [] := by
        rintro rfl
        exact hleft (List.length_eq_zero_iff.mp (Nat.lt_one_iff.mp hlength))
      have hhead : (front ++ rest).head? = front.head? := List.head?_append_of_ne_nil front hfront
      rw [List.cons_append, lexeme, hhead]
      rw [lexeme] at hlexeme
      by_cases hblank : c ∈ blanks
      · rw [if_pos hblank] at hlexeme ⊢
        obtain ⟨rfl, rfl⟩ := Prod.mk.inj (Option.some.inj hlexeme)
        rfl
      rw [if_neg hblank] at hlexeme ⊢
      by_cases hhash : c = '#'
      · rw [if_pos hhash] at hlexeme ⊢
        obtain ⟨rfl, rfl⟩ := Prod.mk.inj (Option.some.inj hlexeme)
        rw [dropWhile_append_left hleft]
      rw [if_neg hhash] at hlexeme ⊢
      by_cases hcomment : c = '/' ∧ front.head? = some '*'
      · rw [if_pos hcomment] at hlexeme ⊢
        obtain ⟨found, hfound, heq⟩ := Option.map_eq_some_iff.mp hlexeme
        obtain ⟨rfl, rfl⟩ := Prod.mk.inj heq
        rw [List.tail_append_of_ne_nil hfront, afterComment_append hfound]
        rfl
      rw [if_neg hcomment] at hlexeme ⊢
      by_cases hquote : c = '"'
      · rw [if_pos hquote] at hlexeme ⊢
        obtain ⟨⟨spelling, found⟩, hfound, heq⟩ := Option.map_eq_some_iff.mp hlexeme
        obtain ⟨rfl, rfl⟩ := Prod.mk.inj heq
        rw [quotedString_append hfound]
        rfl
      rw [if_neg hquote] at hlexeme ⊢
      by_cases htag : c = ':'
      · rw [if_pos htag] at hlexeme ⊢
        obtain ⟨⟨found, after⟩, hfound, heq⟩ := Option.map_eq_some_iff.mp hlexeme
        obtain ⟨rfl, rfl⟩ := Prod.mk.inj heq
        rw [name_append hfound hleft]
        rfl
      rw [if_neg htag] at hlexeme ⊢
      by_cases hstart : isNameStart c = true
      · rw [if_pos hstart] at hlexeme ⊢
        dsimp only at hlexeme ⊢
        rw [if_neg fun hboth => hword hboth.1] at hlexeme
        obtain ⟨rfl, rfl⟩ := Prod.mk.inj (Option.some.inj hlexeme)
        rw [← List.cons_append, takeWhile_append_left hleft, dropWhile_append_left hleft,
          if_neg fun hboth => hword hboth.1]
      rw [if_neg hstart] at hlexeme ⊢
      by_cases hdigit : c.isDigit = true
      · rw [if_pos hdigit] at hlexeme ⊢
        obtain ⟨rfl, rfl⟩ := Prod.mk.inj (Option.some.inj hlexeme)
        rw [← List.cons_append, number_append hleft]
      rw [if_neg hdigit] at hlexeme ⊢
      split at hlexeme
      · rename_i hsymbol
        obtain ⟨rfl, rfl⟩ := Prod.mk.inj (Option.some.inj hlexeme)
        rw [if_pos hsymbol]
      · cases hlexeme

end Append

/-- The tokens of a text that any other may follow: it ends with a blank or a symbol. -/
def lexFront : Nat → Text → Option (List Token)
  | 0, _ => none
  | _ + 1, [] => some []
  | turns + 1, c :: rest =>
      match lexeme (c :: rest) with
      | none => none
      | some (token, left) =>
          if left = [] then
            if rest = [] ∧ (c ∈ blanks ∨ c ∈ symbols) then some token.toList else none
          else if ((c :: rest).takeWhile isNameChar).map Char.toLower = ['t', 'e', 'x', 't'] then
            none
          else (lexFront turns left).map (token.toList ++ ·)

/-- A text is read in pieces, with these tokens. -/
inductive Lexes : Text → List Token → Prop
  | nil : Lexes [] []
  | piece {text left : Text} {token : Option Token} {tokens : List Token} :
      lexeme text = some (token, left) → Lexes left tokens → Lexes text (token.toList ++ tokens)

section Lexes

variable {text rest : Text} {tokens others : List Token}

theorem Lexes.lexFrom (hlexes : Lexes text tokens) {turns : Nat} (hturns : text.length ≤ turns) :
    lexFrom turns text = some tokens := by
  induction hlexes generalizing turns with
  | nil =>
      cases turns with
      | zero => rfl
      | succ turns => rfl
  | @piece text left token tokens hpiece _ ih =>
      have hshorter := lexeme_length hpiece
      cases text with
      | nil => cases hpiece
      | cons c rest =>
          cases turns with
          | zero => exact absurd hturns (Nat.not_succ_le_zero _)
          | succ turns =>
              rw [SieveGrammar.lexFrom, hpiece]
              · dsimp only
                rw [ih (by omega), Option.map_some]
              · exact List.cons_ne_nil c rest

theorem Lexes.lex (hlexes : Lexes text tokens) : lex text = some tokens :=
  hlexes.lexFrom (Nat.le_refl _)

theorem lexeme_single {c : Char} (hc : c ∈ blanks ∨ c ∈ symbols) :
    ∃ token, ∀ rest, lexeme (c :: rest) = some (token, rest) := by
  by_cases hblank : c ∈ blanks
  · exact ⟨none, fun rest => by rw [lexeme, if_pos hblank]⟩
  · have hother : ∀ c ∈ symbols, c ≠ '#' ∧ c ≠ '/' ∧ c ≠ '"' ∧ c ≠ ':' ∧ ¬ isNameStart c = true ∧
        ¬ c.isDigit = true :=
      List.all_iff_forall_prop.mp (by decide)
    have hsymbol := hc.resolve_left hblank
    obtain ⟨hhash, hslash, hquote, htag, hstart, hdigit⟩ := hother c hsymbol
    refine ⟨some (.symbol c), fun rest => ?_⟩
    rw [lexeme, if_neg hblank, if_neg hhash, if_neg fun hboth => hslash hboth.1, if_neg hquote,
      if_neg htag, if_neg hstart, if_neg hdigit, if_pos hsymbol]

/-- A fixed text in front, whose pieces can be evaluated, before a text whose pieces are known. -/
theorem Lexes.front {front : Text} (turns : Nat) (hfront : lexFront turns front = some tokens)
    (hrest : Lexes rest others) : Lexes (front ++ rest) (tokens ++ others) := by
  induction turns generalizing front tokens with
  | zero => cases hfront
  | succ turns ih =>
      cases front with
      | nil =>
          obtain rfl := Option.some.inj hfront
          exact hrest
      | cons c front =>
          rw [lexFront] at hfront
          cases hlexeme : lexeme (c :: front) with
          | none =>
              rw [hlexeme] at hfront
              cases hfront
          | some found =>
              obtain ⟨token, left⟩ := found
              rw [hlexeme] at hfront
              dsimp only at hfront
              by_cases hleft : left = []
              · rw [if_pos hleft] at hfront
                split at hfront
                · rename_i hend
                  obtain ⟨rfl, hc⟩ := hend
                  obtain ⟨single, hsingle⟩ := lexeme_single hc
                  rw [hsingle] at hlexeme
                  obtain ⟨rfl, -⟩ := Prod.mk.inj (Option.some.inj hlexeme)
                  obtain rfl := Option.some.inj hfront
                  exact .piece (hsingle rest) hrest
                · cases hfront
              · rw [if_neg hleft] at hfront
                split at hfront
                · cases hfront
                · rename_i hword
                  obtain ⟨tokens', htokens, rfl⟩ := Option.map_eq_some_iff.mp hfront
                  rw [List.append_assoc]
                  exact .piece (lexeme_append hlexeme hleft hword) (ih htokens)

/-- A comment, up to the end of its line. -/
theorem Lexes.comment {line : Text} (hcomment : line.head? = some '#') (hline : '\n' ∉ line)
    (hrest : Lexes rest tokens) : Lexes (line ++ '\n' :: rest) tokens := by
  cases line with
  | nil => cases hcomment
  | cons c line =>
      obtain rfl := Option.some.inj hcomment
      have hdrop : (line ++ '\n' :: rest).dropWhile (· ≠ '\n') = '\n' :: rest := by
        rw [List.dropWhile_append_of_pos]
        · rw [List.dropWhile_cons_of_neg (by decide)]
        · intro c hc
          exact decide_eq_true fun heq => hline (heq ▸ List.mem_cons_of_mem _ hc)
      have hlexeme : lexeme ('#' :: (line ++ '\n' :: rest)) = some (none, '\n' :: rest) := by
        rw [lexeme, if_neg (by decide), if_pos rfl, hdrop]
      have hbreak : lexeme ('\n' :: rest) = some (none, rest) := by
        rw [lexeme, if_pos (by decide)]
      exact .piece  hlexeme (.piece  hbreak hrest)

end Lexes

/- Strings that are written -/

/-- A backslash before what would not stand for itself. -/
def escape (value : Text) : Text :=
  value.flatMap fun c => if c = '\\' ∨ c = '"' then ['\\', c] else [c]

theorem escape_spec (value rest : Text) :
    quotedString (escape value ++ '"' :: rest) = some (escape value, rest) ∧
      unescape (escape value) = value := by
  induction value with
  | nil => exact ⟨rfl, rfl⟩
  | cons c value ih =>
      obtain ⟨hquoted, hvalue⟩ := ih
      rw [escape, List.flatMap_cons, ← escape]
      by_cases hc : c = '\\' ∨ c = '"'
      · rw [if_pos hc, List.append_assoc]
        constructor
        · rw [List.cons_append, List.cons_append, List.nil_append, quotedString, hquoted]
          rfl
        · rw [List.cons_append, List.cons_append, List.nil_append, unescape, hvalue]
      · rw [if_neg hc, List.append_assoc, List.singleton_append, List.singleton_append]
        rw [not_or] at hc
        constructor
        · rw [quotedString, hquoted]
          · rfl
          · exact hc.2
          · rintro d left rfl -
            exact hc.1 rfl
        · rw [unescape, hvalue]
          rintro d left rfl -
          exact hc.1 rfl

theorem Lexes.quoted (value : Text) {rest : Text} {tokens : List Token}
    (hrest : Lexes rest tokens) :
    Lexes ('"' :: (escape value ++ '"' :: rest)) (.string value :: tokens) := by
  obtain ⟨hquoted, hvalue⟩ := escape_spec value rest
  have hlexeme : lexeme ('"' :: (escape value ++ '"' :: rest)) =
      some (some (.string value), rest) := by
    rw [lexeme, if_neg (by decide), if_neg (by decide),
      if_neg fun hboth => absurd hboth.1 (by decide), if_pos rfl, hquoted, Option.map_some]
    exact congrArg (fun found => some (some (Token.string found), rest)) hvalue
  exact .piece hlexeme hrest

def lineEnd : Text := ['\r', '\n']

/-- A line with its dot doubled, where one stands in front. -/
def stuff (line : Text) : Text := if line.head? = some '.' then '.' :: line else line

theorem firstLine_line {line rest : Text} (hline : '\n' ∉ line) :
    firstLine (line ++ (lineEnd ++ rest)) = some (line ++ lineEnd, rest) := by
  induction line with
  | nil => rfl
  | cons c line ih =>
      rw [List.mem_cons, not_or] at hline
      rw [List.cons_append, firstLine, ih hline.2]
      · rfl
      · exact fun heq => hline.1 heq.symm

theorem stuff_cons_of_ne {c : Char} (hc : c ≠ '.') (rest : Text) :
    stuff (c :: rest) = c :: rest := by
  have hhead : (c :: rest).head? ≠ some '.' := fun heq => hc (Option.some.inj heq)
  rw [stuff, if_neg hhead]

theorem stuff_dot (rest : Text) : stuff ('.' :: rest) = '.' :: '.' :: rest := by
  rw [stuff]
  exact if_pos rfl

theorem stuff_not_end (line : Text) : stuff line ++ lineEnd ∉ lineBreaks.map ('.' :: ·) := by
  have hends : lineBreaks.map ('.' :: ·) = [['.', '\n'], ['.', '\r', '\n']] := rfl
  rw [hends]
  cases line with
  | nil => decide
  | cons c line =>
      by_cases hdot : c = '.'
      · rw [hdot, stuff_dot]
        simp [lineEnd]
      · rw [stuff_cons_of_ne hdot]
        simp [hdot]

theorem unstuff_stuff (line : Text) : unstuff (stuff line ++ lineEnd) = line ++ lineEnd := by
  cases line with
  | nil => rfl
  | cons c line =>
      by_cases hdot : c = '.'
      · rw [hdot, stuff_dot]
        rfl
      · rw [stuff_cons_of_ne hdot, List.cons_append, unstuff]
        intro left heq
        exact hdot (List.cons.inj heq).1

/-- The lines of a text, and the dot that ends it. -/
def dotted (lines : List Text) : Text :=
  lines.flatMap (fun line => stuff line ++ lineEnd) ++ '.' :: lineEnd

theorem not_mem_stuff {line : Text} (hline : '\n' ∉ line) : '\n' ∉ stuff line := by
  rw [stuff]
  split
  · intro hmem
    exact hline ((List.mem_cons.mp hmem).resolve_left (by decide))
  · exact hline

theorem dottedLines_dotted {lines : List Text} (hlines : ∀ line ∈ lines, '\n' ∉ line) (rest : Text)
    {turns : Nat} (hturns : lines.length < turns) :
    dottedLines turns (dotted lines ++ rest) =
      some (lines.map (fun line => stuff line ++ lineEnd), rest) := by
  induction lines generalizing turns with
  | nil =>
      cases turns with
      | zero => cases hturns
      | succ turns => rfl
  | cons line lines ih =>
      cases turns with
      | zero => cases hturns
      | succ turns =>
          have hfirst : firstLine (dotted (line :: lines) ++ rest) =
              some (stuff line ++ lineEnd, dotted lines ++ rest) := by
            rw [dotted, List.flatMap_cons, List.append_assoc, List.append_assoc, List.append_assoc,
              firstLine_line (not_mem_stuff (hlines line List.mem_cons_self)), dotted,
              List.append_assoc]
          rw [dottedLines, hfirst]
          dsimp only
          rw [if_neg (stuff_not_end line),
            ih (fun other hother => hlines other (List.mem_cons_of_mem line hother))
              (Nat.lt_of_succ_lt_succ hturns)]
          rfl

theorem length_dotted (lines : List Text) : lines.length < (dotted lines).length := by
  induction lines with
  | nil => decide
  | cons line lines ih =>
      rw [dotted] at ih ⊢
      rw [List.flatMap_cons, List.append_assoc, List.append_assoc, List.length_append,
        List.length_append, List.length_cons]
      have hend : lineEnd.length = 2 := rfl
      omega

/-- The string after `text:` is every line with its end, and the stuffed dots are taken away
again. -/
theorem Lexes.lines {lines : List Text} (hlines : ∀ line ∈ lines, '\n' ∉ line) {rest : Text}
    {tokens : List Token} (hrest : Lexes rest tokens) :
    Lexes ("text:".toList ++ (lineEnd ++ (dotted lines ++ rest)))
      (.string (lines.flatMap (· ++ lineEnd)) :: tokens) := by
  have hword : "text:".toList = ['t', 'e', 'x', 't', ':'] := by decide
  have hmulti : multiLine (lineEnd ++ (dotted lines ++ rest)) =
      some (lines.map (fun line => stuff line ++ lineEnd), rest) := by
    have hdotted := dottedLines_dotted hlines rest
      (Nat.lt_of_lt_of_le (length_dotted lines)
        (Nat.le_trans (Nat.le_add_right _ rest.length) (List.length_append.symm.le)))
    rw [← hdotted]
    rfl
  have hvalue : (Literal.multiLine (lines.map fun line => stuff line ++ lineEnd)).value =
      lines.flatMap (· ++ lineEnd) := by
    rw [Literal.value, List.map_map, ← List.flatMap_def]
    exact congrArg (List.flatMap · lines) (funext unstuff_stuff)
  have hlexeme : lexeme (['t', 'e', 'x', 't', ':'] ++ (lineEnd ++ (dotted lines ++ rest))) =
      some (some (.string (lines.flatMap (· ++ lineEnd))), rest) := by
    rw [← hvalue]
    have hstep : lexeme (['t', 'e', 'x', 't', ':'] ++ (lineEnd ++ (dotted lines ++ rest))) =
        (multiLine (lineEnd ++ (dotted lines ++ rest))).map fun (lines, left) =>
          (some (.string (Literal.multiLine lines).value), left) := rfl
    rw [hstep, hmulti]
    rfl
  rw [hword]
  exact .piece hlexeme hrest

end SieveGrammar

end MailPanel
