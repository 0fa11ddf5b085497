import Mathlib.Data.Bool.AllAny
import Mathlib.Data.List.Basic
import Mathlib.Data.List.TakeWhile
import MailPanel.ScriptText

/-
Markup read as text: the first occurrence of a pattern, what stands between two tags, and
the characters behind their references.
-/

namespace MailPanel

namespace XmlText

abbrev Text := List Char

/- Searching -/

/-- What stands before and after the first occurrence of one of some patterns. -/
def cut (patterns : List Text) : Text → Option (Text × Text)
  | [] => none
  | c :: text =>
      match patterns.find? fun pattern => pattern.isPrefixOf (c :: text) with
      | some pattern => some ([], (c :: text).drop pattern.length)
      | none => (cut patterns text).map fun parts => (c :: parts.1, parts.2)

/-- The text between the first opening and the next closing, and what follows. -/
def between (openings closings : List Text) (text : Text) : Option (Text × Text) :=
  (cut openings text).bind fun parts => cut closings parts.2

def betweensFrom (openings closings : List Text) : Nat → Text → List Text
  | 0, _ => []
  | fuel + 1, text =>
      match between openings closings text with
      | none => []
      | some (inner, rest) => inner :: betweensFrom openings closings fuel rest

/-- All texts between an opening and a closing, from left to right. -/
def betweens (openings closings : List Text) (text : Text) : List Text :=
  betweensFrom openings closings text.length text

/-- Replaces the occurrences of a pattern, after so many characters of the last one. -/
def replaceFrom (pattern replacement : Text) : Nat → Text → Text
  | _, [] => []
  | skipped + 1, _ :: text => replaceFrom pattern replacement skipped text
  | 0, c :: text =>
      if pattern.isPrefixOf (c :: text) then
        replacement ++ replaceFrom pattern replacement (pattern.length - 1) text
      else c :: replaceFrom pattern replacement 0 text

def replaceAll (pattern replacement text : Text) : Text :=
  replaceFrom pattern replacement 0 text

/- References -/

def reference (name : Text) : Text := '&' :: (name ++ [';'])

def lt : Text := ['l', 't']
def gt : Text := ['g', 't']
def quot : Text := ['q', 'u', 'o', 't']
def apostrophe : Text := ['#', '3', '9']
def amp : Text := ['a', 'm', 'p']

def xmlUnescape (value : Text) : Text :=
  let value := replaceAll (reference lt) ['<'] value
  let value := replaceAll (reference gt) ['>'] value
  let value := replaceAll (reference quot) ['"'] value
  let value := replaceAll (reference apostrophe) ['\''] value
  replaceAll (reference amp) ['&'] value

/-- A character as it stands, or a reference to one. -/
inductive Piece where
  | plain (c : Char)
  | entity (name : Text)
deriving DecidableEq

namespace Piece

def text : Piece → Text
  | plain c => [c]
  | entity name => reference name

/-- What the pieces of a text cannot hold, so that they can be told apart. -/
def Proper : Piece → Prop
  | plain c => c ≠ '&'
  | entity name => '&' ∉ name ∧ ';' ∉ name

def substitute (name : Text) (c : Char) (piece : Piece) : Piece :=
  if piece = entity name then plain c else piece

end Piece

example : (String.ofList (xmlUnescape "a&amp;lt;b &lt;&#39;&gt; &#13;".toList),
    (betweens ["<K>".toList] ["</K>".toList] "<L><K>a</K>, <K>b</K> <K>c".toList).map String.ofList) =
    ("a&lt;b <'> &#13;", ["a", "b"]) := by
  decide

section Replacing

variable {pattern replacement text rest : Text}

theorem replaceFrom_append_skipped :
    replaceFrom pattern replacement text.length (text ++ rest) =
      replaceFrom pattern replacement 0 rest := by
  induction text with
  | nil => rfl
  | cons c text ih => exact ih

/-- A text without the pattern's first character is kept. -/
theorem replaceFrom_append_plain {mark : Char} {tail : Text} (hmark : mark ∉ text) :
    replaceFrom (mark :: tail) replacement 0 (text ++ rest) =
      text ++ replaceFrom (mark :: tail) replacement 0 rest := by
  induction text with
  | nil => rfl
  | cons c text ih =>
      have hne : mark ≠ c := fun heq => hmark (heq ▸ List.mem_cons_self)
      have hrest := ih fun hmem => hmark (List.mem_cons_of_mem c hmem)
      rw [List.cons_append, replaceFrom, if_neg, hrest, List.cons_append]
      simp [List.isPrefixOf, hne]

/-- Texts between delimiters begin alike when they are the same, since neither of them holds the
closing one. -/
theorem isPrefixOf_delimited {first last : Char} {name other : Text} (hname : last ∉ name)
    (hother : last ∉ other) :
    (first :: (name ++ [last])).isPrefixOf (first :: (other ++ [last]) ++ rest) = true ↔
      name = other := by
  rw [List.isPrefixOf_iff_prefix]
  constructor
  · rintro ⟨tail, htail⟩
    have htext : name ++ last :: tail = other ++ last :: rest := by
      simpa using htail
    have hfront := congrArg (List.takeWhile (· ≠ last)) htext
    have hplain : ∀ {front : Text}, last ∉ front → ∀ back : Text,
        (front ++ last :: back).takeWhile (· ≠ last) = front := by
      intro front hfront back
      rw [List.takeWhile_append_of_pos]
      · simp
      · intro c hc
        exact decide_eq_true fun heq => hfront (heq ▸ hc)
    rwa [hplain hname, hplain hother] at hfront
  · rintro rfl
    exact List.prefix_append _ _

/-- An occurrence at the front is replaced. -/
theorem replaceFrom_append_self (hne : pattern ≠ []) :
    replaceFrom pattern replacement 0 (pattern ++ rest) =
      replacement ++ replaceFrom pattern replacement 0 rest := by
  obtain ⟨c, tail, rfl⟩ := List.exists_cons_of_ne_nil hne
  rw [List.cons_append, replaceFrom, if_pos]
  · exact congrArg (replacement ++ ·) replaceFrom_append_skipped
  · rw [List.isPrefixOf_iff_prefix]
    exact ⟨rest, rfl⟩

/-- Another reference at the front is kept. -/
theorem replaceFrom_append_reference {name other : Text} (hname : ';' ∉ name)
    (hother : ';' ∉ other) (hmark : '&' ∉ other) (hne : name ≠ other) :
    replaceFrom (reference name) replacement 0 (reference other ++ rest) =
      reference other ++ replaceFrom (reference name) replacement 0 rest := by
  have hnot : ¬(reference name).isPrefixOf ('&' :: (other ++ [';'] ++ rest)) = true :=
    fun hfront => hne ((isPrefixOf_delimited hname hother).mp hfront)
  have hplain : '&' ∉ other ++ [';'] := by
    simpa using hmark
  have hkept : replaceFrom (reference name) replacement 0 (other ++ [';'] ++ rest) =
      other ++ [';'] ++ replaceFrom (reference name) replacement 0 rest :=
    replaceFrom_append_plain hplain
  rw [reference.eq_def other, List.cons_append, replaceFrom, if_neg hnot]
  exact congrArg ('&' :: ·) hkept

/-- In proper pieces, replacing a reference replaces the pieces that are the reference. -/
theorem replaceAll_pieces {name : Text} (hname : ';' ∉ name) {pieces : List Piece}
    (hproper : ∀ piece ∈ pieces, piece.Proper) :
    replaceAll (reference name) replacement (pieces.flatMap Piece.text) =
      pieces.flatMap fun piece =>
        if piece = Piece.entity name then replacement else piece.text := by
  rw [replaceAll]
  induction pieces with
  | nil => rfl
  | cons piece pieces ih =>
      have hrest := ih fun other hother => hproper other (List.mem_cons_of_mem piece hother)
      have hpiece := hproper piece List.mem_cons_self
      rw [List.flatMap_cons, List.flatMap_cons, ← hrest]
      cases piece with
      | plain c =>
          have hmark : '&' ∉ Piece.text (.plain c) := by
            rw [Piece.text, List.mem_singleton]
            exact fun heq => hpiece heq.symm
          rw [if_neg (by simp)]
          exact replaceFrom_append_plain hmark
      | entity other =>
          by_cases hsame : name = other
          · subst hsame
            rw [if_pos rfl]
            exact replaceFrom_append_self (List.cons_ne_nil '&' _)
          · have hentity : ¬Piece.entity other = Piece.entity name := by
              intro heq
              cases heq
              exact hsame rfl
            rw [if_neg hentity]
            exact replaceFrom_append_reference hname hpiece.2 hpiece.1 hsame

theorem flatMap_substitute (name : Text) (c : Char) (pieces : List Piece) :
    (pieces.flatMap fun piece => if piece = Piece.entity name then [c] else piece.text) =
      (pieces.map (Piece.substitute name c)).flatMap Piece.text := by
  rw [List.flatMap_map]
  apply List.flatMap_congr
  intro piece _
  rw [Piece.substitute]
  split
  · rfl
  · rfl

theorem proper_substitute (name : Text) {c : Char} (hc : c ≠ '&') {pieces : List Piece}
    (hproper : ∀ piece ∈ pieces, piece.Proper) :
    ∀ piece ∈ pieces.map (Piece.substitute name c), piece.Proper := by
  intro piece hpiece
  obtain ⟨old, hold, rfl⟩ := List.mem_map.mp hpiece
  rw [Piece.substitute]
  split
  · exact hc
  · exact hproper old hold

end Replacing

namespace Piece

/-- What is made of a piece. Only five references are known; any other stays as it is. -/
def decoded (piece : Piece) : Text :=
  if piece = entity lt then ['<']
  else if piece = entity gt then ['>']
  else if piece = entity quot then ['"']
  else if piece = entity apostrophe then ['\'']
  else if piece = entity amp then ['&']
  else piece.text

end Piece

/-- The references of a text are read one by one, whatever they stand for. -/
theorem xmlUnescape_pieces {pieces : List Piece} (hproper : ∀ piece ∈ pieces, piece.Proper) :
    xmlUnescape (pieces.flatMap Piece.text) = pieces.flatMap Piece.decoded := by
  have hlt := proper_substitute lt (by decide : '<' ≠ '&') hproper
  have hgt := proper_substitute gt (by decide : '>' ≠ '&') hlt
  have hquot := proper_substitute quot (by decide : '"' ≠ '&') hgt
  have hapostrophe := proper_substitute apostrophe (by decide : '\'' ≠ '&') hquot
  rw [xmlUnescape, replaceAll_pieces (by decide) hproper, flatMap_substitute,
    replaceAll_pieces (by decide) hlt, flatMap_substitute,
    replaceAll_pieces (by decide) hgt, flatMap_substitute,
    replaceAll_pieces (by decide) hquot, flatMap_substitute,
    replaceAll_pieces (by decide) hapostrophe, List.map_map, List.map_map, List.map_map,
    List.flatMap_map]
  apply List.flatMap_congr
  intro piece _
  cases piece with
  | plain c => rfl
  | entity name =>
      by_cases h₁ : name = lt
      · subst h₁
        rfl
      by_cases h₂ : name = gt
      · subst h₂
        rfl
      by_cases h₃ : name = quot
      · subst h₃
        rfl
      by_cases h₄ : name = apostrophe
      · subst h₄
        rfl
      simp [Piece.substitute, Piece.decoded, h₁, h₂, h₃, h₄]

/- Characters and what stands for them -/

/-- What a piece of markup stands for.  Of the references by number only the apostrophe's
is looked into. -/
inductive Piece.Stands : Piece → Char → Prop
  | plain {c : Char} (hmark : c ≠ '&') (hangle : c ≠ '<') : Stands (.plain c) c
  | lt : Stands (.entity lt) '<'
  | gt : Stands (.entity gt) '>'
  | quot : Stands (.entity quot) '"'
  | apos : Stands (.entity ['a', 'p', 'o', 's']) '\''
  | amp : Stands (.entity amp) '&'
  | number {digits : Text} {c : Char} (hdigits : ∀ d ∈ digits, d.isAlphanum = true)
      (hcode : digits = ['3', '9'] → c = '\'') : Stands (.entity ('#' :: digits)) c

/-- Letters, digits, and the punctuation of file names and URLs that needs no escape there. A
store writes these characters as they are. -/
def isOrdinary (c : Char) : Bool := c.isAlphanum || c ∈ ['.', '_', '-', '~', '/', ':']

/-- How the characters of a text are written. -/
structure Spelling where
  piece : Char → Piece
  stands : ∀ c, (piece c).Stands c
  ordinary : ∀ c, isOrdinary c = true → piece c = .plain c

def Spelling.spell (spelling : Spelling) (text : Text) : Text :=
  (text.map spelling.piece).flatMap Piece.text

section Spelled

variable {piece : Piece} {c : Char}

theorem alphanum_spec (hc : c.isAlphanum = true) : c ∉ ['&', ';', '<'] := by
  intro hmem
  have hno : ∀ d ∈ ['&', ';', '<'], d.isAlphanum = false :=
    List.all_iff_forall_prop.mp (by decide)
  rw [hno c hmem] at hc
  cases hc

theorem Piece.Stands.proper (hstands : piece.Stands c) : piece.Proper := by
  cases hstands with
  | plain hmark hangle => exact hmark
  | number hdigits hcode =>
      constructor
      · intro hmem
        rcases List.mem_cons.mp hmem with heq | hmem
        · cases heq
        · exact alphanum_spec (hdigits _ hmem) (by decide)
      · intro hmem
        rcases List.mem_cons.mp hmem with heq | hmem
        · cases heq
        · exact alphanum_spec (hdigits _ hmem) (by decide)
  | lt => exact ⟨by decide, by decide⟩
  | gt => exact ⟨by decide, by decide⟩
  | quot => exact ⟨by decide, by decide⟩
  | apos => exact ⟨by decide, by decide⟩
  | amp => exact ⟨by decide, by decide⟩

/-- No tag begins in a piece, so spelled text can be passed over when a tag is looked for. -/
theorem Piece.Stands.angle (hstands : piece.Stands c) : '<' ∉ piece.text := by
  cases hstands with
  | plain hmark hangle =>
      rw [Piece.text, List.mem_singleton]
      exact fun heq => hangle heq.symm
  | number hdigits hcode =>
      intro hmem
      simp only [Piece.text, reference, List.cons_append, List.mem_cons, List.mem_append,
        List.not_mem_nil, or_false] at hmem
      rcases hmem with heq | heq | hmem | heq
      · cases heq
      · cases heq
      · exact alphanum_spec (hdigits _ hmem) (by decide)
      · cases heq
  | lt => decide
  | gt => decide
  | quot => decide
  | apos => decide
  | amp => decide

/-- A piece is read as its character, or left with its ampersand, by which it can still be told
from a text that was read. -/
theorem Piece.Stands.decoded (hstands : piece.Stands c) :
    piece.decoded = [c] ∨ '&' ∈ piece.decoded := by
  cases hstands with
  | plain hmark hangle => exact Or.inl rfl
  | number hdigits hcode =>
      rename_i digits
      by_cases hapostrophe : digits = ['3', '9']
      · subst hapostrophe
        rw [hcode rfl]
        exact Or.inl rfl
      · have hkept : Piece.decoded (.entity ('#' :: digits)) = reference ('#' :: digits) := by
          simp [Piece.decoded, Piece.text, XmlText.lt, XmlText.gt, XmlText.quot,
            apostrophe, XmlText.amp, hapostrophe]
        rw [hkept]
        exact Or.inr List.mem_cons_self
  | lt => exact Or.inl rfl
  | gt => exact Or.inl rfl
  | quot => exact Or.inl rfl
  | apos => exact Or.inr (by decide)
  | amp => exact Or.inl rfl

end Spelled

namespace Spelling

variable (spelling : Spelling) {text : Text}

theorem angle_not_mem_spell (text : Text) : '<' ∉ spelling.spell text := by
  intro hmem
  obtain ⟨piece, hpiece, hmem⟩ := List.mem_flatMap.mp hmem
  obtain ⟨c, -, rfl⟩ := List.mem_map.mp hpiece
  exact (spelling.stands c).angle hmem

theorem xmlUnescape_spell (text : Text) :
    xmlUnescape (spelling.spell text) = text.flatMap fun c => (spelling.piece c).decoded := by
  rw [spell, xmlUnescape_pieces, List.flatMap_map]
  intro piece hpiece
  obtain ⟨c, -, rfl⟩ := List.mem_map.mp hpiece
  exact (spelling.stands c).proper

/-- Text that is read without an ampersand is the text that was written. -/
theorem eq_of_xmlUnescape (hplain : '&' ∉ xmlUnescape (spelling.spell text)) :
    xmlUnescape (spelling.spell text) = text := by
  rw [xmlUnescape_spell] at hplain ⊢
  induction text with
  | nil => rfl
  | cons c text ih =>
      rw [List.flatMap_cons, List.mem_append, not_or] at hplain
      rw [List.flatMap_cons, ih hplain.2]
      rcases (spelling.stands c).decoded with hdecoded | hmark
      · rw [hdecoded, List.singleton_append]
      · exact absurd hmark hplain.1

theorem xmlUnescape_append (first second : Text) :
    xmlUnescape (spelling.spell (first ++ second)) =
      xmlUnescape (spelling.spell first) ++ xmlUnescape (spelling.spell second) := by
  rw [xmlUnescape_spell, xmlUnescape_spell, xmlUnescape_spell, List.flatMap_append]

/-- Nothing is read of fewer characters. -/
theorem length_le_xmlUnescape (text : Text) :
    text.length ≤ (xmlUnescape (spelling.spell text)).length := by
  rw [xmlUnescape_spell]
  induction text with
  | nil => exact Nat.zero_le _
  | cons c text ih =>
      have hpos : 0 < (spelling.piece c).decoded.length := by
        rcases (spelling.stands c).decoded with hdecoded | hmark
        · rw [hdecoded]
          exact Nat.zero_lt_one
        · exact List.length_pos_of_mem hmark
      rw [List.flatMap_cons, List.length_append, List.length_cons]
      omega

theorem xmlUnescape_ordinary (htext : ∀ c ∈ text, isOrdinary c = true) :
    xmlUnescape (spelling.spell text) = text := by
  rw [xmlUnescape_spell]
  induction text with
  | nil => rfl
  | cons c text ih =>
      rw [List.flatMap_cons, ih fun d hd => htext d (List.mem_cons_of_mem c hd),
        spelling.ordinary c (htext c List.mem_cons_self)]
      rfl

end Spelling

/- Tags -/

inductive Token where
  | tag (name : Text)
  | chars (text : Text)
deriving DecidableEq

def tagText (name : Text) : Text := '<' :: (name ++ ['>'])

namespace Token

def text : Token → Text
  | tag name => tagText name
  | chars text => text

def Proper : Token → Prop
  | tag name => '<' ∉ name ∧ '>' ∉ name
  | chars text => '<' ∉ text

end Token

def render (tokens : List Token) : Text := tokens.flatMap Token.text

/-- Proper tokens without certain tags. -/
def Lacks (names : List Text) (tokens : List Token) : Prop :=
  ∀ token ∈ tokens, token.Proper ∧ ∀ name ∈ names, token ≠ .tag name

/-- What stands between elements: before each child, after the last child, and before each of
the elements that hold children. It is white space, or anything else in which no tag begins. -/
structure Layout where
  beforeChild : Text
  afterChildren : Text
  beforeBlock : Text
  beforeChild_plain : '<' ∉ beforeChild
  afterChildren_plain : '<' ∉ afterChildren
  beforeBlock_plain : '<' ∉ beforeBlock

/-- Elements with their content as tokens. -/
def enclosed (layout : Layout) (blocks : List (Text × List Token)) : List Token :=
  blocks.flatMap fun block =>
    .chars layout.beforeBlock :: .tag block.1 :: (block.2 ++ [.tag ('/' :: block.1)])

/-- An element without children: its name and its characters. -/
abbrev Field := Text × Text

structure Field.Proper (field : Field) : Prop where
  name_open : '<' ∉ field.1
  name_close : '>' ∉ field.1
  name_slash : field.1.head? ≠ some '/'
  value : '<' ∉ field.2

/-- Children of an element as tokens, one after the other, each with the white space of the
layout before it. -/
def fieldTokens (layout : Layout) (fields : List Field) : List Token :=
  fields.flatMap fun field =>
    [.chars layout.beforeChild, .tag field.1, .chars field.2, .tag ('/' :: field.1)]

/-- The content of an element: its children, and what stands after the last of them. -/
def childTokens (layout : Layout) (fields : List Field) : List Token :=
  fieldTokens layout fields ++ [.chars layout.afterChildren]

def openings (names : List Text) : List Text := names.map tagText

def closings (names : List Text) : List Text := openings (names.map fun name => '/' :: name)

/-- The first element with a name. -/
def firstMatch (source name : Text) : Option Text :=
  (between (openings [name]) (closings [name]) source).map fun parts => xmlUnescape parts.1

section Tags

variable {text rest name : Text} {names : List Text} {tokens front inner back : List Token}
  {layout : Layout}

theorem cut_append_plain {patterns : List Text} {mark : Char}
    (hpatterns : ∀ pattern ∈ patterns, pattern.head? = some mark) (hmark : mark ∉ text) :
    cut patterns (text ++ rest) =
      (cut patterns rest).map fun parts => (text ++ parts.1, parts.2) := by
  induction text with
  | nil => simp
  | cons c text ih =>
      have hne : mark ≠ c := fun heq => hmark (heq ▸ List.mem_cons_self)
      have hrest := ih fun hmem => hmark (List.mem_cons_of_mem c hmem)
      have hnone : patterns.find? (fun pattern => pattern.isPrefixOf (c :: (text ++ rest))) =
          none := by
        rw [List.find?_eq_none]
        intro pattern hpattern
        obtain ⟨tail, rfl⟩ := List.head?_eq_some_iff.mp (hpatterns pattern hpattern)
        simp [List.isPrefixOf, hne]
      rw [List.cons_append, cut, hnone]
      dsimp only
      rw [hrest, Option.map_map]
      rfl

theorem head_openings : ∀ pattern ∈ openings names, pattern.head? = some '<' := by
  intro pattern hpattern
  obtain ⟨name, -, rfl⟩ := List.mem_map.mp hpattern
  rfl

/-- A tag begins like one of the patterns only when it is among them: the names are compared up
to the closing angle. -/
theorem find_openings (hnames : ∀ name ∈ names, '>' ∉ name) (hname : '>' ∉ name) :
    (openings names).find? (fun pattern => pattern.isPrefixOf (tagText name ++ rest)) =
      if name ∈ names then some (tagText name) else none := by
  induction names with
  | nil => rfl
  | cons first names ih =>
      have hrest := ih fun other hother => hnames other (List.mem_cons_of_mem first hother)
      have hsame : (tagText first).isPrefixOf (tagText name ++ rest) = true ↔ first = name :=
        isPrefixOf_delimited (hnames first List.mem_cons_self) hname
      rw [openings] at hrest
      rw [openings, List.map_cons, List.find?_cons]
      by_cases heq : first = name
      · subst heq
        rw [hsame.mpr rfl, if_pos List.mem_cons_self]
      · have hne : (tagText first).isPrefixOf (tagText name ++ rest) = false := by
          rw [Bool.eq_false_iff]
          exact fun htrue => heq (hsame.mp htrue)
        rw [hne, hrest]
        simp [Ne.symm heq]

/-- Another tag is passed over, as a whole, and counts as text before the first match. -/
theorem cut_append_tag (hnames : ∀ name ∈ names, '>' ∉ name) (hname : '<' ∉ name ∧ '>' ∉ name)
    (hother : name ∉ names) : cut (openings names) (tagText name ++ rest) =
      (cut (openings names) rest).map fun parts => (tagText name ++ parts.1, parts.2) := by
  have hplain : '<' ∉ name ++ ['>'] := by
    simpa using hname.1
  have hkept : cut (openings names) (name ++ ['>'] ++ rest) =
      (cut (openings names) rest).map fun parts => (name ++ ['>'] ++ parts.1, parts.2) :=
    cut_append_plain head_openings hplain
  have hnone : (openings names).find? (fun pattern =>
      pattern.isPrefixOf ('<' :: (name ++ ['>'] ++ rest))) = none := by
    have hfind : (openings names).find? (fun pattern =>
        pattern.isPrefixOf (tagText name ++ rest)) =
          if name ∈ names then some (tagText name) else none :=
      find_openings hnames hname.2
    rwa [if_neg hother] at hfind
  rw [tagText, List.cons_append, cut, hnone]
  dsimp only
  rw [hkept, Option.map_map]
  rfl

theorem cut_append_self (hnames : ∀ name ∈ names, '>' ∉ name) (hname : name ∈ names) :
    cut (openings names) (tagText name ++ rest) = some ([], rest) := by
  have hfind : (openings names).find? (fun pattern =>
      pattern.isPrefixOf ('<' :: (name ++ ['>'] ++ rest))) = some (tagText name) := by
    have hfind : (openings names).find? (fun pattern =>
        pattern.isPrefixOf (tagText name ++ rest)) =
          if name ∈ names then some (tagText name) else none :=
      find_openings hnames (hnames name hname)
    rwa [if_pos hname] at hfind
  rw [tagText, List.cons_append, cut, hfind]
  simp [tagText]

/-- Tokens without the tags are passed over. -/
theorem cut_append_tokens (hnames : ∀ name ∈ names, '>' ∉ name) (hlacks : Lacks names tokens) :
    cut (openings names) (render tokens ++ rest) =
      (cut (openings names) rest).map fun parts => (render tokens ++ parts.1, parts.2) := by
  induction tokens with
  | nil => simp [render]
  | cons token tokens ih =>
      have hrest := ih fun later hlater => hlacks later (List.mem_cons_of_mem token hlater)
      obtain ⟨hproper, hne⟩ := hlacks token List.mem_cons_self
      have hfront : ∀ text : Text, cut (openings names) (token.text ++ text) =
          (cut (openings names) text).map fun parts => (token.text ++ parts.1, parts.2) := by
        intro text
        cases token with
        | chars plain => exact cut_append_plain head_openings hproper
        | tag name => exact cut_append_tag hnames hproper fun hname => hne name hname rfl
      rw [render, List.flatMap_cons, List.append_assoc, hfront, ← render, hrest, Option.map_map]
      simp only [Function.comp_def, List.append_assoc]

theorem cut_lacks (hnames : ∀ name ∈ names, '>' ∉ name) (hlacks : Lacks names tokens) :
    cut (openings names) (render tokens) = none := by
  have hcut : cut (openings names) (render tokens ++ []) =
      (cut (openings names) []).map fun parts => (render tokens ++ parts.1, parts.2) :=
    cut_append_tokens hnames hlacks
  rw [List.append_nil] at hcut
  rw [hcut]
  rfl

/-- The first of the tags is found. -/
theorem cut_render (hnames : ∀ name ∈ names, '>' ∉ name) (hname : name ∈ names)
    (hlacks : Lacks names front) : cut (openings names) (render (front ++ .tag name :: back)) =
      some (render front, render back) := by
  have htokens : render (front ++ .tag name :: back) =
      render front ++ (tagText name ++ render back) := by
    rw [render, List.flatMap_append, List.flatMap_cons]
    rfl
  rw [htokens, cut_append_tokens hnames hlacks, cut_append_self hnames hname, Option.map_some,
    List.append_nil]

theorem close_not_mem_closed (hnames : ∀ name ∈ names, '>' ∉ name) :
    ∀ name ∈ names.map fun name => '/' :: name, '>' ∉ name := by
  intro closed hclosed
  obtain ⟨name, hname, rfl⟩ := List.mem_map.mp hclosed
  simpa using hnames name hname

theorem between_render (hnames : ∀ name ∈ names, '>' ∉ name) (hname : name ∈ names)
    (hfront : Lacks names front) (hinner : Lacks (names.map fun name => '/' :: name) inner) :
    between (openings names) (closings names)
        (render (front ++ .tag name :: (inner ++ .tag ('/' :: name) :: back))) =
      some (render inner, render back) := by
  rw [between, cut_render hnames hname hfront]
  exact cut_render (close_not_mem_closed hnames) (List.mem_map_of_mem hname) hinner

theorem enclosed_cons (layout : Layout) (block : Text × List Token)
    (blocks : List (Text × List Token)) (back : List Token) :
    enclosed layout (block :: blocks) ++ back =
      [.chars layout.beforeBlock] ++ .tag block.1 ::
        (block.2 ++ .tag ('/' :: block.1) :: (enclosed layout blocks ++ back)) := by
  simp [enclosed]

theorem lacks_nil : Lacks names [] := fun _ htoken => absurd htoken List.not_mem_nil

theorem lacks_chars (hplain : '<' ∉ text) : Lacks names [.chars text] := by
  intro token htoken
  rw [List.mem_singleton.mp htoken]
  exact ⟨hplain, fun _ _ => nofun⟩

theorem Lacks.append (hfront : Lacks names front) (hback : Lacks names back) :
    Lacks names (front ++ back) := by
  intro token htoken
  rcases List.mem_append.mp htoken with hmem | hmem
  · exact hfront token hmem
  · exact hback token hmem

/-- Blocks between tags are read one after the other, whatever white space stands between them. -/
theorem betweensFrom_render (hnames : ∀ name ∈ names, '>' ∉ name) (hback : Lacks names back)
    {blocks : List (Text × List Token)}
    (hblocks : ∀ block ∈ blocks, block.1 ∈ names ∧
      Lacks (names.map fun name => '/' :: name) block.2)
    (hfront : Lacks names front) {fuel : Nat} (hfuel : blocks.length ≤ fuel) :
    betweensFrom (openings names) (closings names) fuel
        (render (front ++ (enclosed layout blocks ++ back))) =
      blocks.map fun block => render block.2 := by
  induction blocks generalizing front fuel with
  | nil =>
      cases fuel with
      | zero => rfl
      | succ fuel =>
          rw [enclosed, List.flatMap_nil, List.nil_append, betweensFrom, between,
            cut_lacks hnames (hfront.append hback)]
          rfl
  | cons block blocks ih =>
      obtain ⟨fuel, rfl⟩ : ∃ less, fuel = less + 1 := ⟨fuel - 1, by
        rw [List.length_cons] at hfuel
        omega⟩
      obtain ⟨hname, hinner⟩ := hblocks block List.mem_cons_self
      have hrest := ih (fun later hlater => hblocks later (List.mem_cons_of_mem block hlater))
        lacks_nil (Nat.le_of_succ_le_succ hfuel)
      rw [List.nil_append] at hrest
      have hfront := hfront.append (lacks_chars layout.beforeBlock_plain)
      rw [enclosed_cons, ← List.append_assoc front, betweensFrom,
        between_render hnames hname hfront hinner]
      dsimp only
      rw [hrest, List.map_cons]

theorem length_le_render_enclosed (layout : Layout) (blocks : List (Text × List Token)) :
    blocks.length ≤ (render (enclosed layout blocks)).length := by
  induction blocks with
  | nil => exact Nat.zero_le _
  | cons block blocks ih =>
      have hcons := enclosed_cons layout block blocks []
      rw [List.append_nil, List.append_nil] at hcons
      rw [render] at ih
      rw [hcons, render]
      simp only [List.flatMap_cons, List.flatMap_append, List.length_append, List.length_cons,
        Token.text, tagText]
      omega

theorem betweens_render (hnames : ∀ name ∈ names, '>' ∉ name) (hfront : Lacks names front)
    {blocks : List (Text × List Token)}
    (hblocks : ∀ block ∈ blocks, block.1 ∈ names ∧
      Lacks (names.map fun name => '/' :: name) block.2)
    (hback : Lacks names back) :
    betweens (openings names) (closings names)
        (render (front ++ (enclosed layout blocks ++ back))) =
      blocks.map fun block => render block.2 := by
  have hlength := length_le_render_enclosed layout blocks
  refine betweensFrom_render hnames hback hblocks hfront (hlength.trans ?_)
  simp only [render, List.flatMap_append, List.length_append]
  omega

/-- Fields lack the tags of other names, opening and closing ones, and so does the white space
around them. -/
theorem lacks_fields {fields : List Field} (hproper : ∀ field ∈ fields, field.Proper)
    (hnames : ∀ field ∈ fields, field.1 ∉ names)
    (hslash : ∀ name ∈ names, name.head? ≠ some '/') :
    Lacks names (fieldTokens layout fields) ∧
      Lacks (names.map fun name => '/' :: name) (fieldTokens layout fields) := by
  have htags : ∀ token ∈ fieldTokens layout fields, token.Proper ∧ ∀ name ∈ names,
      token ≠ .tag name ∧ token ≠ .tag ('/' :: name) := by
    intro token htoken
    obtain ⟨⟨fieldName, value⟩, hfield, hmem⟩ := List.mem_flatMap.mp htoken
    obtain ⟨hopen, hclose, hnoSlash, hvalue⟩ := hproper _ hfield
    have hother : ∀ name ∈ names, fieldName ≠ name := fun name hname heq =>
      hnames _ hfield (heq ▸ hname)
    simp only [List.mem_cons, List.not_mem_nil, or_false] at hmem
    rcases hmem with rfl | rfl | rfl | rfl
    · exact ⟨layout.beforeChild_plain, fun _ _ => ⟨nofun, nofun⟩⟩
    · refine ⟨⟨hopen, hclose⟩, fun name hname => ⟨fun heq => hother name hname
        (Token.tag.inj heq), ?_⟩⟩
      intro heq
      exact hnoSlash (congrArg List.head? (Token.tag.inj heq))
    · exact ⟨hvalue, fun _ _ => ⟨nofun, nofun⟩⟩
    · refine ⟨⟨?_, ?_⟩, fun name hname => ⟨?_, ?_⟩⟩
      · simpa using hopen
      · simpa using hclose
      · intro heq
        exact hslash name hname (congrArg List.head? (Token.tag.inj heq)).symm
      · intro heq
        exact hother name hname (List.cons.inj (Token.tag.inj heq)).2
  constructor
  · exact fun token htoken => ⟨(htags token htoken).1, fun name hname =>
      ((htags token htoken).2 name hname).1⟩
  · intro token htoken
    refine ⟨(htags token htoken).1, fun closed hclosed => ?_⟩
    obtain ⟨name, hname, rfl⟩ := List.mem_map.mp hclosed
    exact ((htags token htoken).2 name hname).2

theorem lacks_children {fields : List Field} (hproper : ∀ field ∈ fields, field.Proper)
    (hnames : ∀ field ∈ fields, field.1 ∉ names)
    (hslash : ∀ name ∈ names, name.head? ≠ some '/') :
    Lacks (names.map fun name => '/' :: name) (childTokens layout fields) :=
  (lacks_fields hproper hnames hslash).2.append (lacks_chars layout.afterChildren_plain)

/-- A field is read from the first element of its name, with other fields and white space before
it. -/
theorem firstMatch_fields {fields : List Field} {value : Text}
    (hproper : ∀ field ∈ fields, field.Proper) (hslash : name.head? ≠ some '/')
    (hfind : fields.find? (fun field => field.1 = name) = some (name, value))
    (hfront : Lacks [name] front) :
    firstMatch (render (front ++ (fieldTokens layout fields ++ back))) name =
      some (xmlUnescape value) := by
  obtain ⟨-, before, after, rfl, hbefore⟩ := List.find?_eq_some_iff_append.mp hfind
  have hfield := hproper (name, value) (by simp)
  have htokens : front ++ (fieldTokens layout (before ++ (name, value) :: after) ++ back) =
      (front ++ (fieldTokens layout before ++ [.chars layout.beforeChild])) ++ .tag name ::
        ([.chars value] ++ .tag ('/' :: name) :: (fieldTokens layout after ++ back)) := by
    simp [fieldTokens]
  have hbefore' : Lacks [name] (fieldTokens layout before ++ [.chars layout.beforeChild]) := by
    refine (lacks_fields ?_ ?_ ?_).1.append (lacks_chars layout.beforeChild_plain)
    · exact fun field hmem => hproper field (List.mem_append_left _ hmem)
    · intro field hmem
      simpa using hbefore field hmem
    · exact fun other hother => List.mem_singleton.mp hother ▸ hslash
  have hinner : Lacks ([name].map fun name => '/' :: name) [.chars value] :=
    lacks_chars hfield.value
  have hnames : ∀ other ∈ [name], '>' ∉ other := fun other hother =>
    List.mem_singleton.mp hother ▸ hfield.name_close
  rw [firstMatch, htokens, between_render hnames List.mem_cons_self
    (hfront.append hbefore') hinner]
  simp [render, Token.text]

theorem firstMatch_childTokens {fields : List Field} {value : Text}
    (hproper : ∀ field ∈ fields, field.Proper) (hslash : name.head? ≠ some '/')
    (hfind : fields.find? (fun field => field.1 = name) = some (name, value)) :
    firstMatch (render (childTokens layout fields)) name = some (xmlUnescape value) := by
  have hmatch : firstMatch
      (render ([] ++ (fieldTokens layout fields ++ [.chars layout.afterChildren]))) name =
        some (xmlUnescape value) := firstMatch_fields hproper hslash hfind lacks_nil
  rwa [List.nil_append] at hmatch

end Tags

end XmlText

end MailPanel
