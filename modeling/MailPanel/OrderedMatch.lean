import Mathlib.Data.List.Basic

/-
Regular expressions that are matched by backtracking: the positions that an expression can
reach, in the order of preference, and the matches of a text one after the other.
-/

namespace MailPanel

namespace OrderedMatch

/-- Expressions of the kind that the source uses. Alternatives are tried from left to right, and
repetitions take as much as they can before they give anything back. -/
inductive Regex where
  | set (accepts : Char → Bool)
  | seq (first second : Regex)
  | alt (first second : Regex)
  /-- As often as possible, between two bounds. -/
  | rep (body : Regex) (least most : Nat)
  /-- `\b`. -/
  | boundary

def isWord (c : Char) : Bool := c.isAlphanum || c = '_'

/-- The character read last, and the text to come. -/
abbrev Position := Option Char × List Char

def atBoundary (position : Position) : Bool :=
  position.1.any isWord != position.2.head?.any isWord

/-- One more time if possible, and after that as many as are possible. -/
def repeated (body : Position → List Position) (least : Nat) :
    Nat → Position → List Position
  | 0, position => if least = 0 then [position] else []
  | most + 1, position =>
      (body position).flatMap (repeated body (least - 1) most) ++
        if least = 0 then [position] else []

namespace Regex

def results : Regex → Position → List Position
  | .set accepts, (_, text) =>
      match text with
      | [] => []
      | c :: rest => if accepts c then [(some c, rest)] else []
  | .seq first second, position => (first.results position).flatMap second.results
  | .alt first second, position => first.results position ++ second.results position
  | .rep body least most, position => repeated body.results least most position
  | .boundary, position => if atBoundary position then [position] else []

/-- The texts that an expression can stand for, boundaries aside. It says what may be matched,
and the matcher decides which of these it takes first. -/
def Lang : Regex → List Char → Prop
  | .set accepts, text => ∃ c, text = [c] ∧ accepts c = true
  | .seq first second, text =>
      ∃ front back, text = front ++ back ∧ first.Lang front ∧ second.Lang back
  | .alt first second, text => first.Lang text ∨ second.Lang text
  | .rep body least most, text => ∃ pieces : List (List Char),
      (∀ piece ∈ pieces, body.Lang piece) ∧ text = pieces.flatten ∧
        least ≤ pieces.length ∧ pieces.length ≤ most
  | .boundary, text => text = []

/-- The characters that occur in the sets of an expression. -/
def uses : Regex → Char → Bool
  | .set accepts, c => accepts c
  | .seq first second, c | .alt first second, c => first.uses c || second.uses c
  | .rep body _ _, c => body.uses c
  | .boundary, _ => false

end Regex

/-- `matchAll` from a position on; as many characters belong to the match before. -/
def scan (regex : Regex) : Nat → Option Char → List Char → List (List Char)
  | 0, last, [] =>
      match (regex.results (last, [])).head? with
      | none => []
      | some _ => [[]]
  | _ + 1, _, [] => []
  | skip + 1, _, c :: rest => scan regex skip (some c) rest
  | 0, last, c :: rest =>
      match (regex.results (last, c :: rest)).head? with
      | none => scan regex 0 (some c) rest
      | some (_, after) =>
          let taken := (c :: rest).length - after.length
          (c :: rest).take taken :: scan regex (taken - 1) (some c) rest

def matchAll (regex : Regex) (text : List Char) : List (List Char) := scan regex 0 none text

example : matchAll (.rep (.set Char.isDigit) 1 2) "a123".toList = [['1', '2'], ['3']] := by
  decide

/-- The character read last, after a text. -/
def lastOf (last : Option Char) (text : List Char) : Option Char := text.getLast?.or last

section Texts

variable {last : Option Char} {text front back : List Char}

@[simp]
theorem lastOf_nil : lastOf last [] = last :=
  rfl

@[simp]
theorem lastOf_append : lastOf last (front ++ back) = lastOf (lastOf last front) back := by
  rw [lastOf, lastOf, lastOf, List.getLast?_append, Option.or_assoc]

theorem lastOf_singleton (c : Char) : lastOf last [c] = some c :=
  rfl

/-- Between a position and one that it reaches stands a text. -/
def Reads (position after : Position) (text : List Char) : Prop :=
  position.2 = text ++ after.2 ∧ after.1 = lastOf position.1 text

theorem Reads.refl (position : Position) : Reads position position [] :=
  ⟨rfl, rfl⟩

theorem Reads.trans {position middle after : Position} (hfirst : Reads position middle front)
    (hsecond : Reads middle after back) : Reads position after (front ++ back) := by
  refine ⟨?_, ?_⟩
  · rw [hfirst.1, hsecond.1, List.append_assoc]
  · rw [hsecond.2, hfirst.2, lastOf_append]

end Texts

section Sound

variable {position after : Position}

theorem mem_repeated {body : Position → List Position} {Lang : List Char → Prop}
    (hbody : ∀ position, ∀ after ∈ body position, ∃ text, Reads position after text ∧ Lang text)
    {least most : Nat} (hafter : after ∈ repeated body least most position) :
    ∃ pieces : List (List Char), Reads position after pieces.flatten ∧
      (∀ piece ∈ pieces, Lang piece) ∧ least ≤ pieces.length ∧ pieces.length ≤ most := by
  have hstop : ∀ {least : Nat} {position : Position},
      after ∈ (if least = 0 then [position] else []) → after = position ∧ least = 0 := by
    intro least position hmem
    split at hmem
    · exact ⟨List.mem_singleton.mp hmem, ‹_›⟩
    · cases hmem
  induction most generalizing least position with
  | zero =>
      obtain ⟨rfl, rfl⟩ := hstop hafter
      exact ⟨[], Reads.refl _, fun piece hpiece => absurd hpiece List.not_mem_nil,
        Nat.le_refl 0, Nat.le_refl 0⟩
  | succ most ih =>
      rw [repeated] at hafter
      rcases List.mem_append.mp hafter with hmore | hnone
      · obtain ⟨middle, hmiddle, hafter⟩ := List.mem_flatMap.mp hmore
        obtain ⟨text, hreads, htext⟩ := hbody position middle hmiddle
        obtain ⟨pieces, hrest, hpieces, hleast, hmost⟩ := ih hafter
        refine ⟨text :: pieces, hreads.trans hrest, List.forall_mem_cons.mpr ⟨htext, hpieces⟩,
          ?_, ?_⟩
        · rw [List.length_cons]
          omega
        · rw [List.length_cons]
          omega
      · obtain ⟨rfl, rfl⟩ := hstop hnone
        exact ⟨[], Reads.refl _, fun piece hpiece => absurd hpiece List.not_mem_nil,
          Nat.le_refl 0, Nat.zero_le _⟩

/-- What an expression reads is one of its texts, whatever order it tries its alternatives in. -/
theorem mem_results {regex : Regex} (hafter : after ∈ regex.results position) :
    ∃ text, Reads position after text ∧ regex.Lang text := by
  induction regex generalizing position after with
  | set accepts =>
      obtain ⟨last, text⟩ := position
      cases text with
      | nil => cases hafter
      | cons c rest =>
          rw [Regex.results] at hafter
          split at hafter
          · obtain rfl := List.mem_singleton.mp hafter
            exact ⟨[c], ⟨rfl, rfl⟩, c, rfl, ‹_›⟩
          · cases hafter
  | seq first second ihFirst ihSecond =>
      obtain ⟨middle, hmiddle, hafter⟩ := List.mem_flatMap.mp hafter
      obtain ⟨front, hfront, hfirst⟩ := ihFirst hmiddle
      obtain ⟨back, hback, hsecond⟩ := ihSecond hafter
      exact ⟨front ++ back, hfront.trans hback, front, back, rfl, hfirst, hsecond⟩
  | alt first second ihFirst ihSecond =>
      rcases List.mem_append.mp hafter with hafter | hafter
      · obtain ⟨text, hreads, hlang⟩ := ihFirst hafter
        exact ⟨text, hreads, Or.inl hlang⟩
      · obtain ⟨text, hreads, hlang⟩ := ihSecond hafter
        exact ⟨text, hreads, Or.inr hlang⟩
  | rep body least most ih =>
      obtain ⟨pieces, hreads, hpieces, hbounds⟩ := mem_repeated (fun _ _ hmem => ih hmem) hafter
      exact ⟨pieces.flatten, hreads, pieces, hpieces, rfl, hbounds⟩
  | boundary =>
      rw [Regex.results] at hafter
      split at hafter
      · obtain rfl := List.mem_singleton.mp hafter
        exact ⟨[], Reads.refl _, rfl⟩
      · cases hafter

theorem uses_of_lang {regex : Regex} {text : List Char} (hlang : regex.Lang text) :
    ∀ c ∈ text, regex.uses c = true := by
  induction regex generalizing text with
  | set accepts =>
      obtain ⟨c, rfl, haccepts⟩ := hlang
      intro d hd
      obtain rfl := List.mem_singleton.mp hd
      exact haccepts
  | seq first second ihFirst ihSecond =>
      obtain ⟨front, back, rfl, hfirst, hsecond⟩ := hlang
      intro c hc
      rw [Regex.uses, Bool.or_eq_true]
      rcases List.mem_append.mp hc with hc | hc
      · exact Or.inl (ihFirst hfirst c hc)
      · exact Or.inr (ihSecond hsecond c hc)
  | alt first second ihFirst ihSecond =>
      intro c hc
      rw [Regex.uses, Bool.or_eq_true]
      rcases hlang with hlang | hlang
      · exact Or.inl (ihFirst hlang c hc)
      · exact Or.inr (ihSecond hlang c hc)
  | rep body least most ih =>
      obtain ⟨pieces, hpieces, rfl, -⟩ := hlang
      intro c hc
      obtain ⟨piece, hpiece, hc⟩ := List.mem_flatten.mp hc
      exact ih (hpieces piece hpiece) c hc
  | boundary =>
      obtain rfl : text = [] := hlang
      exact fun c hc => absurd hc List.not_mem_nil

end Sound

section Scan

variable {regex : Regex}

theorem lastOf_cons (last : Option Char) (c : Char) (text : List Char) :
    lastOf last (c :: text) = lastOf (some c) text :=
  @lastOf_append last [c] text

/-- What is taken at a position, where something is found. -/
theorem take_of_results {last : Option Char} {text : List Char} {after : Position}
    (hresults : (regex.results (last, text)).head? = some after) :
    ∃ found, text = found ++ after.2 ∧ regex.Lang found ∧
      text.length - after.2.length = found.length ∧
      text.take (text.length - after.2.length) = found := by
  obtain ⟨found, ⟨htext, -⟩, hlang⟩ := mem_results (List.mem_of_mem_head? hresults)
  dsimp only at htext
  have hlength : text.length - after.2.length = found.length := by
    rw [htext, List.length_append, Nat.add_sub_cancel]
  refine ⟨found, htext, hlang, hlength, ?_⟩
  rw [hlength, htext, List.take_left]

/-- Every match stands somewhere in the text, and is what is preferred there. -/
theorem mem_scan {skip : Nat} {last : Option Char} {text found : List Char}
    (hfound : found ∈ scan regex skip last text) :
    ∃ front back after, text = front ++ (found ++ back) ∧
      (regex.results (lastOf last front, found ++ back)).head? = some (after, back) := by
  induction text generalizing skip last with
  | nil =>
      cases skip with
      | succ skip => cases hfound
      | zero =>
          rw [scan] at hfound
          cases hresults : (regex.results (last, [])).head? with
          | none =>
              rw [hresults] at hfound
              cases hfound
          | some after =>
              rw [hresults] at hfound
              obtain rfl := List.mem_singleton.mp hfound
              obtain ⟨taken, htext, -⟩ := take_of_results hresults
              obtain ⟨rfl, hrest⟩ := List.append_eq_nil_iff.mp htext.symm
              refine ⟨[], [], after.1, rfl, hresults.trans ?_⟩
              rw [← hrest]
  | cons c rest ih =>
      have hlater : ∀ {skip : Nat}, found ∈ scan regex skip (some c) rest →
          ∃ front back after, c :: rest = front ++ (found ++ back) ∧
            (regex.results (lastOf last front, found ++ back)).head? = some (after, back) := by
        intro skip hfound
        obtain ⟨front, back, after, rfl, hresults⟩ := ih hfound
        exact ⟨c :: front, back, after, rfl, by rwa [lastOf_cons]⟩
      cases skip with
      | succ skip => exact hlater hfound
      | zero =>
          rw [scan] at hfound
          cases hresults : (regex.results (last, c :: rest)).head? with
          | none =>
              rw [hresults] at hfound
              exact hlater hfound
          | some after =>
              rw [hresults] at hfound
              obtain ⟨taken, htext, -, -, htake⟩ := take_of_results hresults
              rcases List.mem_cons.mp hfound with rfl | hfound
              · refine ⟨[], after.2, after.1, ?_, ?_⟩
                · rw [htake, List.nil_append, ← htext]
                · rw [htake, lastOf_nil, ← htext, hresults]
              · exact hlater hfound

/-- Behind a character that no match can have, matching begins anew, so a text can be scanned
word by word. -/
theorem mem_scan_append_cons (hne : ∀ text, regex.Lang text → text ≠ []) {c : Char}
    (hc : regex.uses c = false) {skip : Nat} {last : Option Char} {front back found : List Char}
    (hskip : skip ≤ front.length) (hfound : found ∈ scan regex 0 (some c) back) :
    found ∈ scan regex skip last (front ++ c :: back) := by
  have hnot : ∀ {text : List Char}, regex.Lang text → c ∉ text := by
    intro text hlang hmem
    exact Bool.false_ne_true (hc.symm.trans (uses_of_lang hlang c hmem))
  induction front generalizing skip last with
  | nil =>
      obtain rfl := Nat.le_zero.mp hskip
      rw [List.nil_append, scan]
      cases hresults : (regex.results (last, c :: back)).head? with
      | none => exact hfound
      | some after =>
          obtain ⟨taken, htext, hlang, -⟩ := take_of_results hresults
          cases taken with
          | nil => exact absurd rfl (hne [] hlang)
          | cons d taken =>
              obtain ⟨rfl, -⟩ := List.cons.inj htext
              exact absurd List.mem_cons_self (hnot hlang)
  | cons d front ih =>
      cases skip with
      | succ skip => exact ih (Nat.le_of_succ_le_succ hskip)
      | zero =>
          rw [List.cons_append, scan]
          cases hresults : (regex.results (last, d :: (front ++ c :: back))).head? with
          | none => exact ih (Nat.zero_le _)
          | some after =>
              obtain ⟨taken, htext, hlang, hlength, -⟩ := take_of_results hresults
              refine List.mem_cons_of_mem _ (ih ?_)
              rw [hlength]
              rw [← List.cons_append] at htext
              rcases List.append_eq_append_iff.mp htext with ⟨extra, htaken, hback⟩ | ⟨extra, hfront, -⟩
              · cases extra with
                | nil =>
                    rw [htaken, List.append_nil, List.length_cons]
                    exact Nat.le_refl _
                | cons e extra =>
                    obtain ⟨rfl, -⟩ := List.cons.inj hback
                    rw [htaken] at hlang
                    exact absurd (List.mem_append_right _ List.mem_cons_self) (hnot hlang)
              · have hle := congrArg List.length hfront
                rw [List.length_cons, List.length_append] at hle
                omega

end Scan

section Preferred

/-- What is preferred after what is preferred. -/
theorem head?_flatMap {positions : List Position} {continue' : Position → List Position}
    {first next : Position} (hfirst : positions.head? = some first)
    (hnext : (continue' first).head? = some next) :
    (positions.flatMap continue').head? = some next := by
  obtain ⟨others, rfl⟩ := List.head?_eq_some_iff.mp hfirst
  rw [List.flatMap_cons, List.head?_append, hnext]
  rfl

theorem head?_append_of_some {positions others : List Position} {first : Position}
    (hfirst : positions.head? = some first) : (positions ++ others).head? = some first := by
  rw [List.head?_append, hfirst]
  rfl

variable {accepts : Char → Bool} {last : Option Char}

theorem results_set_cons {c : Char} (hc : accepts c = true) (rest : List Char) :
    (Regex.set accepts).results (last, c :: rest) = [(some c, rest)] := by
  rw [Regex.results]
  exact if_pos hc

theorem results_set_stop {text : List Char} (hstop : ∀ c, text.head? = some c → accepts c = false) :
    (Regex.set accepts).results (last, text) = [] := by
  cases text with
  | nil => rfl
  | cons c rest =>
      rw [Regex.results]
      exact if_neg (Bool.eq_false_iff.mp (hstop c rfl))

theorem results_seq_set (next : Regex) (c : Char) (text : List Char) :
    (Regex.seq (.set accepts) next).results (last, c :: text) =
      if accepts c then next.results (some c, text) else [] := by
  rw [Regex.results, Regex.results]
  cases accepts c with
  | true => exact List.flatMap_singleton _ _
  | false => rfl

theorem results_boundary {position : Position} (hboundary : atBoundary position = true) :
    Regex.boundary.results position = [position] :=
  if_pos hboundary

theorem results_boundary_seq {position : Position} (hboundary : atBoundary position = true)
    (next : Regex) : (Regex.seq .boundary next).results position = next.results position := by
  rw [Regex.results, results_boundary hboundary, List.flatMap_singleton]

theorem atBoundary_of_results {next : Regex} {position after : Position}
    (hresults : ((Regex.seq .boundary next).results position).head? = some after) :
    atBoundary position = true := by
  by_contra hboundary
  rw [Regex.results, Regex.results, if_neg hboundary] at hresults
  cases hresults

theorem head?_repeated_succ {body : Position → List Position} {least most : Nat}
    {position middle after : Position} (hbody : (body position).head? = some middle)
    (hmore : (repeated body (least - 1) most middle).head? = some after) :
    (repeated body least (most + 1) position).head? = some after := by
  rw [repeated]
  exact head?_append_of_some (head?_flatMap hbody hmore)

/-- All the characters that a set accepts are read first, and what is left otherwise begins
with one of them. -/
theorem repeated_set {chars rest : List Char} (hchars : ∀ c ∈ chars, accepts c = true)
    (hstop : ∀ c, rest.head? = some c → accepts c = false) {most : Nat}
    (hmost : chars.length ≤ most) : ∃ others,
      repeated (Regex.set accepts).results 0 most (last, chars ++ rest) =
        (lastOf last chars, rest) :: others ∧
      (chars = [] → others = []) ∧
      ∀ other ∈ others, ∃ c, other.2.head? = some c ∧ accepts c = true := by
  induction chars generalizing last most with
  | nil =>
      refine ⟨[], ?_, fun _ => rfl, fun other hother => absurd hother List.not_mem_nil⟩
      cases most with
      | zero => rfl
      | succ most =>
          rw [List.nil_append, repeated, results_set_stop hstop]
          rfl
  | cons c chars ih =>
      obtain ⟨hc, hchars⟩ := List.forall_mem_cons.mp hchars
      cases most with
      | zero => cases hmost
      | succ most =>
          obtain ⟨others, hresults, -, hothers⟩ :=
            @ih (some c) hchars most (Nat.le_of_succ_le_succ hmost)
          refine ⟨others ++ [(last, c :: (chars ++ rest))], ?_,
            fun hnil => absurd hnil (List.cons_ne_nil c chars), ?_⟩
          · rw [List.cons_append, repeated, results_set_cons hc, List.flatMap_singleton,
              hresults, lastOf_cons]
            rfl
          · intro other hother
            rcases List.mem_append.mp hother with hother | hother
            · exact hothers other hother
            · obtain rfl := List.mem_singleton.mp hother
              exact ⟨c, rfl, hc⟩

/-- What is preferred at a position is found there. -/
theorem mem_scan_of_results {regex : Regex} {found back : List Char} {after : Option Char}
    (hne : found ≠ []) (hresults : (regex.results (last, found ++ back)).head? =
      some (after, back)) : found ∈ scan regex 0 last (found ++ back) := by
  obtain ⟨c, found, rfl⟩ := List.exists_cons_of_ne_nil hne
  rw [List.cons_append] at hresults ⊢
  rw [scan, hresults]
  dsimp only
  have htaken : (c :: (found ++ back)).length - back.length = (c :: found).length := by
    rw [← List.cons_append, List.length_append, Nat.add_sub_cancel]
  rw [htaken, ← List.cons_append, List.take_left]
  exact List.mem_cons_self

end Preferred

end OrderedMatch

end MailPanel
