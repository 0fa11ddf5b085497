import MailPanel.Fail2banList
import MailPanel.IsoInstant

/-
Which addresses are found whole in the output of fail2ban.
-/

namespace MailPanel

namespace Fail2ban

open OrderedMatch NumberText Dms

section Octet

variable {rest : List Char}

theorem results_octet (last : Option Char) (c : Char) (text : List Char) :
    octet.results (last, c :: text) =
      (if c = '2' then (Regex.seq (one '5') (between '0' '5')).results (some c, text) else []) ++
        ((if c = '2' then (Regex.seq (between '0' '4') digit).results (some c, text) else []) ++
          ((if c = '1' then (Regex.seq digit digit).results (some c, text) else []) ++
            ((if '1' ≤ c ∧ c ≤ '9' then digit.results (some c, text) else []) ++
              digit.results (last, c :: text)))) := by
  have hone : ∀ (d : Char) (next : Regex), (Regex.seq (one d) next).results (last, c :: text) =
      if c = d then next.results (some c, text) else [] := by
    intro d next
    rw [one, results_seq_set]
    simp only [decide_eq_true_eq]
  have hlast : (Regex.seq (.rep (between '1' '9') 0 1) digit).results (last, c :: text) =
      (if '1' ≤ c ∧ c ≤ '9' then digit.results (some c, text) else []) ++
        digit.results (last, c :: text) := by
    by_cases hc : '1' ≤ c ∧ c ≤ '9'
    · simp [Regex.results, repeated, between, hc]
    · have hc' : (decide ('1' ≤ c) && decide (c ≤ '9')) = false := by simpa using hc
      simp only [Regex.results, repeated, between, if_neg hc, hc']
      simp
  rw [← hlast, ← hone, ← hone, ← hone]
  rfl

theorem results_digit_stop (hstop : ∀ c, rest.head? = some c → isDigit c = false)
    {accepts : Char → Bool} (haccepts : ∀ c, accepts c = true → isDigit c = true)
    (last : Option Char) : (Regex.set accepts).results (last, rest) = [] :=
  results_set_stop fun c hc => Bool.eq_false_iff.mpr fun hc' =>
    absurd (haccepts c hc') (Bool.eq_false_iff.mp (hstop c hc))

theorem results_between_stop (hstop : ∀ c, rest.head? = some c → isDigit c = false)
    {low high : Char} (hlow : '0' ≤ low) (hhigh : high ≤ '9')
    (last : Option Char) : (between low high).results (last, rest) = [] := by
  refine results_digit_stop hstop (fun c hc => ?_) last
  rw [Bool.and_eq_true, decide_eq_true_eq, decide_eq_true_eq] at hc
  rw [isDigit, Bool.and_eq_true, decide_eq_true_eq, decide_eq_true_eq]
  exact ⟨Char.le_trans hlow hc.1, Char.le_trans hc.2 hhigh⟩

/-- An octet is read whole, when no digit follows: the first way in which the expression matches
is the one that takes all of it. -/
theorem head?_octet (hstop : ∀ c, rest.head? = some c → isDigit c = false) {text : List Char}
    (hoctet : isOctet text = true) (last : Option Char) :
    (octet.results (last, text ++ rest)).head? = some (lastOf last text, rest) := by
  have hdigit : ∀ last, digit.results (last, rest) = [] :=
    results_digit_stop hstop fun c hc => hc
  have hfive : ∀ last, (one '5').results (last, rest) = [] :=
    results_digit_stop hstop fun c hc => by rw [of_decide_eq_true hc]; rfl
  have hlow : ∀ last, (between '0' '4').results (last, rest) = [] :=
    results_between_stop hstop (by decide) (by decide)
  have hhigh : ∀ last, (between '0' '5').results (last, rest) = [] :=
    results_between_stop hstop (by decide) (by decide)
  have hnone : ∀ {first second : Regex} {last : Option Char}, first.results (last, rest) = [] →
      (Regex.seq first second).results (last, rest) = [] := by
    intro first second last hfirst
    rw [Regex.results, hfirst]
    rfl
  have hshort : ∀ {accepts : Char → Bool} {second : Regex} {last : Option Char} {c : Char},
      second.results (some c, rest) = [] →
        (Regex.seq (.set accepts) second).results (last, c :: rest) = [] := by
    intro accepts second last c hsecond
    rw [results_seq_set, hsecond, ite_self]
  have hnext : ∀ {c : Char} (last : Option Char) (tail : List Char), isDigit c = true →
      digit.results (last, c :: tail) = [(some c, tail)] :=
    fun _ tail hc => results_set_cons hc tail
  unfold isOctet at hoctet
  split at hoctet
  · rename_i c
    rw [List.cons_append, List.nil_append, results_octet, hnone (hfive _), hnone (hlow _),
      hnone (hdigit _), hdigit, hnext _ _ hoctet, ite_self, ite_self, ite_self]
    rfl
  · rename_i c d
    simp only [Bool.and_eq_true, decide_eq_true_eq] at hoctet
    obtain ⟨⟨hc, hzero⟩, hd⟩ := hoctet
    have hrange : '1' ≤ c ∧ c ≤ '9' := by
      rw [isDigit, Bool.and_eq_true, decide_eq_true_eq, decide_eq_true_eq] at hc
      refine ⟨?_, hc.2⟩
      by_contra hlt
      have hle : c.toNat ≤ '0'.toNat := by
        rw [Char.le_def, UInt32.le_iff_toNat_le] at hlt
        exact Nat.le_of_lt_succ (Nat.lt_of_not_le hlt)
      exact hzero (Char.le_antisymm (by rw [Char.le_def, UInt32.le_iff_toNat_le]; exact hle) hc.1)
    have hfirst : (Regex.seq (one '5') (between '0' '5')).results (some c, d :: rest) = [] :=
      hshort (hhigh _)
    have hsecond : (Regex.seq (between '0' '4') digit).results (some c, d :: rest) = [] :=
      hshort (hdigit _)
    have hthird : (Regex.seq digit digit).results (some c, d :: rest) = [] := hshort (hdigit _)
    rw [List.cons_append, List.singleton_append, results_octet, hfirst, hsecond, hthird,
      ite_self, ite_self, if_pos hrange, hnext _ _ hd]
    rfl
  · rename_i c d
    obtain ⟨hc, hd⟩ := Bool.and_eq_true_iff.mp hoctet
    have hread : (Regex.seq digit digit).results (some '1', c :: d :: rest) = [(some d, rest)] := by
      rw [digit, results_seq_set, if_pos hc, results_set_cons hd]
    rw [List.cons_append, List.cons_append, List.singleton_append, results_octet,
      if_neg (by decide), if_neg (by decide), if_pos rfl, hread]
    rfl
  · rename_i c d
    simp only [Bool.or_eq_true, Bool.and_eq_true, decide_eq_true_eq] at hoctet
    rw [List.cons_append, List.cons_append, List.singleton_append, results_octet, if_pos rfl,
      if_pos rfl, one, between, between, results_seq_set, results_seq_set]
    rcases hoctet with ⟨⟨hlow', hhigh'⟩, hd⟩ | ⟨⟨rfl, hlow'⟩, hhigh'⟩
    · have hfive' : c ≠ '5' := by
        rintro rfl
        exact absurd hhigh' (by decide)
      rw [if_neg (by simpa using hfive'), if_pos (by simp [hlow', hhigh']), hnext _ _ hd]
      rfl
    · rw [if_pos (by decide), results_set_cons (by simp [hlow', hhigh'])]
      rfl
  · cases hoctet

end Octet

theorem isWord_of_hexDigit {c : Char} (hhex : isHexDigit c = true) : isWord c = true := by
  rw [isWord, Bool.or_eq_true]
  refine Or.inl ?_
  simp only [isHexDigit, isDigit, Bool.or_eq_true, Bool.and_eq_true, decide_eq_true_eq,
    Char.le_def, UInt32.le_iff_toNat_le] at hhex
  change (decide (c.val ≥ 'A'.val ∧ c.val ≤ 'Z'.val) || (c.val ≥ 'a'.val && c.val ≤ 'z'.val) ||
    (c.val ≥ '0'.val && c.val ≤ '9'.val)) = true
  simp only [Bool.or_eq_true, Bool.and_eq_true, decide_eq_true_eq, ge_iff_le,
    UInt32.le_iff_toNat_le]
  have hbounds : ('0'.val.toNat = 48 ∧ '9'.val.toNat = 57) ∧ ('a'.val.toNat = 97 ∧
      'f'.val.toNat = 102 ∧ 'z'.val.toNat = 122) ∧ 'A'.val.toNat = 65 ∧ 'F'.val.toNat = 70 ∧
      'Z'.val.toNat = 90 := by decide
  omega

theorem isSeparator_spec {c : Char} (hc : isSeparator c = true) :
    isWord c = false ∧ c ≠ ':' ∧ ipv4TokenPattern.uses c = false ∧
      ipv6TokenPattern.uses c = false := by
  rw [isSeparator, decide_eq_true_eq] at hc
  simp only [List.mem_cons, List.not_mem_nil, or_false] at hc
  rcases hc with rfl | rfl | rfl | rfl <;> decide

/-- What follows the first group of an IPv6 address. -/
def laterGroups (least most : Nat) : Regex := .seq (.rep group least most) .boundary

section Groups

variable {least most : Nat} {last : Option Char} {text rest : List Char}

theorem laterGroups_zero (position : Position) : (laterGroups least 0).results position =
    if least = 0 then Regex.boundary.results position else [] := by
  rw [laterGroups, Regex.results, Regex.results, repeated]
  split
  · exact List.flatMap_singleton _ _
  · rfl

theorem laterGroups_succ (position : Position) : (laterGroups least (most + 1)).results position =
    (group.results position).flatMap (laterGroups (least - 1) most).results ++
      if least = 0 then Regex.boundary.results position else [] := by
  rw [laterGroups, Regex.results, Regex.results, repeated, List.flatMap_append,
    List.flatMap_assoc]
  refine congrArg₂ (· ++ ·) rfl ?_
  split
  · exact List.flatMap_singleton _ _
  · rfl

theorem results_group_stop (hstop : ∀ c, text.head? = some c → c ≠ ':') :
    group.results (last, text) = [] := by
  rw [group, Regex.results, one,
    results_set_stop fun c hc => decide_eq_false_iff_not.mpr (hstop c hc)]
  rfl

theorem laterGroups_stop (hstop : ∀ c, text.head? = some c → c ≠ ':') :
    (laterGroups least most).results (last, text) =
      if least = 0 then Regex.boundary.results (last, text) else [] := by
  cases most with
  | zero => exact laterGroups_zero _
  | succ most => rw [laterGroups_succ, results_group_stop hstop, List.flatMap_nil, List.nil_append]

/-- A whole group is preferred; what is left of it otherwise begins with a digit. -/
theorem results_group (hgroup : IsGroup text)
    (hstop : ∀ c, rest.head? = some c → isHexDigit c = false) : ∃ others,
      group.results (last, ':' :: (text ++ rest)) = (lastOf (some ':') text, rest) :: others ∧
      (text = [] → others = []) ∧
      ∀ other ∈ others, ∃ c, other.2.head? = some c ∧ isHexDigit c = true := by
  obtain ⟨others, hresults, hnil, hothers⟩ :=
    @repeated_set isHexDigit (some ':') text rest hgroup.1 hstop 4 hgroup.2
  refine ⟨others, ?_, hnil, hothers⟩
  rw [group, one, results_seq_set, if_pos (decide_eq_true rfl), hexDigit, Regex.results]
  exact hresults

/-- What may come behind an address. -/
def Ends (rest : List Char) : Prop := ∀ c, rest.head? = some c → isWord c = false ∧ c ≠ ':'

theorem colonText_cons (text : List Char) (groups : List (List Char)) :
    colonText (text :: groups) = ':' :: (text ++ colonText groups) :=
  rfl

theorem isWord_colonText (hends : Ends rest) (groups : List (List Char)) :
    ∀ c, (colonText groups ++ rest).head? = some c → isWord c = false := by
  intro c hc
  cases groups with
  | nil => exact (hends c hc).1
  | cons text groups =>
      obtain rfl := Option.some.inj hc
      decide

theorem isHexDigit_colonText (hends : Ends rest) (groups : List (List Char)) :
    ∀ c, (colonText groups ++ rest).head? = some c → isHexDigit c = false := by
  intro c hc
  by_contra hhex
  have hword := isWord_of_hexDigit (Bool.eq_true_of_not_eq_false hhex)
  exact Bool.false_ne_true ((isWord_colonText hends groups c hc).symm.trans hword)

theorem atBoundary_of_stop (hstop : ∀ c, text.head? = some c → isWord c = false) :
    atBoundary (last, text) = last.any isWord := by
  have hnext : text.head?.any isWord = false := by
    cases hhead : text.head? with
    | none => rfl
    | some c => exact hstop c hhead
  rw [atBoundary, hnext, Bool.bne_false]

theorem any_lastOf (hgroup : IsGroup text) (hne : text ≠ []) :
    (lastOf last text).any isWord = true := by
  rw [lastOf, List.getLast?_eq_some_getLast hne]
  exact isWord_of_hexDigit (hgroup.1 _ (List.getLast_mem hne))

/-- Where no group is needed any more, a word can end. -/
theorem laterGroups_ne_nil (hstop : ∀ c, text.head? = some c → isWord c = false)
    (hlast : last.any isWord = true) : (laterGroups 0 most).results (last, text) ≠ [] := by
  have hboundary := results_boundary ((atBoundary_of_stop hstop).trans hlast)
  cases most with
  | zero =>
      rw [laterGroups_zero, if_pos rfl, hboundary]
      exact List.cons_ne_nil _ _
  | succ most =>
      rw [laterGroups_succ, if_pos rfl, hboundary]
      exact List.append_ne_nil_of_right_ne_nil _ (List.cons_ne_nil _ _)

/-- What is preferred ends with a digit: no group is left before its end. -/
theorem head?_laterGroups_word {groups : List (List Char)}
    (hgroups : ∀ text ∈ groups, IsGroup text) (hends : Ends rest) {after : Position}
    (hhead : ((laterGroups least most).results (last, colonText groups ++ rest)).head? =
      some after) : after.1.any isWord = true := by
  have hboundary : ∀ {least : Nat} {last : Option Char} {groups : List (List Char)},
      (if least = 0 then Regex.boundary.results (last, colonText groups ++ rest) else []).head? =
        some after → after.1.any isWord = true := by
    intro least last groups hhead
    rw [Regex.results, atBoundary_of_stop (isWord_colonText hends groups)] at hhead
    split at hhead
    · split at hhead
      · obtain rfl := Option.some.inj hhead
        assumption
      · cases hhead
    · cases hhead
  induction most generalizing least last groups with
  | zero =>
      rw [laterGroups_zero] at hhead
      exact hboundary hhead
  | succ most ih =>
      cases groups with
      | nil =>
          have hstop : ∀ c, (colonText [] ++ rest).head? = some c → c ≠ ':' :=
            fun c hc => (hends c hc).2
          rw [laterGroups_stop hstop] at hhead
          exact hboundary hhead
      | cons text groups =>
          obtain ⟨htext, hgroups⟩ := List.forall_mem_cons.mp hgroups
          have hcons : colonText (text :: groups) ++ rest =
              ':' :: (text ++ (colonText groups ++ rest)) := by
            rw [colonText_cons, List.cons_append, List.append_assoc]
          obtain ⟨others, hresults, hnil, hothers⟩ :=
            @results_group last text _ htext (isHexDigit_colonText hends groups)
          have hstop : ∀ other ∈ others, ∀ c, other.2.head? = some c → c ≠ ':' := by
            rintro other hother c hc rfl
            obtain ⟨d, hd, hhex⟩ := hothers other hother
            obtain rfl := Option.some.inj (hc.symm.trans hd)
            exact absurd hhex (by decide)
          rw [laterGroups_succ, hcons, hresults, List.flatMap_cons, ← hcons, List.append_assoc,
            List.head?_append] at hhead
          cases hwhole : ((laterGroups (least - 1) most).results
              (lastOf (some ':') text, colonText groups ++ rest)).head? with
          | some next =>
              rw [hwhole] at hhead
              obtain rfl := Option.some.inj hhead
              exact ih hgroups hwhole
          | none =>
              rw [hwhole, Option.none_or] at hhead
              have hempty := List.head?_eq_none_iff.mp hwhole
              by_cases hleast : least - 1 = 0
              · have htextNil : text = [] := by
                  by_contra hne
                  rw [hleast] at hempty
                  exact laterGroups_ne_nil (isWord_colonText hends groups) (any_lastOf htext hne)
                    hempty
                rw [hnil htextNil, List.flatMap_nil, List.nil_append] at hhead
                exact hboundary hhead
              · have hothersNil : others.flatMap (laterGroups (least - 1) most).results = [] := by
                  rw [List.flatMap_eq_nil_iff]
                  intro other hother
                  rw [laterGroups_stop (hstop other hother), if_neg hleast]
                have hne : least ≠ 0 := fun hzero => hleast (by rw [hzero])
                rw [hothersNil, List.nil_append, if_neg hne] at hhead
                cases hhead

/-- As many groups as may stand there are read whole, when a digit ends them. -/
theorem head?_laterGroups {groups : List (List Char)} (hgroups : ∀ text ∈ groups, IsGroup text)
    (hends : Ends rest) (hleast : least ≤ groups.length) (hmost : groups.length ≤ most)
    (hlast : (lastOf last (colonText groups)).any isWord = true) :
    ((laterGroups least most).results (last, colonText groups ++ rest)).head? =
      some (lastOf last (colonText groups), rest) := by
  induction groups generalizing least most last with
  | nil =>
      have hstop : ∀ c, rest.head? = some c → c ≠ ':' := fun c hc => (hends c hc).2
      have hboundary := results_boundary
        ((atBoundary_of_stop fun c hc => (hends c hc).1).trans hlast)
      rw [colonText, List.flatMap_nil, List.nil_append, laterGroups_stop hstop,
        if_pos (Nat.le_zero.mp hleast)]
      exact congrArg List.head? hboundary
  | cons text groups ih =>
      obtain ⟨htext, hgroups⟩ := List.forall_mem_cons.mp hgroups
      cases most with
      | zero => cases hmost
      | succ most =>
          obtain ⟨others, hresults, -⟩ :=
            @results_group last text _ htext (isHexDigit_colonText hends groups)
          have hlastOf : lastOf last (colonText (text :: groups)) =
              lastOf (lastOf (some ':') text) (colonText groups) := by
            rw [colonText_cons, lastOf_cons, lastOf_append]
          rw [hlastOf] at hlast ⊢
          have hmore := ih hgroups (Nat.sub_le_of_le_add hleast) (Nat.le_of_succ_le_succ hmost) hlast
          rw [laterGroups_succ, colonText_cons, List.cons_append, List.append_assoc, hresults]
          exact head?_append_of_some (head?_flatMap rfl hmore)

end Groups

section Whole

variable {last : Option Char} {rest : List Char}

theorem atBoundary_of_start {c : Char} {text : List Char} (hlast : last.any isWord = false)
    (hc : isWord c = true) : atBoundary (last, c :: text) = true := by
  rw [atBoundary, hlast, List.head?_cons, Option.any_some, hc]
  rfl

/-- Where a match may begin, the first group is read whole, and matching goes on with the groups
behind it. -/
theorem head?_ipv6 {first : List Char} {groups : List (List Char)} (hfirst : IsGroup first)
    (hne : first ≠ []) (hends : Ends rest) (hlast : last.any isWord = false) :
    (ipv6TokenPattern.results (last, first ++ (colonText groups ++ rest))).head? =
      ((laterGroups 3 7).results (lastOf last first, colonText groups ++ rest)).head? := by
  have hstop := isHexDigit_colonText hends groups
  obtain ⟨c, first, rfl⟩ := List.exists_cons_of_ne_nil hne
  obtain ⟨hc, hdigits⟩ := List.forall_mem_cons.mp hfirst.1
  obtain ⟨others, hresults, -, hothers⟩ :=
    @repeated_set isHexDigit (some c) first _ hdigits hstop 3 (Nat.le_of_succ_le_succ hfirst.2)
  have hnone : others.flatMap (laterGroups 3 7).results = [] := by
    rw [List.flatMap_eq_nil_iff]
    intro other hother
    obtain ⟨d, hd, hhex⟩ := hothers other hother
    have hcolon : ∀ e, other.2.head? = some e → e ≠ ':' := by
      rintro e he rfl
      obtain rfl := Option.some.inj (he.symm.trans hd)
      exact absurd hhex (by decide)
    exact laterGroups_stop hcolon
  have hread : (Regex.rep hexDigit 1 4).results (last, c :: (first ++ (colonText groups ++ rest))) =
      (lastOf (some c) first, colonText groups ++ rest) :: others := by
    rw [Regex.results, repeated, if_neg Nat.one_ne_zero, List.append_nil, hexDigit,
      results_set_cons hc, List.flatMap_singleton]
    exact hresults
  have hpattern : ipv6TokenPattern =
    .seq .boundary (.seq (.rep hexDigit 1 4) (laterGroups 3 7)) := rfl
  rw [hpattern, List.cons_append,
    results_boundary_seq (atBoundary_of_start hlast (isWord_of_hexDigit hc)), Regex.results, hread, List.flatMap_cons, hnone, List.append_nil, lastOf_cons]

theorem isWord_of_octet {octet : List Char} (hoctet : isOctet octet = true) :
    (∀ c ∈ octet, isWord c = true) ∧ octet ≠ [] := by
  constructor
  · intro c hc
    refine isWord_of_hexDigit ?_
    rw [isHexDigit, isOctet_digits hoctet c hc]
    rfl
  · rintro rfl
    cases hoctet

theorem head?_dotted {octet : List Char} (hoctet : isOctet octet = true) (last : Option Char)
    (tail : List Char) :
    ((Regex.seq Fail2ban.octet (one '.')).results (last, octet ++ '.' :: tail)).head? =
      some (some '.', tail) := by
  have hstop : ∀ c, ('.' :: tail).head? = some c → isDigit c = false := by
    intro c hc
    obtain rfl := Option.some.inj hc
    decide
  rw [Regex.results]
  exact head?_flatMap (head?_octet hstop hoctet last)
    (congrArg List.head? (results_set_cons (decide_eq_true rfl) tail))

/-- An IPv4 address is read whole, between characters that no word has. -/
theorem head?_ipv4 {text : List Char} (hpattern : ipv4Pattern text = true)
    (hends : ∀ c, rest.head? = some c → isWord c = false) (hlast : last.any isWord = false) :
    ∃ after, (ipv4TokenPattern.results (last, text ++ rest)).head? = some (after, rest) := by
  have hjoin : ['.'].intercalate (text.splitOn '.') = text := List.intercalate_splitOn '.'
  rw [ipv4Pattern, Bool.and_eq_true, decide_eq_true_eq, List.all_eq_true] at hpattern
  obtain ⟨first, second, third, fourth, hoctets⟩ := List.length_eq_four.mp hpattern.1
  rw [hoctets] at hpattern hjoin
  obtain ⟨hfirst, hall⟩ := List.forall_mem_cons.mp hpattern.2
  obtain ⟨hsecond, hall⟩ := List.forall_mem_cons.mp hall
  obtain ⟨hthird, hall⟩ := List.forall_mem_cons.mp hall
  obtain ⟨hfourth, -⟩ := List.forall_mem_cons.mp hall
  have htext : text ++ rest = first ++ '.' :: (second ++ '.' :: (third ++ '.' ::
      (fourth ++ rest))) := by
    rw [← hjoin]
    simp [List.intercalate_cons_cons]
  have hstart : atBoundary (last, text ++ rest) = true := by
    obtain ⟨c, octet, rfl⟩ := List.exists_cons_of_ne_nil (isWord_of_octet hfirst).2
    rw [htext, List.cons_append]
    exact atBoundary_of_start hlast ((isWord_of_octet hfirst).1 c List.mem_cons_self)
  have hend : atBoundary (lastOf (some '.') fourth, rest) = true := by
    obtain ⟨hword, hne⟩ := isWord_of_octet hfourth
    rw [atBoundary_of_stop hends, lastOf, List.getLast?_eq_some_getLast hne]
    exact hword _ (List.getLast_mem hne)
  have hthree : ((Regex.rep (.seq octet (one '.')) 3 3).results (last, first ++ '.' ::
      (second ++ '.' :: (third ++ '.' :: (fourth ++ rest))))).head? =
        some (some '.', fourth ++ rest) :=
    head?_repeated_succ (head?_dotted hfirst _ _) (head?_repeated_succ
      (head?_dotted hsecond _ _) (head?_repeated_succ (head?_dotted hthird _ _) rfl))
  have hdigit : ∀ c, rest.head? = some c → isDigit c = false := by
    intro c hc
    by_contra hdigit
    have hhex : isHexDigit c = true := by
      rw [isHexDigit, Bool.eq_true_of_not_eq_false hdigit]
      rfl
    exact Bool.false_ne_true ((hends c hc).symm.trans (isWord_of_hexDigit hhex))
  refine ⟨lastOf (some '.') fourth, ?_⟩
  rw [ipv4TokenPattern, results_boundary_seq hstart, htext, Regex.results]
  refine head?_flatMap hthree ?_
  rw [Regex.results]
  exact head?_flatMap (head?_octet hdigit hfourth _)
    (congrArg List.head? (results_boundary hend))

end Whole

theorem mem_words {output : String} {word : List Char} :
    word ∈ words output ↔ word ∈ output.toList.splitOnP isSeparator ∧ word ≠ [] := by
  rw [words, List.mem_filter, Bool.not_eq_true', List.isEmpty_eq_false_iff]

section Found

variable {output : String}

/-- What is read whole between separators is found. -/
theorem mem_matchAll_of_word {regex : Regex} (hne : ∀ text, regex.Lang text → text ≠ [])
    (huses : ∀ c, isSeparator c = true → regex.uses c = false) {word : List Char}
    (hword : word ∈ words output)
    (hread : ∀ last rest, last.any isWord = false →
      (∀ c, rest.head? = some c → isSeparator c = true) →
        ∃ after, (regex.results (last, word ++ rest)).head? = some (after, rest)) :
    word ∈ matchAll regex output.toList := by
  obtain ⟨hword, hnonempty⟩ := mem_words.mp hword
  obtain ⟨front, back, htext, hfront, hback⟩ := exists_of_mem_splitOnP _ hword
  rw [matchAll, htext]
  rcases hfront with rfl | ⟨init, c, rfl, hc⟩
  · obtain ⟨after, hafter⟩ := hread none back rfl hback
    exact mem_scan_of_results hnonempty hafter
  · obtain ⟨after, hafter⟩ := hread (some c) back (isSeparator_spec hc).1 hback
    rw [List.append_assoc, List.singleton_append]
    exact mem_scan_append_cons hne (huses c hc) (Nat.zero_le _)
      (mem_scan_of_results hnonempty hafter)

theorem ne_nil_of_ipv4 {text : List Char} (hlang : ipv4TokenPattern.Lang text) : text ≠ [] :=
  (chars_of_pattern (Or.inl (ipv4_of_lang hlang))).1

theorem ne_nil_of_ipv6 {text : List Char} (hlang : ipv6TokenPattern.Lang text) : text ≠ [] := by
  obtain ⟨first, groups, rfl, -, hne, -⟩ := groups_of_lang hlang
  exact List.append_ne_nil_of_left_ne_nil hne _

theorem lastOf_hexDigit {text : List Char} (last : Option Char)
    (hlast : text.getLast?.any isHexDigit = true) : (lastOf last text).any isWord = true := by
  cases hget : text.getLast? with
  | none =>
      rw [hget] at hlast
      cases hlast
  | some c =>
      rw [hget] at hlast
      rw [lastOf, hget]
      exact isWord_of_hexDigit hlast

/-- An address that can be recognised is found whole, if it stands as a word of the output. -/
theorem mem_bannedIps_of_recognised {address : String} (hword : address.toList ∈ words output)
    (hvalid : validateIpAddress address = none) (hrecognised : Recognised address) :
    address ∈ (parseFail2banList output).bannedIps := by
  rw [mem_bannedIps]
  by_cases hipv4 : ipv4Pattern address.toList = true
  · refine Or.inl (mem_matchAll_of_word (fun _ => ne_nil_of_ipv4)
      (fun c hc => (isSeparator_spec hc).2.2.1) hword fun last rest hlast hrest => ?_)
    exact head?_ipv4 hipv4 (fun c hc => (isSeparator_spec (hrest c hc)).1) hlast
  · have hipv6 := (validateIpAddress_iff.mp hvalid).resolve_left hipv4
    obtain ⟨hcount, hhead, hlastDigit⟩ := hrecognised.resolve_left hipv4
    obtain ⟨first, groups, htext, hfirst, hgroups, -, hmost⟩ := ipv6Pattern_iff.mp hipv6
    rw [htext, count_groups hfirst hgroups] at hcount
    have hne : first ≠ [] := by
      rintro rfl
      rw [htext, List.nil_append] at hhead
      cases groups with
      | nil => cases hhead
      | cons text groups =>
          rw [colonText_cons, List.head?_cons, Option.any_some] at hhead
          exact absurd hhead (by decide)
    refine Or.inr (mem_matchAll_of_word (fun _ => ne_nil_of_ipv6)
      (fun c hc => (isSeparator_spec hc).2.2.2) hword fun last rest hlast hrest => ?_)
    have hends : Ends rest := fun c hc =>
      ⟨(isSeparator_spec (hrest c hc)).1, (isSeparator_spec (hrest c hc)).2.1⟩
    have hword : (lastOf (lastOf last first) (colonText groups)).any isWord = true := by
      rw [← lastOf_append, ← htext]
      exact lastOf_hexDigit last hlastDigit
    refine ⟨lastOf (lastOf last first) (colonText groups), ?_⟩
    rw [htext, List.append_assoc, head?_ipv6 hfirst hne hends hlast]
    exact head?_laterGroups hgroups hends hcount hmost hword

/-- The groups of what follows a colon, with the part of a group that stood before it. -/
theorem groups_of_append {init text first : List Char} {groups : List (List Char)}
    (htext : init ++ ':' :: text = first ++ colonText groups) (hfirst : IsGroup first)
    (hgroups : ∀ text ∈ groups, IsGroup text) : ∃ first groups,
      text = first ++ colonText groups ∧ IsGroup first ∧ ∀ text ∈ groups, IsGroup text := by
  have hsplit : init.splitOn ':' ++ text.splitOn ':' = first :: groups := by
    rw [← splitOn_groups hfirst hgroups, ← htext, List.splitOn_append_cons_self]
  have hall : ∀ part ∈ text.splitOn ':', IsGroup part := by
    intro part hpart
    have hmem : part ∈ first :: groups := hsplit ▸ List.mem_append_right _ hpart
    rcases List.mem_cons.mp hmem with rfl | hmem
    · exact hfirst
    · exact hgroups part hmem
  cases hparts : text.splitOn ':' with
  | nil => exact absurd hparts (List.splitOn_ne_nil ':' text)
  | cons part parts =>
      rw [hparts] at hall
      obtain ⟨hpart, hparts'⟩ := List.forall_mem_cons.mp hall
      refine ⟨part, parts, ?_, hpart, hparts'⟩
      rw [← intercalate_groups, ← hparts, List.intercalate_splitOn]

theorem chars_of_groups {first : List Char} {groups : List (List Char)} (hfirst : IsGroup first)
    (hgroups : ∀ text ∈ groups, IsGroup text) {c : Char} (hc : c ∈ first ++ colonText groups) :
    c = ':' ∨ isHexDigit c = true := by
  rcases List.mem_append.mp hc with hc | hc
  · exact Or.inr (hfirst.1 c hc)
  · obtain ⟨text, htext, hc⟩ := List.mem_flatMap.mp hc
    rcases List.mem_cons.mp hc with rfl | hc
    · exact Or.inl rfl
    · exact Or.inr ((hgroups text htext).1 c hc)

theorem colon_notMem_ipv4 {text : List Char} (hpattern : ipv4Pattern text = true) :
    ':' ∉ text := by
  intro hcolon
  rw [ipv4Pattern, Bool.and_eq_true, List.all_eq_true] at hpattern
  rcases mem_splitOn '.' hcolon with hdot | ⟨part, hpart, hmem⟩
  · exact absurd hdot (by decide)
  · exact absurd (isOctet_digits (hpattern.2 part hpart) ':' hmem) (by decide)

/-- Within an address, a match that begins with a digit ends with one, so the expression never
stops in the middle of a group. -/
theorem isWord_of_match {before found behind rest : List Char} {last : Option Char}
    (hword : ipv6Pattern (before ++ (found ++ behind)) = true)
    (hlast : (lastOf last before).any isWord = false)
    (hhead : found.head?.any isHexDigit = true) (hends : Ends rest) {after : Position}
    (hresults : (ipv6TokenPattern.results
      (lastOf last before, found ++ (behind ++ rest))).head? = some after) :
    after.1.any isWord = true := by
  obtain ⟨first, groups, htext, hfirst, hgroups, -⟩ := ipv6Pattern_iff.mp hword
  have hinside : ∃ first groups, found ++ behind = first ++ colonText groups ∧
      IsGroup first ∧ ∀ text ∈ groups, IsGroup text := by
    rcases List.eq_nil_or_concat before with rfl | ⟨init, c, rfl⟩
    · exact ⟨first, groups, htext, hfirst, hgroups⟩
    · rw [List.concat_eq_append, lastOf_append, lastOf_singleton] at hlast
      rw [List.concat_eq_append, List.append_assoc, List.singleton_append] at htext
      have hc : c ∈ first ++ colonText groups :=
        htext ▸ List.mem_append_right _ List.mem_cons_self
      rcases chars_of_groups hfirst hgroups hc with rfl | hhex
      · exact groups_of_append htext hfirst hgroups
      · exact absurd (isWord_of_hexDigit hhex) (Bool.eq_false_iff.mp hlast)
  obtain ⟨first, groups, htext, hfirst, hgroups⟩ := hinside
  have hne : first ≠ [] := by
    rintro rfl
    cases found with
    | nil => cases hhead
    | cons c found =>
        cases groups with
        | nil => cases htext
        | cons text groups =>
            rw [List.nil_append, colonText_cons, List.cons_append] at htext
            obtain ⟨rfl, -⟩ := List.cons.inj htext
            rw [List.head?_cons, Option.any_some] at hhead
            exact absurd hhead (by decide)
  rw [← List.append_assoc, htext, List.append_assoc, head?_ipv6 hfirst hne hends hlast] at hresults
  exact head?_laterGroups_word hgroups hends hresults

/-- What is found among addresses is an address that can be recognised: nothing is made up out
of parts of others. -/
theorem recognised_of_mem {address : String}
    (hwords : ∀ word ∈ words output, ipv4Pattern word = true ∨ ipv6Pattern word = true)
    (hmem : address ∈ (parseFail2banList output).bannedIps) : Recognised address := by
  rcases mem_bannedIps.mp hmem with hfound | hfound
  · obtain ⟨-, -, -, -, -, hlang⟩ := mem_matchAll hfound
    exact Or.inl (ipv4_of_lang hlang)
  · obtain ⟨front, back, after, htext, hresults, hlang⟩ := mem_matchAll hfound
    obtain ⟨first, groups, haddress, hfirst, hne, hgroups, hleast, -⟩ := groups_of_lang hlang
    have hchars : ∀ c ∈ address.toList, c = ':' ∨ isHexDigit c = true := by
      intro c hc
      rw [haddress] at hc
      exact chars_of_groups hfirst hgroups hc
    have hcount : 3 ≤ address.toList.count ':' := by
      rw [haddress, count_groups hfirst hgroups]
      exact hleast
    have hhead : address.toList.head?.any isHexDigit = true := by
      obtain ⟨c, first, rfl⟩ := List.exists_cons_of_ne_nil hne
      rw [haddress]
      exact hfirst.1 c List.mem_cons_self
    refine Or.inr ⟨hcount, hhead, ?_⟩
    have hplain : ∀ c ∈ address.toList, isSeparator c = false := by
      intro c hc
      by_contra hseparator
      have hspec := isSeparator_spec (Bool.eq_true_of_not_eq_false hseparator)
      rcases hchars c hc with hcolon | hhex
      · exact hspec.2.1 hcolon
      · exact Bool.false_ne_true (hspec.1.symm.trans (isWord_of_hexDigit hhex))
    obtain ⟨start, before, behind, rest, rfl, rfl, hword, hrest⟩ :=
      exists_splitOnP_of_infix hplain front back
    rw [← htext] at hword
    have hcolon : ':' ∈ before ++ (address.toList ++ behind) :=
      List.mem_append_right _ (List.mem_append_left _ (List.count_pos_iff.mp (by omega)))
    have hipv6 := (hwords _ (mem_words.mpr ⟨hword, List.ne_nil_of_mem hcolon⟩)).resolve_left
      fun hipv4 => colon_notMem_ipv4 hipv4 hcolon
    have hends : Ends rest := fun c hc =>
      ⟨(isSeparator_spec (hrest c hc)).1, (isSeparator_spec (hrest c hc)).2.1⟩
    rw [lastOf_append] at hresults
    have hlast : (lastOf (lastOf none start) before).any isWord = false := by
      have hboundary := atBoundary_of_results hresults
      obtain ⟨c, text, hcons⟩ := List.exists_cons_of_ne_nil (ne_nil_of_ipv6 hlang)
      rw [hcons] at hhead hboundary
      have hc : isWord c = true := isWord_of_hexDigit hhead
      rw [atBoundary, List.cons_append, List.head?_cons, Option.any_some, hc] at hboundary
      exact Bool.eq_false_iff.mpr (bne_iff_ne.mp hboundary)
    have hafter := isWord_of_match hipv6 hlast hhead hends hresults
    obtain ⟨taken, ⟨hread, hlastRead⟩, -⟩ := mem_results (List.mem_of_mem_head? hresults)
    obtain rfl := List.append_cancel_right hread
    dsimp only at hlastRead hafter
    rw [hlastRead, lastOf, List.getLast?_eq_some_getLast (ne_nil_of_ipv6 hlang)] at hafter
    rw [List.getLast?_eq_some_getLast (ne_nil_of_ipv6 hlang)]
    rcases hchars _ (List.getLast_mem (ne_nil_of_ipv6 hlang)) with hcolon | hhex
    · rw [hcolon, Option.some_or, Option.any_some] at hafter
      exact absurd hafter (by decide)
    · exact hhex

end Found

/-- When the output lists addresses, all of them are found, and only what can be unbanned is,
exactly if each is an IPv4 address or has three colons and a digit at both ends. The patterns
look for word boundaries, at which an address that ends in colons does not end, and for at least
three groups before the last. -/
theorem bannedIps_complete_iff {output : String} {addresses : List String}
    (hwords : words output = addresses.map String.toList)
    (hvalid : ∀ address ∈ addresses, validateIpAddress address = none) :
    ((∀ address ∈ addresses, address ∈ (parseFail2banList output).bannedIps) ∧
        ∀ ip ∈ (parseFail2banList output).bannedIps, validateIpAddress ip = none) ↔
      ∀ address ∈ addresses, Recognised address := by
  constructor
  · rintro ⟨hall, -⟩ address haddress
    refine recognised_of_mem (fun word hword => ?_) (hall address haddress)
    rw [hwords] at hword
    obtain ⟨other, hother, rfl⟩ := List.mem_map.mp hword
    exact validateIpAddress_iff.mp (hvalid other hother)
  · intro hrecognised
    refine ⟨fun address haddress => ?_, fun ip hip => validateIpAddress_of_mem hip⟩
    have hword : address.toList ∈ words output := by
      rw [hwords]
      exact List.mem_map_of_mem haddress
    exact mem_bannedIps_of_recognised hword (hvalid address haddress)
      (hrecognised address haddress)

/-- An address of each kind, both in the usual form. -/
theorem bannedIps_complete_two :
    ((∀ address ∈ ["192.0.2.1", "2001:db8:0::1"],
        address ∈ (parseFail2banList "192.0.2.1,\n2001:db8:0::1").bannedIps) ∧
      ∀ ip ∈ (parseFail2banList "192.0.2.1,\n2001:db8:0::1").bannedIps,
        validateIpAddress ip = none) ↔
      ∀ address ∈ ["192.0.2.1", "2001:db8:0::1"], Recognised address :=
  bannedIps_complete_iff (by decide) (by decide)

/-- A link-local address as a server prints it: it is valid, the sibling check accepts it for a
ban, and it is not listed. -/
theorem linkLocal_missed :
    words "192.0.2.1, fe80::1" = ["192.0.2.1", "fe80::1"].map String.toList ∧
      (∀ address ∈ ["192.0.2.1", "fe80::1"], validateIpAddress address = none) ∧
      "fe80::1" ∉ (parseFail2banList "192.0.2.1, fe80::1").bannedIps := by
  decide

end Fail2ban

end MailPanel
