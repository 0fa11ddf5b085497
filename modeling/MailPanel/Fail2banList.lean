import MailPanel.DmsValidators
import MailPanel.OrderedMatch
import Mathlib.Data.List.DropRight
import Mathlib.Data.List.Sort

/-
The banned addresses in the output of fail2ban: whatever has the look of an address in it.
-/

namespace MailPanel

namespace Fail2ban

open OrderedMatch NumberText Dms

def digit : Regex := .set isDigit

def hexDigit : Regex := .set isHexDigit

def between (low high : Char) : Regex := .set fun c => low ≤ c && c ≤ high

def one (char : Char) : Regex := .set fun c => c = char

/-- `25[0-5]|2[0-4]\d|1\d\d|[1-9]?\d`. -/
def octet : Regex :=
  .alt (.seq (one '2') (.seq (one '5') (between '0' '5')))
    (.alt (.seq (one '2') (.seq (between '0' '4') digit))
      (.alt (.seq (one '1') (.seq digit digit))
        (.seq (.rep (between '1' '9') 0 1) digit)))

def ipv4TokenPattern : Regex :=
  .seq .boundary (.seq (.rep (.seq octet (one '.')) 3 3) (.seq octet .boundary))

/-- `:[0-9a-fA-F]{0,4}`. -/
def group : Regex := .seq (one ':') (.rep hexDigit 0 4)

def ipv6TokenPattern : Regex :=
  .seq .boundary (.seq (.rep hexDigit 1 4) (.seq (.rep group 3 7) .boundary))

structure Fail2banListResult where
  bannedIps : List String
  raw : String
deriving DecidableEq, Repr

/-- Both kinds of token, each once, sorted. -/
def parseFail2banList (output : String) : Fail2banListResult :=
  let found := (matchAll ipv4TokenPattern output.toList ++
    matchAll ipv6TokenPattern output.toList).map String.ofList
  ⟨found.eraseDups.insertionSort (· ≤ ·), output⟩

example : (parseFail2banList "192.0.2.1, 2001:db8:0:0::1\n1:2:3:4:5::, ::1").bannedIps =
    ["192.0.2.1", "1:2:3:4:5", "2001:db8:0:0::1"] := by
  decide

def isSeparator (c : Char) : Bool := c ∈ [' ', ',', '\n', '\r']

/-- What stands between spaces, commas and line breaks. -/
def words (output : String) : List (List Char) :=
  (output.toList.splitOnP isSeparator).filter fun word => !word.isEmpty

/-- An IPv4 address, or three colons and a digit at both ends. -/
def Recognised (address : String) : Prop :=
  ipv4Pattern address.toList = true ∨
    3 ≤ address.toList.count ':' ∧ address.toList.head?.any isHexDigit = true ∧
      address.toList.getLast?.any isHexDigit = true

instance (address : String) : Decidable (Recognised address) :=
  inferInstanceAs (Decidable (_ ∨ _))

theorem mem_bannedIps {output : String} {address : String} :
    address ∈ (parseFail2banList output).bannedIps ↔
      address.toList ∈ matchAll ipv4TokenPattern output.toList ∨
        address.toList ∈ matchAll ipv6TokenPattern output.toList := by
  have hmap : ∀ found : List (List Char),
      address ∈ found.map String.ofList ↔ address.toList ∈ found := by
    intro found
    rw [List.mem_map]
    constructor
    · rintro ⟨text, htext, rfl⟩
      rwa [String.toList_ofList]
    · exact fun hmem => ⟨address.toList, hmem, String.ofList_toList⟩
  rw [parseFail2banList, List.mem_insertionSort, List.mem_eraseDups, hmap, List.mem_append]

/- What a token is -/

theorem isOctet_of_lang {text : List Char} (hlang : octet.Lang text) : isOctet text = true := by
  rcases hlang with ⟨_, _, rfl, ⟨c, rfl, hc⟩, _, _, rfl, ⟨d, rfl, hd⟩, e, rfl, he⟩ |
    ⟨_, _, rfl, ⟨c, rfl, hc⟩, _, _, rfl, ⟨d, rfl, hd⟩, e, rfl, he⟩ |
    ⟨_, _, rfl, ⟨c, rfl, hc⟩, _, _, rfl, ⟨d, rfl, hd⟩, e, rfl, he⟩ |
    ⟨_, _, rfl, ⟨pieces, hpieces, rfl, -, hmost⟩, d, rfl, hd⟩
  · obtain rfl := of_decide_eq_true hc
    obtain rfl := of_decide_eq_true hd
    simpa [isOctet] using he
  · obtain rfl := of_decide_eq_true hc
    simp only [Bool.and_eq_true, decide_eq_true_eq] at hd
    simp [isOctet, hd, he]
  · obtain rfl := of_decide_eq_true hc
    simp [isOctet, hd, he]
  · match pieces, hmost with
    | [], _ => simpa [isOctet] using hd
    | [piece], _ =>
        obtain ⟨c, rfl, hc⟩ := hpieces piece List.mem_cons_self
        simp only [Bool.and_eq_true, decide_eq_true_eq] at hc
        have hdigit : isDigit c = true := by
          rw [isDigit, Bool.and_eq_true, decide_eq_true_eq, decide_eq_true_eq]
          exact ⟨Char.le_trans (by decide) hc.1, hc.2⟩
        have hzero : c ≠ '0' := by
          rintro rfl
          exact absurd hc.1 (by decide)
        simp [isOctet, hdigit, hzero, hd]

theorem notMem_of_lang {regex : Regex} {text : List Char} {c : Char} (hlang : regex.Lang text)
    (hc : regex.uses c = false) : c ∉ text :=
  fun hmem => Bool.false_ne_true (hc.symm.trans (uses_of_lang hlang c hmem))

theorem ipv4_of_lang {text : List Char} (hlang : ipv4TokenPattern.Lang text) :
    ipv4Pattern text = true := by
  obtain ⟨_, _, rfl, rfl, _, _, rfl, ⟨pieces, hpieces, rfl, hleast, hmost⟩, last, _, rfl, hlast,
    rfl⟩ := hlang
  have hoctet : ∀ piece ∈ pieces, ∃ front, piece = front ++ ['.'] ∧ octet.Lang front := by
    intro piece hpiece
    obtain ⟨front, _, rfl, hfront, c, rfl, hc⟩ := hpieces piece hpiece
    obtain rfl := of_decide_eq_true hc
    exact ⟨front, rfl, hfront⟩
  have hdot : ∀ {text : List Char}, octet.Lang text → '.' ∉ text :=
    fun hlang => notMem_of_lang hlang (by decide)
  match pieces, hleast, hmost with
  | [_, _, _], _, _ =>
      obtain ⟨first, rfl, hfirst⟩ := hoctet _ List.mem_cons_self
      obtain ⟨second, rfl, hsecond⟩ := hoctet _ (List.mem_cons_of_mem _ List.mem_cons_self)
      obtain ⟨third, rfl, hthird⟩ := hoctet _
        (List.mem_cons_of_mem _ (List.mem_cons_of_mem _ List.mem_cons_self))
      have hsplit : ([] ++ ([first ++ ['.'], second ++ ['.'], third ++ ['.']].flatten ++
          (last ++ []))).splitOn '.' = [first, second, third, last] := by
        simp only [List.flatten_cons, List.flatten_nil, List.append_nil, List.append_assoc,
          List.nil_append, List.cons_append]
        rw [List.splitOn_append_cons_self_of_not_mem (hdot hfirst),
          List.splitOn_append_cons_self_of_not_mem (hdot hsecond),
          List.splitOn_append_cons_self_of_not_mem (hdot hthird),
          List.splitOn_eq_singleton (hdot hlast)]
      rw [ipv4Pattern, hsplit]
      simp [isOctet_of_lang hfirst, isOctet_of_lang hsecond, isOctet_of_lang hthird,
        isOctet_of_lang hlast]

theorem hexDigits_of_lang {least most : Nat} {text : List Char}
    (hlang : (Regex.rep hexDigit least most).Lang text) :
    (∀ c ∈ text, isHexDigit c = true) ∧ least ≤ text.length ∧ text.length ≤ most := by
  obtain ⟨pieces, hpieces, rfl, hleast, hmost⟩ := hlang
  have hlength : pieces.flatten.length = pieces.length := by
    rw [List.length_flatten]
    have hones : pieces.map List.length = List.replicate pieces.length 1 := by
      rw [List.eq_replicate_iff]
      refine ⟨List.length_map _, ?_⟩
      intro n hn
      obtain ⟨piece, hpiece, rfl⟩ := List.mem_map.mp hn
      obtain ⟨c, rfl, -⟩ := hpieces piece hpiece
      rfl
    rw [hones, List.sum_replicate_nat, Nat.mul_one]
  refine ⟨?_, ?_, ?_⟩
  · intro c hc
    obtain ⟨piece, hpiece, hc⟩ := List.mem_flatten.mp hc
    obtain ⟨d, rfl, hd⟩ := hpieces piece hpiece
    rwa [List.mem_singleton.mp hc]
  · rwa [hlength]
  · rwa [hlength]

/-- A colon before each of the groups. -/
def colonText (groups : List (List Char)) : List Char := groups.flatMap (':' :: ·)

/-- At most four digits. -/
def IsGroup (text : List Char) : Prop := (∀ c ∈ text, isHexDigit c = true) ∧ text.length ≤ 4

theorem colon_notMem_group {text : List Char} (hgroup : IsGroup text) : ':' ∉ text :=
  fun hmem => absurd (hgroup.1 ':' hmem) (by decide)

theorem splitOn_groups {first : List Char} {groups : List (List Char)} (hfirst : IsGroup first)
    (hgroups : ∀ text ∈ groups, IsGroup text) :
    (first ++ colonText groups).splitOn ':' = first :: groups := by
  induction groups generalizing first with
  | nil =>
      rw [colonText, List.flatMap_nil, List.append_nil,
        List.splitOn_eq_singleton (colon_notMem_group hfirst)]
  | cons text groups ih =>
      obtain ⟨htext, hgroups⟩ := List.forall_mem_cons.mp hgroups
      rw [colonText, List.flatMap_cons, List.cons_append,
        List.splitOn_append_cons_self_of_not_mem (colon_notMem_group hfirst)]
      exact congrArg (first :: ·) (ih htext hgroups)

theorem count_groups {first : List Char} {groups : List (List Char)} (hfirst : IsGroup first)
    (hgroups : ∀ text ∈ groups, IsGroup text) :
    (first ++ colonText groups).count ':' = groups.length := by
  induction groups generalizing first with
  | nil =>
      rw [colonText, List.flatMap_nil, List.append_nil]
      exact List.count_eq_zero.mpr (colon_notMem_group hfirst)
  | cons text groups ih =>
      obtain ⟨htext, hgroups⟩ := List.forall_mem_cons.mp hgroups
      rw [colonText, List.flatMap_cons, List.cons_append, List.count_append,
        List.count_cons_self, List.count_eq_zero.mpr (colon_notMem_group hfirst), Nat.zero_add]
      exact congrArg (· + 1) (ih htext hgroups)

theorem intercalate_groups (first : List Char) (groups : List (List Char)) :
    [':'].intercalate (first :: groups) = first ++ colonText groups := by
  induction groups generalizing first with
  | nil => rw [List.intercalate_singleton, colonText, List.flatMap_nil, List.append_nil]
  | cons text groups ih =>
      rw [List.intercalate_cons_cons, ih, List.append_assoc]
      rfl

theorem ipv6Pattern_iff {text : List Char} :
    ipv6Pattern text = true ↔ ∃ first groups, text = first ++ colonText groups ∧ IsGroup first ∧
      (∀ text ∈ groups, IsGroup text) ∧ 2 ≤ groups.length ∧ groups.length ≤ 7 := by
  have hgroup : ∀ text : List Char,
      (decide (text.length ≤ 4) && text.all isHexDigit) = true ↔ IsGroup text := by
    intro text
    rw [Bool.and_eq_true, decide_eq_true_eq, List.all_eq_true, IsGroup, and_comm]
  have hpattern : ipv6Pattern text = true ↔ 3 ≤ (text.splitOn ':').length ∧
      (text.splitOn ':').length ≤ 8 ∧ ∀ part ∈ text.splitOn ':', IsGroup part := by
    rw [ipv6Pattern, Bool.and_eq_true, Bool.and_eq_true, decide_eq_true_eq, decide_eq_true_eq,
      List.all_eq_true, and_assoc]
    exact and_congr_right fun _ => and_congr_right fun _ =>
      forall_congr' fun part => imp_congr_right fun _ => hgroup part
  rw [hpattern]
  constructor
  · rintro ⟨hleast, hmost, hall⟩
    cases hsplit : text.splitOn ':' with
    | nil => exact absurd hsplit (List.splitOn_ne_nil ':' text)
    | cons first groups =>
        rw [hsplit] at hleast hmost hall
        obtain ⟨hfirst, hgroups⟩ := List.forall_mem_cons.mp hall
        refine ⟨first, groups, ?_, hfirst, hgroups, Nat.le_of_succ_le_succ hleast,
          Nat.le_of_succ_le_succ hmost⟩
        rw [← intercalate_groups, ← hsplit, List.intercalate_splitOn]
  · rintro ⟨first, groups, rfl, hfirst, hgroups, hleast, hmost⟩
    rw [splitOn_groups hfirst hgroups]
    exact ⟨Nat.succ_le_succ hleast, Nat.succ_le_succ hmost,
      List.forall_mem_cons.mpr ⟨hfirst, hgroups⟩⟩

theorem groups_of_pieces {pieces : List (List Char)}
    (hpieces : ∀ piece ∈ pieces, group.Lang piece) :
    ∃ groups, pieces.flatten = colonText groups ∧ (∀ text ∈ groups, IsGroup text) ∧
      groups.length = pieces.length := by
  induction pieces with
  | nil => exact ⟨[], rfl, fun text htext => absurd htext List.not_mem_nil, rfl⟩
  | cons piece pieces ih =>
      obtain ⟨hpiece, hpieces⟩ := List.forall_mem_cons.mp hpieces
      obtain ⟨groups, hflatten, hgroups, hlength⟩ := ih hpieces
      obtain ⟨_, text, rfl, ⟨c, rfl, hc⟩, htext⟩ := hpiece
      obtain rfl := of_decide_eq_true hc
      obtain ⟨hdigits, -, hmost⟩ := hexDigits_of_lang htext
      refine ⟨text :: groups, ?_, List.forall_mem_cons.mpr ⟨⟨hdigits, hmost⟩, hgroups⟩,
        congrArg (· + 1) hlength⟩
      rw [List.flatten_cons, hflatten]
      rfl

/-- What the second pattern finds. -/
theorem groups_of_lang {text : List Char} (hlang : ipv6TokenPattern.Lang text) :
    ∃ first groups, text = first ++ colonText groups ∧ IsGroup first ∧ first ≠ [] ∧
      (∀ text ∈ groups, IsGroup text) ∧ 3 ≤ groups.length ∧ groups.length ≤ 7 := by
  obtain ⟨_, _, rfl, rfl, first, _, rfl, hfirst, _, _, rfl, ⟨pieces, hpieces, rfl, hleast, hmost⟩,
    rfl⟩ := hlang
  obtain ⟨hdigits, hpos, hlength⟩ := hexDigits_of_lang hfirst
  obtain ⟨groups, hflatten, hgroups, hsame⟩ := groups_of_pieces hpieces
  refine ⟨first, groups, ?_, ⟨hdigits, hlength⟩, List.ne_nil_of_length_pos hpos, hgroups, ?_, ?_⟩
  · rw [hflatten, List.nil_append, List.append_nil]
  · rwa [hsame]
  · rwa [hsame]

theorem mem_matchAll {regex : Regex} {text found : List Char}
    (hfound : found ∈ matchAll regex text) : ∃ front back after, text = front ++ (found ++ back) ∧
      (regex.results (lastOf none front, found ++ back)).head? = some (after, back) ∧
        regex.Lang found := by
  obtain ⟨front, back, after, htext, hresults⟩ := mem_scan hfound
  obtain ⟨taken, hread, hlang, -⟩ := take_of_results hresults
  obtain rfl := List.append_cancel_right hread
  exact ⟨front, back, after, htext, hresults, hlang⟩

/-- The characters of an address: dots, colons and hexadecimal digits, and at least one of
them. -/
theorem chars_of_pattern {text : List Char}
    (hpattern : ipv4Pattern text = true ∨ ipv6Pattern text = true) :
    text ≠ [] ∧ ∀ c ∈ text, c = '.' ∨ c = ':' ∨ isHexDigit c = true := by
  refine ⟨?_, fun c hc => ?_⟩
  · rintro rfl
    rcases hpattern with hpattern | hpattern
    · cases hpattern
    · cases hpattern
  · rcases hpattern with hpattern | hpattern
    · simp only [ipv4Pattern, Bool.and_eq_true, List.all_eq_true] at hpattern
      rcases mem_splitOn '.' hc with hdot | ⟨part, hpart, hmem⟩
      · exact Or.inl hdot
      · have hdigit := isOctet_digits (hpattern.2 part hpart) c hmem
        exact Or.inr (Or.inr (by rw [isHexDigit, hdigit]; rfl))
    · simp only [ipv6Pattern, Bool.and_eq_true, List.all_eq_true] at hpattern
      rcases mem_splitOn ':' hc with hcolon | ⟨part, hpart, hmem⟩
      · exact Or.inr (Or.inl hcolon)
      · exact Or.inr (Or.inr ((hpattern.2 part hpart).2 c hmem))

theorem validateIpAddress_iff {value : String} : validateIpAddress value = none ↔
    ipv4Pattern value.toList = true ∨ ipv6Pattern value.toList = true := by
  have hchars : ipv4Pattern value.toList = true ∨ ipv6Pattern value.toList = true →
      ¬value = "" ∧ startsWithDash value = false := by
    intro hpattern
    obtain ⟨hne, hall⟩ := chars_of_pattern hpattern
    refine ⟨fun hempty => hne (String.toList_eq_nil_iff.mpr hempty), ?_⟩
    rw [startsWithDash, decide_eq_false_iff_not]
    intro hdash
    exact absurd (hall '-' (List.mem_of_mem_head? hdash)) (by decide)
  simp only [validateIpAddress, check_eq_none, Bool.not_eq_true]
  constructor
  · rintro ⟨-, -, hpattern⟩
    by_contra hnone
    rw [← Bool.or_eq_true] at hnone
    rw [if_neg hnone] at hpattern
    cases hpattern
  · intro hpattern
    obtain ⟨hne, hdash⟩ := hchars hpattern
    rw [← Bool.or_eq_true] at hpattern
    exact ⟨hne, hdash, if_pos hpattern⟩

/-- Whatever is listed can be unbanned. -/
theorem validateIpAddress_of_mem {output : String} {address : String}
    (hmem : address ∈ (parseFail2banList output).bannedIps) :
    validateIpAddress address = none := by
  rw [validateIpAddress_iff]
  rcases mem_bannedIps.mp hmem with hfound | hfound
  · obtain ⟨-, -, -, -, -, hlang⟩ := mem_matchAll hfound
    exact Or.inl (ipv4_of_lang hlang)
  · obtain ⟨-, -, -, -, -, hlang⟩ := mem_matchAll hfound
    obtain ⟨first, groups, htext, hfirst, -, hgroups, hleast, hmost⟩ := groups_of_lang hlang
    exact Or.inr (ipv6Pattern_iff.mpr
      ⟨first, groups, htext, hfirst, hgroups, by omega, hmost⟩)

/- Words -/

section Words

variable {p : Char → Bool} {text : List Char}

/-- A piece stands between separators, or at an end of the text, with nothing missing on either
side. -/
theorem exists_of_mem_splitOnP {word : List Char} (text : List Char)
    (hword : word ∈ text.splitOnP p) : ∃ front back, text = front ++ (word ++ back) ∧
      (front = [] ∨ ∃ init c, front = init ++ [c] ∧ p c = true) ∧
      ∀ c, back.head? = some c → p c = true := by
  by_cases hany : ∃ c ∈ text, p c = true
  · have hwhole := List.takeWhile_append_dropWhile (p := fun c => !p c) (l := text)
    have hplain : ∀ c ∈ text.takeWhile (fun c => !p c), p c = false := by
      intro c hc
      simpa using List.mem_takeWhile_imp hc
    generalize text.takeWhile (fun c => !p c) = before at hwhole hplain
    cases hrest : text.dropWhile (fun c => !p c) with
    | nil =>
        obtain ⟨c, hc, hseparator⟩ := hany
        rw [hrest, List.append_nil] at hwhole
        rw [← hwhole] at hc
        exact absurd ((hplain c hc).symm.trans hseparator) Bool.false_ne_true
    | cons c rest =>
        have hseparator : p c = true := by
          have hhead := List.head?_dropWhile_not (fun c => !p c) text
          rw [hrest] at hhead
          simpa using hhead
        rw [hrest] at hwhole
        have hshorter : rest.length < text.length := by
          rw [← hwhole, List.length_append, List.length_cons]
          omega
        rw [← hwhole, List.splitOnP_append_cons_of_forall_mem hplain c hseparator] at hword
        rcases List.mem_cons.mp hword with rfl | hword
        · exact ⟨[], c :: rest, hwhole.symm, Or.inl rfl,
            fun d hd => by obtain rfl := Option.some.inj hd; exact hseparator⟩
        · obtain ⟨front, back, hrest, hfront, hback⟩ := exists_of_mem_splitOnP rest hword
          refine ⟨before ++ c :: front, back, ?_, Or.inr ?_, hback⟩
          · rw [← hwhole, hrest, List.append_assoc, List.cons_append]
          · rcases hfront with rfl | ⟨init, d, rfl, hd⟩
            · exact ⟨before, c, rfl, hseparator⟩
            · exact ⟨before ++ c :: init, d, by simp, hd⟩
  · have hplain : ∀ c ∈ text, p c = false := by
      intro c hc
      by_contra hseparator
      exact hany ⟨c, hc, Bool.eq_true_of_not_eq_false hseparator⟩
    rw [List.splitOnP_eq_singleton hplain, List.mem_singleton] at hword
    subst hword
    exact ⟨[], [], by rw [List.nil_append, List.append_nil], Or.inl rfl, fun c hc => by cases hc⟩
termination_by text.length

/-- A piece between separators is one of the pieces, whatever else the text holds. -/
theorem mem_splitOnP {word rest : List Char} (start : List Char)
    (hword : ∀ c ∈ word, p c = false) (hstart : ∀ c, start.getLast? = some c → p c = true)
    (hrest : ∀ c, rest.head? = some c → p c = true) :
    word ∈ (start ++ (word ++ rest)).splitOnP p := by
  have hfirst : word ∈ (word ++ rest).splitOnP p := by
    cases rest with
    | nil =>
        rw [List.append_nil, List.splitOnP_eq_singleton hword]
        exact List.mem_singleton_self word
    | cons c rest =>
        rw [List.splitOnP_append_cons_of_forall_mem hword c (hrest c rfl)]
        exact List.mem_cons_self
  rcases List.eq_nil_or_concat start with rfl | ⟨init, c, rfl⟩
  · exact hfirst
  · have hseparator : p c = true := hstart c (by simp)
    rw [List.concat_eq_append, List.append_assoc, List.singleton_append,
      List.splitOnP_append_cons _ _ hseparator]
    exact List.mem_append_right _ hfirst

/-- What has no separator lies in one piece, together with whatever touches it on either side. -/
theorem exists_splitOnP_of_infix {found : List Char} (hfound : ∀ c ∈ found, p c = false)
    (front back : List Char) :
    ∃ start before after rest, front = start ++ before ∧ back = after ++ rest ∧
      before ++ (found ++ after) ∈ (front ++ (found ++ back)).splitOnP p ∧
      ∀ c, rest.head? = some c → p c = true := by
  have hfront := List.rdropWhile_append_rtakeWhile (p := fun c => !p c) (l := front)
  have hback := List.takeWhile_append_dropWhile (p := fun c => !p c) (l := back)
  have hrest : ∀ c, (back.dropWhile fun c => !p c).head? = some c → p c = true := by
    intro c hc
    have hhead := List.head?_dropWhile_not (fun c => !p c) back
    rw [hc] at hhead
    simpa using hhead
  have hstart : ∀ c, (front.rdropWhile fun c => !p c).getLast? = some c → p c = true := by
    intro c hc
    have hne : front.rdropWhile (fun c => !p c) ≠ [] := by
      intro hnil
      rw [hnil] at hc
      cases hc
    have hlast := List.rdropWhile_last_not (fun c => !p c) front hne
    rw [List.getLast?_eq_some_getLast hne] at hc
    rw [Option.some.inj hc] at hlast
    simpa using hlast
  refine ⟨_, _, _, _, hfront.symm, hback.symm, ?_, hrest⟩
  have hword : ∀ c ∈ front.rtakeWhile (fun c => !p c) ++ (found ++ back.takeWhile fun c => !p c),
      p c = false := by
    intro c hc
    rcases List.mem_append.mp hc with hc | hc
    · simpa using List.mem_rtakeWhile_imp hc
    · rcases List.mem_append.mp hc with hc | hc
      · exact hfound c hc
      · simpa using List.mem_takeWhile_imp hc
  have hmem := mem_splitOnP _ hword hstart hrest
  rw [List.append_assoc, List.append_assoc, hback, ← List.append_assoc, hfront] at hmem
  exact hmem

end Words

end Fail2ban

end MailPanel
