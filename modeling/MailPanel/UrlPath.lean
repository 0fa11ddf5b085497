import MailPanel.ScriptText
import Mathlib.Data.Bool.AllAny
import Mathlib.Data.List.DropRight
import Mathlib.Data.List.TakeWhile

/-
The path of a special URL: which characters are cut off, how dot segments are resolved, and
which characters are percent-encoded.
-/

namespace MailPanel

namespace UrlPath

abbrev Text := List Char

/-- Without control characters and blanks at the end, and without tabs and line breaks. -/
def cleaned (text : Text) : Text :=
  (text.rdropWhile fun c => c.toNat ≤ 0x20).filter fun c => c ∉ ['\t', '\n', '\r']

/-- What stands before a query and a fragment. -/
def pathPart (text : Text) : Text := text.takeWhile fun c => c ≠ '?' && c ≠ '#'

def queryPart (text : Text) : Text :=
  ((text.takeWhile fun c => c ≠ '#').dropWhile fun c => c ≠ '?').drop 1

/-- The segments of a path; a backslash is a slash. -/
def segments (path : Text) : List Text :=
  (path.map fun c => if c = '\\' then '/' else c).splitOn '/'

def isSingleDot (segment : Text) : Bool :=
  segment.map Char.toLower ∈ [['.'], ['%', '2', 'e']]

def isDoubleDot (segment : Text) : Bool :=
  segment.map Char.toLower ∈ [['.', '.'], ['.', '%', '2', 'e'], ['%', '2', 'e', '.'],
    ['%', '2', 'e', '%', '2', 'e']]

/-- Resolves segments against those before them, which are in reverse. -/
def resolveFrom (before : List Text) : List Text → List Text
  | [] => before.reverse
  | [last] =>
      if isDoubleDot last then ([] :: before.tail).reverse
      else if isSingleDot last then ([] :: before).reverse
      else (last :: before).reverse
  | segment :: next :: rest =>
      if isDoubleDot segment then resolveFrom before.tail (next :: rest)
      else if isSingleDot segment then resolveFrom before (next :: rest)
      else resolveFrom (segment :: before) (next :: rest)

/-- The segments of the path of a URL, from what follows its host's slash. -/
def resolved (text : Text) : List Text := resolveFrom [] (segments (pathPart (cleaned text)))

/-- The path percent-encode set. -/
def isEncoded (c : Char) : Bool :=
  c.toNat ≤ 0x20 || 0x7e < c.toNat || c ∈ ['"', '#', '<', '>', '?', '^', '`', '{', '}']

/-- A path in which something is percent-encoded, by the parser or in the text. -/
def hasEscapes (path : List Text) : Bool := path.any fun segment =>
  segment.any fun c => c = '%' || isEncoded c

example : (resolved "b/backups/x.tar".toList, resolved "b/a/../x.tar?y#z".toList,
    resolved "b/a/%2E%2e/.\\c/..".toList) =
    (["b".toList, "backups".toList, "x.tar".toList], ["b".toList, "x.tar".toList],
      ["b".toList, []]) := by
  decide

section Plain

variable {text : Text}

/-- Characters that are neither cut off nor read as something else. -/
def isPlain (c : Char) : Bool := !isEncoded c && c ∉ ['%', '?', '#', '\\']

theorem isPlain_spec {c : Char} (hc : isPlain c = true) :
    32 < c.toNat ∧ c ∉ ['\t', '\n', '\r'] ∧ c ∉ ['%', '?', '#', '\\'] ∧
      (c = '%' || isEncoded c) = false := by
  rw [isPlain, Bool.and_eq_true, Bool.not_eq_true', decide_eq_true_eq] at hc
  obtain ⟨hencoded, hother⟩ := hc
  have hlow : 32 < c.toNat := by
    rw [isEncoded, Bool.or_eq_false_iff, Bool.or_eq_false_iff, decide_eq_false_iff_not] at hencoded
    omega
  refine ⟨hlow, ?_, hother, ?_⟩
  · intro hmem
    have hblank : ∀ d ∈ ['\t', '\n', '\r'], d.toNat ≤ 32 :=
      List.all_iff_forall_prop.mp (by decide)
    have hle := hblank c hmem
    omega
  · rw [Bool.or_eq_false_iff, decide_eq_false_iff_not]
    exact ⟨fun heq => hother (by simp [heq]), hencoded⟩

theorem cleaned_of_plain (hplain : ∀ c ∈ text, isPlain c = true) : cleaned text = text := by
  have hkept : text.rdropWhile (fun c => c.toNat ≤ 0x20) = text := by
    rw [List.rdropWhile_eq_self_iff]
    intro hne hblank
    have hlow := (isPlain_spec (hplain _ (List.getLast_mem hne))).1
    rw [decide_eq_true_eq] at hblank
    omega
  rw [cleaned, hkept, List.filter_eq_self]
  intro c hc
  exact decide_eq_true (isPlain_spec (hplain c hc)).2.1

theorem pathPart_of_plain (hplain : ∀ c ∈ text, isPlain c = true) : pathPart text = text := by
  rw [pathPart, List.takeWhile_eq_self_iff]
  intro c hc
  have hother := (isPlain_spec (hplain c hc)).2.2.1
  simp only [List.mem_cons, List.not_mem_nil, or_false, not_or] at hother
  simp [hother]

theorem queryPart_of_plain (hplain : ∀ c ∈ text, isPlain c = true) : queryPart text = [] := by
  have hquestion : ∀ c ∈ text.takeWhile (fun c => c ≠ '#'), c ≠ '?' := by
    intro c hc heq
    have hother := (isPlain_spec (hplain c (List.takeWhile_subset _ hc))).2.2.1
    exact hother (by simp [heq])
  have hnone : (text.takeWhile fun c => c ≠ '#').dropWhile (fun c => c ≠ '?') = [] := by
    rw [List.dropWhile_eq_nil_iff]
    intro c hc
    exact decide_eq_true (hquestion c hc)
  rw [queryPart, hnone]
  rfl

theorem segments_of_plain (hplain : ∀ c ∈ text, isPlain c = true) :
    segments text = text.splitOn '/' := by
  have hmap : text.map (fun c => if c = '\\' then '/' else c) = text := by
    conv_rhs => rw [← List.map_id text]
    apply List.map_congr_left
    intro c hc
    have hother := (isPlain_spec (hplain c hc)).2.2.1
    exact if_neg fun heq => hother (by simp [heq])
  rw [segments, hmap]

def noDots (segment : Text) : Bool := !isSingleDot segment && !isDoubleDot segment

/-- Without dot segments nothing is resolved. -/
theorem resolveFrom_of_noDots {before rest : List Text}
    (hdots : ∀ segment ∈ rest, noDots segment = true) :
    resolveFrom before rest = before.reverse ++ rest := by
  induction rest generalizing before with
  | nil => simp [resolveFrom]
  | cons segment rest ih =>
      have hsegment := hdots segment List.mem_cons_self
      rw [noDots, Bool.and_eq_true, Bool.not_eq_true', Bool.not_eq_true'] at hsegment
      obtain ⟨hsingle, hdouble⟩ := hsegment
      cases rest with
      | nil => simp [resolveFrom, hsingle, hdouble]
      | cons next rest =>
          have hrest : resolveFrom (segment :: before) (next :: rest) =
              (segment :: before).reverse ++ next :: rest :=
            ih fun later hlater => hdots later (List.mem_cons_of_mem segment hlater)
          simp [resolveFrom, hsingle, hdouble, hrest]

theorem resolved_of_plain (hplain : ∀ c ∈ text, isPlain c = true)
    (hdots : ∀ segment ∈ text.splitOn '/', noDots segment = true) :
    resolved text = text.splitOn '/' := by
  rw [resolved, cleaned_of_plain hplain, pathPart_of_plain hplain, segments_of_plain hplain,
    resolveFrom_of_noDots hdots]
  rfl

theorem alphanum_bounds {c : Char} (hc : c.isAlphanum = true) : 48 ≤ c.toNat ∧ c.toNat ≤ 122 := by
  have hc : (decide (65 ≤ c.val ∧ c.val ≤ 90) || (97 ≤ c.val && c.val ≤ 122) ||
      (48 ≤ c.val && c.val ≤ 57)) = true := hc
  simp only [Bool.or_eq_true, Bool.and_eq_true, decide_eq_true_eq, UInt32.le_iff_toNat_le,
    UInt32.reduceToNat] at hc
  have hval : c.val.toNat = c.toNat := rfl
  omega

/-- Letters, digits and the punctuation of file names. -/
theorem isPlain_of_safe {c : Char} (hc : c.isAlphanum = true ∨ c ∈ ['.', '_', '/', '-']) :
    isPlain c = true := by
  rcases hc with halphanum | hlisted
  · have hnot : ∀ d ∈ ['"', '#', '<', '>', '?', '^', '`', '{', '}', '%', '\\'],
        d.isAlphanum = false :=
      List.all_iff_forall_prop.mp (by decide)
    have hother : c ∉ ['"', '#', '<', '>', '?', '^', '`', '{', '}', '%', '\\'] := by
      intro hmem
      rw [hnot c hmem] at halphanum
      cases halphanum
    obtain ⟨hlow, hhigh⟩ := alphanum_bounds halphanum
    simp only [List.mem_cons, List.not_mem_nil, or_false, not_or] at hother
    have hblank : ¬c.toNat ≤ 32 := by omega
    have hdelete : ¬126 < c.toNat := by omega
    simp [isPlain, isEncoded, hblank, hdelete, hother]
  · have hall : ∀ d ∈ ['.', '_', '/', '-'], isPlain d = true := List.all_iff_forall_prop.mp (by decide)
    exact hall c hlisted

theorem eq_of_toLower {c d : Char} (hd : d ∈ ['.', '%']) (hc : c.toLower = d) : c = d := by
  by_cases hupper : 65 ≤ c.toNat ∧ c.toNat ≤ 90
  · have hnone : ∀ n < 26, (Char.ofNat (65 + n)).toLower ∉ ['.', '%'] := by decide
    have hsame : Char.ofNat (65 + (c.toNat - 65)) = c := by
      rw [Nat.add_sub_cancel' hupper.1, Char.ofNat_toNat]
    have hother := hnone (c.toNat - 65) (by omega)
    rw [hsame, hc] at hother
    exact absurd hd hother
  · have hkept : c.toLower = c := by
      refine dif_neg ?_
      rintro ⟨hlow, hhigh⟩
      exact hupper ⟨UInt32.le_iff_toNat_le.mp hlow, UInt32.le_iff_toNat_le.mp hhigh⟩
    rw [← hkept, hc]

/-- A segment of more than dots is no dot segment, as long as it has no percent sign, by which a
dot may be spelled. -/
theorem noDots_of_mem {segment : Text} {c : Char} (hc : c ∈ segment) (hdot : c ≠ '.')
    (hpercent : '%' ∉ segment) : noDots segment = true := by
  have hlower : c.toLower ∈ segment.map Char.toLower := List.mem_map_of_mem hc
  have hnoDot : c.toLower ≠ '.' := fun heq => hdot (eq_of_toLower (by decide) heq)
  have hnoPercent : '%' ∉ segment.map Char.toLower := by
    intro hmem
    obtain ⟨d, hd, heq⟩ := List.mem_map.mp hmem
    rw [eq_of_toLower (by decide) heq] at hd
    exact hpercent hd
  have hnot : ∀ dots ∈ [['.'], ['%', '2', 'e'], ['.', '.'], ['.', '%', '2', 'e'],
      ['%', '2', 'e', '.'], ['%', '2', 'e', '%', '2', 'e']], segment.map Char.toLower ≠ dots := by
    intro dots hdots heq
    rw [heq] at hlower hnoPercent
    have honly : ∀ dots ∈ [['.'], ['%', '2', 'e'], ['.', '.'], ['.', '%', '2', 'e'],
        ['%', '2', 'e', '.'], ['%', '2', 'e', '%', '2', 'e']], '%' ∉ dots →
        ∀ d ∈ dots, d = '.' := by
      simp only [← List.all_iff_forall_prop]
      decide
    exact hnoDot (honly dots hdots hnoPercent _ hlower)
  simp only [List.mem_cons, List.not_mem_nil, or_false, forall_eq_or_imp, forall_eq] at hnot
  simp [noDots, isSingleDot, isDoubleDot, hnot]

theorem mem_intercalate_of_mem {separator c : Char} {pieces : List Text} {piece : Text}
    (hpiece : piece ∈ pieces) (hc : c ∈ piece) : c ∈ [separator].intercalate pieces := by
  induction pieces with
  | nil => exact absurd hpiece List.not_mem_nil
  | cons first pieces ih =>
      cases pieces with
      | nil =>
          rw [List.intercalate_singleton, ← List.mem_singleton.mp hpiece]
          exact hc
      | cons next pieces =>
          rw [List.intercalate_cons_cons, List.mem_append, List.mem_append]
          rcases List.mem_cons.mp hpiece with rfl | hlater
          · exact Or.inl (Or.inl hc)
          · exact Or.inr (ih hlater)

theorem mem_of_mem_splitOn {separator c : Char} {segment : Text}
    (hsegment : segment ∈ text.splitOn separator) (hc : c ∈ segment) : c ∈ text := by
  have hjoin : [separator].intercalate (text.splitOn separator) = text :=
    List.intercalate_splitOn separator
  rw [← hjoin]
  exact mem_intercalate_of_mem hsegment hc

theorem hasEscapes_of_plain (hplain : ∀ c ∈ text, isPlain c = true) :
    hasEscapes (text.splitOn '/') = false := by
  rw [hasEscapes, List.any_eq_false]
  intro segment hsegment
  rw [Bool.not_eq_true, List.any_eq_false]
  intro c hc
  rw [(isPlain_spec (hplain c (mem_of_mem_splitOn hsegment hc))).2.2.2]
  exact Bool.false_ne_true

end Plain

end UrlPath

end MailPanel
