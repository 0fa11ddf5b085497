import MailPanel.ScriptText
import MailPanel.RowTable
import Mathlib.Data.List.TakeWhile
import Mathlib.Logic.Function.Basic

/-
The environment of the mail container, read from the output of `printenv`: which lines are
taken for a variable, and which of those are a variable's own.
-/

namespace MailPanel

namespace Dms

abbrev Text := List Char

/-- Variables with their values, in the order in which they are printed. -/
structure Environment where
  entries : List (Text × Text)
  nodup : (entries.map Prod.fst).Nodup
  names : ∀ entry ∈ entries, '=' ∉ entry.1

namespace Environment

def value? (env : Environment) (name : Text) : Option Text :=
  (RowTable.lookup Prod.fst name env.entries).map Prod.snd

end Environment

def printed (entry : Text × Text) : Text := entry.1 ++ '=' :: entry.2

def printenv (env : Environment) : Text := ['\n'].intercalate (env.entries.map printed)

def firstLine (text : Text) : Text := text.takeWhile (· ≠ '\n')

/-- `DMS_ENV_KEYS`. -/
def dmsEnvKeys : List Text :=
  ["ENABLE_QUOTAS", "ENABLE_RSPAMD", "ENABLE_CLAMAV", "ENABLE_FAIL2BAN", "ACCOUNT_PROVISIONER",
    "SSL_TYPE"].map String.toList

structure BrokerError where
  code : String
  message : String
deriving DecidableEq, Repr

structure ExecResult where
  exitCode : Nat
  stdout : Text
deriving DecidableEq, Repr

/-- An object with text under its keys. -/
abbrev Record := Text → Option Text

/-- The variable that a line is taken for: its name stands before the first equals sign, and
only the known names count. -/
def readVariable (line : Text) : Option (Text × Text) :=
  let key := line.takeWhile (· ≠ '=')
  match line.dropWhile (· ≠ '=') with
  | [] => none
  | _ :: value =>
      if key = [] then none
      else if key ∈ dmsEnvKeys then some (key, value) else none

def readLineInto (env : Record) (line : Text) : Record :=
  match readVariable line with
  | none => env
  | some (key, value) => Function.update env key (some value)

def handleDmsEnvRead (result : ExecResult) : Except BrokerError Record :=
  if result.exitCode ≠ 0 then
    .error ⟨"UPSTREAM_UNAVAILABLE", "Could not read the mail container's environment."⟩
  else .ok ((result.stdout.splitOn '\n').foldl readLineInto fun _ => none)

/-- Every pair of an answer is an allowlisted variable with the first line of its value. -/
def Truthful (env : Environment) (answer : Record) : Prop :=
  ∀ key value, answer key = some value → key ∈ dmsEnvKeys ∧
    ∃ whole, env.value? key = some whole ∧ value = firstLine whole

/-- Lines, the first marked as a variable's own and the others as strays. -/
def markFirst : List Text → List (Bool × Text)
  | [] => []
  | first :: rest => (false, first) :: rest.map fun line => (true, line)

def marked (env : Environment) : List (Bool × Text) :=
  env.entries.flatMap fun entry => markFirst ((printed entry).splitOn '\n')

/-- A stray line that reads as an allowlisted variable, and is the last line to do so, says
what the first line of that variable says. -/
def StraysAgree (env : Environment) : Prop :=
  ∀ before line after key value, marked env = before ++ (true, line) :: after →
    readVariable line = some (key, value) →
      (∀ other ∈ after, ∀ later, readVariable other.2 ≠ some (key, later)) →
        ∃ whole, env.value? key = some whole ∧ value = firstLine whole

section Reading

variable {lines : List Text} {line key value : Text}

theorem readVariable_spec (hread : readVariable line = some (key, value)) :
    line = key ++ '=' :: value ∧ '=' ∉ key ∧ key ∈ dmsEnvKeys := by
  have hsplit := List.takeWhile_append_dropWhile (p := (· ≠ '=')) (l := line)
  unfold readVariable at hread
  dsimp only at hread
  split at hread
  · cases hread
  · rename_i mark rest hdrop
    split at hread
    · cases hread
    · split at hread
      · rename_i hlisted
        rw [Option.some.injEq, Prod.mk.injEq] at hread
        obtain ⟨rfl, rfl⟩ := hread
        have hmark : mark = '=' := by
          have hhead := List.head?_dropWhile_not (· ≠ '=') line
          rw [hdrop] at hhead
          simpa using hhead
        subst hmark
        refine ⟨?_, ?_, hlisted⟩
        · rw [← hdrop, hsplit]
        · intro hmem
          have hne := List.mem_takeWhile_imp hmem
          simp at hne
      · cases hread

/-- The value that a line gives to a variable. -/
def readingOf (key line : Text) : Option Text :=
  (readVariable line).bind fun found => if found.1 = key then some found.2 else none

theorem readingOf_eq_some :
    readingOf key line = some value ↔ readVariable line = some (key, value) := by
  rw [readingOf, Option.bind_eq_some_iff]
  constructor
  · rintro ⟨⟨name, text⟩, hread, hvalue⟩
    split at hvalue
    · rename_i hname
      rw [hread, ← hname, ← Option.some.inj hvalue]
    · cases hvalue
  · intro hread
    exact ⟨(key, value), hread, if_pos rfl⟩

theorem readLineInto_apply (env : Record) :
    readLineInto env line key = (readingOf key line).or (env key) := by
  rw [readLineInto, readingOf]
  cases readVariable line with
  | none => rfl
  | some found =>
      obtain ⟨name, text⟩ := found
      by_cases hname : name = key
      · subst hname
        simp
      · simp [hname, Function.update_of_ne (Ne.symm hname)]

/-- The last line that reads as a variable gives its value. -/
theorem foldl_readLineInto (env : Record) : lines.foldl readLineInto env key =
    (lines.reverse.findSome? (readingOf key)).or (env key) := by
  induction lines generalizing env with
  | nil => rfl
  | cons line lines ih =>
      rw [List.foldl_cons, ih, readLineInto_apply, List.reverse_cons, List.findSome?_append,
        Option.or_assoc, List.findSome?_singleton]

theorem answer_eq_some : lines.foldl readLineInto (fun _ => none) key = some value ↔
    ∃ before line after, lines = before ++ line :: after ∧
      readVariable line = some (key, value) ∧
        ∀ other ∈ after, ∀ later, readVariable other ≠ some (key, later) := by
  rw [foldl_readLineInto, Option.or_none, List.findSome?_eq_some_iff]
  constructor
  · rintro ⟨after, line, before, hlines, hread, hafter⟩
    refine ⟨before.reverse, line, after.reverse, ?_, readingOf_eq_some.mp hread, ?_⟩
    · have hreverse := congrArg List.reverse hlines
      simpa using hreverse
    · intro other hother later hlater
      have hnone := hafter other (List.mem_reverse.mp hother)
      rw [readingOf_eq_some.mpr hlater] at hnone
      cases hnone
  · rintro ⟨before, line, after, rfl, hread, hafter⟩
    refine ⟨after.reverse, line, before.reverse, ?_, readingOf_eq_some.mpr hread, ?_⟩
    · simp
    · intro other hother
      cases hvalue : readingOf key other with
      | none => rfl
      | some later =>
          have hlater := hafter other (List.mem_reverse.mp hother) later
          exact absurd (readingOf_eq_some.mp hvalue) hlater

end Reading

section Lines

variable {env : Environment} {key value : Text}

theorem splitOn_eq_firstLine (text : Text) :
    ∃ rest, text.splitOn '\n' = firstLine text :: rest := by
  induction text with
  | nil => exact ⟨[], rfl⟩
  | cons c text ih =>
      obtain ⟨rest, hrest⟩ := ih
      rw [List.splitOn_cons_eq_if_modifyHead]
      by_cases hc : c = '\n'
      · subst hc
        exact ⟨text.splitOn '\n', rfl⟩
      · refine ⟨rest, ?_⟩
        simp [hc, hrest, firstLine]

theorem map_markFirst (lines : List Text) : (markFirst lines).map Prod.snd = lines := by
  cases lines with
  | nil => rfl
  | cons first rest =>
      rw [markFirst, List.map_cons, List.map_map]
      exact congrArg (first :: ·) (List.map_id rest)

theorem splitOn_intercalate_flatMap {texts : List Text} (hne : texts ≠ []) :
    (['\n'].intercalate texts).splitOn '\n' = texts.flatMap fun text => text.splitOn '\n' := by
  induction texts with
  | nil => exact absurd rfl hne
  | cons text texts ih =>
      cases texts with
      | nil => simp
      | cons next texts =>
          rw [List.intercalate_cons_cons, List.append_assoc, List.singleton_append,
            List.splitOn_append_cons_self, ih (List.cons_ne_nil next texts)]
          rfl

/-- The lines read are the marked ones; an empty environment has one line more. -/
theorem lines_printenv (env : Environment) : (printenv env).splitOn '\n' =
    if env.entries = [] then [[]] else (marked env).map Prod.snd := by
  split
  · rename_i hempty
    rw [printenv, hempty]
    rfl
  · rename_i hne
    rw [printenv, splitOn_intercalate_flatMap (by simpa using hne), marked, List.map_flatMap,
      List.flatMap_map]
    apply List.flatMap_congr
    intro entry _
    exact (map_markFirst _).symm

theorem mem_marked {line : Text} (hline : (false, line) ∈ marked env) :
    ∃ entry ∈ env.entries, line = firstLine (printed entry) := by
  obtain ⟨entry, hentry, hmem⟩ := List.mem_flatMap.mp hline
  obtain ⟨rest, hrest⟩ := splitOn_eq_firstLine (printed entry)
  rw [hrest, markFirst, List.mem_cons] at hmem
  rcases hmem with hown | hstray
  · exact ⟨entry, hentry, congrArg Prod.snd hown⟩
  · obtain ⟨other, -, hother⟩ := List.mem_map.mp hstray
    cases hother

theorem firstLine_append_of_not_mem {front : Text} (hfront : '\n' ∉ front) (rest : Text) :
    firstLine (front ++ rest) = front ++ firstLine rest := by
  refine List.takeWhile_append_of_pos ?_
  intro c hc
  have hne : c ≠ '\n' := fun hnewline => hfront (hnewline ▸ hc)
  exact decide_eq_true hne

/-- A text with a line break keeps its first line when it is continued. -/
theorem firstLine_append_of_mem {front : Text} (hfront : '\n' ∈ front) (rest : Text) :
    firstLine (front ++ rest) = firstLine front := by
  rw [firstLine, firstLine, List.takeWhile_append, if_neg]
  intro hlength
  have hwhole := (List.takeWhile_prefix (· ≠ '\n')).eq_of_length hlength
  rw [← hwhole] at hfront
  have hne := List.mem_takeWhile_imp hfront
  simp at hne

/-- A text is cut in one way at the first mark, so a line gives one name and one value, and two
readings of it are the same. -/
theorem cut_unique {mark : Char} {name rest : Text} (hkey : mark ∉ key) (hname : mark ∉ name)
    (htext : key ++ mark :: value = name ++ mark :: rest) : key = name ∧ value = rest := by
  induction key generalizing name with
  | nil =>
      cases name with
      | nil => exact ⟨rfl, (List.cons.inj htext).2⟩
      | cons c name =>
          have hc : mark = c := (List.cons.inj htext).1
          exact absurd List.mem_cons_self (hc ▸ hname)
  | cons c key ih =>
      cases name with
      | nil =>
          have hc : c = mark := (List.cons.inj htext).1
          exact absurd List.mem_cons_self (hc ▸ hkey)
      | cons d name =>
          obtain ⟨hc, htail⟩ := List.cons.inj htext
          obtain ⟨hkeys, hvalues⟩ := ih (fun hmem => hkey (List.mem_cons_of_mem c hmem))
            (fun hmem => hname (List.mem_cons_of_mem d hmem)) htail
          exact ⟨by rw [hc, hkeys], hvalues⟩

/-- The first line of a variable is read as the variable, or is not read. -/
theorem own_line (hline : (false, key ++ '=' :: value) ∈ marked env) (hkey : '=' ∉ key) :
    ∃ whole, env.value? key = some whole ∧ value = firstLine whole := by
  obtain ⟨⟨name, whole⟩, hentry, hprinted⟩ := mem_marked hline
  have hname : '=' ∉ name := env.names (name, whole) hentry
  rw [printed] at hprinted
  dsimp only at hprinted
  have hfront : '\n' ∉ name := by
    intro hnewline
    rw [firstLine_append_of_mem hnewline] at hprinted
    have hequals : '=' ∈ firstLine name := by
      rw [← hprinted]
      exact List.mem_append_right key List.mem_cons_self
    exact hname ((List.takeWhile_subset _) hequals)
  rw [firstLine_append_of_not_mem hfront] at hprinted
  have hwhole : firstLine ('=' :: whole) = '=' :: firstLine whole := rfl
  rw [hwhole] at hprinted
  obtain ⟨rfl, rfl⟩ := cut_unique hkey hname hprinted
  refine ⟨whole, ?_, rfl⟩
  rw [Environment.value?, RowTable.lookup_of_mem env.nodup hentry]
  rfl

theorem mem_lines_printenv {before after : List Text} {line : Text}
    (hlines : (printenv env).splitOn '\n' = before ++ line :: after) (hne : line ≠ []) :
    (marked env).map Prod.snd = before ++ line :: after := by
  rw [lines_printenv] at hlines
  split at hlines
  · have hmem : line ∈ [([] : Text)] := by
      rw [hlines]
      exact List.mem_append_right before List.mem_cons_self
    exact absurd (List.mem_singleton.mp hmem) hne
  · exact hlines

end Lines

/-- What the container answers with its environment. -/
def envAnswer (env : Environment) : Except BrokerError Record :=
  handleDmsEnvRead ⟨0, printenv env⟩

/-- The answer is true of the environment exactly when the last line read for a key is a
variable's own, or a stray that agrees with it. A value may have several lines, and from its
second line on they look like variables. -/
theorem envRead_truthful_iff (env : Environment) :
    (∀ answer, envAnswer env = .ok answer → Truthful env answer) ↔ StraysAgree env := by
  have hanswer : envAnswer env =
      .ok (((printenv env).splitOn '\n').foldl readLineInto fun _ => none) := rfl
  constructor
  · intro htruthful before line after key value hmarked hread hafter
    have hsome : ((printenv env).splitOn '\n').foldl readLineInto (fun _ => none) key =
        some value := by
      rw [answer_eq_some, lines_printenv, if_neg, hmarked]
      · refine ⟨before.map Prod.snd, line, after.map Prod.snd, by simp, hread, ?_⟩
        intro other hother
        obtain ⟨entry, hentry, rfl⟩ := List.mem_map.mp hother
        exact hafter entry hentry
      · intro hempty
        rw [marked, hempty] at hmarked
        simp at hmarked
    exact (htruthful _ hanswer key value hsome).2
  · intro hstrays answer hok key value hvalue
    rw [hanswer] at hok
    cases hok
    obtain ⟨before, line, after, hlines, hread, hafter⟩ := answer_eq_some.mp hvalue
    obtain ⟨hline, hkey, hlisted⟩ := readVariable_spec hread
    have hne : line ≠ [] := by
      rw [hline]
      simp
    have hmarked := mem_lines_printenv hlines hne
    obtain ⟨front, back, hsplit, hfront, hback⟩ := List.map_eq_append_iff.mp hmarked
    obtain ⟨⟨stray, text⟩, rest, rfl, hsame, hrest⟩ := List.map_eq_cons_iff.mp hback
    dsimp only at hsame
    subst hsame
    refine ⟨hlisted, ?_⟩
    cases stray with
    | true =>
        refine hstrays front text rest key value hsplit hread ?_
        intro other hother later
        apply hafter
        rw [← hrest]
        exact List.mem_map_of_mem hother
    | false =>
        have hown : (false, key ++ '=' :: value) ∈ marked env := by
          rw [← hline, hsplit]
          exact List.mem_append_right front List.mem_cons_self
        exact own_line hown hkey

namespace SecondLine

/-- An unrelated variable speaks of the spam filter on its second line. -/
def env : Environment where
  entries := [("MOTD".toList, "hello\nENABLE_RSPAMD=1".toList)]
  nodup := by decide
  names := by decide

/-- A variable is reported that the container does not have: it stands on the second line of an
unrelated variable's value. -/
theorem stray_reported :
    ¬ ∀ answer, envAnswer env = .ok answer → Truthful env answer := by
  intro htruthful
  have hreported : ((printenv env).splitOn '\n').foldl readLineInto (fun _ => none)
      "ENABLE_RSPAMD".toList = some ['1'] := by
    decide
  obtain ⟨-, whole, hwhole, -⟩ := htruthful _ rfl _ _ hreported
  have hunset : env.value? "ENABLE_RSPAMD".toList = none := by
    decide
  rw [hunset] at hwhole
  cases hwhole

end SecondLine

end Dms

end MailPanel
