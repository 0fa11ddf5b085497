import MailPanel.IpText

/-
The addresses that a fetch of an untrusted client's metadata may connect to.
-/

namespace MailPanel

namespace SafeFetch

open ScriptText NumberText IpText

def blocked : BlockList :=
  [("0.0.0.0", 8), ("10.0.0.0", 8), ("100.64.0.0", 10), ("127.0.0.0", 8), ("169.254.0.0", 16),
    ("172.16.0.0", 12), ("192.0.0.0", 24), ("192.0.2.0", 24), ("192.88.99.0", 24),
    ("192.168.0.0", 16), ("198.18.0.0", 15), ("198.51.100.0", 24), ("203.0.113.0", 24),
    ("224.0.0.0", 4), ("240.0.0.0", 4), ("::", 128), ("::1", 128), ("100::", 64), ("2001::", 23),
    ("2001:db8::", 32), ("2002::", 16), ("fc00::", 7), ("fe80::", 10), ("ff00::", 8)].foldl
      (fun blocked subnet => blocked.addSubnet subnet.1 subnet.2) BlockList.new

/-- What follows one of the two beginnings of an embedded address. -/
def embeddedTail? (lower : List Char) : Option (List Char) :=
  match "::ffff:".toList.isPrefixOf? lower with
  | some tail => some tail
  | none => "64:ff9b::".toList.isPrefixOf? lower

/-- Four runs of digits with dots between. -/
def isDotted (tail : List Char) : Bool :=
  (tail.splitOn '.').length = 4 && (tail.splitOn '.').all fun run => run ≠ [] && run.all isDigit

def embeddedIpv4 (address : List Char) : Option (List Char) :=
  match embeddedTail? (address.map Char.toLower) with
  | none => none
  | some tail =>
      if isDotted tail then some tail
      else
        match (tail.splitOn ':').map group? with
        | [some high, some low] => some (dotted (high / 256) (high % 256) (low / 256) (low % 256))
        | _ => none

def isPublicAddress (address : List Char) : Bool :=
  match isIP address with
  | some (.v4 number) => !blocked.check (.v4 number)
  | some (.v6 number) =>
      match embeddedIpv4 address with
      | some v4 => !((ipv4? v4).map IpAddress.v4).any blocked.check
      | none => !blocked.check (.v6 number)
  | none => false

/-- The IPv4 address in an address that maps one or translates one. -/
def embedded? (number : Nat) : Option Nat :=
  if number / 2 ^ 32 = 0xffff ∨ number / 2 ^ 32 = 0x64ff9b * 2 ^ 64 then some (number % 2 ^ 32)
  else none

/-- The address lies in no listed range, nor does the one embedded in it. -/
def Outside : IpAddress → Prop
  | .v4 number => ¬blocked.ListedIpv4 number
  | .v6 number =>
      ¬blocked.ListedIpv6 number ∧ ∀ inner ∈ embedded? number, ¬blocked.ListedIpv4 inner

/-- A translated address in a spelling that shows the embedded one. -/
def ShowsTranslated (address : List Char) : Prop :=
  ∃ tail, address.map Char.toLower = "64:ff9b::".toList ++ tail ∧
    ((ipv4? tail).isSome ∨
      ∃ high low, tail = high ++ ':' :: low ∧ (group? high).isSome ∧ (group? low).isSome)

/-- A translated address of a listed one whose spelling does not show it. -/
def Overlooked (text : List Char) (address : IpAddress) : Prop :=
  ∃ number, address = .v6 number ∧ number / 2 ^ 32 = 0x64ff9b * 2 ^ 64 ∧
    blocked.ListedIpv4 (number % 2 ^ 32) ∧ ¬ShowsTranslated text

theorem embeddedTail_iff {lower tail : List Char} :
    embeddedTail? lower = some tail ↔
      lower = "::ffff:".toList ++ tail ∨ lower = "64:ff9b::".toList ++ tail := by
  rw [embeddedTail?]
  split
  · rename_i shown hshown
    have heq := List.append_eq_of_isPrefixOf?_eq_some hshown
    subst heq
    constructor
    · intro htail
      rw [← Option.some.inj htail]
      exact Or.inl rfl
    · rintro (heq | heq)
      · rw [List.append_cancel_left heq]
      · exact absurd (List.cons.inj heq).1 (by decide)
  · rename_i hnone
    rw [List.isPrefixOf?_eq_some_iff_append_eq]
    constructor
    · exact fun heq => Or.inr heq.symm
    · rintro (heq | heq)
      · rw [heq, List.isPrefixOf?_eq_some_iff_append_eq.mpr rfl] at hnone
        cases hnone
      · exact heq.symm

/-- A translated address, from what follows its beginning: the groups behind it are the low
ones, with zeros between them. -/
theorem lowerIpv6_translated {tail : List Char} {number : Nat}
    (hnumber : lowerIpv6? ("64:ff9b::".toList ++ tail) = some number) :
    ∃ back, back? tail = some back ∧
      number = ofGroups ([0x64, 0xff9b] ++ List.replicate (6 - back.length) 0 ++ back) := by
  have hcompressed :
      compressed? ("64:ff9b::".toList ++ tail) = some ("64:ff9b".toList, tail) := rfl
  have hfront : front? "64:ff9b".toList = some [0x64, 0xff9b] := by decide
  rw [lowerIpv6?, hcompressed] at hnumber
  dsimp only at hnumber
  rw [hfront] at hnumber
  cases hback : back? tail with
  | none =>
      rw [hback] at hnumber
      cases hnumber
  | some back =>
      rw [hback] at hnumber
      dsimp only at hnumber
      split at hnumber
      · exact ⟨back, rfl, (Option.some.inj hnumber).symm⟩
      · cases hnumber

theorem lowerIpv6_mapped {tail : List Char} {number : Nat}
    (hnumber : lowerIpv6? ("::ffff:".toList ++ tail) = some number) :
    ∃ back, groups? (tail.splitOn ':') = some back ∧
      number = ofGroups (List.replicate (7 - back.length) 0 ++ 0xffff :: back) := by
  have hcompressed :
      compressed? ("::ffff:".toList ++ tail) = some ([], "ffff:".toList ++ tail) := rfl
  have hsplit : ("ffff:".toList ++ tail).splitOn ':' = "ffff".toList :: tail.splitOn ':' := by
    have hword : "ffff:".toList ++ tail = "ffff".toList ++ ':' :: tail := rfl
    rw [hword, List.splitOn_append_cons_self_of_not_mem (by decide)]
  have hback : back? ("ffff:".toList ++ tail) =
      (groups? (tail.splitOn ':')).map fun back => 0xffff :: back := by
    have hne : "ffff:".toList ++ tail ≠ [] := List.cons_ne_nil _ _
    rw [back?, if_neg hne, hsplit]
    cases hpieces : tail.splitOn ':' with
    | nil => exact absurd hpieces (List.splitOn_ne_nil ':' tail)
    | cons piece rest =>
        have hgroup : group? "ffff".toList = some 0xffff := by decide
        rw [groups?, hgroup]
        · cases groups? (piece :: rest) <;> rfl
        · intro hnil
          cases hnil
  have hfront : front? [] = some [] := rfl
  rw [lowerIpv6?, hcompressed] at hnumber
  dsimp only at hnumber
  rw [hfront, hback] at hnumber
  cases hgroups : groups? (tail.splitOn ':') with
  | none =>
      rw [hgroups] at hnumber
      cases hnumber
  | some back =>
      rw [hgroups] at hnumber
      dsimp only [Option.map_some] at hnumber
      split at hnumber
      · rw [← Option.some.inj hnumber]
        refine ⟨back, rfl, ?_⟩
        have hzeros : 8 - (back.length + 1) = 7 - back.length := by omega
        rw [List.nil_append, List.length_nil, List.length_cons, Nat.sub_zero, hzeros]
      · cases hnumber

theorem isDotted_runs {tail : List Char} (hdotted : isDotted tail = true) :
    (tail.splitOn '.').length = 4 ∧
      ∀ run ∈ tail.splitOn '.', run ≠ [] ∧ run.all isDigit = true := by
  simpa [isDotted] using hdotted

/-- Digits and dots. -/
theorem char_of_dotted {tail : List Char} (hdotted : isDotted tail = true) {c : Char}
    (hc : c ∈ tail) : c = '.' ∨ isDigit c = true := by
  by_cases hdot : c = '.'
  · exact Or.inl hdot
  · obtain ⟨run, hrun, hmem⟩ := mem_of_splitOn hc hdot
    exact Or.inr (List.all_eq_true.mp ((isDotted_runs hdotted).2 run hrun).2 c hmem)

theorem dot_mem_of_dotted {tail : List Char} (hdotted : isDotted tail = true) : '.' ∈ tail := by
  by_contra hdot
  have hlength := (isDotted_runs hdotted).1
  rw [List.splitOn_eq_singleton hdot] at hlength
  cases hlength

theorem isDotted_of_ipv4 {tail : List Char} {number : Nat} (hnumber : ipv4? tail = some number) :
    isDotted tail = true := by
  obtain ⟨a, b, c, d, hoctets, -⟩ := ipv4_octets hnumber
  have hruns := (@octet_of_mem _ [a, b, c, d] hoctets).1
  have hlength : (tail.splitOn '.').length = 4 := by
    rw [← List.length_map octet?, hoctets]
    rfl
  rw [isDotted, hlength]
  simpa using hruns

/-- A dotted tail is one piece, of two groups. -/
theorem groups_of_dotted {tail : List Char} (hdotted : isDotted tail = true) :
    groups? (tail.splitOn ':') =
      (ipv4? tail).map fun number => [number / 65536, number % 65536] := by
  have hcolon : ':' ∉ tail := by
    intro hmem
    rcases char_of_dotted hdotted hmem with heq | hdigit
    · exact absurd heq (by decide)
    · exact absurd hdigit (by decide)
  rw [List.splitOn_eq_singleton hcolon, groups?,
    group_eq_none (dot_mem_of_dotted hdotted) (by decide)]

theorem ofGroups_translated {high low : Nat} :
    ofGroups ([0x64, 0xff9b] ++ List.replicate (6 - [high, low].length) 0 ++ [high, low]) =
      0x64ff9b * 2 ^ 96 + high * 65536 + low := by
  change ((0x64ff9b * 65536 ^ 4) * 65536 + high) * 65536 + low = _
  omega

theorem ofGroups_mapped {high low : Nat} :
    ofGroups (List.replicate (7 - [high, low].length) 0 ++ 0xffff :: [high, low]) =
      0xffff * 2 ^ 32 + high * 65536 + low := by
  change (0xffff * 65536 + high) * 65536 + low = _
  omega


/-- What the code reads after the beginning of an embedded address. -/
inductive Read (tail : List Char) : List Char → Nat → Nat → Prop where
  | dotted {number : Nat} (hdotted : isDotted tail = true) (hnumber : ipv4? tail = some number) :
      Read tail tail (number / 65536) (number % 65536)
  | groups {high low : Nat} (hgroups : (tail.splitOn ':').map group? = [some high, some low]) :
      Read tail (dotted (high / 256) (high % 256) (low / 256) (low % 256)) high low

theorem Read.spec {tail v4 : List Char} {high low : Nat} (hread : Read tail v4 high low) :
    groups? (tail.splitOn ':') = some [high, low] ∧ ipv4? v4 = some (high * 65536 + low) ∧
      high < 65536 ∧ low < 65536 := by
  cases hread with
  | @dotted number hdotted hnumber =>
      have hlt := ipv4_lt hnumber
      refine ⟨?_, ?_, by omega, by omega⟩
      · rw [groups_of_dotted hdotted, hnumber]
        rfl
      · rw [hnumber, Nat.div_add_mod']
  | groups hgroups =>
      obtain ⟨first, second, -, hfirst, hsecond⟩ := two_pieces hgroups
      have hhigh := (group_lt hfirst).1
      have hlow := (group_lt hsecond).1
      refine ⟨groups_of_two hgroups, ?_, hhigh, hlow⟩
      have hparts : ((high / 256 * 256 + high % 256) * 256 + low / 256) * 256 + low % 256 =
          high * 65536 + low := by
        omega
      rw [ipv4_dotted (by omega) (by omega) (by omega) (by omega), hparts]

/-- What the code reads is spelled in the text. -/
theorem Read.shows {tail v4 : List Char} {high low : Nat} (hread : Read tail v4 high low) :
    (ipv4? tail).isSome ∨ ∃ first second, tail = first ++ ':' :: second ∧
      (group? first).isSome ∧ (group? second).isSome := by
  cases hread with
  | dotted hdotted hnumber =>
      rw [hnumber]
      exact Or.inl rfl
  | groups hgroups =>
      obtain ⟨first, second, hpieces, hfirst, hsecond⟩ := two_pieces hgroups
      have htail := @List.intercalate_splitOn _ tail _ _ ':'
      rw [hpieces] at htail
      have hfirst : (group? first).isSome := by rw [hfirst]; rfl
      have hsecond : (group? second).isSome := by rw [hsecond]; rfl
      exact Or.inr ⟨first, second, by simpa using htail.symm, hfirst, hsecond⟩

theorem read_of_embedded {tail v4 : List Char} {address : List Char} {back : List Nat}
    (htail : embeddedTail? (address.map Char.toLower) = some tail)
    (hv4 : embeddedIpv4 address = some v4) (hback : groups? (tail.splitOn ':') = some back) :
    ∃ high low, Read tail v4 high low := by
  rw [embeddedIpv4, htail] at hv4
  dsimp only at hv4
  split at hv4
  · rename_i hdotted
    obtain rfl := Option.some.inj hv4
    rw [groups_of_dotted hdotted] at hback
    obtain ⟨number, hnumber, -⟩ := Option.map_eq_some_iff.mp hback
    exact ⟨_, _, .dotted hdotted hnumber⟩
  · split at hv4
    · rename_i high low hgroups
      obtain rfl := Option.some.inj hv4
      exact ⟨high, low, .groups hgroups⟩
    · cases hv4

/-- A text that the code takes for an embedded address, by its beginning and its rest. -/
theorem embedded_chars {address v4 : List Char} (hv4 : embeddedIpv4 address = some v4) :
    ∃ tail, embeddedTail? (address.map Char.toLower) = some tail ∧ '%' ∉ tail := by
  rw [embeddedIpv4] at hv4
  cases htail : embeddedTail? (address.map Char.toLower) with
  | none =>
      rw [htail] at hv4
      cases hv4
  | some tail =>
      refine ⟨tail, rfl, ?_⟩
      rw [htail] at hv4
      dsimp only at hv4
      intro hpercent
      split at hv4
      · rename_i hdotted
        rcases char_of_dotted hdotted hpercent with heq | hdigit
        · exact absurd heq (by decide)
        · exact absurd hdigit (by decide)
      · split at hv4
        · rename_i high low hgroups
          obtain ⟨first, second, hpieces, hfirst, hsecond⟩ := two_pieces hgroups
          obtain ⟨piece, hpiece, hmem⟩ := mem_of_splitOn hpercent (by decide : '%' ≠ ':')
          rw [hpieces] at hpiece
          rcases List.mem_cons.mp hpiece with rfl | hpiece
          · exact absurd ((group_lt hfirst).2.2 '%' hmem) (by decide)
          · rw [List.mem_singleton.mp hpiece] at hmem
            exact absurd ((group_lt hsecond).2.2 '%' hmem) (by decide)
        · cases hv4

theorem percent_notMem {address v4 : List Char} (hv4 : embeddedIpv4 address = some v4) :
    '%' ∉ address := by
  intro hpercent
  obtain ⟨tail, htail, hrest⟩ := embedded_chars hv4
  have hlower : '%' ∈ address.map Char.toLower :=
    List.mem_map.mpr ⟨'%', hpercent, by decide⟩
  rcases embeddedTail_iff.mp htail with heq | heq
  · rw [heq] at hlower
    rcases List.mem_append.mp hlower with hmem | hmem
    · exact absurd hmem (by decide)
    · exact hrest hmem
  · rw [heq] at hlower
    rcases List.mem_append.mp hlower with hmem | hmem
    · exact absurd hmem (by decide)
    · exact hrest hmem

theorem embedded_nil {address : List Char}
    (htail : embeddedTail? (address.map Char.toLower) = some []) : embeddedIpv4 address = none := by
  rw [embeddedIpv4, htail]
  rfl

/-- What the code takes for an embedded address is the one embedded, mapped or translated. -/
theorem embeddedIpv4_spec {address v4 : List Char} {number : Nat}
    (haddress : ipv6? address = some number) (hv4 : embeddedIpv4 address = some v4) :
    ∃ inner, ipv4? v4 = some inner ∧ embedded? number = some inner ∧
      (number / 2 ^ 32 = 0x64ff9b * 2 ^ 64 → ShowsTranslated address) := by
  obtain ⟨tail, htail, -⟩ := embedded_chars hv4
  rw [ipv6?, withoutZone_of_notMem (percent_notMem hv4), Option.bind_some] at haddress
  rcases embeddedTail_iff.mp htail with heq | heq
  · rw [heq] at haddress
    obtain ⟨back, hback, rfl⟩ := lowerIpv6_mapped haddress
    obtain ⟨high, low, hread⟩ := read_of_embedded htail hv4 hback
    obtain ⟨hgroups, hinner, hhigh, hlow⟩ := hread.spec
    rw [hgroups] at hback
    obtain rfl := Option.some.inj hback
    rw [ofGroups_mapped]
    refine ⟨_, hinner, ?_, ?_⟩
    · rw [embedded?, if_pos (Or.inl (by omega))]
      congr 1
      omega
    · intro htranslated
      omega
  · rw [heq] at haddress
    obtain ⟨back, hback, rfl⟩ := lowerIpv6_translated haddress
    have hgroups : groups? (tail.splitOn ':') = some back := by
      rw [back?] at hback
      split at hback
      · rename_i hempty
        rw [hempty] at htail
        rw [embedded_nil htail] at hv4
        cases hv4
      · exact hback
    obtain ⟨high, low, hread⟩ := read_of_embedded htail hv4 hgroups
    obtain ⟨hread', hinner, hhigh, hlow⟩ := hread.spec
    rw [hread'] at hgroups
    obtain rfl := Option.some.inj hgroups
    rw [ofGroups_translated]
    refine ⟨_, hinner, ?_, fun _ => ⟨tail, heq, hread.shows⟩⟩
    rw [embedded?, if_pos (Or.inr (by omega))]
    congr 1
    omega

/-- A spelling that shows the embedded address is taken for one, so what slips through is a
spelling that hides it. -/
theorem embedded_of_shows {address : List Char} (hshows : ShowsTranslated address) :
    embeddedIpv4 address ≠ none := by
  obtain ⟨tail, heq, htail⟩ := hshows
  have hread : embeddedTail? (address.map Char.toLower) = some tail :=
    embeddedTail_iff.mpr (Or.inr heq)
  rw [embeddedIpv4, hread]
  dsimp only
  rcases htail with hipv4 | ⟨high, low, rfl, hhigh, hlow⟩
  · obtain ⟨number, hnumber⟩ := Option.isSome_iff_exists.mp hipv4
    rw [if_pos (isDotted_of_ipv4 hnumber)]
    exact nofun
  · obtain ⟨first, hfirst⟩ := Option.isSome_iff_exists.mp hhigh
    obtain ⟨second, hsecond⟩ := Option.isSome_iff_exists.mp hlow
    have hcolon : ':' ∉ high :=
      fun hmem => absurd ((group_lt hfirst).2.2 ':' hmem) (by decide)
    have hlast : ':' ∉ low :=
      fun hmem => absurd ((group_lt hsecond).2.2 ':' hmem) (by decide)
    rw [List.splitOn_append_cons_self_of_not_mem hcolon, List.splitOn_eq_singleton hlast,
      List.map_cons, List.map_singleton, hfirst, hsecond]
    split
    · exact nofun
    · exact nofun

/-- No listed IPv6 range has an embedded address. -/
theorem not_listedIpv6 {number inner : Nat} (hinner : embedded? number = some inner) :
    ¬blocked.ListedIpv6 number := by
  have hlist : blocked.ipv6 = [⟨0, 128⟩, ⟨1, 128⟩, ⟨0x100 * 2 ^ 112, 64⟩,
      ⟨0x2001 * 2 ^ 112, 23⟩, ⟨0x20010db8 * 2 ^ 96, 32⟩, ⟨0x2002 * 2 ^ 112, 16⟩,
      ⟨0xfc00 * 2 ^ 112, 7⟩, ⟨0xfe80 * 2 ^ 112, 10⟩, ⟨0xff00 * 2 ^ 112, 8⟩] := by
    decide
  have hhigh : number / 2 ^ 32 = 0xffff ∨ number / 2 ^ 32 = 0x64ff9b * 2 ^ 64 := by
    by_contra hneither
    rw [embedded?, if_neg hneither] at hinner
    cases hinner
  rintro ⟨subnet, hmem, hcontains⟩
  rw [Subnet.Contains] at hcontains
  rw [hlist] at hmem
  simp only [List.mem_cons, List.not_mem_nil, or_false] at hmem
  rcases hmem with rfl | rfl | rfl | rfl | rfl | rfl | rfl | rfl | rfl <;>
    simp only [Nat.reduceSub, Nat.reducePow, Nat.reduceMul] at hcontains hhigh <;> omega

/-- The block list itself decides every address that is not translated. -/
theorem check_v6_iff {number : Nat} (huntranslated : number / 2 ^ 32 ≠ 0x64ff9b * 2 ^ 64) :
    (!blocked.check (.v6 number)) = true ↔ Outside (.v6 number) := by
  rw [BlockList.check, Outside, Bool.not_eq_true', decide_eq_false_iff_not, not_or]
  apply and_congr_right
  intro _
  by_cases hmapped : number / 2 ^ 32 = 0xffff
  · rw [embedded?, if_pos (Or.inl hmapped)]
    constructor
    · intro hunlisted inner hinner
      rw [← Option.some.inj hinner]
      exact fun hlisted => hunlisted ⟨hmapped, hlisted⟩
    · exact fun hunlisted hlisted => hunlisted _ rfl hlisted.2
  · rw [embedded?, if_neg (not_or.mpr ⟨hmapped, huntranslated⟩)]
    constructor
    · intro _ inner hinner
      cases hinner
    · exact fun _ hlisted => hmapped hlisted.1

/-- And every translated one passes it. -/
theorem check_v6_translated {number : Nat}
    (htranslated : number / 2 ^ 32 = 0x64ff9b * 2 ^ 64) :
    (!blocked.check (.v6 number)) = true := by
  have hembedded : embedded? number = some (number % 2 ^ 32) :=
    if_pos (Or.inr htranslated)
  rw [BlockList.check, Bool.not_eq_true', decide_eq_false_iff_not, not_or]
  refine ⟨not_listedIpv6 hembedded, ?_⟩
  rintro ⟨hmapped, -⟩
  omega

/-- The filter lets an address through if it lies outside every range, and if it is
translated and its spelling does not show that. -/
theorem isPublicAddress_iff {text : List Char} {address : IpAddress}
    (haddress : isIP text = some address) :
    isPublicAddress text = true ↔ Outside address ∨ Overlooked text address := by
  rw [isPublicAddress, haddress]
  cases address with
  | v4 number =>
      dsimp only
      rw [BlockList.check, Outside]
      constructor
      · intro hpublic
        exact Or.inl (by simpa using hpublic)
      · rintro (houtside | ⟨_, heq, -⟩)
        · simpa using houtside
        · cases heq
  | v6 number =>
      have hnumber : ipv6? text = some number := by
        rw [isIP] at haddress
        split at haddress
        · cases haddress
        · obtain ⟨other, hother, heq⟩ := Option.map_eq_some_iff.mp haddress
          rw [hother, IpAddress.v6.inj heq]
      dsimp only
      cases hv4 : embeddedIpv4 text with
      | some v4 =>
          obtain ⟨inner, hinner, hembedded, hshows⟩ := embeddedIpv4_spec hnumber hv4
          have hunlisted := not_listedIpv6 hembedded
          dsimp only
          rw [hinner, Option.map_some, Option.any_some, BlockList.check, Outside, hembedded]
          constructor
          · intro hpublic
            refine Or.inl ⟨hunlisted, ?_⟩
            intro other hother
            rw [← Option.some.inj hother]
            simpa using hpublic
          · rintro (houtside | ⟨_, heq, htranslated, -, hhidden⟩)
            · simpa using houtside.2 inner rfl
            · obtain rfl := IpAddress.v6.inj heq
              exact absurd (hshows htranslated) hhidden
      | none =>
          have hhidden : ¬ShowsTranslated text := fun hshows => embedded_of_shows hshows hv4
          dsimp only
          by_cases htranslated : number / 2 ^ 32 = 0x64ff9b * 2 ^ 64
          · have hembedded : embedded? number = some (number % 2 ^ 32) :=
              if_pos (Or.inr htranslated)
            refine iff_of_true (check_v6_translated htranslated) ?_
            by_cases hlisted : blocked.ListedIpv4 (number % 2 ^ 32)
            · exact Or.inr ⟨number, rfl, htranslated, hlisted, hhidden⟩
            · refine Or.inl ⟨not_listedIpv6 hembedded, ?_⟩
              intro inner hinner
              rw [hembedded] at hinner
              rw [← Option.some.inj hinner]
              exact hlisted
          · rw [check_v6_iff htranslated]
            constructor
            · exact Or.inl
            · rintro (houtside | ⟨_, heq, htranslated', -⟩)
              · exact houtside
              · obtain rfl := IpAddress.v6.inj heq
                exact absurd htranslated' htranslated

theorem not_outside_of_overlooked {text : List Char} {address : IpAddress}
    (hoverlooked : Overlooked text address) : ¬Outside address := by
  obtain ⟨number, rfl, htranslated, hlisted, -⟩ := hoverlooked
  have hembedded : embedded? number = some (number % 2 ^ 32) :=
    if_pos (Or.inr htranslated)
  exact fun houtside => houtside.2 _ hembedded hlisted

/-- What the filter lets through lies outside every range, but for translated addresses whose
spelling does not show the address embedded in them. The filter takes that address from the
text, from its last two groups or its dotted end, and not from the number that the text stands
for. -/
theorem isPublicAddress_outside_iff {text : List Char} {address : IpAddress}
    (haddress : isIP text = some address) :
    (isPublicAddress text = true → Outside address) ↔ ¬Overlooked text address := by
  rw [isPublicAddress_iff haddress]
  constructor
  · exact fun houtside hoverlooked =>
      not_outside_of_overlooked hoverlooked (houtside (Or.inr hoverlooked))
  · exact fun hseen hpublic => hpublic.resolve_right hseen

/-- The translation of the loopback address, spelled so that its last two groups show it. -/
theorem loopback_shown_refused : isPublicAddress "64:ff9b::7f00:1".toList = false := by
  have houtside : isPublicAddress "64:ff9b::7f00:1".toList = true →
      Outside (.v6 (0x64ff9b * 2 ^ 96 + 0x7f000001)) := by
    apply (isPublicAddress_outside_iff (by decide)).mpr
    rintro ⟨number, -, -, -, hhidden⟩
    exact hhidden ⟨"7f00:1".toList, by decide, Or.inr ⟨"7f00".toList, "1".toList, rfl, rfl, rfl⟩⟩
  apply Bool.eq_false_iff.mpr
  intro hpublic
  exact (houtside hpublic).2 0x7f000001 (by decide) (by decide)

/-- The translation of `0.0.0.1`, which is spelled without it, as the run of zeros swallows one
of its groups: the filter finds nothing to unwrap and lets it through. -/
theorem unshown_passes : ¬∀ text address, isIP text = some address →
    isPublicAddress text = true → Outside address := by
  intro houtside
  have hinside : ¬Outside (.v6 (0x64ff9b * 2 ^ 96 + 1)) := by
    intro houtside
    exact houtside.2 1 (by decide) (by decide)
  exact hinside (houtside "64:ff9b::1".toList _ (by decide) (by decide))

end SafeFetch

end MailPanel
