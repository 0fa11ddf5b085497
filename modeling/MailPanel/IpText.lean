import MailPanel.NumberText
import Mathlib.Data.List.TakeWhile

/-
IP addresses: the texts that `net.isIP` takes, the numbers they denote, and lists of
subnets.
-/

namespace MailPanel

namespace IpText

open ScriptText NumberText

inductive IpAddress where
  | v4 (number : Nat)
  | v6 (number : Nat)
deriving DecidableEq, Repr

/- Texts -/

def octet? (text : List Char) : Option Nat :=
  if text ≠ [] ∧ text.all isDigit ∧ (text.head? = some '0' → text.length = 1) ∧
      ofDigits 10 text ≤ 255 then
    some (ofDigits 10 text)
  else none

def ipv4? (text : List Char) : Option Nat :=
  match (text.splitOn '.').mapM octet? with
  | some [a, b, c, d] => some (((a * 256 + b) * 256 + c) * 256 + d)
  | _ => none

/-- One to four hexadecimal digits. -/
def group? (text : List Char) : Option Nat :=
  if text ≠ [] ∧ text.length ≤ 4 ∧ text.all fun c => digitValue c < 16 then
    some (text.foldl (fun value c => value * 16 + digitValue c) 0)
  else none

/-- Groups, the last two of which may be spelled as an IPv4 address. Anything else in a group's
place makes the text no address. -/
def groups? : List (List Char) → Option (List Nat)
  | [] => some []
  | [last] =>
      match group? last with
      | some group => some [group]
      | none => (ipv4? last).map fun number => [number / 65536, number % 65536]
  | piece :: rest =>
      match group? piece, groups? rest with
      | some group, some later => some (group :: later)
      | _, _ => none

/-- The text before and after its first `::`. A second one would stand in the part after it, and
makes that part no groups. -/
def compressed? : List Char → Option (List Char × List Char)
  | [] => none
  | [_] => none
  | first :: second :: rest =>
      if first = ':' ∧ second = ':' then some ([], rest)
      else (compressed? (second :: rest)).map fun sides => (first :: sides.1, sides.2)

/-- What stands before a `::`. -/
def front? (text : List Char) : Option (List Nat) :=
  if text = [] then some [] else (text.splitOn ':').mapM group?

/-- What stands after a `::`. -/
def back? (text : List Char) : Option (List Nat) :=
  if text = [] then some [] else groups? (text.splitOn ':')

def ofGroups (groups : List Nat) : Nat :=
  groups.foldl (fun value group => value * 65536 + group) 0

/-- A text in lower case, without a zone. Without a double colon there are eight groups, and
with one there are at most seven around it. -/
def lowerIpv6? (text : List Char) : Option Nat :=
  match compressed? text with
  | none =>
      match groups? (text.splitOn ':') with
      | some groups => if groups.length = 8 then some (ofGroups groups) else none
      | none => none
  | some sides =>
      match front? sides.1, back? sides.2 with
      | some front, some back =>
          if front.length + back.length ≤ 7 then
            some (ofGroups (front ++ List.replicate (8 - front.length - back.length) 0 ++ back))
          else none
      | _, _ => none

def isZoneChar (c : Char) : Bool := c.isAlphanum || c ∈ ['-', '.', ':']

/-- The text without a zone, which `%` begins. -/
def withoutZone? (text : List Char) : Option (List Char) :=
  let address := text.takeWhile (· ≠ '%')
  match text.drop address.length with
  | [] => some address
  | _ :: zone => if zone ≠ [] ∧ zone.all isZoneChar then some address else none

/-- Digits count the same in either case. -/
def ipv6? (text : List Char) : Option Nat :=
  (withoutZone? text).bind fun address => lowerIpv6? (address.map Char.toLower)

/-- `net.isIP`, with the number that the text denotes. -/
def isIP (text : List Char) : Option IpAddress :=
  match ipv4? text with
  | some number => some (.v4 number)
  | none => (ipv6? text).map .v6

example : isIP "1:2::3.4.5.6%eth0".toList = some (.v6 0x00010002000000000000000003040506) := by
  decide

/- Subnets -/

structure Subnet where
  network : Nat
  length : Nat
deriving DecidableEq, Repr

/-- The addresses of `width` bits that begin like the network. -/
def Subnet.Contains (width : Nat) (subnet : Subnet) (number : Nat) : Prop :=
  number / 2 ^ (width - subnet.length) = subnet.network / 2 ^ (width - subnet.length)

instance (width : Nat) (subnet : Subnet) (number : Nat) :
    Decidable (subnet.Contains width number) :=
  inferInstanceAs (Decidable (_ = _))

structure BlockList where
  ipv4 : List Subnet
  ipv6 : List Subnet

namespace BlockList

def new : BlockList := ⟨[], []⟩

def addSubnet (blocked : BlockList) (network : String) (length : Nat) : BlockList :=
  match isIP network.toList with
  | some (.v4 number) => { blocked with ipv4 := blocked.ipv4 ++ [⟨number, length⟩] }
  | some (.v6 number) => { blocked with ipv6 := blocked.ipv6 ++ [⟨number, length⟩] }
  | none => blocked

def ListedIpv4 (blocked : BlockList) (number : Nat) : Prop :=
  ∃ subnet ∈ blocked.ipv4, subnet.Contains 32 number

def ListedIpv6 (blocked : BlockList) (number : Nat) : Prop :=
  ∃ subnet ∈ blocked.ipv6, subnet.Contains 128 number

instance (blocked : BlockList) (number : Nat) : Decidable (blocked.ListedIpv4 number) :=
  inferInstanceAs (Decidable (∃ subnet ∈ blocked.ipv4, subnet.Contains 32 number))

instance (blocked : BlockList) (number : Nat) : Decidable (blocked.ListedIpv6 number) :=
  inferInstanceAs (Decidable (∃ subnet ∈ blocked.ipv6, subnet.Contains 128 number))

/-- An IPv6 address that maps an IPv4 address counts as that one, too. -/
def check (blocked : BlockList) : IpAddress → Bool
  | .v4 number => decide (blocked.ListedIpv4 number)
  | .v6 number =>
      decide (blocked.ListedIpv6 number ∨
        number / 2 ^ 32 = 0xffff ∧ blocked.ListedIpv4 (number % 2 ^ 32))

end BlockList

/- Spellings -/

theorem octet_lt {text : List Char} {value : Nat} (hvalue : octet? text = some value) :
    value < 256 ∧ text ≠ [] ∧ text.all isDigit = true := by
  rw [octet?] at hvalue
  split at hvalue
  · rename_i hoctet
    rw [← Option.some.inj hvalue]
    exact ⟨Nat.lt_succ_of_le hoctet.2.2.2, hoctet.1, hoctet.2.1⟩
  · cases hvalue

theorem mapM_eq_some {α β : Type} {f : α → Option β} {items : List α} {results : List β}
    (hresults : items.mapM f = some results) : items.map f = results.map some := by
  induction items generalizing results with
  | nil =>
      rw [List.mapM_nil] at hresults
      rw [← Option.some.inj hresults]
      rfl
  | cons item rest ih =>
      rw [List.mapM_cons, Option.bind_eq_bind, Option.bind_eq_some_iff] at hresults
      obtain ⟨result, hresult, hrest⟩ := hresults
      rw [Option.bind_eq_bind, Option.bind_eq_some_iff] at hrest
      obtain ⟨later, hlater, heq⟩ := hrest
      rw [← Option.some.inj heq, List.map_cons, hresult, ih hlater]
      rfl

/-- An IPv4 address in text is four octets. -/
theorem ipv4_octets {text : List Char} {number : Nat} (hnumber : ipv4? text = some number) :
    ∃ a b c d, (text.splitOn '.').map octet? = [some a, some b, some c, some d] ∧
      number = ((a * 256 + b) * 256 + c) * 256 + d := by
  rw [ipv4?] at hnumber
  split at hnumber
  · rename_i a b c d hoctets
    exact ⟨a, b, c, d, mapM_eq_some hoctets, (Option.some.inj hnumber).symm⟩
  · cases hnumber

theorem octet_of_mem {pieces : List (List Char)} {values : List Nat}
    (hpieces : pieces.map octet? = values.map some) :
    (∀ piece ∈ pieces, piece ≠ [] ∧ piece.all isDigit = true) ∧ ∀ value ∈ values, value < 256 := by
  constructor
  · intro piece hpiece
    have hmem : octet? piece ∈ values.map some := hpieces ▸ List.mem_map_of_mem hpiece
    obtain ⟨value, -, hvalue⟩ := List.mem_map.mp hmem
    exact (octet_lt hvalue.symm).2
  · intro value hvalue
    have hmem : some value ∈ pieces.map octet? := hpieces ▸ List.mem_map_of_mem hvalue
    obtain ⟨piece, -, hpiece⟩ := List.mem_map.mp hmem
    exact (octet_lt hpiece).1

theorem ipv4_lt {text : List Char} {number : Nat} (hnumber : ipv4? text = some number) :
    number < 2 ^ 32 := by
  obtain ⟨a, b, c, d, hoctets, rfl⟩ := ipv4_octets hnumber
  have hvalues := (@octet_of_mem _ [a, b, c, d] hoctets).2
  have ha := hvalues a (by simp)
  have hb := hvalues b (by simp)
  have hc := hvalues c (by simp)
  have hd := hvalues d (by simp)
  omega

theorem foldl_group_lt (text : List Char) (hdigits : ∀ c ∈ text, digitValue c < 16)
    (value : Nat) : text.foldl (fun value c => value * 16 + digitValue c) value <
      (value + 1) * 16 ^ text.length := by
  induction text generalizing value with
  | nil => simp
  | cons c text ih =>
      have hc := hdigits c List.mem_cons_self
      have hrest := ih (fun c hmem => hdigits c (List.mem_cons_of_mem _ hmem))
        (value * 16 + digitValue c)
      calc
        _ < (value * 16 + digitValue c + 1) * 16 ^ text.length := hrest
        _ ≤ ((value + 1) * 16) * 16 ^ text.length := Nat.mul_le_mul_right _ (by omega)
        _ = (value + 1) * 16 ^ (text.length + 1) := by rw [Nat.pow_succ']; ac_rfl

theorem group_lt {text : List Char} {group : Nat} (hgroup : group? text = some group) :
    group < 65536 ∧ text ≠ [] ∧ ∀ c ∈ text, digitValue c < 16 := by
  rw [group?] at hgroup
  split at hgroup
  · rename_i htext
    obtain ⟨hne, hlength, hdigits⟩ := htext
    have hdigits : ∀ c ∈ text, digitValue c < 16 := by simpa using hdigits
    refine ⟨?_, hne, hdigits⟩
    rw [← Option.some.inj hgroup]
    calc
      _ < (0 + 1) * 16 ^ text.length := foldl_group_lt text hdigits 0
      _ ≤ (0 + 1) * 16 ^ 4 :=
          Nat.mul_le_mul_left _ (Nat.pow_le_pow_right (by omega) hlength)
      _ = 65536 := rfl
  · cases hgroup

/-- A text with a character that is no digit is no group. -/
theorem group_eq_none {text : List Char} {c : Char} (hc : c ∈ text)
    (hdigit : 16 ≤ digitValue c) : group? text = none := by
  rw [group?, if_neg]
  rintro ⟨-, -, hdigits⟩
  have hlt : digitValue c < 16 := by
    simpa using List.all_eq_true.mp hdigits c hc
  omega

theorem octet_toDigits {value : Nat} (hvalue : value < 256) :
    octet? (Nat.toDigits 10 value) = some value ∧ '.' ∉ Nat.toDigits 10 value := by
  have hall : ∀ value < 256,
      octet? (Nat.toDigits 10 value) = some value ∧ '.' ∉ Nat.toDigits 10 value := by
    decide +kernel
  exact hall value hvalue

/-- Four numbers with dots between. -/
def dotted (a b c d : Nat) : List Char :=
  Nat.toDigits 10 a ++ '.' :: (Nat.toDigits 10 b ++ '.' :: (Nat.toDigits 10 c ++
    '.' :: Nat.toDigits 10 d))

theorem ipv4_dotted {a b c d : Nat} (ha : a < 256) (hb : b < 256) (hc : c < 256) (hd : d < 256) :
    ipv4? (dotted a b c d) = some (((a * 256 + b) * 256 + c) * 256 + d) := by
  have hsplit : (dotted a b c d).splitOn '.' =
      [Nat.toDigits 10 a, Nat.toDigits 10 b, Nat.toDigits 10 c, Nat.toDigits 10 d] := by
    rw [dotted, List.splitOn_append_cons_self_of_not_mem (octet_toDigits ha).2,
      List.splitOn_append_cons_self_of_not_mem (octet_toDigits hb).2,
      List.splitOn_append_cons_self_of_not_mem (octet_toDigits hc).2,
      List.splitOn_eq_singleton (octet_toDigits hd).2]
  rw [ipv4?, hsplit]
  simp only [List.mapM_cons, List.mapM_nil, (octet_toDigits ha).1, (octet_toDigits hb).1,
    (octet_toDigits hc).1, (octet_toDigits hd).1, Option.pure_def, Option.bind_eq_bind,
    Option.bind_some]

/-- Two groups spelled as such. -/
theorem two_pieces {tail : List Char} {high low : Nat}
    (hgroups : (tail.splitOn ':').map group? = [some high, some low]) :
    ∃ first second, tail.splitOn ':' = [first, second] ∧ group? first = some high ∧
      group? second = some low := by
  have hlength : (tail.splitOn ':').length = 2 := by
    rw [← List.length_map group?, hgroups]
    rfl
  obtain ⟨first, second, hpieces⟩ := List.length_eq_two.mp hlength
  rw [hpieces] at hgroups
  obtain ⟨hfirst, hrest⟩ := List.cons.inj hgroups
  exact ⟨first, second, hpieces, hfirst, (List.cons.inj hrest).1⟩

theorem groups_of_two {tail : List Char} {high low : Nat}
    (hgroups : (tail.splitOn ':').map group? = [some high, some low]) :
    groups? (tail.splitOn ':') = some [high, low] := by
  obtain ⟨first, second, hpieces, hfirst, hsecond⟩ := two_pieces hgroups
  rw [hpieces, groups?, hfirst, groups?, hsecond]
  exact nofun

theorem withoutZone_of_notMem {address : List Char} (hpercent : '%' ∉ address) :
    withoutZone? address = some address := by
  have hwhole : address.takeWhile (· ≠ '%') = address := by
    rw [List.takeWhile_eq_self_iff]
    intro c hc
    exact decide_eq_true (fun heq => hpercent (heq ▸ hc))
  rw [withoutZone?, hwhole]
  rw [List.drop_length]

end IpText

end MailPanel
