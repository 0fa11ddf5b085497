import Mathlib.Data.List.Nodup
import Mathlib.Data.List.Sort
import MailPanel.McpTrash

/-
Listing and searching a folder page by page: every matching message is on one page.
-/

namespace MailPanel

namespace Mcp

namespace Paging

variable {Content : Type}

/-- A message as the server brings it; `Content` is what a summary is made of. -/
structure FetchedMessage (Content : Type) where
  uid : Nat
  content : Content
deriving DecidableEq, Repr

structure MessageSummary (Content : Type) where
  ref : Trash.MessageRef
  content : Content
deriving DecidableEq, Repr

def summarize (folder uidValidity : String) (message : FetchedMessage Content) :
    MessageSummary Content :=
  ⟨⟨folder, uidValidity, message.uid⟩, message.content⟩

structure MessageListPage (Content : Type) where
  folder : String
  uidValidity : String
  messages : List (MessageSummary Content)
  nextBeforeUid : Option Nat
deriving DecidableEq, Repr

/-- One page of what a search found, newest first. The UID to go on from is the last of the
page, and is given only where something is left out. -/
def pageFromUids (fetch : List Nat → List (FetchedMessage Content)) (folder uidValidity : String)
    (uids : List Nat) (limit : Nat) (beforeUid : Option Nat) : MessageListPage Content :=
  let sorted := (uids.filter fun uid => beforeUid.all fun before => uid < before).mergeSort
    fun a b => b ≤ a
  let page := sorted.take limit
  let messages := if page.isEmpty then [] else (fetch page).map (summarize folder uidValidity)
  { folder := folder
    uidValidity := uidValidity
    messages := messages.mergeSort fun a b => b.ref.uid ≤ a.ref.uid
    nextBeforeUid := if sorted.length > page.length then page.getLast? else none }

/-- A folder that nobody changes, as its server answers for it: each search may bring the
matching UIDs in another order, and each FETCH the messages. -/
structure UnchangedFolder (Content : Type) where
  path : String
  uidValidity : String
  messages : List (FetchedMessage Content)
  distinct : (messages.map FetchedMessage.uid).Nodup
  matching : FetchedMessage Content → Bool
  search : Nat → List Nat
  searched : ∀ request, (search request).Perm
    ((messages.filter matching).map FetchedMessage.uid)
  fetch : Nat → List Nat → List (FetchedMessage Content)
  fetched : ∀ request uids, (fetch request uids).Perm
    (messages.filter fun message => message.uid ∈ uids)

namespace UnchangedFolder

variable (folder : UnchangedFolder Content)

def listMessages (request limit : Nat) (beforeUid : Option Nat) : MessageListPage Content :=
  pageFromUids (folder.fetch request) folder.path folder.uidValidity (folder.search request) limit
    beforeUid

/-- Pages are asked for until one has no next one; `none` if that does not come in time. -/
def follow (limit : Nat) : Nat → Nat → Option Nat → Option (List (MessageSummary Content))
  | 0, _, _ => none
  | fuel + 1, request, beforeUid =>
      let page := folder.listMessages request limit beforeUid
      match page.nextBeforeUid with
      | none => some page.messages
      | some last => (follow limit fuel (request + 1) (some last)).map (page.messages ++ ·)

/-- The matching UIDs, newest first. -/
def newestFirst : List Nat :=
  ((folder.messages.filter folder.matching).map FetchedMessage.uid).mergeSort fun a b => b ≤ a

/-- The summaries of the messages with these UIDs. -/
def summaries (uids : List Nat) : List (MessageSummary Content) :=
  (folder.messages.filter fun message => message.uid ∈ uids).map
    (summarize folder.path folder.uidValidity)

end UnchangedFolder

/- Lists in decreasing order -/

theorem pairwise_sorted {Item : Type} (key : Item → Nat) (items : List Item) :
    (items.mergeSort fun a b => key b ≤ key a).Pairwise fun a b => key b ≤ key a := by
  have hsorted : (items.mergeSort fun a b => key b ≤ key a).Pairwise
      fun a b => decide (key b ≤ key a) = true := by
    apply List.pairwise_mergeSort
    · intro a b c hab hbc
      rw [decide_eq_true_eq] at hab hbc ⊢
      exact Nat.le_trans hbc hab
    · intro a b
      rw [Bool.or_eq_true, decide_eq_true_eq, decide_eq_true_eq]
      exact Nat.le_total (key b) (key a)
  simpa using hsorted

/-- A list without duplicates has one decreasing order. -/
theorem sorted_eq_of_perm {uids decreasing : List Nat} (hperm : uids.Perm decreasing)
    (hdecreasing : decreasing.Pairwise (· > ·)) :
    (uids.mergeSort fun a b => b ≤ a) = decreasing := by
  have hantisymm : ∀ a b, a ∈ uids.mergeSort (fun a b => b ≤ a) → b ∈ decreasing →
      b ≤ a → a ≤ b → a = b := fun a b _ _ hab hba => Nat.le_antisymm hba hab
  exact List.Perm.eq_of_pairwise hantisymm (pairwise_sorted id uids) (hdecreasing.imp Nat.le_of_lt)
    ((List.mergeSort_perm uids _).trans hperm)

/-- What lies below the last of a page is what the page leaves out, so the next page begins
exactly where this one ends. -/
theorem filter_lt_getLast {uids : List Nat} (hdecreasing : uids.Pairwise (· > ·)) {limit last : Nat}
    (hlast : (uids.take limit).getLast? = some last) :
    (uids.filter fun uid => uid < last) = uids.drop limit := by
  have hpairs := hdecreasing
  rw [← List.take_append_drop limit uids, List.pairwise_append] at hpairs
  obtain ⟨htaken, -, hacross⟩ := hpairs
  have hmem : last ∈ uids.take limit := List.mem_of_getLast? hlast
  have hnone : ((uids.take limit).filter fun uid => uid < last) = [] := by
    rw [List.filter_eq_nil_iff]
    intro uid huid
    obtain ⟨before, hbefore⟩ := List.getLast?_eq_some_iff.mp hlast
    rw [hbefore, List.pairwise_append] at htaken
    rw [hbefore] at huid
    rcases List.mem_append.mp huid with hold | hsame
    · have hgt := htaken.2.2 uid hold last List.mem_cons_self
      rw [decide_eq_true_eq]
      omega
    · rw [List.mem_singleton.mp hsame, decide_eq_true_eq]
      exact Nat.lt_irrefl last
  have hall : ((uids.drop limit).filter fun uid => uid < last) = uids.drop limit := by
    rw [List.filter_eq_self]
    intro uid huid
    exact decide_eq_true (hacross last hmem uid huid)
  conv_lhs => rw [← List.take_append_drop limit uids]
  rw [List.filter_append, hnone, hall, List.nil_append]

namespace UnchangedFolder

variable (folder : UnchangedFolder Content)

/-- The matching UIDs that a cursor leaves to be listed. -/
def remaining (beforeUid : Option Nat) : List Nat :=
  folder.newestFirst.filter fun uid => beforeUid.all fun before => uid < before

theorem newestFirst_decreasing : folder.newestFirst.Pairwise (· > ·) := by
  have hnodup : folder.newestFirst.Nodup := by
    rw [newestFirst, (List.mergeSort_perm _ _).nodup_iff]
    exact folder.distinct.sublist (List.filter_sublist.map _)
  have hsorted : folder.newestFirst.Pairwise fun a b => b ≤ a := pairwise_sorted id _
  apply (hsorted.and hnodup).imp
  rintro a b ⟨hle, hne⟩
  omega

theorem remaining_decreasing (beforeUid : Option Nat) :
    (folder.remaining beforeUid).Pairwise (· > ·) :=
  folder.newestFirst_decreasing.sublist List.filter_sublist

theorem sorted_search (request : Nat) (beforeUid : Option Nat) :
    (((folder.search request).filter fun uid => beforeUid.all fun before => uid < before).mergeSort
      fun a b => b ≤ a) = folder.remaining beforeUid := by
  apply sorted_eq_of_perm _ (folder.remaining_decreasing beforeUid)
  apply List.Perm.filter
  exact (folder.searched request).trans (List.mergeSort_perm _ _).symm

theorem uid_summaries {uids : List Nat} (hnodup : uids.Nodup)
    (hsub : ∀ uid ∈ uids, uid ∈ folder.newestFirst) :
    ((folder.summaries uids).map fun message => message.ref.uid).Perm uids := by
  have huids : ((folder.summaries uids).map fun message => message.ref.uid) =
      (folder.messages.filter fun message => message.uid ∈ uids).map FetchedMessage.uid := by
    rw [summaries, List.map_map]
    rfl
  rw [huids, List.perm_ext_iff_of_nodup
    (folder.distinct.sublist (List.filter_sublist.map _)) hnodup]
  intro uid
  constructor
  · intro huid
    obtain ⟨message, hmessage, rfl⟩ := List.mem_map.mp huid
    exact of_decide_eq_true (List.mem_filter.mp hmessage).2
  · intro huid
    have hlisted := hsub uid huid
    rw [newestFirst, List.mem_mergeSort] at hlisted
    obtain ⟨message, hmessage, rfl⟩ := List.mem_map.mp hlisted
    exact List.mem_map_of_mem (List.mem_filter.mpr
      ⟨(List.mem_filter.mp hmessage).1, decide_eq_true huid⟩)

theorem summaries_nil : folder.summaries [] = [] := by
  simp [summaries]

/-- The messages of a page, in the order of its UIDs: those below the given one, the newest
first, as many as the page holds. -/
theorem listMessages_messages (request limit : Nat) (beforeUid : Option Nat) :
    let page := (folder.remaining beforeUid).take limit
    ((folder.listMessages request limit beforeUid).messages.map fun message => message.ref.uid) =
        page ∧
      (folder.listMessages request limit beforeUid).messages.Perm (folder.summaries page) := by
  intro page
  have hdecreasing : page.Pairwise (· > ·) :=
    (folder.remaining_decreasing beforeUid).sublist (List.take_sublist _ _)
  have hnodup : page.Nodup := hdecreasing.imp Nat.ne_of_gt
  have hsub : ∀ uid ∈ page, uid ∈ folder.newestFirst := fun uid huid =>
    (List.mem_filter.mp (List.mem_of_mem_take huid)).1
  have hperm : (folder.listMessages request limit beforeUid).messages.Perm
      (folder.summaries page) := by
    rw [listMessages, pageFromUids]
    dsimp only
    rw [folder.sorted_search]
    refine (List.mergeSort_perm _ _).trans ?_
    split
    · rename_i hempty
      have hnone : page = [] := List.isEmpty_iff.mp hempty
      rw [hnone, summaries_nil]
    · exact (folder.fetched request _).map _
  refine ⟨?_, hperm⟩
  have hsorted : ((folder.listMessages request limit beforeUid).messages.map fun message =>
      message.ref.uid).Pairwise fun a b => b ≤ a := by
    rw [listMessages, pageFromUids, List.pairwise_map]
    exact pairwise_sorted (fun message : MessageSummary Content => message.ref.uid) _
  have hantisymm : ∀ a b, a ∈ (folder.listMessages request limit beforeUid).messages.map
      (fun message => message.ref.uid) → b ∈ page → b ≤ a → a ≤ b → a = b :=
    fun a b _ _ hab hba => Nat.le_antisymm hba hab
  exact List.Perm.eq_of_pairwise hantisymm hsorted (hdecreasing.imp Nat.le_of_lt)
    ((hperm.map _).trans (folder.uid_summaries hnodup hsub))

theorem listMessages_next (request limit : Nat) (beforeUid : Option Nat) :
    (folder.listMessages request limit beforeUid).nextBeforeUid =
      if (folder.remaining beforeUid).length > ((folder.remaining beforeUid).take limit).length then
        ((folder.remaining beforeUid).take limit).getLast?
      else none := by
  rw [listMessages, pageFromUids]
  dsimp only
  rw [folder.sorted_search]

/-- The cursor of a page that is not the last leaves what the page leaves out. -/
theorem remaining_next {limit last : Nat} {beforeUid : Option Nat}
    (hlast : ((folder.remaining beforeUid).take limit).getLast? = some last) :
    folder.remaining (some last) = (folder.remaining beforeUid).drop limit := by
  rw [← filter_lt_getLast (folder.remaining_decreasing beforeUid) hlast]
  have hbelow : ∀ uid, uid < last → beforeUid.all (fun before => uid < before) = true := by
    intro uid hlt
    have hmem := List.mem_filter.mp (List.mem_of_mem_take (List.mem_of_getLast? hlast))
    cases beforeUid with
    | none => rfl
    | some before =>
        have hbefore : last < before := of_decide_eq_true hmem.2
        exact decide_eq_true (Nat.lt_trans hlt hbefore)
  rw [remaining, remaining, List.filter_filter]
  apply List.filter_congr
  intro uid _
  rw [Option.all_some]
  by_cases hlt : uid < last
  · rw [hbelow uid hlt, Bool.and_true]
  · rw [decide_eq_false hlt, Bool.false_and]

theorem summaries_append {first second : List Nat} (hapart : (first ++ second).Nodup) :
    (folder.summaries first ++ folder.summaries second).Perm
      (folder.summaries (first ++ second)) := by
  rw [summaries, summaries, summaries, ← List.map_append]
  apply List.Perm.map
  have hsplit := List.filter_append_perm (fun message => message.uid ∈ first)
    (folder.messages.filter fun message => message.uid ∈ first ++ second)
  rw [List.filter_filter, List.filter_filter] at hsplit
  refine List.Perm.trans (List.Perm.of_eq ?_) hsplit
  rw [List.nodup_append] at hapart
  congr 1
  · apply List.filter_congr
    intro message _
    by_cases hfirst : message.uid ∈ first
    · simp [hfirst]
    · simp [hfirst]
  · apply List.filter_congr
    intro message _
    by_cases hfirst : message.uid ∈ first
    · have hsecond : message.uid ∉ second := fun h => hapart.2.2 _ hfirst _ h rfl
      simp [hfirst, hsecond]
    · simp [hfirst]

/-- Pages that are asked for until none follows list what the first cursor left, once each. -/
theorem follow_eq (limit : Nat) (hlimit : 1 ≤ limit) (fuel request : Nat)
    (beforeUid : Option Nat) (hfuel : (folder.remaining beforeUid).length < fuel) :
    ∃ listed, folder.follow limit fuel request beforeUid = some listed ∧
      (listed.map fun message => message.ref.uid) = folder.remaining beforeUid ∧
      listed.Perm (folder.summaries (folder.remaining beforeUid)) := by
  induction fuel generalizing request beforeUid with
  | zero => exact absurd hfuel (Nat.not_lt_zero _)
  | succ fuel ih =>
      obtain ⟨huids, hmessages⟩ := folder.listMessages_messages request limit beforeUid
      have hnext := folder.listMessages_next request limit beforeUid
      rw [follow, hnext]
      by_cases hmore : (folder.remaining beforeUid).length >
          ((folder.remaining beforeUid).take limit).length
      · rw [if_pos hmore]
        rw [List.length_take] at hmore
        obtain ⟨last, hlast⟩ : ∃ last,
            ((folder.remaining beforeUid).take limit).getLast? = some last := by
          apply Option.ne_none_iff_exists'.mp
          rw [Ne, List.getLast?_eq_none_iff, List.take_eq_nil_iff]
          rintro (hzero | hnil)
          · omega
          · rw [hnil] at hmore
            exact absurd hmore (Nat.not_lt_zero _)
        have hrest := folder.remaining_next hlast
        obtain ⟨later, hfollow, hlater, hperm⟩ := ih (request + 1) (some last) (by
          rw [hrest, List.length_drop]
          omega)
        rw [hlast]
        dsimp only
        rw [hfollow]
        refine ⟨_, rfl, ?_, ?_⟩
        · rw [List.map_append, huids, hlater, hrest, List.take_append_drop]
        · rw [hrest] at hperm
          refine (hmessages.append hperm).trans ?_
          have hnodup : ((folder.remaining beforeUid).take limit ++
              (folder.remaining beforeUid).drop limit).Nodup := by
            rw [List.take_append_drop]
            exact (folder.remaining_decreasing beforeUid).imp Nat.ne_of_gt
          have happend := folder.summaries_append hnodup
          rw [List.take_append_drop] at happend
          exact happend
      · rw [if_neg hmore]
        have hwhole : (folder.remaining beforeUid).take limit = folder.remaining beforeUid := by
          rw [List.length_take] at hmore
          exact List.take_of_length_le (by omega)
        rw [hwhole] at huids hmessages
        exact ⟨_, rfl, huids, hmessages⟩

/-- From no cursor on, enough requests end the list, which has every matching message once, by
decreasing UID. A cursor is the last number that was listed, and the next page goes on below it,
so that the numbers do not have to be consecutive. -/
theorem follow_lists_all (limit : Nat) (hlimit : 1 ≤ limit) (fuel : Nat)
    (hfuel : (folder.messages.filter folder.matching).length < fuel) :
    ∃ listed, folder.follow limit fuel 0 none = some listed ∧
      (listed.map fun message => message.ref.uid).Pairwise (· > ·) ∧
      listed.Perm ((folder.messages.filter folder.matching).map
        (summarize folder.path folder.uidValidity)) := by
  have hall : folder.remaining none = folder.newestFirst := by
    rw [remaining, List.filter_eq_self]
    exact fun _ _ => rfl
  have hlength : folder.newestFirst.length = (folder.messages.filter folder.matching).length := by
    rw [newestFirst, List.length_mergeSort, List.length_map]
  obtain ⟨listed, hfollow, huids, hperm⟩ := folder.follow_eq limit hlimit fuel 0 none (by
    rw [hall, hlength]
    exact hfuel)
  rw [hall] at huids hperm
  refine ⟨listed, hfollow, ?_, hperm.trans (List.Perm.of_eq ?_)⟩
  · rw [huids]
    exact folder.newestFirst_decreasing
  · rw [summaries]
    congr 1
    apply List.filter_congr
    intro message hmessage
    rw [Bool.eq_iff_iff, decide_eq_true_eq, newestFirst, List.mem_mergeSort]
    constructor
    · intro hlisted
      obtain ⟨other, hother, hsame⟩ := List.mem_map.mp hlisted
      obtain ⟨hmem, hmatches⟩ := List.mem_filter.mp hother
      rw [← List.inj_on_of_nodup_map folder.distinct hmem hmessage hsame]
      exact hmatches
    · intro hmatches
      exact List.mem_map_of_mem (List.mem_filter.mpr ⟨hmessage, hmatches⟩)

end UnchangedFolder

/- Three messages, two of them unread, that the server finds in no order. -/
namespace ThreeMessages

def folder : UnchangedFolder Bool where
  path := "INBOX"
  uidValidity := "7"
  messages := [⟨4, false⟩, ⟨6, true⟩, ⟨9, false⟩]
  distinct := by decide
  matching := fun message => !message.content
  search := fun request => if request = 0 then [4, 9] else [9, 4]
  searched := by
    intro request
    split
    · decide
    · decide
  fetch := fun _ uids => [⟨4, false⟩, ⟨6, true⟩, ⟨9, false⟩].filter fun message =>
    message.uid ∈ uids
  fetched := fun _ _ => List.Perm.refl _

/-- Two matching messages out of three, listed one at a time, while the server finds them in a
different order for each request. -/
theorem onePerPage_lists_all :
    ∃ listed, folder.follow 1 3 0 none = some listed ∧
      (listed.map fun message => message.ref.uid).Pairwise (· > ·) ∧
      listed.Perm ((folder.messages.filter folder.matching).map
        (summarize folder.path folder.uidValidity)) :=
  folder.follow_lists_all 1 (by decide) 3 (by decide)

end ThreeMessages

end Paging

end Mcp

end MailPanel
