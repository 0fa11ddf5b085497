import MailPanel.AliasesService
import Mathlib.Order.BooleanAlgebra.Set

/-
Where the mail of an alias goes while it is edited.  The recipients that are new are added
one by one, then the others are deleted; each call may throw, and what it leaves then is
what the alias has at that moment.
-/

namespace MailPanel

namespace Aliases

section Edit

variable (toLowerCase fold : String → String)

/-- The recipients, as the mail server tells them apart. -/
def folded (recipients : List String) : Set String :=
  {other | ∃ recipient ∈ recipients, fold recipient = other}

/-- The recipients of an alias, on all of its lines. -/
def recipientsOf (entries : List PostfixVirtualEntry) (aliasAddress : String) : Set String :=
  {other | ∃ entry ∈ entries, toLowerCase entry.address = aliasAddress ∧
    other ∈ folded fold entry.recipients}

/-- What the two calls do to the recipients of their alias; a call that throws does nothing. -/
structure DmsDriver.Folds {State : Type} (driver : DmsDriver State) : Prop where
  added : ∀ state aliasAddress recipient next,
    driver.addAlias state aliasAddress recipient = .ok next →
      recipientsOf toLowerCase fold (driver.listAliases next) (toLowerCase aliasAddress) =
        recipientsOf toLowerCase fold (driver.listAliases state) (toLowerCase aliasAddress) ∪
          {fold recipient}
  deleted : ∀ state aliasAddress recipient next,
    driver.deleteAlias state aliasAddress recipient = .ok next →
      recipientsOf toLowerCase fold (driver.listAliases next) (toLowerCase aliasAddress) =
        recipientsOf toLowerCase fold (driver.listAliases state) (toLowerCase aliasAddress) \
          {fold recipient}

/-- What an edit may leave: all of the old recipients or all of the requested ones, and
exactly the requested ones when it returns. -/
structure Kept (old requested left : Set String) (returned : Bool) : Prop where
  all : old ⊆ left ∨ requested ⊆ left
  nonempty : old.Nonempty → left.Nonempty
  exact : returned = true → left = requested

/-- However the mail server goes on, and wherever a call throws, the alias is left with all
of its old recipients or with all of the given ones, and with exactly those when the edit
returns. -/
def KeepsMail (entries : List PostfixVirtualEntry) (address : String)
    (recipients : List String) : Prop :=
  ∀ (State : Type) (driver : DmsDriver State), driver.Folds toLowerCase fold →
    ∀ state, driver.listAliases state = entries →
      Kept (recipientsOf toLowerCase fold entries (toLowerCase address))
        (folded fold recipients)
        (recipientsOf toLowerCase fold
          (driver.listAliases (update toLowerCase driver state address recipients).1)
          (toLowerCase address))
        (update toLowerCase driver state address recipients).2.isOk

/-- No recipient that the edit deletes is a requested one in other letters, and the line that
it reads has all the recipients of the alias that are not requested. -/
def Separate (entries : List PostfixVirtualEntry) (address : String)
    (recipients : List String) : Prop :=
  ∀ existing, findEntry toLowerCase entries address = some existing →
    detectsAliasLoop toLowerCase existing.address recipients
      (toAliasMap toLowerCase entries) = false →
    (∀ deleted ∈ existing.recipients, deleted ∉ recipients →
      fold deleted ∉ folded fold recipients) ∧
    recipientsOf toLowerCase fold entries (toLowerCase address) ⊆
      folded fold existing.recipients ∪ folded fold recipients

end Edit

section Calls

variable {toLowerCase fold : String → String} {State : Type} {driver : DmsDriver State}

theorem folded_cons (recipient : String) (recipients : List String) :
    folded fold (recipient :: recipients) = {fold recipient} ∪ folded fold recipients := by
  ext other
  simp only [folded, Set.mem_ofPred_eq, Set.mem_union, Set.mem_singleton_iff, List.mem_cons]
  constructor
  · rintro ⟨member, rfl | hmember, rfl⟩
    · exact Or.inl rfl
    · exact Or.inr ⟨member, hmember, rfl⟩
  · rintro (rfl | ⟨member, hmember, rfl⟩)
    · exact ⟨recipient, Or.inl rfl, rfl⟩
    · exact ⟨member, Or.inr hmember, rfl⟩

theorem folded_nil : folded fold [] = ∅ := by
  ext other
  simp [folded]

/-- Additions take nothing away, and each of them adds its recipient, whatever the list was
before. Nothing is said of a recipient twice in the list, which the driver may store once or
twice. -/
theorem forEach_addAlias (hfolds : driver.Folds toLowerCase fold) (aliasAddress : String)
    (recipients : List String) (state : State) :
    recipientsOf toLowerCase fold (driver.listAliases state) (toLowerCase aliasAddress) ⊆
        recipientsOf toLowerCase fold
          (driver.listAliases (forEach driver.addAlias aliasAddress recipients state).1)
          (toLowerCase aliasAddress) ∧
      ((forEach driver.addAlias aliasAddress recipients state).2 = none →
        recipientsOf toLowerCase fold
            (driver.listAliases (forEach driver.addAlias aliasAddress recipients state).1)
            (toLowerCase aliasAddress) =
          recipientsOf toLowerCase fold (driver.listAliases state) (toLowerCase aliasAddress) ∪
            folded fold recipients) := by
  induction recipients generalizing state with
  | nil =>
      refine ⟨subset_rfl, fun _ => ?_⟩
      rw [folded_nil, Set.union_empty]
      rfl
  | cons recipient recipients ih =>
      rw [forEach]
      cases hadd : driver.addAlias state aliasAddress recipient with
      | error error => exact ⟨subset_rfl, fun hnone => by cases hnone⟩
      | ok next =>
          have hadded := hfolds.added state aliasAddress recipient next hadd
          obtain ⟨hkept, hall⟩ := ih next
          rw [hadded] at hkept hall
          refine ⟨Set.subset_union_left.trans hkept, fun hnone => ?_⟩
          rw [folded_cons, ← Set.union_assoc]
          exact hall hnone

/-- Deletions take away no other recipient, and each of them takes away its own. -/
theorem forEach_deleteAlias (hfolds : driver.Folds toLowerCase fold) (aliasAddress : String)
    (recipients : List String) (state : State) :
    recipientsOf toLowerCase fold (driver.listAliases state) (toLowerCase aliasAddress) \
          folded fold recipients ⊆
        recipientsOf toLowerCase fold
          (driver.listAliases (forEach driver.deleteAlias aliasAddress recipients state).1)
          (toLowerCase aliasAddress) ∧
      ((forEach driver.deleteAlias aliasAddress recipients state).2 = none →
        recipientsOf toLowerCase fold
            (driver.listAliases (forEach driver.deleteAlias aliasAddress recipients state).1)
            (toLowerCase aliasAddress) =
          recipientsOf toLowerCase fold (driver.listAliases state) (toLowerCase aliasAddress) \
            folded fold recipients) := by
  induction recipients generalizing state with
  | nil =>
      refine ⟨Set.sdiff_subset, fun _ => ?_⟩
      rw [folded_nil, Set.sdiff_empty]
      rfl
  | cons recipient recipients ih =>
      rw [forEach]
      cases hdelete : driver.deleteAlias state aliasAddress recipient with
      | error error => exact ⟨Set.sdiff_subset, fun hnone => by cases hnone⟩
      | ok next =>
          have hdeleted := hfolds.deleted state aliasAddress recipient next hdelete
          obtain ⟨hkept, hall⟩ := ih next
          rw [hdeleted, Set.sdiff_sdiff, ← folded_cons] at hkept hall
          exact ⟨hkept, hall⟩

theorem mem_folded {recipients : List String} {recipient : String}
    (hrecipient : recipient ∈ recipients) : fold recipient ∈ folded fold recipients :=
  ⟨recipient, hrecipient, rfl⟩

theorem folded_nonempty {recipients : List String} (hne : recipients ≠ []) :
    (folded fold recipients).Nonempty := by
  obtain ⟨recipient, hrecipient⟩ := List.exists_mem_of_ne_nil recipients hne
  exact ⟨fold recipient, mem_folded hrecipient⟩

/-- The line that an edit reads is one of the alias. -/
theorem findEntry_spec {entries : List PostfixVirtualEntry} {address : String}
    {existing : PostfixVirtualEntry}
    (hfind : findEntry toLowerCase entries address = some existing) :
    toLowerCase existing.address = toLowerCase address ∧
      folded fold existing.recipients ⊆
        recipientsOf toLowerCase fold entries (toLowerCase address) := by
  have hkey : toLowerCase existing.address = toLowerCase address := by
    simpa using List.find?_some hfind
  exact ⟨hkey, fun other hother => ⟨existing, List.mem_of_find?_eq_some hfind, hkey, hother⟩⟩

theorem isSome_findEntry {entries : List PostfixVirtualEntry} {address : String}
    (hlisted : (recipientsOf toLowerCase fold entries (toLowerCase address)).Nonempty) :
    ∃ existing, findEntry toLowerCase entries address = some existing := by
  obtain ⟨other, entry, hentry, hkey, -⟩ := hlisted
  rw [← Option.isSome_iff_exists, findEntry, List.find?_isSome]
  exact ⟨entry, hentry, decide_eq_true hkey⟩

end Calls

section Sets

variable {fold : String → String} {existing recipients : List String} {old : Set String}

/-- What is new, and what was there already, are what is requested and what was there. -/
theorem union_folded_difference (hread : folded fold existing ⊆ old) :
    old ∪ folded fold (difference recipients existing) = old ∪ folded fold recipients := by
  refine Set.Subset.antisymm ?_ ?_
  · refine Set.union_subset_union_right old ?_
    rintro _ ⟨recipient, hrecipient, rfl⟩
    exact mem_folded (mem_difference.mp hrecipient).1
  · refine Set.union_subset Set.subset_union_left ?_
    rintro _ ⟨recipient, hrecipient, rfl⟩
    by_cases hknown : recipient ∈ existing
    · exact Or.inl (hread (mem_folded hknown))
    · exact Or.inr (mem_folded (mem_difference.mpr ⟨hrecipient, hknown⟩))

theorem folded_subset_sdiff
    (hspared : ∀ deleted ∈ existing, deleted ∉ recipients →
      fold deleted ∉ folded fold recipients) :
    folded fold recipients ⊆
      (old ∪ folded fold recipients) \ folded fold (difference existing recipients) := by
  intro other hother
  refine ⟨Or.inr hother, ?_⟩
  rintro ⟨deleted, hdeleted, rfl⟩
  obtain ⟨hexisting, hnot⟩ := mem_difference.mp hdeleted
  exact hspared deleted hexisting hnot hother

theorem sdiff_subset_folded
    (hread : old ⊆ folded fold existing ∪ folded fold recipients) :
    (old ∪ folded fold recipients) \ folded fold (difference existing recipients) ⊆
      folded fold recipients := by
  rintro other ⟨hold | hrequested, hnot⟩
  · rcases hread hold with ⟨recipient, hrecipient, rfl⟩ | hrequested
    · by_contra hmissing
      refine hnot (mem_folded (mem_difference.mpr ⟨hrecipient, fun hmem => ?_⟩))
      exact hmissing (mem_folded hmem)
    · exact hrequested
  · exact hrequested

end Sets

theorem Kept.of_subset {old requested left : Set String} (h : old ⊆ left) :
    Kept old requested left false where
  all := Or.inl h
  nonempty := fun hold => hold.mono h
  exact := fun hreturned => absurd hreturned Bool.false_ne_true

section Update

variable {toLowerCase fold : String → String} {State : Type} {driver : DmsDriver State}
  {entries : List PostfixVirtualEntry} {address : String} {recipients : List String}

theorem kept_of_separate (hrecipients : recipients ≠ [])
    (hseparate : Separate toLowerCase fold entries address recipients) :
    KeepsMail toLowerCase fold entries address recipients := by
  intro State driver hfolds state hentries
  rw [update]
  cases assertLocalAccountManagementSupported driver state with
  | some error =>
      rw [← hentries]
      exact .of_subset subset_rfl
  | none =>
      dsimp only
      rw [hentries]
      cases hfind : findEntry toLowerCase entries address with
      | none =>
          rw [← hentries]
          exact .of_subset subset_rfl
      | some existing =>
          dsimp only
          by_cases hloop : detectsAliasLoop toLowerCase existing.address recipients
              (toAliasMap toLowerCase entries) = true
          · rw [if_pos hloop, ← hentries]
            exact .of_subset subset_rfl
          rw [if_neg hloop]
          obtain ⟨hspared, hread⟩ := hseparate existing hfind (Bool.eq_false_iff.mpr hloop)
          obtain ⟨hkey, hown⟩ := @findEntry_spec _ fold _ _ _ hfind
          have hadds := forEach_addAlias hfolds existing.address
            (difference recipients existing.recipients) state
          rw [hkey, hentries] at hadds
          cases hadd : forEach driver.addAlias existing.address
              (difference recipients existing.recipients) state with
          | mk added failure =>
              rw [hadd] at hadds
              cases failure with
              | some error => exact .of_subset hadds.1
              | none =>
                  have hadded := (hadds.2 rfl).trans (union_folded_difference hown)
                  have hdeletes := forEach_deleteAlias hfolds existing.address
                    (difference existing.recipients recipients) added
                  rw [hkey, hadded] at hdeletes
                  dsimp only
                  cases hdelete : forEach driver.deleteAlias existing.address
                      (difference existing.recipients recipients) added with
                  | mk next failure =>
                      rw [hdelete] at hdeletes
                      have hrequested := (folded_subset_sdiff hspared).trans hdeletes.1
                      have hnonempty := (folded_nonempty hrecipients).mono hrequested
                      cases failure with
                      | some error => exact ⟨Or.inr hrequested, fun _ => hnonempty, nofun⟩
                      | none =>
                          have hexact := (hdeletes.2 rfl).trans
                            (Set.Subset.antisymm (sdiff_subset_folded hread)
                              (folded_subset_sdiff hspared))
                          dsimp only
                          split
                          · exact ⟨Or.inr hrequested, fun _ => hnonempty, nofun⟩
                          · exact ⟨Or.inr hrequested, fun _ => hnonempty, fun _ => hexact⟩

end Update

/-- A mail server whose calls all take effect, for examples: the table is its state,
addresses are compared in lower case, and a recipient is found again by whatever folding the
driver has. -/
def tableDriver (toLowerCase fold : String → String) :
    DmsDriver (List PostfixVirtualEntry) where
  localAccountManagement := fun _ => ⟨true, none⟩
  localDomains := fun _ => []
  listAliases := fun entries => entries
  addAlias := fun entries aliasAddress recipient =>
    let split := FakeDmsDriver.splitAliasForFixture toLowerCase aliasAddress
    .ok (entries ++ [{
      address := aliasAddress
      isCatchAll := aliasAddress.toList.head? = some '@'
      localPart := split.1
      domain := split.2
      recipients := [recipient] }])
  deleteAlias := fun entries aliasAddress recipient =>
    .ok ((entries.map fun entry =>
      if toLowerCase entry.address = toLowerCase aliasAddress then
        { entry with
          recipients := entry.recipients.filter fun other => fold other ≠ fold recipient }
      else entry).filter fun entry => !entry.recipients.isEmpty)

theorem tableDriver_listAliases (toLowerCase fold : String → String)
    (entries : List PostfixVirtualEntry) :
    (tableDriver toLowerCase fold).listAliases entries = entries :=
  rfl

theorem tableDriver_supported (toLowerCase fold : String → String)
    (entries : List PostfixVirtualEntry) :
    assertLocalAccountManagementSupported (tableDriver toLowerCase fold) entries = none :=
  rfl

theorem tableDriver_folds (toLowerCase fold : String → String) :
    (tableDriver toLowerCase fold).Folds toLowerCase fold where
  added := by
    intro state aliasAddress recipient next hadd
    obtain rfl := Except.ok.inj hadd
    ext other
    constructor
    · rintro ⟨entry, hentry, hkey, hother⟩
      rcases List.mem_append.mp hentry with hold | hnew
      · exact Or.inl ⟨entry, hold, hkey, hother⟩
      · obtain rfl := List.mem_singleton.mp hnew
        obtain ⟨member, hmember, rfl⟩ := hother
        obtain rfl := List.mem_singleton.mp hmember
        exact Or.inr rfl
    · rintro (⟨entry, hentry, hkey, hother⟩ | rfl)
      · exact ⟨entry, List.mem_append_left _ hentry, hkey, hother⟩
      · exact ⟨_, List.mem_append_right _ (List.mem_singleton_self _), rfl,
          mem_folded (List.mem_singleton_self recipient)⟩
  deleted := by
    intro state aliasAddress recipient next hdelete
    obtain rfl := Except.ok.inj hdelete
    ext other
    constructor
    · rintro ⟨entry, hentry, hkey, member, hmember, rfl⟩
      obtain ⟨old, hold, rfl⟩ := List.mem_map.mp (List.mem_of_mem_filter hentry)
      by_cases hown : toLowerCase old.address = toLowerCase aliasAddress
      · rw [if_pos hown] at hmember
        obtain ⟨hmember, hne⟩ := List.mem_filter.mp hmember
        exact ⟨⟨old, hold, hown, mem_folded hmember⟩, of_decide_eq_true hne⟩
      · rw [if_neg hown] at hkey
        exact absurd hkey hown
    · rintro ⟨⟨old, hold, hown, member, hmember, rfl⟩, hne⟩
      have hleft : member ∈ old.recipients.filter fun other => fold other ≠ fold recipient :=
        List.mem_filter.mpr ⟨hmember, decide_eq_true hne⟩
      refine ⟨{ old with recipients := _ }, List.mem_filter.mpr ⟨List.mem_map.mpr
        ⟨old, hold, if_pos hown⟩, ?_⟩, hown, mem_folded hleft⟩
      rw [Bool.not_eq_true', List.isEmpty_eq_false_iff]
      exact List.ne_nil_of_mem hleft

section Edited

variable {toLowerCase fold : String → String} {entries : List PostfixVirtualEntry}
  {address : String} {recipients : List String}

theorem forEach_eq_none {State : Type} {call : State → String → String → Except AppError State}
    (hcall : ∀ state aliasAddress recipient, ∃ next, call state aliasAddress recipient = .ok next)
    (aliasAddress : String) (recipients : List String) (state : State) :
    (forEach call aliasAddress recipients state).2 = none := by
  induction recipients generalizing state with
  | nil => rfl
  | cons recipient recipients ih =>
      obtain ⟨next, hnext⟩ := hcall state aliasAddress recipient
      rw [forEach, hnext]
      exact ih next

/-- Where no call throws, the requested recipients are added to the old ones, and those that
the edit deletes are taken away, in whatever letters they stand; the edit returns unless none
are left. -/
theorem update_tableDriver {existing : PostfixVirtualEntry}
    (hfind : findEntry toLowerCase entries address = some existing)
    (hloop : detectsAliasLoop toLowerCase existing.address recipients
      (toAliasMap toLowerCase entries) = false) :
    recipientsOf toLowerCase fold
        (update toLowerCase (tableDriver toLowerCase fold) entries address recipients).1
        (toLowerCase address) =
      (recipientsOf toLowerCase fold entries (toLowerCase address) ∪ folded fold recipients) \
        folded fold (difference existing.recipients recipients) ∧
      ((recipientsOf toLowerCase fold
          (update toLowerCase (tableDriver toLowerCase fold) entries address recipients).1
          (toLowerCase address)).Nonempty →
        (update toLowerCase (tableDriver toLowerCase fold) entries address recipients).2.isOk =
          true) := by
  obtain ⟨hkey, hown⟩ := @findEntry_spec _ fold _ _ _ hfind
  have hfolds := tableDriver_folds toLowerCase fold
  have hadds := forEach_addAlias hfolds existing.address
    (difference recipients existing.recipients) entries
  have hadd : (forEach (tableDriver toLowerCase fold).addAlias existing.address
      (difference recipients existing.recipients) entries).2 = none :=
    forEach_eq_none (fun _ _ _ => ⟨_, rfl⟩) _ _ _
  rw [update, tableDriver_supported, tableDriver_listAliases]
  dsimp only
  rw [hfind]
  dsimp only
  rw [hloop, if_neg Bool.false_ne_true]
  cases hadded : forEach (tableDriver toLowerCase fold).addAlias existing.address
      (difference recipients existing.recipients) entries with
  | mk added failure =>
      rw [hadded] at hadd hadds
      obtain rfl : failure = none := hadd
      have hdeletes := forEach_deleteAlias hfolds existing.address
        (difference existing.recipients recipients) added
      have hdelete : (forEach (tableDriver toLowerCase fold).deleteAlias existing.address
          (difference existing.recipients recipients) added).2 = none :=
        forEach_eq_none (fun _ _ _ => ⟨_, rfl⟩) _ _ _
      dsimp only
      cases hdeleted : forEach (tableDriver toLowerCase fold).deleteAlias existing.address
          (difference existing.recipients recipients) added with
      | mk next failure =>
          rw [hdeleted] at hdelete hdeletes
          obtain rfl : failure = none := hdelete
          have hleft := hdeletes.2 rfl
          rw [hadds.2 rfl, hkey] at hleft
          rw [← union_folded_difference hown]
          dsimp only
          rw [getByAddress, tableDriver_listAliases]
          cases hlast : findEntry toLowerCase next existing.address with
          | none =>
              refine ⟨hleft, fun hnonempty => ?_⟩
              rw [← hkey] at hnonempty
              obtain ⟨entry, hentry⟩ := isSome_findEntry hnonempty
              exact absurd (hlast.symm.trans hentry) nofun
          | some entry => exact ⟨hleft, fun _ => rfl⟩

theorem separate_of_keepsMail
    (hkeeps : KeepsMail toLowerCase fold entries address recipients) :
    Separate toLowerCase fold entries address recipients := by
  intro existing hfind hloop
  have hkept := hkeeps _ _ (tableDriver_folds toLowerCase fold) entries rfl
  obtain ⟨hleft, hreturned⟩ := @update_tableDriver _ fold _ _ _ _ hfind hloop
  obtain ⟨hkey, hown⟩ := @findEntry_spec _ fold _ _ _ hfind
  rw [tableDriver_listAliases] at hkept
  rw [hleft] at hkept hreturned
  have hspared : ∀ deleted ∈ existing.recipients, deleted ∉ recipients →
      fold deleted ∉ folded fold recipients := by
    intro deleted hexisting hnot hrequested
    have hdeleted : fold deleted ∈ folded fold (difference existing.recipients recipients) :=
      mem_folded (mem_difference.mpr ⟨hexisting, hnot⟩)
    rcases hkept.all with hall | hall
    · exact (hall (hown (mem_folded hexisting))).2 hdeleted
    · exact (hall hrequested).2 hdeleted
  refine ⟨hspared, fun other hother => ?_⟩
  by_contra hmissing
  rw [Set.mem_union, not_or] at hmissing
  have hstays : other ∈ (recipientsOf toLowerCase fold entries (toLowerCase address) ∪
      folded fold recipients) \ folded fold (difference existing.recipients recipients) := by
    refine ⟨Or.inl hother, ?_⟩
    rintro ⟨deleted, hdeleted, rfl⟩
    exact hmissing.1 (mem_folded (mem_difference.mp hdeleted).1)
  rw [hkept.exact (hreturned ⟨other, hstays⟩)] at hstays
  exact hmissing.2 hstays

/-- An edit keeps mail exactly when it deletes no requested recipient in other letters, and the
line that it reads has all the recipients that are to go. What is to be added and removed is
compared letter by letter, while the mail server does not tell upper case from lower. -/
theorem keepsMail_iff (toLowerCase fold : String → String) (entries : List PostfixVirtualEntry)
    (address : String) {recipients : List String} (hrecipients : recipients ≠ []) :
    KeepsMail toLowerCase fold entries address recipients ↔
      Separate toLowerCase fold entries address recipients := by
  constructor
  · exact separate_of_keepsMail
  · exact kept_of_separate hrecipients

end Edited

/- Letters in two cases. -/
namespace TwoCases

def lower (text : String) : String := String.ofList (text.toList.map Char.toLower)

def entries : List PostfixVirtualEntry :=
  [⟨"sales@example.com", false, "sales", "example.com", ["ann@example.net", "bob@example.net"]⟩]

/-- One recipient is replaced by another one, who is added before the first is removed. -/
theorem bob_to_eve_keeps : KeepsMail lower lower entries "Sales@example.com"
    ["ann@example.net", "eve@example.net"] := by
  refine (keepsMail_iff lower lower entries "Sales@example.com" (List.cons_ne_nil _ _)).mpr ?_
  intro existing hfind _
  have hfirst : findEntry lower entries "Sales@example.com" = some ⟨"sales@example.com", false,
      "sales", "example.com", ["ann@example.net", "bob@example.net"]⟩ := by decide +kernel
  obtain rfl := Option.some.inj (hfirst.symm.trans hfind)
  refine ⟨?_, ?_⟩
  · simp only [folded, Set.mem_ofPred_eq]
    decide +kernel
  · rintro other ⟨entry, hentry, -, hother⟩
    obtain rfl := List.mem_singleton.mp hentry
    exact Or.inl hother

/-- The recipient is asked for in other letters: it is there already for the mail server, which
adds nothing, and then it is deleted as one that was not asked for. -/
theorem ann_in_other_letters : ¬∀ (toLowerCase fold : String → String)
    (entries : List PostfixVirtualEntry) (address : String) (recipients : List String),
    recipients ≠ [] → KeepsMail toLowerCase fold entries address recipients := by
  intro hclaim
  have hkept := hclaim lower lower entries "sales@example.com"
    ["Ann@example.net", "bob@example.net"] (List.cons_ne_nil _ _) _ _
    (tableDriver_folds lower lower) entries rfl
  have hleft : (update lower (tableDriver lower lower) entries "sales@example.com"
      ["Ann@example.net", "bob@example.net"]).1 =
        [⟨"sales@example.com", false, "sales", "example.com", ["bob@example.net"]⟩] := by
    decide +kernel
  rw [tableDriver_listAliases, hleft] at hkept
  have hlost : lower "ann@example.net" ∉ recipientsOf lower lower
      [⟨"sales@example.com", false, "sales", "example.com", ["bob@example.net"]⟩]
      (lower "sales@example.com") := by
    simp only [recipientsOf, folded, Set.mem_ofPred_eq]
    decide +kernel
  have hold : lower "ann@example.net" ∈
      recipientsOf lower lower entries (lower "sales@example.com") := by
    simp only [recipientsOf, folded, Set.mem_ofPred_eq]
    decide +kernel
  have hrequested : lower "ann@example.net" ∈
      folded lower ["Ann@example.net", "bob@example.net"] := by
    simp only [folded, Set.mem_ofPred_eq]
    decide +kernel
  rcases hkept.all with hall | hall
  · exact hlost (hall hold)
  · exact hlost (hall hrequested)

end TwoCases

end Aliases

end MailPanel
