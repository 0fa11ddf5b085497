import MailPanel.AliasesService
import MailPanel.RowTable
import MailPanel.StepRun

/-
How mail is forwarded: by every line of an address, or by the catch-all of its domain.  An
operation keeps resolution free of cycles exactly when none of its recipients leads to an
address that the written line covers.
-/

namespace MailPanel

namespace Aliases

open GraphWalk Relation StepRun

section Resolution

variable (toLowerCase : String → String)

/-- Some line of the address names the recipient. -/
def Lists (entries : List PostfixVirtualEntry) (address recipient : String) : Prop :=
  ∃ entry ∈ entries, toLowerCase entry.address = address ∧ recipient ∈ entry.recipients

def Listed (entries : List PostfixVirtualEntry) (address : String) : Prop :=
  ∃ recipient, Lists toLowerCase entries address recipient

/-- `@domain`, for an address of the domain. -/
def catchAll (address : String) : String :=
  String.ofList (address.toList.dropWhile (· ≠ '@'))

variable (isMailbox : String → Bool)

/-- One step of delivery. -/
def Resolves (entries : List PostfixVirtualEntry) (address other : String) : Prop :=
  ∃ recipient, toLowerCase recipient = other ∧
    (Lists toLowerCase entries address recipient ∨
      (¬ Listed toLowerCase entries address ∧ isMailbox address = false ∧
        Lists toLowerCase entries (catchAll address) recipient))

/-- The addresses that a line for the alias forwards. -/
def Covers (entries : List PostfixVirtualEntry) (aliasAddress address : String) : Prop :=
  address = aliasAddress ∨
    (catchAll address = aliasAddress ∧ ¬ Listed toLowerCase entries address ∧
      isMailbox address = false)

/-- No recipient is forwarded to an address that the written line covers. -/
def Unreached (entries : List PostfixVirtualEntry) (operation : Operation) : Prop :=
  ∀ recipient ∈ operation.recipients, ∀ address,
    Covers toLowerCase isMailbox entries (toLowerCase operation.aliasAddress) address →
      ¬ ReflTransGen (Resolves toLowerCase isMailbox entries) (toLowerCase recipient) address

/-- What the driver's calls do to the lines, as the mail server documents them: an addition
lists one recipient more for the address in lower case, and a deletion unlists that recipient of
that address and nothing else. A call that throws is bound to nothing. -/
structure DmsDriver.Documented {State : Type} (driver : DmsDriver State) : Prop where
  added : ∀ state aliasAddress recipient next,
    driver.addAlias state aliasAddress recipient = .ok next → ∀ address other,
      Lists toLowerCase (driver.listAliases next) address other ↔
        Lists toLowerCase (driver.listAliases state) address other ∨
          (address = toLowerCase aliasAddress ∧ other = recipient)
  deleted : ∀ state aliasAddress recipient next,
    driver.deleteAlias state aliasAddress recipient = .ok next → ∀ address other,
      (Lists toLowerCase (driver.listAliases next) address other →
        Lists toLowerCase (driver.listAliases state) address other) ∧
      (Lists toLowerCase (driver.listAliases state) address other →
        ¬ (address = toLowerCase aliasAddress ∧ other = recipient) →
          Lists toLowerCase (driver.listAliases next) address other)

/-- The lines of the mail server's file, as the panel reads them. -/
def fileLines {State : Type} (readFile : State → Option (List Char)) (state : State) :
    List PostfixVirtualEntry :=
  (parsePostfixVirtual toLowerCase ((readFile state).getD [])).entries

/-- What the mail server's two commands do to its file, read back through the panel's own
parser. It is the same contract as the driver's, said of the commands that the real driver runs,
and it is all that is assumed about the mail server. -/
structure CommandsDocumented {State : Type} (readFile : State → Option (List Char))
    (run : State → List String → Except AppError State) : Prop where
  added : ∀ state aliasAddress recipient next,
    run state ["setup", "alias", "add", aliasAddress, recipient] = .ok next → ∀ address other,
      Lists toLowerCase (fileLines toLowerCase readFile next) address other ↔
        Lists toLowerCase (fileLines toLowerCase readFile state) address other ∨
          (address = toLowerCase aliasAddress ∧ other = recipient)
  deleted : ∀ state aliasAddress recipient next,
    run state ["setup", "alias", "del", aliasAddress, recipient] = .ok next → ∀ address other,
      (Lists toLowerCase (fileLines toLowerCase readFile next) address other →
        Lists toLowerCase (fileLines toLowerCase readFile state) address other) ∧
      (Lists toLowerCase (fileLines toLowerCase readFile state) address other →
        ¬ (address = toLowerCase aliasAddress ∧ other = recipient) →
          Lists toLowerCase (fileLines toLowerCase readFile next) address other)

/-- The driver in use asks nothing more of the mail server than this: what it refuses by itself
leaves the file as it was, and anything else is one of the commands. -/
theorem realDmsDriver_documented {State : Type} (validators : Validators)
    (capability : State → Capability) (localDomains : State → List String)
    {readFile : State → Option (List Char)} {run : State → List String → Except AppError State}
    (hcommands : CommandsDocumented toLowerCase readFile run) :
    (realDmsDriver toLowerCase validators capability localDomains readFile run).Documented
      toLowerCase where
  added := by
    intro state aliasAddress recipient next hadd
    simp only [realDmsDriver] at hadd
    split at hadd
    · cases hadd
    · exact hcommands.added state aliasAddress recipient next hadd
  deleted := by
    intro state aliasAddress recipient next hdelete
    simp only [realDmsDriver] at hdelete
    split at hdelete
    · cases hdelete
    · exact hcommands.deleted state aliasAddress recipient next hdelete

/-- An alias is given recipients, and may lose others: every other address keeps its recipients,
nothing is listed for the alias that it did not have or was not given, and everything given is
listed. -/
structure Rewrites (entries next : List PostfixVirtualEntry) (aliasAddress : String)
    (recipients : List String) : Prop where
  other : ∀ address, address ≠ aliasAddress → ∀ recipient,
    Lists toLowerCase next address recipient ↔ Lists toLowerCase entries address recipient
  only : ∀ recipient, Lists toLowerCase next aliasAddress recipient →
    Lists toLowerCase entries aliasAddress recipient ∨ recipient ∈ recipients
  all : ∀ recipient ∈ recipients, Lists toLowerCase next aliasAddress recipient

end Resolution

section Rewriting

variable {toLowerCase : String → String} {isMailbox : String → Bool}
  {entries next : List PostfixVirtualEntry} {aliasAddress : String} {recipients : List String}

theorem Rewrites.listed_iff (h : Rewrites toLowerCase entries next aliasAddress recipients)
    {address : String} (hne : address ≠ aliasAddress) :
    Listed toLowerCase next address ↔ Listed toLowerCase entries address :=
  exists_congr fun recipient => h.other address hne recipient

theorem Rewrites.resolves_other (h : Rewrites toLowerCase entries next aliasAddress recipients)
    {address : String} (hcovers : ¬ Covers toLowerCase isMailbox entries aliasAddress address)
    (other : String) :
    Resolves toLowerCase isMailbox next address other ↔
      Resolves toLowerCase isMailbox entries address other := by
  have hne : address ≠ aliasAddress := fun heq => hcovers (Or.inl heq)
  by_cases hcatchAll : catchAll address = aliasAddress
  · have hoff : ∀ lines, (Listed toLowerCase lines address ↔
        Listed toLowerCase entries address) → ∀ recipient,
        ¬ (¬ Listed toLowerCase lines address ∧ isMailbox address = false ∧
          Lists toLowerCase lines (catchAll address) recipient) := by
      rintro lines hlisted recipient ⟨hnot, hmailbox, -⟩
      exact hcovers (Or.inr ⟨hcatchAll, fun hold => hnot (hlisted.mpr hold), hmailbox⟩)
    refine exists_congr fun recipient => and_congr_right fun _ => ?_
    rw [or_iff_left (hoff next (h.listed_iff hne) recipient),
      or_iff_left (hoff entries Iff.rfl recipient)]
    exact h.other address hne recipient
  · refine exists_congr fun recipient => and_congr_right fun _ => ?_
    rw [h.other address hne recipient, h.listed_iff hne, h.other _ hcatchAll recipient]

theorem Rewrites.resolves_covered (h : Rewrites toLowerCase entries next aliasAddress recipients)
    (hrecipients : recipients ≠ []) {address : String}
    (hcovers : Covers toLowerCase isMailbox entries aliasAddress address) {other : String}
    (hresolves : Resolves toLowerCase isMailbox next address other) :
    Resolves toLowerCase isMailbox entries address other ∨
      ∃ recipient ∈ recipients, toLowerCase recipient = other := by
  obtain ⟨recipient, hother, hresolves⟩ := hresolves
  by_cases heq : address = aliasAddress
  · subst heq
    have hlisted : Listed toLowerCase next address := by
      obtain ⟨first, hfirst⟩ := List.exists_mem_of_ne_nil recipients hrecipients
      exact ⟨first, h.all first hfirst⟩
    have hlists := hresolves.resolve_right fun hright => hright.1 hlisted
    rcases h.only recipient hlists with hold | hmem
    · exact Or.inl ⟨recipient, hother, Or.inl hold⟩
    · exact Or.inr ⟨recipient, hmem, hother⟩
  · obtain ⟨hcatchAll, hnot, hmailbox⟩ := hcovers.resolve_left heq
    rcases hresolves with hlists | ⟨-, -, hlists⟩
    · exact absurd ⟨recipient, (h.other address heq recipient).mp hlists⟩ hnot
    · rw [hcatchAll] at hlists
      rcases h.only recipient hlists with hold | hmem
      · exact Or.inl ⟨recipient, hother, Or.inr ⟨hnot, hmailbox, hcatchAll ▸ hold⟩⟩
      · exact Or.inr ⟨recipient, hmem, hother⟩

theorem Rewrites.resolves_new (h : Rewrites toLowerCase entries next aliasAddress recipients)
    {address : String} (hcovers : Covers toLowerCase isMailbox entries aliasAddress address)
    {recipient : String} (hrecipient : recipient ∈ recipients) :
    Resolves toLowerCase isMailbox next address (toLowerCase recipient) := by
  have hlists := h.all recipient hrecipient
  by_cases heq : address = aliasAddress
  · exact ⟨recipient, rfl, Or.inl (heq ▸ hlists)⟩
  · obtain ⟨hcatchAll, hnot, hmailbox⟩ := hcovers.resolve_left heq
    refine ⟨recipient, rfl, Or.inr ⟨fun hlisted => hnot ((h.listed_iff heq).mp hlisted),
      hmailbox, ?_⟩⟩
    rw [hcatchAll]
    exact hlists

/-- Rewriting a line keeps resolution acyclic exactly when no new recipient leads back to it. -/
theorem Rewrites.acyclic_iff (h : Rewrites toLowerCase entries next aliasAddress recipients)
    (hrecipients : recipients ≠ []) (hacyclic : Acyclic (Resolves toLowerCase isMailbox entries)) :
    Acyclic (Resolves toLowerCase isMailbox next) ↔
      ∀ recipient ∈ recipients, ∀ address,
        Covers toLowerCase isMailbox entries aliasAddress address →
          ¬ ReflTransGen (Resolves toLowerCase isMailbox entries) (toLowerCase recipient)
            address := by
  have hother : ∀ address other, ¬ Covers toLowerCase isMailbox entries aliasAddress address →
      (Resolves toLowerCase isMailbox next address other ↔
        Resolves toLowerCase isMailbox entries address other) :=
    fun address other hcovers => h.resolves_other hcovers other
  have hold : ∀ address other, Covers toLowerCase isMailbox entries aliasAddress address →
      Resolves toLowerCase isMailbox next address other →
        Resolves toLowerCase isMailbox entries address other ∨
          ∃ recipient ∈ recipients, toLowerCase recipient = other :=
    fun address other hcovers hresolves => h.resolves_covered hrecipients hcovers hresolves
  have hnew : ∀ address other, Covers toLowerCase isMailbox entries aliasAddress address →
      (∃ recipient ∈ recipients, toLowerCase recipient = other) →
        Resolves toLowerCase isMailbox next address other := by
    rintro address other hcovers ⟨recipient, hrecipient, rfl⟩
    exact h.resolves_new hcovers hrecipient
  rw [acyclic_iff_unreached hacyclic hother hold hnew]
  constructor
  · intro hunreached recipient hrecipient address hcovers
    exact hunreached _ address ⟨recipient, hrecipient, rfl⟩ hcovers
  · rintro hunreached other address ⟨recipient, hrecipient, rfl⟩ hcovers
    exact hunreached recipient hrecipient address hcovers

end Rewriting

section Service

variable {toLowerCase : String → String} {isMailbox : String → Bool} {State : Type}
  {driver : DmsDriver State}

theorem DmsDriver.Documented.added_all (hdriver : driver.Documented toLowerCase)
    {aliasAddress : String} {recipients : List String} {state next : State}
    (hadded : forEach driver.addAlias aliasAddress recipients state = (next, none))
    (address other : String) :
    Lists toLowerCase (driver.listAliases next) address other ↔
      Lists toLowerCase (driver.listAliases state) address other ∨
        (address = toLowerCase aliasAddress ∧ other ∈ recipients) := by
  induction recipients generalizing state with
  | nil =>
      cases hadded
      simp
  | cons recipient recipients ih =>
      rw [forEach] at hadded
      split at hadded
      · cases hadded
      · rename_i middle hcall
        rw [ih hadded, hdriver.added _ _ _ _ hcall, List.mem_cons]
        tauto

theorem DmsDriver.Documented.deleted_all (hdriver : driver.Documented toLowerCase)
    {aliasAddress : String} {recipients : List String} {state next : State}
    (hdeleted : forEach driver.deleteAlias aliasAddress recipients state = (next, none))
    (address other : String) :
    (Lists toLowerCase (driver.listAliases next) address other →
      Lists toLowerCase (driver.listAliases state) address other) ∧
    (Lists toLowerCase (driver.listAliases state) address other →
      ¬ (address = toLowerCase aliasAddress ∧ other ∈ recipients) →
        Lists toLowerCase (driver.listAliases next) address other) := by
  induction recipients generalizing state with
  | nil =>
      cases hdeleted
      exact ⟨id, fun hlists _ => hlists⟩
  | cons recipient recipients ih =>
      rw [forEach] at hdeleted
      split at hdeleted
      · cases hdeleted
      · rename_i middle hcall
        obtain ⟨hback, hkept⟩ := hdriver.deleted _ _ _ _ hcall address other
        obtain ⟨hback', hkept'⟩ := ih hdeleted
        refine ⟨fun hlists => hback (hback' hlists), ?_⟩
        intro hlists hnot
        refine hkept' (hkept hlists ?_) ?_
        · rintro ⟨hsame, rfl⟩
          exact hnot ⟨hsame, List.mem_cons_self⟩
        · rintro ⟨hsame, hmem⟩
          exact hnot ⟨hsame, List.mem_cons_of_mem recipient hmem⟩

theorem create_rewrites (hdriver : driver.Documented toLowerCase) {state : State}
    {aliasAddress : String} {recipients : List String} {created : AliasSummary}
    (hcreate : (create toLowerCase driver state aliasAddress recipients).2 = .ok created) :
    Rewrites toLowerCase (driver.listAliases state)
      (driver.listAliases (create toLowerCase driver state aliasAddress recipients).1)
      (toLowerCase aliasAddress) recipients := by
  have hadded : forEach driver.addAlias aliasAddress recipients state =
      ((create toLowerCase driver state aliasAddress recipients).1, none) := by
    revert hcreate
    rw [create]
    split
    · intro hcreate
      cases hcreate
    · split
      · intro hcreate
        cases hcreate
      · split
        · intro hcreate
          cases hcreate
        · rename_i hforEach
          split
          · intro hcreate
            cases hcreate
          · intro _
            exact hforEach
  have hlists := hdriver.added_all hadded
  refine ⟨?_, ?_, ?_⟩
  · intro address hne recipient
    rw [hlists, or_iff_left fun hright => hne hright.1]
  · intro recipient hnext
    exact ((hlists _ _).mp hnext).imp_right And.right
  · intro recipient hrecipient
    exact (hlists _ _).mpr (Or.inr ⟨rfl, hrecipient⟩)

theorem update_rewrites (hdriver : driver.Documented toLowerCase) {state : State}
    {address : String} {recipients : List String} {updated : AliasSummary}
    (hupdate : (update toLowerCase driver state address recipients).2 = .ok updated) :
    Rewrites toLowerCase (driver.listAliases state)
      (driver.listAliases (update toLowerCase driver state address recipients).1)
      (toLowerCase address) recipients := by
  obtain ⟨existing, added, hfound, hadded, hdeleted⟩ : ∃ existing added,
      findEntry toLowerCase (driver.listAliases state) address = some existing ∧
      forEach driver.addAlias existing.address (difference recipients existing.recipients)
        state = (added, none) ∧
      forEach driver.deleteAlias existing.address (difference existing.recipients recipients)
        added = ((update toLowerCase driver state address recipients).1, none) := by
    revert hupdate
    rw [update]
    split
    · intro hupdate
      cases hupdate
    · split
      · intro hupdate
        cases hupdate
      · rename_i existing hfound
        split
        · intro hupdate
          cases hupdate
        · split
          · intro hupdate
            cases hupdate
          · rename_i added hadded
            split
            · intro hupdate
              cases hupdate
            · rename_i next hdeleted
              split
              · intro hupdate
                cases hupdate
              · intro _
                exact ⟨existing, added, hfound, hadded, hdeleted⟩
  have hsame : toLowerCase existing.address = toLowerCase address := by
    rw [findEntry] at hfound
    simpa using List.find?_some hfound
  have hexisting : ∀ recipient ∈ existing.recipients,
      Lists toLowerCase (driver.listAliases state) (toLowerCase address) recipient :=
    fun recipient hrecipient => ⟨existing, List.mem_of_find?_eq_some hfound, hsame, hrecipient⟩
  have hadded := hdriver.added_all hadded
  have hdeleted := hdriver.deleted_all hdeleted
  rw [hsame] at hadded hdeleted
  refine ⟨?_, ?_, ?_⟩
  · intro other hne recipient
    obtain ⟨hback, hkept⟩ := hdeleted other recipient
    constructor
    · intro hnext
      exact ((hadded other recipient).mp (hback hnext)).resolve_right fun hright =>
        hne hright.1
    · intro hlists
      exact hkept ((hadded other recipient).mpr (Or.inl hlists)) fun hright => hne hright.1
  · intro recipient hnext
    have hlists := (hadded _ recipient).mp ((hdeleted _ recipient).1 hnext)
    exact hlists.imp_right fun hright => (mem_difference.mp hright.2).1
  · intro recipient hrecipient
    refine (hdeleted _ recipient).2 ?_ fun hright => (mem_difference.mp hright.2).2 hrecipient
    by_cases hmem : recipient ∈ existing.recipients
    · exact (hadded _ recipient).mpr (Or.inl (hexisting recipient hmem))
    · exact (hadded _ recipient).mpr
        (Or.inr ⟨rfl, mem_difference.mpr ⟨hrecipient, hmem⟩⟩)

theorem perform_rewrites (hdriver : driver.Documented toLowerCase) {state : State}
    {operation : Operation} (hsucceeds : succeeds toLowerCase driver state operation = true) :
    operation.recipients ≠ [] ∧
      Rewrites toLowerCase (driver.listAliases state)
        (driver.listAliases (step toLowerCase driver state operation))
        (toLowerCase operation.aliasAddress) operation.recipients := by
  rw [succeeds, Bool.and_eq_true] at hsucceeds
  obtain ⟨hrecipients, hsucceeds⟩ := hsucceeds
  refine ⟨?_, ?_⟩
  · intro hnil
    rw [hnil] at hrecipients
    exact absurd hrecipients Bool.false_ne_true
  · split at hsucceeds
    · rename_i summary hok
      cases operation with
      | create aliasAddress recipients => exact create_rewrites hdriver hok
      | update address recipients => exact update_rewrites hdriver hok
    · exact absurd hsucceeds Bool.false_ne_true

/-- A run of operations that succeed never closes a cycle exactly when no operation's recipients
lead to an address that its own line covers. The loop check walks a map of the listed lines: it
knows no catch-all, and of several lines for one address only the last. -/
theorem stays_acyclic_iff (hdriver : driver.Documented toLowerCase) (start : State)
    (operations : List Operation)
    (hacyclic : Acyclic (Resolves toLowerCase isMailbox (driver.listAliases start)))
    (hsucceeds : Meets (step toLowerCase driver)
      (fun state operation => succeeds toLowerCase driver state operation = true)
      start operations) :
    Meets (step toLowerCase driver)
        (fun state operation => Acyclic (Resolves toLowerCase isMailbox
          (driver.listAliases (step toLowerCase driver state operation)))) start operations ↔
      Meets (step toLowerCase driver)
        (fun state operation => Unreached toLowerCase isMailbox (driver.listAliases state)
          operation) start operations := by
  induction operations generalizing start with
  | nil => exact Iff.rfl
  | cons operation operations ih =>
      obtain ⟨hfirst, hrest⟩ := hsucceeds
      obtain ⟨hrecipients, hrewrites⟩ := perform_rewrites hdriver hfirst
      have hstep := hrewrites.acyclic_iff hrecipients hacyclic
      constructor
      · rintro ⟨hnext, hmeets⟩
        exact ⟨hstep.mp hnext, (ih _ hnext hrest).mp hmeets⟩
      · rintro ⟨hunreached, hmeets⟩
        have hnext := hstep.mpr hunreached
        exact ⟨hnext, (ih _ hnext hrest).mpr hmeets⟩

/-- A map entry leads from one address to another. -/
def AliasMap.Forwards (toLowerCase : String → String) (aliasMap : AliasMap)
    (current other : String) : Prop :=
  ∃ recipient ∈ aliasMap.get current, toLowerCase recipient = other

theorem AliasMap.get_eq_nil {aliasMap : AliasMap} {key : String}
    (hkey : key ∉ aliasMap.map Prod.fst) : aliasMap.get key = [] := by
  have hnone : (aliasMap.reverse.find? fun pair => pair.1 = key) = none := by
    refine List.find?_eq_none.mpr ?_
    intro pair hpair heq
    exact hkey (List.mem_map.mpr ⟨pair, List.mem_reverse.mp hpair, of_decide_eq_true heq⟩)
  rw [AliasMap.get, hnone]
  rfl

section Walk

variable {aliasMap : AliasMap} {aliasAddress : String} {candidateRecipients : List String}
  {turns : Nat}

theorem AliasMap.next_eq_nil (node : String) (hnode : node ∉ aliasMap.map Prod.fst) :
    (aliasMap.get node).reverse = [] := by
  rw [AliasMap.get_eq_nil hnode]
  rfl

theorem AliasMap.turns_eq : aliasMap.turns candidateRecipients =
    candidateRecipients.reverse.length +
      pending (fun current => (aliasMap.get current).reverse) (aliasMap.map Prod.fst) [] := by
  rw [AliasMap.turns, List.length_reverse, pending]
  simp [List.map_map, Function.comp_def]

theorem walk_candidates_iff (hturns : aliasMap.turns candidateRecipients ≤ turns) :
    walk toLowerCase (fun current => (aliasMap.get current).reverse) (toLowerCase aliasAddress)
        turns [] candidateRecipients.reverse = true ↔
      ∃ candidate ∈ candidateRecipients, ReflTransGen (aliasMap.Forwards toLowerCase)
        (toLowerCase candidate) (toLowerCase aliasAddress) := by
  have hforwards : Follows toLowerCase (fun current => (aliasMap.get current).reverse) =
      aliasMap.Forwards toLowerCase := by
    funext current other
    refine propext (exists_congr fun recipient => ?_)
    rw [List.mem_reverse]
  rw [AliasMap.turns_eq] at hturns
  rw [walk_iff AliasMap.next_eq_nil turns [] _
    (fun node hnode => absurd hnode List.not_mem_nil) hturns, hforwards]
  exact exists_congr fun candidate => and_congr_left fun _ => List.mem_reverse

end Walk

/-- The loop ends, and finds the alias exactly when the map leads to it from a candidate, for
every map and all candidates, cyclic maps included. -/
theorem detectsAliasLoop_decides (toLowerCase : String → String) (aliasAddress : String)
    (candidateRecipients : List String) (aliasMap : AliasMap) :
    (∀ turns ≥ aliasMap.turns candidateRecipients,
      walkWithin toLowerCase (fun current => (aliasMap.get current).reverse)
          (toLowerCase aliasAddress) turns [] candidateRecipients.reverse =
        some (detectsAliasLoop toLowerCase aliasAddress candidateRecipients aliasMap)) ∧
    (detectsAliasLoop toLowerCase aliasAddress candidateRecipients aliasMap = true ↔
      ∃ candidate ∈ candidateRecipients, ReflTransGen (aliasMap.Forwards toLowerCase)
        (toLowerCase candidate) (toLowerCase aliasAddress)) := by
  constructor
  · intro turns hturns
    have hfuel : candidateRecipients.reverse.length +
        pending (fun current => (aliasMap.get current).reverse) (aliasMap.map Prod.fst) [] ≤
          turns := AliasMap.turns_eq ▸ hturns
    rw [walkWithin_eq AliasMap.next_eq_nil turns [] _ hfuel]
    refine congrArg some (Bool.eq_iff_iff.mpr ?_)
    rw [walk_candidates_iff hturns, detectsAliasLoop, walk_candidates_iff (Nat.le_refl _)]
  · exact walk_candidates_iff (Nat.le_refl _)

/-- What the walk through the map follows. -/
def MapEdge (toLowerCase : String → String) (entries : List PostfixVirtualEntry) :
    String → String → Prop :=
  Follows toLowerCase fun current => ((toAliasMap toLowerCase entries).get current).reverse

theorem detectsAliasLoop_iff {aliasAddress : String} {recipients : List String}
    {entries : List PostfixVirtualEntry} :
    detectsAliasLoop toLowerCase aliasAddress recipients (toAliasMap toLowerCase entries) = true ↔
      ∃ recipient ∈ recipients, ReflTransGen (MapEdge toLowerCase entries)
        (toLowerCase recipient) (toLowerCase aliasAddress) := by
  have hedge : MapEdge toLowerCase entries =
      (toAliasMap toLowerCase entries).Forwards toLowerCase := by
    funext current other
    refine propext (exists_congr fun recipient => ?_)
    rw [List.mem_reverse]
  rw [hedge]
  exact walk_candidates_iff (Nat.le_refl _)

theorem mem_get {entries : List PostfixVirtualEntry} {address recipient : String}
    (hmem : recipient ∈ (toAliasMap toLowerCase entries).get address) :
    Lists toLowerCase entries address recipient := by
  rw [AliasMap.get] at hmem
  cases hfind : (toAliasMap toLowerCase entries).reverse.find? fun pair => pair.1 = address with
  | none =>
      rw [hfind] at hmem
      exact absurd hmem List.not_mem_nil
  | some pair =>
      rw [hfind] at hmem
      have hpair := List.mem_reverse.mp (List.mem_of_find?_eq_some hfind)
      obtain ⟨entry, hentry, rfl⟩ := List.mem_map.mp hpair
      exact ⟨entry, hentry, by simpa using List.find?_some hfind, hmem⟩

/-- What is refused would have closed a cycle. -/
theorem not_unreached_of_detected {entries : List PostfixVirtualEntry} {operation : Operation}
    (hdetected : detectsAliasLoop toLowerCase operation.aliasAddress operation.recipients
      (toAliasMap toLowerCase entries) = true) :
    ¬ Unreached toLowerCase isMailbox entries operation := by
  obtain ⟨recipient, hrecipient, hpath⟩ := detectsAliasLoop_iff.mp hdetected
  intro hunreached
  refine hunreached recipient hrecipient _ (Or.inl rfl) (ReflTransGen.mono ?_ _ _ hpath)
  rintro address _ ⟨next, hnext, rfl⟩
  exact ⟨next, rfl, Or.inl (mem_get (List.mem_reverse.mp hnext))⟩

/-- No address has two lines, and no line is a catch-all. -/
structure Plain (toLowerCase : String → String) (entries : List PostfixVirtualEntry) : Prop where
  nodup : (entries.map fun entry => toLowerCase entry.address).Nodup
  exact : ∀ entry ∈ entries, ∀ address, toLowerCase entry.address ≠ catchAll address

theorem Plain.mem_get {entries : List PostfixVirtualEntry} (hplain : Plain toLowerCase entries)
    {address recipient : String} (hlists : Lists toLowerCase entries address recipient) :
    recipient ∈ (toAliasMap toLowerCase entries).get address := by
  obtain ⟨entry, hentry, rfl, hrecipient⟩ := hlists
  have hpair : (toLowerCase entry.address, entry.recipients) ∈ toAliasMap toLowerCase entries :=
    List.mem_map_of_mem hentry
  have hkeys : ((toAliasMap toLowerCase entries).map Prod.fst).Nodup := by
    rw [toAliasMap, List.map_map]
    exact hplain.nodup
  rw [AliasMap.get]
  cases hfind : (toAliasMap toLowerCase entries).reverse.find? fun pair =>
      pair.1 = toLowerCase entry.address with
  | none =>
      have hnot := List.find?_eq_none.mp hfind _ (List.mem_reverse.mpr hpair)
      exact absurd (decide_eq_true rfl) hnot
  | some pair =>
      have hkey : pair.1 = toLowerCase entry.address := by simpa using List.find?_some hfind
      have hmem := List.mem_reverse.mp (List.mem_of_find?_eq_some hfind)
      rw [RowTable.eq_of_key_eq hkeys hmem hpair hkey]
      exact hrecipient

/-- On a plain table the walk sees all there is, and what is let through is harmless. -/
theorem Plain.unreached {entries : List PostfixVirtualEntry} (hplain : Plain toLowerCase entries)
    {operation : Operation} (hexact : ∀ address, catchAll address ≠
      toLowerCase operation.aliasAddress)
    (hundetected : detectsAliasLoop toLowerCase operation.aliasAddress operation.recipients
      (toAliasMap toLowerCase entries) = false) :
    Unreached toLowerCase isMailbox entries operation := by
  intro recipient hrecipient address hcovers hpath
  have heq : address = toLowerCase operation.aliasAddress :=
    hcovers.resolve_right fun hright => hexact address hright.1
  subst heq
  have hdetected : detectsAliasLoop toLowerCase operation.aliasAddress operation.recipients
      (toAliasMap toLowerCase entries) = true := by
    refine detectsAliasLoop_iff.mpr
      ⟨recipient, hrecipient, ReflTransGen.mono ?_ _ _ hpath⟩
    rintro node _ ⟨next, rfl, hlists⟩
    refine ⟨next, List.mem_reverse.mpr (hplain.mem_get ?_), rfl⟩
    rcases hlists with hlists | ⟨-, -, ⟨entry, hentry, hcatchAll, -⟩⟩
    · exact hlists
    · exact absurd hcatchAll (hplain.exact entry hentry node)
  rw [hundetected] at hdetected
  exact Bool.false_ne_true hdetected

end Service

namespace FakeDmsDriver

variable {toLowerCase : String → String} {validators : Validators}
  {aliases next : List PostfixVirtualEntry} {aliasAddress recipient : String}

theorem addAlias_lists (hadd : addAlias toLowerCase validators aliases aliasAddress recipient =
      .ok next) (address other : String) :
    Lists toLowerCase next address other ↔
      Lists toLowerCase aliases address other ∨
        (address = toLowerCase aliasAddress ∧ other = recipient) := by
  rw [addAlias] at hadd
  split at hadd
  · cases hadd
  · split at hadd
    · rename_i existing hfind
      have hmem := List.mem_of_find?_eq_some hfind
      have haddress : existing.address = aliasAddress := by simpa using List.find?_some hfind
      split at hadd
      · rename_i hrecipient
        cases hadd
        refine (or_iff_left_of_imp ?_).symm
        rintro ⟨rfl, rfl⟩
        exact ⟨existing, hmem, congrArg toLowerCase haddress, hrecipient⟩
      · cases hadd
        constructor
        · rintro ⟨entry, hentry, hsame, hother⟩
          obtain ⟨old, hold, rfl⟩ := List.mem_map.mp hentry
          split at hsame
          · rename_i heq
            rw [if_pos heq] at hother
            rcases List.mem_append.mp hother with hother | hother
            · exact Or.inl ⟨old, hold, hsame, hother⟩
            · exact Or.inr ⟨by rw [← hsame, heq], List.mem_singleton.mp hother⟩
          · rename_i hne
            rw [if_neg hne] at hother
            exact Or.inl ⟨old, hold, hsame, hother⟩
        · rintro (⟨old, hold, hsame, hother⟩ | ⟨rfl, rfl⟩)
          · refine ⟨_, List.mem_map_of_mem hold, ?_, ?_⟩
            · split
              · exact hsame
              · exact hsame
            · split
              · exact List.mem_append_left _ hother
              · exact hother
          · refine ⟨_, List.mem_map_of_mem hmem, ?_, ?_⟩
            · rw [if_pos haddress]
              exact congrArg toLowerCase haddress
            · rw [if_pos haddress]
              exact List.mem_append_right _ (List.mem_singleton_self _)
    · cases hadd
      constructor
      · rintro ⟨entry, hentry, hsame, hother⟩
        rcases List.mem_append.mp hentry with hentry | hentry
        · exact Or.inl ⟨entry, hentry, hsame, hother⟩
        · obtain rfl := List.mem_singleton.mp hentry
          exact Or.inr ⟨hsame.symm, List.mem_singleton.mp hother⟩
      · rintro (⟨old, hold, hsame, hother⟩ | ⟨rfl, rfl⟩)
        · exact ⟨old, List.mem_append_left _ hold, hsame, hother⟩
        · exact ⟨_, List.mem_append_right _ (List.mem_singleton_self _), rfl,
            List.mem_singleton_self _⟩

theorem deleteAlias_lists (hdelete : deleteAlias validators aliases aliasAddress recipient =
      .ok next) (address other : String) :
    (Lists toLowerCase next address other → Lists toLowerCase aliases address other) ∧
      (Lists toLowerCase aliases address other →
        ¬ (address = toLowerCase aliasAddress ∧ other = recipient) →
          Lists toLowerCase next address other) := by
  simp only [deleteAlias] at hdelete
  split at hdelete
  · cases hdelete
  · split at hdelete
    · cases hdelete
    · split at hdelete
      · cases hdelete
      · cases hdelete
        constructor
        · rintro ⟨entry, hentry, hsame, hother⟩
          obtain ⟨old, hold, rfl⟩ := List.mem_map.mp (List.mem_filter.mp hentry).1
          split at hsame
          · rename_i heq
            rw [if_pos heq] at hother
            exact ⟨old, hold, hsame, (List.mem_filter.mp hother).1⟩
          · rename_i hne
            rw [if_neg hne] at hother
            exact ⟨old, hold, hsame, hother⟩
        · rintro ⟨old, hold, hsame, hother⟩ hnot
          by_cases heq : old.address = aliasAddress
          · have hkept : other ∈ old.recipients.filter fun other => other ≠ recipient := by
              refine List.mem_filter.mpr ⟨hother, decide_eq_true fun hgone => hnot ⟨?_, hgone⟩⟩
              rw [← hsame, heq]
            refine ⟨_, List.mem_filter.mpr ⟨List.mem_map_of_mem hold, ?_⟩, ?_, ?_⟩
            · rw [if_pos heq]
              simpa using ⟨other, hother, by simpa using (List.mem_filter.mp hkept).2⟩
            · rw [if_pos heq]
              exact hsame
            · rw [if_pos heq]
              exact hkept
          · refine ⟨_, List.mem_filter.mpr ⟨List.mem_map_of_mem hold, ?_⟩, ?_, ?_⟩
            · rw [if_neg heq]
              simpa using List.ne_nil_of_mem hother
            · rw [if_neg heq]
              exact hsame
            · rw [if_neg heq]
              exact hother

end FakeDmsDriver

theorem fakeDmsDriver_documented (toLowerCase : String → String) (validators : Validators)
    (accountDomains : List String) :
    (fakeDmsDriver toLowerCase validators accountDomains).Documented toLowerCase where
  added := fun _ _ _ _ hadd address other => FakeDmsDriver.addAlias_lists hadd address other
  deleted := fun _ _ _ _ hdelete address other =>
    FakeDmsDriver.deleteAlias_lists hdelete address other

namespace MissedLoops

def lower (text : String) : String := String.ofList (text.toList.map Char.toLower)

def validators : Validators := ⟨fun _ => none, fun _ => none⟩

def driver : DmsDriver (List PostfixVirtualEntry) :=
  fakeDmsDriver lower validators ["example.com"]

theorem driver_listAliases (entries : List PostfixVirtualEntry) :
    driver.listAliases entries = entries :=
  rfl

def isMailbox (address : String) : Bool := address = "admin@example.com"

def read (content : String) : List PostfixVirtualEntry :=
  (parsePostfixVirtual lower content.toList).entries

/-- No line forwards what another line forwards to. Every resolution then ends after one line,
by its recipient or by the catch-all of the recipient's domain, so no address comes back to
itself. -/
theorem acyclic_of_ends {entries : List PostfixVirtualEntry}
    (hends : ∀ entry ∈ entries, ∀ recipient ∈ entry.recipients, ∀ other ∈ entries,
      lower other.address ≠ lower recipient ∧
        (isMailbox (lower recipient) = true ∨
          lower other.address ≠ catchAll (lower recipient))) :
    Acyclic (Resolves lower isMailbox entries) := by
  refine acyclic_of_flat ?_
  rintro node _ next ⟨recipient, rfl, hresolves⟩ ⟨_, _, hnext⟩
  obtain ⟨entry, hentry, -, hrecipient⟩ : ∃ entry ∈ entries, True ∧
      recipient ∈ entry.recipients := by
    rcases hresolves with ⟨entry, hentry, -, hrecipient⟩ | ⟨-, -, entry, hentry, -, hrecipient⟩
    · exact ⟨entry, hentry, trivial, hrecipient⟩
    · exact ⟨entry, hentry, trivial, hrecipient⟩
  rcases hnext with ⟨other, hother, hsame, -⟩ | ⟨-, hmailbox, other, hother, hcatchAll, -⟩
  · exact (hends entry hentry recipient hrecipient other hother).1 hsame
  · rcases (hends entry hentry recipient hrecipient other hother).2 with htrue | hne
    · exact Bool.false_ne_true (hmailbox.symm.trans htrue)
    · exact hne hcatchAll

def lines : List PostfixVirtualEntry :=
  [⟨"postmaster@example.com", false, "postmaster", "example.com", ["admin@example.com"]⟩,
    ⟨"@example.com", true, "", "example.com", ["admin@example.com"]⟩]

def operations : List Operation :=
  [.create "info@example.org" ["postmaster@example.com"],
    .update "Info@example.org" ["admin@example.com", "ann@example.net"]]

/-- Both sides of the equivalence at a run with a create and an update, over a table that has a
catch-all. -/
theorem operations_iff :
    Meets (step lower driver)
        (fun entries operation => Acyclic (Resolves lower isMailbox
          (driver.listAliases (step lower driver entries operation))))
        lines operations ↔
      Meets (step lower driver)
        (fun entries operation => Unreached lower isMailbox
          (driver.listAliases entries) operation) lines operations :=
  stays_acyclic_iff (fakeDmsDriver_documented _ _ _) lines operations
    (acyclic_of_ends (by decide)) (by decide)

def catchAllLines : List PostfixVirtualEntry :=
  [⟨"@example.com", true, "", "example.com", ["info@example.net"]⟩]

def toCatchAll : Operation := .create "info@example.net" ["sales@example.com"]

/-- An address of the domain forwards to itself, through the catch-all and the new alias. -/
theorem catchAll_cycle :
    ¬ Acyclic (Resolves lower isMailbox (catchAllLines ++
      [⟨"info@example.net", false, "info", "example.net", ["sales@example.com"]⟩])) := by
  have hout : Resolves lower isMailbox (catchAllLines ++
      [⟨"info@example.net", false, "info", "example.net", ["sales@example.com"]⟩])
      "sales@example.com" "info@example.net" := by
    refine ⟨"info@example.net", by decide, Or.inr ⟨?_, by decide, ?_⟩⟩
    · rintro ⟨recipient, entry, hentry, hsame, -⟩
      revert entry
      decide
    · exact ⟨_, List.mem_cons_self, by decide, List.mem_cons_self⟩
  have hback : Resolves lower isMailbox (catchAllLines ++
      [⟨"info@example.net", false, "info", "example.net", ["sales@example.com"]⟩])
      "info@example.net" "sales@example.com" := by
    refine ⟨"sales@example.com", by decide, Or.inl ?_⟩
    exact ⟨_, List.mem_append_right _ List.mem_cons_self, by decide, List.mem_cons_self⟩
  exact fun hacyclic => hacyclic _ (TransGen.tail (TransGen.single hout) hback)

def repeatedLines : List PostfixVirtualEntry :=
  [⟨"team@example.com", false, "team", "example.com", ["ann@example.com"]⟩,
    ⟨"Team@example.com", false, "Team", "example.com", ["bob@example.com"]⟩]

def toRepeated : Operation := .create "ann@example.com" ["team@example.com"]

/-- The first of two lines forwards to the new alias. -/
theorem repeated_cycle :
    ¬ Acyclic (Resolves lower isMailbox (repeatedLines ++
      [⟨"ann@example.com", false, "ann", "example.com", ["team@example.com"]⟩])) := by
  have hout : Resolves lower isMailbox (repeatedLines ++
      [⟨"ann@example.com", false, "ann", "example.com", ["team@example.com"]⟩])
      "team@example.com" "ann@example.com" := by
    refine ⟨"ann@example.com", by decide, Or.inl ?_⟩
    exact ⟨_, List.mem_cons_self, by decide, List.mem_cons_self⟩
  have hback : Resolves lower isMailbox (repeatedLines ++
      [⟨"ann@example.com", false, "ann", "example.com", ["team@example.com"]⟩])
      "ann@example.com" "team@example.com" := by
    refine ⟨"team@example.com", by decide, Or.inl ?_⟩
    exact ⟨_, List.mem_append_right _ List.mem_cons_self, by decide, List.mem_cons_self⟩
  exact fun hacyclic => hacyclic _ (TransGen.tail (TransGen.single hout) hback)

/-- The walk takes no catch-all, so that a new line to an address that only the catch-all covers
closes a cycle; and of two lines for one address it takes the last, while mail follows the first
as well. -/
theorem loops_are_missed :
    (Acyclic (Resolves lower isMailbox (driver.listAliases catchAllLines)) ∧
      succeeds lower driver catchAllLines toCatchAll = true ∧
      ¬ Acyclic (Resolves lower isMailbox
        (driver.listAliases (step lower driver catchAllLines toCatchAll)))) ∧
    (Acyclic (Resolves lower isMailbox (driver.listAliases repeatedLines)) ∧
      succeeds lower driver repeatedLines toRepeated = true ∧
      ¬ Acyclic (Resolves lower isMailbox
        (driver.listAliases (step lower driver repeatedLines toRepeated)))) := by
  have hcatchAll : step lower driver catchAllLines toCatchAll = catchAllLines ++
      [⟨"info@example.net", false, "info", "example.net", ["sales@example.com"]⟩] := by
    decide
  have hrepeated : step lower driver repeatedLines toRepeated = repeatedLines ++
      [⟨"ann@example.com", false, "ann", "example.com", ["team@example.com"]⟩] := by
    decide
  have hsucceeds : succeeds lower driver catchAllLines toCatchAll = true := by
    decide
  have hsucceeds' : succeeds lower driver repeatedLines toRepeated = true := by
    decide
  have hacyclic : Acyclic (Resolves lower isMailbox catchAllLines) :=
    acyclic_of_ends (by decide)
  have hacyclic' : Acyclic (Resolves lower isMailbox repeatedLines) :=
    acyclic_of_ends (by decide)
  simp only [hcatchAll, hrepeated, driver_listAliases]
  refine ⟨⟨hacyclic, hsucceeds, ?_⟩, ⟨hacyclic', hsucceeds', ?_⟩⟩
  · exact catchAll_cycle
  · exact repeated_cycle

end MissedLoops

end Aliases

end MailPanel
