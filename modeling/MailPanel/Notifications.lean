import MailPanel.RowTable

/-
Notifications: a row for every condition that was ever a problem, which the evaluator keeps
in step with what the dashboard shows.
-/

namespace MailPanel

namespace Notifications

open RowTable

inductive NotificationSeverity where
  | critical
  | warning
  | info
deriving DecidableEq, Repr

/-- A notification as its table keeps it. It belongs to a condition by its key, and is active
until the condition is seen not to hold. -/
structure NotificationRow where
  id : String
  dedupeKey : String
  severity : NotificationSeverity
  title : String
  body : Option String
  createdAt : String
  readAt : Option String
  resolvedAt : Option String
deriving DecidableEq, Repr

/-- The table, and how many ids were generated. -/
structure Store where
  rows : List NotificationRow
  generated : Nat
deriving DecidableEq, Repr

structure UpsertActiveParams where
  dedupeKey : String
  severity : NotificationSeverity
  title : String
  body : Option String
deriving DecidableEq, Repr

/-- `ON CONFLICT(dedupe_key) DO UPDATE`: every `CASE` reads the row as it was. -/
def NotificationRow.revived (row : NotificationRow) (params : UpsertActiveParams) (now : String) :
    NotificationRow :=
  { row with
    severity := params.severity
    title := params.title
    body := params.body
    createdAt := if row.resolvedAt.isSome then now else row.createdAt
    readAt := if row.resolvedAt.isSome then none else row.readAt
    resolvedAt := none }

section Repository

variable (newId : Nat → String)

def upsertActive (params : UpsertActiveParams) (now : String) (store : Store) : Store :=
  let rows :=
    if store.rows.any fun row => row.dedupeKey = params.dedupeKey then
      updateWhere store.rows (fun row => row.dedupeKey = params.dedupeKey) fun row =>
        row.revived params now
    else
      store.rows ++ [⟨newId store.generated, params.dedupeKey, params.severity, params.title,
        params.body, now, none, none⟩]
  ⟨rows, store.generated + 1⟩

def resolveIfActive (dedupeKey resolvedAt : String) (store : Store) : Store :=
  { store with
    rows := updateWhere store.rows
      (fun row => row.dedupeKey = dedupeKey && row.resolvedAt.isNone) fun row =>
        { row with resolvedAt := some resolvedAt } }

/-- Active and unread. -/
def NotificationRow.counted (row : NotificationRow) : Bool :=
  row.readAt.isNone && row.resolvedAt.isNone

def countUnread (store : Store) : Nat := store.rows.countP NotificationRow.counted

/-- `COALESCE(read_at, ?)`. -/
def NotificationRow.read (row : NotificationRow) (readAt : String) : NotificationRow :=
  { row with readAt := row.readAt.or (some readAt) }

def markRead (id readAt : String) (store : Store) : Store :=
  { store with rows := updateWhere store.rows (fun row => row.id = id) fun row => row.read readAt }

def markAllRead (readAt : String) (store : Store) : Store :=
  { store with
    rows := updateWhere store.rows (fun row => row.readAt.isNone) fun row => row.read readAt }

/- The evaluator -/

structure Problem where
  id : String
  label : String
  message : Option String
deriving DecidableEq, Repr

structure Snapshot where
  problems : List Problem
  updateAvailable : Option Bool
deriving DecidableEq, Repr

def notificationSources : List (String × NotificationSeverity) :=
  [("broker", .critical), ("managed-container", .critical), ("docker-daemon", .warning),
    ("rspamd", .critical), ("clamav", .critical), ("fail2ban", .critical),
    ("tls-cert-expiring", .warning), ("no-recent-verified-backup", .warning),
    ("update-available", .info)]

def updateAvailableKey : String := "update-available"

/-- `activeProblems.get`: the last problem with an id counts. -/
def Snapshot.activeProblem (snapshot : Snapshot) (key : String) : Option Problem :=
  snapshot.problems.reverse.find? fun problem => problem.id = key

def evaluateSource (snapshot : Snapshot) (now : String) (store : Store)
    (source : String × NotificationSeverity) : Store :=
  if source.1 = updateAvailableKey then store
  else
    match snapshot.activeProblem source.1 with
    | some problem =>
        upsertActive newId ⟨source.1, source.2, problem.label, problem.message⟩ now store
    | none => resolveIfActive source.1 now store

def evaluateUpdate (snapshot : Snapshot) (now : String) (store : Store) : Store :=
  if snapshot.updateAvailable = some true then
    upsertActive newId ⟨updateAvailableKey, .info, "An update is available",
      some "The container registry has a newer image than the one currently running."⟩ now store
  else resolveIfActive updateAvailableKey now store

/-- One evaluation, from its snapshot on: nothing waits between the writes. -/
def evaluateNotificationsOnce (snapshot : Snapshot) (now : String) (store : Store) : Store :=
  evaluateUpdate newId snapshot now
    (notificationSources.foldl (evaluateSource newId snapshot now) store)

/-- What happens to the table; no snapshot is taken in a tick that fails. -/
inductive Event where
  | ticked (snapshot : Snapshot) (now : String)
  | tickFailed
  | markedRead (id readAt : String)
  | markedAllRead (readAt : String)
deriving DecidableEq, Repr

def Store.apply (store : Store) : Event → Store
  | .ticked snapshot now => evaluateNotificationsOnce newId snapshot now store
  | .tickFailed => store
  | .markedRead id readAt => markRead id readAt store
  | .markedAllRead readAt => markAllRead readAt store

/-- The table after a history, newest event first. -/
def after : List Event → Store
  | [] => ⟨[], 0⟩
  | event :: earlier => (after earlier).apply newId event

end Repository

/- What the rows should say -/

def known (key : String) : Prop := key ∈ notificationSources.map Prod.fst

/-- The condition holds in a snapshot. -/
def Snapshot.holds (snapshot : Snapshot) (key : String) : Bool :=
  if key = updateAvailableKey then snapshot.updateAvailable = some true
  else snapshot.problems.any fun problem => problem.id = key

/-- The condition holds in the latest snapshot. A tick that fails takes none, and marking as
read is no snapshot either. -/
def held (key : String) : List Event → Bool
  | [] => false
  | .ticked snapshot _ :: _ => snapshot.holds key
  | .tickFailed :: earlier => held key earlier
  | .markedRead _ _ :: earlier => held key earlier
  | .markedAllRead _ :: earlier => held key earlier

/-- A time at which the condition held began, and what has happened since. -/
structure Episode where
  began : String
  since : List Event
deriving DecidableEq, Repr

def begins (key : String) (event : Event) (earlier : List Event) : Option String :=
  match event with
  | .ticked snapshot now => if snapshot.holds key && !held key earlier then some now else none
  | .tickFailed => none
  | .markedRead _ _ => none
  | .markedAllRead _ => none

/-- The current or the latest episode of a condition: when it began, and what has happened
since. A new one begins where the condition comes back. -/
def episode (key : String) : List Event → Option Episode
  | [] => none
  | event :: earlier =>
      match begins key event earlier with
      | some now => some ⟨now, []⟩
      | none => (episode key earlier).map fun last => { last with since := event :: last.since }

def Event.marks (id : String) : Event → Bool
  | .ticked _ _ => false
  | .tickFailed => false
  | .markedRead other _ => other = id
  | .markedAllRead _ => true

/-- A row, or its absence, says what has happened: since when the condition holds, whether it
still does, and whether the notification has been read since. -/
def Mirrors (key : String) (events : List Event) (row : Option NotificationRow) : Prop :=
  match row, episode key events with
  | none, none => True
  | some row, some last =>
      row.createdAt = last.began ∧ (row.resolvedAt = none ↔ held key events = true) ∧
        (row.readAt = none ↔ ∀ event ∈ last.since, event.marks row.id = false)
  | _, _ => False

abbrev Store.row (store : Store) (key : String) : Option NotificationRow :=
  lookup NotificationRow.dedupeKey key store.rows

section Steps

variable {newId : Nat → String} {store : Store} {snapshot : Snapshot} {now key : String}
  {old : NotificationRow}

/-- What a tick makes of the row of a condition, which holds in its snapshot or not: a new row
where none is active, the same row as long as the condition goes on, and its end when the
condition ends. -/
inductive Turns (now : String) : Bool → Option NotificationRow → Option NotificationRow → Prop
  | first {row : NotificationRow} (created : row.createdAt = now) (unread : row.readAt = none)
      (active : row.resolvedAt = none) : Turns now true none (some row)
  | again {old row : NotificationRow} (resolved : old.resolvedAt ≠ none)
      (created : row.createdAt = now) (unread : row.readAt = none)
      (active : row.resolvedAt = none) : Turns now true (some old) (some row)
  | goesOn {old row : NotificationRow} (was : old.resolvedAt = none) (same : row.id = old.id)
      (created : row.createdAt = old.createdAt) (read : row.readAt = old.readAt)
      (active : row.resolvedAt = none) : Turns now true (some old) (some row)
  | absent : Turns now false none none
  | ends {old row : NotificationRow} (same : row.id = old.id)
      (created : row.createdAt = old.createdAt) (read : row.readAt = old.readAt)
      (resolved : row.resolvedAt ≠ none) : Turns now false (some old) (some row)

/-- A resolved row whose condition holds again begins a new episode: unread, unresolved and with
a new date. -/
theorem turns_revived (params : UpsertActiveParams) :
    Turns now true (some old) (some (old.revived params now)) := by
  by_cases hactive : old.resolvedAt = none
  · refine Turns.goesOn hactive rfl ?_ ?_ rfl
    · rw [NotificationRow.revived, hactive]
      rfl
    · rw [NotificationRow.revived, hactive]
      rfl
  · have hresolved : old.resolvedAt.isSome = true := Option.isSome_iff_ne_none.mpr hactive
    refine Turns.again hactive ?_ ?_ rfl
    · exact if_pos hresolved
    · exact if_pos hresolved

theorem any_key_iff : (store.rows.any fun row => row.dedupeKey = key) = true ↔
    ∃ row, store.row key = some row := by
  rw [List.any_eq_true]
  constructor
  · rintro ⟨row, hrow, hkey⟩
    cases hlookup : store.row key with
    | none => exact absurd (of_decide_eq_true hkey) (lookup_eq_none hlookup hrow)
    | some found => exact ⟨found, rfl⟩
  · rintro ⟨row, hlookup⟩
    exact ⟨row, mem_of_lookup hlookup, decide_eq_true (key_of_lookup hlookup)⟩

/-- A key that has a row gets no second one: its row is updated. -/
theorem upsertActive_known {params : UpsertActiveParams}
    (hany : (store.rows.any fun row => row.dedupeKey = params.dedupeKey) = true) :
    upsertActive newId params now store =
      ⟨updateWhere store.rows (fun row => row.dedupeKey = params.dedupeKey) fun row =>
        row.revived params now, store.generated + 1⟩ := by
  rw [upsertActive, if_pos hany]

/-- A key without a row gets one at the end of the table. -/
theorem upsertActive_new {params : UpsertActiveParams}
    (hany : ¬ (store.rows.any fun row => row.dedupeKey = params.dedupeKey) = true) :
    upsertActive newId params now store =
      ⟨store.rows ++ [⟨newId store.generated, params.dedupeKey, params.severity, params.title,
        params.body, now, none, none⟩], store.generated + 1⟩ := by
  rw [upsertActive, if_neg hany]

/-- An update that keeps the keys changes the row of a key where its condition holds. -/
theorem row_updateWhere {condition : NotificationRow → Bool}
    {change : NotificationRow → NotificationRow} {generated : Nat}
    (hchange : ∀ row, (change row).dedupeKey = row.dedupeKey) :
    Store.row ⟨updateWhere store.rows condition change, generated⟩ key =
      (store.row key).map fun row => if condition row then change row else row :=
  lookup_updateWhere (fun row _ => hchange row) key

theorem row_append (row : NotificationRow) (generated : Nat) :
    Store.row ⟨store.rows ++ [row], generated⟩ key =
      (store.row key).or (if row.dedupeKey = key then some row else none) :=
  lookup_append key row

/-- Reporting a condition does to its own row what an evaluation in which it holds should do. -/
theorem upsertActive_own (params : UpsertActiveParams) :
    Turns now true (store.row params.dedupeKey)
      ((upsertActive newId params now store).row params.dedupeKey) := by
  by_cases hany : (store.rows.any fun row => row.dedupeKey = params.dedupeKey) = true
  · obtain ⟨row, hrow⟩ := any_key_iff.mp hany
    have hkey := key_of_lookup hrow
    rw [upsertActive_known hany, row_updateWhere]
    · rw [hrow, Option.map_some, if_pos (decide_eq_true hkey)]
      exact turns_revived params
    · exact fun row => rfl
  · have hnone : store.row params.dedupeKey = none := by
      cases hrow : store.row params.dedupeKey with
      | none => rfl
      | some row => exact absurd (any_key_iff.mpr ⟨row, hrow⟩) hany
    rw [upsertActive_new hany, row_append, hnone, if_pos rfl]
    exact Turns.first rfl rfl rfl

/-- Reporting a condition leaves the rows of other keys alone. -/
theorem upsertActive_other {params : UpsertActiveParams} (hother : key ≠ params.dedupeKey) :
    (upsertActive newId params now store).row key = store.row key := by
  by_cases hany : (store.rows.any fun row => row.dedupeKey = params.dedupeKey) = true
  · rw [upsertActive_known hany, row_updateWhere]
    · cases hrow : store.row key with
      | none => rfl
      | some row =>
          have hkey : row.dedupeKey ≠ params.dedupeKey := (key_of_lookup hrow).trans_ne hother
          rw [Option.map_some, if_neg fun hsame => hkey (of_decide_eq_true hsame)]
    · exact fun row => rfl
  · rw [upsertActive_new hany, row_append, if_neg (Ne.symm hother), Option.or_none]

/-- Resolving a key does to its row what an evaluation in which the condition fails should do. -/
theorem resolveIfActive_own (now : String) : Turns now false (store.row key)
    ((resolveIfActive key now store).row key) := by
  rw [resolveIfActive, row_updateWhere]
  · cases hrow : store.row key with
    | none => exact Turns.absent
    | some row =>
        have hkey := key_of_lookup hrow
        rw [Option.map_some]
        by_cases hactive : row.resolvedAt = none
        · rw [if_pos (by simp [hkey, hactive])]
          exact Turns.ends rfl rfl rfl (Option.some_ne_none now)
        · rw [if_neg (by simp [hactive])]
          exact Turns.ends rfl rfl rfl hactive
  · exact fun row => rfl

/-- Resolving a key leaves the rows of other keys alone. -/
theorem resolveIfActive_other {other : String} (hother : key ≠ other) :
    (resolveIfActive other now store).row key = store.row key := by
  rw [resolveIfActive, row_updateWhere]
  · cases hrow : store.row key with
    | none => rfl
    | some row =>
        have hkey : row.dedupeKey ≠ other := (key_of_lookup hrow).trans_ne hother
        rw [Option.map_some, if_neg (by simp [hkey])]
  · exact fun row => rfl

theorem isSome_activeProblem : (snapshot.activeProblem key).isSome =
    snapshot.problems.any fun problem => problem.id = key := by
  rw [Snapshot.activeProblem, List.isSome_find?, List.any_reverse]

/-- One source of an evaluation treats its own key. -/
theorem evaluateSource_own {source : String × NotificationSeverity}
    (hsource : source.1 ≠ updateAvailableKey) :
    Turns now (snapshot.holds source.1) (store.row source.1)
      ((evaluateSource newId snapshot now store source).row source.1) := by
  have hholds : snapshot.holds source.1 = (snapshot.activeProblem source.1).isSome := by
    rw [Snapshot.holds, if_neg hsource, isSome_activeProblem]
  rw [evaluateSource, if_neg hsource, hholds]
  cases snapshot.activeProblem source.1 with
  | none => exact resolveIfActive_own now
  | some problem =>
      exact upsertActive_own ⟨source.1, source.2, problem.label, problem.message⟩

/-- One source of an evaluation leaves all other keys alone. -/
theorem evaluateSource_other {source : String × NotificationSeverity} (hother : key ≠ source.1) :
    (evaluateSource newId snapshot now store source).row key = store.row key := by
  rw [evaluateSource]
  by_cases hsource : source.1 = updateAvailableKey
  · rw [if_pos hsource]
  · rw [if_neg hsource]
    cases snapshot.activeProblem source.1 with
    | none => exact resolveIfActive_other hother
    | some problem => exact upsertActive_other hother

theorem evaluateSources_other (sources : List (String × NotificationSeverity))
    (hkey : key ∉ sources.map Prod.fst) :
    (sources.foldl (evaluateSource newId snapshot now) store).row key = store.row key := by
  induction sources generalizing store with
  | nil => rfl
  | cons source sources ih =>
      rw [List.map_cons, List.mem_cons, not_or] at hkey
      rw [List.foldl_cons, ih hkey.2]
      exact evaluateSource_other hkey.1

theorem evaluateSources_update (sources : List (String × NotificationSeverity)) :
    (sources.foldl (evaluateSource newId snapshot now) store).row updateAvailableKey =
      store.row updateAvailableKey := by
  induction sources generalizing store with
  | nil => rfl
  | cons source sources ih =>
      rw [List.foldl_cons, ih]
      by_cases hsource : source.1 = updateAvailableKey
      · rw [evaluateSource, if_pos hsource]
      · exact evaluateSource_other (Ne.symm hsource)

/-- Of the sources, only the own one counts for a row, since no key has two. -/
theorem evaluateSources_own {sources : List (String × NotificationSeverity)}
    (hnodup : (sources.map Prod.fst).Nodup) (hmem : key ∈ sources.map Prod.fst)
    (hkey : key ≠ updateAvailableKey) :
    Turns now (snapshot.holds key) (store.row key)
      ((sources.foldl (evaluateSource newId snapshot now) store).row key) := by
  induction sources generalizing store with
  | nil => exact absurd hmem List.not_mem_nil
  | cons source sources ih =>
      rw [List.map_cons, List.nodup_cons] at hnodup
      rw [List.foldl_cons]
      rcases List.mem_cons.mp hmem with rfl | hmem
      · rw [evaluateSources_other sources hnodup.1]
        exact evaluateSource_own hkey
      · have hother : key ≠ source.1 := fun heq => hnodup.1 (heq ▸ hmem)
        have hrow : (evaluateSource newId snapshot now store source).row key = store.row key :=
          evaluateSource_other hother
        rw [← hrow]
        exact ih hnodup.2 hmem

/-- The update notice is treated like the other sources, by a condition of its own. -/
theorem evaluateUpdate_own : Turns now (snapshot.holds updateAvailableKey)
    (store.row updateAvailableKey)
    ((evaluateUpdate newId snapshot now store).row updateAvailableKey) := by
  have hholds : snapshot.holds updateAvailableKey =
      decide (snapshot.updateAvailable = some true) := by
    rw [Snapshot.holds, if_pos rfl]
  rw [evaluateUpdate, hholds]
  by_cases havailable : snapshot.updateAvailable = some true
  · rw [if_pos havailable, decide_eq_true havailable]
    exact upsertActive_own ⟨updateAvailableKey, .info, "An update is available",
      some "The container registry has a newer image than the one currently running."⟩
  · rw [if_neg havailable, decide_eq_false havailable]
    exact resolveIfActive_own now

theorem evaluateUpdate_other (hkey : key ≠ updateAvailableKey) :
    (evaluateUpdate newId snapshot now store).row key = store.row key := by
  rw [evaluateUpdate]
  split
  · exact upsertActive_other hkey
  · exact resolveIfActive_other hkey

theorem sources_nodup : (notificationSources.map Prod.fst).Nodup := by
  decide

theorem updateAvailable_known : known updateAvailableKey :=
  List.mem_map.mpr ⟨(updateAvailableKey, .info), by simp [notificationSources, updateAvailableKey],
    rfl⟩

/-- What an evaluation makes of a row: exactly what follows from whether its condition holds. -/
theorem evaluateNotificationsOnce_turns (hknown : known key) :
    Turns now (snapshot.holds key) (store.row key)
      ((evaluateNotificationsOnce newId snapshot now store).row key) := by
  rw [evaluateNotificationsOnce]
  by_cases hkey : key = updateAvailableKey
  · subst hkey
    have hsources : (notificationSources.foldl (evaluateSource newId snapshot now) store).row
        updateAvailableKey = store.row updateAvailableKey := evaluateSources_update _
    rw [← hsources]
    exact evaluateUpdate_own
  · rw [evaluateUpdate_other hkey]
    exact evaluateSources_own sources_nodup hknown hkey

end Steps

section Runs

variable {newId : Nat → String} {key : String} {event : Event} {events : List Event}
  {row : NotificationRow}

/-- A condition that holds is in an episode, which began when it last started to hold. -/
theorem episode_of_held (hheld : held key events = true) : (episode key events).isSome = true := by
  induction events with
  | nil => exact absurd hheld Bool.false_ne_true
  | cons event earlier ih =>
      rw [episode]
      cases hbegins : begins key event earlier with
      | some now => rfl
      | none =>
          dsimp only
          rw [Option.isSome_map]
          cases event with
          | ticked snapshot now =>
              rw [held] at hheld
              refine ih ?_
              by_contra hnot
              rw [begins, hheld, eq_false_of_ne_true hnot, Bool.not_false, Bool.and_true,
                if_pos rfl] at hbegins
              exact Option.some_ne_none now hbegins
          | tickFailed => exact ih hheld
          | markedRead id readAt => exact ih hheld
          | markedAllRead readAt => exact ih hheld

theorem mirrors_none : Mirrors key events none ↔ episode key events = none := by
  unfold Mirrors
  cases episode key events with
  | none => exact iff_of_true trivial rfl
  | some last => exact iff_of_false id (Option.some_ne_none last)

/-- A row mirrors its episode when its dates and marks say when the episode began, whether it is
over and whether it was read. -/
theorem mirrors_some : Mirrors key events (some row) ↔ ∃ last, episode key events = some last ∧
    row.createdAt = last.began ∧ (row.resolvedAt = none ↔ held key events = true) ∧
      (row.readAt = none ↔ ∀ event ∈ last.since, event.marks row.id = false) := by
  unfold Mirrors
  cases episode key events with
  | none => exact iff_of_false id fun ⟨last, hlast, _⟩ => absurd hlast.symm (Option.some_ne_none last)
  | some last =>
      constructor
      · intro hmirrors
        exact ⟨last, rfl, hmirrors⟩
      · rintro ⟨_, heq, hmirrors⟩
        rw [Option.some.inj heq]
        exact hmirrors

/-- The first evaluation in which a condition holds begins an episode. -/
theorem episode_of_begins {now : String} (hbegins : begins key event events = some now) :
    episode key (event :: events) = some ⟨now, []⟩ := by
  rw [episode, hbegins]

/-- Every other event is added to the episode that there is. -/
theorem episode_of_goesOn (hbegins : begins key event events = none) :
    episode key (event :: events) =
      (episode key events).map fun last => { last with since := event :: last.since } := by
  rw [episode, hbegins]

/-- An event that begins nothing, and after which the row tells the same with one more event. -/
theorem Mirrors.goesOn {old : NotificationRow} (hmirrors : Mirrors key events (some old))
    (hbegins : begins key event events = none) (hsame : row.id = old.id)
    (hcreated : row.createdAt = old.createdAt)
    (hheld : row.resolvedAt = none ↔ held key (event :: events) = true)
    (hread : row.readAt = none ↔ old.readAt = none ∧ event.marks row.id = false) :
    Mirrors key (event :: events) (some row) := by
  obtain ⟨last, hlast, hbegan, -, hsince⟩ := mirrors_some.mp hmirrors
  have hepisode : episode key (event :: events) =
      some { last with since := event :: last.since } := by
    rw [episode_of_goesOn hbegins, hlast, Option.map_some]
  refine mirrors_some.mpr ⟨_, hepisode, hcreated.trans hbegan, hheld, ?_⟩
  rw [hread, hsince, List.forall_mem_cons, hsame]
  exact and_comm

theorem Mirrors.absent (hmirrors : Mirrors key events none)
    (hbegins : begins key event events = none) : Mirrors key (event :: events) none := by
  rw [mirrors_none, episode_of_goesOn hbegins, mirrors_none.mp hmirrors]
  rfl

/-- An evaluation keeps the mirror, whichever way the condition turned: the row says when the
present episode began, and whether it has ended. -/
theorem Mirrors.turns {snapshot : Snapshot} {now : String} {old new : Option NotificationRow}
    (hmirrors : Mirrors key events old) (hturns : Turns now (snapshot.holds key) old new) :
    Mirrors key (.ticked snapshot now :: events) new := by
  have hheld : held key (.ticked snapshot now :: events) = snapshot.holds key := rfl
  cases hholds : snapshot.holds key with
  | false =>
      rw [hholds] at hturns
      have hbegins : begins key (.ticked snapshot now) events = none := by
        rw [begins, hholds, Bool.false_and, if_neg Bool.false_ne_true]
      cases hturns with
      | absent => exact hmirrors.absent hbegins
      | ends hsame hcreated hread hresolved =>
          refine hmirrors.goesOn hbegins hsame hcreated ?_ ?_
          · rw [hheld, hholds]
            exact iff_of_false hresolved Bool.false_ne_true
          · rw [hread]
            exact (and_iff_left rfl).symm
  | true =>
      rw [hholds] at hturns
      have hnew : ∀ row : NotificationRow, held key events = false → row.createdAt = now →
          row.readAt = none → row.resolvedAt = none →
            Mirrors key (.ticked snapshot now :: events) (some row) := by
        intro row hnot hcreated hread hactive
        have hbegins : begins key (.ticked snapshot now) events = some now := by
          rw [begins, hholds, hnot, Bool.not_false, Bool.and_true, if_pos rfl]
        refine mirrors_some.mpr ⟨_, episode_of_begins hbegins, hcreated, ?_, ?_⟩
        · rw [hheld, hholds]
          exact iff_of_true hactive rfl
        · exact iff_of_true hread fun event hevent => absurd hevent List.not_mem_nil
      cases hturns with
      | first hcreated hread hactive =>
          refine hnew _ ?_ hcreated hread hactive
          by_contra hnot
          have hsome := episode_of_held (eq_true_of_ne_false hnot)
          rw [mirrors_none.mp hmirrors] at hsome
          exact Bool.false_ne_true hsome
      | again hresolved hcreated hread hactive =>
          obtain ⟨last, -, -, hiff, -⟩ := mirrors_some.mp hmirrors
          refine hnew _ ?_ hcreated hread hactive
          exact eq_false_of_ne_true fun hold => hresolved (hiff.mpr hold)
      | goesOn hwas hsame hcreated hread hactive =>
          obtain ⟨last, -, -, hiff, -⟩ := mirrors_some.mp hmirrors
          have hbegins : begins key (.ticked snapshot now) events = none := by
            rw [begins, hiff.mp hwas, Bool.not_true, Bool.and_false, if_neg Bool.false_ne_true]
          refine hmirrors.goesOn hbegins hsame hcreated ?_ ?_
          · rw [hheld, hholds]
            exact iff_of_true hactive rfl
          · rw [hread]
            exact (and_iff_left rfl).symm

/-- Reading changes when a row was read, where the event marks it and nothing else did. -/
theorem Mirrors.marked {old : Option NotificationRow} (hmirrors : Mirrors key events old)
    {readAt : String} {condition : NotificationRow → Bool}
    (hbegins : begins key event events = none)
    (hheld : held key (event :: events) = held key events)
    (hmarks : ∀ row : NotificationRow,
      ((if condition row then row.read readAt else row).readAt = none ↔
        row.readAt = none ∧ event.marks row.id = false)) :
    Mirrors key (event :: events)
      (old.map fun row => if condition row then row.read readAt else row) := by
  cases old with
  | none => exact hmirrors.absent hbegins
  | some old =>
      have hfields : ∀ row : NotificationRow,
          (if condition row then row.read readAt else row).id = row.id ∧
            (if condition row then row.read readAt else row).createdAt = row.createdAt ∧
              (if condition row then row.read readAt else row).resolvedAt = row.resolvedAt := by
        intro row
        split
        · exact ⟨rfl, rfl, rfl⟩
        · exact ⟨rfl, rfl, rfl⟩
      obtain ⟨hid, hcreated, hresolved⟩ := hfields old
      obtain ⟨last, -, -, hiff, -⟩ := mirrors_some.mp hmirrors
      rw [Option.map_some]
      refine hmirrors.goesOn hbegins hid hcreated ?_ ?_
      · rw [hresolved, hiff, hheld]
      · rw [hid]
        exact hmarks old

theorem read_ne_none (row : NotificationRow) (readAt : String) :
    (row.read readAt).readAt ≠ none := by
  rw [NotificationRow.read]
  cases row.readAt with
  | none => exact Option.some_ne_none readAt
  | some earlier => exact Option.some_ne_none earlier

/-- Every event keeps the mirror, which is the step of the induction over a history. -/
theorem Mirrors.step (hknown : known key) {store : Store} (hmirrors : Mirrors key events (store.row key)) :
    Mirrors key (event :: events) ((store.apply newId event).row key) := by
  cases event with
  | ticked snapshot now =>
      exact hmirrors.turns (evaluateNotificationsOnce_turns hknown)
  | tickFailed =>
      rw [Store.apply]
      cases hrow : store.row key with
      | none => exact (hrow ▸ hmirrors : Mirrors key events none).absent rfl
      | some row =>
          rw [hrow] at hmirrors
          obtain ⟨last, -, -, hiff, -⟩ := mirrors_some.mp hmirrors
          exact hmirrors.goesOn rfl rfl rfl hiff (and_iff_left rfl).symm
  | markedRead id readAt =>
      rw [Store.apply, markRead, row_updateWhere]
      · refine hmirrors.marked rfl rfl ?_
        intro row
        by_cases hid : row.id = id
        · rw [if_pos (decide_eq_true hid)]
          refine iff_of_false (read_ne_none row readAt) fun hboth => ?_
          exact absurd hboth.2 (by simp [Event.marks, hid])
        · rw [if_neg (by simpa using hid)]
          exact (and_iff_left (decide_eq_false (Ne.symm hid))).symm
      · exact fun row => rfl
  | markedAllRead readAt =>
      rw [Store.apply, markAllRead, row_updateWhere]
      · refine hmirrors.marked rfl rfl ?_
        intro row
        refine iff_of_false ?_ fun hboth => Bool.false_ne_true hboth.2.symm
        cases hread : row.readAt with
        | none =>
            rw [if_pos Option.isNone_none]
            exact read_ne_none row readAt
        | some earlier =>
            rw [Option.isNone_some, if_neg Bool.false_ne_true, hread]
            exact Option.some_ne_none earlier
      · exact fun row => rfl

/-- After every history each row mirrors its episode. -/
theorem after_mirrors (newId : Nat → String) (hknown : known key) (events : List Event) :
    Mirrors key events ((after newId events).row key) := by
  induction events with
  | nil => exact mirrors_none.mpr rfl
  | cons event earlier ih => exact ih.step hknown

/-- Every row is a known condition's, and no condition has two. -/
structure Keyed (store : Store) : Prop where
  nodup : (store.rows.map NotificationRow.dedupeKey).Nodup
  known : ∀ row ∈ store.rows, known row.dedupeKey

theorem Keyed.updateWhere {store : Store} (hkeyed : Keyed store)
    {condition : NotificationRow → Bool} {change : NotificationRow → NotificationRow}
    (hchange : ∀ row, (change row).dedupeKey = row.dedupeKey) (generated : Nat) :
    Keyed ⟨updateWhere store.rows condition change, generated⟩ := by
  constructor
  · dsimp only
    rw [map_updateWhere _ fun row _ => hchange row]
    exact hkeyed.nodup
  · intro row hrow
    obtain ⟨old, hold, rfl⟩ := exists_of_mem_updateWhere hrow
    split
    · rw [hchange]
      exact hkeyed.known old hold
    · exact hkeyed.known old hold

theorem Keyed.upsertActive {store : Store} (hkeyed : Keyed store) {params : UpsertActiveParams}
    (hknown : Notifications.known params.dedupeKey) (now : String) :
    Keyed (upsertActive newId params now store) := by
  rw [Notifications.upsertActive]
  by_cases hany : (store.rows.any fun row => row.dedupeKey = params.dedupeKey) = true
  · rw [if_pos hany]
    refine hkeyed.updateWhere ?_ _
    exact fun row => rfl
  · rw [if_neg hany]
    have hnew : params.dedupeKey ∉ store.rows.map NotificationRow.dedupeKey := by
      intro hmem
      obtain ⟨row, hrow, hkey⟩ := List.mem_map.mp hmem
      exact hany (List.any_eq_true.mpr ⟨row, hrow, decide_eq_true hkey⟩)
    constructor
    · dsimp only
      rw [List.map_append]
      exact hkeyed.nodup.append (List.nodup_singleton _) (List.disjoint_singleton.mpr hnew)
    · intro row hrow
      rcases List.mem_append.mp hrow with hrow | hrow
      · exact hkeyed.known row hrow
      · obtain rfl := List.mem_singleton.mp hrow
        exact hknown

theorem Keyed.resolveIfActive {store : Store} (hkeyed : Keyed store) (other now : String) :
    Keyed (resolveIfActive other now store) := by
  refine hkeyed.updateWhere ?_ _
  exact fun row => rfl

/-- No evaluation makes a second row for a key, since a condition that comes back takes its old
row over. -/
theorem Keyed.evaluateNotificationsOnce {store : Store} (hkeyed : Keyed store)
    (snapshot : Snapshot) (now : String) :
    Keyed (evaluateNotificationsOnce newId snapshot now store) := by
  have hsources : ∀ sources : List (String × NotificationSeverity),
      (∀ source ∈ sources, Notifications.known source.1) → ∀ store, Keyed store →
        Keyed (sources.foldl (evaluateSource newId snapshot now) store) := by
    intro sources
    induction sources with
    | nil => exact fun _ _ hstore => hstore
    | cons source sources ih =>
        intro hknown store hstore
        rw [List.foldl_cons]
        refine ih (fun other hother => hknown other (List.mem_cons_of_mem source hother)) _ ?_
        rw [evaluateSource]
        split
        · exact hstore
        · split
          · exact hstore.upsertActive (hknown source List.mem_cons_self) now
          · exact hstore.resolveIfActive source.1 now
  have hstore := hsources notificationSources (fun source hsource => List.mem_map_of_mem hsource)
    store hkeyed
  rw [Notifications.evaluateNotificationsOnce, evaluateUpdate]
  split
  · exact hstore.upsertActive updateAvailable_known now
  · exact hstore.resolveIfActive updateAvailableKey now

/-- After every history each key has at most one row. -/
theorem after_keyed (newId : Nat → String) (events : List Event) : Keyed (after newId events) := by
  induction events with
  | nil => exact ⟨List.nodup_nil, fun row hrow => absurd hrow List.not_mem_nil⟩
  | cons event earlier ih =>
      rw [after]
      cases event with
      | ticked snapshot now => exact ih.evaluateNotificationsOnce snapshot now
      | tickFailed => exact ih
      | markedRead id readAt =>
          refine ih.updateWhere ?_ _
          exact fun row => rfl
      | markedAllRead readAt =>
          refine ih.updateWhere ?_ _
          exact fun row => rfl

end Runs

/-- Whatever has happened, the table says of every known condition whether it holds, when it
began to, and whether that is news. Marks that the administrator sets are kept while a condition
goes on and do not carry over to its next episode. -/
theorem rows_mirror_episodes (newId : Nat → String) (events : List Event) :
    ((after newId events).rows.map NotificationRow.dedupeKey).Nodup ∧
    (∀ row ∈ (after newId events).rows, known row.dedupeKey) ∧
    ∀ key, known key →
      (held key events = true ↔
        ∃ row ∈ (after newId events).rows, row.dedupeKey = key ∧ row.resolvedAt = none) ∧
      ((episode key events).isSome = true ↔
        ∃ row ∈ (after newId events).rows, row.dedupeKey = key) ∧
      ∀ row ∈ (after newId events).rows, row.dedupeKey = key → ∃ last,
        episode key events = some last ∧ row.createdAt = last.began ∧
          (row.resolvedAt = none ↔ held key events = true) ∧
            (row.counted = true ↔ row.resolvedAt = none ∧
              ∀ event ∈ last.since, event.marks row.id = false) := by
  obtain ⟨hnodup, hknown⟩ := after_keyed newId events
  refine ⟨hnodup, hknown, ?_⟩
  intro key hkey
  have hmirrors := after_mirrors newId hkey events
  have hrows : ∀ row ∈ (after newId events).rows, row.dedupeKey = key → ∃ last,
      episode key events = some last ∧ row.createdAt = last.began ∧
        (row.resolvedAt = none ↔ held key events = true) ∧
          (row.readAt = none ↔ ∀ event ∈ last.since, event.marks row.id = false) := by
    rintro row hrow rfl
    have hlookup : (after newId events).row row.dedupeKey = some row :=
      lookup_of_mem hnodup hrow
    rw [hlookup] at hmirrors
    exact mirrors_some.mp hmirrors
  have hexists : (episode key events).isSome = true →
      ∃ row ∈ (after newId events).rows, row.dedupeKey = key := by
    intro hsome
    cases hlookup : (after newId events).row key with
    | none =>
        rw [hlookup, mirrors_none] at hmirrors
        rw [hmirrors] at hsome
        exact absurd hsome Bool.false_ne_true
    | some row => exact ⟨row, mem_of_lookup hlookup, key_of_lookup hlookup⟩
  refine ⟨⟨?_, ?_⟩, ⟨hexists, ?_⟩, ?_⟩
  · intro hheld
    obtain ⟨row, hrow, hsame⟩ := hexists (episode_of_held hheld)
    obtain ⟨last, -, -, hactive, -⟩ := hrows row hrow hsame
    exact ⟨row, hrow, hsame, hactive.mpr hheld⟩
  · rintro ⟨row, hrow, hsame, hactive⟩
    obtain ⟨last, -, -, hiff, -⟩ := hrows row hrow hsame
    exact hiff.mp hactive
  · rintro ⟨row, hrow, hsame⟩
    obtain ⟨last, hlast, -⟩ := hrows row hrow hsame
    rw [hlast]
    rfl
  · intro row hrow hsame
    obtain ⟨last, hlast, hcreated, hactive, hread⟩ := hrows row hrow hsame
    refine ⟨last, hlast, hcreated, hactive, ?_⟩
    rw [NotificationRow.counted, Bool.and_eq_true, Option.isNone_iff_eq_none,
      Option.isNone_iff_eq_none, hread]
    exact and_comm

end Notifications

end MailPanel
