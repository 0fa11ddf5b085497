import MailPanel.DatabaseTransactions
import Mathlib.Data.List.Induction
import Mathlib.Data.List.Infix
import Mathlib.Data.List.Nodup
import Mathlib.Data.List.TakeDrop

/-
The migration runner.  A database has been through some migrations, each once; a build applies
those of its own that the database has not seen, and refuses one that is ahead of it.
-/

namespace MailPanel

namespace Migrations

open Database

variable {ε Schema : Type}

/-- A migration runs its statements in turn, each on the schema that the one before it has
left. -/
structure Migration (ε Schema : Type) where
  version : Int
  name : String
  up : List (Schema → Except ε Schema)

/-- A row of the table that says which migrations a file has seen. -/
structure AppliedMigrationRow where
  version : Int
  name : String
  appliedAt : String
deriving DecidableEq, Repr

/-- The tables that migrations are about, and the runner's own. -/
structure Tables (Schema : Type) where
  schema : Schema
  schemaMigrations : Option (List AppliedMigrationRow)
deriving DecidableEq, Repr

/-- Why a start fails: a check of its own, a statement, or a constraint of the table of
versions. -/
inductive Error (ε : Type) where
  | migration (message : String)
  | statement (error : ε)
  | noTable
  | constraint
deriving DecidableEq, Repr

/-- The code of a start, which acts on the tables and may throw. -/
abbrev Runner (ε Schema α : Type) := Code (Error ε) (Tables Schema) α

/-- The rows about applied migrations; a file without the table has none. -/
def rows (tables : Tables Schema) : List AppliedMigrationRow := tables.schemaMigrations.getD []

/-- The message for a version that two migrations of one build share. -/
def declaredTwice (migration : Migration ε Schema) (existing : String) : String :=
  s!"Migration version {migration.version} is declared twice (\"{existing}\" and " ++
    s!"\"{migration.name}\"). Each migration version must be unique."

/-- The name that a version was declared with, the last time. -/
def declaredName (seen : List (Migration ε Schema)) (version : Int) : Option String :=
  (seen.find? (·.version = version)).map Migration.name

/-- The first version that comes a second time, with the name under which it came first. -/
def duplicateVersion (seen : List (Migration ε Schema)) :
    List (Migration ε Schema) → Option String
  | [] => none
  | migration :: rest =>
      match declaredName seen migration.version with
      | some existing => some (declaredTwice migration existing)
      | none => duplicateVersion (migration :: seen) rest

/-- The check that comes before anything is read or written. -/
def assertNoDuplicateVersions (migrations : List (Migration ε Schema)) : Runner ε Schema Unit :=
  match duplicateVersion [] migrations with
  | some message => throw (.thrown (.migration message))
  | none => pure ()

/-- By version, whatever the order in the source. -/
def sorted (migrations : List (Migration ε Schema)) : List (Migration ε Schema) :=
  migrations.mergeSort fun a b => a.version ≤ b.version

/-- `CREATE TABLE IF NOT EXISTS schema_migrations`: a table that is there keeps its rows. -/
def createTable (tables : Tables Schema) : Except (Error ε) (Unit × Tables Schema) :=
  .ok ((), { tables with schemaMigrations := some (rows tables) })

/-- `SELECT version FROM schema_migrations ORDER BY version`. -/
def selectVersions (tables : Tables Schema) : Except (Error ε) (List Int × Tables Schema) :=
  match tables.schemaMigrations with
  | none => .error .noTable
  | some rows => .ok ((rows.map AppliedMigrationRow.version).mergeSort (· ≤ ·), tables)

/-- The version is the table's primary key, so that a second row for it is refused. -/
def insertRow (row : AppliedMigrationRow) (tables : Tables Schema) :
    Except (Error ε) (Unit × Tables Schema) :=
  match tables.schemaMigrations with
  | none => .error .noTable
  | some rows =>
      if row.version ∈ rows.map AppliedMigrationRow.version then .error .constraint
      else .ok ((), { tables with schemaMigrations := some (rows ++ [row]) })

/-- A statement of a migration acts on the schema and leaves the table of versions alone. -/
def upStatement (up : Schema → Except ε Schema) (tables : Tables Schema) :
    Except (Error ε) (Unit × Tables Schema) :=
  match up tables.schema with
  | .ok schema => .ok ((), { tables with schema := schema })
  | .error error => .error (.statement error)

/-- One migration: its statements and its row in one transaction. -/
def applyMigration (now : String) (migration : Migration ε Schema) : Runner ε Schema Unit :=
  transaction do
    forM migration.up fun up => statement (upStatement up)
    statement (insertRow ⟨migration.version, migration.name, now⟩)

/-- The message for a file that a newer release has written, with both versions in it. -/
def newerSchema (appliedMaxVersion knownMaxVersion : Int) : String :=
  s!"Database schema is at migration version {appliedMaxVersion}, but this build only knows " ++
    s!"about migrations up to version {knownMaxVersion}. " ++
    "Refusing to start: running an older build against a newer database risks silent data " ++
    "corruption. Upgrade the application to a version that recognises this schema before " ++
    "starting it against this database."

/-- The highest version of a build, or zero for a build without migrations. -/
def knownMaxVersion (migrations : List (Migration ε Schema)) : Int :=
  ((sorted migrations).getLast?.map Migration.version).getD 0

/-- The highest version in a file, or zero for a new file. -/
def appliedMaxVersion (versions : List Int) : Int := versions.foldl max 0

/-- A start: nothing is applied when the file is newer than the build, and otherwise all that is
missing, by version. -/
def runMigrations (now : String) (migrations : List (Migration ε Schema)) :
    Runner ε Schema Unit := do
  assertNoDuplicateVersions migrations
  statement createTable
  let appliedVersions ← statement selectVersions
  if appliedMaxVersion appliedVersions > knownMaxVersion migrations then
    throw (.thrown (.migration (newerSchema (appliedMaxVersion appliedVersions)
      (knownMaxVersion migrations))))
  forM (sorted migrations) fun migration =>
    if migration.version ∈ appliedVersions then pure () else applyMigration now migration

/-- A start of the program: its build's migrations, the clock, and what its statements meet. -/
structure Start (ε Schema : Type) where
  migrations : List (Migration ε Schema)
  now : String
  faults : List (Option Fault)

/-- The file is opened, brought up to date, and left with what it holds. -/
def Start.run (start : Start ε Schema) (file : Tables Schema) :
    Except (Failure (Error ε)) Unit × Tables Schema :=
  let (result, connection) :=
    (runMigrations start.now start.migrations).run.run ⟨file, [], start.faults⟩
  (result, connection.durable)

/- One migration -/

/-- What a migration makes of a schema when all its statements succeed. -/
def Migration.migrate (migration : Migration ε Schema) (schema : Schema) : Except ε Schema :=
  migration.up.foldlM (fun schema up => up schema) schema

/-- Several migrations, one after the other, stopping at the first that fails. -/
def migrate (history : List (Migration ε Schema)) (schema : Schema) : Except ε Schema :=
  history.foldlM (fun schema migration => migration.migrate schema) schema

/-- Migrations that follow each other may be done in two parts. -/
theorem migrate_append (first second : List (Migration ε Schema)) (schema : Schema) :
    migrate (first ++ second) schema = migrate first schema >>= migrate second := by
  rw [migrate, List.foldlM_append]
  rfl

/-- The versions that a file has seen. -/
def versions (tables : Tables Schema) : List Int :=
  (rows tables).map AppliedMigrationRow.version

/-- Some migrations have been added to those that the tables have been through: the schema is
theirs, and the record grows by their versions and loses nothing. -/
structure Extends (before : Tables Schema) (done : List (Migration ε Schema))
    (after : Tables Schema) : Prop where
  schema : migrate done before.schema = .ok after.schema
  versions : versions after = versions before ++ done.map Migration.version
  unique : (Migrations.versions before).Nodup → (Migrations.versions after).Nodup
  kept : rows before <+: rows after

/-- No migration has been added, and the schema is what it was. -/
abbrev Unmoved (ε : Type) (before after : Tables Schema) : Prop :=
  Extends before ([] : List (Migration ε Schema)) after

/-- A file that nothing was done to has had no migration added. -/
theorem Extends.refl (tables : Tables Schema) : Unmoved ε tables tables where
  schema := rfl
  versions := (List.append_nil _).symm
  unique := id
  kept := List.prefix_rfl

/-- What was added first and what was added then has been added in this order. -/
theorem Extends.trans {first second third : Tables Schema} {done more : List (Migration ε Schema)}
    (hfirst : Extends first done second) (hsecond : Extends second more third) :
    Extends first (done ++ more) third where
  schema := by
    rw [migrate_append, hfirst.schema]
    exact hsecond.schema
  versions := by
    rw [hsecond.versions, hfirst.versions, List.map_append, List.append_assoc]
  unique := hsecond.unique ∘ hfirst.unique
  kept := hfirst.kept.trans hsecond.kept

variable {before after : Connection (Tables Schema)}

/-- When all statements of a migration succeed, the schema is what they make of it and the table
of versions is untouched. -/
theorem upStatements_returns {ups : List (Schema → Except ε Schema)}
    (hreturns : (forM ups fun up => statement (upStatement up)).Returns before () after) :
    ups.foldlM (fun schema up => up schema) before.content.schema = .ok after.content.schema ∧
      after.content.schemaMigrations = before.content.schemaMigrations := by
  induction ups generalizing before with
  | nil =>
      obtain ⟨-, rfl⟩ := Effect.returns_pure_iff.mp hreturns
      exact ⟨rfl, rfl⟩
  | cons up ups ih =>
      rw [List.forM_cons] at hreturns
      obtain ⟨_, middle, hfirst, hrest⟩ := Effect.returns_bind_iff.mp hreturns
      have heffect := (statement_returns hfirst).1
      obtain ⟨hschema, hrows⟩ := ih hrest
      rw [upStatement] at heffect
      cases hup : up before.content.schema with
      | error error =>
          rw [hup] at heffect
          cases heffect
      | ok schema =>
          rw [hup] at heffect
          obtain ⟨-, htables⟩ := Prod.mk.inj (Except.ok.inj heffect)
          rw [← htables] at hschema hrows
          refine ⟨?_, hrows⟩
          rw [List.foldlM_cons, hup]
          exact hschema

/-- The statements of a migration are plain statements, one after the other. -/
theorem built_upStatements (ups : List (Schema → Except ε Schema)) :
    Built (forM ups fun up => statement (upStatement up) : Runner ε Schema Unit) := by
  induction ups with
  | nil => exact .pure ()
  | cons up ups ih =>
      rw [List.forM_cons]
      exact .bind (.statement _) fun _ => ih

/-- So is the whole body of a migration's transaction, with the row at its end. -/
theorem built_migration (migration : Migration ε Schema) (row : AppliedMigrationRow) :
    Built (do
      forM migration.up fun up => statement (upStatement up)
      statement (insertRow row) : Runner ε Schema Unit) :=
  .bind (built_upStatements migration.up) fun _ => .statement _

/-- A row that could be inserted is the newest, and its version was not there before. -/
theorem insertRow_ok {row : AppliedMigrationRow} {tables left : Tables Schema}
    (hinsert : (insertRow row tables : Except (Error ε) (Unit × Tables Schema)) =
      .ok ((), left)) :
    left.schema = tables.schema ∧ rows left = rows tables ++ [row] ∧
      row.version ∉ versions tables := by
  rw [insertRow] at hinsert
  split at hinsert
  · cases hinsert
  · rename_i found hfound
    split at hinsert
    · cases hinsert
    · rename_i hfresh
      obtain ⟨-, rfl⟩ := Prod.mk.inj (Except.ok.inj hinsert)
      rw [versions, rows, rows, hfound]
      exact ⟨rfl, rfl, hfresh⟩

/-- A migration that returns has added itself and nothing else, and no transaction stays open. -/
theorem applyMigration_returns {now : String} {migration : Migration ε Schema}
    (hreturns : (applyMigration now migration).Returns before () after) :
    Extends before.content [migration] after.content ∧ after.saved = before.saved := by
  obtain ⟨opened, inner, hopened, hbody, hcontent, hsaved⟩ :=
    transaction_returns (built_migration migration _).neat hreturns
  obtain ⟨_, middle, hups, hinsert⟩ := Effect.returns_bind_iff.mp hbody
  obtain ⟨hschema, htable⟩ := upStatements_returns hups
  obtain ⟨hsame, hrows, hfresh⟩ := insertRow_ok (statement_returns hinsert).1
  have hmiddle : rows middle.content = rows before.content := by
    rw [rows, htable, hopened.1, rows]
  rw [hopened.1] at hschema
  rw [← hcontent] at hsame hrows
  rw [versions, hmiddle, ← versions] at hfresh
  rw [hmiddle] at hrows
  have hversions : versions after.content = versions before.content ++ [migration.version] := by
    rw [versions, hrows, List.map_append]
    rfl
  refine ⟨⟨?_, hversions, fun hunique => ?_, ?_⟩, hsaved⟩
  · rw [hsame]
    exact (bind_pure (migration.migrate before.content.schema)).trans hschema
  · rw [hversions]
    exact hunique.append (List.nodup_singleton _) (List.disjoint_singleton.mpr hfresh)
  · rw [hrows]
    exact List.prefix_append _ _

/-- A migration that throws has added nothing: its transaction has been undone. -/
theorem applyMigration_throws {now : String} {migration : Migration ε Schema}
    {failure : Failure (Error ε)}
    (hthrows : (applyMigration now migration).Throws before failure after) :
    before.Undone after :=
  transaction_throws (built_migration migration _).neat hthrows

/- One start -/

/-- The loop of a start over the migrations that its build has. -/
def applyAll (now : String) (applied : List Int) (pending : List (Migration ε Schema)) :
    Runner ε Schema Unit :=
  forM pending fun migration =>
    if migration.version ∈ applied then pure () else applyMigration now migration

/-- What is left to apply, by the versions that were read at the beginning. -/
def unapplied (applied : List Int) (pending : List (Migration ε Schema)) :
    List (Migration ε Schema) :=
  pending.filter fun migration => migration.version ∉ applied

/-- One round of the loop. -/
theorem applyAll_cons (now : String) (applied : List Int) (migration : Migration ε Schema)
    (pending : List (Migration ε Schema)) :
    applyAll now applied (migration :: pending) =
      if migration.version ∈ applied then applyAll now applied pending
      else (do applyMigration now migration; applyAll now applied pending) := by
  rw [applyAll, List.forM_cons]
  split
  · exact pure_bind _ _
  · rfl

theorem unapplied_cons (applied : List Int) (migration : Migration ε Schema)
    (pending : List (Migration ε Schema)) :
    unapplied applied (migration :: pending) =
      if migration.version ∈ applied then unapplied applied pending
      else migration :: unapplied applied pending := by
  rw [unapplied, List.filter_cons]
  split
  · rename_i hfresh
    rw [if_neg (of_decide_eq_true hfresh)]
    rfl
  · rename_i hold
    rw [if_pos (not_not.mp fun hfresh => hold (decide_eq_true hfresh))]
    rfl

/-- A loop that returns has added exactly what was missing, in order, and has left no
transaction open. -/
theorem applyAll_returns {now : String} {applied : List Int} {pending : List (Migration ε Schema)}
    (hreturns : (applyAll now applied pending).Returns before () after) :
    Extends before.content (unapplied applied pending) after.content ∧
      after.saved = before.saved := by
  induction pending generalizing before with
  | nil =>
      obtain ⟨-, rfl⟩ := Effect.returns_pure_iff.mp hreturns
      exact ⟨Extends.refl _, rfl⟩
  | cons migration pending ih =>
      rw [applyAll_cons] at hreturns
      rw [unapplied_cons]
      by_cases hold : migration.version ∈ applied
      · rw [if_pos hold] at hreturns ⊢
        exact ih hreturns
      · rw [if_neg hold] at hreturns ⊢
        obtain ⟨_, middle, hfirst, hrest⟩ := Effect.returns_bind_iff.mp hreturns
        obtain ⟨hextends, hsaved⟩ := applyMigration_returns hfirst
        obtain ⟨hothers, hothersSaved⟩ := ih hrest
        exact ⟨hextends.trans hothers, hothersSaved.trans hsaved⟩

/-- Wherever it breaks off, some migrations are through and the next has left no trace. -/
theorem applyAll_throws {now : String} {applied : List Int} {pending : List (Migration ε Schema)}
    {failure : Failure (Error ε)} (hclosed : before.saved = [])
    (hthrows : (applyAll now applied pending).Throws before failure after) :
    ∃ done, done <+: unapplied applied pending ∧
      Extends before.content done after.content ∧ after.saved = [] := by
  induction pending generalizing before with
  | nil => exact absurd hthrows Effect.not_throws_pure
  | cons migration pending ih =>
      rw [applyAll_cons] at hthrows
      rw [unapplied_cons]
      by_cases hold : migration.version ∈ applied
      · rw [if_pos hold] at hthrows ⊢
        exact ih hclosed hthrows
      · rw [if_neg hold] at hthrows ⊢
        rcases Effect.throws_bind_iff.mp hthrows with hfirst | ⟨_, middle, hfirst, hrest⟩
        · refine ⟨[], List.nil_prefix, ?_, ?_⟩
          · rcases applyMigration_throws hfirst with ⟨-, hcontent⟩ | ⟨-, hcontent⟩
            · rw [hcontent]
              exact Extends.refl _
            · rw [hcontent, Connection.durable_of_nil hclosed]
              exact Extends.refl _
          · rcases applyMigration_throws hfirst with ⟨hsaved, -⟩ | ⟨hsaved, -⟩
            · exact hsaved.trans hclosed
            · exact hsaved
        · obtain ⟨hextends, hsaved⟩ := applyMigration_returns hfirst
          obtain ⟨done, hdone, hothers, hend⟩ := ih (hsaved.trans hclosed) hrest
          exact ⟨migration :: done, List.cons_prefix_cons.mpr ⟨rfl, hdone⟩,
            hextends.trans hothers, hend⟩

/-- A build that knows nothing newer than the database has been through, or all that it has. -/
def Current (migrations : List (Migration ε Schema)) (tables : Tables Schema) : Prop :=
  appliedMaxVersion ((versions tables).mergeSort (· ≤ ·)) ≤ knownMaxVersion migrations

/-- The migrations that a start of this build would apply to a file. -/
def pending (migrations : List (Migration ε Schema)) (tables : Tables Schema) :
    List (Migration ε Schema) :=
  unapplied ((versions tables).mergeSort (· ≤ ·)) (sorted migrations)

/-- Creating the table of versions adds no migration. -/
theorem createTable_extends {tables left : Tables Schema}
    (hcreate : (createTable tables : Except (Error ε) _) = .ok ((), left)) :
    Unmoved ε tables left := by
  obtain ⟨-, rfl⟩ := Prod.mk.inj (Except.ok.inj hcreate)
  exact ⟨rfl, (List.append_nil _).symm, id, List.prefix_rfl⟩

/-- Reading the versions changes nothing and brings all of them. -/
theorem selectVersions_ok {tables left : Tables Schema} {found : List Int}
    (hselect : (selectVersions tables : Except (Error ε) _) = .ok (found, left)) :
    found = (versions tables).mergeSort (· ≤ ·) ∧ left = tables := by
  rw [selectVersions] at hselect
  split at hselect
  · cases hselect
  · rename_i found hfound
    obtain ⟨rfl, rfl⟩ := Prod.mk.inj (Except.ok.inj hselect)
    rw [versions, rows, hfound]
    exact ⟨rfl, rfl⟩

/-- A transaction that was undone has added no migration. -/
theorem Extends.of_undone {before after : Connection (Tables Schema)}
    (hclosed : before.saved = [])
    (hundone : before.Undone after) :
    Unmoved ε before.content after.content ∧ after.saved = [] := by
  rcases hundone with ⟨hsaved, hcontent⟩ | ⟨hsaved, hcontent⟩
  · rw [hcontent]
    exact ⟨Extends.refl _, hsaved.trans hclosed⟩
  · rw [hcontent, Connection.durable_of_nil hclosed]
    exact ⟨Extends.refl _, hsaved⟩

/-- The check throws or passes, and does nothing else. -/
theorem assertNoDuplicateVersions_cases (migrations : List (Migration ε Schema)) :
    (∃ failure, assertNoDuplicateVersions migrations = throw failure) ∨
      assertNoDuplicateVersions migrations = pure () := by
  rw [assertNoDuplicateVersions]
  split
  · exact Or.inl ⟨_, rfl⟩
  · exact Or.inr rfl

theorem assertNoDuplicateVersions_left {migrations : List (Migration ε Schema)}
    {before after : Connection (Tables Schema)} :
    ((assertNoDuplicateVersions migrations).Returns before () after → after = before) ∧
      ∀ failure, (assertNoDuplicateVersions migrations).Throws before failure after →
        after = before := by
  rcases assertNoDuplicateVersions_cases migrations with ⟨thrown, hthrow⟩ | hpure
  · rw [hthrow]
    exact ⟨fun hreturns => absurd hreturns Effect.not_returns_throw,
      fun _ hthrows => (Effect.throws_throw_iff.mp hthrows).2.symm⟩
  · rw [hpure]
    exact ⟨fun hreturns => (Effect.returns_pure_iff.mp hreturns).2.symm,
      fun _ hthrows => absurd hthrows Effect.not_throws_pure⟩

/-- What follows once the versions have been read: a refusal, or the loop. -/
def refuseOrApply (now : String) (migrations : List (Migration ε Schema)) (applied : List Int) :
    Runner ε Schema Unit :=
  if appliedMaxVersion applied > knownMaxVersion migrations then
    throw (.thrown (.migration (newerSchema (appliedMaxVersion applied)
      (knownMaxVersion migrations))))
  else applyAll now applied (sorted migrations)

/-- A start, put in the order of what may fail: the check, the table, the versions, and then the
refusal or the loop. -/
theorem runMigrations_eq (now : String) (migrations : List (Migration ε Schema)) :
    runMigrations now migrations = (do
      assertNoDuplicateVersions migrations
      statement createTable
      let applied ← statement selectVersions
      refuseOrApply now migrations applied) := by
  rw [runMigrations]
  refine congrArg (assertNoDuplicateVersions migrations >>= ·) (funext fun _ => ?_)
  refine congrArg (statement createTable >>= ·) (funext fun _ => ?_)
  refine congrArg (statement selectVersions >>= ·) (funext fun applied => ?_)
  rw [refuseOrApply]
  split
  · rfl
  · rfl

/-- The versions are read before anything that counts has been done, and the file is as it was
by then. -/
theorem selected_spec {before created selected : Connection (Tables Schema)} {applied : List Int}
    (hclosed : before.saved = [])
    (hcreate : (statement createTable : Runner ε Schema Unit).Returns before () created)
    (hselect : (statement selectVersions : Runner ε Schema (List Int)).Returns created applied
      selected) :
    applied = (versions before.content).mergeSort (· ≤ ·) ∧
      Unmoved ε before.content selected.content ∧ selected.saved = [] := by
  have hextends := createTable_extends (statement_returns hcreate).1
  obtain ⟨hrows, hleft⟩ := selectVersions_ok (statement_returns hselect).1
  rw [hrows, hextends.versions, List.map_nil, List.append_nil, hleft]
  exact ⟨rfl, hextends, (statement_returns hselect).2.trans
    ((statement_returns hcreate).2.trans hclosed)⟩

/-- A start that returns has left the file current: it has every migration of the build, and
those it had. -/
theorem runMigrations_returns {now : String} {migrations : List (Migration ε Schema)}
    (hclosed : before.saved = [])
    (hreturns : (runMigrations now migrations).Returns before () after) :
    Current migrations before.content ∧
      Extends before.content (pending migrations before.content) after.content ∧
      after.saved = [] := by
  rw [runMigrations_eq] at hreturns
  obtain ⟨_, middle, hassert, hrest⟩ := Effect.returns_bind_iff.mp hreturns
  obtain rfl := assertNoDuplicateVersions_left.1 hassert
  obtain ⟨_, created, hcreate, hrest⟩ := Effect.returns_bind_iff.mp hrest
  obtain ⟨applied, selected, hselect, hrest⟩ := Effect.returns_bind_iff.mp hrest
  obtain ⟨rfl, hextends, hselected⟩ := selected_spec hclosed hcreate hselect
  rw [refuseOrApply] at hrest
  by_cases hnewer : appliedMaxVersion ((versions middle.content).mergeSort (· ≤ ·)) >
      knownMaxVersion migrations
  · rw [if_pos hnewer] at hrest
    exact absurd hrest Effect.not_returns_throw
  · rw [if_neg hnewer] at hrest
    obtain ⟨hothers, hsaved⟩ := applyAll_returns hrest
    exact ⟨Int.not_lt.mp hnewer, hextends.trans hothers, hsaved.trans hselected⟩

/-- A start that throws has added some of the missing migrations, in order, and each of them
wholly. It has added one only if the file was no newer than the build. -/
theorem runMigrations_throws {now : String} {migrations : List (Migration ε Schema)}
    {failure : Failure (Error ε)} (hclosed : before.saved = [])
    (hthrows : (runMigrations now migrations).Throws before failure after) :
    ∃ done, done <+: pending migrations before.content ∧
      Extends before.content done after.content ∧ after.saved = [] ∧
      (done ≠ [] → Current migrations before.content) := by
  have hnothing : Unmoved ε before.content after.content ∧ after.saved = [] →
      ∃ done, done <+: pending migrations before.content ∧
        Extends before.content done after.content ∧ after.saved = [] ∧
        (done ≠ [] → Current migrations before.content) := fun ⟨hextends, hsaved⟩ =>
    ⟨[], List.nil_prefix, hextends, hsaved, fun hne => absurd rfl hne⟩
  rw [runMigrations_eq] at hthrows
  rcases Effect.throws_bind_iff.mp hthrows with hassert | ⟨_, middle, hassert, hrest⟩
  · obtain rfl := assertNoDuplicateVersions_left.2 failure hassert
    exact hnothing ⟨Extends.refl _, hclosed⟩
  obtain rfl := assertNoDuplicateVersions_left.1 hassert
  rcases Effect.throws_bind_iff.mp hrest with hcreate | ⟨_, created, hcreate, hrest⟩
  · exact hnothing (Extends.of_undone hclosed (exec_throws hcreate))
  have hcreated := (statement_returns hcreate).2.trans hclosed
  rcases Effect.throws_bind_iff.mp hrest with hselect | ⟨applied, selected, hselect, hrest⟩
  · obtain ⟨hextends, hsaved⟩ := Extends.of_undone hcreated (exec_throws hselect)
    exact hnothing ⟨(createTable_extends (statement_returns hcreate).1).trans hextends, hsaved⟩
  obtain ⟨rfl, hextends, hselected⟩ := selected_spec hclosed hcreate hselect
  rw [refuseOrApply] at hrest
  by_cases hnewer : appliedMaxVersion ((versions middle.content).mergeSort (· ≤ ·)) >
      knownMaxVersion migrations
  · rw [if_pos hnewer] at hrest
    obtain ⟨-, rfl⟩ := Effect.throws_throw_iff.mp hrest
    exact hnothing ⟨hextends, hselected⟩
  · rw [if_neg hnewer] at hrest
    obtain ⟨done, hdone, hothers, hsaved⟩ := applyAll_throws hselected hrest
    exact ⟨done, hdone, hextends.trans hothers, hsaved, fun _ => Int.not_lt.mp hnewer⟩

/-- What a start does to the file: a first part of what is pending, and all of it when the
program gets past it. -/
theorem Start.run_spec (start : Start ε Schema) (file : Tables Schema) :
    ∃ done, done <+: pending start.migrations file ∧ Extends file done (start.run file).2 ∧
      (done ≠ [] → Current start.migrations file) ∧
      ((start.run file).1 = .ok () →
        Current start.migrations file ∧ done = pending start.migrations file) := by
  rcases Effect.returns_or_throws (runMigrations start.now start.migrations)
    ⟨file, [], start.faults⟩ with ⟨⟨⟩, hreturns⟩ | ⟨failure, hthrows⟩
  · obtain ⟨hcurrent, hextends, hsaved⟩ := runMigrations_returns rfl hreturns
    have hfile : (start.run file).2 = ((runMigrations start.now start.migrations).run.run
        ⟨file, [], start.faults⟩).2.content := Connection.durable_of_nil hsaved
    rw [hfile]
    exact ⟨_, List.prefix_rfl, hextends, fun _ => hcurrent, fun _ => ⟨hcurrent, rfl⟩⟩
  · obtain ⟨done, hdone, hextends, hsaved, hcurrent⟩ := runMigrations_throws rfl hthrows
    have hfile : (start.run file).2 = ((runMigrations start.now start.migrations).run.run
        ⟨file, [], start.faults⟩).2.content := Connection.durable_of_nil hsaved
    have hresult : (start.run file).1 = .error failure := congrArg Prod.fst hthrows
    rw [hfile, hresult]
    exact ⟨done, hdone, hextends, hcurrent, nofun⟩

/- The life of a database -/

/-- The file after several starts, the later on what the earlier have left. -/
def runAll (file : Tables Schema) (starts : List (Start ε Schema)) : Tables Schema :=
  starts.foldl (fun file start => (start.run file).2) file

/-- Starts may be counted in two parts. -/
theorem runAll_append (file : Tables Schema) (first second : List (Start ε Schema)) :
    runAll file (first ++ second) = runAll (runAll file first) second :=
  List.foldl_append

/-- An empty file, without even the table of versions. -/
def empty (initial : Schema) : Tables Schema := ⟨initial, none⟩

theorem mem_unapplied {applied : List Int} {pending : List (Migration ε Schema)}
    {migration : Migration ε Schema} :
    migration ∈ unapplied applied pending ↔
      migration ∈ pending ∧ migration.version ∉ applied := by
  rw [unapplied, List.mem_filter, decide_eq_true_eq]

theorem mem_sorted {migrations : List (Migration ε Schema)} {migration : Migration ε Schema} :
    migration ∈ sorted migrations ↔ migration ∈ migrations :=
  List.mem_mergeSort

/-- What a start would apply are the migrations of its build whose version the file does not
have. -/
theorem mem_pending {migrations : List (Migration ε Schema)} {tables : Tables Schema}
    {migration : Migration ε Schema} :
    migration ∈ pending migrations tables ↔
      migration ∈ migrations ∧ migration.version ∉ versions tables := by
  rw [pending, mem_unapplied, mem_sorted, List.mem_mergeSort]

/-- The highest version of a file is bounded by what bounds every version, and by nothing below
zero. -/
theorem appliedMaxVersion_le {found : List Int} {bound : Int} :
    appliedMaxVersion found ≤ bound ↔ 0 ≤ bound ∧ ∀ version ∈ found, version ≤ bound := by
  have hfold : ∀ start, found.foldl max start ≤ bound ↔
      start ≤ bound ∧ ∀ version ∈ found, version ≤ bound := by
    induction found with
    | nil => exact fun start => (and_iff_left nofun).symm
    | cons version found ih =>
        intro start
        rw [List.foldl_cons, ih, Int.max_le, List.forall_mem_cons, and_assoc]
  exact hfold 0

theorem pairwise_sorted (migrations : List (Migration ε Schema)) :
    (sorted migrations).Pairwise fun a b => a.version ≤ b.version := by
  have hsorted := @List.pairwise_mergeSort _ (fun a b : Migration ε Schema =>
    decide (a.version ≤ b.version))
    (fun a b c hab hbc => decide_eq_true
      (Int.le_trans (of_decide_eq_true hab) (of_decide_eq_true hbc)))
    (fun a b => by
      rw [Bool.or_eq_true, decide_eq_true_eq, decide_eq_true_eq]
      exact Int.le_total a.version b.version) migrations
  exact hsorted.imp of_decide_eq_true

/-- No migration of a build is above the build's highest version. -/
theorem le_knownMaxVersion {migrations : List (Migration ε Schema)}
    {migration : Migration ε Schema} (hmem : migration ∈ migrations) :
    migration.version ≤ knownMaxVersion migrations := by
  have hsorted := pairwise_sorted migrations
  have hmem := mem_sorted.mpr hmem
  rw [knownMaxVersion]
  rcases List.eq_nil_or_concat' (sorted migrations) with hnil | ⟨front, last, hfront⟩
  · rw [hnil] at hmem
    cases hmem
  · rw [hfront] at hmem hsorted ⊢
    rw [List.getLast?_concat]
    rcases List.mem_append.mp hmem with hmem | hmem
    · exact (List.pairwise_append.mp hsorted).2.2 migration hmem last List.mem_cons_self
    · rw [List.mem_singleton.mp hmem]
      exact Int.le_refl _

/-- A file to which no migration was added has its schema and its rows as before. -/
theorem Extends.of_nil {before after : Tables Schema} (hextends : Unmoved ε before after) :
    after.schema = before.schema ∧ rows after = rows before := by
  refine ⟨(Except.ok.inj hextends.schema).symm, (hextends.kept.eq_of_length ?_).symm⟩
  have hlength := congrArg List.length hextends.versions
  rw [List.map_nil, List.append_nil, Migrations.versions, Migrations.versions, List.length_map,
    List.length_map] at hlength
  exact hlength.symm

/-- What a database has been through, and where it came from: every start has added a part, and
together they are the history. -/
theorem runAll_history (initial : Schema) (starts : List (Start ε Schema)) :
    ∃ history : List (Migration ε Schema),
      (∀ migration ∈ history, ∃ start ∈ starts, migration ∈ start.migrations) ∧
      Extends (empty initial) history (runAll (empty initial) starts) := by
  induction starts using List.reverseRecOn with
  | nil => exact ⟨[], nofun, Extends.refl _⟩
  | append_singleton starts start ih =>
      obtain ⟨history, hknown, hextends⟩ := ih
      rw [runAll_append]
      obtain ⟨done, hdone, hmore, -⟩ := start.run_spec (runAll (empty initial) starts)
      refine ⟨history ++ done, ?_, hextends.trans hmore⟩
      intro migration hmem
      rcases List.mem_append.mp hmem with hmem | hmem
      · obtain ⟨earlier, hearlier, hmigration⟩ := hknown migration hmem
        exact ⟨earlier, List.mem_append_left _ hearlier, hmigration⟩
      · have hpending := mem_pending.mp (hdone.subset hmem)
        exact ⟨start, List.mem_append_right _ List.mem_cons_self, hpending.1⟩

/-- Whatever builds have been started, however their statements have failed: a database has
been through a list of migrations, each once, and its schema is what these make of an empty
one.  A migration that is recorded stays so; a start that gets through has every migration of
its build recorded and nothing newer; where something newer is recorded it changes nothing. -/
theorem migrations_followHistory (initial : Schema) (starts : List (Start ε Schema))
    (next : Start ε Schema) :
    (∃ history : List (Migration ε Schema),
      (∀ migration ∈ history, ∃ start ∈ starts, migration ∈ start.migrations) ∧
      versions (runAll (empty initial) starts) = history.map Migration.version ∧
      (history.map Migration.version).Nodup ∧
      migrate history initial = .ok (runAll (empty initial) starts).schema) ∧
    (let file := runAll (empty initial) starts
     let left := (next.run file).2
     rows file <+: rows left ∧
      ((next.run file).1 = .ok () →
        (∀ migration ∈ next.migrations, migration.version ∈ versions left) ∧
        ∀ version ∈ versions left, version ≤ knownMaxVersion next.migrations) ∧
      ((∃ version ∈ versions file, knownMaxVersion next.migrations < version) →
        (next.run file).1 ≠ .ok () ∧ left.schema = file.schema ∧ rows left = rows file)) := by
  constructor
  · obtain ⟨history, hknown, hextends⟩ := runAll_history initial starts
    have hversions : versions (runAll (empty initial) starts) = history.map Migration.version :=
      hextends.versions
    exact ⟨history, hknown, hversions, hversions ▸ hextends.unique List.nodup_nil,
      hextends.schema⟩
  · intro file left
    obtain ⟨done, hdone, hextends, hcurrent, hthrough⟩ := next.run_spec file
    refine ⟨hextends.kept, ?_, ?_⟩
    · intro hok
      obtain ⟨hnewest, rfl⟩ := hthrough hok
      rw [hextends.versions]
      constructor
      · intro migration hmem
        rw [List.mem_append]
        by_cases hold : migration.version ∈ versions file
        · exact Or.inl hold
        · exact Or.inr (List.mem_map_of_mem (mem_pending.mpr ⟨hmem, hold⟩))
      · intro version hversion
        rcases List.mem_append.mp hversion with hold | hnew
        · exact (appliedMaxVersion_le.mp hnewest).2 version (List.mem_mergeSort.mpr hold)
        · obtain ⟨migration, hmem, rfl⟩ := List.mem_map.mp hnew
          exact le_knownMaxVersion (mem_pending.mp hmem).1
    · rintro ⟨version, hversion, hnewer⟩
      have hbehind : ¬ Current next.migrations file := fun hnewest =>
        Int.not_le.mpr hnewer ((appliedMaxVersion_le.mp hnewest).2 version
          (List.mem_mergeSort.mpr hversion))
      have hnil : done = [] := by
        by_contra hne
        exact hbehind (hcurrent hne)
      rw [hnil] at hextends
      exact ⟨fun hok => hbehind (hthrough hok).1, hextends.of_nil⟩

/- Releases -/

/-- The migrations of successive releases, each of which adds some behind the others. -/
structure Line (line : List (Migration ε Schema)) : Prop where
  ascending : line.Pairwise fun a b => a.version < b.version
  positive : ∀ migration ∈ line, 0 < migration.version

/-- The start of a release that has the first migrations of the line, in whatever order. -/
def Start.Releases (start : Start ε Schema) (line : List (Migration ε Schema)) (known : Nat) :
    Prop :=
  known ≤ line.length ∧ start.migrations.Perm (line.take known)

/-- A database that is where a fresh one is after the first migrations of the line. -/
structure At (initial : Schema) (line : List (Migration ε Schema)) (reached : Nat)
    (tables : Tables Schema) : Prop where
  bound : reached ≤ line.length
  versions : versions tables = (line.take reached).map Migration.version
  schema : migrate (line.take reached) initial = .ok tables.schema

section Releases

variable {initial : Schema} {line : List (Migration ε Schema)} {start : Start ε Schema}
  {known reached : Nat} {file : Tables Schema}

/-- A build whose migrations are all older has a lower highest version. -/
theorem knownMaxVersion_lt {migrations : List (Migration ε Schema)} {version : Int}
    (hpositive : 0 < version) (hbelow : ∀ migration ∈ migrations, migration.version < version) :
    knownMaxVersion migrations < version := by
  rw [knownMaxVersion]
  cases hlast : (sorted migrations).getLast? with
  | none => exact hpositive
  | some last => exact hbelow last (mem_sorted.mp (List.mem_of_getLast? hlast))

/-- The migrations of a release, put in order, are the first ones of the line. -/
theorem Start.Releases.sorted_eq (hline : Line line) (hstart : start.Releases line known) :
    sorted start.migrations = line.take known := by
  have htake : (line.take known).Pairwise fun a b => a.version < b.version :=
    hline.ascending.sublist (List.take_sublist known line)
  have hperm : (sorted start.migrations).Perm (line.take known) :=
    (List.mergeSort_perm _ _).trans hstart.2
  refine hperm.eq_of_pairwise ?_ (pairwise_sorted _) (htake.imp Int.le_of_lt)
  intro a b ha hb hab hba
  have hdistinct : ((line.take known).map Migration.version).Nodup :=
    List.pairwise_map.mpr (htake.imp Int.ne_of_lt)
  exact List.inj_on_of_nodup_map hdistinct (hperm.subset ha) hb (Int.le_antisymm hab hba)

/-- What a release has to apply is the part of the line between what the file has reached and
what the release knows. -/
theorem pending_eq (hline : Line line) (hstart : start.Releases line known)
    (hat : At initial line reached file) :
    pending start.migrations file = (line.drop reached).take (known - reached) := by
  have hcut : line.take known =
      (line.take known).take reached ++ (line.drop reached).take (known - reached) := by
    rw [← List.drop_take, List.take_append_drop]
  have hold : ((line.take known).take reached).filter
      (fun migration => migration.version ∉ versions file) = [] := by
    rw [List.filter_eq_nil_iff]
    intro migration hmem
    rw [decide_eq_true_eq, not_not, hat.versions]
    refine List.mem_map_of_mem ?_
    rw [List.take_take] at hmem
    exact List.take_subset_take_left line (Nat.min_le_left _ _) hmem
  have hnew : ((line.drop reached).take (known - reached)).filter
      (fun migration => migration.version ∉ versions file) =
        (line.drop reached).take (known - reached) := by
    rw [List.filter_eq_self]
    intro migration hmem
    rw [decide_eq_true_eq, hat.versions]
    intro hseen
    obtain ⟨earlier, hearlier, heq⟩ := List.mem_map.mp hseen
    have hsplit := hline.ascending
    rw [← List.take_append_drop reached line] at hsplit
    have hlt := (List.pairwise_append.mp hsplit).2.2 earlier hearlier migration
      (List.mem_of_mem_take hmem)
    exact absurd heq (Int.ne_of_lt hlt)
  have hpending : pending start.migrations file =
      (line.take known).filter fun migration => migration.version ∉ versions file := by
    rw [pending, unapplied, hstart.sorted_eq hline]
    exact List.filter_congr fun migration _ =>
      decide_eq_decide.mpr (not_congr List.mem_mergeSort)
  rw [hpending, hcut, List.filter_append, hold, hnew, List.nil_append]

/-- A release that is behind a database finds it newer than its own line. -/
theorem At.behind (hline : Line line) (hstart : start.Releases line known)
    (hat : At initial line reached file) (hbehind : known < reached) :
    ¬ Current start.migrations file := by
  intro hcurrent
  have hin : known < line.length := Nat.lt_of_lt_of_le hbehind hat.bound
  have hmem : line.get ⟨known, hin⟩ ∈ line.take reached :=
    List.mem_take_iff_getElem.mpr ⟨known, by omega, rfl⟩
  have hversion : (line.get ⟨known, hin⟩).version ∈ Migrations.versions file := by
    rw [hat.versions]
    exact List.mem_map_of_mem hmem
  have hle := (appliedMaxVersion_le.mp hcurrent).2 _ (List.mem_mergeSort.mpr hversion)
  refine Int.not_le.mpr (knownMaxVersion_lt (hline.positive _ (List.get_mem line _)) ?_) hle
  intro migration hmigration
  have hfirst := hstart.2.subset hmigration
  have hsplit := hline.ascending
  rw [← List.take_append_drop known line] at hsplit
  refine (List.pairwise_append.mp hsplit).2.2 migration hfirst _ ?_
  rw [List.drop_eq_getElem_cons hin]
  exact List.mem_cons_self

/-- One start moves a database along the line, as far as the release goes at most. -/
theorem At.run (hline : Line line) (hstart : start.Releases line known)
    (hat : At initial line reached file) :
    ∃ next, At initial line next (start.run file).2 ∧ reached ≤ next ∧
      (known < reached → next = reached ∧ (start.run file).1 ≠ .ok ()) ∧
      (reached ≤ known → next ≤ known ∧ ((start.run file).1 = .ok () → next = known)) := by
  obtain ⟨done, hdone, hextends, -, hthrough⟩ := start.run_spec file
  rw [pending_eq hline hstart hat] at hdone hthrough
  have hlength : ((line.drop reached).take (known - reached)).length = known - reached := by
    rw [List.length_take, List.length_drop]
    exact Nat.min_eq_left (Nat.sub_le_sub_right hstart.1 reached)
  have hshort := hdone.length_le
  rw [hlength] at hshort
  have htake : done = (line.drop reached).take done.length := by
    have hprefix := hdone.trans (List.take_prefix _ _)
    exact List.prefix_iff_eq_take.mp hprefix
  have hnext : line.take (reached + done.length) = line.take reached ++ done := by
    rw [List.take_add, ← htake]
  have hbound : reached + done.length ≤ line.length := by
    by_cases hle : reached ≤ known
    · exact (Nat.add_le_of_le_sub' hle hshort).trans hstart.1
    · have hzero : done.length = 0 := by omega
      rw [hzero]
      exact hat.bound
  refine ⟨reached + done.length, ⟨hbound, ?_, ?_⟩, Nat.le_add_right _ _, ?_, ?_⟩
  · rw [hextends.versions, hat.versions, hnext, List.map_append]
  · rw [hnext, migrate_append, hat.schema]
    exact hextends.schema
  · intro hbehind
    exact ⟨by omega, fun hok => hat.behind hline hstart hbehind (hthrough hok).1⟩
  · intro hle
    refine ⟨Nat.add_le_of_le_sub' hle hshort, fun hok => ?_⟩
    rw [(hthrough hok).2, hlength]
    exact Nat.add_sub_cancel' hle

end Releases

/-- However a database was brought up to date, by whatever releases and through whatever
failures, its schema is the one that a fresh database gets from the first migrations of the
line.  A release that is behind it is refused and changes nothing; any other takes it no further
than it knows, and just there when it gets through. -/
theorem migrations_followLine {line : List (Migration ε Schema)} (hline : Line line)
    (initial : Schema) (starts : List (Start ε Schema))
    (hstarts : ∀ start ∈ starts, ∃ known, start.Releases line known)
    (next : Start ε Schema) {known : Nat} (hnext : next.Releases line known) :
    ∃ reached, At initial line reached (runAll (empty initial) starts) ∧
      ∃ left, At initial line left (next.run (runAll (empty initial) starts)).2 ∧
        reached ≤ left ∧
        (known < reached → left = reached ∧
          (next.run (runAll (empty initial) starts)).1 ≠ .ok ()) ∧
        (reached ≤ known → left ≤ known ∧
          ((next.run (runAll (empty initial) starts)).1 = .ok () → left = known)) := by
  obtain ⟨reached, hat⟩ : ∃ reached, At initial line reached (runAll (empty initial) starts) := by
    induction starts using List.reverseRecOn with
    | nil => exact ⟨0, Nat.zero_le _, rfl, rfl⟩
    | append_singleton starts start ih =>
        obtain ⟨reached, hat⟩ := ih fun other hother =>
          hstarts other (List.mem_append_left _ hother)
        obtain ⟨known, hstart⟩ := hstarts start (List.mem_append_right _ List.mem_cons_self)
        obtain ⟨left, hleft, -⟩ := hat.run hline hstart
        rw [runAll_append]
        exact ⟨left, hleft⟩
  exact ⟨reached, hat, hat.run hline hnext⟩

def twoMigrations : List (Migration Unit Nat) :=
  [⟨1, "initial", [fun number => .ok (number + 1)]⟩,
    ⟨2, "auth", [fun number => .ok (number * 2)]⟩]

def oldRelease : Start Unit Nat := ⟨twoMigrations.take 1, "", []⟩

def newRelease : Start Unit Nat := ⟨twoMigrations, "", []⟩

/-- The newer release leaves the database somewhere on the line.  Where it gets through, both
migrations are recorded, each has acted once, and the older release starts no more. -/
theorem migrations_followLine_two :
    (∃ left, At 0 twoMigrations left (newRelease.run (runAll (empty 0) [oldRelease])).2) ∧
      ((newRelease.run (runAll (empty 0) [oldRelease])).1 = .ok () →
        versions (runAll (empty 0) [oldRelease, newRelease]) = [1, 2] ∧
          (runAll (empty 0) [oldRelease, newRelease]).schema = 2 ∧
          (oldRelease.run (runAll (empty 0) [oldRelease, newRelease])).1 ≠ .ok ()) := by
  have hline : Line twoMigrations := ⟨by decide, by decide⟩
  have hold : oldRelease.Releases twoMigrations 1 := ⟨by decide, List.Perm.refl _⟩
  have hnew : newRelease.Releases twoMigrations 2 := ⟨by decide, List.Perm.refl _⟩
  have hreleases : ∀ start ∈ [oldRelease, newRelease],
      ∃ known, start.Releases twoMigrations known :=
    List.forall_mem_cons.mpr ⟨⟨1, hold⟩, List.forall_mem_singleton.mpr ⟨2, hnew⟩⟩
  obtain ⟨reached, hreached, left, hleft, -, -, hends⟩ := migrations_followLine hline 0
    [oldRelease] (List.forall_mem_singleton.mpr ⟨1, hold⟩) newRelease hnew
  refine ⟨⟨left, hleft⟩, fun hok => ?_⟩
  obtain rfl : left = 2 := (hends hreached.bound).2 hok
  obtain ⟨found, hfound, _, _, _, hbehind, _⟩ :=
    migrations_followLine hline 0 [oldRelease, newRelease] hreleases oldRelease hold
  have hversions : versions (runAll (empty 0) [oldRelease, newRelease]) = [1, 2] :=
    hleft.versions
  refine ⟨hversions, (Except.ok.inj hleft.schema).symm, (hbehind ?_).2⟩
  -- Two versions are recorded, so that the older release is behind.
  have hlength := congrArg List.length (hversions.symm.trans hfound.versions)
  rw [List.length_map, List.length_take] at hlength
  exact Nat.lt_of_lt_of_le Nat.one_lt_two (hlength.le.trans (Nat.min_le_left _ _))

end Migrations

end MailPanel
