import MailPanel.Calendar
import MailPanel.ColdBackup
import MailPanel.JobRunner

/-
Scheduled backups: a timer asks the persisted schedule whether a backup is due, enqueues one
if so, and then records when it did.
-/

namespace MailPanel

namespace Backups

open Calendar IsoTime Jobs

/-- How often a scheduled backup is made. Days and weeks are so many milliseconds after the
anchor; a month is the same day of the next one. -/
inductive BackupFrequency where
  | off
  | daily
  | every3days
  | weekly
  | monthly
deriving DecidableEq, Repr

/-- The first of the month after the one of a date, and as many days on as the date has: a
day that the month lacks is one of the month after. -/
def sameDayNextMonth (days : Nat) : Nat :=
  let date := civilFromDays days
  let first :=
    if date.2.1 = 12 then daysFromCivil (date.1 + 1) 1 1
    else daysFromCivil date.1 (date.2.1 + 1) 1
  (first + date.2.2 - 1).toNat

/-- The next run after an instant, by the frequency: so many days later, or the same day of the
next month at the same time. -/
def computeNextRun (anchor : Nat) : BackupFrequency → Option Nat
  | .off => none
  | .daily => some (anchor + 86400000)
  | .every3days => some (anchor + 3 * 86400000)
  | .weekly => some (anchor + 7 * 86400000)
  | .monthly =>
      some (sameDayNextMonth (anchor / 86400000) * 86400000 + anchor % 86400000)

/-- What an update of the schedule sets, all at once; the anchor of the schedule is not among
the columns, and is moved by the service itself. -/
structure BackupScheduleUpdate where
  frequency : BackupFrequency
  mode : BackupMode
  retentionKeep : Nat
  retentionMaxAgeDays : Option Nat
  uploadToRemote : Bool
deriving DecidableEq, Repr

structure PersistedBackupSchedule extends BackupScheduleUpdate where
  updatedAt : Nat
  lastRunAt : Option Nat
deriving DecidableEq, Repr

/-- The row that is created when there is none. -/
def defaultSchedule (now : Nat) : PersistedBackupSchedule :=
  ⟨⟨.off, .warm, 3, none, false⟩, now, none⟩

namespace PersistedBackupSchedule

variable (schedule : PersistedBackupSchedule)

def anchor : Nat := schedule.lastRunAt.getD schedule.updatedAt

def isBackupDue (now : Nat) : Bool :=
  (computeNextRun schedule.anchor schedule.frequency).any fun next => next ≤ now

end PersistedBackupSchedule

inductive ScheduleEvent where
  | policyChanged (frequency : BackupFrequency) (time : Nat)
  | enqueued (mode : BackupMode) (time : Nat)
deriving DecidableEq, Repr

/-- The writes of a tick: the default row, the job, the time of the run, the audit trail. -/
structure TickFaults where
  get : Fault
  insert : Fault
  markRan : Fault
  audit : Fault
deriving DecidableEq, Repr

structure ScheduleServer where
  now : Nat
  schedule : Option PersistedBackupSchedule
  /-- What happened so far, the latest last; no code reads it. -/
  history : List ScheduleEvent
deriving DecidableEq, Repr

/-- One thing that happens to the scheduler: its timer fires, an administrator changes the
policy, time passes, or the panel is restarted and reads everything anew from the table. -/
inductive ScheduleLabel where
  /-- The timer fires; so much time passes until the run is recorded. -/
  | tick (spent : Nat) (faults : TickFaults)
  | updatePolicy (update : BackupScheduleUpdate) (fault : Fault)
  | elapse (milliseconds : Nat)
  | restart
deriving DecidableEq, Repr

namespace ScheduleServer

variable (s : ScheduleServer)

/-- The row that `get` leaves in the table. -/
def ensured (fault : Fault) : Option PersistedBackupSchedule :=
  match s.schedule, fault with
  | some schedule, _ => some schedule
  | none, .before => none
  | none, .none | none, .after => some (defaultSchedule s.now)

def due : Bool :=
  s.schedule.any fun schedule => schedule.isBackupDue s.now

/-- `runScheduledBackupTickOnce`; the timer logs what it throws. The job is queued before the
time of the run is recorded, and each of these writes may fail on its own. -/
def tick (spent : Nat) (faults : TickFaults) : ScheduleServer :=
  match s.schedule with
  | none => { s with schedule := s.ensured faults.get }
  | some schedule =>
      if schedule.frequency = .off then s
      else if !schedule.isBackupDue s.now then s
      else
        match faults.insert with
        | .before | .after => s
        | .none =>
            let later := s.now + spent
            let fired := { s with
              now := later
              history := s.history ++ [.enqueued schedule.mode later] }
            match faults.markRan with
            | .before => fired
            | .none | .after =>
                { fired with schedule := some { schedule with lastRunAt := some later } }

/-- A change of the policy measures from now on. -/
def updatePolicy (update : BackupScheduleUpdate) : Fault → ScheduleServer
  | .before => s
  | .none | .after => { s with
      schedule := some ⟨update, s.now, none⟩
      history := s.history ++ [.policyChanged update.frequency s.now] }

def step : ScheduleLabel → ScheduleServer
  | .tick spent faults => s.tick spent faults
  | .updatePolicy update fault => s.updatePolicy update fault
  | .elapse milliseconds => { s with now := s.now + milliseconds }
  | .restart => s

/-- A tick that enqueues a backup records that it ran. -/
def Records : ScheduleLabel → Prop
  | .tick _ faults => s.due = true → faults.insert = .none → faults.markRan ≠ .before
  | _ => True

/-- The frequency in force, and the instant that its first interval is measured from. -/
def measure : BackupFrequency × Nat :=
  match s.schedule with
  | none => (.off, 0)
  | some schedule => (schedule.frequency, schedule.anchor)

end ScheduleServer

/-- A full interval lies between two instants. -/
def Elapsed (frequency : BackupFrequency) (since now : Nat) : Prop :=
  ∃ next, computeNextRun since frequency = some next ∧ next ≤ now

/-- A full interval of the frequency in force lies before every backup, since the backup
before it or the change of the policy. -/
def Spaced : BackupFrequency × Nat → List ScheduleEvent → Prop
  | _, [] => True
  | _, .policyChanged frequency time :: rest => Spaced (frequency, time) rest
  | (frequency, since), .enqueued _ time :: rest =>
      Elapsed frequency since time ∧ Spaced (frequency, time) rest

/-- What the next backup is measured from. -/
def measureAfter : BackupFrequency × Nat → List ScheduleEvent → BackupFrequency × Nat
  | measure, [] => measure
  | _, .policyChanged frequency time :: rest => measureAfter (frequency, time) rest
  | (frequency, _), .enqueued _ time :: rest => measureAfter (frequency, time) rest

/- Intervals -/

theorem lt_sameDayNextMonth (days : Nat) : days < sameDayNextMonth days := by
  obtain ⟨hvalid, hdays⟩ := civilFromDays_spec days
  rw [sameDayNextMonth]
  generalize civilFromDays days = date at hvalid hdays ⊢
  obtain ⟨year, month, day⟩ := date
  have hlength : ∀ year month, 1 ≤ daysInMonth year month := by
    intro year month
    rw [daysInMonth]
    split_ifs <;> decide
  have hfirst : ValidDate year month 1 :=
    ⟨hvalid.month_pos, hvalid.month_le, Nat.le_refl 1, hlength year month⟩
  have hstart : daysFromCivil year month day = daysFromCivil year month 1 + day - 1 := by
    rw [daysFromCivil, daysFromCivil]
    omega
  have hmonth : month ≤ 12 := hvalid.month_le
  dsimp only at hdays ⊢
  split
  · have hnext : ValidDate (year + 1) 1 1 :=
      ⟨Nat.le_refl 1, by decide, Nat.le_refl 1, hlength _ _⟩
    have hlt := daysFromCivil_lt hfirst hnext (Or.inl (Nat.lt_succ_self year))
    omega
  · have hnext : ValidDate year (month + 1) 1 :=
      ⟨by omega, by omega, Nat.le_refl 1, hlength _ _⟩
    have hlt := daysFromCivil_lt hfirst hnext
      (Or.inr ⟨rfl, Or.inl (Nat.lt_succ_self month)⟩)
    omega

theorem lt_computeNextRun {frequency : BackupFrequency} {anchor next : Nat}
    (hnext : computeNextRun anchor frequency = some next) : anchor < next := by
  cases frequency with
  | off => cases hnext
  | daily =>
      obtain rfl := Option.some.inj hnext
      omega
  | every3days =>
      obtain rfl := Option.some.inj hnext
      omega
  | weekly =>
      obtain rfl := Option.some.inj hnext
      omega
  | monthly =>
      obtain rfl := Option.some.inj hnext
      have hlt := lt_sameDayNextMonth (anchor / 86400000)
      omega

/- Histories -/

section Histories

variable {measure : BackupFrequency × Nat} {events : List ScheduleEvent}

theorem spaced_append (measure : BackupFrequency × Nat) (events later : List ScheduleEvent) :
    Spaced measure (events ++ later) ↔
      Spaced measure events ∧ Spaced (measureAfter measure events) later := by
  induction events generalizing measure with
  | nil => exact (and_iff_right trivial).symm
  | cons event events ih =>
      cases event with
      | policyChanged frequency time => exact ih _
      | enqueued mode time =>
          rw [List.cons_append, Spaced, Spaced, ih, and_assoc]
          rfl

theorem measureAfter_append (measure : BackupFrequency × Nat)
    (events later : List ScheduleEvent) :
    measureAfter measure (events ++ later) = measureAfter (measureAfter measure events) later := by
  induction events generalizing measure with
  | nil => rfl
  | cons event events ih =>
      cases event with
      | policyChanged frequency time => exact ih _
      | enqueued mode time => exact ih _

end Histories

namespace ScheduleServer

variable {s : ScheduleServer} {measure : BackupFrequency × Nat}

/-- The history so far is spaced, and what comes next is measured as the row says. -/
structure Regular (measure : BackupFrequency × Nat) (s : ScheduleServer) : Prop where
  spaced : Spaced measure s.history
  frequency : (measureAfter measure s.history).1 = s.measure.1
  since : s.measure.1 ≠ .off → measureAfter measure s.history = s.measure

theorem due_spec {schedule : PersistedBackupSchedule}
    (hdue : schedule.isBackupDue s.now = true) :
    schedule.frequency ≠ .off ∧ ∀ time, s.now ≤ time →
      Elapsed schedule.frequency schedule.anchor time := by
  rw [PersistedBackupSchedule.isBackupDue, Option.any_eq_true] at hdue
  obtain ⟨next, hnext, hle⟩ := hdue
  refine ⟨?_, fun time htime => ⟨next, hnext, Nat.le_trans (of_decide_eq_true hle) htime⟩⟩
  intro hoff
  rw [hoff] at hnext
  cases hnext

theorem Regular.tick (hregular : s.Regular measure) {spent : Nat} {faults : TickFaults}
    (hrecords : s.Records (.tick spent faults)) : (s.tick spent faults).Regular measure := by
  rw [ScheduleServer.tick]
  cases hschedule : s.schedule with
  | none =>
      have hmeasure : s.measure = (.off, 0) := by rw [ScheduleServer.measure, hschedule]
      have hensured : ∀ fault, ({ s with schedule := s.ensured fault } : ScheduleServer).measure.1 =
          .off := by
        intro fault
        simp only [ScheduleServer.measure, ensured, hschedule]
        cases fault with
        | none => rfl
        | before => rfl
        | after => rfl
      refine ⟨hregular.spaced, ?_, fun hne => absurd (hensured _) hne⟩
      rw [hensured]
      exact hregular.frequency.trans (congrArg Prod.fst hmeasure)
  | some schedule =>
      dsimp only
      split
      · exact hregular
      rename_i hoff
      split
      · exact hregular
      rename_i hnot
      have hdue : schedule.isBackupDue s.now = true := by simpa using hnot
      have hmeasure : s.measure = (schedule.frequency, schedule.anchor) := by
        rw [ScheduleServer.measure, hschedule]
      have hsince : measureAfter measure s.history = (schedule.frequency, schedule.anchor) := by
        rw [hregular.since (by rw [hmeasure]; exact hoff), hmeasure]
      cases hinsert : faults.insert with
      | before => exact hregular
      | after => exact hregular
      | none =>
          have hmark : faults.markRan ≠ .before :=
            hrecords (by rw [due, hschedule]; exact hdue) hinsert
          have hspaced : Spaced measure (s.history ++ [.enqueued schedule.mode (s.now + spent)]) := by
            rw [spaced_append, hsince]
            exact ⟨hregular.spaced, (due_spec hdue).2 _ (Nat.le_add_right _ _), trivial⟩
          have hafter : measureAfter measure
              (s.history ++ [.enqueued schedule.mode (s.now + spent)]) =
                (schedule.frequency, s.now + spent) := by
            rw [measureAfter_append, hsince]
            rfl
          cases hfault : faults.markRan with
          | before => exact absurd hfault hmark
          | none => exact ⟨hspaced, congrArg Prod.fst hafter, fun _ => hafter⟩
          | after => exact ⟨hspaced, congrArg Prod.fst hafter, fun _ => hafter⟩

theorem Regular.updatePolicy (hregular : s.Regular measure) (update : BackupScheduleUpdate)
    (fault : Fault) : (s.updatePolicy update fault).Regular measure := by
  have hspaced : Spaced measure (s.history ++ [.policyChanged update.frequency s.now]) := by
    rw [spaced_append]
    exact ⟨hregular.spaced, trivial⟩
  have hafter : measureAfter measure (s.history ++ [.policyChanged update.frequency s.now]) =
      (update.frequency, s.now) := by
    rw [measureAfter_append]
    rfl
  cases fault with
  | before => exact hregular
  | none => exact ⟨hspaced, congrArg Prod.fst hafter, fun _ => hafter⟩
  | after => exact ⟨hspaced, congrArg Prod.fst hafter, fun _ => hafter⟩

theorem Regular.step (hregular : s.Regular measure) {label : ScheduleLabel}
    (hrecords : s.Records label) : (s.step label).Regular measure := by
  cases label with
  | tick spent faults => exact hregular.tick hrecords
  | updatePolicy update fault => exact hregular.updatePolicy update fault
  | elapse milliseconds => exact ⟨hregular.spaced, hregular.frequency, hregular.since⟩
  | restart => exact hregular

/-- A tick that is due enqueues one backup, and the next one is not due: what was missed is
not made up for. -/
theorem tick_of_due (hdue : s.due = true) {spent : Nat} {faults : TickFaults}
    (hinsert : faults.insert = .none) (hmark : faults.markRan ≠ .before) :
    (∃ mode, (s.tick spent faults).history = s.history ++ [.enqueued mode (s.now + spent)]) ∧
      (s.tick spent faults).due = false := by
  rw [due, Option.any_eq_true] at hdue
  obtain ⟨schedule, hschedule, hdue⟩ := hdue
  have hon := (due_spec hdue).1
  have hlater : ({ schedule with lastRunAt := some (s.now + spent) } :
      PersistedBackupSchedule).isBackupDue (s.now + spent) = false := by
    rw [PersistedBackupSchedule.isBackupDue, ← Bool.not_eq_true, Option.any_eq_true]
    rintro ⟨next, hnext, hle⟩
    have hlt := lt_computeNextRun hnext
    exact absurd (of_decide_eq_true hle) (Nat.not_le.mpr hlt)
  rw [tick, hschedule]
  simp only [if_neg hon, hdue, Bool.not_true, Bool.false_eq_true, ↓reduceIte, hinsert]
  cases hfault : faults.markRan with
  | before => exact absurd hfault hmark
  | none => exact ⟨⟨_, rfl⟩, hlater⟩
  | after => exact ⟨⟨_, rfl⟩, hlater⟩

/-- While every tick that enqueues a backup records it, backups are spaced; and however long
none was made, one is made, once. The record is written after the backup is enqueued, so that a
failure between the two lets the next tick enqueue another. -/
theorem scheduled_spaced_of_records {start : ScheduleServer} (hnew : start.history = [])
    (labels : List ScheduleLabel) (hrecords : StepRun.Meets step Records start labels) :
    Spaced start.measure (StepRun.run step start labels).history ∧
    ∀ missed spent (faults : TickFaults) (late : ScheduleServer),
      late = (StepRun.run step start labels).step (.elapse missed) → late.due = true →
      faults.insert = .none → faults.markRan ≠ .before →
        (∃ mode, (late.step (.tick spent faults)).history =
          late.history ++ [.enqueued mode (late.now + spent)]) ∧
        (late.step (.tick spent faults)).due = false := by
  have hstart : start.Regular start.measure := by
    refine ⟨?_, ?_, ?_⟩
    · rw [hnew]
      trivial
    · rw [hnew]
      rfl
    · rw [hnew]
      exact fun _ => rfl
  have hend := StepRun.invariant_of_meets step (Regular start.measure)
    (fun _ _ hregular hmeets => hregular.step hmeets) hstart hrecords
  refine ⟨hend.spaced, ?_⟩
  rintro missed spent faults late - hdue hinsert hmark
  exact tick_of_due hdue hinsert hmark

end ScheduleServer

namespace DailyBackup

def daily : ScheduleServer := ⟨0, some ⟨⟨.daily, .warm, 3, none, false⟩, 0, none⟩, []⟩

def noFaults : TickFaults := ⟨.none, .none, .none, .none⟩

/-- A tick when a day has passed, another one a minute later, and one after two more days and a
restart: no two backups are too close. -/
theorem two_days_spaced :
    Spaced (.daily, 0) (StepRun.run ScheduleServer.step daily
      [.elapse 86400000, .tick 5 noFaults, .elapse 60000, .tick 5 noFaults,
        .elapse 172800000, .restart, .tick 5 noFaults]).history := by
  have hnew : daily.history = [] := rfl
  refine (ScheduleServer.scheduled_spaced_of_records hnew _ ?_).1
  exact StepRun.meets_of_forall _ (by
    intro label hlabel s
    simp only [List.mem_cons, List.not_mem_nil, or_false] at hlabel
    rcases hlabel with rfl | rfl | rfl | rfl | rfl | rfl | rfl
    all_goals simp [ScheduleServer.Records, noFaults])

/-- The backup is enqueued and the database is locked for the write after it; a minute later the
same day's backup is enqueued again, since nothing says that it was made. -/
theorem second_backup : ¬∀ (start : ScheduleServer) (labels : List ScheduleLabel),
    start.history = [] →
      Spaced start.measure (StepRun.run ScheduleServer.step start labels).history := by
  intro hclaim
  have hspaced := hclaim daily
    [.elapse 86400000, .tick 0 { noFaults with markRan := .before }, .elapse 60000,
      .tick 0 noFaults] rfl
  obtain ⟨-, ⟨next, hnext, hle⟩, -⟩ := hspaced
  obtain rfl := Option.some.inj hnext
  exact absurd hle (by decide)

end DailyBackup

end Backups

end MailPanel
