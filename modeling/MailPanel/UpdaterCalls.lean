import Mathlib.Data.Nat.Find
import Mathlib.Tactic.Common
import MailPanel.Updater

/-
The updater's steps under a daemon that fails one call.  Every step either
succeeds, or its failure is caught, or the whole run ends without a verdict.
-/

namespace MailPanel

namespace Updater

open ImageSwap Effect

/-- The kinds of call whose failure the updater handles. -/
def DockerCall.handled : DockerCall → Bool
  | .pullImage => true
  | .inspectImageConfig => true
  | .stopContainer => true
  | _ => false

/-- The verdict on file, if the last thing written is one. -/
def World.verdict (world : World) : Option SelfUpdateOutcome :=
  match world.results.head? with
  | some (.done outcome _ _ _ _) => some outcome
  | _ => none

/-- How the pending fault changes over a stretch of code that makes `calls`: one
that the updater does not handle has only been counted down. -/
def Spends (calls : List DockerCall) (before after : Option Fault) : Prop :=
  match before with
  | none => after = none
  | some fault =>
      if fault.call.handled then ∀ left, after = some left → left.call.handled
      else
        calls.count fault.call ≤ fault.skip ∧
          after = some { fault with skip := fault.skip - calls.count fault.call }

/-- A fault of a handled call may strike or not without the code throwing, so that any such
fault may still be to come. -/
theorem spends_handled_iff {calls : List DockerCall} {fault : Fault} {after : Option Fault}
    (hhandled : fault.call.handled = true) :
    Spends calls (some fault) after ↔ ∀ left, after = some left → left.call.handled := by
  simp only [Spends, hhandled, if_true]

/-- A fault of any other call survives a stretch of code exactly when the stretch makes too few
such calls. -/
theorem spends_loud_iff {calls : List DockerCall} {fault : Fault} {after : Option Fault}
    (hloud : fault.call.handled = false) :
    Spends calls (some fault) after ↔
      calls.count fault.call ≤ fault.skip ∧
        after = some { fault with skip := fault.skip - calls.count fault.call } := by
  simp only [Spends, hloud, Bool.false_eq_true, if_false]

theorem Spends.refl (fault : Option Fault) : Spends [] fault fault := by
  cases fault with
  | none => rfl
  | some fault =>
      cases hcall : fault.call.handled with
      | true =>
          rw [spends_handled_iff hcall]
          rintro left ⟨⟩
          exact hcall
      | false =>
          rw [spends_loud_iff hcall]
          exact ⟨Nat.zero_le _, rfl⟩

/-- What two stretches of code spend of a fault is what they spend together. -/
theorem Spends.trans {first second : List DockerCall} {before middle after : Option Fault}
    (hfirst : Spends first before middle) (hsecond : Spends second middle after) :
    Spends (first ++ second) before after := by
  cases before with
  | none =>
      have hmiddle : middle = none := hfirst
      subst hmiddle
      exact hsecond
  | some fault =>
      cases hcall : fault.call.handled with
      | true =>
          rw [spends_handled_iff hcall] at hfirst ⊢
          intro left hleft
          cases middle with
          | none =>
              have hafter : after = none := hsecond
              simp [hafter] at hleft
          | some middle =>
              exact (spends_handled_iff (hfirst middle rfl)).mp hsecond left hleft
      | false =>
          rw [spends_loud_iff hcall] at hfirst ⊢
          obtain ⟨hle, rfl⟩ := hfirst
          have hleft : ({ fault with skip := fault.skip - first.count fault.call } :
              Fault).call.handled = false := hcall
          obtain ⟨hle', rfl⟩ := (spends_loud_iff hleft).mp hsecond
          simp only at hle' ⊢
          rw [List.count_append]
          refine ⟨by omega, ?_⟩
          simp only [Option.some.injEq, Fault.mk.injEq, true_and, and_true]
          omega

/-- A loud fault that survives a stretch of code was there before it, and the same one. -/
theorem Spends.loud_before {calls : List DockerCall} {before : Option Fault} {left : Fault}
    (hspends : Spends calls before (some left)) (hloud : left.call.handled = false) :
    ∃ fault, before = some fault ∧ fault.call.handled = false := by
  cases before with
  | none => cases hspends
  | some fault =>
      cases hcall : fault.call.handled with
      | true =>
          have hleft := (spends_handled_iff hcall).mp hspends left rfl
          simp [hloud] at hleft
      | false => exact ⟨fault, rfl, hcall⟩

/-- Either the code returns, having made `calls`, or one of its calls fails
unhandled and it throws before any verdict is written. -/
def Attempt {α : Type} (code : Docker α) (before : Session) (calls : List DockerCall)
    (post : α → World → Prop) : Prop :=
  (∃ value after, Returns code before value after ∧
    Spends calls before.fault after.fault ∧ post value after.world) ∨
  (∃ fault, before.fault = some fault ∧ fault.call.handled = false ∧
    ∃ message after, Throws code before message after ∧ after.world.verdict = none)

section Attempts

variable {α β : Type}

/-- Code that always returns is an attempt whose fault is spent as its calls say. -/
theorem Attempt.of_returns {code : Docker α} {before after : Session} {value : α}
    {calls : List DockerCall} {post : α → World → Prop}
    (hreturns : Returns code before value after)
    (hspends : Spends calls before.fault after.fault) (hpost : post value after.world) :
    Attempt code before calls post :=
  Or.inl ⟨value, after, hreturns, hspends, hpost⟩

/-- Code that makes no call spends nothing and leaves the world as it is. -/
theorem attempt_pure {before : Session} {value : α} {post : α → World → Prop}
    (hpost : post value before.world) : Attempt (pure value) before [] post :=
  Attempt.of_returns (returns_pure value before) (Spends.refl _) hpost

/-- The rule of sequence for stretches of code that may be cut off by the fault. -/
theorem Attempt.bind {first : Docker α} {next : α → Docker β} {before : Session}
    {calls calls' : List DockerCall} {middle : α → World → Prop} {post : β → World → Prop}
    (hfirst : Attempt first before calls middle)
    (hnext : ∀ value session, middle value session.world →
      Attempt (next value) session calls' post) :
    Attempt (first >>= next) before (calls ++ calls') post := by
  rcases hfirst with ⟨value, session, hreturns, hspends, hmiddle⟩ | hthrows
  · rcases hnext value session hmiddle with
      ⟨result, after, hreturns', hspends', hpost⟩ |
      ⟨fault, hfault, hloud, message, after, hthrows, hverdict⟩
    · exact Attempt.of_returns (hreturns.bind hreturns') (hspends.trans hspends') hpost
    · rw [hfault] at hspends
      obtain ⟨fault', hfault', hloud'⟩ := hspends.loud_before hloud
      exact Or.inr ⟨fault', hfault', hloud', message, after,
        hreturns.bind_throws hthrows, hverdict⟩
  · obtain ⟨fault, hfault, hloud, message, after, hthrows, hverdict⟩ := hthrows
    exact Or.inr ⟨fault, hfault, hloud, message, after, hthrows.bind next, hverdict⟩

/-- A weaker condition on the result may take the place of a stronger one. -/
theorem Attempt.mono {code : Docker α} {before : Session} {calls : List DockerCall}
    {post post' : α → World → Prop} (hattempt : Attempt code before calls post)
    (himp : ∀ value world, post value world → post' value world) :
    Attempt code before calls post' := by
  rcases hattempt with ⟨value, after, hreturns, hspends, hpost⟩ | hthrows
  · exact Attempt.of_returns hreturns hspends (himp _ _ hpost)
  · exact Or.inr hthrows

/-- Only the run and the pending fault at its start matter, so that code may be replaced by code
with the same run. -/
theorem Attempt.of_run_eq {code code' : Docker α} {before before' : Session}
    {calls : List DockerCall} {post : α → World → Prop}
    (hattempt : Attempt code' before' calls post)
    (hrun : code.run.run before = code'.run.run before')
    (hfault : before.fault = before'.fault) : Attempt code before calls post := by
  simp only [Attempt, Returns, Throws] at hattempt ⊢
  rw [hrun, hfault]
  exact hattempt

/-- A call that the daemon answers: it returns the answer, or it is the one that
fails. -/
theorem issue_attempt {call : DockerCall} {act : World → Except String (α × World)}
    {before : Session} {value : α} {world : World}
    (hact : act before.world = .ok (value, world)) (hloud : call.handled = false)
    (hbefore : before.world.verdict = none) (hafter : world.verdict = none) :
    Attempt (issue call act) before [call] fun result after =>
      result = value ∧ after = world := by
  have hperform : ∀ fault, perform act ⟨before.world, fault⟩ = (.ok value, ⟨world, fault⟩) := by
    intro fault
    simp only [perform, hact]
  cases hfault : before.fault with
  | none =>
      refine Attempt.of_returns ((issue_run_none hfault).trans (hperform _)) ?_ ⟨rfl, rfl⟩
      simp only [hfault]
      rfl
  | some fault =>
      by_cases hcall : fault.call = call
      · have hfaultloud : fault.call.handled = false := hcall ▸ hloud
        have hcount : [call].count fault.call = 1 := by simp [hcall]
        rcases Nat.eq_zero_or_pos fault.skip with hskip | hskip
        · refine Or.inr ⟨fault, hfault, hfaultloud, _, _, issue_run_due hfault hcall hskip, ?_⟩
          cases fault.applied with
          | true =>
              have hrun := hperform before.fault
              simp only [if_true]
              rw [hrun]
              exact hafter
          | false => exact hbefore
        · refine Attempt.of_returns ((issue_run_skip hfault hcall hskip).trans (hperform _))
            ?_ ⟨rfl, rfl⟩
          rw [hfault, spends_loud_iff hfaultloud, hcount]
          exact ⟨hskip, rfl⟩
      · refine Attempt.of_returns ((issue_run_other hfault hcall).trans (hperform _)) ?_
          ⟨rfl, rfl⟩
        simp only [hfault]
        cases hhandled : fault.call.handled with
        | true =>
            rw [spends_handled_iff hhandled]
            rintro left ⟨⟩
            exact hhandled
        | false =>
            have hcount : [call].count fault.call = 0 := by
              simp [Ne.symm hcall]
            rw [spends_loud_iff hhandled, hcount]
            exact ⟨Nat.zero_le _, rfl⟩

/-- A call whose failure is caught leaves any unhandled fault as it was, to strike a later
call. -/
theorem spends_of_handled {call : DockerCall} {act : World → Except String (α × World)}
    (hhandled : call.handled = true) (before : Session) :
    Spends [call] before.fault ((issue call act).run.run before).2.fault := by
  have hperform : ∀ session, (perform act session).2.fault = session.fault := by
    intro session
    unfold perform
    cases act session.world with
    | error message => rfl
    | ok result => rfl
  cases hfault : before.fault with
  | none =>
      rw [issue_run_none hfault, hperform, hfault]
      rfl
  | some fault =>
      by_cases hcall : fault.call = call
      · rw [spends_handled_iff (hcall ▸ hhandled)]
        intro left hleft
        rcases Nat.eq_zero_or_pos fault.skip with hskip | hskip
        · rw [issue_run_due hfault hcall hskip] at hleft
          cases hleft
        · rw [issue_run_skip hfault hcall hskip, hperform] at hleft
          cases hleft
          exact hcall ▸ hhandled
      · rw [issue_run_other hfault hcall, hperform, hfault]
        cases hfaulthandled : fault.call.handled with
        | true =>
            rw [spends_handled_iff hfaulthandled]
            rintro left ⟨⟩
            exact hfaulthandled
        | false =>
            have hcount : [call].count fault.call = 0 := by
              simp [Ne.symm hcall]
            rw [spends_loud_iff hfaulthandled, hcount]
            exact ⟨Nat.zero_le _, rfl⟩

end Attempts

/-- The world with one container replaced by another under a fresh id. -/
def World.replaced (world : World) (id : ContainerId) (spec : RawContainerRecreateSpec)
    (polls clock : Nat) : World :=
  { world with
    containers := Function.update (Function.update world.containers id none) world.nextId
      (some ⟨spec, true, polls⟩)
    nextId := world.nextId + 1
    clock }

/-- Ids are handed out in order, and no two containers share a name. -/
structure World.WellFormed (world : World) : Prop where
  fresh : ∀ id container, world.containers id = some container → id < world.nextId
  names_distinct : ∀ id id' container container', world.containers id = some container →
    world.containers id' = some container' → container.spec.name = container'.spec.name →
    id = id'

/-- In a well-formed world the listing has a line for each container, with its one name. -/
theorem World.mem_list {world : World} (hworld : world.WellFormed)
    {item : RawContainerListItem} :
    item ∈ world.list ↔ ∃ container, world.containers item.id = some container ∧
      item.names = [container.spec.name] := by
  simp only [World.list, List.mem_filterMap, List.mem_range, Option.map_eq_some_iff]
  constructor
  · rintro ⟨id, _, container, hcontainer, rfl⟩
    exact ⟨container, hcontainer, rfl⟩
  · rintro ⟨container, hcontainer, hnames⟩
    exact ⟨item.id, hworld.fresh _ _ hcontainer, container, hcontainer, by rw [← hnames]⟩

@[simp] theorem World.setContainer_containers (world : World) (id : ContainerId)
    (container : Option Container) :
    (world.setContainer id container).containers =
      Function.update world.containers id container :=
  rfl

@[simp] theorem World.setContainer_verdict (world : World) (id : ContainerId)
    (container : Option Container) :
    (world.setContainer id container).verdict = world.verdict :=
  rfl

@[simp] theorem World.setContainer_setContainer (world : World) (id : ContainerId)
    (first second : Option Container) :
    (world.setContainer id first).setContainer id second = world.setContainer id second := by
  simp only [World.setContainer, Function.update_idem]

@[simp] theorem World.replaced_verdict (world : World) (id : ContainerId)
    (spec : RawContainerRecreateSpec) (polls clock : Nat) :
    (world.replaced id spec polls clock).verdict = world.verdict :=
  rfl

section Calls

variable {session : Session} {id : ContainerId} {container : Container}

theorem withContainer_eq {α : Type} {world : World}
    (hcontainer : world.containers id = some container)
    (act : Container → World → α × World) :
    withContainer id act world = .ok (act container world) := by
  simp only [withContainer, hcontainer]

/-- The removal of a container that is there takes it out of the world and leaves everything
else as it was. -/
theorem removeContainer_attempt (hcontainer : session.world.containers id = some container)
    (hverdict : session.world.verdict = none) :
    Attempt (removeContainer id) session [.removeContainer]
      fun _ after => after = session.world.setContainer id none := by
  refine Attempt.mono (issue_attempt (withContainer_eq hcontainer _) rfl hverdict hverdict) ?_
  rintro _ _ ⟨_, hworld⟩
  exact hworld

/-- A stopped container is the same container, stopped, and a failed stop may have stopped it. -/
theorem stopContainer_world (id : ContainerId) (session : Session) :
    ((stopContainer id).run.run session).2.world = session.world ∨
      ∃ stopped, ((stopContainer id).run.run session).2.world =
        session.world.setContainer id (some stopped) := by
  refine issue_respects (fun before after => after = before ∨
    ∃ stopped, after = before.setContainer id (some stopped)) (fun _ => Or.inl rfl) ?_ session
  intro world value after hact
  unfold withContainer at hact
  split at hact
  · cases hact
  · obtain ⟨_, rfl⟩ := Prod.mk.inj (Except.ok.inj hact)
    exact Or.inr ⟨_, rfl⟩

/-- Stopping may fail, before or after it took effect; the container stays. -/
theorem caughtStop_attempt (hcontainer : session.world.containers id = some container)
    (hverdict : session.world.verdict = none) :
    Attempt (tryCatch (stopContainer id) fun _ => pure ()) session [.stopContainer]
      fun _ after => after.verdict = none ∧
        after.setContainer id none = session.world.setContainer id none ∧
        ∃ container, after.containers id = some container := by
  obtain ⟨value, hreturns⟩ := returns_caught (stopContainer id) () session
  refine Attempt.of_returns hreturns (spends_of_handled rfl session) ?_
  rcases stopContainer_world id session with hworld | ⟨stopped, hworld⟩
  · rw [hworld]
    exact ⟨hverdict, rfl, container, hcontainer⟩
  · rw [hworld]
    refine ⟨hverdict, World.setContainer_setContainer _ _ _ _, stopped, ?_⟩
    simp

/-- Whatever becomes of the stop, the removal comes after it. -/
theorem stopAndRemove_attempt (hcontainer : session.world.containers id = some container)
    (hverdict : session.world.verdict = none) :
    Attempt (stopAndRemove id) session [.stopContainer, .removeContainer]
      fun _ after => after = session.world.setContainer id none := by
  refine Attempt.bind (caughtStop_attempt hcontainer hverdict) ?_
  rintro _ middle ⟨hmiddle, hset, stopped, hstopped⟩
  rw [← hset]
  exact removeContainer_attempt hstopped hmiddle

/-- A name that no container bears can be created under, with the next id. -/
theorem createAndStart_attempt {spec : RawContainerRecreateSpec}
    (hname : ∀ id container, session.world.containers id = some container →
      container.spec.name ≠ spec.name)
    (hverdict : session.world.verdict = none) :
    Attempt (createAndStart spec) session [.createContainer, .startContainer]
      fun newId after => newId = session.world.nextId ∧
        after = { session.world.setContainer session.world.nextId (some ⟨spec, true, 0⟩) with
          nextId := session.world.nextId + 1 } := by
  have hfree : (session.world.list.any fun item => spec.name ∈ item.names) = false := by
    rw [List.any_eq_false]
    intro item hitem
    simp only [World.list, List.mem_filterMap, Option.map_eq_some_iff] at hitem
    obtain ⟨id, _, container, hcontainer, rfl⟩ := hitem
    simpa using (hname id container hcontainer).symm
  have hcreate : Attempt (createContainer spec) session [.createContainer]
      fun newId after => newId = session.world.nextId ∧
        after = { session.world.setContainer session.world.nextId (some ⟨spec, false, 0⟩) with
          nextId := session.world.nextId + 1 } := by
    refine issue_attempt ?_ rfl hverdict hverdict
    simp only [hfree, Bool.false_eq_true, if_false]
  refine Attempt.bind hcreate ?_
  rintro newId middle ⟨rfl, hmiddle⟩
  have hcreated : middle.world.containers session.world.nextId = some ⟨spec, false, 0⟩ := by
    rw [hmiddle]
    simp
  have hstart : Attempt (startContainer session.world.nextId) middle [.startContainer]
      fun _ after => after = { session.world.setContainer session.world.nextId
        (some ⟨spec, true, 0⟩) with nextId := session.world.nextId + 1 } := by
    refine Attempt.mono
      (issue_attempt (withContainer_eq hcreated _) rfl ?_ ?_) ?_
    · rw [hmiddle]
      exact hverdict
    · rw [hmiddle]
      exact hverdict
    · rintro _ _ ⟨_, rfl⟩
      rw [hmiddle]
      simp [World.setContainer]
  refine Attempt.bind hstart ?_
  intro _ after hafter
  exact attempt_pure ⟨rfl, hafter⟩

/-- A world in which one container has taken another's place is still well formed. -/
theorem World.replaced_wellFormed {world : World} (hworld : world.WellFormed)
    {spec : RawContainerRecreateSpec} (hcontainer : world.containers id = some container)
    (hname : spec.name = container.spec.name) (polls clock : Nat) :
    (world.replaced id spec polls clock).WellFormed := by
  have hlookup : ∀ other found, (world.replaced id spec polls clock).containers other =
      some found → (other = world.nextId ∧ found = ⟨spec, true, polls⟩) ∨
        (other ≠ id ∧ world.containers other = some found) := by
    intro other found hfound
    simp only [World.replaced, Function.update_apply] at hfound
    split at hfound
    · exact Or.inl ⟨‹_›, (Option.some.inj hfound).symm⟩
    · split at hfound
      · cases hfound
      · exact Or.inr ⟨‹_›, hfound⟩
  constructor
  · intro other found hfound
    change other < world.nextId + 1
    rcases hlookup other found hfound with ⟨rfl, _⟩ | ⟨_, hold⟩
    · exact Nat.lt_succ_self _
    · exact Nat.lt_succ_of_lt (hworld.fresh other found hold)
  · intro left right found found' hleft hright hnames
    rcases hlookup left found hleft with ⟨rfl, rfl⟩ | ⟨hne, hold⟩
    · rcases hlookup right found' hright with ⟨rfl, _⟩ | ⟨hne', hold'⟩
      · rfl
      · exact absurd (hworld.names_distinct _ _ _ _ hcontainer hold'
          (hname.symm.trans hnames)).symm hne'
    · rcases hlookup right found' hright with ⟨rfl, rfl⟩ | ⟨_, hold'⟩
      · exact absurd (hworld.names_distinct _ _ _ _ hold hcontainer
          (hnames.trans hname)) hne
      · exact hworld.names_distinct _ _ _ _ hold hold' hnames

/-- Taking one container down and creating another of its name in its place. -/
theorem replace_attempt {spec : RawContainerRecreateSpec} (hworld : session.world.WellFormed)
    (hcontainer : session.world.containers id = some container)
    (hname : spec.name = container.spec.name) (hverdict : session.world.verdict = none) :
    Attempt (do stopAndRemove id; createAndStart spec) session
      [.stopContainer, .removeContainer, .createContainer, .startContainer]
      fun newId after => newId = session.world.nextId ∧
        after = session.world.replaced id spec 0 session.world.clock := by
  refine Attempt.bind (stopAndRemove_attempt hcontainer hverdict) ?_
  intro _ middle hmiddle
  refine Attempt.mono (createAndStart_attempt ?_ ?_) ?_
  · intro other found hfound hsame
    rw [hmiddle, World.setContainer_containers, Function.update_apply] at hfound
    split at hfound
    · cases hfound
    · next hne =>
        exact hne (hworld.names_distinct _ _ _ _ hfound hcontainer (hsame.trans hname))
  · rw [hmiddle]
    exact hverdict
  · rintro newId after ⟨rfl, rfl⟩
    rw [hmiddle]
    exact ⟨rfl, rfl⟩

end Calls

section Polling

/-- The answers a container gives to its health inspections. -/
abbrev HealthStream := Nat → RawContainerInspect

/-- The time from the start of the wait to the inspection with this index. -/
def elapsedBefore (stream : HealthStream) : Nat → Nat
  | 0 => 0
  | index + 1 => elapsedBefore stream index + (stream index).latency + HEALTH_POLL_INTERVAL_MS

def InTime (stream : HealthStream) (index : Nat) : Prop :=
  elapsedBefore stream index + (stream index).latency < HEALTH_POLL_TIMEOUT_MS

def ReportsHealthy (stream : HealthStream) (index : Nat) : Prop :=
  (stream index).health = some "healthy"

/-- The wait ends with the answer at `index`: the first healthy one, or the one
that comes back after the deadline. -/
def Settles (stream : HealthStream) (index : Nat) (healthy : Bool) : Prop :=
  (∀ earlier < index, ¬ ReportsHealthy stream earlier ∧ InTime stream earlier) ∧
    if healthy then ReportsHealthy stream index
    else ¬ ReportsHealthy stream index ∧ ¬ InTime stream index

/-- Every wait takes at least the pause between two inspections, so that the deadline is met in
the end. -/
theorem le_elapsedBefore (stream : HealthStream) (index : Nat) :
    index * HEALTH_POLL_INTERVAL_MS ≤ elapsedBefore stream index := by
  induction index with
  | zero => exact Nat.zero_le _
  | succ index ih =>
      rw [elapsedBefore, Nat.succ_mul]
      omega

/-- Every wait ends, one way or the other: a container becomes healthy, or its time is over. -/
theorem exists_settles (stream : HealthStream) :
    ∃ index healthy, Settles stream index healthy := by
  classical
  have hends : ∃ index, ReportsHealthy stream index ∨ ¬ InTime stream index := by
    refine ⟨45, Or.inr ?_⟩
    have hle := le_elapsedBefore stream 45
    simp only [InTime, HEALTH_POLL_TIMEOUT_MS, HEALTH_POLL_INTERVAL_MS] at hle ⊢
    omega
  have hearlier : ∀ earlier < Nat.find hends,
      ¬ ReportsHealthy stream earlier ∧ InTime stream earlier := by
    intro earlier hlt
    have hnot := Nat.find_min hends hlt
    rw [not_or, not_not] at hnot
    exact hnot
  by_cases hhealthy : ReportsHealthy stream (Nat.find hends)
  · exact ⟨_, true, hearlier, hhealthy⟩
  · have hlate := (Nat.find_spec hends).resolve_left hhealthy
    exact ⟨_, false, hearlier, hhealthy, hlate⟩

/-- The world in which a container has answered `polls` inspections. -/
def World.polled (world : World) (id : ContainerId) (spec : RawContainerRecreateSpec)
    (polls clock : Nat) : World :=
  { world.setContainer id (some ⟨spec, true, polls⟩) with clock }

variable {session : Session} {id : ContainerId} {spec : RawContainerRecreateSpec}

def pollLoop (deadline : Nat) (id : ContainerId) : Docker Bool :=
  ExceptT.mk (pollUntilHealthy deadline id)

/-- What the loop does with an answer it got: it ends with a healthy container or with its time
over, and waits and asks again otherwise. -/
def afterPoll (deadline : Nat) (id : ContainerId) (inspection : RawContainerInspect) :
    Docker Bool :=
  ExceptT.mk fun after =>
    if inspection.health = some "healthy" then (.ok true, after)
    else if deadline ≤ after.world.clock then (.ok false, after)
    else pollUntilHealthy deadline id (after.delay HEALTH_POLL_INTERVAL_MS)

/-- One turn of the polling loop: an inspection, and what follows from its answer. -/
theorem pollLoop_eq (deadline : Nat) (id : ContainerId) :
    pollLoop deadline id = inspectContainer id >>= afterPoll deadline id := by
  funext session
  change pollUntilHealthy deadline id session = _
  rw [pollUntilHealthy]
  split
  · next hthrows => exact (Throws.bind (afterPoll deadline id) hthrows).symm
  · next inspection after hreturns =>
      change afterPoll deadline id inspection after = _
      rcases returns_or_throws (afterPoll deadline id inspection) after with
        ⟨healthy, hnext⟩ | ⟨error, hnext⟩
      · exact hnext.trans (Returns.bind hreturns hnext).symm
      · exact hnext.trans (Returns.bind_throws hreturns hnext).symm

/-- A healthy answer ends the loop well. -/
theorem afterPoll_healthy {deadline : Nat} {inspection : RawContainerInspect}
    (hhealthy : inspection.health = some "healthy") :
    Returns (afterPoll deadline id inspection) session true session := by
  change afterPoll deadline id inspection session = _
  simp only [afterPoll, ExceptT.mk, hhealthy, if_true]

/-- An answer that is not healthy ends the loop once the deadline has passed. -/
theorem afterPoll_late {deadline : Nat} {inspection : RawContainerInspect}
    (hhealthy : inspection.health ≠ some "healthy")
    (hlate : deadline ≤ session.world.clock) :
    Returns (afterPoll deadline id inspection) session false session := by
  change afterPoll deadline id inspection session = _
  simp only [afterPoll, ExceptT.mk, hhealthy, if_false, hlate, if_true]

/-- Before the deadline the loop waits and goes on. -/
theorem afterPoll_again {deadline : Nat} {inspection : RawContainerInspect}
    {calls : List DockerCall} {post : Bool → World → Prop}
    (hhealthy : inspection.health ≠ some "healthy")
    (hearly : session.world.clock < deadline)
    (hloop : Attempt (pollLoop deadline id) (session.delay HEALTH_POLL_INTERVAL_MS) calls
      post) :
    Attempt (afterPoll deadline id inspection) session calls post := by
  refine hloop.of_run_eq ?_ rfl
  change afterPoll deadline id inspection session = _
  simp only [afterPoll, ExceptT.mk, hhealthy, if_false, Nat.not_le.mpr hearly]
  rfl

/-- An inspection counts itself and changes nothing else. -/
theorem inspectContainer_attempt {polls : Nat} (hverdict : session.world.verdict = none)
    (hcontainer : session.world.containers id = some ⟨spec, true, polls⟩) :
    Attempt (inspectContainer id) session [.inspectContainer] fun inspection after =>
      inspection = session.world.health spec.name spec.image polls ∧
        after = session.world.polled id spec (polls + 1)
          (session.world.clock + inspection.latency) := by
  refine Attempt.mono (issue_attempt (withContainer_eq hcontainer _) rfl hverdict hverdict) ?_
  rintro inspection after ⟨rfl, rfl⟩
  exact ⟨rfl, rfl⟩

/-- The wait as the loop sees it before the inspection with index `polls`: the container runs,
no verdict is written, and the clock has gone on by the inspections and pauses of before. -/
structure Waiting (session : Session) (id : ContainerId) (spec : RawContainerRecreateSpec)
    (start polls : Nat) : Prop where
  verdict : session.world.verdict = none
  container : session.world.containers id = some ⟨spec, true, polls⟩
  clock : session.world.clock =
    start + elapsedBefore (session.world.health spec.name spec.image) polls

/-- One answer and one wait later, the loop is where it was, with one answer less to come. -/
theorem Waiting.next {start polls : Nat} (hwaiting : Waiting session id spec start polls)
    {after : Session} (hafter : after.world = session.world.polled id spec (polls + 1)
      (session.world.clock + (session.world.health spec.name spec.image polls).latency)) :
    Waiting (after.delay HEALTH_POLL_INTERVAL_MS) id spec start (polls + 1) := by
  constructor
  · change after.world.verdict = none
    rw [hafter]
    exact hwaiting.verdict
  · change after.world.containers id = _
    rw [hafter]
    simp [World.polled]
  · change after.world.clock + _ = start + elapsedBefore (after.world.health _ _) _
    rw [hafter]
    simp only [World.polled, elapsedBefore, World.setContainer, hwaiting.clock]
    omega

theorem polled_delay_polled {polls polls' clock clock' : Nat} {world : World}
    {after : Session} (hafter : after.world = world.polled id spec polls clock) :
    (after.delay HEALTH_POLL_INTERVAL_MS).world.polled id spec polls' clock' =
      world.polled id spec polls' clock' := by
  simp [Session.delay, hafter, World.polled, World.setContainer]

/-- The loop reaches the answer that settles the wait unless an inspection
throws.  The induction is on the inspections still to come. -/
theorem pollLoop_settles {start index : Nat} {healthy : Bool} (remaining : Nat) :
    ∀ (session : Session) (polls : Nat), polls + remaining = index →
      Settles (session.world.health spec.name spec.image) index healthy →
      Waiting session id spec start polls →
      Attempt (pollLoop (start + HEALTH_POLL_TIMEOUT_MS) id) session
        (List.replicate (remaining + 1) .inspectContainer) fun result after =>
          result = healthy ∧
            ∃ polls clock, after = session.world.polled id spec polls clock := by
  induction remaining with
  | zero =>
      intro session polls hindex hsettles hwaiting
      rw [pollLoop_eq]
      refine Attempt.bind
        (inspectContainer_attempt hwaiting.verdict hwaiting.container) ?_
      rintro _ after ⟨rfl, hafter⟩
      obtain rfl : polls = index := hindex
      have hclock := hwaiting.clock
      have hsettled := hsettles.2
      cases healthy with
      | true =>
          exact Attempt.of_returns (afterPoll_healthy hsettled) (Spends.refl _)
            ⟨rfl, _, _, hafter⟩
      | false =>
          obtain ⟨hunhealthy, hlate⟩ := hsettled
          refine Attempt.of_returns (afterPoll_late hunhealthy ?_) (Spends.refl _)
            ⟨rfl, _, _, hafter⟩
          rw [hafter]
          simp only [World.polled, InTime] at hlate ⊢
          omega
  | succ remaining ih =>
      intro session polls hindex hsettles hwaiting
      rw [pollLoop_eq]
      refine Attempt.bind
        (inspectContainer_attempt hwaiting.verdict hwaiting.container) ?_
      rintro _ after ⟨rfl, hafter⟩
      obtain ⟨hunhealthy, htime⟩ := hsettles.1 polls (by omega)
      have hclock := hwaiting.clock
      refine afterPoll_again hunhealthy ?_ ?_
      · rw [hafter]
        simp only [World.polled, InTime] at htime ⊢
        omega
      · have hnext := hwaiting.next hafter
        refine Attempt.mono (ih _ (polls + 1) (by omega) ?_ hnext) ?_
        · change Settles (after.world.health _ _) index healthy
          rw [hafter]
          exact hsettles
        · rintro result world ⟨rfl, polls', clock', rfl⟩
          exact ⟨rfl, polls', clock', polled_delay_polled hafter⟩

theorem docker_run {α : Type} (action : Session → Except String α × Session) (session : Session) :
    (ExceptT.mk action : Docker α).run.run session = action session := rfl

theorem waitForHealthy_run (id : ContainerId) (session : Session) :
    (waitForHealthy id).run.run session =
      (pollLoop (session.world.clock + HEALTH_POLL_TIMEOUT_MS) id).run.run session := by
  rw [waitForHealthy, docker_run, pollLoop, docker_run]

/-- A container is replaced by one of its name, which then settles as the stream of its health
says. -/
theorem recreateAndWaitHealthy_attempt {container : Container} {index : Nat} {healthy : Bool}
    (hworld : session.world.WellFormed)
    (hcontainer : session.world.containers id = some container)
    (hname : spec.name = container.spec.name) (hverdict : session.world.verdict = none)
    (hsettles : Settles (session.world.health spec.name spec.image) index healthy) :
    Attempt (recreateAndWaitHealthy id spec) session
      ([DockerCall.stopContainer, .removeContainer, .createContainer, .startContainer] ++
        List.replicate (index + 1) .inspectContainer) fun result after =>
          result = (session.world.nextId, healthy) ∧
            ∃ polls clock, after = session.world.replaced id spec polls clock := by
  have hassoc : recreateAndWaitHealthy id spec =
      (do stopAndRemove id; createAndStart spec) >>= fun newId =>
        waitForHealthy newId >>= fun healthy => pure (newId, healthy) := by
    rw [recreateAndWaitHealthy, bind_assoc]
  rw [hassoc]
  refine Attempt.bind (replace_attempt hworld hcontainer hname hverdict) ?_
  rintro newId middle ⟨rfl, hmiddle⟩
  have hwait : Attempt (waitForHealthy session.world.nextId) middle
      (List.replicate (index + 1) .inspectContainer) fun result after => result = healthy ∧
        ∃ polls clock, after = session.world.replaced id spec polls clock := by
    have hwaiting : Waiting middle session.world.nextId spec middle.world.clock 0 := by
      constructor
      · rw [hmiddle]
        exact hverdict
      · rw [hmiddle]
        simp [World.replaced]
      · rfl
    have hstream : middle.world.health = session.world.health := by rw [hmiddle]; rfl
    have hloop := pollLoop_settles index middle 0 (Nat.zero_add _)
      (hstream ▸ hsettles) hwaiting
    refine Attempt.mono (hloop.of_run_eq (waitForHealthy_run _ _) rfl) ?_
    rintro result after ⟨rfl, polls, clock, rfl⟩
    refine ⟨rfl, polls, clock, ?_⟩
    rw [hmiddle]
    simp [World.polled, World.replaced, World.setContainer]
  rw [← List.append_nil (List.replicate (index + 1) DockerCall.inspectContainer)]
  refine Attempt.bind hwait ?_
  rintro result after ⟨rfl, hafter⟩
  exact attempt_pure ⟨rfl, hafter⟩

end Polling

section Capture

variable {session : Session} {id : ContainerId} {container : Container}

/-- A container is found in the listing by its name, as no other has that name. -/
theorem find_list {world : World} (hworld : world.WellFormed)
    (hcontainer : world.containers id = some container) :
    (world.list.find? fun item => container.spec.name ∈ item.names).map
      RawContainerListItem.id = some id := by
  cases hfind : world.list.find? fun item => container.spec.name ∈ item.names with
  | none =>
      rw [List.find?_eq_none] at hfind
      have hmem : (⟨id, [container.spec.name]⟩ : RawContainerListItem) ∈ world.list :=
        (World.mem_list hworld).mpr ⟨container, hcontainer, rfl⟩
      have hnot := hfind _ hmem
      simp at hnot
  | some item =>
      have hnames := List.find?_some hfind
      obtain ⟨other, hother, hitem⟩ :=
        (World.mem_list hworld).mp (List.mem_of_find?_eq_some hfind)
      rw [hitem] at hnames
      have hsame : container.spec.name = other.spec.name := by simpa using hnames
      rw [Option.map_some, hworld.names_distinct _ _ _ _ hcontainer hother hsame]

/-- The name of a container that is there leads to its id. -/
theorem resolveIdByName_attempt {name : String} (hworld : session.world.WellFormed)
    (hcontainer : session.world.containers id = some container)
    (hname : container.spec.name = name) (hverdict : session.world.verdict = none) :
    Attempt (resolveIdByName name) session [.listContainers]
      fun found after => found = some id ∧ after = session.world := by
  have hlist : Attempt listContainers session [.listContainers]
      fun all after => all = session.world.list ∧ after = session.world :=
    issue_attempt rfl rfl hverdict hverdict
  refine Attempt.bind hlist ?_
  rintro all after ⟨rfl, hafter⟩
  refine attempt_pure ⟨?_, hafter⟩
  rw [← hname]
  exact find_list hworld hcontainer

theorem inspectContainerForRecreate_attempt
    (hcontainer : session.world.containers id = some container)
    (hverdict : session.world.verdict = none) :
    Attempt (inspectContainerForRecreate id) session [.inspectContainerForRecreate]
      fun spec after => spec = container.spec ∧ after = session.world :=
  issue_attempt (withContainer_eq hcontainer _) rfl hverdict hverdict

/-- The old image's configuration is read or done without; neither stops the update. -/
theorem inspectOldImageConfig_attempt (imageId : String) :
    Attempt (inspectOldImageConfig imageId) session [.inspectImageConfig]
      fun _ after => after = session.world := by
  have hworld : ((inspectImageConfig imageId).run.run session).2.world = session.world := by
    refine issue_respects (fun before after => after = before) (fun _ => rfl) ?_ session
    intro world value after hact
    split at hact
    · cases hact
    · obtain ⟨_, rfl⟩ := Prod.mk.inj (Except.ok.inj hact)
      rfl
  have hspends : Spends [.inspectImageConfig] session.fault
      ((inspectImageConfig imageId).run.run session).2.fault := spends_of_handled rfl session
  rcases returns_or_throws (inspectImageConfig imageId) session with
    ⟨config, hreturns⟩ | ⟨error, hthrows⟩
  · have hbody : Returns (do let config ← inspectImageConfig imageId; return some config)
        session (some config) _ := hreturns.bind (returns_pure _ _)
    exact Attempt.of_returns (hbody.tryCatch _) hspends hworld
  · have hbody : Throws (do let config ← inspectImageConfig imageId; return some config)
        session error _ := hthrows.bind _
    exact Attempt.of_returns (hbody.tryCatch (returns_pure none _)) hspends hworld

/-- Reading the old version changes nothing, whatever the images say. -/
theorem resolveFromVersion_attempt (imageId : String)
    (hverdict : session.world.verdict = none) :
    Attempt (resolveFromVersion imageId) session [.listImages]
      fun _ after => after = session.world := by
  have hlist : Attempt listImages session [.listImages]
      fun images after => images = session.world.images ∧ after = session.world :=
    issue_attempt rfl rfl hverdict hverdict
  refine Attempt.bind hlist ?_
  rintro images after ⟨rfl, hafter⟩
  exact attempt_pure hafter

end Capture

end Updater

end MailPanel
