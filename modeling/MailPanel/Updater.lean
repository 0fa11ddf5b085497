import Mathlib.Logic.Function.Basic
import MailPanel.EffectRun
import MailPanel.ImageSwap

/-
The panel's self-update.  The updater runs in a container of its own against the
Docker daemon, replaces the server container and then the broker container, and
reports through a result file that survives both.
-/

namespace MailPanel

namespace Updater

open ImageSwap

/-- The daemon's names for its containers, drawn from a counter. -/
abbrev ContainerId := Nat

/-- A container as the daemon keeps it: the settings it was created with, and whether it runs. -/
structure Container where
  spec : RawContainerRecreateSpec
  running : Bool
  /-- How many health inspections it has answered. -/
  polls : Nat
deriving DecidableEq, Repr

/-- A line of the daemon's listing, as far as the updater reads it. -/
structure RawContainerListItem where
  id : ContainerId
  names : List String
deriving DecidableEq, Repr

/-- One answer to a health inspection and the time it takes to come back. -/
structure RawContainerInspect where
  health : Option String
  latency : Nat
deriving DecidableEq, Repr

/-- The verdict that is left for the panel to read. -/
inductive SelfUpdateOutcome where
  | success
  | rolledBack
  | failed
deriving DecidableEq, Repr

/-- The stage at which an update came to its end. -/
inductive FailedAt where
  | preFlight
  | serverHealth
  | brokerHealth
deriving DecidableEq, Repr

/-- The two phases of the result file: a rollback plan, then a verdict. -/
inductive SelfUpdateResultFile where
  | inProgress (toVersion : String) (server broker : RawContainerRecreateSpec)
  | done (outcome : SelfUpdateOutcome) (fromVersion : Option String)
      (toVersion : String) (failedAt : Option FailedAt) (reason : Option String)
deriving DecidableEq, Repr

/-- What the updater is told through its environment: the two containers and the images they
should run. -/
structure UpdaterTarget where
  serverContainerName : String
  brokerContainerName : String
  serverImageRef : String
  brokerImageRef : String
deriving DecidableEq, Repr

/-- What `runSelfUpdate` returns. Every reason is also in the verdict that it has written. -/
inductive UpdaterOutcome where
  | success
  | rolledBack (reason : String)
  | failed (reason : String)
deriving DecidableEq, Repr

/-- The Docker daemon, the clock, and the result files written so far, newest
first.  `health` answers the inspections of the container of a name and image. -/
structure World where
  containers : ContainerId → Option Container
  nextId : ContainerId
  imageConfigs : String → Option RawImageConfig
  images : List RawImage
  health : String → String → Nat → RawContainerInspect
  clock : Nat
  results : List SelfUpdateResultFile

/-- The daemon's calls that the updater makes, without their arguments: it is by the call that a
failure of the environment is placed. -/
inductive DockerCall where
  | pullImage
  | listContainers
  | inspectContainerForRecreate
  | inspectImageConfig
  | listImages
  | stopContainer
  | removeContainer
  | createContainer
  | startContainer
  | inspectContainer
deriving DecidableEq, Repr

/-- A call that is going to throw: the one after `skip` successful calls of its
kind.  The daemon may have carried it out before the error came back. -/
structure Fault where
  call : DockerCall
  skip : Nat
  applied : Bool
  message : String
deriving DecidableEq, Repr

/-- The world that the updater acts on, and the fault that is still to come. -/
structure Session where
  world : World
  fault : Option Fault

/-- The updater's code: it acts on a session, and a call that fails throws. -/
abbrev Docker (α : Type) := Effect String Session α

/-- What the daemon does with a request: refuse it, or answer and move on. -/
def perform {α : Type} (act : World → Except String (α × World)) (session : Session) :
    Except String α × Session :=
  match act session.world with
  | .ok (value, world) => (.ok value, { session with world })
  | .error message => (.error message, session)

/-- One call of the daemon. The fault that the session carries strikes at one call of one kind,
the others are performed. -/
def issue {α : Type} (call : DockerCall) (act : World → Except String (α × World)) :
    Docker α :=
  ExceptT.mk fun session =>
    match session.fault with
    | none => perform act session
    | some fault =>
        if fault.call ≠ call then perform act session
        else if 0 < fault.skip then
          perform act { session with fault := some { fault with skip := fault.skip - 1 } }
        else
          let reached := if fault.applied then (perform act session).2 else session
          (.error fault.message, { reached with fault := none })

/-- Answer from one container's record, and update it. A container that is not there is an error
of the daemon. -/
def withContainer {α : Type} (id : ContainerId)
    (act : Container → World → α × World) (world : World) : Except String (α × World) :=
  match world.containers id with
  | none => .error ("No such container: " ++ toString id)
  | some container => .ok (act container world)

/-- The world with one container replaced or removed, and everything else as it was. -/
def World.setContainer (world : World) (id : ContainerId) (container : Option Container) :
    World :=
  { world with containers := Function.update world.containers id container }

/-- All containers, running or not, in the order in which they were created. -/
def World.list (world : World) : List RawContainerListItem :=
  (List.range world.nextId).filterMap fun id =>
    (world.containers id).map fun container => ⟨id, [container.spec.name]⟩

/-- Pulling makes an image available; what the images contain is fixed from the beginning. -/
def pullImage (_reference : String) : Docker Unit :=
  issue .pullImage fun world => .ok ((), world)

/-- All containers, running or not. -/
def listContainers : Docker (List RawContainerListItem) :=
  issue .listContainers fun world => .ok (world.list, world)

/-- The settings from which the same container could be made again. -/
def inspectContainerForRecreate (id : ContainerId) : Docker RawContainerRecreateSpec :=
  issue .inspectContainerForRecreate <|
    withContainer id fun container world => (container.spec, world)

/-- What an image sets for the containers that run it. An image that is not there is an error. -/
def inspectImageConfig (imageId : String) : Docker RawImageConfig :=
  issue .inspectImageConfig fun world =>
    match world.imageConfigs imageId with
    | none => .error ("No such image: " ++ imageId)
    | some config => .ok (config, world)

/-- The images with the names they go under. -/
def listImages : Docker (List RawImage) :=
  issue .listImages fun world => .ok (world.images, world)

/-- A container that does not run any more keeps its name and its settings. -/
def stopContainer (id : ContainerId) : Docker Unit :=
  issue .stopContainer <| withContainer id fun container world =>
    ((), world.setContainer id (some { container with running := false }))

/-- Removal is always forced, so a running container goes too. -/
def removeContainer (id : ContainerId) : Docker Unit :=
  issue .removeContainer <| withContainer id fun _ world =>
    ((), world.setContainer id none)

/-- Creation refuses a name that is in use and leaves the container stopped. -/
def createContainer (spec : RawContainerRecreateSpec) : Docker ContainerId :=
  issue .createContainer fun world =>
    if world.list.any fun container => spec.name ∈ container.names then
      .error ("Conflict. The container name is already in use: " ++ spec.name)
    else
      .ok (world.nextId,
        { world.setContainer world.nextId (some ⟨spec, false, 0⟩) with
          nextId := world.nextId + 1 })

/-- Starts a container. Starting one that runs changes nothing. -/
def startContainer (id : ContainerId) : Docker Unit :=
  issue .startContainer <| withContainer id fun container world =>
    ((), world.setContainer id (some { container with running := true }))

/-- The state that the health check reads. What a container answers may depend on how often it
has been asked. -/
def inspectContainer (id : ContainerId) : Docker RawContainerInspect :=
  issue .inspectContainer <| withContainer id fun container world =>
    let answer := world.health container.spec.name container.spec.image container.polls
    (answer,
      { world.setContainer id (some { container with polls := container.polls + 1 }) with
        clock := world.clock + answer.latency })

/-- Time passes, and nothing else happens. -/
def Session.delay (session : Session) (ms : Nat) : Session :=
  { session with world := { session.world with clock := session.world.clock + ms } }

/-- The verdict goes on top of the earlier ones, so that the first of the list is the one that
the panel finds. -/
def writeResultFile (content : SelfUpdateResultFile) : Docker Unit :=
  modify fun session =>
    { session with world :=
        { session.world with results := content :: session.world.results } }

/-- How long a new container has for becoming healthy. -/
def HEALTH_POLL_TIMEOUT_MS : Nat := 90000

/-- The pause between two health checks. -/
def HEALTH_POLL_INTERVAL_MS : Nat := 2000

section Issue

variable {α : Type} {call : DockerCall} {act : World → Except String (α × World)}
  {session : Session}

theorem issue_run_none (hfault : session.fault = none) :
    (issue call act).run.run session = perform act session := by
  change issue call act session = _
  simp only [issue, ExceptT.mk, hfault]

theorem issue_run_other {fault : Fault} (hfault : session.fault = some fault)
    (hcall : fault.call ≠ call) :
    (issue call act).run.run session = perform act session := by
  change issue call act session = _
  simp only [issue, ExceptT.mk, hfault, ne_eq, hcall, not_false_eq_true, if_true]

theorem issue_run_skip {fault : Fault} (hfault : session.fault = some fault)
    (hcall : fault.call = call) (hskip : 0 < fault.skip) :
    (issue call act).run.run session =
      perform act { session with fault := some { fault with skip := fault.skip - 1 } } := by
  change issue call act session = _
  simp only [issue, ExceptT.mk, hfault, ne_eq, hcall, not_true_eq_false, if_false, hskip,
    if_true]

theorem issue_run_due {fault : Fault} (hfault : session.fault = some fault)
    (hcall : fault.call = call) (hskip : fault.skip = 0) :
    (issue call act).run.run session =
      (.error fault.message,
        { (if fault.applied then (perform act session).2 else session) with
          fault := none }) := by
  change issue call act session = _
  simp only [issue, ExceptT.mk, hfault, ne_eq, hcall, not_true_eq_false, if_false, hskip,
    Nat.lt_irrefl]

/-- A reflexive relation that the daemon's answer respects is respected by the
call, failing or not. -/
theorem issue_respects (related : World → World → Prop)
    (hrefl : ∀ world, related world world)
    (hact : ∀ world value after, act world = .ok (value, after) → related world after)
    (session : Session) :
    related session.world ((issue call act).run.run session).2.world := by
  have hperform : ∀ session, related session.world (perform act session).2.world := by
    intro session
    unfold perform
    cases hrun : act session.world with
    | error message => exact hrefl _
    | ok result => exact hact _ result.1 result.2 hrun
  cases hfault : session.fault with
  | none =>
      rw [issue_run_none hfault]
      exact hperform session
  | some fault =>
      by_cases hcall : fault.call = call
      · rcases Nat.eq_zero_or_pos fault.skip with hskip | hskip
        · rw [issue_run_due hfault hcall hskip]
          cases fault.applied with
          | true => exact hperform session
          | false => exact hrefl _
        · rw [issue_run_skip hfault hcall hskip]
          exact hperform ⟨session.world, some { fault with skip := fault.skip - 1 }⟩
      · rw [issue_run_other hfault hcall]
        exact hperform session

end Issue

theorem inspectContainer_clock_le (id : ContainerId) (session : Session) :
    session.world.clock ≤ ((inspectContainer id).run.run session).2.world.clock := by
  apply issue_respects (fun before after => before.clock ≤ after.clock)
    (fun _ => Nat.le_refl _)
  intro world value after hrun
  unfold withContainer at hrun
  split at hrun
  · cases hrun
  · obtain ⟨rfl, rfl⟩ := Prod.mk.inj (Except.ok.inj hrun)
    exact Nat.le_add_right _ _

/-- The polling loop: it ends because every wait moves the clock towards the
deadline. -/
def pollUntilHealthy (deadline : Nat) (containerId : ContainerId) (session : Session) :
    Except String Bool × Session :=
  match _hrun : (inspectContainer containerId).run.run session with
  | (.error message, after) => (.error message, after)
  | (.ok inspection, after) =>
      if inspection.health = some "healthy" then (.ok true, after)
      else if _htime : deadline ≤ after.world.clock then (.ok false, after)
      else pollUntilHealthy deadline containerId (after.delay HEALTH_POLL_INTERVAL_MS)
termination_by deadline - session.world.clock
decreasing_by
  have hclock := inspectContainer_clock_le containerId session
  rw [_hrun] at hclock
  simp only [Session.delay, HEALTH_POLL_INTERVAL_MS]
  simp only at hclock
  omega

/-- Polls until the container is healthy or its time is over. A throw of an inspection ends the
polling, and with it the update. -/
def waitForHealthy (containerId : ContainerId) : Docker Bool :=
  ExceptT.mk fun session =>
    pollUntilHealthy (session.world.clock + HEALTH_POLL_TIMEOUT_MS) containerId session

/-- The version that is replaced, read from a name of the image that the server runs. -/
def resolveFromVersion (serverImage : String) : Docker (Option String) := do
  let images ← listImages
  return (images.find? fun image => image.id = serverImage).bind fun image =>
    extractPanelVersion image.repoTags PANEL_SERVER_REPOSITORY

/-- An image that cannot be inspected any more does not stop the update. -/
def inspectOldImageConfig (imageId : String) : Docker (Option RawImageConfig) :=
  tryCatch (do let config ← inspectImageConfig imageId; return some config) fun _ =>
    pure none

/-- The first container that goes under a name. -/
def resolveIdByName (name : String) : Docker (Option ContainerId) := do
  let all ← listContainers
  return (all.find? fun container => name ∈ container.names).map RawContainerListItem.id

/-- A container that cannot be stopped is removed all the same; only a failed removal throws. -/
def stopAndRemove (id : ContainerId) : Docker Unit := do
  tryCatch (stopContainer id) fun _ => pure ()
  removeContainer id

/-- A new container from settings. When the start throws, the container has been created
already. -/
def createAndStart (spec : RawContainerRecreateSpec) : Docker ContainerId := do
  let id ← createContainer spec
  startContainer id
  return id

/-- The new container's id next to the health verdict, so that a later rollback can remove it. -/
def recreateAndWaitHealthy (currentId : ContainerId)
    (targetSpec : RawContainerRecreateSpec) : Docker (ContainerId × Bool) := do
  stopAndRemove currentId
  let newId ← createAndStart targetSpec
  let healthy ← waitForHealthy newId
  return (newId, healthy)

/-- Nothing has been touched yet: the verdict says so, and the update ends. -/
def reportPreFlight (target : UpdaterTarget) (reason : String) : Docker UpdaterOutcome := do
  writeResultFile <| .done .failed none (versionFromReference target.serverImageRef)
    (some .preFlight) (some reason)
  return .failed reason

/-- The sequence from the rollback plan on: the server, then the broker, each
with its own way back. -/
def recreatePair (target : UpdaterTarget) (serverId brokerId : ContainerId)
    (serverPlan brokerPlan : RawContainerRecreateSpec)
    (serverOldImage brokerOldImage : Option RawImageConfig) (fromVersion : Option String) :
    Docker UpdaterOutcome := do
  let toVersion := versionFromReference target.serverImageRef
  writeResultFile <| .inProgress toVersion serverPlan brokerPlan
  let serverResult ← recreateAndWaitHealthy serverId
    (buildImageSwapSpec serverPlan serverOldImage target.serverImageRef)
  if serverResult.2 = false then
    stopAndRemove serverResult.1
    let _ ← createAndStart serverPlan
    let reason := "The recreated server container did not become healthy in time."
    writeResultFile <| .done .rolledBack fromVersion toVersion (some .serverHealth)
      (some reason)
    return .rolledBack reason
  else
    let brokerResult ← recreateAndWaitHealthy brokerId
      (buildImageSwapSpec brokerPlan brokerOldImage target.brokerImageRef)
    if brokerResult.2 = false then
      -- Both go back: the server is on the new version already.
      stopAndRemove serverResult.1
      let _ ← createAndStart serverPlan
      stopAndRemove brokerResult.1
      let _ ← createAndStart brokerPlan
      let reason := "The recreated broker container did not become healthy in time."
      writeResultFile <| .done .rolledBack fromVersion toVersion (some .brokerHealth)
        (some reason)
      return .rolledBack reason
    else
      writeResultFile <| .done .success fromVersion toVersion none none
      return .success

/-- Everything after both containers have been found: both plans are captured
before either container is touched. -/
def replaceBoth (target : UpdaterTarget) (serverId brokerId : ContainerId) :
    Docker UpdaterOutcome := do
  let serverPlan ← inspectContainerForRecreate serverId
  let brokerPlan ← inspectContainerForRecreate brokerId
  let serverOldImage ← inspectOldImageConfig serverPlan.image
  let brokerOldImage ← inspectOldImageConfig brokerPlan.image
  let fromVersion ← resolveFromVersion serverPlan.image
  recreatePair target serverId brokerId serverPlan brokerPlan serverOldImage brokerOldImage
    fromVersion

/-- Pulls both images; the error of the first pull that fails. -/
def pullImages (target : UpdaterTarget) : Docker (Option String) :=
  tryCatch (do
    pullImage target.serverImageRef
    pullImage target.brokerImageRef
    return none) fun err => return some err

/-- The whole update: pull, resolve and inspect, then the server, then the broker, each with a
way back. -/
def runSelfUpdate (target : UpdaterTarget) : Docker UpdaterOutcome := do
  match ← pullImages target with
  | some err =>
      reportPreFlight target ("Could not pull one or both target images: " ++ err)
  | none =>
      let serverId ← resolveIdByName target.serverContainerName
      let brokerId ← resolveIdByName target.brokerContainerName
      match serverId, brokerId with
      | some serverId, some brokerId => replaceBoth target serverId brokerId
      | _, _ =>
          reportPreFlight target
            "Could not find the panel's own containers by their configured names."

/-- The updater process: its exit code, whatever happens inside. -/
def entrypoint (target : UpdaterTarget) : StateM Session Nat := do
  match ← (runSelfUpdate target).run with
  | .ok .success => return 0
  | .ok _ => return 1
  | .error _ => return 1

end Updater

end MailPanel
