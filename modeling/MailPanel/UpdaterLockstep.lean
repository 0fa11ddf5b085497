import MailPanel.UpdaterCalls

/-
What a self-update leaves behind when one thing goes wrong: the pair stays in
lockstep, with a verdict on file, exactly when the failing call is one the
updater handles.
-/

namespace MailPanel

namespace Updater

open ImageSwap Effect

/-- The two panel containers as they are before an update. -/
structure Pair where
  serverId : ContainerId
  brokerId : ContainerId
  serverPlan : RawContainerRecreateSpec
  brokerPlan : RawContainerRecreateSpec
deriving DecidableEq, Repr

/-- Both containers run under their configured names, and no result is on file. It is what an
update starts from, and what a rollback is to come back to. -/
structure Installed (target : UpdaterTarget) (pair : Pair) (world : World) : Prop where
  wellFormed : world.WellFormed
  server : ∃ polls, world.containers pair.serverId = some ⟨pair.serverPlan, true, polls⟩
  broker : ∃ polls, world.containers pair.brokerId = some ⟨pair.brokerPlan, true, polls⟩
  server_name : pair.serverPlan.name = target.serverContainerName
  broker_name : pair.brokerPlan.name = target.brokerContainerName
  distinct : pair.serverId ≠ pair.brokerId
  no_result : world.results = []

/-- A started container of this name with this property. -/
def World.Runs (world : World) (name : String) (holds : RawContainerRecreateSpec → Prop) :
    Prop :=
  ∃ id container, world.containers id = some container ∧ container.running = true ∧
    container.spec.name = name ∧ holds container.spec

/-- Both containers are started, both on their captured specification or both on
the new image, and the verdict on file says which. -/
def Lockstep (target : UpdaterTarget) (pair : Pair) (world : World) : Prop :=
  (world.Runs target.serverContainerName (· = pair.serverPlan) ∧
    world.Runs target.brokerContainerName (· = pair.brokerPlan) ∧
    (world.verdict = some .rolledBack ∨ world.verdict = some .failed)) ∨
  (world.Runs target.serverContainerName (·.image = target.serverImageRef) ∧
    world.Runs target.brokerContainerName (·.image = target.brokerImageRef) ∧
    world.verdict = some .success)

/-- What goes wrong in a run: nothing, a recreated container that stays
unhealthy, or one call that throws. -/
inductive Failure where
  | none
  | unhealthyServer
  | unhealthyBroker
  | throws (fault : Fault)
deriving DecidableEq, Repr

def Failure.fault : Failure → Option Fault
  | .throws fault => some fault
  | _ => Option.none

/-- Whether the updater has a way on from the failure. -/
def Failure.handled : Failure → Bool
  | .throws fault => fault.call.handled
  | _ => true

/-- The Docker calls of a run in which nothing goes wrong, in order. How often a container is
inspected depends on when it becomes healthy. -/
def forwardSequence (serverPolls brokerPolls : Nat) : List DockerCall :=
  [DockerCall.pullImage, .pullImage, .listContainers, .listContainers,
    .inspectContainerForRecreate, .inspectContainerForRecreate,
    .inspectImageConfig, .inspectImageConfig, .listImages,
    .stopContainer, .removeContainer, .createContainer, .startContainer] ++
  List.replicate serverPolls .inspectContainer ++
  [DockerCall.stopContainer, .removeContainer, .createContainer, .startContainer] ++
  List.replicate brokerPolls .inspectContainer

section Scenario

variable (target : UpdaterTarget) (pair : Pair) (world : World)

/-- The health answers of the new server container. -/
def serverStream : HealthStream :=
  world.health pair.serverPlan.name target.serverImageRef

def brokerStream : HealthStream :=
  world.health pair.brokerPlan.name target.brokerImageRef

/-- The failure is the only one: a container that is not said to stay unhealthy
becomes healthy in time, and a call that throws is one of the forward sequence. -/
def Failure.Occurs : Failure → Prop
  | .none => ∃ serverIndex brokerIndex,
      Settles (serverStream target pair world) serverIndex true ∧
      Settles (brokerStream target pair world) brokerIndex true
  | .unhealthyServer => ∃ serverIndex,
      Settles (serverStream target pair world) serverIndex false
  | .unhealthyBroker => ∃ serverIndex brokerIndex,
      Settles (serverStream target pair world) serverIndex true ∧
      Settles (brokerStream target pair world) brokerIndex false
  | .throws fault => ∃ serverIndex brokerIndex,
      Settles (serverStream target pair world) serverIndex true ∧
      Settles (brokerStream target pair world) brokerIndex true ∧
      fault.skip < (forwardSequence (serverIndex + 1) (brokerIndex + 1)).count fault.call

end Scenario

section Report

variable {β : Type} {session : Session}

/-- Writing the last result and returning. -/
theorem report_attempt {content : SelfUpdateResultFile} {value : β}
    {post : β → World → Prop}
    (hpost : post value { session.world with results := content :: session.world.results }) :
    Attempt (do writeResultFile content; return value) session [] post := by
  have hwrite : Returns (writeResultFile content) session () _ := rfl
  exact Attempt.of_returns (hwrite.bind (returns_pure value _)) (Spends.refl _) hpost

end Report

theorem World.replaced_new (world : World) (id : ContainerId)
    (spec : RawContainerRecreateSpec) (polls clock : Nat) :
    (world.replaced id spec polls clock).containers world.nextId =
      some ⟨spec, true, polls⟩ := by
  simp [World.replaced]

/-- The frame: every other container is as it was. -/
theorem World.replaced_other {world : World} {id other : ContainerId}
    (spec : RawContainerRecreateSpec) (polls clock : Nat) {container : Container}
    (hworld : world.WellFormed) (hother : world.containers other = some container)
    (hne : other ≠ id) :
    (world.replaced id spec polls clock).containers other = some container := by
  have hnew : other ≠ world.nextId := Nat.ne_of_lt (hworld.fresh other container hother)
  simp [World.replaced, hnew, hne, hother]

theorem World.Runs.of_containers {world : World} {id : ContainerId} {polls : Nat}
    {spec : RawContainerRecreateSpec} {name : String}
    {holds : RawContainerRecreateSpec → Prop}
    (hcontainer : world.containers id = some ⟨spec, true, polls⟩) (hname : spec.name = name)
    (hholds : holds spec) : world.Runs name holds :=
  ⟨id, ⟨spec, true, polls⟩, hcontainer, rfl, hname, hholds⟩

section Run

variable {target : UpdaterTarget} {pair : Pair} {world : World} {session : Session}

/-- The calls of the second half when both containers settle as given, in order. It is the list
that a failure is placed in, one call after the other. -/
def recreateCalls (serverIndex brokerIndex : Nat) : Bool → Bool → List DockerCall
  | false, _ =>
      [DockerCall.stopContainer, .removeContainer, .createContainer, .startContainer] ++
        List.replicate (serverIndex + 1) .inspectContainer ++
      [.stopContainer, .removeContainer, .createContainer, .startContainer]
  | true, brokerHealthy =>
      [DockerCall.stopContainer, .removeContainer, .createContainer, .startContainer] ++
        List.replicate (serverIndex + 1) .inspectContainer ++
      ([DockerCall.stopContainer, .removeContainer, .createContainer, .startContainer] ++
        List.replicate (brokerIndex + 1) .inspectContainer ++
        if brokerHealthy then []
        else
          [DockerCall.stopContainer, .removeContainer, .createContainer, .startContainer] ++
          [.stopContainer, .removeContainer, .createContainer, .startContainer])

/-- The world of a run between its first and its last result: the plan is on
file, and both containers are where they were or have been replaced. -/
structure Underway (target : UpdaterTarget) (health : String → String → HealthStream)
    (serverId brokerId : ContainerId) (serverSpec brokerSpec : RawContainerRecreateSpec)
    (world : World) : Prop where
  wellFormed : world.WellFormed
  verdict : world.verdict = none
  health_eq : world.health = health
  server : ∃ polls, world.containers serverId = some ⟨serverSpec, true, polls⟩
  broker : ∃ polls, world.containers brokerId = some ⟨brokerSpec, true, polls⟩
  server_name : serverSpec.name = target.serverContainerName
  broker_name : brokerSpec.name = target.brokerContainerName
  distinct : serverId ≠ brokerId

variable {health : String → String → HealthStream} {serverId brokerId : ContainerId}
  {serverSpec brokerSpec spec : RawContainerRecreateSpec}

theorem Underway.replaceServer
    (hunderway : Underway target health serverId brokerId serverSpec brokerSpec world)
    (hname : spec.name = target.serverContainerName) (polls clock : Nat) :
    Underway target health world.nextId brokerId spec brokerSpec
      (world.replaced serverId spec polls clock) := by
  obtain ⟨serverPolls, hserver⟩ := hunderway.server
  obtain ⟨brokerPolls, hbroker⟩ := hunderway.broker
  constructor
  · exact World.replaced_wellFormed hunderway.wellFormed hserver
      (hname.trans hunderway.server_name.symm) polls clock
  · exact hunderway.verdict
  · exact hunderway.health_eq
  · exact ⟨polls, World.replaced_new ..⟩
  · exact ⟨brokerPolls, World.replaced_other spec polls clock hunderway.wellFormed hbroker
      hunderway.distinct.symm⟩
  · exact hname
  · exact hunderway.broker_name
  · exact (Nat.ne_of_lt (hunderway.wellFormed.fresh _ _ hbroker)).symm

theorem Underway.replaceBroker
    (hunderway : Underway target health serverId brokerId serverSpec brokerSpec world)
    (hname : spec.name = target.brokerContainerName) (polls clock : Nat) :
    Underway target health serverId world.nextId serverSpec spec
      (world.replaced brokerId spec polls clock) := by
  obtain ⟨serverPolls, hserver⟩ := hunderway.server
  obtain ⟨brokerPolls, hbroker⟩ := hunderway.broker
  constructor
  · exact World.replaced_wellFormed hunderway.wellFormed hbroker
      (hname.trans hunderway.broker_name.symm) polls clock
  · exact hunderway.verdict
  · exact hunderway.health_eq
  · exact ⟨serverPolls, World.replaced_other spec polls clock hunderway.wellFormed hserver
      hunderway.distinct⟩
  · exact ⟨polls, World.replaced_new ..⟩
  · exact hunderway.server_name
  · exact hname
  · exact Nat.ne_of_lt (hunderway.wellFormed.fresh _ _ hserver)

/-- The pair's own plans and the verdict that says so. -/
theorem Underway.lockstep_old {content : SelfUpdateResultFile}
    (hunderway : Underway target health serverId brokerId pair.serverPlan pair.brokerPlan
      world)
    (hverdict : ({ world with results := content :: world.results } : World).verdict =
      some .rolledBack) :
    Lockstep target pair { world with results := content :: world.results } := by
  obtain ⟨serverPolls, hserver⟩ := hunderway.server
  obtain ⟨brokerPolls, hbroker⟩ := hunderway.broker
  exact Or.inl ⟨World.Runs.of_containers hserver hunderway.server_name rfl,
    World.Runs.of_containers hbroker hunderway.broker_name rfl, Or.inl hverdict⟩

/-- Both new images and the verdict that says so. -/
theorem Underway.lockstep_new {content : SelfUpdateResultFile}
    (hunderway : Underway target health serverId brokerId serverSpec brokerSpec world)
    (hserverImage : serverSpec.image = target.serverImageRef)
    (hbrokerImage : brokerSpec.image = target.brokerImageRef)
    (hverdict : ({ world with results := content :: world.results } : World).verdict =
      some .success) :
    Lockstep target pair { world with results := content :: world.results } := by
  obtain ⟨serverPolls, hserver⟩ := hunderway.server
  obtain ⟨brokerPolls, hbroker⟩ := hunderway.broker
  exact Or.inr ⟨World.Runs.of_containers hserver hunderway.server_name hserverImage,
    World.Runs.of_containers hbroker hunderway.broker_name hbrokerImage, hverdict⟩

section Steps

variable {index : Nat} {healthy : Bool}

theorem Underway.recreateServer
    (hunderway : Underway target health serverId brokerId serverSpec brokerSpec session.world)
    (hname : spec.name = target.serverContainerName)
    (hsettles : Settles (health spec.name spec.image) index healthy) :
    Attempt (recreateAndWaitHealthy serverId spec) session
      ([DockerCall.stopContainer, .removeContainer, .createContainer, .startContainer] ++
        List.replicate (index + 1) .inspectContainer) fun result after =>
          result.2 = healthy ∧
            Underway target health result.1 brokerId spec brokerSpec after := by
  obtain ⟨serverPolls, hserver⟩ := hunderway.server
  rw [← hunderway.health_eq] at hsettles
  refine Attempt.mono (recreateAndWaitHealthy_attempt hunderway.wellFormed hserver
    (hname.trans hunderway.server_name.symm) hunderway.verdict hsettles) ?_
  rintro result after ⟨rfl, polls, clock, rfl⟩
  exact ⟨rfl, hunderway.replaceServer hname polls clock⟩

theorem Underway.recreateBroker
    (hunderway : Underway target health serverId brokerId serverSpec brokerSpec session.world)
    (hname : spec.name = target.brokerContainerName)
    (hsettles : Settles (health spec.name spec.image) index healthy) :
    Attempt (recreateAndWaitHealthy brokerId spec) session
      ([DockerCall.stopContainer, .removeContainer, .createContainer, .startContainer] ++
        List.replicate (index + 1) .inspectContainer) fun result after =>
          result.2 = healthy ∧
            Underway target health serverId result.1 serverSpec spec after := by
  obtain ⟨brokerPolls, hbroker⟩ := hunderway.broker
  rw [← hunderway.health_eq] at hsettles
  refine Attempt.mono (recreateAndWaitHealthy_attempt hunderway.wellFormed hbroker
    (hname.trans hunderway.broker_name.symm) hunderway.verdict hsettles) ?_
  rintro result after ⟨rfl, polls, clock, rfl⟩
  exact ⟨rfl, hunderway.replaceBroker hname polls clock⟩

variable {β : Type} {rest : ContainerId → Docker β} {calls : List DockerCall}
  {post : β → World → Prop}

/-- The server goes back to a specification, and the code goes on. -/
theorem Underway.rollbackServer
    (hunderway : Underway target health serverId brokerId serverSpec brokerSpec session.world)
    (hname : spec.name = target.serverContainerName)
    (hrest : ∀ newId after, Underway target health newId brokerId spec brokerSpec
      after.world → Attempt (rest newId) after calls post) :
    Attempt (do stopAndRemove serverId; let newId ← createAndStart spec; rest newId) session
      ([DockerCall.stopContainer, .removeContainer, .createContainer, .startContainer] ++ calls)
      post := by
  obtain ⟨serverPolls, hserver⟩ := hunderway.server
  rw [← bind_assoc]
  refine Attempt.bind (replace_attempt hunderway.wellFormed hserver
    (hname.trans hunderway.server_name.symm) hunderway.verdict) ?_
  rintro newId after ⟨rfl, hafter⟩
  exact hrest _ after (hafter ▸ hunderway.replaceServer hname 0 session.world.clock)

theorem Underway.rollbackBroker
    (hunderway : Underway target health serverId brokerId serverSpec brokerSpec session.world)
    (hname : spec.name = target.brokerContainerName)
    (hrest : ∀ newId after, Underway target health serverId newId serverSpec spec
      after.world → Attempt (rest newId) after calls post) :
    Attempt (do stopAndRemove brokerId; let newId ← createAndStart spec; rest newId) session
      ([DockerCall.stopContainer, .removeContainer, .createContainer, .startContainer] ++ calls)
      post := by
  obtain ⟨brokerPolls, hbroker⟩ := hunderway.broker
  rw [← bind_assoc]
  refine Attempt.bind (replace_attempt hunderway.wellFormed hbroker
    (hname.trans hunderway.broker_name.symm) hunderway.verdict) ?_
  rintro newId after ⟨rfl, hafter⟩
  exact hrest _ after (hafter ▸ hunderway.replaceBroker hname 0 session.world.clock)

end Steps

theorem recreatePair_attempt {serverIndex brokerIndex : Nat}
    {serverHealthy brokerHealthy : Bool} (serverOldImage brokerOldImage : Option RawImageConfig)
    (fromVersion : Option String) (hinstalled : Installed target pair session.world)
    (hserver : Settles (serverStream target pair session.world) serverIndex serverHealthy)
    (hbroker : serverHealthy = true →
      Settles (brokerStream target pair session.world) brokerIndex brokerHealthy) :
    Attempt (recreatePair target pair.serverId pair.brokerId pair.serverPlan pair.brokerPlan
        serverOldImage brokerOldImage fromVersion) session
      (recreateCalls serverIndex brokerIndex serverHealthy brokerHealthy)
      fun _ after => Lockstep target pair after := by
  -- The rollback plan goes on file first; it is no verdict.
  have hwrite : Attempt (writeResultFile (.inProgress
      (versionFromReference target.serverImageRef) pair.serverPlan pair.brokerPlan)) session []
      fun _ after => Underway target session.world.health pair.serverId pair.brokerId
        pair.serverPlan pair.brokerPlan after :=
    Attempt.of_returns rfl (Spends.refl _)
      ⟨⟨hinstalled.wellFormed.1, hinstalled.wellFormed.2⟩, rfl, rfl, hinstalled.server,
        hinstalled.broker, hinstalled.server_name, hinstalled.broker_name,
        hinstalled.distinct⟩
  unfold recreatePair
  rw [← List.nil_append (recreateCalls serverIndex brokerIndex serverHealthy brokerHealthy)]
  refine Attempt.bind hwrite ?_
  intro _ start hstart
  cases serverHealthy with
  | false =>
      refine Attempt.bind (hstart.recreateServer hinstalled.server_name hserver) ?_
      rintro ⟨newServer, healthy⟩ recreated ⟨rfl, hrecreated⟩
      refine hrecreated.rollbackServer hinstalled.server_name ?_
      intro oldServer after hafter
      exact report_attempt (hafter.lockstep_old rfl)
  | true =>
      refine Attempt.bind (hstart.recreateServer hinstalled.server_name hserver) ?_
      rintro ⟨newServer, healthy⟩ recreated ⟨rfl, hrecreated⟩
      refine Attempt.bind
        (hrecreated.recreateBroker hinstalled.broker_name (hbroker rfl)) ?_
      rintro ⟨newBroker, healthy⟩ both ⟨rfl, hboth⟩
      cases healthy with
      | true => exact report_attempt (hboth.lockstep_new rfl rfl rfl)
      | false =>
          refine hboth.rollbackServer hinstalled.server_name ?_
          intro oldServer restored hrestored
          refine hrestored.rollbackBroker hinstalled.broker_name ?_
          intro oldBroker after hafter
          exact report_attempt (hafter.lockstep_old rfl)

def captureCalls : List DockerCall :=
  [.inspectContainerForRecreate, .inspectContainerForRecreate, .inspectImageConfig,
    .inspectImageConfig, .listImages]

theorem replaceBoth_attempt {serverIndex brokerIndex : Nat}
    {serverHealthy brokerHealthy : Bool} (hinstalled : Installed target pair session.world)
    (hserver : Settles (serverStream target pair session.world) serverIndex serverHealthy)
    (hbroker : serverHealthy = true →
      Settles (brokerStream target pair session.world) brokerIndex brokerHealthy) :
    Attempt (replaceBoth target pair.serverId pair.brokerId) session
      (captureCalls ++ recreateCalls serverIndex brokerIndex serverHealthy brokerHealthy)
      fun _ after => Lockstep target pair after := by
  obtain ⟨serverPolls, hserverAt⟩ := hinstalled.server
  obtain ⟨brokerPolls, hbrokerAt⟩ := hinstalled.broker
  have hverdict : session.world.verdict = none := by
    simp [World.verdict, hinstalled.no_result]
  have hcalls : ∀ calls, captureCalls ++ calls =
      [DockerCall.inspectContainerForRecreate] ++ ([DockerCall.inspectContainerForRecreate] ++
        ([DockerCall.inspectImageConfig] ++ ([DockerCall.inspectImageConfig] ++
          ([DockerCall.listImages] ++ calls)))) :=
    fun _ => rfl
  rw [hcalls]
  unfold replaceBoth
  refine Attempt.bind (inspectContainerForRecreate_attempt hserverAt hverdict) ?_
  rintro _ first ⟨rfl, hfirst⟩
  rw [← hfirst] at hbrokerAt hverdict
  refine Attempt.bind (inspectContainerForRecreate_attempt hbrokerAt hverdict) ?_
  rintro _ second ⟨rfl, hsecond⟩
  refine Attempt.bind (inspectOldImageConfig_attempt pair.serverPlan.image) ?_
  intro serverOldImage third hthird
  refine Attempt.bind (inspectOldImageConfig_attempt pair.brokerPlan.image) ?_
  intro brokerOldImage fourth hfourth
  have hworld : fourth.world = session.world := by rw [hfourth, hthird, hsecond, hfirst]
  refine Attempt.bind (resolveFromVersion_attempt pair.serverPlan.image ?_) ?_
  · rw [hworld, ← hfirst]
    exact hverdict
  · intro fromVersion captured hcaptured
    rw [hworld] at hcaptured
    rw [← hcaptured] at hinstalled hserver hbroker
    exact recreatePair_attempt serverOldImage brokerOldImage fromVersion hinstalled hserver
      hbroker

theorem pullImage_run_clear {reference : String}
    (hclear : ∀ fault, session.fault = some fault → fault.call ≠ .pullImage) :
    Returns (pullImage reference) session () session := by
  cases hfault : session.fault with
  | none => exact issue_run_none hfault
  | some fault => exact issue_run_other hfault (hclear fault hfault)

theorem pullImage_run_skip (reference : String) {fault : Fault}
    (hfault : session.fault = some fault) (hcall : fault.call = .pullImage)
    (hskip : 0 < fault.skip) :
    ∃ left, Returns (pullImage reference) session () ⟨session.world, some left⟩ ∧
      left.call = .pullImage ∧ left.skip + 1 = fault.skip ∧ left.message = fault.message :=
  ⟨{ fault with skip := fault.skip - 1 }, issue_run_skip hfault hcall hskip, hcall,
    Nat.sub_add_cancel hskip, rfl⟩

/-- Both pulls go through unless the failing call is one of them, and they change no container. -/
theorem pullImages_attempt
    (hpull : ∀ fault, session.fault = some fault → fault.call = .pullImage →
      2 ≤ fault.skip) :
    Attempt (pullImages target) session [.pullImage, .pullImage]
      fun error after => error = none ∧ after = session.world := by
  by_cases hclear : ∀ fault, session.fault = some fault → fault.call ≠ .pullImage
  · have hbody : Returns (do
        pullImage target.serverImageRef
        pullImage target.brokerImageRef
        return (none : Option String)) session none session :=
      (pullImage_run_clear hclear).bind ((pullImage_run_clear hclear).bind (returns_pure _ _))
    refine Attempt.of_returns (hbody.tryCatch _) ?_ ⟨rfl, rfl⟩
    cases hfault : session.fault with
    | none => rfl
    | some fault =>
        cases hhandled : fault.call.handled with
        | true =>
            rw [spends_handled_iff hhandled]
            rintro left ⟨⟩
            exact hhandled
        | false =>
            have hcount : [DockerCall.pullImage, .pullImage].count fault.call = 0 := by
              simp [Ne.symm (hclear fault hfault)]
            rw [spends_loud_iff hhandled, hcount]
            exact ⟨Nat.zero_le _, rfl⟩
  · simp only [not_forall, ne_eq, not_not] at hclear
    obtain ⟨fault, hfault, hcall⟩ := hclear
    have hskip := hpull fault hfault hcall
    obtain ⟨left, hreturns, hleftcall, hleft, _⟩ :=
      pullImage_run_skip target.serverImageRef hfault hcall (by omega)
    obtain ⟨last, hreturns', hlastcall, _⟩ :=
      pullImage_run_skip target.brokerImageRef
        (show (Session.mk session.world (some left)).fault = some left from rfl) hleftcall
        (by omega)
    have hbody : Returns (do
        pullImage target.serverImageRef
        pullImage target.brokerImageRef
        return (none : Option String)) session none ⟨session.world, some last⟩ :=
      hreturns.bind (hreturns'.bind (returns_pure _ _))
    refine Attempt.of_returns (hbody.tryCatch _) ?_ ⟨rfl, rfl⟩
    rw [hfault, spends_handled_iff (by rw [hcall]; rfl)]
    rintro final ⟨⟩
    rw [hlastcall]
    rfl

theorem pullImage_run_due {reference : String} {fault : Fault}
    (hfault : session.fault = some fault) (hcall : fault.call = .pullImage)
    (hskip : fault.skip = 0) :
    Throws (pullImage reference) session fault.message ⟨session.world, none⟩ := by
  refine (issue_run_due hfault hcall hskip).trans ?_
  cases fault.applied <;> rfl

/-- A pull that fails is caught with nothing touched. -/
theorem pullImages_failing {fault : Fault} (hfault : session.fault = some fault)
    (hcall : fault.call = .pullImage) (hskip : fault.skip < 2) :
    Returns (pullImages target) session (some fault.message) ⟨session.world, none⟩ := by
  rcases Nat.eq_zero_or_pos fault.skip with hzero | hpos
  · have hfirst : Throws (pullImage target.serverImageRef) session _ _ :=
      pullImage_run_due hfault hcall hzero
    exact (hfirst.bind _).tryCatch (returns_pure _ _)
  · obtain ⟨left, hfirst, hleftcall, hleft, hmessage⟩ :=
      pullImage_run_skip target.serverImageRef hfault hcall hpos
    have hsecond : Throws (pullImage target.brokerImageRef) ⟨session.world, some left⟩ _ _ :=
      pullImage_run_due rfl hleftcall (by omega)
    rw [hmessage] at hsecond
    exact (hfirst.bind_throws (hsecond.bind _)).tryCatch (returns_pure _ _)

theorem runSelfUpdate_attempt {serverIndex brokerIndex : Nat}
    {serverHealthy brokerHealthy : Bool} (hinstalled : Installed target pair session.world)
    (hserver : Settles (serverStream target pair session.world) serverIndex serverHealthy)
    (hbroker : serverHealthy = true →
      Settles (brokerStream target pair session.world) brokerIndex brokerHealthy)
    (hpull : ∀ fault, session.fault = some fault → fault.call = .pullImage →
      2 ≤ fault.skip) :
    Attempt (runSelfUpdate target) session
      ([DockerCall.pullImage, .pullImage, .listContainers, .listContainers] ++
        (captureCalls ++ recreateCalls serverIndex brokerIndex serverHealthy brokerHealthy))
      fun _ after => Lockstep target pair after := by
  obtain ⟨serverPolls, hserverAt⟩ := hinstalled.server
  obtain ⟨brokerPolls, hbrokerAt⟩ := hinstalled.broker
  have hverdict : session.world.verdict = none := by
    simp [World.verdict, hinstalled.no_result]
  have hcalls : ∀ calls,
      [DockerCall.pullImage, .pullImage, .listContainers, .listContainers] ++ calls =
        [DockerCall.pullImage, .pullImage] ++
          ([DockerCall.listContainers] ++ ([DockerCall.listContainers] ++ calls)) :=
    fun _ => rfl
  rw [hcalls]
  unfold runSelfUpdate
  refine Attempt.bind (pullImages_attempt hpull) ?_
  rintro _ pulled ⟨rfl, hpulled⟩
  have hworld := hinstalled.wellFormed
  rw [← hpulled] at hserverAt hbrokerAt hverdict hworld
  refine Attempt.bind
    (resolveIdByName_attempt hworld hserverAt hinstalled.server_name hverdict) ?_
  rintro _ found ⟨rfl, hfound⟩
  rw [← hfound] at hbrokerAt hverdict hworld
  refine Attempt.bind
    (resolveIdByName_attempt hworld hbrokerAt hinstalled.broker_name hverdict) ?_
  rintro _ both ⟨rfl, hboth⟩
  have hsame : both.world = session.world := by rw [hboth, hfound, hpulled]
  rw [← hsame] at hinstalled hserver hbroker
  exact replaceBoth_attempt hinstalled hserver hbroker

theorem runSelfUpdate_pull_failed {fault : Fault}
    (hinstalled : Installed target pair session.world)
    (hfault : session.fault = some fault) (hcall : fault.call = .pullImage)
    (hskip : fault.skip < 2) :
    Lockstep target pair (final (runSelfUpdate target) session).world := by
  obtain ⟨serverPolls, hserverAt⟩ := hinstalled.server
  obtain ⟨brokerPolls, hbrokerAt⟩ := hinstalled.broker
  have hreport : Returns (reportPreFlight target
      ("Could not pull one or both target images: " ++ fault.message))
      ⟨session.world, none⟩ _ _ := rfl
  have hreturns : Returns (runSelfUpdate target) session _ _ :=
    (pullImages_failing hfault hcall hskip).bind hreport
  rw [hreturns.final_eq]
  exact Or.inl ⟨World.Runs.of_containers hserverAt hinstalled.server_name rfl,
    World.Runs.of_containers hbrokerAt hinstalled.broker_name rfl, Or.inr rfl⟩

/-- The entrypoint adds an exit code and nothing else. -/
theorem entrypoint_session (target : UpdaterTarget) (session : Session) :
    ((entrypoint target).run session).2 = final (runSelfUpdate target) session := by
  rw [entrypoint, StateT.run_bind]
  rcases hrun : (runSelfUpdate target).run.run session with ⟨error | outcome, after⟩
  · rw [final, hrun]
    rfl
  · rw [final, hrun]
    cases outcome <;> rfl

theorem not_lockstep_of_verdict (hverdict : world.verdict = none) :
    ¬ Lockstep target pair world := by
  rintro (⟨_, _, hold | hold⟩ | ⟨_, _, hnew⟩)
  · simp [hverdict] at hold
  · simp [hverdict] at hold
  · simp [hverdict] at hnew

theorem forwardSequence_eq (serverIndex brokerIndex : Nat) :
    forwardSequence (serverIndex + 1) (brokerIndex + 1) =
      [DockerCall.pullImage, .pullImage, .listContainers, .listContainers] ++
        (captureCalls ++ recreateCalls serverIndex brokerIndex true true) := by
  simp [forwardSequence, captureCalls, recreateCalls]

/-- A handled failure, or none: the run returns with the pair in lockstep. -/
theorem Attempt.lockstep {calls : List DockerCall}
    (hattempt : Attempt (runSelfUpdate target) session calls
      fun _ after => Lockstep target pair after)
    (hhandled : ∀ fault, session.fault = some fault → fault.call.handled = true) :
    Lockstep target pair (final (runSelfUpdate target) session).world := by
  rcases hattempt with ⟨value, after, hreturns, _, hpost⟩ |
    ⟨fault, hfault, hloud, _⟩
  · rw [hreturns.final_eq]
    exact hpost
  · rw [hhandled fault hfault] at hloud
    cases hloud

/-- A failure that nothing handles, at a point the run reaches: no verdict. -/
theorem Attempt.no_verdict {calls : List DockerCall} {fault : Fault}
    (hattempt : Attempt (runSelfUpdate target) session calls
      fun _ after => Lockstep target pair after)
    (hfault : session.fault = some fault) (hloud : fault.call.handled = false)
    (hpoint : fault.skip < calls.count fault.call) :
    (final (runSelfUpdate target) session).world.verdict = none := by
  rcases hattempt with ⟨value, after, _, hspends, _⟩ |
    ⟨_, _, _, message, after, hthrows, hverdict⟩
  · rw [hfault, spends_loud_iff hloud] at hspends
    have hle := hspends.1
    omega
  · rw [hthrows.final_eq]
    exact hverdict

/-- The pair ends in lockstep, with a verdict that says on which version, exactly when the one
thing that goes wrong is something the updater handles. It handles new containers that stay
unhealthy, and throws of a pull, of a stop and of the inspection of an image; a throw of any
other call ends the run without a verdict. -/
theorem lockstep_iff_handled (target : UpdaterTarget) (pair : Pair) (world : World)
    (failure : Failure) (hinstalled : Installed target pair world)
    (hoccurs : failure.Occurs target pair world) :
    Lockstep target pair ((entrypoint target).run ⟨world, failure.fault⟩).2.world ↔
      failure.handled = true := by
  rw [entrypoint_session]
  cases failure with
  | none =>
      obtain ⟨serverIndex, brokerIndex, hserver, hbroker⟩ := hoccurs
      refine iff_of_true (Attempt.lockstep (runSelfUpdate_attempt hinstalled hserver
        (fun _ => hbroker) ?_) ?_) rfl
      · rintro fault ⟨⟩
      · rintro fault ⟨⟩
  | unhealthyServer =>
      obtain ⟨serverIndex, hserver⟩ := hoccurs
      have hattempt : Attempt (runSelfUpdate target) ⟨world, Option.none⟩
          ([DockerCall.pullImage, .pullImage, .listContainers, .listContainers] ++
            (captureCalls ++ recreateCalls serverIndex 0 false false)) _ :=
        runSelfUpdate_attempt hinstalled hserver (fun hhealthy => by cases hhealthy)
          (fun fault hfault => by cases hfault)
      refine iff_of_true (hattempt.lockstep ?_) rfl
      rintro fault ⟨⟩
  | unhealthyBroker =>
      obtain ⟨serverIndex, brokerIndex, hserver, hbroker⟩ := hoccurs
      refine iff_of_true (Attempt.lockstep (runSelfUpdate_attempt hinstalled hserver
        (fun _ => hbroker) ?_) ?_) rfl
      · rintro fault ⟨⟩
      · rintro fault ⟨⟩
  | throws fault =>
      obtain ⟨serverIndex, brokerIndex, hserver, hbroker, hpoint⟩ := hoccurs
      rw [forwardSequence_eq] at hpoint
      change Lockstep target pair
        (final (runSelfUpdate target) ⟨world, some fault⟩).world ↔
          fault.call.handled = true
      by_cases hpull : fault.call = .pullImage
      · refine iff_of_true (runSelfUpdate_pull_failed hinstalled rfl hpull ?_) ?_
        · simpa [hpull, captureCalls, recreateCalls, List.count_replicate] using hpoint
        · rw [hpull]
          rfl
      · have hattempt : Attempt (runSelfUpdate target) ⟨world, some fault⟩ _ _ :=
          runSelfUpdate_attempt hinstalled hserver (fun _ => hbroker)
            (fun _ hfault hcall => by cases hfault; exact absurd hcall hpull)
        cases hhandled : fault.call.handled with
        | true =>
            refine iff_of_true (hattempt.lockstep ?_) rfl
            rintro _ ⟨⟩
            exact hhandled
        | false =>
            have hverdict := hattempt.no_verdict rfl hhandled hpoint
            exact iff_of_false (not_lockstep_of_verdict hverdict) Bool.false_ne_true

end Run

namespace StartFailsWitness

def target : UpdaterTarget where
  serverContainerName := "dwg-server"
  brokerContainerName := "dwg-broker"
  serverImageRef := "ghcr.io/arvinrahnama/docker-webmail-gui-server:0.4.0"
  brokerImageRef := "ghcr.io/arvinrahnama/docker-webmail-gui-broker:0.4.0"

def planOf (name image : String) : RawContainerRecreateSpec where
  name := name
  image := image
  env := ["PORT=3000"]
  labels := []
  cmd := none
  hostConfig := ""
  networkingConfig := ""

def pair : Pair where
  serverId := 0
  brokerId := 1
  serverPlan := planOf "dwg-server" "sha256:01"
  brokerPlan := planOf "dwg-broker" "sha256:02"

/-- Two running containers, every container healthy as soon as it is asked. -/
def world : World where
  containers id :=
    if id = 0 then some ⟨pair.serverPlan, true, 0⟩
    else if id = 1 then some ⟨pair.brokerPlan, true, 0⟩
    else none
  nextId := 2
  imageConfigs _ := none
  images := []
  health _ _ _ := ⟨some "healthy", 5⟩
  clock := 0
  results := []

/-- The first call of a kind throws without having been carried out. -/
def firstCallThrows (call : DockerCall) : Failure :=
  .throws ⟨call, 0, false, "connect ENOENT /var/run/docker.sock"⟩

theorem world_containers {id : ContainerId} {container : Container}
    (hcontainer : world.containers id = some container) :
    (id = 0 ∧ container = ⟨pair.serverPlan, true, 0⟩) ∨
      (id = 1 ∧ container = ⟨pair.brokerPlan, true, 0⟩) := by
  simp only [world] at hcontainer
  split at hcontainer
  · exact Or.inl ⟨‹_›, (Option.some.inj hcontainer).symm⟩
  · split at hcontainer
    · exact Or.inr ⟨‹_›, (Option.some.inj hcontainer).symm⟩
    · cases hcontainer

theorem world_installed : Installed target pair world where
  wellFormed := by
    constructor
    · intro id container hcontainer
      rcases world_containers hcontainer with ⟨rfl, _⟩ | ⟨rfl, _⟩ <;> decide
    · intro id id' container container' hcontainer hcontainer' hnames
      rcases world_containers hcontainer with ⟨rfl, rfl⟩ | ⟨rfl, rfl⟩ <;>
        rcases world_containers hcontainer' with ⟨rfl, rfl⟩ | ⟨rfl, rfl⟩ <;>
        first | rfl | exact absurd hnames (by decide)
  server := ⟨0, rfl⟩
  broker := ⟨0, rfl⟩
  server_name := rfl
  broker_name := rfl
  distinct := by decide
  no_result := rfl

theorem world_settles (name image : String) : Settles (world.health name image) 0 true :=
  ⟨fun _ hlt => absurd hlt (Nat.not_lt_zero _), rfl⟩

theorem firstCallThrows_occurs {call : DockerCall}
    (hcall : call ∈ forwardSequence 1 1) : (firstCallThrows call).Occurs target pair world :=
  ⟨0, 0, world_settles _ _, world_settles _ _, List.count_pos_iff.mpr hcall⟩

/-- The new server container is created but cannot be started: the run throws, the old container
is gone, and no verdict is written, since only an unhealthy container leads to a rollback. -/
theorem start_fails_without_lockstep :
    ¬ ∀ (target : UpdaterTarget) (pair : Pair) (world : World) (failure : Failure),
      Installed target pair world → failure.Occurs target pair world →
        Lockstep target pair ((entrypoint target).run ⟨world, failure.fault⟩).2.world := by
  intro hclaim
  have hlockstep := hclaim target pair world (firstCallThrows .startContainer)
    world_installed (firstCallThrows_occurs (by decide))
  have hverdict : ((entrypoint target).run
      ⟨world, (firstCallThrows .startContainer).fault⟩).2.world.verdict = none := by
    decide
  exact not_lockstep_of_verdict hverdict hlockstep

/-- A stop that fails is swallowed, and the update goes through: the removal after it is what
counts, and the pair ends on the new version. -/
theorem stop_fails_lockstep_iff :
    Lockstep target pair
        ((entrypoint target).run ⟨world, (firstCallThrows .stopContainer).fault⟩).2.world ↔
      (firstCallThrows .stopContainer).handled = true :=
  lockstep_iff_handled target pair world (firstCallThrows .stopContainer) world_installed
    (firstCallThrows_occurs (by decide))

end StartFailsWitness

end Updater

end MailPanel
