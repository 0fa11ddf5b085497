import MailPanel.BrokerOperations

/-
What a request can make the broker do, whatever the daemon answers: which container it
touches, which command it runs there, and what of the host its answer shows.
-/

namespace MailPanel

namespace Broker

open ContainerStats Dialogue Dms Visibility

/- What the daemon has said -/

/-- The daemon has given this reply to the call. -/
def Answered (before : Exchanges) (call : DockerCall) (reply : Reply call) : Prop :=
  (⟨call, .ok reply⟩ : Exchange DockerCall Answer) ∈ before

/-- A list of all containers that the daemon has given. -/
def Listed (before : Exchanges) (all : List RawContainerListItem) : Prop :=
  (⟨.listContainers true, .ok all⟩ : Exchange DockerCall Answer) ∈ before

def Inspected (before : Exchanges) (id : String) (inspection : RawContainerInspect) : Prop :=
  (⟨.inspectContainer id, .ok inspection⟩ : Exchange DockerCall Answer) ∈ before

def Captured (before : Exchanges) (id : String) (spec : RawContainerRecreateSpec) : Prop :=
  (⟨.inspectContainerForRecreate id, .ok spec⟩ : Exchange DockerCall Answer) ∈ before

/-- The only container of a list that has the identity. -/
def Sole (all : List RawContainerListItem) (identity : ServiceIdentity)
    (container : RawContainerListItem) : Prop :=
  candidates all identity = [container]

/-- The id is that of the only container with the identity. -/
def Resolved (before : Exchanges) (identity : ServiceIdentity) (id : String) : Prop :=
  ∃ all container, Listed before all ∧ Sole all identity container ∧ container.id = id

/-- The name belongs to a volume that holds mail data. -/
def Protects (mounts : List RawContainerMount) (name : String) : Prop :=
  ∃ mount ∈ mounts, mount.type = "volume" ∧ mount.name = some name ∧
    mount.destination ∈ DMS_PROTECTED_MOUNT_DESTINATIONS

/-- The panel's two containers, each the only one of its kind, and neither of them the mail
server. -/
structure Panel (deps : OperationDeps) (all : List RawContainerListItem)
    (server broker : RawContainerListItem) : Prop where
  server_sole : Sole all deps.panelServer server
  broker_sole : Sole all deps.panelBroker broker
  distinct : server.id ≠ broker.id
  not_mail : ∀ container ∈ candidates all deps.dms,
    container.id ≠ server.id ∧ container.id ≠ broker.id

variable {tables : UnicodeTables} (canonicalize : Char → Char) (deps : OperationDeps)

/-- The commands that a request can run: fixed ones, and those of a request whose every leaf
value has passed its rule. -/
inductive Runs : BrokerRequest tables → List String → Option String → Prop
  | logsFile {source tail} : Runs (.logsFile source tail) (tailCommand source tail) none
  | console {command} : Runs (.consoleExec command) command.argv none
  | file {key} : Runs (.dmsFileRead key) ["cat", key.path] none
  | environment : Runs .dmsEnvRead ["printenv"] none
  | openDkim {key} :
      Runs (.dmsDkimRecordRead key) ["cat", openDkimPath key.selector key.domain] none
  | rspamd {key} : Runs (.dmsDkimRecordRead key) (findCommand key.selector key.domain) none
  | dms {request} {command : DmsCommand} (hformed : Dms.Formed tables request command) :
      Runs (.dmsCommand request) command.argv command.stdin

/-- What the broker may ask of the daemon for a request, after what it has been told. A
container may only be touched under an id that an earlier listing resolved, and only by the
request that is for it; the updater's container is the exception that is named here. -/
inductive Permitted (before : Exchanges) : BrokerRequest tables → DockerCall → Prop
  | ping : Permitted before .systemPing .ping
  | version {request} : Permitted before request .version
  | info : Permitted before .systemInfo .info
  | df : Permitted before .systemDf .df
  | list {request all} : Permitted before request (.listContainers all)
  | images : Permitted before .imageList .listImages
  | volumes : Permitted before .volumeList .listVolumes
  | networks : Permitted before .networkList .listNetworks
  | prune : Permitted before .imagePrune .pruneImages
  | inspect {request id} (hmail : Resolved before deps.dms id) :
      Permitted before request (.inspectContainer id)
  | start {id} (hmail : Resolved before deps.dms id) :
      Permitted before .containerStart (.startContainer id)
  | stop {id} (hmail : Resolved before deps.dms id) :
      Permitted before .containerStop (.stopContainer id)
  | restart {id} (hmail : Resolved before deps.dms id) :
      Permitted before .containerRestart (.restartContainer id)
  | stats {id} (hmail : Resolved before deps.dms id) :
      Permitted before .containerStats (.statsContainer id)
  | logs {id options tail since timestamps} (hmail : Resolved before deps.dms id) :
      Permitted before (.containerLogs tail since timestamps) (.logsContainer id options)
  | run {request id argv stdin} (hmail : Resolved before deps.dms id)
      (hruns : Runs request argv stdin) : Permitted before request (.execContainer id argv stdin)
  | removeVolume {id inspection name} (hmail : Resolved before deps.dms id)
      (hinspected : Inspected before id inspection) (hfree : ¬ Protects inspection.mounts name) :
      Permitted before (.volumeRemove name) (.removeVolume name)
  | restartServer {all server} (hlisted : Listed before all)
      (hserver : Sole all deps.panelServer server)
      (hother : ∀ container ∈ candidates all deps.panelBroker, container.id ≠ server.id) :
      Permitted before .panelRestart (.restartContainer server.id)
  | checkServer {all server broker} (hlisted : Listed before all)
      (hpanel : Panel deps all server broker) :
      Permitted before .panelSelfUpdateCheck (.inspectContainerForRecreate server.id)
  | checkBroker {all server broker} (hlisted : Listed before all)
      (hpanel : Panel deps all server broker) :
      Permitted before .panelSelfUpdateCheck (.inspectContainerForRecreate broker.id)
  | checkImage {id spec} (hcaptured : Captured before id spec) :
      Permitted before .panelSelfUpdateCheck (.inspectImageConfig spec.image)
  | capture {all server broker targetVersion} (hlisted : Listed before all)
      (hpanel : Panel deps all server broker) :
      Permitted before (.panelSelfUpdateApply targetVersion)
        (.inspectContainerForRecreate broker.id)
  | removeStale {all stale targetVersion} (hlisted : Listed before all) (hstale : stale ∈ all)
      (hname : SELF_UPDATE_UPDATER_CONTAINER_NAME ∈ stale.names) :
      Permitted before (.panelSelfUpdateApply targetVersion) (.removeContainer stale.id true)
  | createUpdater {all server broker spec targetVersion} (hlisted : Listed before all)
      (hpanel : Panel deps all server broker) (hcaptured : Captured before broker.id spec) :
      Permitted before (.panelSelfUpdateApply targetVersion)
        (.createContainer (updaterSpec (launchTarget deps targetVersion
          ⟨server.id, server.names.headD deps.panelServer.containerName⟩
          ⟨broker.id, broker.names.headD deps.panelBroker.containerName⟩ spec)))
  | startUpdater {spec id targetVersion}
      (hcreated : (⟨.createContainer spec, .ok id⟩ : Exchange DockerCall Answer) ∈ before) :
      Permitted before (.panelSelfUpdateApply targetVersion) (.startContainer id)

/- What an answer shows -/

/-- A container of a list that the panel may see. -/
def Shown (all : List RawContainerListItem) (container : RawContainerListItem) : Prop :=
  container ∈ all ∧ isVisible canonicalize deps container = true

/-- A command's result in the mail container. -/
def Ran (before : Exchanges) (result : RawExecResult) : Prop :=
  ∃ id argv stdin, Resolved before deps.dms id ∧
    (⟨.execContainer id argv stdin, .ok result⟩ : Exchange DockerCall Answer) ∈ before

/-- What is said of an image was read from the environment of the container as it was created,
or from that of the image that it runs. -/
def Baked (before : Exchanges) (id : String) (facts : BakedImageFacts) : Prop :=
  ∃ spec, Captured before id spec ∧
    (facts = extractBakedImageFacts spec.env ∨
      ∃ image, Answered before (.inspectImageConfig spec.image) image ∧
        facts = extractBakedImageFacts image.env)

/-- Where the data of an answer comes from: from visible containers and what they use, from the
mail container, from the panel's own two, or from the daemon's figures about itself.  Nothing
in it is the broker's own but the time of a sample. -/
def Discloses (now : ℕ) (before : Exchanges) : BrokerResponse → Prop
  | .containers containers => ∃ flag all,
      (⟨.listContainers flag, .ok all⟩ : Exchange DockerCall Answer) ∈ before ∧
        ∀ summary ∈ containers, ∃ container, Shown canonicalize deps all container ∧
          summary = toContainerSummary container
  | .images images => ∃ (raw : List RawImageSummary) (all : List RawContainerListItem),
      Answered before .listImages raw ∧ Listed before all ∧ ∀ image ∈ images, image ∈ raw ∧
        ((∃ tag ∈ image.repoTags,
          matchesAnyPattern canonicalize tag deps.visibleServicePatterns = true) ∨
          ∃ container, Shown canonicalize deps all container ∧
            (container.image = image.id ∨ container.image ∈ image.repoTags))
  | .volumes volumes => ∃ (raw : List RawVolume) (all : List RawContainerListItem),
      Answered before .listVolumes raw ∧ Listed before all ∧ ∀ volume ∈ volumes, volume ∈ raw ∧
        ∃ container, Shown canonicalize deps all container ∧
          volume.name ∈ container.mountVolumeNames
  | .networks networks => ∃ (raw : List RawNetwork) (all : List RawContainerListItem),
      Answered before .listNetworks raw ∧ Listed before all ∧ ∀ network ∈ networks, network ∈ raw ∧
        ∃ container, Shown canonicalize deps all container ∧
          network.name ∈ container.networkNames
  | .inspected container => ∃ id inspection, Resolved before deps.dms id ∧
      Inspected before id inspection ∧
        container = ⟨inspection.id, inspection.name, inspection.image, inspection.createdAt,
          inspection.state, inspection.restartCount, inspection.labels, inspection.mounts⟩
  | .sampled stats => ∃ id raw, Resolved before deps.dms id ∧
      Answered before (.statsContainer id) raw ∧ stats = sampleResponse raw now
  | .logs lines => ∃ id options inspection buffer, Resolved before deps.dms id ∧
      Inspected before id inspection ∧
        (⟨.logsContainer id options, .ok buffer⟩ : Exchange DockerCall Answer) ∈ before ∧
          lines = ContainerLogs.handleContainerLogs inspection.tty buffer
  | .fileLines lines => ∃ result, Ran deps before result ∧ lines = splitTrimmedLines result.stdout
  | .console command argv result => argv = command.argv ∧ ∃ id, Resolved before deps.dms id ∧
      Answered before (.execContainer id argv none) result
  | .content content => ∃ result, Ran deps before result ∧ ∀ text ∈ content, text = result.stdout
  | .env env => ∃ result, Ran deps before result ∧ ∀ key value, env key = some value →
      key ∈ dmsEnvKeys ∧ key ++ '=' :: value ∈ result.stdout.splitOn '\n'
  | .exec result => Ran deps before result
  | .ping apiVersion => ∃ version, Answered before .version version ∧
      apiVersion = version.apiVersion
  | .version version => Answered before .version version
  | .info info => Answered before .info info
  | .df df => Answered before .df df
  | .pruned result => Answered before .pruneImages result
  | .selfUpdateCheck check => ∃ all server broker serverFacts brokerFacts, Listed before all ∧
      Panel deps all server broker ∧ Baked before server.id serverFacts ∧
        Baked before broker.id brokerFacts ∧ check = checkResponse serverFacts brokerFacts
  | .ack | .selfUpdateStarted => True

/- Rules -/

section Rules

variable {Value Next : Type} {before : Exchanges} {Allowed : Exchanges → DockerCall → Prop}

/-- Every call is allowed, and a value that is returned is as it should be. -/
def Confined (Allowed : Exchanges → DockerCall → Prop) (Post : Exchanges → Value → Prop)
    (program : Program Value) (before : Exchanges) : Prop :=
  program.Guarded Allowed (fun after result => ∀ value, result = .ok value → Post after value)
    before

/-- An operation that returns at once makes no call, so that only its answer is to be judged. -/
theorem confined_pure {Post : Exchanges → Value → Prop} {value : Value}
    (hpost : Post before value) : Confined Allowed Post (pure value) before := by
  rintro found hfound
  obtain rfl := Except.ok.inj hfound
  exact hpost

/-- An operation that ends with an error answers nothing and makes no call. -/
theorem confined_throw {Post : Exchanges → Value → Prop} {failure : Failure} :
    Confined Allowed Post (Dialogue.throw failure) before :=
  fun _ hfound => nomatch hfound

/-- The rule of sequence: the second part is judged after every exchange that the first part may
have had. -/
theorem confined_bind {Middle : Exchanges → Value → Prop} {Post : Exchanges → Next → Prop}
    {program : Program Value} {next : Value → Program Next}
    (hprogram : Confined Allowed Middle program before)
    (hnext : ∀ after value, Middle after value → Confined Allowed Post (next value) after) :
    Confined Allowed Post (program >>= next) before :=
  guarded_bind hprogram (fun after value hvalue => hnext after value (hvalue value rfl))
    fun _ _ _ _ hfound => nomatch hfound

/-- One call: it has to be allowed at this point, and a reply that comes back is the last
exchange. -/
theorem confined_docker {call : DockerCall} (hcall : Allowed before call) :
    Confined Allowed (fun after reply => after = before ++ [⟨call, .ok reply⟩]) (docker call)
      before := by
  refine ⟨hcall, fun answer => ?_⟩
  cases answer with
  | ok reply =>
      rintro found hfound
      rw [Except.ok.inj hfound]
  | error fault => exact fun _ hfound => nomatch hfound

/-- Hiding the daemon's errors changes neither the calls nor the answers. -/
theorem confined_callDocker {Post : Exchanges → Value → Prop} {program : Program Value}
    (hprogram : Confined Allowed Post program before) :
    Confined Allowed Post (callDocker program) before := by
  refine guarded_mapError (guarded_mono hprogram ?_)
  intro after result hresult value hfound
  cases result with
  | ok kept => exact hresult value hfound
  | error failure => cases hfound

/-- A refusal ends the operation, so that only a successful resolution goes on. -/
theorem confined_orForbid {Post : Exchanges → Value → Prop} {message : String}
    {result : Except ContainerResolutionReason Value}
    (hpost : ∀ value, result = .ok value → Post before value) :
    Confined Allowed Post (orForbid message result) before := by
  cases result with
  | ok value => exact confined_pure (hpost value rfl)
  | error reason => exact confined_throw

/-- The same with the rest of the operation behind it. -/
theorem confined_orForbid_bind {Post : Exchanges → Next → Prop} {message : String}
    {result : Except ContainerResolutionReason Value} {next : Value → Program Next}
    (hnext : ∀ value, result = .ok value → Confined Allowed Post (next value) before) :
    Confined Allowed Post (orForbid message result >>= next) before := by
  cases result with
  | ok value => exact hnext value rfl
  | error reason => exact confined_throw

/-- Two calls that are made whatever comes of the first. -/
theorem confined_both {first second : DockerCall} (hfirst : Allowed before first)
    (hsecond : ∀ answer, Allowed (before ++ [⟨first, answer⟩]) second) :
    Confined Allowed (fun after pair =>
      after = before ++ [⟨first, .ok pair.1⟩] ++ [⟨second, .ok pair.2⟩]) (both first second)
        before := by
  refine ⟨hfirst, fun answer => ⟨hsecond answer, fun other => ?_⟩⟩
  cases answer with
  | error fault => exact confined_throw
  | ok left =>
      cases other with
      | error fault => exact confined_throw
      | ok right => exact confined_pure rfl

/-- A weaker condition on the answer may take the place of a stronger one. -/
theorem confined_mono {Post Other : Exchanges → Value → Prop} {program : Program Value}
    (hprogram : Confined Allowed Post program before)
    (hpost : ∀ after value, Post after value → Other after value) :
    Confined Allowed Other program before :=
  guarded_mono hprogram fun after _ hresult value hfound => hpost after value (hresult value hfound)

end Rules

/- What stays known -/

section Known

variable {before : Exchanges} {identity : ServiceIdentity} {id : String}

/-- What an earlier exchange has resolved stays resolved as the dialogue goes on. -/
theorem Resolved.append (hresolved : Resolved before identity id) (more : Exchanges) :
    Resolved (before ++ more) identity id := by
  obtain ⟨all, container, hlisted, hrest⟩ := hresolved
  exact ⟨all, container, List.mem_append_left more hlisted, hrest⟩

theorem mem_snoc {exchange : Exchange DockerCall Answer} : exchange ∈ before ++ [exchange] :=
  List.mem_append_right before List.mem_cons_self

/-- A resolution that succeeds has found a container of the listing, and no other of the listing
matches. -/
theorem selectSingleMatch_ok {all : List RawContainerListItem} {ref : ManagedContainerRef}
    (hselect : selectSingleMatch all identity = .ok ref) : ∃ container,
      Sole all identity container ∧
        ref = ⟨container.id, container.names.headD identity.containerName⟩ := by
  rw [selectSingleMatch] at hselect
  cases hcandidates : candidates all identity with
  | nil =>
      rw [hcandidates] at hselect
      cases hselect
  | cons first others =>
      rw [hcandidates] at hselect
      cases others with
      | nil => exact ⟨first, hcandidates, (Except.ok.inj hselect).symm⟩
      | cons second others => cases hselect

/-- The protected names are exactly those of volumes mounted where mail data is kept. -/
theorem mem_computeProtectedVolumeNames {mounts : List RawContainerMount} {name : String} :
    name ∈ computeProtectedVolumeNames mounts ↔ Protects mounts name := by
  rw [computeProtectedVolumeNames, List.mem_filterMap]
  constructor
  · rintro ⟨mount, hmount, hname⟩
    by_cases hprotected : mount.type = "volume" ∧
        mount.destination ∈ DMS_PROTECTED_MOUNT_DESTINATIONS
    · rw [if_pos hprotected] at hname
      exact ⟨mount, hmount, hprotected.1, hname, hprotected.2⟩
    · rw [if_neg hprotected] at hname
      cases hname
  · rintro ⟨mount, hmount, htype, hname, hdestination⟩
    refine ⟨mount, hmount, ?_⟩
    rw [if_pos ⟨htype, hdestination⟩]
    exact hname

end Known

/- The operations -/

section Operations

variable {canonicalize : Char → Char} {deps : OperationDeps} {now : ℕ}
  {request : BrokerRequest tables} {before : Exchanges}

/-- The policy for a request. -/
def For (deps : OperationDeps) (request : BrokerRequest tables) (before : Exchanges)
    (call : DockerCall) : Prop :=
  Permitted deps before request call

/-- The resolution lists all containers and does nothing else, and what it returns is the one
match of that listing. -/
theorem confined_resolve : Confined (For deps request)
    (fun after ref => Resolved after deps.dms ref.id) (resolveOrForbid deps) before := by
  refine confined_bind (confined_docker .list) ?_
  rintro after all rfl
  refine confined_orForbid fun ref hselect => ?_
  obtain ⟨container, hsole, rfl⟩ := selectSingleMatch_ok hselect
  exact ⟨all, container, mem_snoc, hsole, rfl⟩

/-- A call whose failure is hidden, and what becomes of its reply, for the operations that make
just one call. -/
theorem confined_call {Next : Type} {Post : Exchanges → Next → Prop} {call : DockerCall}
    {finish : Reply call → Program Next} (hcall : For deps request before call)
    (hfinish : ∀ reply, Confined (For deps request) Post (finish reply)
      (before ++ [⟨call, .ok reply⟩])) :
    Confined (For deps request) Post (callDocker (docker call) >>= finish) before := by
  refine confined_bind (confined_callDocker (confined_docker hcall)) ?_
  rintro after reply rfl
  exact hfinish reply

/-- A command in the managed container, and what becomes of its result, for the operations that
run just one. -/
theorem confined_exec {Post : Exchanges → BrokerResponse → Prop} {argv : List String}
    {stdin : Option String} {finish : RawExecResult → Program BrokerResponse} {id : String}
    (hresolved : Resolved before deps.dms id) (hruns : Runs request argv stdin)
    (hfinish : ∀ after result, Resolved after deps.dms id → Ran deps after result →
      Confined (For deps request) Post (finish result) after) :
    Confined (For deps request) Post (docker (.execContainer id argv stdin) >>= finish)
      before := by
  refine confined_bind (confined_docker (.run hresolved hruns)) ?_
  rintro after result rfl
  exact hfinish _ result (hresolved.append _) ⟨id, argv, stdin, hresolved.append _, mem_snoc⟩

/-- A listing answers with containers that the daemon has listed and that may be shown. -/
theorem confined_containerList (all : Option Bool) :
    Confined (For deps (.containerList all : BrokerRequest tables))
      (Discloses canonicalize deps now) (handleContainerList canonicalize deps all) before := by
  refine confined_call .list fun raw => confined_pure ⟨all.getD false, raw, mem_snoc, ?_⟩
  intro summary hsummary
  obtain ⟨container, hcontainer, rfl⟩ := List.mem_map.mp hsummary
  exact ⟨container, List.mem_filter.mp hcontainer, rfl⟩

/-- The inspection answers with every field as the daemon gave it for the resolved container. -/
theorem confined_containerInspect :
    Confined (For deps (.containerInspect : BrokerRequest tables)) (Discloses canonicalize deps now)
      (handleContainerInspect deps) before := by
  refine confined_bind confined_resolve fun after ref hmail => ?_
  refine confined_call (.inspect hmail) fun raw => ?_
  exact confined_pure ⟨ref.id, raw, hmail.append _, mem_snoc, rfl⟩

/-- The operations that only change the state of the managed container answer nothing but
success. -/
theorem confined_lifecycle {call : String → DockerCall}
    (hcall : ∀ after id, Resolved after deps.dms id → For deps request after (call id)) :
    Confined (For deps request) (Discloses canonicalize deps now) (handleLifecycle deps call)
      before := by
  refine confined_bind confined_resolve fun after ref hmail => ?_
  exact confined_call (hcall after ref.id hmail) fun _ => confined_pure trivial

/-- The statistics answer with figures that are computed from the one sample of the resolved
container. -/
theorem confined_containerStats :
    Confined (For deps (.containerStats : BrokerRequest tables)) (Discloses canonicalize deps now)
      (handleContainerStats deps now) before := by
  refine confined_bind confined_resolve fun after ref hmail => ?_
  exact confined_call (.stats hmail) fun raw =>
    confined_pure ⟨ref.id, raw, hmail.append _, mem_snoc, rfl⟩

/-- The logs are those of the resolved container, split as its terminal setting asks. -/
theorem confined_containerLogs (tail since : Option Nat) (timestamps : Option Bool) :
    Confined (For deps (.containerLogs tail since timestamps : BrokerRequest tables))
      (Discloses canonicalize deps now) (handleContainerLogs deps tail since timestamps)
        before := by
  refine confined_bind confined_resolve fun after ref hmail => ?_
  refine confined_call (.inspect hmail) fun inspection => ?_
  refine confined_call (.logs (hmail.append _)) fun buffer => ?_
  exact confined_pure ⟨ref.id, _, inspection, buffer, (hmail.append _).append _,
    List.mem_append_left _ mem_snoc, mem_snoc, rfl⟩

/-- One call about the daemon itself, whose reply is the answer. -/
theorem confined_figures {call : DockerCall} {answer : Reply call → BrokerResponse}
    (hcall : For deps request before call)
    (hanswer : ∀ after reply, Answered after call reply →
      Discloses canonicalize deps now after (answer reply)) :
    Confined (For deps request) (Discloses canonicalize deps now)
      (callDocker (docker call) >>= fun reply => pure (answer reply)) before :=
  confined_call hcall fun reply => confined_pure (hanswer _ reply mem_snoc)

theorem confined_systemPing :
    Confined (For deps (.systemPing : BrokerRequest tables)) (Discloses canonicalize deps now)
      handleSystemPing before :=
  confined_call .ping fun _ =>
    confined_figures .version fun _ version hversion => ⟨version, hversion, rfl⟩

/-- Images of the daemon's listing that may be shown, by the containers that were listed beside
them. -/
theorem confined_imageList :
    Confined (For deps (.imageList : BrokerRequest tables)) (Discloses canonicalize deps now)
      (handleImageList canonicalize deps) before := by
  refine confined_bind (confined_both .images fun _ => .list) ?_
  rintro after ⟨raw, all⟩ rfl
  refine confined_pure ⟨raw, all, List.mem_append_left _ mem_snoc, mem_snoc, ?_⟩
  intro image himage
  obtain ⟨hraw, hvisible⟩ := List.mem_filter.mp himage
  refine ⟨hraw, ?_⟩
  rw [isImageVisible, Bool.or_eq_true, Bool.or_eq_true, List.any_eq_true, List.any_eq_true,
    decide_eq_true_eq] at hvisible
  rcases hvisible with (hpattern | hid) | ⟨tag, htag, hreferenced⟩
  · exact Or.inl hpattern
  · obtain ⟨container, hcontainer, heq⟩ := List.mem_map.mp hid
    exact Or.inr ⟨container, List.mem_filter.mp hcontainer, Or.inl heq⟩
  · obtain ⟨container, hcontainer, heq⟩ := List.mem_map.mp (of_decide_eq_true hreferenced)
    exact Or.inr ⟨container, List.mem_filter.mp hcontainer, Or.inr (heq ▸ htag)⟩

theorem confined_volumeList :
    Confined (For deps (.volumeList : BrokerRequest tables)) (Discloses canonicalize deps now)
      (handleVolumeList canonicalize deps) before := by
  refine confined_bind (confined_both .volumes fun _ => .list) ?_
  rintro after ⟨raw, all⟩ rfl
  refine confined_pure ⟨raw, all, List.mem_append_left _ mem_snoc, mem_snoc, ?_⟩
  intro volume hvolume
  obtain ⟨hraw, hused⟩ := List.mem_filter.mp hvolume
  obtain ⟨container, hcontainer, hname⟩ := List.mem_flatMap.mp (of_decide_eq_true hused)
  exact ⟨hraw, container, List.mem_filter.mp hcontainer, hname⟩

theorem confined_networkList :
    Confined (For deps (.networkList : BrokerRequest tables)) (Discloses canonicalize deps now)
      (handleNetworkList canonicalize deps) before := by
  refine confined_bind (confined_both .networks fun _ => .list) ?_
  rintro after ⟨raw, all⟩ rfl
  refine confined_pure ⟨raw, all, List.mem_append_left _ mem_snoc, mem_snoc, ?_⟩
  intro network hnetwork
  obtain ⟨hraw, hused⟩ := List.mem_filter.mp hnetwork
  obtain ⟨container, hcontainer, hname⟩ := List.mem_flatMap.mp (of_decide_eq_true hused)
  exact ⟨hraw, container, List.mem_filter.mp hcontainer, hname⟩

/-- The removal comes after the inspection of the resolved container, and only for a name that
it does not protect. -/
theorem confined_volumeRemove (name : String) :
    Confined (For deps (.volumeRemove name : BrokerRequest tables))
      (Discloses canonicalize deps now) (handleVolumeRemove deps name) before := by
  refine confined_bind confined_resolve fun after ref hmail => ?_
  refine confined_call (.inspect hmail) fun inspection => ?_
  by_cases hprotected : name ∈ computeProtectedVolumeNames inspection.mounts
  · rw [if_pos hprotected]
    exact confined_throw
  · rw [if_neg hprotected]
    have hfree : ¬ Protects inspection.mounts name :=
      fun hprotects => hprotected (mem_computeProtectedVolumeNames.mpr hprotects)
    exact confined_call (.removeVolume (hmail.append _) mem_snoc hfree)
      fun _ => confined_pure trivial

/-- A log file's lines come out of a command whose arguments are fixed but for a number. -/
theorem confined_logsFile (source : LogFileSource) (tail : Option Nat) :
    Confined (For deps (.logsFile source tail : BrokerRequest tables))
      (Discloses canonicalize deps now) (handleLogsFile deps source tail) before := by
  refine confined_bind confined_resolve fun after ref hmail => ?_
  refine confined_call (.run hmail .logsFile) fun result => ?_
  by_cases hcode : result.exitCode ≠ 0
  · rw [if_pos hcode]
    exact confined_throw
  · rw [if_neg hcode]
    exact confined_pure ⟨result, ⟨_, _, _, hmail.append _, mem_snoc⟩, rfl⟩

/-- The console runs the named command in the resolved container and shows its result. -/
theorem confined_consoleExec (command : ConsoleCommand) :
    Confined (For deps (.consoleExec command : BrokerRequest tables))
      (Discloses canonicalize deps now) (handleConsoleExec deps command) before := by
  refine confined_bind confined_resolve fun after ref hmail => ?_
  refine confined_call (.run hmail .console) fun result => ?_
  exact confined_pure ⟨rfl, _, hmail.append _, mem_snoc⟩

theorem confined_dmsFileRead (file : DmsConfigFileKey) :
    Confined (For deps (.dmsFileRead file : BrokerRequest tables)) (Discloses canonicalize deps now)
      (handleDmsFileRead deps file) before := by
  refine confined_bind confined_resolve fun after ref hmail => ?_
  refine confined_exec hmail .file fun later result _ hran => confined_pure ⟨result, hran, ?_⟩
  intro text htext
  by_cases hcode : result.exitCode = 0
  · rw [if_pos hcode] at htext
    exact (Option.some.inj htext).symm
  · rw [if_neg hcode] at htext
    cases htext

/-- The record is what one of at most two commands has printed, both of them in the resolved
container. -/
theorem confined_dmsDkimRecordRead (key : KeyName tables) :
    Confined (For deps (.dmsDkimRecordRead key)) (Discloses canonicalize deps now)
      (handleDmsDkimRecordRead deps key) before := by
  refine confined_bind confined_resolve fun after ref hmail => ?_
  refine confined_exec hmail .openDkim fun later openDkim hlater hopen => ?_
  by_cases hcode : openDkim.exitCode = 0
  · rw [if_pos hcode]
    exact confined_pure ⟨openDkim, hopen, fun text htext => (Option.some.inj htext).symm⟩
  · rw [if_neg hcode]
    refine confined_exec hlater .rspamd fun last rspamd _ hran => ?_
    refine confined_pure ⟨rspamd, hran, ?_⟩
    intro text htext
    obtain ⟨-, heq⟩ := Option.ite_none_right_eq_some.mp htext
    exact (Option.some.inj heq).symm

/-- A variable that is answered stands on a line of the output, which is all that the printed
environment says about it. -/
theorem env_lines {result : ExecResult} {env : Record} {key value : Text}
    (henv : Dms.handleDmsEnvRead result = .ok env) (hvalue : env key = some value) :
    key ∈ dmsEnvKeys ∧ key ++ '=' :: value ∈ result.stdout.splitOn '\n' := by
  rw [Dms.handleDmsEnvRead] at henv
  split at henv
  · cases henv
  · obtain rfl := Except.ok.inj henv
    obtain ⟨front, line, rest, hlines, hread, -⟩ := answer_eq_some.mp hvalue
    obtain ⟨rfl, -, hkey⟩ := readVariable_spec hread
    rw [hlines]
    exact ⟨hkey, List.mem_append_right front List.mem_cons_self⟩

/-- The environment is read by one command with fixed arguments. -/
theorem confined_dmsEnvRead :
    Confined (For deps (.dmsEnvRead : BrokerRequest tables)) (Discloses canonicalize deps now)
      (handleDmsEnvRead deps) before := by
  refine confined_bind confined_resolve fun after ref hmail => ?_
  refine confined_exec hmail .environment fun later result _ hran => ?_
  cases henv : Dms.handleDmsEnvRead ⟨result.exitCode, result.stdout⟩ with
  | error error => exact confined_throw
  | ok env =>
      refine confined_pure ⟨result, hran, fun key value hvalue => ?_⟩
      exact env_lines henv hvalue

/-- A change of the mail server runs the command of its builder, and only if the request was
accepted. -/
theorem confined_dmsCommand (command : DmsRequest) :
    Confined (For deps (.dmsCommand command : BrokerRequest tables))
      (Discloses canonicalize deps now) (handleDmsCommand tables deps command) before := by
  refine confined_bind confined_resolve fun after ref hmail => ?_
  cases hbuild : command.build tables with
  | error message => exact confined_throw
  | ok line =>
      exact confined_exec hmail (.dms (formed_of_build hbuild))
        fun later result _ hran => confined_pure hran

/-- The panel's server is restarted, and never a container that might be the broker. -/
theorem confined_panelRestart :
    Confined (For deps (.panelRestart : BrokerRequest tables)) (Discloses canonicalize deps now)
      (handlePanelRestart deps) before := by
  refine confined_call .list fun all => confined_orForbid_bind fun ref hselect => ?_
  obtain ⟨server, hserver, rfl⟩ := selectSingleMatch_ok hselect
  by_cases hbroker : (candidates all deps.panelBroker).any (·.id = server.id) = true
  · rw [if_pos hbroker]
    exact confined_throw
  · rw [if_neg hbroker]
    have hother : ∀ container ∈ candidates all deps.panelBroker, container.id ≠ server.id :=
      fun container hcontainer heq =>
        hbroker (List.any_eq_true.mpr ⟨container, hcontainer, decide_eq_true heq⟩)
    exact confined_call (.restartServer mem_snoc hserver hother) fun _ => confined_pure trivial

/-- The panel's containers, with what the updater is told of them, both from one listing. -/
theorem confined_resolvePanelIdentities (all : List RawContainerListItem) :
    Confined (For deps request) (fun after pair => after = before ∧ ∃ server broker,
      Panel deps all server broker ∧
        pair = (⟨server.id, server.names.headD deps.panelServer.containerName⟩,
          ⟨broker.id, broker.names.headD deps.panelBroker.containerName⟩))
      (resolvePanelIdentities deps all) before := by
  refine confined_orForbid_bind fun serverRef hserverRef => ?_
  refine confined_orForbid_bind fun brokerRef hbrokerRef => ?_
  obtain ⟨server, hserver, rfl⟩ := selectSingleMatch_ok hserverRef
  obtain ⟨broker, hbroker, rfl⟩ := selectSingleMatch_ok hbrokerRef
  by_cases hsame : server.id = broker.id
  · rw [if_pos hsame]
    exact confined_throw
  · rw [if_neg hsame]
    by_cases hmail : ((candidates all deps.dms).any fun container =>
        container.id = server.id || container.id = broker.id) = true
    · rw [if_pos hmail]
      exact confined_throw
    · rw [if_neg hmail]
      refine confined_pure ⟨rfl, server, broker, ⟨hserver, hbroker, hsame, ?_⟩, rfl⟩
      intro container hcontainer
      constructor
      · intro heq
        refine hmail (List.any_eq_true.mpr ⟨container, hcontainer, ?_⟩)
        rw [decide_eq_true heq, Bool.true_or]
      · intro heq
        refine hmail (List.any_eq_true.mpr ⟨container, hcontainer, ?_⟩)
        rw [decide_eq_true heq, Bool.or_true]

/-- A container of the panel and the image that it runs are inspected, and nothing else is. -/
theorem confined_readBakedImageFacts {id : String}
    (hcapture : For deps (.panelSelfUpdateCheck : BrokerRequest tables) before
      (.inspectContainerForRecreate id)) :
    Confined (For deps (.panelSelfUpdateCheck : BrokerRequest tables))
      (fun after facts => (∃ more, after = before ++ more) ∧ Baked after id facts)
      (readBakedImageFacts id) before := by
  refine confined_call hcapture fun spec => ⟨.checkImage mem_snoc, fun answer => ?_⟩
  have hcaptured : ∀ exchange, Captured (before ++
      [⟨.inspectContainerForRecreate id, .ok spec⟩] ++ [exchange]) id spec :=
    fun _ => List.mem_append_left _ mem_snoc
  cases answer with
  | ok image =>
      exact confined_pure ⟨⟨_, List.append_assoc _ _ _⟩, spec, hcaptured _,
        Or.inr ⟨image, mem_snoc, rfl⟩⟩
  | error fault =>
      exact confined_pure ⟨⟨_, List.append_assoc _ _ _⟩, spec, hcaptured _, Or.inl rfl⟩

theorem Baked.append {id : String} {facts : BakedImageFacts} (hbaked : Baked before id facts)
    (more : Exchanges) : Baked (before ++ more) id facts := by
  obtain ⟨spec, hcaptured, hfacts⟩ := hbaked
  refine ⟨spec, List.mem_append_left more hcaptured, hfacts.imp_right ?_⟩
  rintro ⟨image, hanswered, heq⟩
  exact ⟨image, List.mem_append_left more hanswered, heq⟩

/-- The check answers with what the two images say of themselves, as the exchanges show it. -/
theorem confined_selfUpdateCheck :
    Confined (For deps (.panelSelfUpdateCheck : BrokerRequest tables))
      (Discloses canonicalize deps now) (handlePanelSelfUpdateCheck deps) before := by
  refine confined_call .list fun all => ?_
  refine confined_bind (confined_resolvePanelIdentities all) ?_
  rintro after pair ⟨rfl, server, broker, hpanel, rfl⟩
  refine confined_bind (confined_readBakedImageFacts (.checkServer mem_snoc hpanel)) ?_
  rintro later serverFacts ⟨⟨more, rfl⟩, hserver⟩
  have hlisted : Listed (before ++ [⟨.listContainers true, .ok all⟩] ++ more) all :=
    List.mem_append_left more mem_snoc
  refine confined_bind (confined_readBakedImageFacts (.checkBroker hlisted hpanel)) ?_
  rintro last brokerFacts ⟨⟨others, rfl⟩, hbroker⟩
  exact confined_pure ⟨all, server, broker, serverFacts, brokerFacts,
    List.mem_append_left others hlisted, hpanel, hserver.append others, hbroker, rfl⟩

/-- A leftover updater is removed by the id under which the listing has it. -/
theorem confined_removeStale {all : List RawContainerListItem} {targetVersion : String}
    (hlisted : Listed before all) :
    Confined (For deps (.panelSelfUpdateApply targetVersion : BrokerRequest tables))
      (fun after _ => ∃ more, after = before ++ more) (removeStale all) before := by
  rw [removeStale]
  cases hfind : all.find? fun container =>
      SELF_UPDATE_UPDATER_CONTAINER_NAME ∈ container.names with
  | none => exact confined_pure ⟨[], (List.append_nil before).symm⟩
  | some stale =>
      have hname := List.find?_some hfind
      rw [decide_eq_true_eq] at hname
      have hstale := List.mem_of_find?_eq_some hfind
      exact ⟨.removeStale hlisted hstale hname, fun answer => confined_pure ⟨_, rfl⟩⟩

/-- The updater is created as its target says and started by the id that the creation brought
back. -/
theorem confined_launchUpdater {targetVersion : String} {target : UpdaterLaunchTarget}
    (hcreate : ∀ more, For deps (.panelSelfUpdateApply targetVersion : BrokerRequest tables)
      (before ++ more) (.createContainer (updaterSpec target))) :
    Confined (For deps (.panelSelfUpdateApply targetVersion : BrokerRequest tables))
      (fun _ _ => True) (launchUpdater target) before := by
  refine confined_bind (confined_docker .list) ?_
  rintro after all rfl
  refine confined_bind (confined_removeStale mem_snoc) ?_
  rintro later removed ⟨more, rfl⟩
  rw [List.append_assoc]
  refine confined_bind (confined_docker (hcreate _)) ?_
  rintro last id rfl
  exact confined_mono (confined_docker (.startUpdater mem_snoc)) fun _ _ _ => trivial

/-- Applying an update touches the panel's containers by inspection only. What it removes and
starts are updaters. -/
theorem confined_selfUpdateApply (targetVersion : String) :
    Confined (For deps (.panelSelfUpdateApply targetVersion : BrokerRequest tables))
      (Discloses canonicalize deps now) (handlePanelSelfUpdateApply deps targetVersion) before := by
  refine confined_call .list fun all => ?_
  refine confined_bind (confined_resolvePanelIdentities all) ?_
  rintro after pair ⟨rfl, server, broker, hpanel, rfl⟩
  refine confined_call (.capture mem_snoc hpanel) fun spec => ?_
  refine confined_bind (confined_callDocker (confined_launchUpdater fun more => ?_))
    fun _ _ _ => confined_pure trivial
  exact .createUpdater (List.mem_append_left more (List.mem_append_left _ mem_snoc)) hpanel
    (List.mem_append_left more mem_snoc)

/-- Every operation, whatever the daemon answers: each of its calls was allowed when it was
made, and its answer discloses what it may. -/
theorem handleOperation_confined (request : BrokerRequest tables) :
    Confined (For deps request) (Discloses canonicalize deps now)
      (handleOperation canonicalize deps now request) before := by
  cases request with
  | containerList all => exact confined_containerList all
  | containerInspect => exact confined_containerInspect
  | containerStart => exact confined_lifecycle fun _ _ hmail => .start hmail
  | containerStop => exact confined_lifecycle fun _ _ hmail => .stop hmail
  | containerRestart => exact confined_lifecycle fun _ _ hmail => .restart hmail
  | containerStats => exact confined_containerStats
  | containerLogs tail since timestamps => exact confined_containerLogs tail since timestamps
  | systemPing => exact confined_systemPing
  | systemVersion => exact confined_figures .version fun _ _ hversion => hversion
  | systemInfo => exact confined_figures .info fun _ _ hinfo => hinfo
  | systemDf => exact confined_figures .df fun _ _ hdf => hdf
  | imageList => exact confined_imageList
  | volumeList => exact confined_volumeList
  | networkList => exact confined_networkList
  | volumeRemove name => exact confined_volumeRemove name
  | imagePrune => exact confined_figures .prune fun _ _ hpruned => hpruned
  | logsFile source tail => exact confined_logsFile source tail
  | consoleExec command => exact confined_consoleExec command
  | panelRestart => exact confined_panelRestart
  | panelSelfUpdateCheck => exact confined_selfUpdateCheck
  | panelSelfUpdateApply targetVersion => exact confined_selfUpdateApply targetVersion
  | dmsFileRead file => exact confined_dmsFileRead file
  | dmsEnvRead => exact confined_dmsEnvRead
  | dmsDkimRecordRead key => exact confined_dmsDkimRecordRead key
  | dmsCommand command => exact confined_dmsCommand command

end Operations

/-- Whatever the daemon has answered so far, the next call is one that the request permits. -/
theorem calls_permitted (now : ℕ) (request : BrokerRequest tables) {before : Exchanges}
    {call : DockerCall} {next : Answer call → Program BrokerResponse}
    (hfollows : Follows (handleOperation canonicalize deps now request) before (.asks call next)) :
    Permitted deps before request call :=
  (hfollows.guarded (handleOperation_confined request)).1

def stock : OperationDeps where
  dms := ⟨"mailserver", none⟩
  panelServer := ⟨"dwg-server", none⟩
  panelBroker := ⟨"dwg-broker", none⟩
  visibleServicePatterns := ["roundcube*"]
  dangerouslyOverrideSelfUpdateRegistry := none

def container (id name : String) : RawContainerListItem where
  names := [name]
  labels := []
  id := id
  image := "image"
  state := "running"
  status := "Up"
  createdAt := 0
  mountVolumeNames := []
  networkNames := []

def containers : List RawContainerListItem :=
  [container "c1" "mailserver", container "c2" "mailserver-old"]

/-- A start of the managed container is permitted once the listing has resolved it. -/
theorem calls_permitted_start :
    Permitted stock [⟨.listContainers true, .ok containers⟩]
      (.containerStart : BrokerRequest .ascii) (.startContainer "c1") :=
  calls_permitted id stock 0 (.containerStart : BrokerRequest .ascii)
    (@Follows.answered _ _ _ _
      (handleOperation id stock 0 (.containerStart : BrokerRequest .ascii)) []
      (.listContainers true) _ .start (.ok containers))

def inspection : RawContainerInspect where
  id := "c1"
  name := "mailserver"
  image := "image"
  createdAt := "2026-01-01T00:00:00Z"
  tty := false
  restartCount := 2
  labels := [("role", "mail")]
  state := ⟨"running", true, false, false, "2026-01-01T00:00:01Z", "", 0, some "healthy"⟩
  mounts := [⟨"volume", some "mail-data", "/var/mail"⟩]

end Broker

end MailPanel
