import MailPanel.BrokerCalls

/-
The broker's operations: what each of them asks of the daemon, and what it answers.
-/

namespace MailPanel

namespace Broker

open Dms NumberText ScriptText Visibility

/-- What the broker was started with: the three containers it manages, the names it may show
besides, and another registry for its own images. -/
structure OperationDeps where
  dms : ServiceIdentity
  panelServer : ServiceIdentity
  panelBroker : ServiceIdentity
  visibleServicePatterns : List String
  dangerouslyOverrideSelfUpdateRegistry : Option String
deriving DecidableEq, Repr

/-- How many lines of a log are read when a request does not say. -/
def LOGS_TAIL_DEFAULT : Nat := 200

/-- A call of the daemon whose failure nobody catches; the broker's own answer to it is an error
of another kind. -/
def docker (call : DockerCall) : Program (Reply call) :=
  .asks call fun
    | .ok reply => pure reply
    | .error fault => Dialogue.throw (.uncaught fault)

/-- Ends an operation with an error that the broker itself chooses. -/
def refuse {Value : Type} (code message : String) : Program Value :=
  Dialogue.throw (.broker ⟨code, message⟩)

/-- Whatever fails in the program, the caller learns no more than that something did. -/
def callDocker {Value : Type} (program : Program Value) : Program Value :=
  program.mapError fun _ => .broker ⟨"UPSTREAM_UNAVAILABLE", "The Docker daemon call failed."⟩

/- The containers that the configuration means -/

/-- A container that the daemon's own listing has resolved. Operations only act on such a
reference. -/
structure ManagedContainerRef where
  id : String
  name : String
deriving DecidableEq, Repr

/-- Why no reference could be made. The panel's message never says which of the two it was. -/
inductive ContainerResolutionReason where
  | notFound
  | ambiguous
deriving DecidableEq, Repr

/-- The listed containers that answer to an identity, by a label or by the container's name. -/
def candidates (all : List RawContainerListItem) (identity : ServiceIdentity) :
    List RawContainerListItem :=
  all.filter fun container => matchesServiceIdentity container.toIdentifiableContainer identity

/-- Exactly one match resolves. Of several none is chosen, since the wrong one might be
stopped. -/
def selectSingleMatch (all : List RawContainerListItem) (identity : ServiceIdentity) :
    Except ContainerResolutionReason ManagedContainerRef :=
  match candidates all identity with
  | [] => .error .notFound
  | [only] => .ok ⟨only.id, only.names.headD identity.containerName⟩
  | _ => .error .ambiguous

/-- Turns a failed resolution into a refusal, with the message of the operation. -/
def orForbid {Value : Type} (message : String) :
    Except ContainerResolutionReason Value → Program Value
  | .ok value => pure value
  | .error _ => refuse "FORBIDDEN" message

section Operations

variable {tables : UnicodeTables} (canonicalize : Char → Char) (deps : OperationDeps)

/-- The first step of every operation on the mail container: list all containers, and take the
one that matches. -/
def resolveOrForbid : Program ManagedContainerRef := do
  let all ← docker (.listContainers true)
  orForbid "The managed container could not be resolved to a single allowlisted match."
    (selectSingleMatch all deps.dms)

/-- The identities and patterns that decide what a listing may show. -/
def containerVisibility : ContainerVisibility :=
  ⟨[deps.dms, deps.panelServer, deps.panelBroker], deps.visibleServicePatterns⟩

/-- Whether a listed container may be shown at all. -/
def isVisible (container : RawContainerListItem) : Bool :=
  isContainerVisible canonicalize container.toIdentifiableContainer (containerVisibility deps)

/-- Two calls at once: the second is made whatever comes of the first. -/
def both (first second : DockerCall) : Program (Reply first × Reply second) :=
  .asks first fun answer => .asks second fun other =>
    match answer, other with
    | .ok left, .ok right => pure (left, right)
    | _, _ => refuse "UPSTREAM_UNAVAILABLE" "The Docker daemon call failed."

/-- The fields that a listing hands out, as they were read from the daemon. -/
def toContainerSummary (raw : RawContainerListItem) : ContainerSummary :=
  ⟨raw.id, raw.names, raw.image, raw.state, raw.status, raw.labels, raw.createdAt⟩

/- The operations of the stock vocabulary -/

/-- Lists the visible containers, running ones only unless the request asks for all. -/
def handleContainerList (all : Option Bool) : Program BrokerResponse := do
  let raw ← callDocker (docker (.listContainers (all.getD false)))
  return .containers ((raw.filter (isVisible canonicalize deps)).map toContainerSummary)

/-- Describes the managed container, with the fields of the inspection as the daemon gave them. -/
def handleContainerInspect : Program BrokerResponse := do
  let ref ← resolveOrForbid deps
  let raw ← callDocker (docker (.inspectContainer ref.id))
  return .inspected ⟨raw.id, raw.name, raw.image, raw.createdAt, raw.state, raw.restartCount,
    raw.labels, raw.mounts⟩

/-- One call on the managed container. The three operations below differ only in that call. -/
def handleLifecycle (call : String → DockerCall) : Program BrokerResponse := do
  let ref ← resolveOrForbid deps
  let _ ← callDocker (docker (call ref.id))
  return .ack

/-- `container.start`, which answers with nothing but success. -/
def handleContainerStart : Program BrokerResponse := handleLifecycle deps .startContainer

/-- `container.stop`, which answers with nothing but success. -/
def handleContainerStop : Program BrokerResponse := handleLifecycle deps .stopContainer

/-- `container.restart`, which answers with nothing but success. -/
def handleContainerRestart : Program BrokerResponse := handleLifecycle deps .restartContainer

/-- One sample of the managed container, reduced to the figures that the panel shows. The clock
is read once the daemon has answered. -/
def handleContainerStats (now : ℕ) : Program BrokerResponse := do
  let ref ← resolveOrForbid deps
  let raw ← callDocker (docker (.statsContainer ref.id))
  return .sampled (ContainerStats.sampleResponse raw now)

/-- The managed container is inspected first, since only its terminal setting tells whether its
output is framed. -/
def handleContainerLogs (tail since : Option Nat) (timestamps : Option Bool) :
    Program BrokerResponse := do
  let ref ← resolveOrForbid deps
  let inspection ← callDocker (docker (.inspectContainer ref.id))
  let buffer ← callDocker (docker (.logsContainer ref.id
    ⟨tail.getD LOGS_TAIL_DEFAULT, since, timestamps.getD false⟩))
  return .logs (ContainerLogs.handleContainerLogs inspection.tty buffer)

/-- A ping, and then the version of the daemon's interface. -/
def handleSystemPing : Program BrokerResponse := do
  let _ ← callDocker (docker .ping)
  let version ← callDocker (docker .version)
  return .ping version.apiVersion

/-- The version figures as the daemon gave them. -/
def handleSystemVersion : Program BrokerResponse := do
  let version ← callDocker (docker .version)
  return .version version

/-- The figures about the host as the daemon gave them. -/
def handleSystemInfo : Program BrokerResponse := do
  let info ← callDocker (docker .info)
  return .info info

/-- The figures about disk use as the daemon gave them. -/
def handleSystemDf : Program BrokerResponse := do
  let df ← callDocker (docker .df)
  return .df df

/-- An image is shown when a visible container runs it, or when its own name is on the list of
visible services. -/
def handleImageList : Program BrokerResponse := do
  let (raw, all) ← both .listImages (.listContainers true)
  let referencedImageRefs := (all.filter (isVisible canonicalize deps)).map
    RawContainerListItem.image
  return .images (raw.filter fun image =>
    isImageVisible canonicalize image.id image.repoTags deps.visibleServicePatterns
      referencedImageRefs)

/-- A volume is shown when a visible container mounts it. -/
def handleVolumeList : Program BrokerResponse := do
  let (raw, all) ← both .listVolumes (.listContainers true)
  let visibleVolumeNames := (all.filter (isVisible canonicalize deps)).flatMap
    RawContainerListItem.mountVolumeNames
  return .volumes (raw.filter (·.name ∈ visibleVolumeNames))

/-- A network is shown when a visible container is attached to it. -/
def handleNetworkList : Program BrokerResponse := do
  let (raw, all) ← both .listNetworks (.listContainers true)
  let visibleNetworkNames := (all.filter (isVisible canonicalize deps)).flatMap
    RawContainerListItem.networkNames
  return .networks (raw.filter (·.name ∈ visibleNetworkNames))

/-- Where docker-mailserver keeps mail, its state, its logs and its configuration. -/
def DMS_PROTECTED_MOUNT_DESTINATIONS : List String :=
  ["/var/mail", "/var/mail-state", "/var/log/mail", "/tmp/docker-mailserver"]

/-- The volumes behind those mount points in the inspected container. Bind mounts have no volume
to protect. -/
def computeProtectedVolumeNames (mounts : List RawContainerMount) : List String :=
  mounts.filterMap fun mount =>
    if mount.type = "volume" ∧ mount.destination ∈ DMS_PROTECTED_MOUNT_DESTINATIONS then mount.name
    else none

/-- A volume that holds mail data is refused, by what the managed container mounts at this
moment. -/
def handleVolumeRemove (name : String) : Program BrokerResponse := do
  let ref ← resolveOrForbid deps
  let inspection ← callDocker (docker (.inspectContainer ref.id))
  if name ∈ computeProtectedVolumeNames inspection.mounts then
    refuse "FORBIDDEN" "This volume backs a protected mail-data mount and cannot be removed."
  else
    let _ ← callDocker (docker (.removeVolume name))
    return .ack

/-- Removes the images that no container uses; the daemon itself decides which these are. -/
def handleImagePrune : Program BrokerResponse := do
  let result ← callDocker (docker .pruneImages)
  return .pruned result

/-- The two files that can be read. A request names one of them and never a path. -/
def LogFileSource.path : LogFileSource → String
  | .mail => "/var/log/mail/mail.log"
  | .fail2ban => "/var/log/mail/fail2ban.log"

/-- The lines of an output without the line end that closes it; an empty output has no line. -/
def splitTrimmedLines (text : Text) : List Text :=
  let withoutTrailingNewline := if text.getLast? = some '\n' then text.dropLast else text
  if withoutTrailingNewline = [] then [] else withoutTrailingNewline.splitOn '\n'

/-- The command that reads the end of a log file. Its only free argument is a number. -/
def tailCommand (source : LogFileSource) (tail : Option Nat) : List String :=
  ["tail", "-n", toString (tail.getD LOGS_TAIL_DEFAULT), source.path]

/-- Reads the end of a log file inside the managed container. The file is named by its source,
and the number of lines is all that a request adds. -/
def handleLogsFile (source : LogFileSource) (tail : Option Nat) : Program BrokerResponse := do
  let ref ← resolveOrForbid deps
  let result ← callDocker (docker (.execContainer ref.id (tailCommand source tail) none))
  if result.exitCode ≠ 0 then
    refuse "UPSTREAM_UNAVAILABLE" "Could not read the requested log file."
  else return .fileLines (splitTrimmedLines result.stdout)

/-- `CONSOLE_COMMAND_ARGV`: the arguments that each name of the console stands for. -/
def ConsoleCommand.argv : ConsoleCommand → List String
  | .postqueueP => ["postqueue", "-p"]
  | .postconfN => ["postconf", "-n"]
  | .doveconfN => ["doveconf", "-n"]
  | .doveadmWho => ["doveadm", "who"]

/-- Runs a named command in the managed container. The answer repeats the arguments that were
run. -/
def handleConsoleExec (command : ConsoleCommand) : Program BrokerResponse := do
  let ref ← resolveOrForbid deps
  let result ← callDocker (docker (.execContainer ref.id command.argv none))
  return .console command command.argv result

/- The panel's own containers -/

/-- Restarts the panel's server, unless the container it resolves to might be the broker
itself. -/
def handlePanelRestart : Program BrokerResponse := do
  let all ← callDocker (docker (.listContainers true))
  let server ← orForbid
    "The panel server container could not be resolved to a single allowlisted match."
    (selectSingleMatch all deps.panelServer)
  if (candidates all deps.panelBroker).any (·.id = server.id) then
    refuse "FORBIDDEN" "Refusing to restart the broker container."
  else
    let _ ← callDocker (docker (.restartContainer server.id))
    return .ack

/-- Both containers of the panel, out of one listing. Either failure refuses the operation. -/
def resolvePanelIdentities (all : List RawContainerListItem) :
    Program (ManagedContainerRef × ManagedContainerRef) := do
  let message := "The panel's own containers could not be resolved to a single allowlisted " ++
    "match each."
  let server ← orForbid message (selectSingleMatch all deps.panelServer)
  let broker ← orForbid message (selectSingleMatch all deps.panelBroker)
  if server.id = broker.id then
    refuse "FORBIDDEN"
      "The panel server and panel broker identities must not resolve to the same container."
  else if (candidates all deps.dms).any fun container =>
      container.id = server.id || container.id = broker.id then
    refuse "FORBIDDEN" "Refusing to target the mail container."
  else return (server, broker)

/-- Whether an image was pulled from the registry or built from the source. -/
inductive DwgImageOrigin where
  | registry
  | source
deriving DecidableEq, Repr

/-- What an image says about itself through its environment. -/
structure BakedImageFacts where
  version : Option String
  origin : Option DwgImageOrigin
deriving DecidableEq, Repr

/-- `^\d+\.\d+\.\d+$`: three numbers between dots, and nothing else before or after them. -/
def versionPattern (value : Text) : Bool :=
  let parts := value.splitOn '.'
  parts.length = 3 && parts.all fun part => part ≠ [] && part.all isDigit

/-- The two spellings that the build writes; any other value says nothing. -/
def readOrigin (value : Text) : Option DwgImageOrigin :=
  if value = "registry".toList then some .registry
  else if value = "source".toList then some .source
  else none

/-- Reads one entry of an environment, cut at its first `=`. A later entry of the same name
wins, unless its value makes no sense. -/
def readBakedEntry (facts : BakedImageFacts) (entry : String) : BakedImageFacts :=
  let key := entry.toList.takeWhile (· ≠ '=')
  match entry.toList.dropWhile (· ≠ '=') with
  | [] => facts
  | _ :: value =>
      if key = "DWG_VERSION".toList ∧ versionPattern value then
        { facts with version := some (String.ofList value) }
      else if key = "DWG_IMAGE_ORIGIN".toList then
        match readOrigin value with
        | some origin => { facts with origin := some origin }
        | none => facts
      else facts

/-- Folds over the whole environment, starting from knowing nothing. -/
def extractBakedImageFacts (env : List String) : BakedImageFacts :=
  env.foldl readBakedEntry ⟨none, none⟩

/-- The image's own environment is preferred. When the image cannot be inspected, that of the
container has to do. -/
def readBakedImageFacts (containerId : String) : Program BakedImageFacts := do
  let spec ← callDocker (docker (.inspectContainerForRecreate containerId))
  .asks (.inspectImageConfig spec.image) fun
    | .ok image => pure (extractBakedImageFacts image.env)
    | .error _ => pure (extractBakedImageFacts spec.env)

/-- Says that an update is supported only when both versions are known, and why not otherwise. -/
def checkResponse (server broker : BakedImageFacts) : PanelSelfUpdateCheckResponse :=
  if server.version = none ∨ broker.version = none then
    ⟨server.version, broker.version, false, some ("Could not determine the currently running " ++
      "version from the baked version marker. This install may predate self-update support — " ++
      "rebuild or redeploy to pick it up (docs/design/self-update.md §9.8).")⟩
  else if server.origin ≠ some .registry ∨ broker.origin ≠ some .registry then
    ⟨server.version, broker.version, false, some ("Self-update is only available for " ++
      "registry-image installs; source-built installs update by rebuilding/redeploying.")⟩
  else ⟨server.version, broker.version, true, none⟩

/-- Resolves the panel's two containers and compares what their images say about themselves. -/
def handlePanelSelfUpdateCheck : Program BrokerResponse := do
  let all ← callDocker (docker (.listContainers true))
  let (server, broker) ← resolvePanelIdentities deps all
  let serverFacts ← readBakedImageFacts server.id
  let brokerFacts ← readBakedImageFacts broker.id
  return .selfUpdateCheck (checkResponse serverFacts brokerFacts)

/-- Where the server's images are published. -/
def PANEL_SERVER_REPOSITORY : String := "ghcr.io/arvinrahnama/docker-webmail-gui-server"

/-- Where the broker's images are published. -/
def PANEL_BROKER_REPOSITORY : String := "ghcr.io/arvinrahnama/docker-webmail-gui-broker"

/-- With another registry set, only the last part of the usual name is kept. -/
def resolvePanelRepository (defaultRepository : String) : Option String → String
  | none => defaultRepository
  | some registryOverride => registryOverride ++ "/" ++
      String.ofList (defaultRepository.toList.reverse.takeWhile (· ≠ '/')).reverse

/-- The tag is the version that was asked for. -/
def panelImageReference (repository version : String) : String := repository ++ ":" ++ version

/-- The name of the one updater there may be. A leftover of this name is removed first. -/
def SELF_UPDATE_UPDATER_CONTAINER_NAME : String := "dwg-self-update-updater"

/-- What the updater runs, from the broker's own image. -/
def UPDATER_ENTRYPOINT_COMMAND : List String :=
  ["node", "apps/broker/dist/self-update/updater-entrypoint.js"]

/-- The server's data, which the updater writes its verdict to. -/
def SERVER_DATA_VOLUME_BIND : String := "dwg-server-data:/app/data"

/-- All that the updater has to be told. It inherits the broker's host and network settings. -/
structure UpdaterLaunchTarget where
  brokerOwnImage : String
  brokerHostConfig : String
  brokerNetworkingConfig : String
  serverContainerName : String
  brokerContainerName : String
  serverImageRef : String
  brokerImageRef : String
deriving DecidableEq, Repr

/-- The updater's container: the broker's image and settings, with the rest of the target in its
environment. -/
def updaterSpec (target : UpdaterLaunchTarget) : UpdaterSpec where
  name := SELF_UPDATE_UPDATER_CONTAINER_NAME
  image := target.brokerOwnImage
  cmd := UPDATER_ENTRYPOINT_COMMAND
  env :=
    ["DWG_SELF_UPDATE_SERVER_CONTAINER_NAME=" ++ target.serverContainerName,
      "DWG_SELF_UPDATE_BROKER_CONTAINER_NAME=" ++ target.brokerContainerName,
      "DWG_SELF_UPDATE_SERVER_IMAGE_REF=" ++ target.serverImageRef,
      "DWG_SELF_UPDATE_BROKER_IMAGE_REF=" ++ target.brokerImageRef]
  labels := []
  hostConfig := ⟨target.brokerHostConfig, SERVER_DATA_VOLUME_BIND, true, ("no", 0)⟩
  networkingConfig := target.brokerNetworkingConfig

/-- A failure to remove what an earlier run has left behind is ignored. -/
def removeStale (all : List RawContainerListItem) : Program Unit :=
  match all.find? fun container => SELF_UPDATE_UPDATER_CONTAINER_NAME ∈ container.names with
  | some stale => .asks (.removeContainer stale.id true) fun _ => pure ()
  | none => pure ()

/-- Removes a leftover updater, then creates and starts a new one. -/
def launchUpdater (target : UpdaterLaunchTarget) : Program Unit := do
  let all ← docker (.listContainers true)
  removeStale all
  let id ← docker (.createContainer (updaterSpec target))
  docker (.startContainer id)

/-- What an update to a version passes on to its updater: the broker's own image and host
settings, the names of both containers, and the two references that the version makes. -/
def launchTarget (targetVersion : String) (server broker : ManagedContainerRef)
    (brokerSpec : RawContainerRecreateSpec) : UpdaterLaunchTarget where
  brokerOwnImage := brokerSpec.image
  brokerHostConfig := brokerSpec.hostConfig
  brokerNetworkingConfig := brokerSpec.networkingConfig
  serverContainerName := server.name
  brokerContainerName := broker.name
  serverImageRef := panelImageReference
    (resolvePanelRepository PANEL_SERVER_REPOSITORY deps.dangerouslyOverrideSelfUpdateRegistry)
    targetVersion
  brokerImageRef := panelImageReference
    (resolvePanelRepository PANEL_BROKER_REPOSITORY deps.dangerouslyOverrideSelfUpdateRegistry)
    targetVersion

/-- Resolves both containers, reads the broker's own settings, and leaves the rest to the
updater. -/
def handlePanelSelfUpdateApply (targetVersion : String) : Program BrokerResponse := do
  let all ← callDocker (docker (.listContainers true))
  let (server, broker) ← resolvePanelIdentities deps all
  let brokerSpec ← callDocker (docker (.inspectContainerForRecreate broker.id))
  callDocker (launchUpdater (launchTarget deps targetVersion server broker brokerSpec))
  return .selfUpdateStarted

/- The mail server's vocabulary -/

/-- The configuration files that can be read. A request names one of them and never a path. -/
def DmsConfigFileKey.path : DmsConfigFileKey → String
  | .postfixAccounts => DMS_CONFIG_DIR ++ "/postfix-accounts.cf"
  | .postfixVirtual => DMS_CONFIG_DIR ++ "/postfix-virtual.cf"
  | .dovecotQuotas => DMS_CONFIG_DIR ++ "/dovecot-quotas.cf"
  | .postfixSendAccess => DMS_CONFIG_DIR ++ "/postfix-send-access.cf"
  | .postfixReceiveAccess => DMS_CONFIG_DIR ++ "/postfix-receive-access.cf"

/-- A file that cannot be read is answered as absent; the panel takes it for an empty one. -/
def handleDmsFileRead (file : DmsConfigFileKey) : Program BrokerResponse := do
  let ref ← resolveOrForbid deps
  let result ← docker (.execContainer ref.id ["cat", file.path] none)
  return .content (if result.exitCode = 0 then some result.stdout else none)

/-- Looks for a record by a pattern that carries the selector and the domain, and prints every
file it finds. -/
def findCommand (selector domain : String) : List String :=
  ["find", DMS_CONFIG_DIR ++ "/rspamd/dkim", "-maxdepth", "1", "-type", "f", "-name",
    recordPattern selector domain, "-exec", "cat", "\x7b\x7d", "+"]

/-- The record that OpenDKIM would keep comes first, and only when there is none the one of
Rspamd. -/
def handleDmsDkimRecordRead (key : KeyName tables) : Program BrokerResponse := do
  let ref ← resolveOrForbid deps
  let openDkim ← docker (.execContainer ref.id ["cat", openDkimPath key.selector key.domain] none)
  if openDkim.exitCode = 0 then return .content (some openDkim.stdout)
  else
    let rspamd ← docker (.execContainer ref.id (findCommand key.selector key.domain) none)
    let found := if rspamd.exitCode = 0 then trim rspamd.stdout else []
    return .content (if 0 < found.length then some rspamd.stdout else none)

/-- Prints the environment of the managed container and hands on the variables that the panel
knows. -/
def handleDmsEnvRead : Program BrokerResponse := do
  let ref ← resolveOrForbid deps
  let result ← docker (.execContainer ref.id ["printenv"] none)
  match Dms.handleDmsEnvRead ⟨result.exitCode, result.stdout⟩ with
  | .ok env => return .env env
  | .error error => Dialogue.throw (.broker error)

variable (tables) in

/-- Every change of the mail server: the container is resolved first, then the request is
validated and its command run. -/
def handleDmsCommand (request : DmsRequest) : Program BrokerResponse := do
  let ref ← resolveOrForbid deps
  match request.build tables with
  | .error message => refuse "VALIDATION_FAILED" message
  | .ok command =>
      let exec ← docker (.execContainer ref.id command.argv command.stdin)
      return .exec exec

/-- What the broker does for a request that has passed its schema; `now` is what its clock will
say once a sample has been taken. -/
def handleOperation (now : ℕ) : BrokerRequest tables → Program BrokerResponse
  | .containerList all => handleContainerList canonicalize deps all
  | .containerInspect => handleContainerInspect deps
  | .containerStart => handleContainerStart deps
  | .containerStop => handleContainerStop deps
  | .containerRestart => handleContainerRestart deps
  | .containerStats => handleContainerStats deps now
  | .containerLogs tail since timestamps => handleContainerLogs deps tail since timestamps
  | .systemPing => handleSystemPing
  | .systemVersion => handleSystemVersion
  | .systemInfo => handleSystemInfo
  | .systemDf => handleSystemDf
  | .imageList => handleImageList canonicalize deps
  | .volumeList => handleVolumeList canonicalize deps
  | .networkList => handleNetworkList canonicalize deps
  | .volumeRemove name => handleVolumeRemove deps name
  | .imagePrune => handleImagePrune
  | .logsFile source tail => handleLogsFile deps source tail
  | .consoleExec command => handleConsoleExec deps command
  | .panelRestart => handlePanelRestart deps
  | .panelSelfUpdateCheck => handlePanelSelfUpdateCheck deps
  | .panelSelfUpdateApply targetVersion => handlePanelSelfUpdateApply deps targetVersion
  | .dmsFileRead file => handleDmsFileRead deps file
  | .dmsEnvRead => handleDmsEnvRead deps
  | .dmsDkimRecordRead key => handleDmsDkimRecordRead deps key
  | .dmsCommand request => handleDmsCommand tables deps request

end Operations

end Broker

end MailPanel
