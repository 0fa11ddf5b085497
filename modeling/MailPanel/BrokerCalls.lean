import MailPanel.ContainerLogs
import MailPanel.ContainerStats
import MailPanel.DmsRecords
import MailPanel.GuardedDialogue
import MailPanel.ImageSwap
import MailPanel.Visibility

/-
What the broker asks of the Docker daemon, and what it is asked itself.
-/

namespace MailPanel

namespace Broker

open ContainerStats Dms StreamDemux Visibility

/- The daemon -/

/-- A line of the daemon's listing, with what visibility and protection are decided by: names
and labels as for every container, and the volumes and networks that it is attached to. -/
structure RawContainerListItem extends IdentifiableContainer where
  id : String
  image : String
  state : String
  status : String
  createdAt : Nat
  mountVolumeNames : List String
  networkNames : List String
deriving DecidableEq, Repr

/-- A mount of an inspected container. Only a volume has a name. -/
structure RawContainerMount where
  type : String
  name : Option String
  destination : String
deriving DecidableEq, Repr

/-- The state of an inspected container, with its health if it has a health check. The times are
the daemon's texts and are passed on unread. -/
structure RawContainerState where
  status : String
  running : Bool
  paused : Bool
  restarting : Bool
  startedAt : String
  finishedAt : String
  exitCode : Int
  health : Option String
deriving DecidableEq, Repr

/-- An inspection of one container, as the daemon answers it. Of its configuration only labels
and mounts are there: its environment, which may hold secrets, is not read. -/
structure RawContainerInspect where
  id : String
  name : String
  image : String
  createdAt : String
  tty : Bool
  restartCount : Nat
  labels : List (String × String)
  state : RawContainerState
  mounts : List RawContainerMount
deriving DecidableEq, Repr

/-- Which part of a container's output is asked for. -/
structure RawLogsOptions where
  tail : Nat
  since : Option Nat
  timestamps : Bool
deriving DecidableEq, Repr

/-- The daemon's version figures, which are handed out as they are: they say nothing about any
container. -/
structure RawVersion where
  version : String
  apiVersion : String
  minApiVersion : String
  os : String
  arch : String
  kernelVersion : String
deriving DecidableEq, Repr

/-- The daemon's figures about its host, which are handed out as they are: counts and sizes, and
no names of containers. -/
structure RawSystemInfo where
  containers : Nat
  containersRunning : Nat
  containersPaused : Nat
  containersStopped : Nat
  images : Nat
  serverVersion : String
  driver : String
  ncpu : Nat
  memTotal : Nat
deriving DecidableEq, Repr

/-- The daemon's figures about disk use, as the adapter sums them: sizes and counts over all
containers, images and volumes of the host. -/
structure RawSystemDf where
  layersSizeBytes : Nat
  imagesCount : Nat
  containersCount : Nat
  volumesCount : Nat
  buildCacheBytes : Nat
deriving DecidableEq, Repr

/-- An image of the listing, with its size and labels. -/
structure RawImageSummary extends RawImage where
  sizeBytes : Nat
  createdAt : Nat
  labels : List (String × String)
deriving DecidableEq, Repr

/-- A volume of the listing. -/
structure RawVolume where
  name : String
  driver : String
  mountpoint : String
  labels : List (String × String)
deriving DecidableEq, Repr

/-- A network of the listing. -/
structure RawNetwork where
  id : String
  name : String
  driver : String
  scope : String
deriving DecidableEq, Repr

/-- What the removal of unused images has removed. -/
structure RawImagePruneResult where
  imagesDeleted : List String
  spaceReclaimedBytes : Nat
deriving DecidableEq, Repr

/-- What a command inside a container has printed, and its exit code. -/
structure RawExecResult where
  stdout : Text
  stderr : Text
  exitCode : Nat
deriving DecidableEq, Repr

/-- The broker's own host configuration with the entries that the updater needs in place. -/
structure UpdaterHostConfig where
  cloned : String
  bind : String
  autoRemove : Bool
  restartPolicy : String × Nat
deriving DecidableEq, Repr

/-- The container that carries out an update of the panel. The broker fills it in from its own
container and its own settings; all that a request has a say in is the version. -/
structure UpdaterSpec where
  name : String
  image : String
  cmd : List String
  env : List String
  labels : List (String × String)
  hostConfig : UpdaterHostConfig
  networkingConfig : String
deriving DecidableEq, Repr

/-- `DockerApi`, as far as a request can reach it. Nothing else of the daemon is within reach of
the panel's server. -/
inductive DockerCall where
  | ping
  | version
  | info
  | df
  | listContainers (all : Bool)
  | inspectContainer (id : String)
  | startContainer (id : String)
  | stopContainer (id : String)
  | restartContainer (id : String)
  | statsContainer (id : String)
  | logsContainer (id : String) (options : RawLogsOptions)
  | listImages
  | listVolumes
  | listNetworks
  | removeVolume (name : String)
  | pruneImages
  | execContainer (id : String) (argv : List String) (stdin : Option String)
  | inspectContainerForRecreate (id : String)
  | inspectImageConfig (ref : String)
  | removeContainer (id : String) (force : Bool)
  | createContainer (spec : UpdaterSpec)
deriving DecidableEq, Repr

/-- What a call that succeeds brings back, by the call. A call cannot be answered with a reply
of another shape, so no program has to check for one. -/
def Reply : DockerCall → Type
  | .version => RawVersion
  | .info => RawSystemInfo
  | .df => RawSystemDf
  | .listContainers _ => List RawContainerListItem
  | .inspectContainer _ => RawContainerInspect
  | .statsContainer _ => RawContainerStats
  | .logsContainer _ _ => Bytes
  | .listImages => List RawImageSummary
  | .listVolumes => List RawVolume
  | .listNetworks => List RawNetwork
  | .pruneImages => RawImagePruneResult
  | .execContainer _ _ _ => RawExecResult
  | .inspectContainerForRecreate _ => RawContainerRecreateSpec
  | .inspectImageConfig _ => RawImageConfig
  | .createContainer _ => String
  | .ping | .startContainer _ | .stopContainer _ | .restartContainer _ | .removeVolume _
  | .removeContainer _ _ => Unit

/-- The daemon's own error, whose text stays inside the broker. -/
structure DockerFault where
  detail : String
deriving DecidableEq, Repr

/-- A call brings its reply or a fault. -/
abbrev Answer (call : DockerCall) : Type := Except DockerFault (Reply call)

/-- How a request fails: with an error for the caller, or with one that nobody has caught. -/
inductive Failure where
  | broker (error : BrokerError)
  | uncaught (fault : DockerFault)
deriving DecidableEq, Repr

/-- An operation as a dialogue with the daemon: what it asks next may depend on every answer so
far. -/
abbrev Program (Value : Type) : Type := Dialogue DockerCall Answer Failure Value

/-- What passed between an operation and the daemon, in its order. -/
abbrev Exchanges : Type := List (Dialogue.Exchange DockerCall Answer)

/- The requests -/

/-- The log files that may be read, by name. -/
inductive LogFileSource where
  | mail
  | fail2ban
deriving DecidableEq, Repr

/-- The commands of the console, by name. -/
inductive ConsoleCommand where
  | postqueueP
  | postconfN
  | doveconfN
  | doveadmWho
deriving DecidableEq, Repr

/-- The configuration files that may be read, by name. A request names one of them and never a
path, so there is no path to be checked. -/
inductive DmsConfigFileKey where
  | postfixAccounts
  | postfixVirtual
  | dovecotQuotas
  | postfixSendAccess
  | postfixReceiveAccess
deriving DecidableEq, Repr

/-- The requests of the broker's protocol, with their parameters as the schemas let them
through. -/
inductive BrokerRequest (tables : UnicodeTables) where
  | containerList (all : Option Bool)
  | containerInspect
  | containerStart
  | containerStop
  | containerRestart
  | containerStats
  | containerLogs (tail since : Option Nat) (timestamps : Option Bool)
  | systemPing
  | systemVersion
  | systemInfo
  | systemDf
  | imageList
  | volumeList
  | networkList
  | volumeRemove (name : String)
  | imagePrune
  | logsFile (source : LogFileSource) (tail : Option Nat)
  | consoleExec (command : ConsoleCommand)
  | panelRestart
  | panelSelfUpdateCheck
  | panelSelfUpdateApply (targetVersion : String)
  | dmsFileRead (file : DmsConfigFileKey)
  | dmsEnvRead
  | dmsDkimRecordRead (key : KeyName tables)
  | dmsCommand (request : DmsRequest)

/-- A container of a listing, as it is handed out: the daemon's line without the volumes and
networks that decided whether it may be seen. -/
structure ContainerSummary where
  id : String
  names : List String
  image : String
  state : String
  status : String
  labels : List (String × String)
  createdAt : Nat
deriving DecidableEq, Repr

/-- The managed container, as it is handed out, field for field what the daemon said of it, with
the labels and mounts. -/
structure ContainerInspectResponse where
  id : String
  name : String
  image : String
  createdAt : String
  state : RawContainerState
  restartCount : Nat
  labels : List (String × String)
  mounts : List RawContainerMount
deriving DecidableEq, Repr

/-- What both images say about their version, and whether an update can be made. -/
structure PanelSelfUpdateCheckResponse where
  serverVersion : Option String
  brokerVersion : Option String
  updatePossible : Bool
  reason : Option String
deriving DecidableEq, Repr

/-- The answers of the broker's protocol, one constructor for each shape of an answer. What may
stand in one, given what the daemon said, is what disclosure is about. -/
inductive BrokerResponse where
  | containers (containers : List ContainerSummary)
  | inspected (container : ContainerInspectResponse)
  | ack
  | sampled (stats : ContainerStatsResponse)
  | logs (lines : List ContainerLogs.LogLine)
  | ping (apiVersion : String)
  | version (version : RawVersion)
  | info (info : RawSystemInfo)
  | df (df : RawSystemDf)
  | images (images : List RawImageSummary)
  | volumes (volumes : List RawVolume)
  | networks (networks : List RawNetwork)
  | pruned (result : RawImagePruneResult)
  | fileLines (lines : List Text)
  | console (command : ConsoleCommand) (argv : List String) (result : RawExecResult)
  | selfUpdateCheck (check : PanelSelfUpdateCheckResponse)
  | selfUpdateStarted
  | content (content : Option Text)
  | env (env : Record)
  | exec (result : RawExecResult)

end Broker

end MailPanel
