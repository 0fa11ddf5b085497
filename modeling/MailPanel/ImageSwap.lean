import Mathlib.Data.List.Basic

/-
The specification a panel container is recreated from when it is moved onto a
new image: the captured one, less every value it only inherited from the image
it ran before.
-/

namespace MailPanel

/-- A container's own configuration, complete enough to create it again.  The
two opaque JSON objects are replayed verbatim and kept as text. -/
structure RawContainerRecreateSpec where
  name : String
  image : String
  env : List String
  labels : List (String × String)
  cmd : Option (List String)
  hostConfig : String
  networkingConfig : String
deriving DecidableEq, Repr

/-- The part of an image's configuration that Docker merges into a container. -/
structure RawImageConfig where
  id : String
  env : List String
  labels : List (String × String)
  cmd : Option (List String)
deriving DecidableEq, Repr

structure RawImage where
  id : String
  repoTags : List String
deriving DecidableEq, Repr

namespace ImageSwap

def IMAGE_PROVENANCE_ENV_KEYS : List String :=
  ["DWG_VERSION", "DWG_IMAGE_ORIGIN", "NODE_VERSION", "YARN_VERSION"]

def IMAGE_PROVENANCE_LABEL_PREFIX : String := "org.opencontainers.image."

/-- The part before the first `=`, or the whole entry when it has none. -/
def envKey (entry : String) : String :=
  String.ofList (entry.toList.takeWhile (· ≠ '='))

def withoutImageInheritedEnv (containerEnv : List String)
    (oldImage : Option RawImageConfig) : List String :=
  let inherited := (oldImage.map RawImageConfig.env).getD []
  containerEnv.filter fun entry =>
    envKey entry ∉ IMAGE_PROVENANCE_ENV_KEYS ∧ entry ∉ inherited

def withoutImageInheritedLabels (containerLabels : List (String × String))
    (oldImage : Option RawImageConfig) : List (String × String) :=
  let imageLabels := (oldImage.map RawImageConfig.labels).getD []
  containerLabels.filter fun label =>
    ¬ IMAGE_PROVENANCE_LABEL_PREFIX.toList <+: label.1.toList ∧
      imageLabels.lookup label.1 ≠ some label.2

def withoutImageInheritedCmd (containerCmd : Option (List String))
    (oldImage : Option RawImageConfig) : Option (List String) :=
  match containerCmd, oldImage.bind RawImageConfig.cmd with
  | some containerArgv, some imageArgv =>
      if containerArgv = imageArgv then none else containerCmd
  | _, _ => containerCmd

/-- The specification of the new container: the old one's, with the new image, and without what
the old image had lent it. -/
def buildImageSwapSpec (captured : RawContainerRecreateSpec)
    (oldImage : Option RawImageConfig) (targetImage : String) :
    RawContainerRecreateSpec :=
  { captured with
    image := targetImage
    env := withoutImageInheritedEnv captured.env oldImage
    labels := withoutImageInheritedLabels captured.labels oldImage
    cmd := withoutImageInheritedCmd captured.cmd oldImage }

section

variable (captured : RawContainerRecreateSpec) (oldImage : Option RawImageConfig)
  (targetImage : String)

@[simp] theorem buildImageSwapSpec_name :
    (buildImageSwapSpec captured oldImage targetImage).name = captured.name :=
  rfl

@[simp] theorem buildImageSwapSpec_image :
    (buildImageSwapSpec captured oldImage targetImage).image = targetImage :=
  rfl

end

def PANEL_SERVER_REPOSITORY : String := "ghcr.io/arvinrahnama/docker-webmail-gui-server"

/-- `X.Y.Z` with decimal digits only. -/
def isExactVersion (version : List Char) : Bool :=
  match version.splitOn '.' with
  | [major, minor, patch] =>
      [major, minor, patch].all fun part => !part.isEmpty && part.all Char.isDigit
  | _ => false

/-- The full version tag of `repository` among an image's tags, never an alias. -/
def extractPanelVersion (repoTags : List String) (repository : String) : Option String :=
  repoTags.findSome? fun tag =>
    let tagPrefix := (repository ++ ":").toList
    let version := tag.toList.drop tagPrefix.length
    if tagPrefix <+: tag.toList ∧ isExactVersion version then
      some (String.ofList version)
    else none

/-- What follows the last `:` of a reference. -/
def versionFromReference (reference : String) : String :=
  String.ofList (reference.toList.reverse.takeWhile (· ≠ ':')).reverse

end ImageSwap

end MailPanel
