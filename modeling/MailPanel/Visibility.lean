import Mathlib.Data.List.Basic

/-
The part of a shared Docker host that the panel may see: the containers that the configuration
identifies, and the names that its patterns match.
-/

namespace MailPanel

namespace Visibility

structure ServiceIdentity where
  containerName : String
  containerLabel : Option String
deriving DecidableEq, Repr

structure IdentifiableContainer where
  names : List String
  labels : List (String × String)
deriving DecidableEq, Repr

def stripLeadingSlash (name : String) : String :=
  match name.toList with
  | '/' :: rest => String.ofList rest
  | _ => name

/-- The key and the value of a selector, at its first `=`. -/
def selector (label : String) : String × String :=
  let key := label.toList.takeWhile (· ≠ '=')
  (String.ofList key, String.ofList (label.toList.drop (key.length + 1)))

/-- A label wins over the name, and both are compared whole. With a label configured, a
container of that name is not the managed one. -/
def matchesServiceIdentity (container : IdentifiableContainer) (identity : ServiceIdentity) :
    Bool :=
  match identity.containerLabel with
  | some label => container.labels.lookup (selector label).1 = some (selector label).2
  | none => container.names.any fun name =>
      stripLeadingSlash name = stripLeadingSlash identity.containerName

example : matchesServiceIdentity ⟨["/mailserver-old"], []⟩ ⟨"mailserver", none⟩ = false ∧
    matchesServiceIdentity ⟨["/mailserver"], []⟩ ⟨"mailserver", none⟩ = true ∧
    matchesServiceIdentity ⟨["x"], [("role", "mail")]⟩ ⟨"mailserver", some "role=mail"⟩ =
      true := by
  decide

/-- What `.` does not match. -/
def isLineTerminator (c : Char) : Bool := c ∈ ['\n', '\r', '\u2028', '\u2029']

/-- `^pattern$` with `.*` for each `*`, in any letter case. A line break is nothing that a star
stands for. -/
def globMatches (canonicalize : Char → Char) : List Char → List Char → Bool
  | [], value => value.isEmpty
  | '*' :: pattern, value => (List.range (value.length + 1)).any fun count =>
      (value.take count).all (fun c => !isLineTerminator c) &&
        globMatches canonicalize pattern (value.drop count)
  | c :: pattern, value => value.head?.any (fun d => canonicalize d = canonicalize c) &&
      globMatches canonicalize pattern value.tail

example : globMatches Char.toUpper "*mailserver*".toList "Docker-Mailserver:14".toList = true ∧
    globMatches Char.toUpper "roundcube*".toList "my-roundcube".toList = false := by
  decide

def matchesAnyPattern (canonicalize : Char → Char) (value : String) (patterns : List String) :
    Bool :=
  patterns.any fun pattern => globMatches canonicalize pattern.toList value.toList

structure ContainerVisibility where
  identities : List ServiceIdentity
  patterns : List String
deriving DecidableEq, Repr

def isContainerVisible (canonicalize : Char → Char) (container : IdentifiableContainer)
    (visibility : ContainerVisibility) : Bool :=
  visibility.identities.any (matchesServiceIdentity container) ||
    container.names.any fun name =>
      matchesAnyPattern canonicalize (stripLeadingSlash name) visibility.patterns

def isImageVisible (canonicalize : Char → Char) (id : String) (repoTags patterns : List String)
    (referencedImageRefs : List String) : Bool :=
  repoTags.any (fun tag => matchesAnyPattern canonicalize tag patterns) ||
    id ∈ referencedImageRefs || repoTags.any (· ∈ referencedImageRefs)

end Visibility

end MailPanel
