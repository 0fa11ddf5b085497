import MailPanel.ImapServer
import MailPanel.McpOperations
import MailPanel.ScriptText
import Mathlib.Data.List.Infix

/-
Messages to Trash and back: what the mail backend says to the IMAP server for it.
-/

namespace MailPanel

namespace Mcp

namespace Trash

open Imap

/-- A message as an id names it.  Its UIDVALIDITY is a text: two texts may be one number. -/
structure MessageRef where
  folder : String
  uidValidity : String
  uid : Nat
deriving DecidableEq, Repr

/-- An error of the mail service, by its kind and the text for it. -/
structure MailError where
  kind : MailErrorKind
  message : String
deriving DecidableEq, Repr

/-- What the code behind a session throws: an error of its own, or a failure of the IMAP
client. -/
inductive Thrown where
  | mail (error : MailError)
  | imap (failure : Failure)
deriving DecidableEq, Repr

/-- The codes of a certificate that is not trusted have one of these words in them. -/
def isCertificateCode (code : String) : Bool :=
  ["CERT", "SELF_SIGNED", "UNABLE_TO", "ERR_TLS", "HOSTNAME"].any fun word =>
    word.toList <:+: code.toList.map Char.toUpper

/-- Turns whatever was thrown into an error that a tool can show. The client's own text is not
passed on. -/
def classifyImapError : Thrown → MailError
  | .mail error => error
  | .imap failure =>
      if failure.authenticationFailed then
        ⟨.authFailed, "The mail server rejected the mailbox credential."⟩
      else
        match failure.code with
        | none => ⟨.unavailable, "The mail server returned an error."⟩
        | some code =>
            if code ∈ ["CONNECT_TIMEOUT", "ETIMEDOUT", "ECONNREFUSED", "ENOTFOUND",
                "EHOSTUNREACH"] then
              ⟨.unavailable, "The mail server could not be reached."⟩
            else if isCertificateCode code then
              ⟨.unavailable, "The mail server’s TLS certificate could not be verified."⟩
            else ⟨.unavailable, "The mail server returned an error."⟩

/-- What is said in one session, which ends with a value or throws. -/
abbrev Session := Dialogue Command Command.Answer Thrown

/-- A call of the mail service: its commands, and an error that is classified already. -/
abbrev Backend := Dialogue Command Command.Answer MailError

/-- One command of the IMAP client, whose failure ends the session. -/
def call (command : Command) : Session command.Reply :=
  .asks command fun answer => .ended (answer.mapError .imap)

/-- Ends the session with an error of the service's own. -/
def refuse {Value : Type} (kind : MailErrorKind) (message : String) : Session Value :=
  .throw (.mail ⟨kind, message⟩)

/-- One authenticated session, which is logged out of whatever comes of it. -/
def withImap {Value : Type} (fn : Session Value) : Backend Value :=
  (call .connect >>= fun _ => fn.closing .logout).mapError classifyImapError

/- Texts -/

/-- The upper case, as far as the letters of INBOX go. Other letters cannot make a name equal to
it. -/
def upperInbox (c : Char) : Char :=
  if c = 'ı' then 'I' else c.toUpper

/-- The one folder whose name is compared without regard to case. -/
def isInbox (folder : String) : Bool :=
  folder.toList.map upperInbox = "INBOX".toList

/-- Control characters and the wildcards of a listing do not appear in a name that is sent. -/
def isUnsafeFolderCharacter (c : Char) : Bool :=
  c.toNat < 0x20 || c.toNat = 0x7f || c = '*' || c = '%'

/-- How many units of UTF-16 a character takes; lengths are counted in these. -/
def units (c : Char) : Nat :=
  if c.toNat < 0x10000 then 1 else 2

/-- A name that may be sent to the server: neither empty nor too long, and without unsafe
characters. -/
def isSafeFolderName (folder : String) : Bool :=
  let length := (folder.toList.map units).sum
  0 < length && length ≤ 255 && !folder.toList.any isUnsafeFolderCharacter

/-- Control characters except the tab and the line feed, and those that hide text. -/
def isUnsafeTextCharacter (c : Char) : Bool :=
  c.toNat ≤ 0x08 || (0x0b ≤ c.toNat && c.toNat ≤ 0x1f) || (0x7f ≤ c.toNat && c.toNat ≤ 0x9f) ||
    (0x200b ≤ c.toNat && c.toNat ≤ 0x200f) || (0x202a ≤ c.toNat && c.toNat ≤ 0x202e) ||
    (0x2066 ≤ c.toNat && c.toNat ≤ 0x2069) || c.toNat = 0xfeff

/-- The two characters that could end a header's line. -/
def isLineEnd (c : Char) : Bool :=
  c = '\r' || c = '\n'

/-- One space for every run of line ends, so that a header stays one line. -/
def joinLines : List Char → List Char
  | [] => []
  | c :: rest =>
      if isLineEnd c then
        if rest.head?.any isLineEnd then joinLines rest else ' ' :: joinLines rest
      else c :: joinLines rest

/-- The characters of the first units of a text, without a character that the cut would split. -/
def takeUnits : Nat → List Char → List Char
  | _, [] => []
  | limit, c :: rest => if units c ≤ limit then c :: takeUnits (limit - units c) rest else []

/-- A header's value as one line without control characters, trimmed and cut. -/
def cleanLine (value : String) (max : Nat) : String :=
  let stripped := (joinLines value.toList).filter fun c => !isUnsafeTextCharacter c
  String.ofList (takeUnits max (ScriptText.trim stripped))

/- Folders -/

/-- A folder that can be opened. -/
def isSelectable (entry : ListEntry) : Bool :=
  !(entry.flags.contains "\\Noselect") && !(entry.flags.contains "\\NonExistent")

/-- The folders that can be opened, in the order in which the server lists them. -/
def folders : Session (List ListEntry) := do
  let list ← call .list
  return list.filter isSelectable

/-- The folder that a request names. INBOX is found under any case. -/
def isFolder (folder : String) (entry : ListEntry) : Bool :=
  entry.path = folder || (isInbox folder && isInbox entry.path)

/-- The listed folder of this name, or a refusal before anything is opened. -/
def requireFolder (folder : String) : Session ListEntry := do
  if isSafeFolderName folder then
    match (← folders).find? (isFolder folder) with
    | none => refuse .notFound "That folder does not exist in this mailbox."
    | some entry => return entry
  else refuse .invalid "That folder name is not valid."

/-- The folder with this use, or else with this name, without regard to the order of the
listing. -/
def special (use fallbackName : String) (all : List ListEntry) : Option ListEntry :=
  (all.find? fun entry => entry.specialUse = some use).or
    (all.find? fun entry => entry.path.toLower = fallbackName.toLower)

/-- The folder for a purpose, if the mailbox has one. -/
def findSpecial (use fallbackName : String) : Session (Option ListEntry) := do
  return special use fallbackName (← folders)

/- To Trash -/

/-- One message that has been moved: where it was, where it is, and its message id if it has
one. -/
structure TrashMove where
  original : MessageRef
  trash : MessageRef
  messageId : Option String
deriving DecidableEq, Repr

/-- Where a message is in Trash, or a place that says that nobody knows. -/
def trashPlace (trash : String) (copyUid : Option CopyUid) (uid : Nat) : MessageRef :=
  match copyUid with
  | none => ⟨trash, "0", 0⟩
  | some copyUid =>
      match copyUid.uids.lookup uid with
      | none => ⟨trash, "0", 0⟩
      | some newUid => ⟨trash, toString copyUid.uidValidity, newUid⟩

/-- The message id out of what was fetched before the move, since afterwards the number is no
longer valid. -/
def messageIdOf (found : List Message) (uid : Nat) : Option String :=
  (found.find? fun message => message.uid = uid).bind fun message =>
    message.messageId.map fun text => cleanLine text 998

/-- The messages of one folder. All checks come before the move, so that nothing of the folder
is moved when one fails. -/
def moveFolder (trash : ListEntry) (folderName : String) (folderRefs : List MessageRef) :
    Session (List TrashMove) := do
  let folder ← requireFolder folderName
  if folder.path = trash.path then
    refuse .invalid
      "These messages are already in Trash; permanent deletion is not supported."
  else
    match ← call (.select folder.path) with
    | none => refuse .unavailable "The folder could not be opened."
    | some uidValidity =>
        if folderRefs.any fun ref => ref.uidValidity ≠ toString uidValidity then
          refuse .staleReference "A message reference is out of date; list the folder again."
        else
          let uids := folderRefs.map MessageRef.uid
          let found ← call (.fetch uids)
          if uids.any fun uid => uid ∉ found.map Message.uid then
            refuse .notFound "One or more messages no longer exist; nothing was moved."
          else
            match ← call (.move uids trash.path) with
            | none => refuse .unavailable "The mail server refused to move the messages."
            | some copyUid =>
                return folderRefs.map fun ref =>
                  ⟨ref, trashPlace trash.path copyUid ref.uid, messageIdOf found ref.uid⟩

/-- The folders stay in the order in which the references name them first. -/
def addToFolder : List (String × List MessageRef) → MessageRef → List (String × List MessageRef)
  | [], ref => [(ref.folder, [ref])]
  | (folderName, folderRefs) :: rest, ref =>
      if folderName = ref.folder then (folderName, folderRefs ++ [ref]) :: rest
      else (folderName, folderRefs) :: addToFolder rest ref

/-- The references by folder, without a change of their order within one. -/
def groupByFolder (refs : List MessageRef) : List (String × List MessageRef) :=
  refs.foldl addToFolder []

/-- Folder after folder: what an earlier folder has moved stays moved when a later one fails. -/
def moveFolders (trash : ListEntry) :
    List (String × List MessageRef) → List TrashMove → Session (List TrashMove)
  | [], moves => return moves
  | (folderName, folderRefs) :: rest, moves => do
      let moved ← moveFolder trash folderName folderRefs
      moveFolders trash rest (moves ++ moved)

/-- Finds the trash folder and moves the messages of all folders there. Nothing is deleted
without one. -/
def moveAll (refs : List MessageRef) : Session (List TrashMove) := do
  match ← findSpecial "\\Trash" "Trash" with
  | none =>
      refuse .invalid "This mailbox has no Trash folder, so messages cannot be safely deleted."
  | some trash => moveFolders trash (groupByFolder refs) []

/-- The whole call, in a session of its own, which is closed whatever happens. -/
def moveToTrash (refs : List MessageRef) : Backend (List TrashMove) :=
  withImap (moveAll refs)

end Trash

end Mcp

end MailPanel
