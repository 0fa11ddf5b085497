import Mathlib.Data.List.Nodup
import MailPanel.Dialogue

/-
The mailbox that an IMAP session works on: its folders, the commands, and what a server
makes of a command.
-/

namespace MailPanel

namespace Imap

structure Message where
  uid : Nat
  /-- The Message-ID of the envelope. -/
  messageId : Option String
deriving DecidableEq, Repr

/-- A folder of the mailbox. No two messages of it have one UID, and the next message gets a UID
above all of them, which is what makes a reference by UID mean one message for good. -/
structure Folder where
  path : String
  flags : List String
  specialUse : Option String
  uidValidity : Nat
  uidNext : Nat
  messages : List Message
  distinct : (messages.map Message.uid).Nodup
  below : ∀ message ∈ messages, message.uid < uidNext
deriving DecidableEq

namespace Folder

def remove (folder : Folder) (uids : List Nat) : Folder :=
  { folder with
    messages := folder.messages.filter fun message => message.uid ∉ uids
    distinct := folder.distinct.sublist ((List.filter_sublist).map Message.uid)
    below := fun message hmessage => folder.below message (List.mem_filter.mp hmessage).1 }

/-- A message is put at the end of a folder, under the folder's next UID. That the folder stays
one is proved here, where it is built. -/
def add (folder : Folder) (messageId : Option String) : Folder :=
  { folder with
    uidNext := folder.uidNext + 1
    messages := folder.messages ++ [⟨folder.uidNext, messageId⟩]
    distinct := by
      rw [List.map_append, List.map_singleton, List.nodup_append]
      refine ⟨folder.distinct, List.nodup_singleton _, ?_⟩
      intro uid huid other hother hsame
      obtain ⟨message, hmessage, rfl⟩ := List.mem_map.mp huid
      rw [List.mem_singleton.mp hother] at hsame
      exact Nat.ne_of_lt (folder.below message hmessage) hsame
    below := by
      intro message hmessage
      rcases List.mem_append.mp hmessage with hold | hnew
      · exact Nat.lt_succ_of_lt (folder.below message hold)
      · rw [List.mem_singleton.mp hnew]
        exact Nat.lt_succ_self _ }

@[simp]
theorem remove_path (folder : Folder) (uids : List Nat) :
    (folder.remove uids).path = folder.path :=
  rfl

@[simp]
theorem add_path (folder : Folder) (messageId : Option String) :
    (folder.add messageId).path = folder.path :=
  rfl

def addAll (folder : Folder) (messageIds : List (Option String)) : Folder :=
  messageIds.foldl add folder

@[simp]
theorem addAll_path (folder : Folder) (messageIds : List (Option String)) :
    (folder.addAll messageIds).path = folder.path := by
  induction messageIds generalizing folder with
  | nil => rfl
  | cons messageId rest ih => exact ih (folder.add messageId)

end Folder

structure Mailbox where
  folders : List Folder
  distinct : (folders.map Folder.path).Nodup
deriving DecidableEq

/-- A folder that a session has selected. -/
structure Selected where
  path : String
  uidValidity : Nat
deriving DecidableEq, Repr

namespace Mailbox

def folder? (mailbox : Mailbox) (path : String) : Option Folder :=
  mailbox.folders.find? fun folder => folder.path = path

/-- The selected folder, while it is still the one that was selected. -/
def selected? (mailbox : Mailbox) (selected : Selected) : Option Folder :=
  (mailbox.folder? selected.path).filter fun folder => folder.uidValidity = selected.uidValidity

/-- One folder of a mailbox is changed, by a change that leaves its path alone. Paths therefore
stay distinct, which the mailbox carries with it. -/
def update (mailbox : Mailbox) (path : String) (change : Folder → Folder)
    (hpath : ∀ folder, (change folder).path = folder.path) : Mailbox where
  folders := mailbox.folders.map fun folder => if folder.path = path then change folder else folder
  distinct := by
    have hpaths : (mailbox.folders.map fun folder =>
        if folder.path = path then change folder else folder).map Folder.path =
        mailbox.folders.map Folder.path := by
      rw [List.map_map]
      apply List.map_congr_left
      intro folder _
      rw [Function.comp_apply]
      split
      · exact hpath folder
      · rfl
    rw [hpaths]
    exact mailbox.distinct

end Mailbox

structure ListEntry where
  path : String
  flags : List String
  specialUse : Option String
deriving DecidableEq, Repr

/-- Where the messages of a MOVE are now, as COPYUID tells it. -/
structure CopyUid where
  uidValidity : Nat
  uids : List (Nat × Nat)
deriving DecidableEq, Repr

/-- What a session asks of the server, one constructor for each command that the panel sends,
with the arguments that decide about its effect. -/
inductive Command where
  | connect
  | list
  | select (path : String)
  | fetch (uids : List Nat)
  | move (uids : List Nat) (destination : String)
  | logout
deriving DecidableEq, Repr

/-- What a command brings back; a SELECT may leave no folder selected, and a server may refuse
a MOVE, or carry it out without a COPYUID. -/
abbrev Command.Reply : Command → Type
  | .connect => Unit
  | .list => List ListEntry
  | .select _ => Option Nat
  | .fetch _ => List Message
  | .move _ _ => Option (Option CopyUid)
  | .logout => Unit

/-- What the client throws when a connection or a command fails. -/
structure Failure where
  authenticationFailed : Bool
  code : Option String
deriving DecidableEq, Repr

abbrev Command.Answer (command : Command) : Type :=
  Except Failure command.Reply

/-- What becomes of a command.  A MOVE that is refused, or whose answer is lost, may have
been carried out for the first of its messages. -/
inductive Turn where
  | served (copyUid : Bool)
  | refused (done : Nat)
  | lost (done : Nat) (failure : Failure)
deriving DecidableEq, Repr

/-- How many messages of a MOVE are moved; `none` is all of them. -/
def Turn.limit : Turn → Option Nat
  | .served _ => none
  | .refused done => some done
  | .lost done _ => some done

/-- A message that a MOVE took, and its place from then on: the folder, its validity and the UID
before the move, and the same three after it. -/
structure Taken where
  folder : String
  uidValidity : Nat
  uid : Nat
  destination : String
  newValidity : Nat
  newUid : Nat
deriving DecidableEq, Repr

/-- The messages of a folder that a MOVE takes. -/
def Folder.chosen (folder : Folder) (uids : List Nat) (limit : Option Nat) : List Message :=
  let present := folder.messages.filter fun message => message.uid ∈ uids
  match limit with
  | none => present
  | some count => present.take count

def Folder.takenTo (folder target : Folder) (chosen : List Message) : List Taken :=
  chosen.mapIdx fun index message =>
    ⟨folder.path, folder.uidValidity, message.uid, target.path, target.uidValidity,
      target.uidNext + index⟩

/-- Takes messages out of one folder and adds them to another. -/
def Mailbox.move (mailbox : Mailbox) (folder target : Folder) (chosen : List Message) : Mailbox :=
  let taken := mailbox.update folder.path
    (fun found => found.remove (chosen.map Message.uid)) fun _ => rfl
  taken.update target.path (fun found => found.addAll (chosen.map Message.messageId))
    fun found => found.addAll_path _

/-- One session and the mailbox it works on. -/
structure Wire where
  mailbox : Mailbox
  selected : Option Selected
  /-- What the session's MOVEs took, oldest first. -/
  taken : List Taken

namespace Wire

variable (wire : Wire)

/-- The folder that the session works on and the one that a MOVE names. -/
def ends (destination : String) : Option (Folder × Folder) :=
  (wire.selected.bind wire.mailbox.selected?).bind fun folder =>
    (wire.mailbox.folder? destination).map fun target => (folder, target)

def carry (uids : List Nat) (destination : String) (limit : Option Nat) : Wire :=
  match wire.ends destination with
  | none => wire
  | some (folder, target) =>
      let chosen := folder.chosen uids limit
      { wire with
        mailbox := wire.mailbox.move folder target chosen
        taken := wire.taken ++ folder.takenTo target chosen }

/-- The COPYUID of the messages that a MOVE takes now. -/
def copyUid (uids : List Nat) (destination : String) : Option CopyUid :=
  (wire.ends destination).map fun (folder, target) =>
    ⟨target.uidValidity, (folder.takenTo target (folder.chosen uids none)).map fun taken =>
      (taken.uid, taken.newUid)⟩

/-- What a server without any other answer fails with. -/
def broken : Failure := ⟨false, none⟩

/-- The server's answer to one command, and what the command did. The turn decides whether it is
served, refused, or lost on the way with or without an effect. -/
def serve (turn : Turn) : (command : Command) → command.Answer × Wire
  | .connect =>
      match turn with
      | .served _ => (.ok (), wire)
      | .refused _ => (.error broken, wire)
      | .lost _ failure => (.error failure, wire)
  | .list =>
      match turn with
      | .served _ => (.ok (wire.mailbox.folders.map fun folder =>
          ⟨folder.path, folder.flags, folder.specialUse⟩), wire)
      | .refused _ => (.error broken, wire)
      | .lost _ failure => (.error failure, wire)
  | .select path =>
      match turn with
      | .served _ =>
          match wire.mailbox.folder? path with
          | none => (.error broken, { wire with selected := none })
          | some folder => (.ok (some folder.uidValidity),
              { wire with selected := some ⟨path, folder.uidValidity⟩ })
      | .refused _ => (.ok none, { wire with selected := none })
      | .lost _ failure => (.error failure, { wire with selected := none })
  | .fetch uids =>
      match turn with
      | .served _ =>
          match wire.selected.bind wire.mailbox.selected? with
          | none => (.error broken, wire)
          | some folder => (.ok (folder.messages.filter fun message => message.uid ∈ uids), wire)
      | .refused _ => (.error broken, wire)
      | .lost _ failure => (.error failure, wire)
  | .move uids destination =>
      match turn with
      | .served copyUid =>
          match wire.ends destination with
          | none => (.ok none, wire)
          | some _ => (.ok (some (if copyUid then wire.copyUid uids destination else none)),
              wire.carry uids destination none)
      | .refused done => (.ok none, wire.carry uids destination (some done))
      | .lost done failure => (.error failure, wire.carry uids destination (some done))
  | .logout => (.ok (), wire)

/-- The messages that a MOVE takes with this limit. -/
def takes (uids : List Nat) (destination : String) (limit : Option Nat) : List Taken :=
  match wire.ends destination with
  | none => []
  | some (folder, target) => folder.takenTo target (folder.chosen uids limit)

@[simp]
theorem carry_taken (uids : List Nat) (destination : String) (limit : Option Nat) :
    (wire.carry uids destination limit).taken =
      wire.taken ++ wire.takes uids destination limit := by
  rw [carry, takes]
  cases wire.ends destination with
  | none => rw [List.append_nil]
  | some both => rfl

/-- Only a MOVE takes messages, and it takes what the turn allows it to, whatever answer it gets
back. -/
theorem serve_taken (turn : Turn) (command : Command) :
    (wire.serve turn command).2.taken = wire.taken ++
      match command with
      | .move uids destination => wire.takes uids destination turn.limit
      | _ => [] := by
  cases command with
  | select path =>
      cases turn with
      | served copyUid =>
          rw [serve]
          dsimp only
          cases wire.mailbox.folder? path <;> exact (List.append_nil _).symm
      | refused done => exact (List.append_nil _).symm
      | lost done failure => exact (List.append_nil _).symm
  | fetch uids =>
      cases turn with
      | served copyUid =>
          rw [serve]
          dsimp only
          cases wire.selected.bind wire.mailbox.selected? <;> exact (List.append_nil _).symm
      | refused done => exact (List.append_nil _).symm
      | lost done failure => exact (List.append_nil _).symm
  | move uids destination =>
      cases turn with
      | served copyUid =>
          rw [serve]
          dsimp only
          cases hends : wire.ends destination with
          | none =>
              rw [takes, hends]
              exact (List.append_nil _).symm
          | some both => exact wire.carry_taken uids destination none
      | refused done => exact wire.carry_taken uids destination (some done)
      | lost done failure => exact wire.carry_taken uids destination (some done)
  | connect => cases turn <;> exact (List.append_nil _).symm
  | list => cases turn <;> exact (List.append_nil _).symm
  | logout => exact (List.append_nil _).symm

theorem chosen_sublist (folder : Folder) (uids : List Nat) (limit : Option Nat) :
    (folder.chosen uids limit).Sublist
      (folder.messages.filter fun message => message.uid ∈ uids) := by
  cases limit with
  | none => exact List.Sublist.refl _
  | some count => exact List.take_sublist count _

theorem takenTo_uid (folder target : Folder) (chosen : List Message) :
    (folder.takenTo target chosen).map Taken.uid = chosen.map Message.uid := by
  apply List.ext_getElem
  · simp [Folder.takenTo]
  · intro index hleft hright
    simp [Folder.takenTo]

/-- A MOVE takes a message once. -/
theorem takes_nodup (uids : List Nat) (destination : String) (limit : Option Nat) :
    ((wire.takes uids destination limit).map Taken.uid).Nodup := by
  rw [takes]
  cases wire.ends destination with
  | none => exact List.nodup_nil
  | some both =>
      obtain ⟨folder, target⟩ := both
      dsimp only
      rw [takenTo_uid]
      have hsub := (chosen_sublist folder uids limit).trans List.filter_sublist
      exact folder.distinct.sublist (hsub.map Message.uid)

/-- A MOVE takes messages that it names, out of the selected folder and under its present
validity. -/
theorem mem_takes {uids : List Nat} {destination : String} {limit : Option Nat} {taken : Taken}
    (htaken : taken ∈ wire.takes uids destination limit) :
    taken.uid ∈ uids ∧ wire.selected = some ⟨taken.folder, taken.uidValidity⟩ := by
  rw [takes] at htaken
  cases hends : wire.ends destination with
  | none =>
      rw [hends] at htaken
      exact absurd htaken List.not_mem_nil
  | some both =>
      obtain ⟨folder, target⟩ := both
      rw [hends] at htaken
      obtain ⟨index, hindex, rfl⟩ := List.mem_mapIdx.mp htaken
      have hchosen := (chosen_sublist folder uids limit).subset (List.getElem_mem hindex)
      refine ⟨of_decide_eq_true (List.mem_filter.mp hchosen).2, ?_⟩
      rw [ends] at hends
      obtain ⟨found, hfound, htarget⟩ := Option.bind_eq_some_iff.mp hends
      obtain ⟨_, -, heq⟩ := Option.map_eq_some_iff.mp htarget
      obtain rfl : found = folder := congrArg Prod.fst heq
      obtain ⟨selected, hselected, hopen⟩ := Option.bind_eq_some_iff.mp hfound
      rw [Mailbox.selected?, Option.filter_eq_some_iff] at hopen
      obtain ⟨hpath, hvalidity⟩ := hopen
      have hsame : found.path = selected.path := by
        rw [Mailbox.folder?] at hpath
        simpa using List.find?_some hpath
      have hvalid : found.uidValidity = selected.uidValidity := of_decide_eq_true hvalidity
      rw [hselected, hsame, hvalid]

theorem serve_select {turn : Turn} {path : String} {uidValidity : Nat}
    (hanswer : (wire.serve turn (.select path)).1 = .ok (some uidValidity)) :
    (wire.serve turn (.select path)).2.selected = some ⟨path, uidValidity⟩ := by
  cases turn with
  | served copyUid =>
      rw [serve] at hanswer ⊢
      cases hfolder : wire.mailbox.folder? path with
      | none =>
          rw [hfolder] at hanswer
          cases hanswer
      | some folder =>
          rw [hfolder] at hanswer
          dsimp only at hanswer ⊢
          rw [Option.some.inj (Except.ok.inj hanswer)]
  | refused done => cases hanswer
  | lost done failure => cases hanswer

theorem serve_fetch_selected (turn : Turn) (uids : List Nat) :
    (wire.serve turn (.fetch uids)).2.selected = wire.selected := by
  cases turn with
  | served copyUid =>
      rw [serve]
      cases wire.selected.bind wire.mailbox.selected? <;> rfl
  | refused done => rfl
  | lost done failure => rfl

end Wire

/- A session and what the outside makes of each command of it -/

/-- What others do to the mailbox before the next command, and what becomes of it. -/
structure Event where
  others : Mailbox → Mailbox
  turn : Turn

def Event.calm : Event := ⟨id, .served true⟩

structure Scripted where
  wire : Wire
  script : List Event

namespace Scripted

def start (mailbox : Mailbox) (script : List Event) : Scripted :=
  ⟨⟨mailbox, none, []⟩, script⟩

variable (s : Scripted)

/-- Where the session stands when the next command is carried out. -/
def now : Wire :=
  { s.wire with mailbox := (s.script.headD Event.calm).others s.wire.mailbox }

def answer (command : Command) : command.Answer :=
  (s.now.serve (s.script.headD Event.calm).turn command).1

def after (command : Command) : Scripted :=
  ⟨(s.now.serve (s.script.headD Event.calm).turn command).2, s.script.tail⟩

def serve (command : Command) : command.Answer × Scripted :=
  (s.answer command, s.after command)

/-- The messages that a MOVE takes if it is the next command. -/
def takes (uids : List Nat) (destination : String) : List Taken :=
  s.now.takes uids destination (s.script.headD Event.calm).turn.limit

@[simp]
theorem after_connect_taken : (s.after .connect).wire.taken = s.wire.taken :=
  (s.now.serve_taken _ _).trans (List.append_nil _)

@[simp]
theorem after_list_taken : (s.after .list).wire.taken = s.wire.taken :=
  (s.now.serve_taken _ _).trans (List.append_nil _)

@[simp]
theorem after_select_taken (path : String) :
    (s.after (.select path)).wire.taken = s.wire.taken :=
  (s.now.serve_taken _ _).trans (List.append_nil _)

@[simp]
theorem after_fetch_taken (uids : List Nat) :
    (s.after (.fetch uids)).wire.taken = s.wire.taken :=
  (s.now.serve_taken _ _).trans (List.append_nil _)

@[simp]
theorem after_logout_taken : (s.after .logout).wire.taken = s.wire.taken :=
  (s.now.serve_taken _ _).trans (List.append_nil _)

@[simp]
theorem after_move_taken (uids : List Nat) (destination : String) :
    (s.after (.move uids destination)).wire.taken =
      s.wire.taken ++ s.takes uids destination :=
  s.now.serve_taken _ _

end Scripted

end Imap

end MailPanel
