import Mathlib.Data.List.Perm.Subperm
import MailPanel.McpTrash

/-
The `mail_delete` tool: one delete operation for each message, and what is left of a call
that fails on one of its folders.
-/

namespace MailPanel

namespace Mcp

namespace Trash

open Imap

/- The operations -/

/-- What is recorded of a deletion: where the message was, where it is in the trash, and what is
needed to bring it back. -/
structure DeleteDetails where
  original : MessageRef
  trash : MessageRef
  messageId : Option String
  restorable : Bool
  restoredAt : Option Time
deriving DecidableEq, Repr

/-- An operation of the kind delete. -/
structure DeleteRow where
  id : Id
  connectionId : Id
  details : DeleteDetails
  createdAt : Time
deriving DecidableEq, Repr

/-- An operation of the kind restore. It names the deletion that it brings back, and the place
that the message was put to. -/
structure RestoreRow where
  id : Id
  connectionId : Id
  deleteOperationId : Id
  folder : String
  uid : Nat
  createdAt : Time
deriving DecidableEq, Repr

/-- The operations that move messages; the next one draws an id that none has, so that an id
names one operation for good. -/
structure Deletions where
  rows : List DeleteRow
  restorations : List RestoreRow
  nextId : Id
  distinct : (rows.map DeleteRow.id).Nodup
  below : ∀ row ∈ rows, row.id < nextId

namespace Deletions

def empty : Deletions :=
  ⟨[], [], 1, List.nodup_nil, fun _ hrow => absurd hrow List.not_mem_nil⟩

/-- The row that a moved message gets. -/
def deletion (table : Deletions) (connectionId : Id) (now : Time) (move : TrashMove) :
    DeleteRow :=
  ⟨table.nextId, connectionId,
    ⟨move.original, move.trash, move.messageId, decide (move.trash.uid > 0), none⟩, now⟩

def create (table : Deletions) (connectionId : Id) (now : Time) (move : TrashMove) :
    Deletions where
  rows := table.rows ++ [table.deletion connectionId now move]
  restorations := table.restorations
  nextId := table.nextId + 1
  distinct := by
    rw [List.map_append, List.map_singleton, List.nodup_append]
    refine ⟨table.distinct, List.nodup_singleton _, ?_⟩
    intro id hid other hother hsame
    obtain ⟨row, hrow, rfl⟩ := List.mem_map.mp hid
    rw [List.mem_singleton.mp hother] at hsame
    exact Nat.ne_of_lt (table.below row hrow) hsame
  below := by
    intro row hrow
    rcases List.mem_append.mp hrow with hold | hnew
    · exact Nat.lt_succ_of_lt (table.below row hold)
    · rw [List.mem_singleton.mp hnew]
      exact Nat.lt_succ_self _

end Deletions

/- The tool -/

/-- An id of the tool's input, and the message it decodes to. -/
structure GivenId where
  text : String
  ref : Option MessageRef
deriving DecidableEq, Repr

structure MovedMessage where
  id : MessageRef
  restoreId : Option Id
  trashId : Option MessageRef
deriving DecidableEq, Repr

def decodeIds : List GivenId → Except ToolError (List MessageRef)
  | [] => .ok []
  | id :: rest =>
      match id.ref with
      | none => .error (.toolFailure ("Message id " ++
          String.ofList (takeUnits 40 id.text.toList) ++ " is not valid."))
      | some ref => (decodeIds rest).map fun refs => ref :: refs

def DeleteRow.restoreId (row : DeleteRow) : Option Id :=
  if row.details.restorable then some row.id else none

def DeleteRow.answer (row : DeleteRow) : MovedMessage :=
  ⟨row.details.original, row.restoreId,
    if row.details.restorable then some row.details.trash else none⟩

/-- One operation for each move, in their order, and what is answered for each. They are written
after all folders are done. -/
def recordMoves (connectionId : Id) (now : Time) :
    List TrashMove → Deletions → Deletions × List MovedMessage
  | [], table => (table, [])
  | move :: rest, table =>
      let (after, moved) := recordMoves connectionId now rest (table.create connectionId now move)
      (after, (table.deletion connectionId now move).answer :: moved)

def mailDelete (connectionId : Id) (now : Time) (ids : List GivenId) (table : Deletions)
    (s : Scripted) : Except ToolError (List MovedMessage) × Deletions × Scripted :=
  match decodeIds ids with
  | .error error => (.error error, table, s)
  | .ok refs =>
      match (moveToTrash refs).run Scripted.serve s with
      | (.error error, after) => (.error (.mailError error.kind error.message), table, after)
      | (.ok moves, after) =>
          let (recorded, moved) := recordMoves connectionId now moves table
          (.ok moved, recorded, after)

/- What it should do -/

def spelling (folder : String) : String :=
  if isInbox folder then "INBOX" else folder

/-- A message by one name, however its folder is spelt. -/
def MessageRef.name (ref : MessageRef) : MessageRef :=
  { ref with folder := spelling ref.folder }

def takenName (taken : Taken) : MessageRef :=
  ⟨spelling taken.folder, toString taken.uidValidity, taken.uid⟩

/-- An operation of its own for each message that was moved, and an answer with its id, or
with none where the message cannot be restored. -/
def RecordsExactly (before after : Deletions) (taken : List Taken) (moved : List MovedMessage) :
    Prop :=
  ∃ added, after.rows = before.rows ++ added ∧
    (added.map fun row => row.details.original.name).Perm (taken.map takenName) ∧
    moved = added.map DeleteRow.answer

/-- A call that fails has moved nothing; one that answers has moved and recorded what it was
asked to. -/
def DeletesWhole (ids : List GivenId) (before : Deletions)
    (outcome : Except ToolError (List MovedMessage) × Deletions × Scripted) : Prop :=
  match outcome with
  | (.error _, after, s) => s.wire.taken = [] ∧ after.rows = before.rows
  | (.ok moved, after, s) =>
      (s.wire.taken.map takenName).Perm ((ids.filterMap GivenId.ref).map MessageRef.name) ∧
        RecordsExactly before after s.wire.taken moved

/- When it does -/

/-- The session as it comes to the MOVE of a folder. -/
def atMove (s : Scripted) (path : String) (uids : List Nat) : Scripted :=
  ((s.after .list).after (.select path)).after (.fetch uids)

/-- A folder passes every check before its MOVE: its name is safe, the server lists and selects
it, its validity is that of the references, and every message that they name is there. -/
structure Ready (trash : ListEntry) (folderName : String) (folderRefs : List MessageRef)
    (s : Scripted) (path : String) (uidValidity : Nat) (found : List Message) : Prop where
  safe : isSafeFolderName folderName = true
  listed : ∃ list entry, s.answer .list = .ok list ∧
    (list.filter isSelectable).find? (isFolder folderName) = some entry ∧ entry.path = path
  apart : path ≠ trash.path
  selected : (s.after .list).answer (.select path) = .ok (some uidValidity)
  current : ∀ ref ∈ folderRefs, ref.uidValidity = toString uidValidity
  fetched : ((s.after .list).after (.select path)).answer
    (.fetch (folderRefs.map MessageRef.uid)) = .ok found
  present : ∀ ref ∈ folderRefs, ref.uid ∈ found.map Message.uid

/-- The server says that it carried the MOVE out. -/
def Answered (s : Scripted) (uids : List Nat) (destination : String) : Prop :=
  ∃ copyUid, s.answer (.move uids destination) = .ok (some copyUid)

/-- No folder stops the call, none has a message named twice, and each MOVE takes every
message that it names. -/
def Whole (trash : ListEntry) : List (String × List MessageRef) → Scripted → Prop
  | [], _ => True
  | (folderName, folderRefs) :: rest, s =>
      let uids := folderRefs.map MessageRef.uid
      ∃ path uidValidity found, Ready trash folderName folderRefs s path uidValidity found ∧
        Answered (atMove s path uids) uids trash.path ∧ uids.Nodup ∧
        (∀ uid ∈ uids, uid ∈ ((atMove s path uids).takes uids trash.path).map Taken.uid) ∧
        Whole trash rest ((atMove s path uids).after (.move uids trash.path))

/-- A folder stops the call, and no MOVE has taken a message by then. Folders before it may have
been opened, and a MOVE may have taken none. -/
def Untouched (trash : ListEntry) : List (String × List MessageRef) → Scripted → Prop
  | [], _ => False
  | (folderName, folderRefs) :: rest, s =>
      let uids := folderRefs.map MessageRef.uid
      (∀ path uidValidity found, ¬Ready trash folderName folderRefs s path uidValidity found) ∨
        ∃ path uidValidity found, Ready trash folderName folderRefs s path uidValidity found ∧
          (atMove s path uids).takes uids trash.path = [] ∧
          (Answered (atMove s path uids) uids trash.path →
            Untouched trash rest ((atMove s path uids).after (.move uids trash.path)))

/-- The Trash folder, if the session opens and there is one. -/
def trash? (s : Scripted) : Option ListEntry :=
  match s.answer .connect, (s.after .connect).answer .list with
  | .ok (), .ok list => special "\\Trash" "Trash" (list.filter isSelectable)
  | _, _ => none

def StopsUntouched (refs : List MessageRef) (s : Scripted) : Prop :=
  ∀ trash, trash? s = some trash →
    Untouched trash (groupByFolder refs) ((s.after .connect).after .list)

def GoesThrough (refs : List MessageRef) (s : Scripted) : Prop :=
  ∃ trash, trash? s = some trash ∧
    Whole trash (groupByFolder refs) ((s.after .connect).after .list)

/- The session against the server -/

section Running

variable (s : Scripted)

@[simp]
theorem run_call (command : Command) :
    (call command).run Scripted.serve s =
      ((s.answer command).mapError .imap, s.after command) := by
  rw [call, Dialogue.run_asks]
  rfl

@[simp]
theorem run_refuse {Value : Type} (kind : MailErrorKind) (message : String) :
    (refuse kind message : Session Value).run Scripted.serve s =
      (.error (.mail ⟨kind, message⟩), s) :=
  rfl

theorem run_folders : folders.run Scripted.serve s =
    (((s.answer .list).mapError Thrown.imap).map (List.filter isSelectable), s.after .list) := by
  rw [folders, Dialogue.run_bind, run_call]
  cases s.answer .list with
  | ok list => rfl
  | error failure => rfl

/-- A folder is found, or the session throws. The list that the server answers decides, and
names that are not safe are not even looked for. -/
theorem run_requireFolder (folder : String) :
    (∃ entry list, isSafeFolderName folder = true ∧ s.answer .list = .ok list ∧
        (list.filter isSelectable).find? (isFolder folder) = some entry ∧
        (requireFolder folder).run Scripted.serve s = (.ok entry, s.after .list)) ∨
      ∃ thrown after, (requireFolder folder).run Scripted.serve s = (.error thrown, after) ∧
        after.wire.taken = s.wire.taken ∧
        ¬(isSafeFolderName folder = true ∧ ∃ list entry, s.answer .list = .ok list ∧
          (list.filter isSelectable).find? (isFolder folder) = some entry) := by
  rw [requireFolder]
  by_cases hsafe : isSafeFolderName folder = true
  · rw [if_pos hsafe, Dialogue.run_bind, run_folders]
    cases hanswer : s.answer .list with
    | error failure =>
        refine Or.inr ⟨_, _, rfl, s.after_list_taken, ?_⟩
        rintro ⟨-, list, entry, hlist, -⟩
        cases hlist
    | ok list =>
        dsimp only [Except.mapError, Except.map]
        cases hfind : (list.filter isSelectable).find? (isFolder folder) with
        | none =>
            refine Or.inr ⟨_, _, rfl, s.after_list_taken, ?_⟩
            rintro ⟨-, other, entry, hlist, hfound⟩
            obtain rfl := Except.ok.inj hlist
            rw [hfind] at hfound
            cases hfound
        | some entry => exact Or.inl ⟨entry, list, hsafe, rfl, hfind, rfl⟩
  · rw [if_neg hsafe]
    exact Or.inr ⟨_, _, rfl, rfl, fun h => hsafe h.1⟩

end Running

variable {trash : ListEntry} {folderName : String} {folderRefs : List MessageRef} {s : Scripted}

/-- What a folder that passes its checks leaves to the MOVE: all that can still go wrong is the
MOVE itself. -/
theorem run_moveFolder_of_ready {path : String} {uidValidity : Nat} {found : List Message}
    (hready : Ready trash folderName folderRefs s path uidValidity found) :
    let uids := folderRefs.map MessageRef.uid
    let after := (atMove s path uids).after (.move uids trash.path)
    (∃ moves, (moveFolder trash folderName folderRefs).run Scripted.serve s = (.ok moves, after) ∧
        moves.map TrashMove.original = folderRefs ∧
        Answered (atMove s path uids) uids trash.path) ∨
      ∃ thrown, (moveFolder trash folderName folderRefs).run Scripted.serve s =
          (.error thrown, after) ∧ ¬Answered (atMove s path uids) uids trash.path := by
  intro uids after
  obtain ⟨list, entry, hlist, hentry, rfl⟩ := hready.listed
  have hfolder : (requireFolder folderName).run Scripted.serve s = (.ok entry, s.after .list) := by
    rw [requireFolder, if_pos hready.safe, Dialogue.run_bind, run_folders, hlist]
    dsimp only [Except.mapError, Except.map]
    rw [hentry]
    rfl
  have hcurrent : (folderRefs.any fun ref => ref.uidValidity ≠ toString uidValidity) = false := by
    rw [List.any_eq_false]
    intro ref href
    simpa using hready.current ref href
  have hpresent : ((folderRefs.map MessageRef.uid).any fun uid =>
      uid ∉ found.map Message.uid) = false := by
    rw [List.any_eq_false]
    intro uid huid
    obtain ⟨ref, href, rfl⟩ := List.mem_map.mp huid
    simpa using hready.present ref href
  have hrun : (moveFolder trash folderName folderRefs).run Scripted.serve s =
      match (atMove s entry.path uids).answer (.move uids trash.path) with
      | .error failure => (.error (.imap failure), after)
      | .ok none => (.error (.mail
          ⟨.unavailable, "The mail server refused to move the messages."⟩), after)
      | .ok (some copyUid) => (.ok (folderRefs.map fun ref =>
          ⟨ref, trashPlace trash.path copyUid ref.uid, messageIdOf found ref.uid⟩), after) := by
    rw [moveFolder, Dialogue.run_bind, hfolder]
    dsimp only
    rw [if_neg hready.apart, Dialogue.run_bind, run_call, hready.selected]
    dsimp only [Except.mapError]
    rw [if_neg (by rw [hcurrent]; exact Bool.false_ne_true), Dialogue.run_bind, run_call,
      hready.fetched]
    dsimp only [Except.mapError]
    rw [if_neg (by rw [hpresent]; exact Bool.false_ne_true), Dialogue.run_bind, run_call]
    cases hmove : (atMove s entry.path uids).answer (.move uids trash.path) with
    | error failure =>
        rw [atMove] at hmove
        rw [hmove]
        rfl
    | ok moved =>
        rw [atMove] at hmove
        rw [hmove]
        cases moved with
        | none => rfl
        | some copyUid => rfl
  rw [hrun]
  cases hmove : (atMove s entry.path uids).answer (.move uids trash.path) with
  | error failure =>
      refine Or.inr ⟨_, rfl, ?_⟩
      rintro ⟨copyUid, hok⟩
      rw [hmove] at hok
      cases hok
  | ok moved =>
      cases moved with
      | none =>
          refine Or.inr ⟨_, rfl, ?_⟩
          rintro ⟨copyUid, hok⟩
          rw [hmove] at hok
          cases hok
      | some copyUid =>
          refine Or.inl ⟨_, rfl, ?_, copyUid, hmove⟩
          rw [List.map_map]
          exact List.map_id _

/-- A folder that does not pass its checks stops the call and moves nothing. -/
theorem run_moveFolder_of_not_ready
    (hnot : ∀ path uidValidity found,
      ¬Ready trash folderName folderRefs s path uidValidity found) :
    ∃ thrown after, (moveFolder trash folderName folderRefs).run Scripted.serve s =
      (.error thrown, after) ∧ after.wire.taken = s.wire.taken := by
  rw [moveFolder, Dialogue.run_bind]
  rcases run_requireFolder s folderName with
    ⟨entry, list, hsafe, hlist, hentry, hrun⟩ | ⟨thrown, after, hrun, htaken, -⟩
  · rw [hrun]
    dsimp only
    by_cases hapart : entry.path = trash.path
    · rw [if_pos hapart]
      exact ⟨_, _, rfl, s.after_list_taken⟩
    · rw [if_neg hapart, Dialogue.run_bind, run_call]
      cases hselect : (s.after .list).answer (.select entry.path) with
      | error failure => exact ⟨_, _, rfl, by simp⟩
      | ok selected =>
          dsimp only [Except.mapError]
          cases selected with
          | none => exact ⟨_, _, rfl, by simp⟩
          | some uidValidity =>
              dsimp only
              split
              · exact ⟨_, _, rfl, by simp⟩
              · rename_i hcurrent
                rw [Dialogue.run_bind, run_call]
                cases hfetch : ((s.after .list).after (.select entry.path)).answer
                    (.fetch (folderRefs.map MessageRef.uid)) with
                | error failure => exact ⟨_, _, rfl, by simp⟩
                | ok found =>
                    dsimp only [Except.mapError]
                    split
                    · exact ⟨_, _, rfl, by simp⟩
                    · rename_i hpresent
                      refine absurd ?_ (hnot entry.path uidValidity found)
                      refine ⟨hsafe, ⟨list, entry, hlist, hentry, rfl⟩, hapart, hselect, ?_,
                        hfetch, ?_⟩
                      · intro ref href
                        simp only [List.any_eq_true, decide_eq_true_eq, not_exists, not_and,
                          not_not] at hcurrent
                        exact hcurrent ref href
                      · intro ref href
                        simp only [List.any_eq_true, decide_eq_true_eq, not_exists, not_and,
                          not_not] at hpresent
                        exact hpresent ref.uid (List.mem_map_of_mem href)
  · rw [hrun]
    exact ⟨thrown, after, rfl, htaken⟩

/- What the MOVE of a folder takes -/

theorem selected_atMove {path : String} {uidValidity : Nat} {found : List Message}
    (hready : Ready trash folderName folderRefs s path uidValidity found) :
    (atMove s path (folderRefs.map MessageRef.uid)).now.selected = some ⟨path, uidValidity⟩ := by
  have hselected := (s.after .list).now.serve_select hready.selected
  have hkept := ((s.after .list).after (.select path)).now.serve_fetch_selected
    (((s.after .list).after (.select path)).script.headD Event.calm).turn
    (folderRefs.map MessageRef.uid)
  exact hkept.trans hselected

section Takes

variable {path : String} {uidValidity : Nat} {found : List Message}
  (hready : Ready trash folderName folderRefs s path uidValidity found)
  (hnamed : ∀ ref ∈ folderRefs, ref.folder = folderName)

include hready

theorem takes_names :
    ((atMove s path (folderRefs.map MessageRef.uid)).takes (folderRefs.map MessageRef.uid)
        trash.path).map takenName =
      (((atMove s path (folderRefs.map MessageRef.uid)).takes (folderRefs.map MessageRef.uid)
        trash.path).map Taken.uid).map fun uid => ⟨spelling path, toString uidValidity, uid⟩ := by
  rw [List.map_map]
  apply List.map_congr_left
  intro taken htaken
  have hfrom := (Wire.mem_takes _ htaken).2
  rw [selected_atMove hready] at hfrom
  obtain ⟨hpath, hvalidity⟩ := Selected.mk.inj (Option.some.inj hfrom)
  rw [takenName, ← hpath, ← hvalidity]
  rfl

include hnamed

theorem refs_names :
    folderRefs.map MessageRef.name = (folderRefs.map MessageRef.uid).map
      fun uid => ⟨spelling path, toString uidValidity, uid⟩ := by
  obtain ⟨list, entry, -, hentry, rfl⟩ := hready.listed
  have hfolder : isFolder folderName entry = true := List.find?_some hentry
  have hspelling : spelling folderName = spelling entry.path := by
    rw [isFolder, Bool.or_eq_true, decide_eq_true_eq, Bool.and_eq_true] at hfolder
    rcases hfolder with hsame | ⟨hname, hpath⟩
    · rw [hsame]
    · rw [spelling, spelling, if_pos hname, if_pos hpath]
  rw [List.map_map]
  apply List.map_congr_left
  intro ref href
  rw [MessageRef.name, hnamed ref href, hspelling, Function.comp_apply, ← hready.current ref href]

end Takes

theorem takes_subperm (s : Scripted) (uids : List Nat) (destination : String) :
    List.Subperm ((s.takes uids destination).map Taken.uid) uids := by
  apply List.Nodup.subperm (s.now.takes_nodup uids destination _)
  intro uid huid
  obtain ⟨taken, htaken, rfl⟩ := List.mem_map.mp huid
  exact (s.now.mem_takes htaken).1

/-- All of a folder's messages are taken, and none is named twice, when as many are taken as
are named. -/
theorem takes_perm_iff (s : Scripted) (uids : List Nat) (destination : String) :
    (uids.Nodup ∧ ∀ uid ∈ uids, uid ∈ (s.takes uids destination).map Taken.uid) ↔
      ((s.takes uids destination).map Taken.uid).Perm uids := by
  have hsub := takes_subperm s uids destination
  constructor
  · rintro ⟨hnodup, hall⟩
    exact hsub.antisymm (hnodup.subperm hall)
  · intro hperm
    refine ⟨hperm.nodup_iff.mp (s.now.takes_nodup uids destination _), ?_⟩
    intro uid huid
    exact hperm.mem_iff.mpr huid

/- The folders, one after the other -/

section Ready

variable {path : String} {uidValidity : Nat} {found : List Message}
  (hready : Ready trash folderName folderRefs s path uidValidity found)
  (rest : List (String × List MessageRef))

include hready

theorem Ready.path_eq {other : String} {otherValidity : Nat} {otherFound : List Message}
    (hother : Ready trash folderName folderRefs s other otherValidity otherFound) :
    path = other := by
  obtain ⟨list, entry, hlist, hentry, rfl⟩ := hready.listed
  obtain ⟨list', entry', hlist', hentry', rfl⟩ := hother.listed
  rw [hlist] at hlist'
  obtain rfl := Except.ok.inj hlist'
  rw [hentry] at hentry'
  rw [Option.some.inj hentry']

theorem whole_cons : Whole trash ((folderName, folderRefs) :: rest) s ↔
    Answered (atMove s path (folderRefs.map MessageRef.uid)) (folderRefs.map MessageRef.uid)
        trash.path ∧
      (((atMove s path (folderRefs.map MessageRef.uid)).takes (folderRefs.map MessageRef.uid)
        trash.path).map Taken.uid).Perm (folderRefs.map MessageRef.uid) ∧
      Whole trash rest ((atMove s path (folderRefs.map MessageRef.uid)).after
        (.move (folderRefs.map MessageRef.uid) trash.path)) := by
  rw [← takes_perm_iff]
  constructor
  · rintro ⟨other, otherValidity, otherFound, hother, hanswered, hnodup, hall, hrest⟩
    obtain rfl := hready.path_eq hother
    exact ⟨hanswered, ⟨hnodup, hall⟩, hrest⟩
  · rintro ⟨hanswered, ⟨hnodup, hall⟩, hrest⟩
    exact ⟨path, uidValidity, found, hready, hanswered, hnodup, hall, hrest⟩

theorem untouched_cons : Untouched trash ((folderName, folderRefs) :: rest) s ↔
    (atMove s path (folderRefs.map MessageRef.uid)).takes (folderRefs.map MessageRef.uid)
        trash.path = [] ∧
      (Answered (atMove s path (folderRefs.map MessageRef.uid)) (folderRefs.map MessageRef.uid)
          trash.path →
        Untouched trash rest ((atMove s path (folderRefs.map MessageRef.uid)).after
          (.move (folderRefs.map MessageRef.uid) trash.path))) := by
  constructor
  · rintro (hnever | ⟨other, otherValidity, otherFound, hother, hnone, hrest⟩)
    · exact absurd hready (hnever path uidValidity found)
    · obtain rfl := hready.path_eq hother
      exact ⟨hnone, hrest⟩
  · rintro ⟨hnone, hrest⟩
    exact Or.inr ⟨path, uidValidity, found, hready, hnone, hrest⟩

end Ready

/-- The messages of all folders. -/
def allRefs (groups : List (String × List MessageRef)) : List MessageRef :=
  groups.flatMap Prod.snd

theorem allRefs_cons (folderName : String) (folderRefs : List MessageRef)
    (rest : List (String × List MessageRef)) :
    allRefs ((folderName, folderRefs) :: rest) = folderRefs ++ allRefs rest :=
  rfl

/-- What a run over the folders comes to, in one go: it throws with some messages moved already,
or returns one move for each reference, and the conditions say which. -/
inductive FoldersEnd (trash : ListEntry) (groups : List (String × List MessageRef))
    (moves : List TrashMove) (s : Scripted) : Except Thrown (List TrashMove) × Scripted → Prop
  | threw (thrown : Thrown) (after : Scripted) (taken : List Taken)
      (htaken : after.wire.taken = s.wire.taken ++ taken) (hnot : ¬Whole trash groups s)
      (hnone : Untouched trash groups s ↔ taken = []) :
      FoldersEnd trash groups moves s (.error thrown, after)
  | returned (more : List TrashMove) (after : Scripted) (taken : List Taken)
      (hmoves : more.map TrashMove.original = allRefs groups)
      (htaken : after.wire.taken = s.wire.taken ++ taken) (hnot : ¬Untouched trash groups s)
      (hlength : taken.length ≤ (allRefs groups).length)
      (hall : Whole trash groups s →
        (taken.map takenName).Perm ((allRefs groups).map MessageRef.name))
      (hwhole : taken.length = (allRefs groups).length → Whole trash groups s) :
      FoldersEnd trash groups moves s (.ok (moves ++ more), after)

theorem taken_after_move (s : Scripted) (path : String) (uids : List Nat)
    (destination : String) :
    ((atMove s path uids).after (.move uids destination)).wire.taken =
      s.wire.taken ++ (atMove s path uids).takes uids destination := by
  simp [atMove]

/-- The end of a run whose first folder was moved, from the end of the rest. -/
theorem foldersEnd_of_answered {path : String} {uidValidity : Nat} {found : List Message}
    {rest : List (String × List MessageRef)} {moves moved : List TrashMove}
    {outcome : Except Thrown (List TrashMove) × Scripted}
    (hready : Ready trash folderName folderRefs s path uidValidity found)
    (hnamed : ∀ ref ∈ folderRefs, ref.folder = folderName)
    (hmoved : moved.map TrashMove.original = folderRefs)
    (hanswered : Answered (atMove s path (folderRefs.map MessageRef.uid))
      (folderRefs.map MessageRef.uid) trash.path)
    (hrest : FoldersEnd trash rest (moves ++ moved)
      ((atMove s path (folderRefs.map MessageRef.uid)).after
        (.move (folderRefs.map MessageRef.uid) trash.path)) outcome) :
    FoldersEnd trash ((folderName, folderRefs) :: rest) moves s outcome := by
  have hnow := taken_after_move s path (folderRefs.map MessageRef.uid) trash.path
  have hsub := takes_subperm (atMove s path (folderRefs.map MessageRef.uid))
    (folderRefs.map MessageRef.uid) trash.path
  have hwhole := whole_cons hready rest
  have huntouched := untouched_cons hready rest
  have hnames := takes_names hready
  generalize (atMove s path (folderRefs.map MessageRef.uid)).takes
    (folderRefs.map MessageRef.uid) trash.path = first at hnow hsub hwhole huntouched hnames
  cases hrest with
  | threw thrown after taken htaken hnot hnone =>
      refine .threw thrown after (first ++ taken) ?_ ?_ ?_
      · rw [htaken, hnow, List.append_assoc]
      · rw [hwhole]
        exact fun h => hnot h.2.2
      · rw [huntouched, List.append_eq_nil_iff, ← hnone]
        exact ⟨fun h => ⟨h.1, h.2 hanswered⟩, fun h => ⟨h.1, fun _ => h.2⟩⟩
  | returned more after taken hmoves htaken hnot hlength hall hlong =>
      have hfirst : first.length ≤ folderRefs.length := by
        have hle := hsub.length_le
        rw [List.length_map, List.length_map] at hle
        exact hle
      rw [List.append_assoc]
      refine .returned (moved ++ more) after (first ++ taken) ?_ ?_ ?_ ?_ ?_ ?_
      · rw [List.map_append, hmoved, hmoves, allRefs_cons]
      · rw [htaken, hnow, List.append_assoc]
      · rw [huntouched]
        exact fun h => hnot (h.2 hanswered)
      · rw [allRefs_cons, List.length_append, List.length_append]
        exact Nat.add_le_add hfirst hlength
      · intro h
        obtain ⟨-, hperm, hafter⟩ := hwhole.mp h
        rw [allRefs_cons, List.map_append, List.map_append]
        refine List.Perm.append ?_ (hall hafter)
        rw [hnames, refs_names hready hnamed]
        exact hperm.map _
      · intro hsame
        rw [allRefs_cons, List.length_append, List.length_append] at hsame
        refine hwhole.mpr ⟨hanswered, ?_, hlong (by omega)⟩
        apply hsub.perm_of_length_le
        rw [List.length_map, List.length_map]
        omega

theorem moveFolders_end (trash : ListEntry) (groups : List (String × List MessageRef))
    (hnamed : ∀ group ∈ groups, ∀ ref ∈ group.2, ref.folder = group.1)
    (moves : List TrashMove) (s : Scripted) :
    FoldersEnd trash groups moves s ((moveFolders trash groups moves).run Scripted.serve s) := by
  induction groups generalizing moves s with
  | nil =>
      have hrun : (moveFolders trash [] moves).run Scripted.serve s = (.ok (moves ++ []), s) := by
        rw [List.append_nil]
        rfl
      rw [hrun]
      exact .returned [] s [] rfl (List.append_nil _).symm id (Nat.le_refl 0)
        (fun _ => List.Perm.nil) fun _ => trivial
  | cons group rest ih =>
      obtain ⟨folderName, folderRefs⟩ := group
      have hrest : ∀ group ∈ rest, ∀ ref ∈ group.2, ref.folder = group.1 :=
        fun group hgroup => hnamed group (List.mem_cons_of_mem _ hgroup)
      have hhere : ∀ ref ∈ folderRefs, ref.folder = folderName :=
        hnamed (folderName, folderRefs) List.mem_cons_self
      by_cases hready : ∃ path uidValidity found,
          Ready trash folderName folderRefs s path uidValidity found
      · obtain ⟨path, uidValidity, found, hready⟩ := hready
        rcases run_moveFolder_of_ready hready with
          ⟨moved, hrun, hmoved, hanswered⟩ | ⟨thrown, hrun, hrefused⟩
        · rw [moveFolders, Dialogue.run_bind, hrun]
          exact foldersEnd_of_answered hready hhere hmoved hanswered (ih hrest _ _)
        · rw [moveFolders, Dialogue.run_bind, hrun]
          refine .threw thrown _ _ (taken_after_move s path _ trash.path) ?_ ?_
          · rw [whole_cons hready rest]
            exact fun h => hrefused h.1
          · rw [untouched_cons hready rest]
            exact ⟨And.left, fun hnone => ⟨hnone, fun h => absurd h hrefused⟩⟩
      · have hnever : ∀ path uidValidity found,
            ¬Ready trash folderName folderRefs s path uidValidity found :=
          fun path uidValidity found h => hready ⟨path, uidValidity, found, h⟩
        obtain ⟨thrown, after, hrun, htaken⟩ := run_moveFolder_of_not_ready hnever
        rw [moveFolders, Dialogue.run_bind, hrun]
        refine .threw thrown after [] (htaken.trans (List.append_nil _).symm) ?_ ?_
        · rintro ⟨path, uidValidity, found, h, -⟩
          exact hnever path uidValidity found h
        · exact ⟨fun _ => rfl, fun _ => Or.inl hnever⟩

theorem named_addToFolder {groups : List (String × List MessageRef)}
    (hnamed : ∀ group ∈ groups, ∀ ref ∈ group.2, ref.folder = group.1) (ref : MessageRef) :
    ∀ group ∈ addToFolder groups ref, ∀ other ∈ group.2, other.folder = group.1 := by
  induction groups with
  | nil =>
      intro group hgroup other hother
      rw [addToFolder, List.mem_singleton] at hgroup
      subst hgroup
      rw [List.mem_singleton.mp hother]
  | cons first rest ih =>
      have hrest := ih fun group hgroup => hnamed group (List.mem_cons_of_mem _ hgroup)
      intro group hgroup other hother
      rw [addToFolder] at hgroup
      split at hgroup
      · rename_i hsame
        rcases List.mem_cons.mp hgroup with rfl | hlater
        · rcases List.mem_append.mp hother with hold | hnew
          · exact hnamed first List.mem_cons_self other hold
          · rw [List.mem_singleton.mp hnew]
            exact hsame.symm
        · exact hnamed group (List.mem_cons_of_mem _ hlater) other hother
      · rcases List.mem_cons.mp hgroup with rfl | hlater
        · exact hnamed first List.mem_cons_self other hother
        · exact hrest group hlater other hother

theorem allRefs_addToFolder (groups : List (String × List MessageRef)) (ref : MessageRef) :
    (allRefs (addToFolder groups ref)).Perm (ref :: allRefs groups) := by
  induction groups with
  | nil => exact List.Perm.refl _
  | cons first rest ih =>
      obtain ⟨folderName, folderRefs⟩ := first
      rw [addToFolder, allRefs_cons]
      split
      · rw [allRefs_cons, List.append_assoc]
        exact List.perm_middle
      · rw [allRefs_cons]
        exact (ih.append_left folderRefs).trans List.perm_middle

theorem groupByFolder_named (refs : List MessageRef) :
    ∀ group ∈ groupByFolder refs, ∀ ref ∈ group.2, ref.folder = group.1 := by
  have hfold : ∀ groups : List (String × List MessageRef),
      (∀ group ∈ groups, ∀ ref ∈ group.2, ref.folder = group.1) →
        ∀ group ∈ refs.foldl addToFolder groups, ∀ ref ∈ group.2, ref.folder = group.1 := by
    induction refs with
    | nil => exact fun groups hnamed => hnamed
    | cons ref rest ih => exact fun groups hnamed => ih _ (named_addToFolder hnamed ref)
  exact hfold [] fun group hgroup => absurd hgroup List.not_mem_nil

theorem groupByFolder_perm (refs : List MessageRef) :
    (allRefs (groupByFolder refs)).Perm refs := by
  have hfold : ∀ groups : List (String × List MessageRef),
      (allRefs (refs.foldl addToFolder groups)).Perm (allRefs groups ++ refs) := by
    induction refs with
    | nil =>
        intro groups
        rw [List.append_nil]
        exact List.Perm.refl _
    | cons ref rest ih =>
        intro groups
        have hadded := (allRefs_addToFolder groups ref).append_right rest
        exact (ih _).trans (hadded.trans List.perm_middle.symm)
  exact hfold []

/- The whole call -/

theorem decodeIds_cases (ids : List GivenId) :
    (∃ error, decodeIds ids = .error error ∧ ∃ id ∈ ids, id.ref = none) ∨
      decodeIds ids = .ok (ids.filterMap GivenId.ref) ∧ ∀ id ∈ ids, id.ref ≠ none := by
  induction ids with
  | nil => exact Or.inr ⟨rfl, fun _ hid => absurd hid List.not_mem_nil⟩
  | cons id rest ih =>
      rw [decodeIds]
      cases href : id.ref with
      | none => exact Or.inl ⟨_, rfl, id, List.mem_cons_self, href⟩
      | some ref =>
          rcases ih with ⟨error, hrest, other, hother, hnone⟩ | ⟨hrest, hall⟩
          · rw [hrest]
            exact Or.inl ⟨error, rfl, other, List.mem_cons_of_mem _ hother, hnone⟩
          · rw [hrest, List.filterMap_cons_some href]
            refine Or.inr ⟨rfl, ?_⟩
            intro other hother
            rcases List.mem_cons.mp hother with rfl | hlater
            · rw [href]
              exact Option.some_ne_none ref
            · exact hall other hlater

theorem recordMoves_rows (connectionId : Id) (now : Time) (moves : List TrashMove)
    (table : Deletions) :
    ∃ added, (recordMoves connectionId now moves table).1.rows = table.rows ++ added ∧
      added.map (fun row => row.details.original) = moves.map TrashMove.original ∧
      (recordMoves connectionId now moves table).2 = added.map DeleteRow.answer := by
  induction moves generalizing table with
  | nil => exact ⟨[], (List.append_nil _).symm, rfl, rfl⟩
  | cons move rest ih =>
      obtain ⟨added, hrows, horiginal, hanswers⟩ := ih (table.create connectionId now move)
      refine ⟨table.deletion connectionId now move :: added, ?_, ?_, ?_⟩
      · rw [recordMoves]
        dsimp only
        rw [hrows, Deletions.create, List.append_assoc]
        rfl
      · rw [List.map_cons, List.map_cons, horiginal]
        rfl
      · rw [recordMoves]
        dsimp only
        rw [hanswers]
        rfl

theorem run_withImap {Value : Type} (fn : Session Value) (s : Scripted) :
    (withImap fn).run Scripted.serve s =
      match s.answer .connect with
      | .error failure => (.error (classifyImapError (.imap failure)), s.after .connect)
      | .ok () =>
          ((fn.run Scripted.serve (s.after .connect)).1.mapError classifyImapError,
            (fn.run Scripted.serve (s.after .connect)).2.after .logout) := by
  rw [withImap, Dialogue.run_mapError, Dialogue.run_bind, run_call]
  cases s.answer .connect with
  | error failure => rfl
  | ok opened =>
      dsimp only [Except.mapError]
      rw [Dialogue.run_closing]
      rfl

/-- The whole session, from the run over its folders: without a trash folder nothing is moved,
and with one the folders are moved one after the other. -/
theorem run_moveToTrash (refs : List MessageRef) (s : Scripted) :
    (trash? s = none ∧ ∃ error after, (moveToTrash refs).run Scripted.serve s =
        (.error error, after) ∧ after.wire.taken = s.wire.taken) ∨
      ∃ trash, trash? s = some trash ∧
        (moveToTrash refs).run Scripted.serve s =
          let outcome := (moveFolders trash (groupByFolder refs) []).run Scripted.serve
            ((s.after .connect).after .list)
          (outcome.1.mapError classifyImapError, outcome.2.after .logout) := by
  rw [moveToTrash, run_withImap, trash?]
  cases hconnect : s.answer .connect with
  | error failure => exact Or.inl ⟨rfl, _, _, rfl, s.after_connect_taken⟩
  | ok opened =>
      cases hlist : (s.after .connect).answer .list with
      | error failure =>
          refine Or.inl ⟨rfl, ?_⟩
          rw [moveAll, Dialogue.run_bind, findSpecial, Dialogue.run_bind, run_folders, hlist]
          dsimp only [Except.mapError, Except.map]
          exact ⟨_, _, rfl, by simp⟩
      | ok list =>
          have hspecial : (findSpecial "\\Trash" "Trash").run Scripted.serve (s.after .connect) =
              (.ok (special "\\Trash" "Trash" (list.filter isSelectable)),
                (s.after .connect).after .list) := by
            rw [findSpecial, Dialogue.run_bind, run_folders, hlist]
            rfl
          dsimp only
          rw [moveAll, Dialogue.run_bind, hspecial]
          dsimp only
          cases special "\\Trash" "Trash" (list.filter isSelectable) with
          | none => exact Or.inl ⟨rfl, _, _, rfl, by simp⟩
          | some trash => exact Or.inr ⟨trash, rfl, rfl⟩

/-- Every call, whatever the mailbox is and whatever becomes of its commands: it leaves nothing
half done exactly if something stops it before a MOVE takes a message, or nothing stops it, no
message is named twice, and every MOVE takes what it names. Each folder has a MOVE of its own,
and a failure at a later folder does not bring back what an earlier one has moved. -/
theorem mailDelete_whole_iff (connectionId : Id) (now : Time) (ids : List GivenId)
    (table : Deletions) (mailbox : Mailbox) (script : List Imap.Event) :
    let start := Scripted.start mailbox script
    DeletesWhole ids table (mailDelete connectionId now ids table start) ↔
      (∃ id ∈ ids, id.ref = none) ∨ StopsUntouched (ids.filterMap GivenId.ref) start ∨
        GoesThrough (ids.filterMap GivenId.ref) start := by
  intro start
  rw [mailDelete]
  rcases decodeIds_cases ids with ⟨error, hdecode, hnone⟩ | ⟨hdecode, hall⟩
  · rw [hdecode]
    exact ⟨fun _ => Or.inl hnone, fun _ => ⟨rfl, rfl⟩⟩
  rw [hdecode]
  have hdecoded : ¬∃ id ∈ ids, id.ref = none := by
    rintro ⟨id, hid, hnone⟩
    exact hall id hid hnone
  rw [or_iff_right hdecoded]
  obtain ⟨refs, hrefs⟩ : ∃ refs, ids.filterMap GivenId.ref = refs := ⟨_, rfl⟩
  rw [hrefs]
  dsimp only
  rcases run_moveToTrash refs start with
    ⟨htrash, error, after, hrun, htaken⟩ | ⟨trash, htrash, hrun⟩
  · rw [hrun]
    refine ⟨fun _ => Or.inl ?_, fun _ => ⟨htaken, rfl⟩⟩
    intro trash hsome
    rw [htrash] at hsome
    cases hsome
  · have hend := moveFolders_end trash (groupByFolder refs) (groupByFolder_named refs)
      [] ((start.after .connect).after .list)
    have huntouched : StopsUntouched refs start ↔
        Untouched trash (groupByFolder refs) ((start.after .connect).after .list) := by
      constructor
      · exact fun h => h trash htrash
      · intro h other hother
        rw [htrash] at hother
        rw [← Option.some.inj hother]
        exact h
    have hwhole : GoesThrough refs start ↔
        Whole trash (groupByFolder refs) ((start.after .connect).after .list) := by
      constructor
      · rintro ⟨other, hother, h⟩
        rw [htrash] at hother
        rw [Option.some.inj hother]
        exact h
      · exact fun h => ⟨trash, htrash, h⟩
    have hbegin : ((start.after .connect).after .list).wire.taken = [] := by
      rw [Scripted.after_list_taken, Scripted.after_connect_taken]
      rfl
    rw [hrun, huntouched, hwhole]
    generalize (moveFolders trash (groupByFolder refs) []).run Scripted.serve
      ((start.after .connect).after .list) = outcome at hend
    cases hend with
    | threw thrown after taken htaken hnot hnone =>
        rw [hbegin, List.nil_append] at htaken
        rw [hnone, or_iff_left hnot]
        dsimp only [Except.mapError, DeletesWhole]
        rw [Scripted.after_logout_taken, htaken]
        exact and_iff_left rfl
    | returned more after taken hmoves htaken hnot hlength hwholePerm hwholeLength =>
        rw [hbegin, List.nil_append] at htaken
        rw [or_iff_right hnot]
        dsimp only [Except.mapError, DeletesWhole]
        rw [Scripted.after_logout_taken, htaken, List.nil_append, hrefs]
        have hperm := groupByFolder_perm refs
        constructor
        · rintro ⟨hnames, -⟩
          apply hwholeLength
          rw [hperm.length_eq]
          have hsame := hnames.length_eq
          rw [List.length_map, List.length_map] at hsame
          exact hsame
        · intro h
          have hnames := hwholePerm h
          obtain ⟨added, hrows, horiginal, hanswers⟩ :=
            recordMoves_rows connectionId now more table
          refine ⟨hnames.trans (hperm.map _), added, hrows, ?_, hanswers⟩
          have hadded : (added.map fun row => row.details.original.name) =
              (allRefs (groupByFolder refs)).map MessageRef.name := by
            rw [← hmoves, ← horiginal, List.map_map]
            rfl
          rw [hadded]
          exact hnames.symm

/- A call over two folders of a mailbox that nobody else uses. -/
namespace TwoFolders

def folder (path : String) (specialUse : Option String) (uidValidity uid : Nat) : Folder where
  path := path
  flags := []
  specialUse := specialUse
  uidValidity := uidValidity
  uidNext := uid + 1
  messages := [⟨uid, none⟩]
  distinct := List.nodup_singleton uid
  below := by
    intro message hmessage
    rw [List.mem_singleton.mp hmessage]
    exact Nat.lt_succ_self uid

def mailbox : Mailbox where
  folders := [folder "INBOX" none 1 1, folder "Work" none 2 2, folder "Trash" (some "\\Trash") 3 3]
  distinct := by decide

/-- A reference as the tool is given it, and the message that it spells. -/
def given (text folder uidValidity : String) (uid : Nat) : GivenId :=
  ⟨text, some ⟨folder, uidValidity, uid⟩⟩

example : (mailDelete 1 1000
    [given "m1.SU5CT1g.1.1" "INBOX" "1" 1, given "m1.V29yaw.2.2" "Work" "2" 2] Deletions.empty
    (Scripted.start mailbox [])).2.1.rows.map DeleteRow.restoreId = [some 1, some 2] := by
  decide

/-- The second folder has no message 9 any more. -/
def ids : List GivenId :=
  [given "m1.SU5CT1g.1.1" "INBOX" "1" 1, given "m1.V29yaw.2.9" "Work" "2" 9]

/-- Two messages in two folders. The first is moved to Trash, the second no longer exists, and
the call reports a failure without a record of what it has moved. -/
theorem failed_delete_moves_first :
    ¬DeletesWhole ids Deletions.empty
      (mailDelete 1 1000 ids Deletions.empty (Scripted.start mailbox [])) := by
  have hthrew : (mailDelete 1 1000 ids Deletions.empty (Scripted.start mailbox [])).1 =
      .error (.mailError .notFound
        "One or more messages no longer exist; nothing was moved.") := by decide
  have htaken : (mailDelete 1 1000 ids Deletions.empty
      (Scripted.start mailbox [])).2.2.wire.taken.map Taken.uid = [1] := by decide
  generalize mailDelete 1 1000 ids Deletions.empty (Scripted.start mailbox []) = outcome
    at hthrew htaken ⊢
  obtain ⟨result, table, after⟩ := outcome
  obtain rfl : result = _ := hthrew
  rintro ⟨hnone, -⟩
  rw [hnone] at htaken
  cases htaken

end TwoFolders

end Trash

end Mcp

end MailPanel
