import MailPanel.S3Versions

/-
Deletion of a key in a bucket that keeps versions: nothing of the key is left, and nothing of
another key is touched.
-/

namespace MailPanel

namespace S3

open XmlText

/-- The version is one of the key. -/
def Version.Of (version : Version) (p : Provider) (key : Text) : Prop :=
  version.place = (p.bucket, key)

/-- What a deletion leaves: every version of another key, no version of this key where it
succeeds, and where the listing has too many pages, an error and the content as it was. -/
structure Precise {p : Provider} (s : Situation p) (key : Text)
    (result : Except AppError Unit × State) : Prop where
  others : ∀ version ∈ s.content.versions, ¬version.Of p key →
    version ∈ result.2.content.versions
  gone : result.1 = .ok () → ∀ version ∈ result.2.content.versions, ¬version.Of p key
  bounded : s.listingRefused = none → Truncates s key maxVersionListPages none none →
    result.1 = .error (tooManyPages key) ∧ result.2.content = s.content

/-- Requests for the key are refused as a whole, or reach nothing but the key; then the key is
also read as it was written. -/
def Addressed (p : Provider) (key : Text) : Prop :=
  match p.address key with
  | .refused => True
  | .elsewhere => p.markup.read key = key
  | .object place => place = (p.bucket, key) ∧ p.markup.read key = key

def Situation.start {p : Provider} (s : Situation p) : State := ⟨s.content, 0⟩

/- What a deletion reaches -/

section Reach

variable {p : Provider} (s : Situation p) (key : Text) {state : State} {version : Version}

namespace Content

variable {content : Content} {place : Text × Text} {id : Text}

theorem mem_keep {kept : Version → Bool} :
    version ∈ (content.keep kept).versions ↔ version ∈ content.versions ∧ kept version = true :=
  List.mem_filter

theorem mem_removeVersion : version ∈ (content.removeVersion place id).versions ↔
    version ∈ content.versions ∧ ¬(version.place = place ∧ version.id = id) := by
  rw [removeVersion, mem_keep, decide_eq_true_eq]

theorem mem_removePlain_of_ne (hversion : version ∈ content.versions)
    (hplace : version.place ≠ place) : version ∈ (content.removePlain place).versions := by
  rw [removePlain]
  split
  · exact mem_keep.mpr ⟨hversion, decide_eq_true hplace⟩
  · exact List.mem_cons_of_mem _ hversion
  · refine List.mem_cons_of_mem _ (mem_removeVersion.mpr ⟨hversion, ?_⟩)
    exact fun hboth => hplace hboth.1

theorem mem_remove_of_ne {id : Option Text} (hversion : version ∈ content.versions)
    (hplace : version.place ≠ place) : version ∈ (content.remove place id).versions := by
  cases id with
  | none => exact mem_removePlain_of_ne hversion hplace
  | some id => exact mem_removeVersion.mpr ⟨hversion, fun hboth => hplace hboth.1⟩

end Content

/-- The version does not stand where requests for the key lead. -/
def Aside (p : Provider) (key : Text) (version : Version) : Prop :=
  ∀ place, p.address key = .object place → version.place ≠ place

theorem sendDelete_keeps (versionId : Option Text) (haside : Aside p key version)
    (hversion : version ∈ state.content.versions) :
    version ∈ (s.sendDelete key versionId state).2.content.versions := by
  rw [Situation.sendDelete]
  split
  · exact hversion
  · cases s.deletionRefused state.sent with
    | some response => exact hversion
    | none =>
        dsimp only
        split
        · rename_i haddress
          exact Content.mem_remove_of_ne hversion (haside _ haddress)
        · exact hversion

theorem deletePlain_keeps (haside : Aside p key version)
    (hversion : version ∈ state.content.versions) :
    version ∈ (deletePlain s key state).2.content.versions := by
  have hkept := sendDelete_keeps s key none haside hversion
  rw [deletePlain]
  split
  · exact hkept
  · exact hkept

theorem deleteObject_keeps (versionId : Text) (haside : Aside p key version)
    (hversion : version ∈ state.content.versions) :
    version ∈ (deleteObject s key versionId state).2.content.versions := by
  have hkept := sendDelete_keeps s key (some versionId) haside hversion
  rw [deleteObject]
  split
  · exact hkept
  · split
    · exact deletePlain_keeps s key haside hkept
    · exact hkept

theorem deleteObjects_keeps (versionIds : List Text) (haside : Aside p key version)
    (hversion : version ∈ state.content.versions) :
    version ∈ (deleteObjects s key versionIds state).2.content.versions := by
  induction versionIds generalizing state with
  | nil => exact hversion
  | cons versionId rest ih =>
      have hkept := deleteObject_keeps s key versionId haside hversion
      rw [deleteObjects]
      split
      · rename_i heq
        rw [heq] at hkept
        exact ih hkept
      · rename_i heq
        rw [heq] at hkept
        exact hkept

theorem verifyGone_state : (verifyGone s key state).2 = state := by
  rw [verifyGone]
  split
  · rfl
  · rfl
  · split
    · rfl
    · rfl

/-- A deletion touches nothing but what stands where requests for the key lead. -/
theorem delete_keeps (haside : Aside p key version)
    (hversion : version ∈ state.content.versions) :
    version ∈ (delete s key state).2.content.versions := by
  have hplain := deletePlain_keeps s key haside hversion
  rw [delete]
  split
  · exact hversion
  · exact hplain
  · split
    · exact hplain
    · exact hversion
  · rename_i versionIds _ _
    have hkept := deleteObjects_keeps s key versionIds haside hversion
    split
    · rename_i heq
      rw [heq] at hkept
      exact hkept
    · rename_i heq
      rw [heq] at hkept
      rw [verifyGone_state]
      exact hkept

end Reach

/- What a deletion leaves of the key -/

section Gone

variable {p : Provider} (s : Situation p) {key : Text} {state : State}

theorem exact_eq_nil_iff {content : Content} : content.exact p.bucket key = [] ↔
    ∀ version ∈ content.versions, ¬version.Of p key := by
  rw [List.eq_nil_iff_forall_not_mem]
  constructor
  · intro hnone version hversion hplace
    exact hnone version (Content.mem_exact.mpr ⟨hversion, hplace⟩)
  · intro hnone version hmem
    obtain ⟨hversion, hplace⟩ := Content.mem_exact.mp hmem
    exact hnone version hversion hplace

theorem holds_none {content : Content} {place : Text × Text} {id : Option Text}
    (hnone : ∀ version ∈ content.versions, version.place ≠ place) :
    content.holds place id = false := by
  cases id with
  | none =>
      have hfind : content.versions.find? (fun version => version.place = place) = none := by
        rw [List.find?_eq_none]
        intro version hversion
        rw [decide_eq_true_eq]
        exact hnone version hversion
      rw [Content.holds, hfind]
      rfl
  | some id =>
      rw [Content.holds, List.any_eq_false]
      intro version hversion
      simp [hnone version hversion]

/-- Where requests for the key are refused, no deletion succeeds. -/
theorem deletePlain_refused (haddress : p.address key = .refused) :
    (deletePlain s key state).1 ≠ .ok () := by
  have hanswer : s.sendDelete key none state = (⟨403, p.signatureError⟩, state) := by
    rw [Situation.sendDelete, haddress]
  rw [deletePlain, hanswer]
  exact nofun

theorem deleteObject_refused (haddress : p.address key = .refused) (versionId : Text) :
    ∃ error, deleteObject s key versionId state = (.error error, state) := by
  have hanswer : s.sendDelete key (some versionId) state = (⟨403, p.signatureError⟩, state) := by
    rw [Situation.sendDelete, haddress]
  rw [deleteObject, hanswer]
  dsimp only
  rw [if_neg (by decide), if_neg fun hboth => absurd hboth.2 (by decide)]
  exact ⟨_, rfl⟩

theorem delete_refused (haddress : p.address key = .refused) :
    (delete s key state).1 ≠ .ok () := by
  have hplain : (deletePlain s key state).1 ≠ .ok () := deletePlain_refused s haddress
  have hexists : objectExists s key state.content = true := by
    rw [objectExists, haddress]
    rfl
  rw [delete]
  split
  · exact nofun
  · exact hplain
  · rw [if_pos hexists]
    exact hplain
  · rename_i versionIds hne hlist
    obtain ⟨versionId, rest, rfl⟩ := List.exists_cons_of_ne_nil hne
    have hobject : ∃ error, deleteObject s key versionId state = (.error error, state) :=
      deleteObject_refused s haddress versionId
    obtain ⟨error, herror⟩ := hobject
    rw [deleteObjects, herror]
    exact nofun

theorem objectExists_object {place : Text × Text} (haddress : p.address key = .object place)
    {content : Content} :
    objectExists s key content = content.holds place (p.named (p.query key)) := by
  rw [objectExists, haddress]
  cases hholds : content.holds place (p.named (p.query key)) with
  | false => simp [hholds]
  | true => simp [hholds]

theorem deletePlain_elsewhere (haddress : p.address key = .elsewhere) :
    (deletePlain s key state).2.content = state.content := by
  have hanswer : (s.sendDelete key none state).2.content = state.content := by
    rw [Situation.sendDelete, haddress]
    dsimp only
    split
    · rfl
    · rfl
  rw [deletePlain]
  split
  · exact hanswer
  · exact hanswer

/-- Nothing holds the key, and so nothing more is sent for it. -/
theorem delete_none
    (haddress : p.address key = .elsewhere ∨ p.address key = .object (p.bucket, key))
    (hnone : ∀ version ∈ state.content.versions, ¬version.Of p key) :
    ∀ version ∈ (if objectExists s key state.content then deletePlain s key state
      else (.ok (), state)).2.content.versions, ¬version.Of p key := by
  rcases haddress with helsewhere | hobject
  · split
    · rw [deletePlain_elsewhere s helsewhere]
      exact hnone
    · exact hnone
  · have hexists : objectExists s key state.content = false := by
      rw [objectExists_object s hobject, holds_none hnone]
    rw [hexists]
    exact hnone

theorem verifyGone_ok (hread : p.markup.read key = key)
    (hok : (verifyGone s key state).1 = .ok ()) :
    ∀ version ∈ state.content.versions, ¬version.Of p key := by
  rw [verifyGone] at hok
  split at hok
  · cases hok
  · rename_i hlist
    cases listKeyVersions_ok s hread hlist
  · rename_i remaining hlist
    have hids := Option.some.inj (listKeyVersions_ok s hread hlist)
    split at hok
    · cases hok
    · rename_i hempty
      rw [← exact_eq_nil_iff, ← List.length_eq_zero_iff, ← List.length_map, ← hids]
      exact Nat.eq_zero_of_not_pos hempty

/-- A deletion that resolves has left nothing of the key. The client looks again after it has
deleted, and throws if anything is there. -/
theorem delete_gone (hread : p.markup.read key = key)
    (haddress : p.address key = .elsewhere ∨ p.address key = .object (p.bucket, key))
    (hok : (delete s key state).1 = .ok ()) :
    ∀ version ∈ (delete s key state).2.content.versions, ¬version.Of p key := by
  cases hlist : listKeyVersions s key state.content with
  | error error =>
      rw [delete, hlist] at hok
      cases hok
  | ok listed =>
      have hids := listKeyVersions_ok s hread hlist
      subst hids
      cases hexact : (state.content.exact p.bucket key).map Version.id with
      | nil =>
          have hnone := exact_eq_nil_iff.mp (List.map_eq_nil_iff.mp hexact)
          rw [delete, hlist, hexact]
          exact delete_none s haddress hnone
      | cons versionId rest =>
          rw [delete, hlist, hexact] at hok ⊢
          dsimp only at hok ⊢
          split at hok
          · cases hok
          · rename_i hdeleted
            rw [verifyGone_state]
            exact verifyGone_ok s hread hok

end Gone

/- Where a deletion goes wrong -/

section Wrong

variable {p : Provider} {key : Text} {place : Text × Text}

/-- A store that refuses nothing and answers with long pages: the situation of the failing
runs. -/
def Situation.of (p : Provider) (content : Content) : Situation p where
  content := content
  pageSize := 1000
  pageSize_pos := by decide
  listingRefused := none
  listingRefused_failed := nofun
  deletionRefused := fun _ => none
  deletionRefused_failed := fun _ => nofun
  headElsewhere := 404

def stored (place : Text × Text) : Version := ⟨place.1, place.2, nullId, false, nullId_ordinary⟩

/-- Two objects in a bucket without versions. -/
def pair (first second : Text × Text) (hne : first ≠ second) : Content where
  versioning := fun _ => .never
  versions := [stored first, stored second]
  distinct := by
    simpa [stored, Version.place] using hne

/-- The marker that a plain deletion has left. -/
def marked (place : Text × Text) (id : Text) (hid : ∀ c ∈ id, isOrdinary c = true) : Content where
  versioning := fun _ => .enabled
  versions := [⟨place.1, place.2, id, true, hid⟩]
  distinct := List.nodup_singleton _

theorem sharing_length_le (content : Content) (bucket start : Text) :
    (content.sharing bucket start).length ≤ content.versions.length := by
  rw [Content.sharing, List.length_mergeSort]
  exact List.length_filter_le _ _

/-- A key that is not read as it was written has no versions. -/
theorem listKeyVersions_misread {content : Content} (hshort : content.versions.length ≤ 1000)
    (hread : p.markup.read key ≠ key) :
    listKeyVersions (Situation.of p content) key content = .ok (some []) := by
  have hnone : (content.sharing p.bucket key).filterMap (takenId p.markup key) = [] := by
    rw [List.filterMap_eq_nil_iff]
    intro version hversion
    exact takenId_other hversion fun hboth => hread hboth.2
  rw [listKeyVersions_short (Situation.of p content) rfl
    ((sharing_length_le _ _ _).trans hshort), hnone]

theorem listKeyVersions_pair (hread : p.markup.read key = key) (hne : (p.bucket, key) ≠ place) :
    listKeyVersions (Situation.of p (pair (p.bucket, key) place hne)) key
      (pair (p.bucket, key) place hne) = .ok (some [nullId]) := by
  have hexact : (pair (p.bucket, key) place hne).exact p.bucket key =
      [stored (p.bucket, key)] := by
    rw [← List.perm_singleton, List.perm_ext_iff_of_nodup Content.exact_nodup.of_map
      (List.nodup_singleton _)]
    intro version
    rw [Content.mem_exact, List.mem_singleton]
    constructor
    · rintro ⟨hversion, hplace⟩
      rcases List.mem_pair.mp hversion with rfl | rfl
      · rfl
      · exact absurd hplace.symm hne
    · rintro rfl
      exact ⟨List.mem_cons_self, rfl⟩
  have hshort := listKeyVersions_short (Situation.of p (pair (p.bucket, key) place hne)) rfl
    ((sharing_length_le (pair (p.bucket, key) place hne) p.bucket key).trans
      (Nat.le_of_ble_eq_true rfl))
  rw [hshort, listKeyVersions_ok _ hread hshort, hexact]
  rfl

/-- One listed version is deleted where requests for the key lead, which need not be where the
key is. -/
theorem delete_listed (s : Situation p) (hopen : ∀ number, s.deletionRefused number = none)
    (haddress : p.address key = .object place) {state : State} {versionId : Text}
    (hlist : listKeyVersions s key state.content = .ok (some [versionId])) :
    (delete s key state).2.content = state.content.removeVersion place versionId := by
  have hanswer : s.sendDelete key (some versionId) state =
      (⟨204, []⟩, ⟨state.content.removeVersion place versionId, state.sent + 1⟩) := by
    rw [Situation.sendDelete, haddress]
    dsimp only
    rw [hopen]
    rfl
  have hobject : deleteObject s key versionId state =
      (.ok (), ⟨state.content.removeVersion place versionId, state.sent + 1⟩) := by
    rw [deleteObject, hanswer]
    rfl
  rw [delete, hlist]
  dsimp only
  rw [deleteObjects, hobject]
  dsimp only
  rw [deleteObjects]
  dsimp only
  rw [verifyGone_state]

/-- Where requests for the key lead to another object, that object is deleted. -/
theorem other_deleted (haddress : p.address key = .object place) (hne : (p.bucket, key) ≠ place)
    (hread : p.markup.read key = key) :
    ¬Precise (Situation.of p (pair (p.bucket, key) place hne)) key
      (delete (Situation.of p (pair (p.bucket, key) place hne)) key
        (Situation.of p (pair (p.bucket, key) place hne)).start) := by
  intro hprecise
  have hkept := hprecise.others (stored place) (List.mem_cons_of_mem _ List.mem_cons_self)
    fun hplace => hne hplace.symm
  rw [delete_listed _ (fun _ => rfl) haddress (listKeyVersions_pair hread hne),
    Content.mem_removeVersion] at hkept
  exact hkept.2 ⟨rfl, rfl⟩

theorem holds_marked {id : Text} (hid : ∀ c ∈ id, isOrdinary c = true) {named : Option Text}
    (hne : named ≠ some id) : (marked (p.bucket, key) id hid).holds place named = false := by
  cases named with
  | none =>
      by_cases hplace : (p.bucket, key) = place
      · simp [Content.holds, marked, Version.place, hplace]
      · simp [Content.holds, marked, Version.place, hplace]
  | some other =>
      have hother : id ≠ other := fun heq => hne (congrArg some heq.symm)
      simp [Content.holds, marked, hother]

/-- A marker of a key that is not read as it was written remains: the client lists it, does not
know it for its own, and finds no object there. -/
theorem marker_remains (haddress : p.address key ≠ .refused) (hread : p.markup.read key ≠ key)
    {id : Text} (hid : ∀ c ∈ id, isOrdinary c = true) (hne : p.named (p.query key) ≠ some id) :
    ¬Precise (Situation.of p (marked (p.bucket, key) id hid)) key
      (delete (Situation.of p (marked (p.bucket, key) id hid)) key
        (Situation.of p (marked (p.bucket, key) id hid)).start) := by
  intro hprecise
  have hexists : objectExists (Situation.of p (marked (p.bucket, key) id hid)) key
      (marked (p.bucket, key) id hid) = false := by
    cases htarget : p.address key with
    | refused => exact absurd htarget haddress
    | elsewhere =>
        rw [objectExists, htarget]
        rfl
    | object place => rw [objectExists_object _ htarget, holds_marked hid hne]
  have hshort : (marked (p.bucket, key) id hid).versions.length ≤ 1000 :=
    Nat.le_of_ble_eq_true rfl
  have hdelete : delete (Situation.of p (marked (p.bucket, key) id hid)) key
      ⟨marked (p.bucket, key) id hid, 0⟩ = (.ok (), ⟨marked (p.bucket, key) id hid, 0⟩) := by
    rw [delete, listKeyVersions_misread hshort hread]
    dsimp only
    rw [hexists]
    rfl
  have hstart : (Situation.of p (marked (p.bucket, key) id hid)).start =
      ⟨marked (p.bucket, key) id hid, 0⟩ := rfl
  rw [hstart, hdelete] at hprecise
  exact hprecise.gone rfl _ List.mem_cons_self rfl

end Wrong

theorem addressed_of_precise {p : Provider} {key : Text}
    (hprecise : ∀ s : Situation p, Precise s key (delete s key s.start)) : Addressed p key := by
  have hread : p.address key ≠ .refused → p.markup.read key = key := by
    intro haddress
    by_contra hread
    by_cases hnamed : p.named (p.query key) = some ['m']
    · have hne : p.named (p.query key) ≠ some ['n'] := by
        rw [hnamed]
        decide
      exact marker_remains haddress hread (List.all_iff_forall_prop.mp (by decide)) hne (hprecise _)
    · exact marker_remains haddress hread (List.all_iff_forall_prop.mp (by decide)) hnamed
        (hprecise _)
  rw [Addressed]
  split
  · trivial
  · rename_i haddress
    exact hread (by rw [haddress]; decide)
  · rename_i place haddress
    have hsame : p.markup.read key = key := hread (by rw [haddress]; nofun)
    refine ⟨?_, hsame⟩
    by_contra hne
    exact other_deleted haddress (Ne.symm hne) hsame (hprecise _)

theorem precise_of_addressed {p : Provider} {key : Text} (haddressed : Addressed p key)
    (s : Situation p) : Precise s key (delete s key s.start) where
  others := by
    intro version hversion hother
    refine delete_keeps s key ?_ hversion
    intro place haddress hplace
    rw [Addressed, haddress] at haddressed
    exact hother (hplace.trans haddressed.1)
  gone := by
    intro hok
    cases haddress : p.address key with
    | refused => exact absurd hok (delete_refused s haddress)
    | elsewhere =>
        rw [Addressed, haddress] at haddressed
        exact delete_gone s haddressed (Or.inl haddress) hok
    | object place =>
        rw [Addressed, haddress] at haddressed
        obtain ⟨rfl, hread⟩ := haddressed
        exact delete_gone s hread (Or.inr haddress) hok
  bounded := by
    intro hopen htruncates
    have hlist : listKeyVersions s key s.start.content = .error (tooManyPages key) :=
      listPages_truncates s hopen htruncates
    rw [delete, hlist]
    exact ⟨rfl, rfl⟩

/-- A deletion is permanent and precise exactly for the keys whose requests reach them. The key
stands in the URL as it is, where the parser of URLs resolves dot segments and cuts off queries,
and the signer encodes escapes once more. -/
theorem delete_precise_iff (p : Provider) (key : Text) :
    (∀ s : Situation p, Precise s key (delete s key s.start)) ↔ Addressed p key := by
  constructor
  · exact addressed_of_precise
  · exact precise_of_addressed

namespace OtherKey

open SecondPage (spelling layout)

/-- What stands around the versions of a page: whether it is the last one, and where the next
one goes on from. -/
def info (page : VersionPage) : List Field :=
  (isTruncatedName, if page.truncated then "true".toList else "false".toList) ::
    match page.entries.getLast? with
    | none => []
    | some last => [(nextKeyMarkerName, spelling.spell last.key),
        (nextVersionIdMarkerName, spelling.spell last.id)]

def fields (version : Version) : List Field :=
  [(keyName, spelling.spell version.key), (versionIdName, spelling.spell version.id)]

def fieldNames : List Text := [keyName, versionIdName] ++ infoNames

theorem proper_of_mem {field : Field} (hname : field.1 ∈ fieldNames) (hvalue : '<' ∉ field.2) :
    field.Proper ∧ field.1 ∉ versionNames := by
  have hnames : ∀ name ∈ fieldNames, '<' ∉ name ∧ '>' ∉ name ∧ name.head? ≠ some '/' ∧
      name ∉ versionNames := by
    decide
  obtain ⟨hopen, hclose, hslash, hother⟩ := hnames field.1 hname
  exact ⟨⟨hopen, hclose, hslash, hvalue⟩, hother⟩

theorem info_proper (page : VersionPage) :
    ∀ field ∈ info page, field.Proper ∧ field.1 ∉ versionNames := by
  intro field hfield
  rcases List.mem_cons.mp hfield with rfl | hmarker
  · refine proper_of_mem (by simp [fieldNames, infoNames]) ?_
    dsimp only
    split
    · decide
    · decide
  · cases hlast : page.entries.getLast? with
    | none =>
        rw [hlast] at hmarker
        exact absurd hmarker List.not_mem_nil
    | some last =>
        rw [hlast] at hmarker
        rcases List.mem_pair.mp hmarker with rfl | rfl
        · exact proper_of_mem (by simp [fieldNames, infoNames])
            (spelling.angle_not_mem_spell last.key)
        · exact proper_of_mem (by simp [fieldNames, infoNames])
            (spelling.angle_not_mem_spell last.id)

/-- The store's spelling of a page of versions, in an order of its own. It is one instance of
the shape that every provider's answers are assumed to have. -/
def markup : VersionMarkup where
  spelling := spelling
  layout := layout
  front := fun _ => [.tag "ListVersionsResult".toList]
  info := info
  back := fun _ => [.tag "/ListVersionsResult".toList]
  fields := fields
  front_lacks := by
    intro page token htoken
    rw [List.mem_singleton.mp htoken]
    exact ⟨⟨by decide, by decide⟩, by decide⟩
  info_proper := info_proper
  back_lacks := by
    intro page token htoken
    rw [List.mem_singleton.mp htoken]
    exact ⟨⟨by decide, by decide⟩, by decide⟩
  fields_proper := by
    intro version field hfield
    rcases List.mem_pair.mp hfield with rfl | rfl
    · exact proper_of_mem (by simp [fieldNames]) (spelling.angle_not_mem_spell version.key)
    · exact proper_of_mem (by simp [fieldNames]) (spelling.angle_not_mem_spell version.id)
  key := fun _ => rfl
  versionId := fun _ => rfl
  isTruncated := fun _ => rfl
  nextKeyMarker := by
    intro page last _ hlast
    rw [hasField, info, hlast]
    rfl
  nextVersionIdMarker := by
    intro page last _ hlast
    rw [hasField, info, hlast]
    rfl

def provider : Provider where
  bucket := "bucket".toList
  bucket_token := List.all_iff_forall_prop.mp (by decide)
  bucket_named := ⟨'b', by decide, by decide⟩
  special := fun query => query = "acl".toList
  special_nil := by decide
  named := fun query =>
    if "versionId=".toList.isPrefixOf query then some (query.drop 10) else none
  named_nil := by decide
  markup := markup
  signatureError := []

def key : Text := "backups/a/../b.tar".toList
def other : Text := "backups/b.tar".toList

theorem key_ne : (provider.bucket, key) ≠ (provider.bucket, other) := by decide

def situation : Situation provider :=
  .of provider (pair (provider.bucket, key) (provider.bucket, other) key_ne)

/-- The deletion of one key deletes the object of another: its dot segment is resolved on the
way, and the request names the other object. -/
theorem other_lost : ¬Precise situation key (delete situation key situation.start) := by
  have haddress : provider.address key = .object (provider.bucket, other) := by
    decide
  have hread : provider.markup.read key = key := by
    decide
  exact other_deleted haddress key_ne hread

end OtherKey

/- The panel's own keys -/

section Backups

open Backups (BackupId backupObjectKey)

variable {p : Provider} {base : Base} {id : BackupId}

/-- A key between whose slashes no dot segment stands is the one that requests for it reach. -/
theorem address_of_plain {key : Text} (hkey : key ≠ [])
    (hplain : ∀ c ∈ key, UrlPath.isPlain c = true)
    (hdots : ∀ segment ∈ key.splitOn '/', UrlPath.noDots segment = true) :
    p.address key = .object (p.bucket, key) := by
  have hbucket : ∀ c ∈ p.bucket, UrlPath.isPlain c = true ∧ c ∉ ['/', '%'] := by
    intro c hc
    rcases p.bucket_token c hc with halphanum | hlisted
    · refine ⟨UrlPath.isPlain_of_safe (Or.inl halphanum), ?_⟩
      intro hmem
      have hnot : ∀ d ∈ ['/', '%'], d.isAlphanum = false :=
        List.all_iff_forall_prop.mp (by decide)
      rw [hnot c hmem] at halphanum
      cases halphanum
    · have hall : ∀ d ∈ ['.', '_', '-'], UrlPath.isPlain d = true ∧ d ∉ ['/', '%'] :=
        List.all_iff_forall_prop.mp (by decide)
      exact hall c hlisted
  have htarget : ∀ c ∈ p.target key, UrlPath.isPlain c = true := by
    intro c hc
    rcases List.mem_append.mp hc with hmem | hmem
    · exact (hbucket c hmem).1
    · rcases List.mem_cons.mp hmem with rfl | hmem
      · decide
      · exact hplain c hmem
  have hsplit : (p.target key).splitOn '/' = p.bucket :: key.splitOn '/' := by
    have hslash : '/' ∉ p.bucket := fun hmem => (hbucket _ hmem).2 (by decide)
    rw [Provider.target, List.splitOn_append_cons_self, List.splitOn_eq_singleton hslash]
    rfl
  have hnoDots : ∀ segment ∈ (p.target key).splitOn '/', UrlPath.noDots segment = true := by
    intro segment hsegment
    rw [hsplit] at hsegment
    rcases List.mem_cons.mp hsegment with rfl | hsegment
    · obtain ⟨c, hc, hdot⟩ := p.bucket_named
      exact UrlPath.noDots_of_mem hc hdot fun hmem => (hbucket _ hmem).2 (by decide)
    · exact hdots segment hsegment
  have hescapes := UrlPath.hasEscapes_of_plain htarget
  have hquery : p.query key = [] := by
    rw [Provider.query, UrlPath.cleaned_of_plain htarget, UrlPath.queryPart_of_plain htarget]
  obtain ⟨first, rest, hsegments⟩ :=
    List.exists_cons_of_ne_nil (List.splitOn_ne_nil '/' key)
  have hjoined : ['/'].intercalate (first :: rest) = key := by
    rw [← hsegments]
    exact List.intercalate_splitOn '/'
  have hne : first :: rest ≠ [[]] := by
    intro heq
    rw [heq] at hjoined
    exact hkey hjoined.symm
  rw [hsplit, hsegments] at hescapes
  rw [Provider.address, UrlPath.resolved_of_plain htarget hnoDots, hsplit, hsegments]
  dsimp only
  rw [hescapes, if_neg Bool.false_ne_true, hquery, p.special_nil, if_neg Bool.false_ne_true,
    if_neg hne, hjoined]

/-- The last segment of a backup's key is not of dots, and the others are the prefix's. -/
theorem noDots_key (hid : ValidId id)
    (hdots : ∀ segment ∈ base.text.toList.splitOn '/', UrlPath.noDots segment = true) :
    ∀ segment ∈ (backupObjectKey base.text id).toList.splitOn '/',
      UrlPath.noDots segment = true := by
  have hlast : ∀ segment ∈ (id ++ ".tar").toList.splitOn '/', UrlPath.noDots segment = true := by
    have hsafe : '/' ∉ (id ++ ".tar").toList ∧ '%' ∉ (id ++ ".tar").toList := by
      rw [String.toList_append, List.mem_append, List.mem_append, not_or, not_or]
      have hnot : ∀ d ∈ ['/', '%'], ¬(d.isAlphanum = true ∨ d ∈ ['.', '_', '-']) :=
        List.all_iff_forall_prop.mp (by decide)
      exact ⟨⟨fun hmem => hnot '/' (by decide) (hid.safe _ hmem), by decide⟩,
        fun hmem => hnot '%' (by decide) (hid.safe _ hmem), by decide⟩
    intro segment hsegment
    rw [List.splitOn_eq_singleton hsafe.1, List.mem_singleton] at hsegment
    rw [hsegment]
    have hletter : 't' ∈ (id ++ ".tar").toList := by
      rw [String.toList_append, List.mem_append]
      exact Or.inr (by decide)
    exact UrlPath.noDots_of_mem hletter (by decide) hsafe.2
  have hunder : ∀ front : Text,
      (∀ segment ∈ front.splitOn '/', UrlPath.noDots segment = true) →
      ∀ segment ∈ (front ++ '/' :: (id ++ ".tar").toList).splitOn '/',
        UrlPath.noDots segment = true := by
    intro front hfront segment hsegment
    rw [List.splitOn_append_cons_self] at hsegment
    rcases List.mem_append.mp hsegment with hmem | hmem
    · exact hfront segment hmem
    · exact hlast segment hmem
  rw [backupObjectKey]
  split
  · exact hlast
  · split
    · rename_i hslash
      obtain ⟨front, hfront⟩ := List.getLast?_eq_some_iff.mp hslash
      have hkey : (base.text ++ id ++ ".tar").toList = front ++ '/' :: (id ++ ".tar").toList := by
        simp [hfront]
      rw [hkey]
      apply hunder
      intro segment hsegment
      refine hdots segment ?_
      rw [hfront, List.splitOn_append_cons_self]
      exact List.mem_append_left _ hsegment
    · have hkey : (base.text ++ "/" ++ id ++ ".tar").toList =
          base.text.toList ++ '/' :: (id ++ ".tar").toList := by
        simp
      rw [hkey]
      exact hunder _ hdots

/-- Under a prefix without dot segments each backup is deleted for good, and nothing else: the
name of an archive has no character that a URL would change. -/
theorem delete_backup_precise (hid : ValidId id)
    (hdots : ∀ segment ∈ base.text.toList.splitOn '/', UrlPath.noDots segment = true)
    (s : Situation p) :
    Precise s (backupObjectKey base.text id).toList
      (delete s (backupObjectKey base.text id).toList s.start) := by
  have hne : (backupObjectKey base.text id).toList ≠ [] := by
    intro hnil
    have hending := congrArg List.length hnil
    rw [backupObjectKey] at hending
    simp at hending
  have haddress : p.address (backupObjectKey base.text id).toList =
      .object (p.bucket, (backupObjectKey base.text id).toList) :=
    address_of_plain hne (fun c hc => UrlPath.isPlain_of_safe (safe_key hid c hc))
      (noDots_key hid hdots)
  apply precise_of_addressed
  rw [Addressed, haddress]
  exact ⟨rfl, p.markup.spelling.xmlUnescape_ordinary (isOrdinary_key hid)⟩

end Backups

end S3

end MailPanel
