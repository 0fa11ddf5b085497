import MailPanel.S3Listing
import MailPanel.UrlPath
import Mathlib.Data.Char
import Mathlib.Data.List.Lex

/-
Permanent deletion from a bucket that keeps versions: the listing of a key's versions page by
page, the deletion of each, and the listing that has to come back empty.
-/

namespace MailPanel

namespace S3

open XmlText

/- The store -/

/-- A stored version of a key, or a delete marker, which is a version that stands for the
absence of the object. Stores document the id of a version as a text that is ready for a URL,
and so it is here. -/
structure Version where
  bucket : Text
  key : Text
  id : Text
  marker : Bool
  id_ordinary : ∀ c ∈ id, isOrdinary c = true
deriving DecidableEq

/-- The version of an object that was stored without versions. -/
def nullId : Text := ['n', 'u', 'l', 'l']

theorem nullId_ordinary : ∀ c ∈ nullId, isOrdinary c = true :=
  List.all_iff_forall_prop.mp (by decide)

/-- The three states of a bucket. Suspending keeps the versions that are there and stores new
ones without an id of their own. -/
inductive Versioning where
  | never
  | enabled
  | suspended
deriving DecidableEq

/-- Where a version is stored: its bucket and its key. -/
def Version.place (version : Version) : Text × Text := (version.bucket, version.key)

/-- Versions from the newest to the oldest. No two of one key share an id, so that an id names
at most one of them. -/
structure Content where
  versioning : Text → Versioning
  versions : List Version
  distinct : (versions.map fun version => (version.place, version.id)).Nodup

/-- An id that is longer than all others, and so one that no stored version has. It also cannot
be the id `null`. -/
def freshId (versions : List Version) : Text :=
  List.replicate ((versions.map fun version => version.id.length).sum + 5) 'm'

namespace Content

variable (content : Content)

/-- The content with the versions that pass a test, in the same order. -/
def keep (kept : Version → Bool) : Content where
  versioning := content.versioning
  versions := content.versions.filter kept
  distinct := content.distinct.sublist (List.filter_sublist.map _)

/-- `DELETE` with a version id: the version of that id goes, and nothing takes its place. -/
def removeVersion (place : Text × Text) (id : Text) : Content :=
  content.keep fun version => ¬(version.place = place ∧ version.id = id)

/-- A delete marker becomes the newest version of a place. Its id has to be one that the place
does not have. -/
def putMarker (place : Text × Text) (id : Text) (hid : ∀ c ∈ id, isOrdinary c = true)
    (hfresh : ∀ version ∈ content.versions, ¬(version.place = place ∧ version.id = id)) :
    Content where
  versioning := content.versioning
  versions := ⟨place.1, place.2, id, true, hid⟩ :: content.versions
  distinct := by
    rw [List.map_cons, List.nodup_cons]
    refine ⟨?_, content.distinct⟩
    intro hmem
    obtain ⟨version, hversion, hsame⟩ := List.mem_map.mp hmem
    rw [Prod.mk.injEq] at hsame
    exact hfresh version hversion hsame

theorem freshId_ordinary (versions : List Version) :
    ∀ c ∈ freshId versions, isOrdinary c = true := by
  intro c hc
  rw [(List.mem_replicate.mp hc).2]
  decide

theorem id_ne_freshId {version : Version} {versions : List Version} (hversion : version ∈ versions) :
    version.id ≠ freshId versions := by
  intro heq
  have hle : version.id.length ≤ (versions.map fun version => version.id.length).sum :=
    List.single_le_sum (by simp) _ (List.mem_map_of_mem hversion)
  have hlength := congrArg List.length heq
  rw [freshId, List.length_replicate] at hlength
  omega

/-- `DELETE` without a version id: where versions are kept it adds a delete marker. -/
def removePlain (place : Text × Text) : Content :=
  match content.versioning place.1 with
  | .never => content.keep fun version => version.place ≠ place
  | .enabled => content.putMarker place (freshId content.versions) (freshId_ordinary _)
      fun _ hversion hsame => id_ne_freshId hversion hsame.2
  | .suspended => (content.removeVersion place nullId).putMarker place nullId nullId_ordinary
      fun version hversion => by
        have hkept := (List.mem_filter.mp hversion).2
        exact of_decide_eq_true hkept

/-- `DELETE` as the two kinds of request mean it, with and without a version id. -/
def remove (place : Text × Text) : Option Text → Content
  | some id => content.removeVersion place id
  | none => content.removePlain place

/-- Whether `HEAD` finds something: an object, or whatever has the id that is asked for. -/
def holds (place : Text × Text) : Option Text → Bool
  | some id => content.versions.any fun version => version.place = place && version.id = id
  | none => (content.versions.find? fun version => version.place = place).any fun version =>
      !version.marker

/-- Versions of the keys with a prefix, by key and from the newest. -/
def sharing (bucket start : Text) : List Version :=
  (content.versions.filter fun version =>
    version.bucket = bucket && start.isPrefixOf version.key).mergeSort fun a b => a.key ≤ b.key

end Content

/-- What follows a key and one of its versions in a listing. Without a version it is what
follows all versions of the key. -/
def afterMarkers (listing : List Version) : Option Text → Option Text → List Version
  | none, _ => listing
  | some key, none => listing.filter fun version => key < version.key
  | some key, some id =>
      ((listing.filter fun version => version.key = key).dropWhile fun version =>
        version.id ≠ id).drop 1 ++ listing.filter fun version => key < version.key

/-- The versions that one answer lists, and whether more follow. -/
structure VersionPage where
  entries : List Version
  truncated : Bool

def versionName : Text := "Version".toList
def deleteMarkerName : Text := "DeleteMarker".toList
def versionNames : List Text := [versionName, deleteMarkerName]
def versionIdName : Text := "VersionId".toList
def isTruncatedName : Text := "IsTruncated".toList
def nextKeyMarkerName : Text := "NextKeyMarker".toList
def nextVersionIdMarkerName : Text := "NextVersionIdMarker".toList

/-- The elements that stand once in an answer and say how the listing goes on. -/
def infoNames : List Text := [isTruncatedName, nextKeyMarkerName, nextVersionIdMarkerName]

/-- The first field of a name has this value; it is the one that the client reads. -/
def hasField (fields : List Field) (name value : Text) : Prop :=
  fields.find? (fun field => field.1 = name) = some (name, value)

/-- How the store writes a page of versions. The fields may come in any order and be spelled in
any way, as long as what the client looks for stands where it looks. -/
structure VersionMarkup where
  spelling : Spelling
  layout : Layout
  front : VersionPage → List Token
  info : VersionPage → List Field
  back : VersionPage → List Token
  fields : Version → List Field
  front_lacks : ∀ page, Lacks (versionNames ++ infoNames) (front page)
  info_proper : ∀ page, ∀ field ∈ info page, field.Proper ∧ field.1 ∉ versionNames
  back_lacks : ∀ page, Lacks versionNames (back page)
  fields_proper : ∀ version, ∀ field ∈ fields version, field.Proper ∧ field.1 ∉ versionNames
  key : ∀ version, hasField (fields version) keyName (spelling.spell version.key)
  versionId : ∀ version, hasField (fields version) versionIdName (spelling.spell version.id)
  isTruncated : ∀ page, hasField (info page) isTruncatedName
    (if page.truncated then "true".toList else "false".toList)
  nextKeyMarker : ∀ page last, page.truncated = true → page.entries.getLast? = some last →
    hasField (info page) nextKeyMarkerName (spelling.spell last.key)
  nextVersionIdMarker : ∀ page last, page.truncated = true →
    page.entries.getLast? = some last →
      hasField (info page) nextVersionIdMarkerName (spelling.spell last.id)

namespace VersionMarkup

variable (markup : VersionMarkup)

/-- What stands between the tags of a version. -/
def content (version : Version) : List Token :=
  childTokens markup.layout (markup.fields version)

/-- The element of one version. A delete marker differs from another version in the element's
name only. -/
def block (version : Version) : Text × List Token :=
  (if version.marker then deleteMarkerName else versionName, markup.content version)

/-- A whole answer: some front, the elements about the page, the versions, and the rest. -/
def write (page : VersionPage) : Text :=
  render (markup.front page ++ (fieldTokens markup.layout (markup.info page) ++
    (enclosed markup.layout (page.entries.map markup.block) ++ markup.back page)))

/-- What the code reads of a text that the store has written. -/
def read (text : Text) : Text := xmlUnescape (markup.spelling.spell text)

end VersionMarkup

/-- What a request for an object reaches, once the path of its URL has been cleaned by the
parser of URLs. -/
inductive Address where
  /-- The path needs escapes, which the signer encodes again: the signature is wrong. -/
  | refused
  /-- Something that holds no versions. -/
  | elsewhere
  | object (place : Text × Text)
deriving DecidableEq

/-- A configured bucket at its provider, with what the provider makes of a query and how it
writes its answers. -/
structure Provider where
  bucket : Text
  bucket_token : ∀ c ∈ bucket, c.isAlphanum = true ∨ c ∈ ['.', '_', '-']
  bucket_named : ∃ c ∈ bucket, c ≠ '.'
  /-- The queries that make a request for an object one for something else. -/
  special : Text → Bool
  special_nil : special [] = false
  /-- The version id in a query. -/
  named : Text → Option Text
  named_nil : named [] = none
  markup : VersionMarkup
  /-- The body of the answer to a wrong signature. -/
  signatureError : Text

/-- What stands behind the host in `objectUrl(key)`: the bucket, a slash and the key, with
nothing encoded. -/
def Provider.target (p : Provider) (key : Text) : Text := p.bucket ++ '/' :: key

/-- The query of that URL: empty unless the key itself brings one along. -/
def Provider.query (p : Provider) (key : Text) : Text :=
  UrlPath.queryPart (UrlPath.cleaned (p.target key))

/-- Where `objectUrl(key)` leads. A path with escapes is refused, and a query that means
something else leads elsewhere; a dot segment may lead to another bucket. -/
def Provider.address (p : Provider) (key : Text) : Address :=
  let path := UrlPath.resolved (p.target key)
  if UrlPath.hasEscapes path then .refused
  else if p.special (p.query key) then .elsewhere
  else
    match path with
    | bucket :: first :: rest =>
        if first :: rest = [[]] then .elsewhere
        else .object (bucket, ['/'].intercalate (first :: rest))
    | _ => .elsewhere

/-- The element in which an error names its code. -/
def codeName : Text := "Code".toList

/-- A short token from an error's body. Longer or stranger values are not repeated in a
message. -/
def errorField (xml element : Text) : Option Text :=
  (firstMatch xml element).filter fun value => value ≠ [] && value.length ≤ 128 &&
    value.all fun c => c.isAlphanum || c ∈ ['.', '_', '-']

/-- The answer of a store that has no versioning API. Such a store is not an error of the
deletion. -/
def noVersions (response : Response) : Bool :=
  response.statusCode = 501 || errorField response.body codeName = some "NotImplemented".toList

/-- A store with versions, the size of its pages, and the requests that it refuses. The refusals
are the environment's choice, and any request may meet one. -/
structure Situation (p : Provider) where
  content : Content
  pageSize : Nat
  pageSize_pos : 0 < pageSize
  /-- The answer to every listing, if the store refuses them. -/
  listingRefused : Option Response
  listingRefused_failed : ∀ response ∈ listingRefused,
    ok response.statusCode = false ∧ noVersions response = false
  /-- The answer to the deletion of this number, if the store refuses it. -/
  deletionRefused : Nat → Option Response
  deletionRefused_failed : ∀ number, ∀ response ∈ deletionRefused number,
    ok response.statusCode = false
  /-- The status of `HEAD` where nothing holds versions. -/
  headElsewhere : Nat

/-- What is stored, and how many deletions have been sent. -/
structure State where
  content : Content
  sent : Nat

/- The client -/

/-- A bound against a store whose listing never ends. -/
def maxVersionListPages : Nat := 100

/-- Every failure of the provider reaches the panel under this one code. -/
def unavailable (message : String) : AppError := ⟨"UPSTREAM_UNAVAILABLE", message⟩

/-- A key or a bucket between quotation marks, as messages show it. -/
def quoted (key : Text) : String := "\"" ++ String.ofList key ++ "\""

/-- The provider's own code at the end of a message, when there is one. -/
def codeSuffix (code : Option Text) : String :=
  match code with
  | none => ""
  | some code => ", " ++ String.ofList code

/-- The message of a refused listing. A denied access names the permissions that the credentials
lack. -/
def listingError (p : Provider) (key : Text) (response : Response) : AppError :=
  let code := errorField response.body codeName
  unavailable (if code = some "AccessDenied".toList then
    "S3 refused to list the versions of " ++ quoted key ++ " (AccessDenied). Deleting a backup " ++
      "permanently needs s3:ListBucketVersions and s3:DeleteObjectVersion on bucket " ++
      quoted p.bucket ++ "."
  else "S3 version listing failed (HTTP " ++ toString response.statusCode ++ codeSuffix code ++ ").")

/-- The message of a listing that went on for too long. -/
def tooManyPages (key : Text) : AppError :=
  unavailable ("S3 listed more than " ++ toString maxVersionListPages ++ " pages of versions for " ++
    quoted key ++ "; refusing to guess the rest.")

/-- The message of a refused deletion. Only for a version does a denied access name what may be
missing. -/
def deletionError (key : Text) (versionId : Option Text) (response : Response) : AppError :=
  let code := errorField response.body codeName
  unavailable (if code = some "AccessDenied".toList ∧ versionId.isSome then
    "S3 refused to delete a version of " ++ quoted key ++ " (AccessDenied). The credentials need " ++
      "s3:DeleteObjectVersion, and no Object Lock may protect the version."
  else "S3 delete failed (HTTP " ++ toString response.statusCode ++ codeSuffix code ++ ").")

/-- The message of the last check, when something is left after all deletions went through. -/
def remainingError (p : Provider) (key : Text) (count : Nat) : AppError :=
  unavailable ("S3 still holds " ++ toString count ++ " version(s) of " ++ quoted key ++
    " after deleting them — an Object Lock or retention setting on bucket " ++ quoted p.bucket ++
    " may be protecting them.")

section Client

variable {p : Provider} (s : Situation p) (key : Text)

/-- The page of a content that follows the markers, out of the versions whose keys start with
the key. -/
def Situation.page (content : Content) (keyMarker versionIdMarker : Option Text) : VersionPage :=
  let rest := afterMarkers (content.sharing p.bucket key) keyMarker versionIdMarker
  ⟨rest.take s.pageSize, s.pageSize < rest.length⟩

/-- The store's answer to one listing request: its refusal, or the page that follows the
markers. -/
def Situation.sendListing (content : Content) (keyMarker versionIdMarker : Option Text) :
    Response :=
  match s.listingRefused with
  | some response => response
  | none => ⟨200, p.markup.write (s.page key content keyMarker versionIdMarker)⟩

/-- The version id of a block, if the block is one of the key. -/
def readVersion (body : Text) : Option Text :=
  match firstMatch body versionIdName with
  | none => none
  | some versionId => if firstMatch body keyName = some key then some versionId else none

/-- The pages of the listing from the markers on; `none` where there is no versioning API. -/
def listPages (content : Content) : Nat → Option Text → Option Text → List Text →
    Except AppError (Option (List Text))
  | 0, _, _, _ => .error (tooManyPages key)
  | pages + 1, keyMarker, versionIdMarker, versionIds =>
      let response := s.sendListing key content keyMarker versionIdMarker
      if ¬ok response.statusCode then
        if noVersions response then .ok none else .error (listingError p key response)
      else
        let blocks := betweens (openings versionNames) (closings versionNames) response.body
        let versionIds := versionIds ++ blocks.filterMap (readVersion key)
        if firstMatch response.body isTruncatedName ≠ some "true".toList then .ok (some versionIds)
        else
          match firstMatch response.body nextKeyMarkerName with
          | none => .ok (some versionIds)
          | some keyMarker =>
              listPages content pages (some keyMarker)
                (firstMatch response.body nextVersionIdMarkerName) versionIds

/-- The ids of all versions of the key, in the order of the listing, or `none` where the store
has no versioning API. -/
def listKeyVersions (content : Content) : Except AppError (Option (List Text)) :=
  listPages s key content maxVersionListPages none none []

/-- One `DELETE`, and what it does where it is not refused. The address decides what is hit: a
key with dot segments in it arrives as another one. -/
def Situation.sendDelete (versionId : Option Text) (state : State) : Response × State :=
  match p.address key with
  | .refused => (⟨403, p.signatureError⟩, state)
  | address =>
      match s.deletionRefused state.sent with
      | some response => (response, { state with sent := state.sent + 1 })
      | none =>
          let content :=
            match address with
            | .object place => state.content.remove place (versionId <|> p.named (p.query key))
            | _ => state.content
          (⟨204, []⟩, ⟨content, state.sent + 1⟩)

/-- `deleteObject(key, null)`: one deletion without a version id, whose refusal ends the call. -/
def deletePlain (state : State) : Except AppError Unit × State :=
  let answer := s.sendDelete key none state
  if ok answer.1.statusCode then (.ok (), answer.2)
  else (.error (deletionError key none answer.1), answer.2)

/-- `deleteObject(key, versionId)`; a version `null` that is not taken for an id is deleted
without one. -/
def deleteObject (versionId : Text) (state : State) : Except AppError Unit × State :=
  let answer := s.sendDelete key (some versionId) state
  if ok answer.1.statusCode then (.ok (), answer.2)
  else if versionId = nullId ∧ answer.1.statusCode = 400 then deletePlain s key answer.2
  else (.error (deletionError key (some versionId) answer.1), answer.2)

/-- One deletion after the other. The first that fails ends the call, and the versions before it
are gone. -/
def deleteObjects : List Text → State → Except AppError Unit × State
  | [], state => (.ok (), state)
  | versionId :: rest, state =>
      match deleteObject s key versionId state with
      | (.ok (), state) => deleteObjects rest state
      | (.error error, state) => (.error error, state)

/-- What `HEAD` says. Any answer but `404` counts as an object, a refused signature included. -/
def objectExists (content : Content) : Bool :=
  let statusCode :=
    match p.address key with
    | .refused => 403
    | .elsewhere => s.headElsewhere
    | .object place => if content.holds place (p.named (p.query key)) then 200 else 404
  statusCode ≠ 404

/-- The listing that has to come back empty once every version has been deleted. -/
def verifyGone (state : State) : Except AppError Unit × State :=
  match listKeyVersions s key state.content with
  | .error error => (.error error, state)
  | .ok none => (.ok (), state)
  | .ok (some remaining) =>
      if 0 < remaining.length then (.error (remainingError p key remaining.length), state)
      else (.ok (), state)

/-- `delete(key)`: every listed version is deleted and the listing repeated. Without a
versioning API, or where nothing is listed, a plain deletion has to do. -/
def delete (state : State) : Except AppError Unit × State :=
  match listKeyVersions s key state.content with
  | .error error => (.error error, state)
  | .ok none => deletePlain s key state
  | .ok (some []) =>
      if objectExists s key state.content then deletePlain s key state else (.ok (), state)
  | .ok (some versions) =>
      match deleteObjects s key versions state with
      | (.error error, state) => (.error error, state)
      | (.ok (), state) => verifyGone s key state

end Client

/-- The page at the markers is truncated, and so are the next pages, as many as asked. -/
def Truncates {p : Provider} (s : Situation p) (key : Text) :
    Nat → Option Text → Option Text → Prop
  | 0, _, _ => True
  | pages + 1, keyMarker, versionIdMarker =>
      let page := s.page key s.content keyMarker versionIdMarker
      page.truncated = true ∧ ∃ last, page.entries.getLast? = some last ∧
        Truncates s key pages (some (p.markup.read last.key)) (some (p.markup.read last.id))

/- What a page gives -/

section Pages

variable {p : Provider} (s : Situation p) {key : Text} {content : Content}
  {keyMarker versionIdMarker : Option Text} {versionIds : List Text}

namespace VersionMarkup

variable (markup : VersionMarkup)

theorem read_id (version : Version) : markup.read version.id = version.id :=
  markup.spelling.xmlUnescape_ordinary version.id_ordinary

/-- A key is read where one that extends it stands only if it is that key. -/
theorem read_eq_iff {text : Text} (hstart : key <+: text) :
    markup.read text = key ↔ text = key ∧ markup.read key = key := by
  constructor
  · intro hread
    have hlength : text.length ≤ (markup.read text).length :=
      markup.spelling.length_le_xmlUnescape text
    rw [hread] at hlength
    have hsame : key = text := hstart.eq_of_length_le hlength
    subst hsame
    exact ⟨rfl, hread⟩
  · rintro ⟨rfl, hread⟩
    exact hread

theorem firstMatch_version {version : Version} {name value : Text}
    (hslash : name.head? ≠ some '/') (hfield : hasField (markup.fields version) name value) :
    firstMatch (render (markup.content version)) name = some (xmlUnescape value) :=
  firstMatch_childTokens (fun field hmem => (markup.fields_proper version field hmem).1) hslash hfield

theorem firstMatch_info {page : VersionPage} {name value : Text} (hname : name ∈ infoNames)
    (hfield : hasField (markup.info page) name value) :
    firstMatch (markup.write page) name = some (xmlUnescape value) := by
  have hslash : ∀ name ∈ infoNames, name.head? ≠ some '/' := by decide
  have hfront : Lacks [name] (markup.front page) := by
    intro token htoken
    obtain ⟨hproper, hother⟩ := markup.front_lacks page token htoken
    refine ⟨hproper, fun other hmem => hother other (List.mem_append_right _ ?_)⟩
    rw [List.mem_singleton.mp hmem]
    exact hname
  exact firstMatch_fields (fun field hmem => (markup.info_proper page field hmem).1)
    (hslash name hname) hfield hfront

/-- The blocks of a page are its versions, delete markers among them, in the order of the page. -/
theorem betweens_write (page : VersionPage) :
    betweens (openings versionNames) (closings versionNames) (markup.write page) =
      page.entries.map fun version => render (markup.content version) := by
  have hfront : Lacks versionNames
      (markup.front page ++ fieldTokens markup.layout (markup.info page)) := by
    refine Lacks.append ?_ (lacks_fields ?_ ?_ (by decide)).1
    · intro token htoken
      obtain ⟨hproper, hother⟩ := markup.front_lacks page token htoken
      exact ⟨hproper, fun name hname => hother name (List.mem_append_left _ hname)⟩
    · exact fun field hfield => (markup.info_proper page field hfield).1
    · exact fun field hfield => (markup.info_proper page field hfield).2
  have hblocks : ∀ block ∈ page.entries.map markup.block, block.1 ∈ versionNames ∧
      Lacks (versionNames.map fun name => '/' :: name) block.2 := by
    intro block hblock
    obtain ⟨version, -, rfl⟩ := List.mem_map.mp hblock
    constructor
    · rw [block]
      dsimp only
      split
      · decide
      · decide
    · refine lacks_children ?_ ?_ (by decide)
      · exact fun field hfield => (markup.fields_proper version field hfield).1
      · exact fun field hfield => (markup.fields_proper version field hfield).2
  have hpage : betweens (openings versionNames) (closings versionNames)
      (render ((markup.front page ++ fieldTokens markup.layout (markup.info page)) ++
        (enclosed markup.layout (page.entries.map markup.block) ++ markup.back page))) =
      (page.entries.map markup.block).map fun block => render block.2 :=
    betweens_render (by decide) hfront hblocks (markup.back_lacks page)
  rw [List.append_assoc, List.map_map] at hpage
  exact hpage

end VersionMarkup

/-- The id that is taken from a version of a listing, if the client reads the version's key as
the one it asked for. -/
def takenId (markup : VersionMarkup) (key : Text) (version : Version) : Option Text :=
  if markup.read version.key = key then some version.id else none

theorem readVersion_fields (markup : VersionMarkup) (version : Version) :
    readVersion key (render (markup.content version)) =
      takenId markup key version := by
  have hid := markup.firstMatch_version (by decide) (markup.versionId version)
  have hkey := markup.firstMatch_version (by decide) (markup.key version)
  rw [readVersion, hid, hkey]
  dsimp only
  rw [← VersionMarkup.read, ← VersionMarkup.read, markup.read_id, takenId]
  simp only [Option.some.injEq]

theorem sendListing_open (hopen : s.listingRefused = none) :
    s.sendListing key content keyMarker versionIdMarker =
      ⟨200, p.markup.write (s.page key content keyMarker versionIdMarker)⟩ := by
  rw [Situation.sendListing, hopen]

theorem filterMap_readVersion (page : VersionPage) :
    (betweens (openings versionNames) (closings versionNames) (p.markup.write page)).filterMap
        (readVersion key) = page.entries.filterMap (takenId p.markup key) := by
  rw [p.markup.betweens_write, List.filterMap_map]
  apply List.filterMap_congr
  intro version _
  exact readVersion_fields p.markup version

theorem firstMatch_isTruncated (page : VersionPage) :
    firstMatch (p.markup.write page) isTruncatedName =
      some (if page.truncated then "true".toList else "false".toList) := by
  rw [p.markup.firstMatch_info (by decide) (p.markup.isTruncated page)]
  split
  · decide
  · decide

/-- The last page ends the listing. -/
theorem listPages_last (hopen : s.listingRefused = none)
    (hlast : (s.page key content keyMarker versionIdMarker).truncated = false) (pages : Nat) :
    listPages s key content (pages + 1) keyMarker versionIdMarker versionIds =
      .ok (some (versionIds ++ (s.page key content keyMarker versionIdMarker).entries.filterMap
        (takenId p.markup key))) := by
  have htruncated := firstMatch_isTruncated (p := p)
    (s.page key content keyMarker versionIdMarker)
  rw [hlast] at htruncated
  rw [listPages, sendListing_open s hopen]
  dsimp only
  rw [if_neg (by decide), filterMap_readVersion, htruncated, if_pos (by decide)]

/-- Any other page leads to the page after its last version, by the two markers that the page
itself gives. -/
theorem listPages_next (hopen : s.listingRefused = none)
    (htruncated : (s.page key content keyMarker versionIdMarker).truncated = true)
    {last : Version}
    (hlast : (s.page key content keyMarker versionIdMarker).entries.getLast? = some last)
    (pages : Nat) :
    listPages s key content (pages + 1) keyMarker versionIdMarker versionIds =
      listPages s key content pages (some (p.markup.read last.key))
        (some (p.markup.read last.id))
        (versionIds ++ (s.page key content keyMarker versionIdMarker).entries.filterMap
          (takenId p.markup key)) := by
  have hfield := firstMatch_isTruncated (p := p) (s.page key content keyMarker versionIdMarker)
  rw [htruncated] at hfield
  have hkey := p.markup.firstMatch_info (by decide)
    (p.markup.nextKeyMarker _ last htruncated hlast)
  have hid := p.markup.firstMatch_info (by decide)
    (p.markup.nextVersionIdMarker _ last htruncated hlast)
  rw [listPages, sendListing_open s hopen]
  dsimp only
  rw [if_neg (by decide), filterMap_readVersion, hfield, if_neg (by decide), hkey, hid]
  rfl

theorem getLast?_of_truncated
    (htruncated : (s.page key content keyMarker versionIdMarker).truncated = true) :
    ∃ last, (s.page key content keyMarker versionIdMarker).entries.getLast? = some last := by
  rw [Situation.page, decide_eq_true_eq] at htruncated
  have hne : (s.page key content keyMarker versionIdMarker).entries ≠ [] := by
    intro hnil
    have hlength := congrArg List.length hnil
    rw [Situation.page, List.length_take, List.length_nil] at hlength
    have hpos := s.pageSize_pos
    omega
  exact ⟨_, List.getLast?_eq_some_getLast hne⟩

/-- Where each page up to the bound is truncated, the bound is met. -/
theorem listPages_truncates (hopen : s.listingRefused = none) {pages : Nat}
    (htruncates : Truncates s key pages keyMarker versionIdMarker) :
    listPages s key s.content pages keyMarker versionIdMarker versionIds =
      .error (tooManyPages key) := by
  induction pages generalizing keyMarker versionIdMarker versionIds with
  | zero => rfl
  | succ pages ih =>
      obtain ⟨htruncated, last, hlast, hrest⟩ := htruncates
      rw [listPages_next s hopen htruncated hlast, ih hrest]

end Pages

/- The versions of one key -/

section Exact

variable {content : Content} {bucket key : Text} {version : Version}

/-- The versions of exactly a key, from the newest. The deletion is about these and no others. -/
def Content.exact (content : Content) (bucket key : Text) : List Version :=
  (content.sharing bucket key).filter fun version => version.key = key

theorem Content.mem_sharing : version ∈ content.sharing bucket key ↔
    version ∈ content.versions ∧ version.bucket = bucket ∧ key <+: version.key := by
  rw [Content.sharing, List.mem_mergeSort, List.mem_filter, Bool.and_eq_true, decide_eq_true_eq,
    List.isPrefixOf_iff_prefix]

theorem Content.mem_exact : version ∈ content.exact bucket key ↔
    version ∈ content.versions ∧ version.place = (bucket, key) := by
  rw [Content.exact, List.mem_filter, Content.mem_sharing, decide_eq_true_eq, Version.place,
    Prod.mk.injEq]
  constructor
  · rintro ⟨⟨hversion, hbucket, -⟩, hkey⟩
    exact ⟨hversion, hbucket, hkey⟩
  · rintro ⟨hversion, hbucket, hkey⟩
    exact ⟨⟨hversion, hbucket, hkey ▸ List.prefix_rfl⟩, hkey⟩

theorem Content.sharing_pairwise :
    (content.sharing bucket key).Pairwise fun a b => a.key ≤ b.key := by
  have htotal : Std.Total fun a b : Version => a.key ≤ b.key := ⟨fun a b => le_total a.key b.key⟩
  have htrans : IsTrans Version fun a b => a.key ≤ b.key := ⟨fun _ _ _ => le_trans⟩
  exact List.pairwise_mergeSort' (fun a b : Version => a.key ≤ b.key) _

theorem le_of_start {start text : Text} (hstart : start <+: text) : start ≤ text :=
  not_lt.mp (List.IsPrefix.le hstart)

/-- Sorted by their keys, the versions of the least key come first, and those of longer keys
with the same beginning follow. -/
theorem eq_filter_append_filter {versions : List Version}
    (hsorted : versions.Pairwise fun a b => a.key ≤ b.key)
    (hle : ∀ version ∈ versions, key ≤ version.key) :
    versions = versions.filter (fun version => version.key = key) ++
      versions.filter fun version => version.key ≠ key := by
  induction versions with
  | nil => rfl
  | cons first versions ih =>
      obtain ⟨hfirst, hrest⟩ := List.pairwise_cons.mp hsorted
      have hrest' := ih hrest fun version hversion => hle version (List.mem_cons_of_mem _ hversion)
      by_cases hkey : first.key = key
      · rw [List.filter_cons_of_pos (by simpa using hkey),
          List.filter_cons_of_neg (by simpa using hkey), List.cons_append, ← hrest']
      · have hlt : key < first.key := lt_of_le_of_ne (hle first List.mem_cons_self) (Ne.symm hkey)
        have hother : ∀ version ∈ first :: versions, version.key ≠ key := by
          intro version hversion
          rcases List.mem_cons.mp hversion with rfl | hversion
          · exact hkey
          · exact (hlt.trans_le (hfirst version hversion)).ne'
        have hnone : (first :: versions).filter (fun version => version.key = key) = [] := by
          rw [List.filter_eq_nil_iff]
          intro version hversion
          simpa using hother version hversion
        have hall : (first :: versions).filter (fun version => version.key ≠ key) =
            first :: versions := by
          rw [List.filter_eq_self]
          intro version hversion
          simpa using hother version hversion
        rw [hnone, hall, List.nil_append]

theorem Content.sharing_eq : content.sharing bucket key = content.exact bucket key ++
    (content.sharing bucket key).filter fun version => version.key ≠ key := by
  refine eq_filter_append_filter Content.sharing_pairwise ?_
  intro version hversion
  exact le_of_start (Content.mem_sharing.mp hversion).2.2

/-- The versions of a key have different ids. -/
theorem Content.exact_nodup : ((content.exact bucket key).map Version.id).Nodup := by
  have hsharing : ((content.sharing bucket key).map fun version =>
      (version.place, version.id)).Nodup := by
    refine (List.Perm.nodup_iff ((List.mergeSort_perm _ _).map _)).mpr ?_
    exact content.distinct.sublist (List.filter_sublist.map _)
  have hexact : ((content.exact bucket key).map fun version =>
      (version.place, version.id)).Nodup := hsharing.sublist (List.filter_sublist.map _)
  have hplace : (content.exact bucket key).map (fun version => (version.place, version.id)) =
      ((content.exact bucket key).map Version.id).map fun id => ((bucket, key), id) := by
    rw [List.map_map]
    apply List.map_congr_left
    intro version hversion
    rw [Function.comp_apply, (Content.mem_exact.mp hversion).2]
  rw [hplace] at hexact
  exact hexact.of_map

end Exact

/- The listing as a whole -/

section Listing

variable {p : Provider} (s : Situation p) {key : Text} {content : Content}
  {rest pending : List Version} {keyMarker versionIdMarker : Option Text}

/-- What is left of a listing begins with what is left of the key's versions. -/
structure Pending (p : Provider) (key : Text) (content : Content) (rest pending : List Version) :
    Prop where
  suffix : pending <:+ content.exact p.bucket key
  split : ∃ others, rest = pending ++ others ∧
    ∀ version ∈ others, version ∈ content.sharing p.bucket key ∧ version.key ≠ key

theorem pending_start :
    Pending p key content (afterMarkers (content.sharing p.bucket key) none none)
      (content.exact p.bucket key) where
  suffix := List.suffix_rfl
  split := by
    refine ⟨_, Content.sharing_eq, ?_⟩
    intro version hversion
    obtain ⟨hmem, hne⟩ := List.mem_filter.mp hversion
    exact ⟨hmem, of_decide_eq_true hne⟩

/-- After one of the key's versions come those that follow it, and nothing is listed twice. -/
theorem pending_after_exact {last : Version}
    (hsuffix : last :: pending <:+ content.exact p.bucket key) :
    Pending p key content
      (afterMarkers (content.sharing p.bucket key) (some key) (some last.id)) pending where
  suffix := (List.suffix_cons last pending).trans hsuffix
  split := by
    obtain ⟨front, hfront⟩ := hsuffix
    have hnodup : ((content.exact p.bucket key).map Version.id).Nodup := Content.exact_nodup
    rw [← hfront, List.map_append, List.map_cons, List.nodup_append] at hnodup
    have hbefore : ∀ version ∈ front, version.id ≠ last.id := fun version hversion =>
      hnodup.2.2 _ (List.mem_map_of_mem hversion) _ List.mem_cons_self
    refine ⟨(content.sharing p.bucket key).filter fun version => key < version.key, ?_, ?_⟩
    · have hexact : (content.sharing p.bucket key).filter (fun version => version.key = key) =
          front ++ last :: pending := hfront.symm
      rw [afterMarkers, hexact, List.dropWhile_append_of_pos, List.dropWhile_cons_of_neg]
      · rfl
      · simp
      · intro version hversion
        exact decide_eq_true (hbefore version hversion)
    · intro version hversion
      obtain ⟨hmem, hlt⟩ := List.mem_filter.mp hversion
      exact ⟨hmem, (of_decide_eq_true hlt).ne'⟩

/-- After a greater key none of the key's versions comes. -/
theorem pending_after_greater {marker id : Text} (hmarker : key < marker) :
    Pending p key content
      (afterMarkers (content.sharing p.bucket key) (some marker) (some id)) [] where
  suffix := List.nil_suffix
  split := by
    refine ⟨_, (List.nil_append _).symm, ?_⟩
    intro version hversion
    rw [afterMarkers] at hversion
    rcases List.mem_append.mp hversion with hsame | hgreater
    · have hfilter := (List.dropWhile_sublist _).subset (List.mem_of_mem_drop hsame)
      obtain ⟨hmem, hkey⟩ := List.mem_filter.mp hfilter
      rw [of_decide_eq_true hkey]
      exact ⟨hmem, hmarker.ne'⟩
    · obtain ⟨hmem, hlt⟩ := List.mem_filter.mp hgreater
      exact ⟨hmem, (hmarker.trans (of_decide_eq_true hlt)).ne'⟩

/-- A key that extends another is read as a greater one. -/
theorem lt_read {version : Version} (hread : p.markup.read key = key)
    (hversion : version ∈ content.sharing p.bucket key) (hne : version.key ≠ key) :
    key < p.markup.read version.key := by
  have hstart := (Content.mem_sharing.mp hversion).2.2
  have hprefix : key <+: p.markup.read version.key := by
    obtain ⟨tail, htail⟩ := hstart
    rw [← htail, VersionMarkup.read, p.markup.spelling.xmlUnescape_append]
    exact ⟨_, congrArg (· ++ _) hread.symm⟩
  refine lt_of_le_of_ne (le_of_start hprefix) ?_
  intro heq
  exact hne ((p.markup.read_eq_iff hstart).mp heq.symm).1

theorem pending_next {last : Version} {size : Nat} (hread : p.markup.read key = key)
    (hpending : Pending p key content rest pending) (hsize : size < rest.length)
    (hlast : (rest.take size).getLast? = some last) :
    Pending p key content
      (afterMarkers (content.sharing p.bucket key) (some (p.markup.read last.key))
        (some (p.markup.read last.id))) (pending.drop size) := by
  obtain ⟨hsuffix, others, rfl, hothers⟩ := hpending
  rw [List.take_append] at hlast
  by_cases hle : size ≤ pending.length
  · rw [Nat.sub_eq_zero_of_le hle, List.take_zero, List.append_nil] at hlast
    obtain ⟨front, hfront⟩ := List.getLast?_eq_some_iff.mp hlast
    have hsplit : pending = front ++ last :: pending.drop size := by
      have htake : pending.take size = front ++ [last] := by
        exact hfront
      calc
        pending = pending.take size ++ pending.drop size := (List.take_append_drop _ _).symm
        _ = front ++ last :: pending.drop size := by rw [htake, List.append_assoc]; rfl
    have hrest : last :: pending.drop size <:+ content.exact p.bucket key :=
      List.IsSuffix.trans ⟨front, hsplit.symm⟩ hsuffix
    have hkey : last.key = key := by
      have hmem := Content.mem_exact.mp (hrest.subset List.mem_cons_self)
      exact congrArg Prod.snd hmem.2
    rw [hkey, hread, p.markup.read_id]
    exact pending_after_exact hrest
  · have hdrop : pending.drop size = [] := List.drop_of_length_le (by omega)
    have hmem : last ∈ others := by
      have hne : others.take (size - pending.length) ≠ [] := by
        intro hnil
        have hlength := congrArg List.length hnil
        rw [List.length_append] at hsize
        rw [List.length_take, List.length_nil] at hlength
        omega
      rw [List.getLast?_append_of_ne_nil _ hne] at hlast
      exact List.mem_of_mem_take (List.mem_of_getLast? hlast)
    rw [hdrop]
    exact pending_after_greater (lt_read hread (hothers last hmem).1 (hothers last hmem).2)

theorem takenId_exact {version : Version} (hread : p.markup.read key = key)
    (hkey : version.key = key) : takenId p.markup key version = some version.id := by
  rw [takenId, hkey, if_pos hread]

theorem takenId_other {version : Version} (hversion : version ∈ content.sharing p.bucket key)
    (hother : ¬(version.key = key ∧ p.markup.read key = key)) :
    takenId p.markup key version = none := by
  have hstart := (Content.mem_sharing.mp hversion).2.2
  exact if_neg fun hread => hother ((p.markup.read_eq_iff hstart).mp hread)

/-- A page gives the versions of the key that are on it. -/
theorem filterMap_takenId (hread : p.markup.read key = key)
    (hpending : Pending p key content rest pending) (size : Nat) :
    (rest.take size).filterMap (takenId p.markup key) = (pending.take size).map Version.id := by
  obtain ⟨hsuffix, others, rfl, hothers⟩ := hpending
  have htaken : (pending.take size).filterMap (takenId p.markup key) =
      (pending.take size).map Version.id := by
    rw [← List.filterMap_eq_map]
    apply List.filterMap_congr
    intro version hversion
    have hmem := Content.mem_exact.mp (hsuffix.subset (List.mem_of_mem_take hversion))
    exact takenId_exact hread (congrArg Prod.snd hmem.2)
  have hnone : (others.take (size - pending.length)).filterMap (takenId p.markup key) = [] := by
    rw [List.filterMap_eq_nil_iff]
    intro version hversion
    obtain ⟨hmem, hne⟩ := hothers version (List.mem_of_mem_take hversion)
    exact takenId_other hmem fun hboth => hne hboth.1
  rw [List.take_append, List.filterMap_append, htaken, hnone, List.append_nil]

/-- The pages together give the key's versions, unless there are too many. -/
theorem listPages_of_pending (hopen : s.listingRefused = none)
    (hread : p.markup.read key = key) {pages : Nat} {versionIds : List Text}
    (hpending : Pending p key content
      (afterMarkers (content.sharing p.bucket key) keyMarker versionIdMarker) pending)
    (hids : versionIds ++ pending.map Version.id =
      (content.exact p.bucket key).map Version.id) :
    listPages s key content pages keyMarker versionIdMarker versionIds =
        .ok (some ((content.exact p.bucket key).map Version.id)) ∨
      listPages s key content pages keyMarker versionIdMarker versionIds =
        .error (tooManyPages key) := by
  induction pages generalizing keyMarker versionIdMarker versionIds pending with
  | zero => exact Or.inr rfl
  | succ pages ih =>
      have hpage : (s.page key content keyMarker versionIdMarker).entries.filterMap
          (takenId p.markup key) = (pending.take s.pageSize).map Version.id :=
        filterMap_takenId hread hpending s.pageSize
      cases htruncated : (s.page key content keyMarker versionIdMarker).truncated with
      | false =>
          have hall : pending.take s.pageSize = pending := by
            obtain ⟨-, others, hsplit, -⟩ := hpending
            have hlength : ¬s.pageSize <
                (afterMarkers (content.sharing p.bucket key) keyMarker versionIdMarker).length :=
              of_decide_eq_false htruncated
            rw [hsplit, List.length_append] at hlength
            exact List.take_of_length_le (by omega)
          rw [listPages_last s hopen htruncated, hpage, hall, hids]
          exact Or.inl rfl
      | true =>
          obtain ⟨last, hlast⟩ := getLast?_of_truncated s htruncated
          have hnext := pending_next hread hpending (of_decide_eq_true htruncated) hlast
          rw [listPages_next s hopen htruncated hlast, hpage]
          apply ih hnext
          rw [List.append_assoc, ← List.map_append, List.take_append_drop, hids]

theorem listKeyVersions_refused {response : Response}
    (hrefused : s.listingRefused = some response) :
    listKeyVersions s key content = .error (listingError p key response) := by
  obtain ⟨hfailed, hversions⟩ := s.listingRefused_failed response hrefused
  rw [listKeyVersions, maxVersionListPages, listPages, Situation.sendListing, hrefused]
  dsimp only
  rw [if_pos (by rw [hfailed]; decide), hversions]
  rfl

/-- A listing that succeeds has given all versions of the key and nothing else. -/
theorem listKeyVersions_ok (hread : p.markup.read key = key) {listed : Option (List Text)}
    (hlist : listKeyVersions s key content = .ok listed) :
    listed = some ((content.exact p.bucket key).map Version.id) := by
  cases hopen : s.listingRefused with
  | some response =>
      rw [listKeyVersions_refused s hopen] at hlist
      cases hlist
  | none =>
      have hpages : listKeyVersions s key content =
            .ok (some ((content.exact p.bucket key).map Version.id)) ∨
          listKeyVersions s key content = .error (tooManyPages key) :=
        listPages_of_pending s hopen hread pending_start (List.nil_append _)
      rcases hpages with hall | hbound
      · rw [hall] at hlist
        exact (Except.ok.inj hlist).symm
      · rw [hbound] at hlist
        cases hlist

/-- Whatever is read of the keys, a listing of one page gives what is taken from it. -/
theorem listKeyVersions_short (hopen : s.listingRefused = none)
    (hshort : (content.sharing p.bucket key).length ≤ s.pageSize) :
    listKeyVersions s key content =
      .ok (some ((content.sharing p.bucket key).filterMap (takenId p.markup key))) := by
  have hentries : (s.page key content none none).entries = content.sharing p.bucket key :=
    List.take_of_length_le hshort
  have hlast : (s.page key content none none).truncated = false :=
    decide_eq_false (Nat.not_lt.mpr hshort)
  rw [listKeyVersions, maxVersionListPages, listPages_last s hopen hlast, hentries]
  rfl

end Listing

end S3

end MailPanel
