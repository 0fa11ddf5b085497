import MailPanel.BackupDestination
import MailPanel.IsoInstant
import MailPanel.XmlText
import Mathlib.Data.List.Sort

/-
The backups that a listing of an S3 bucket answers: the request for one page, the page as
markup, and what is read from it.
-/

namespace MailPanel

namespace S3

open XmlText Backups
open NumberText (JsNumber toNumber isDigit)
open ScriptText (ofDigits)

structure AppError where
  code : String
  message : String
deriving DecidableEq, Repr

structure Response where
  statusCode : Nat
  body : Text
deriving DecidableEq, Repr

def ok (statusCode : Nat) : Bool := 200 ≤ statusCode && statusCode < 300

structure RemoteBackup where
  key : Key
  sizeBytes : JsNumber
  lastModified : Text
deriving DecidableEq, Repr

def contents : Text := "Contents".toList
def keyName : Text := "Key".toList
def sizeName : Text := "Size".toList
def lastModifiedName : Text := "LastModified".toList

/-- An object of the listing, unless it is no backup. An object without a key is passed over,
and one without a size counts as empty. -/
def readBackup (body : Text) : Option RemoteBackup :=
  match firstMatch body keyName with
  | none => none
  | some key =>
      if backupIdFromKey (String.ofList key) = none then none
      else some ⟨String.ofList key, toNumber ((firstMatch body sizeName).getD ['0']),
        (firstMatch body lastModifiedName).getD []⟩

/-- A number in so many characters from a place on. -/
def numberAt (start width : Nat) (text : Text) : Nat := ofDigits 10 ((text.drop start).take width)

/-- The numbers that stand in a text up to its seconds. -/
def readDateTime (text fraction : Text) : IsoTime.DateTime :=
  ⟨numberAt 0 4 text, numberAt 5 2 text, numberAt 8 2 text, numberAt 11 2 text,
    numberAt 14 2 text, some (numberAt 17 2 text, fraction)⟩

/-- What follows the seconds: nothing, or a fraction of any length, of which the milliseconds
are read. -/
def fraction? : Text → Option Text
  | ['Z'] => some []
  | '.' :: rest =>
      if rest.dropLast ≠ [] ∧ rest.dropLast.all isDigit ∧ rest.getLast? = some 'Z' then
        some (rest.dropLast.take 3)
      else none
  | _ => none

def clockOk (time : IsoTime.DateTime) : Bool :=
  1 ≤ time.month && time.month ≤ 12 && 1 ≤ time.day && time.day ≤ 31 && time.hour < 24 &&
    time.minute < 60 && time.seconds.all fun seconds => seconds.1 < 60

def digitMask (text : Text) : Text := text.map fun c => if isDigit c then '0' else c

/-- `new Date(text).getTime()`, for an instant of four-digit years with its seconds, in UTC: the
forms in which stores write the time of an object. -/
def getTime (text : Text) : Option ℚ :=
  if digitMask (text.take 19) = "0000-00-00T00:00:00".toList then
    match fraction? (text.drop 19) with
    | none => none
    | some fraction =>
        if clockOk (readDateTime text fraction) then some (readDateTime text fraction).instant
        else none
  else none

example : (getTime "2026-01-01T00:00:00Z".toList).isSome = true ∧
    (getTime "2026-01-01T00:00:00.5Z".toList).isSome = true ∧
    (getTime "2026-01-01T24:00:00.500Z".toList).isSome = false := by
  decide

/-- The comparison by which the first does not have to follow the second. -/
def newerFirst (a b : RemoteBackup) : Bool :=
  match getTime a.lastModified, getTime b.lastModified with
  | some first, some second => second ≤ first
  | _, _ => true

def list (response : Response) : Except AppError (List RemoteBackup) :=
  if ¬ok response.statusCode then
    .error ⟨"UPSTREAM_UNAVAILABLE",
      "S3 list failed (HTTP " ++ toString response.statusCode ++ ")."⟩
  else
    let blocks := betweens (openings [contents]) (closings [contents]) response.body
    .ok ((blocks.filterMap readBackup).mergeSort newerFirst)

/- The store -/

/-- An object of a bucket, with the size and the time that a listing gives. Both are within what
the source's numbers and dates can hold. -/
structure StoredObject where
  key : Key
  size : Nat
  /-- In milliseconds. -/
  modified : Nat
  size_lt : size < 2 ^ 53
  year_lt : (IsoTime.civilFromDays (modified / 86400000)).1 < 10000

/-- A configured prefix, of letters, digits and the four characters. -/
structure Base where
  text : String
  safe : ∀ c ∈ text.toList, c.isAlphanum = true ∨ c ∈ ['.', '_', '/', '-']

/-- `[A-Za-z0-9._-]+`. -/
structure ValidId (id : BackupId) : Prop where
  nonempty : id.toList ≠ []
  safe : ∀ c ∈ id.toList, c.isAlphanum = true ∨ c ∈ ['.', '_', '-']

/-- A bucket in the order of its keys, and how many keys it answers at a time. -/
structure ObjectStore where
  objects : List StoredObject
  ordered : (objects.map StoredObject.key).Pairwise (· < ·)
  pageSize : Nat
  pageSize_le : pageSize ≤ 1000

namespace ObjectStore

variable (store : ObjectStore)

def covered (base : Base) : List StoredObject :=
  store.objects.filter fun object => base.text.toList.isPrefixOf object.key.toList

/-- `ListObjectsV2` without a continuation token. -/
def firstPage (base : Base) : List StoredObject := (store.covered base).take store.pageSize

end ObjectStore

/-- How the store writes a page: each object as fields, and something around all objects
that may tell of the rest. -/
structure Markup where
  spelling : Spelling
  layout : Layout
  front : List StoredObject → List StoredObject → List Token
  back : List StoredObject → List StoredObject → List Token
  fields : StoredObject → List Field
  front_lacks : ∀ covered page, Lacks [contents] (front covered page)
  back_lacks : ∀ covered page, Lacks [contents] (back covered page)
  proper : ∀ object, ∀ field ∈ fields object, field.Proper ∧ field.1 ≠ contents
  key : ∀ object, (fields object).find? (fun field => field.1 = keyName) =
    some (keyName, spelling.spell object.key.toList)
  size : ∀ object, (fields object).find? (fun field => field.1 = sizeName) =
    some (sizeName, spelling.spell (Nat.toDigits 10 object.size))
  lastModified : ∀ object, (fields object).find? (fun field => field.1 = lastModifiedName) =
    some (lastModifiedName, spelling.spell (IsoTime.isoText object.modified))

/-- What stands between the tags of an object. -/
def Markup.content (markup : Markup) (object : StoredObject) : List Token :=
  childTokens markup.layout (markup.fields object)

def ObjectStore.answer (store : ObjectStore) (markup : Markup) (base : Base) : Response :=
  let covered := store.covered base
  let page := store.firstPage base
  ⟨200, render (markup.front covered page ++
    (enclosed markup.layout (page.map fun object => (contents, markup.content object)) ++
      markup.back covered page))⟩

/-- Every stored backup is among the answers with what is stored of it, and each answer is
as new as those that follow. -/
structure Complete (store : ObjectStore) (base : Base) (answer : List RemoteBackup) : Prop where
  listed : ∀ object ∈ store.objects, ∀ id, ValidId id →
    object.key = backupObjectKey base.text id →
      ⟨object.key, .finite object.size, IsoTime.isoText object.modified⟩ ∈ answer
  newestFirst : answer.Pairwise fun a b => ∃ first second,
    getTime a.lastModified = some first ∧ getTime b.lastModified = some second ∧ second ≤ first

/-- Every stored backup is on the first page. -/
def OnFirstPage (store : ObjectStore) (base : Base) : Prop :=
  ∀ object ∈ store.objects, ∀ id, ValidId id → object.key = backupObjectKey base.text id →
    object ∈ store.firstPage base

/- Reading numbers and times -/

theorem toNumber_digits {n : Nat} (hn : n < 2 ^ 53) : toNumber (Nat.toDigits 10 n) = .finite n := by
  have hshort : (Nat.toDigits 10 n).length ≤ 21 := by
    rw [Nat.length_toDigits_le_iff (by decide) (by decide)]
    omega
  have hspelled : NumberText.layOut n 0 = Nat.toDigits 10 n := by
    have hpoint : ((Nat.toDigits 10 n).length : ℤ) ≤ (Nat.toDigits 10 n).length + 0 ∧
        ((Nat.toDigits 10 n).length : ℤ) + 0 ≤ 21 := by
      omega
    rw [NumberText.layOut, if_pos hpoint]
    simp [NumberText.spelled, NumberText.fractionPart, NumberText.exponentPart]
  rw [← hspelled, NumberText.toNumber_layOut, zpow_zero, mul_one, NumberText.rounded]
  rcases Nat.eq_zero_or_pos n with rfl | hpos
  · have hzero : Binary64.ofRat ((0 : ℕ) : ℚ) = ((0 : ℚ) : WithTop ℚ) := by
      decide +kernel
    rw [hzero]
    rfl
  · rw [Binary64.ofRat_natCast hpos hn]
    rfl

theorem civilFromDays_bounds (days : Nat) :
    1 ≤ (IsoTime.civilFromDays days).2.1 ∧ (IsoTime.civilFromDays days).2.1 ≤ 12 ∧
      1 ≤ (IsoTime.civilFromDays days).2.2 ∧ (IsoTime.civilFromDays days).2.2 ≤ 31 := by
  obtain ⟨hmonthPos, hmonthLe, hdayPos, hdayLe⟩ := (Calendar.civilFromDays_spec days).1
  refine ⟨hmonthPos, hmonthLe, hdayPos, hdayLe.trans ?_⟩
  rw [Calendar.daysInMonth]
  split
  · split
    · omega
    · omega
  · split
    · omega
    · omega

theorem digitMask_padded {width value : Nat} (hvalue : value < 10 ^ width) (hwidth : 0 < width) :
    digitMask (IsoTime.padded width value) = List.replicate width '0' := by
  obtain ⟨hlength, hdigits, -⟩ := IsoTime.padded_spec hvalue hwidth
  rw [digitMask, List.map_eq_replicate_iff.mpr, hlength]
  intro c hc
  exact if_pos (hdigits c hc)

/-- An instant's text up to its seconds. -/
def clockFront (year month day hour minute second : Text) : Text :=
  year ++ '-' :: (month ++ '-' :: (day ++ 'T' :: (hour ++ ':' :: (minute ++ ':' :: second))))

/-- The form of an instant's text. -/
def clockText (year month day hour minute second fraction : Text) : Text :=
  clockFront year month day hour minute second ++ '.' :: (fraction ++ ['Z'])

theorem readDateTime_clockText {year month day hour minute second : Text}
    (hyear : year.length = 4) (hmonth : month.length = 2) (hday : day.length = 2)
    (hhour : hour.length = 2) (hminute : minute.length = 2) (hsecond : second.length = 2)
    (fraction read : Text) :
    readDateTime (clockText year month day hour minute second fraction) read =
      ⟨ofDigits 10 year, ofDigits 10 month, ofDigits 10 day, ofDigits 10 hour,
        ofDigits 10 minute, some (ofDigits 10 second, read)⟩ := by
  obtain ⟨d₁, d₂, rfl⟩ := List.length_eq_two.mp hday
  obtain ⟨m₁, m₂, rfl⟩ := List.length_eq_two.mp hmonth
  obtain ⟨h₁, h₂, rfl⟩ := List.length_eq_two.mp hhour
  obtain ⟨n₁, n₂, rfl⟩ := List.length_eq_two.mp hminute
  obtain ⟨s₁, s₂, rfl⟩ := List.length_eq_two.mp hsecond
  match year, hyear with
  | [y₁, y₂, y₃, y₄], _ =>
      simp only [clockText, clockFront, readDateTime, numberAt, List.cons_append,
        List.nil_append, List.drop_succ_cons, List.drop_zero, List.take_succ_cons,
        List.take_zero]

theorem length_clockFront {year month day hour minute second : Text}
    (hyear : year.length = 4) (hmonth : month.length = 2) (hday : day.length = 2)
    (hhour : hour.length = 2) (hminute : minute.length = 2) (hsecond : second.length = 2) :
    (clockFront year month day hour minute second).length = 19 := by
  simp only [clockFront, List.length_append, List.length_cons, hyear, hmonth, hday, hhour,
    hminute, hsecond]

theorem fraction_milliseconds {fraction : Text} (hlength : fraction.length = 3)
    (hdigits : ∀ c ∈ fraction, isDigit c = true) :
    fraction? ('.' :: (fraction ++ ['Z'])) = some fraction := by
  have hne : fraction ≠ [] := by
    rintro rfl
    cases hlength
  have htake : fraction.take 3 = fraction := List.take_of_length_le hlength.le
  simp only [fraction?, List.dropLast_concat, List.getLast?_concat, htake]
  exact if_pos ⟨hne, List.all_eq_true.mpr hdigits, trivial⟩

/-- A time whose parts have their usual widths: four digits for the year, two for the others,
and three for the fraction. -/
structure Short (time : IsoTime.DateTime) (second : Nat) (fraction : Text) : Prop where
  year : time.year < 10 ^ 4
  month : 1 ≤ time.month ∧ time.month ≤ 12
  day : 1 ≤ time.day ∧ time.day ≤ 31
  hour : time.hour < 24
  minute : time.minute < 60
  second_lt : second < 60
  seconds : time.seconds = some (second, fraction)
  fraction : fraction.length = 3 ∧ ∀ c ∈ fraction, isDigit c = true

theorem Short.text {time : IsoTime.DateTime} {second : Nat} {fraction : Text}
    (hshort : Short time second fraction) : time.text =
      clockText (IsoTime.padded 4 time.year) (IsoTime.padded 2 time.month)
        (IsoTime.padded 2 time.day) (IsoTime.padded 2 time.hour) (IsoTime.padded 2 time.minute)
        (IsoTime.padded 2 second) fraction := by
  have hne : fraction ≠ [] := by
    intro hnil
    have hlength := hshort.fraction.1
    rw [hnil] at hlength
    cases hlength
  have hyear : time.year < 10000 := hshort.year
  rw [IsoTime.DateTime.text, IsoTime.DateTime.yearText, if_pos hyear, hshort.seconds,
    IsoTime.DateTime.secondsText, IsoTime.DateTime.fractionText_eq hne, clockText, clockFront]
  simp only [List.append_assoc, List.cons_append]

/-- A text of the form is the time that it was written for, to the millisecond. -/
theorem Short.getTime {time : IsoTime.DateTime} {second : Nat} {fraction : Text}
    (hshort : Short time second fraction) : getTime time.text = some time.instant := by
  have hmonth : time.month < 10 ^ 2 := hshort.month.2.trans_lt (by decide)
  have hday : time.day < 10 ^ 2 := hshort.day.2.trans_lt (by decide)
  have hhour : time.hour < 10 ^ 2 := hshort.hour.trans (by decide)
  have hminute : time.minute < 10 ^ 2 := hshort.minute.trans (by decide)
  have hsecond : second < 10 ^ 2 := hshort.second_lt.trans (by decide)
  have htwo : ∀ {value : Nat}, value < 10 ^ 2 → (IsoTime.padded 2 value).length = 2 ∧
      ofDigits 10 (IsoTime.padded 2 value) = value := by
    intro value hvalue
    obtain ⟨hlength, -, hread⟩ := IsoTime.padded_spec hvalue (by decide)
    exact ⟨hlength, hread⟩
  obtain ⟨hyearLength, -, hyearRead⟩ := IsoTime.padded_spec hshort.year (by decide)
  have hread : readDateTime time.text fraction = time := by
    rw [hshort.text, readDateTime_clockText hyearLength (htwo hmonth).1 (htwo hday).1
      (htwo hhour).1 (htwo hminute).1 (htwo hsecond).1, hyearRead, (htwo hmonth).2,
      (htwo hday).2, (htwo hhour).2, (htwo hminute).2, (htwo hsecond).2, ← hshort.seconds]
  have hfront := length_clockFront hyearLength (htwo hmonth).1 (htwo hday).1 (htwo hhour).1
    (htwo hminute).1 (htwo hsecond).1
  have htake : time.text.take 19 = clockFront (IsoTime.padded 4 time.year)
      (IsoTime.padded 2 time.month) (IsoTime.padded 2 time.day) (IsoTime.padded 2 time.hour)
      (IsoTime.padded 2 time.minute) (IsoTime.padded 2 second) := by
    rw [hshort.text, clockText, List.take_left' hfront]
  have hdrop : time.text.drop 19 = '.' :: (fraction ++ ['Z']) := by
    rw [hshort.text, clockText, List.drop_left' hfront]
  have hmask : digitMask (time.text.take 19) = "0000-00-00T00:00:00".toList := by
    have happend : ∀ left right : Text, digitMask (left ++ right) =
        digitMask left ++ digitMask right := fun _ _ => List.map_append
    have hcons : ∀ (c : Char) (text : Text), digitMask (c :: text) =
        (if isDigit c then '0' else c) :: digitMask text := fun _ _ => rfl
    rw [htake, clockFront]
    simp only [happend, hcons, digitMask_padded hshort.year (by decide),
      digitMask_padded hmonth (by decide), digitMask_padded hday (by decide),
      digitMask_padded hhour (by decide), digitMask_padded hminute (by decide),
      digitMask_padded hsecond (by decide)]
    decide
  have hfraction := fraction_milliseconds hshort.fraction.1 hshort.fraction.2
  have hclock : clockOk time = true := by
    simp only [clockOk, hshort.seconds, Option.all_some, Bool.and_eq_true, decide_eq_true_eq]
    exact ⟨⟨⟨⟨⟨⟨hshort.month.1, hshort.month.2⟩, hshort.day.1⟩, hshort.day.2⟩, hshort.hour⟩,
      hshort.minute⟩, hshort.second_lt⟩
  rw [S3.getTime, if_pos hmask, hdrop, hfraction]
  dsimp only
  rw [hread, if_pos hclock]

theorem short_ofMillis {millis : Nat}
    (hyear : (IsoTime.civilFromDays (millis / 86400000)).1 < 10000) :
    Short (IsoTime.DateTime.ofMillis millis) (millis % 86400000 / 1000 % 60)
      (IsoTime.padded 3 (millis % 86400000 % 1000)) := by
  obtain ⟨hmonthPos, hmonthLe, hdayPos, hdayLe⟩ := civilFromDays_bounds (millis / 86400000)
  have hfraction : millis % 86400000 % 1000 < 10 ^ 3 := Nat.mod_lt _ (by decide)
  obtain ⟨hlength, hdigits, -⟩ := IsoTime.padded_spec hfraction (by decide)
  have hhour : millis % 86400000 / 3600000 < 24 := by omega
  exact {
    year := hyear
    month := ⟨hmonthPos, hmonthLe⟩
    day := ⟨hdayPos, hdayLe⟩
    hour := hhour
    minute := Nat.mod_lt _ (by decide)
    second_lt := Nat.mod_lt _ (by decide)
    seconds := rfl
    fraction := ⟨hlength, hdigits⟩ }

theorem getTime_isoText {millis : Nat}
    (hyear : (IsoTime.civilFromDays (millis / 86400000)).1 < 10000) :
    getTime (IsoTime.isoText millis) = some (millis : ℚ) := by
  rw [IsoTime.DateTime.isoText_eq, (short_ofMillis hyear).getTime,
    IsoTime.DateTime.instant_ofMillis]

theorem isOrdinary_of_isDigit {c : Char} (hdigit : isDigit c = true) : isOrdinary c = true := by
  have hsame : c.isDigit = true := by
    rw [isDigit, Bool.and_eq_true, decide_eq_true_eq, decide_eq_true_eq] at hdigit
    rw [Char.isDigit, Bool.and_eq_true, decide_eq_true_eq, decide_eq_true_eq]
    exact hdigit
  rw [isOrdinary, Char.isAlphanum, hsame, Bool.or_true, Bool.true_or]

theorem isOrdinary_padded {width value : Nat} {c : Char} (hc : c ∈ IsoTime.padded width value) :
    isOrdinary c = true := by
  rw [IsoTime.padded] at hc
  rcases List.mem_append.mp hc with hzero | hdigit
  · rw [(List.mem_replicate.mp hzero).2]
    decide
  · exact isOrdinary_of_isDigit (NumberText.isDigit_of_mem_toDigits hdigit)

theorem isOrdinary_isoText {millis : Nat}
    (hyear : (IsoTime.civilFromDays (millis / 86400000)).1 < 10000) :
    ∀ c ∈ IsoTime.isoText millis, isOrdinary c = true := by
  intro c hc
  rw [IsoTime.isoText, if_pos hyear] at hc
  simp only [List.mem_append, List.mem_cons, List.not_mem_nil, or_false, or_assoc] at hc
  rcases hc with hc | rfl | hc | rfl | hc | rfl | hc | rfl | hc | rfl | hc | rfl | hc | rfl
  · exact isOrdinary_padded hc
  · decide
  · exact isOrdinary_padded hc
  · decide
  · exact isOrdinary_padded hc
  · decide
  · exact isOrdinary_padded hc
  · decide
  · exact isOrdinary_padded hc
  · decide
  · exact isOrdinary_padded hc
  · decide
  · exact isOrdinary_padded hc
  · decide

section Keys

variable {base : Base} {id : BackupId}

/-- A backup's key is of the characters of prefixes, the ending among them. -/
theorem safe_key (hid : ValidId id) : ∀ c ∈ (backupObjectKey base.text id).toList,
    c.isAlphanum = true ∨ c ∈ ['.', '_', '/', '-'] := by
  intro c hc
  rw [backupObjectKey, String.toList_append, String.toList_append, List.mem_append,
    List.mem_append] at hc
  rcases hc with (hbase | hid') | hending
  · split at hbase
    · cases hbase
    · split at hbase
      · exact base.safe c hbase
      · rw [String.toList_append, List.mem_append] at hbase
        rcases hbase with hbase | hslash
        · exact base.safe c hbase
        · rw [List.mem_singleton.mp hslash]
          decide
  · rcases hid.safe c hid' with halphanum | hlisted
    · exact Or.inl halphanum
    · have hmore : ∀ d ∈ ['.', '_', '-'], d ∈ ['.', '_', '/', '-'] :=
        List.all_iff_forall_prop.mp (by decide)
      exact Or.inr (hmore c hlisted)
  · have hall : ∀ d ∈ ".tar".toList, d.isAlphanum = true ∨ d ∈ ['.', '_', '/', '-'] :=
      List.all_iff_forall_prop.mp (by decide)
    exact hall c hending

theorem isOrdinary_key (hid : ValidId id) :
    ∀ c ∈ (backupObjectKey base.text id).toList, isOrdinary c = true := by
  intro c hc
  rw [isOrdinary, Bool.or_eq_true, decide_eq_true_eq]
  rcases safe_key hid c hc with halphanum | hlisted
  · exact Or.inl halphanum
  · have hmore : ∀ d ∈ ['.', '_', '/', '-'], d ∈ ['.', '_', '-', '~', '/', ':'] :=
      List.all_iff_forall_prop.mp (by decide)
    exact Or.inr (hmore c hlisted)

theorem slashFree_of_validId (hid : ValidId id) : SlashFree id := by
  intro hslash
  rcases hid.safe '/' hslash with halphanum | hlisted
  · exact absurd halphanum (by decide)
  · exact absurd hlisted (by decide)

/-- A backup's key is known for one. -/
theorem backupIdFromKey_ne_none (hid : ValidId id) :
    backupIdFromKey (backupObjectKey base.text id) ≠ none := by
  have hbase := baseName_backupObjectKey base.text (slashFree_of_validId hid)
  have hsuffix : ".tar".toList.isSuffixOf (id.toList ++ ".tar".toList) = true := by
    rw [List.isSuffixOf_iff_suffix]
    exact List.suffix_append _ _
  have htake : (id.toList ++ ".tar".toList).take ((id.toList ++ ".tar".toList).length - 4) =
      id.toList := by
    simp
  rw [backupIdFromKey, hbase, if_pos hsuffix, htake, if_neg hid.nonempty]
  exact Option.some_ne_none _

theorem amp_not_mem_key (hid : ValidId id) : '&' ∉ (backupObjectKey base.text id).toList := by
  intro hmem
  exact absurd (isOrdinary_key hid '&' hmem) (by decide)

end Keys

section Reading

variable (markup : Markup) (object : StoredObject)

/-- What the code makes of an object. -/
def readOf : Option RemoteBackup := readBackup (render (markup.content object))

theorem firstMatch_field {name value : Text} (hslash : name.head? ≠ some '/')
    (hfind : (markup.fields object).find? (fun field => field.1 = name) = some (name, value)) :
    firstMatch (render (markup.content object)) name = some (xmlUnescape value) :=
  firstMatch_childTokens (fun field hfield => (markup.proper object field hfield).1) hslash hfind

theorem size_field :
    (firstMatch (render (markup.content object)) sizeName).map toNumber =
      some (.finite object.size) := by
  have hdigits : ∀ c ∈ Nat.toDigits 10 object.size, isOrdinary c = true := fun c hc =>
    isOrdinary_of_isDigit (NumberText.isDigit_of_mem_toDigits hc)
  rw [firstMatch_field markup object (by decide) (markup.size object), Option.map_some,
    markup.spelling.xmlUnescape_ordinary hdigits, toNumber_digits object.size_lt]

theorem lastModified_field :
    firstMatch (render (markup.content object)) lastModifiedName =
      some (IsoTime.isoText object.modified) := by
  rw [firstMatch_field markup object (by decide) (markup.lastModified object),
    markup.spelling.xmlUnescape_ordinary (isOrdinary_isoText object.year_lt)]

theorem readBackup_of_fields {body key size modified : Text}
    (hkey : firstMatch body keyName = some key) (hsize : firstMatch body sizeName = some size)
    (hmodified : firstMatch body lastModifiedName = some modified) : readBackup body =
      if backupIdFromKey (String.ofList key) = none then none
      else some ⟨String.ofList key, toNumber size, modified⟩ := by
  rw [readBackup, hkey, hsize, hmodified]
  rfl

/-- The key that an object's text gives. -/
def readKey : Key := String.ofList (xmlUnescape (markup.spelling.spell object.key.toList))

/-- An object is read with its size and its time. -/
theorem readOf_eq : readOf markup object =
    if backupIdFromKey (readKey markup object) = none then none
    else some ⟨readKey markup object, .finite object.size, IsoTime.isoText object.modified⟩ := by
  have hkey := firstMatch_field markup object (by decide) (markup.key object)
  obtain ⟨size, hsize, hread⟩ := Option.map_eq_some_iff.mp (size_field markup object)
  rw [readOf, readBackup_of_fields hkey hsize (lastModified_field markup object), hread]
  rfl

theorem readOf_backup {base : Base} {id : BackupId} (hid : ValidId id)
    (hkey : object.key = backupObjectKey base.text id) : readOf markup object =
      some ⟨object.key, .finite object.size, IsoTime.isoText object.modified⟩ := by
  have hordinary : ∀ c ∈ object.key.toList, isOrdinary c = true := by
    rw [hkey]
    exact isOrdinary_key hid
  have hread : readKey markup object = object.key := by
    rw [readKey, markup.spelling.xmlUnescape_ordinary hordinary, String.ofList_toList]
  rw [readOf_eq, hread, if_neg]
  rw [hkey]
  exact backupIdFromKey_ne_none hid

variable {object}

theorem eq_of_readOf {entry : RemoteBackup} (hread : readOf markup object = some entry) :
    entry = ⟨readKey markup object, .finite object.size, IsoTime.isoText object.modified⟩ := by
  rw [readOf_eq] at hread
  split at hread
  · cases hread
  · exact (Option.some.inj hread).symm

/-- What is read under a backup's key is the backup. -/
theorem key_of_readOf {base : Base} {id : BackupId} (hid : ValidId id) {entry : RemoteBackup}
    (hread : readOf markup object = some entry)
    (hkey : entry.key = backupObjectKey base.text id) : object.key = entry.key := by
  rw [eq_of_readOf markup hread] at hkey ⊢
  dsimp only at hkey ⊢
  have htext : xmlUnescape (markup.spelling.spell object.key.toList) =
      (backupObjectKey base.text id).toList := by
    rw [← hkey, readKey, String.toList_ofList]
  have hsame : xmlUnescape (markup.spelling.spell object.key.toList) = object.key.toList := by
    apply markup.spelling.eq_of_xmlUnescape
    rw [htext]
    exact amp_not_mem_key hid
  rw [readKey, hsame, String.ofList_toList]

theorem getTime_of_readOf {entry : RemoteBackup} (hread : readOf markup object = some entry) :
    getTime entry.lastModified = some (object.modified : ℚ) := by
  rw [eq_of_readOf markup hread]
  exact getTime_isoText object.year_lt

/-- The blocks of a page are its objects, read one by one and sorted by their times. -/
theorem list_answer (store : ObjectStore) (base : Base) :
    list (store.answer markup base) =
      .ok (((store.firstPage base).filterMap (readOf markup)).mergeSort newerFirst) := by
  have hblocks : betweens (openings [contents]) (closings [contents])
      (store.answer markup base).body = (store.firstPage base).map fun object =>
        render (markup.content object) := by
    rw [ObjectStore.answer, betweens_render (by decide) (markup.front_lacks _ _) _
      (markup.back_lacks _ _), List.map_map]
    · rfl
    · intro block hblock
      obtain ⟨object, -, rfl⟩ := List.mem_map.mp hblock
      refine ⟨List.mem_cons_self, lacks_children ?_ ?_ (by decide)⟩
      · exact fun field hfield => (markup.proper object field hfield).1
      · intro field hfield
        rw [List.mem_singleton]
        exact (markup.proper object field hfield).2
  rw [list, if_neg]
  · dsimp only
    rw [hblocks, List.filterMap_map]
    rfl
  · exact fun hfailed => hfailed rfl

end Reading

/-- Entries with times are sorted by them. Without a time the comparison of the source is not
one, and nothing is promised. -/
theorem pairwise_newerFirst {entries : List RemoteBackup}
    (htimes : ∀ entry ∈ entries, ∃ time, getTime entry.lastModified = some time) :
    (entries.mergeSort newerFirst).Pairwise fun a b => ∃ first second,
      getTime a.lastModified = some first ∧ getTime b.lastModified = some second ∧
        second ≤ first := by
  let time := fun entry : RemoteBackup => (getTime entry.lastModified).getD 0
  have htime : ∀ entry ∈ entries, getTime entry.lastModified = some (time entry) := by
    intro entry hentry
    obtain ⟨instant, hinstant⟩ := htimes entry hentry
    simp only [time, hinstant, Option.getD_some]
  have hsame : entries.mergeSort newerFirst =
      entries.mergeSort fun a b => decide (time b ≤ time a) := by
    have hmap := List.map_mergeSort (r := newerFirst)
      (s := fun a b => decide (time b ≤ time a)) (f := id) (l := entries) (by
        intro a ha b hb
        rw [newerFirst, htime a ha, htime b hb]
        rfl)
    rwa [List.map_id, List.map_id] at hmap
  have htotal : Std.Total fun a b => time b ≤ time a := ⟨fun a b => le_total (time b) (time a)⟩
  have htrans : IsTrans RemoteBackup fun a b => time b ≤ time a :=
    ⟨fun _ _ _ hab hbc => hbc.trans hab⟩
  have hsorted := List.pairwise_mergeSort' (fun a b => time b ≤ time a) entries
  rw [hsame]
  refine hsorted.imp_of_mem ?_
  intro a b ha hb hab
  exact ⟨time a, time b, htime a (List.mem_mergeSort.mp ha), htime b (List.mem_mergeSort.mp hb),
    hab⟩

theorem mem_of_mem_firstPage {store : ObjectStore} {base : Base} {object : StoredObject}
    (hobject : object ∈ store.firstPage base) : object ∈ store.objects :=
  (List.mem_filter.mp (List.mem_of_mem_take hobject)).1

/-- A bucket holds one object of a key. -/
theorem eq_of_key {store : ObjectStore} {first second : StoredObject}
    (hfirst : first ∈ store.objects) (hsecond : second ∈ store.objects)
    (hkey : first.key = second.key) : first = second := by
  have hnodup : (store.objects.map StoredObject.key).Nodup := by
    refine store.ordered.imp ?_
    rintro a _ hlt rfl
    exact String.lt_irrefl a hlt
  exact List.inj_on_of_nodup_map hnodup hfirst hsecond hkey

theorem onFirstPage_of_complete {markup : Markup} {store : ObjectStore} {base : Base}
    {answer : List RemoteBackup} (hanswer : list (store.answer markup base) = .ok answer)
    (hcomplete : Complete store base answer) : OnFirstPage store base := by
  rw [list_answer markup store base] at hanswer
  cases hanswer
  intro object hobject id hid hkey
  have hlisted := hcomplete.listed object hobject id hid hkey
  rw [List.mem_mergeSort, List.mem_filterMap] at hlisted
  obtain ⟨other, hother, hread⟩ := hlisted
  have hsame := key_of_readOf markup hid hread hkey
  rw [← eq_of_key (mem_of_mem_firstPage hother) hobject hsame]
  exact hother

/-- The listing is complete exactly when the first page is. The store answers with one page at a
time and says when there are more; the code reads one page and does not ask. -/
theorem list_complete_iff (markup : Markup) (store : ObjectStore) (base : Base) :
    (∃ answer, list (store.answer markup base) = .ok answer ∧ Complete store base answer) ↔
      OnFirstPage store base := by
  constructor
  · rintro ⟨answer, hanswer, hcomplete⟩
    exact onFirstPage_of_complete hanswer hcomplete
  · intro hpage
    refine ⟨_, list_answer markup store base, ?_, ?_⟩
    · intro object hobject id hid hkey
      rw [List.mem_mergeSort, List.mem_filterMap]
      exact ⟨object, hpage object hobject id hid hkey, readOf_backup markup object hid hkey⟩
    · apply pairwise_newerFirst
      intro entry hentry
      obtain ⟨object, -, hread⟩ := List.mem_filterMap.mp hentry
      exact ⟨object.modified, getTime_of_readOf markup hread⟩

namespace SecondPage

/-- References for the two characters that need one, and every other character as it is. It is
the least that a store's spelling can do. -/
def spelling : Spelling where
  piece := fun c =>
    if c = '&' then .entity amp else if c = '<' then .entity lt else .plain c
  stands := by
    intro c
    split
    · rename_i hmark
      rw [hmark]
      exact .amp
    · split
      · rename_i hangle
        rw [hangle]
        exact .lt
      · rename_i hmark hangle
        exact .plain hmark hangle
  ordinary := by
    intro c hc
    rw [if_neg, if_neg]
    · rintro rfl
      exact absurd hc (by decide)
    · rintro rfl
      exact absurd hc (by decide)

/-- A line for each element, with the children further in. -/
def layout : Layout where
  beforeChild := "\n    ".toList
  afterChildren := "\n  ".toList
  beforeBlock := "\n  ".toList
  beforeChild_plain := by decide
  afterChildren_plain := by decide
  beforeBlock_plain := by decide

/-- The spelling of a page of objects as a store commonly gives it: key, time and size in this
order, and after them whether there is more. -/
def markup : Markup where
  spelling := spelling
  layout := layout
  front := fun _ _ => [.tag "ListBucketResult".toList]
  back := fun covered page => [.tag "IsTruncated".toList,
    .chars (if page.length < covered.length then "true".toList else "false".toList),
    .tag "/IsTruncated".toList, .tag "/ListBucketResult".toList]
  fields := fun object => [(keyName, spelling.spell object.key.toList),
    (lastModifiedName, spelling.spell (IsoTime.isoText object.modified)),
    (sizeName, spelling.spell (Nat.toDigits 10 object.size))]
  front_lacks := by
    intro covered page token htoken
    rw [List.mem_singleton.mp htoken]
    exact ⟨⟨by decide, by decide⟩, by decide⟩
  back_lacks := by
    intro covered page token htoken
    simp only [List.mem_cons, List.not_mem_nil, or_false] at htoken
    rcases htoken with rfl | rfl | rfl | rfl
    · exact ⟨⟨by decide, by decide⟩, by decide⟩
    · refine ⟨?_, nofun⟩
      rw [Token.Proper]
      split
      · decide
      · decide
    · exact ⟨⟨by decide, by decide⟩, by decide⟩
    · exact ⟨⟨by decide, by decide⟩, by decide⟩
  proper := by
    have hnames : ∀ name ∈ [keyName, lastModifiedName, sizeName],
        '<' ∉ name ∧ '>' ∉ name ∧ name.head? ≠ some '/' ∧ name ≠ contents := by
      decide
    intro object field hfield
    have hfield' : field.1 ∈ [keyName, lastModifiedName, sizeName] ∧ '<' ∉ field.2 := by
      simp only [List.mem_cons, List.not_mem_nil, or_false] at hfield
      rcases hfield with hfield | hfield | hfield
      · rw [hfield]
        dsimp only
        exact ⟨by simp, spelling.angle_not_mem_spell object.key.toList⟩
      · rw [hfield]
        dsimp only
        exact ⟨by simp, spelling.angle_not_mem_spell (IsoTime.isoText object.modified)⟩
      · rw [hfield]
        dsimp only
        exact ⟨by simp, spelling.angle_not_mem_spell (Nat.toDigits 10 object.size)⟩
    obtain ⟨hname, hvalue⟩ := hfield'
    obtain ⟨hopen, hclose, hslash, hne⟩ := hnames field.1 hname
    exact ⟨⟨hopen, hclose, hslash, hvalue⟩, hne⟩
  key := fun _ => rfl
  size := fun _ => rfl
  lastModified := fun _ => rfl

def object (key : Key) : StoredObject := ⟨key, 1, 0, by decide, by decide⟩

theorem lt_append_cons (front : Text) (c : Char) (rest : Text) : front < front ++ c :: rest := by
  induction front with
  | nil => exact List.nil_lt_cons c rest
  | cons d front ih => exact IsoTime.cons_lt_cons_self.mpr ih

/-- A thousand objects of somebody else. -/
def others : List StoredObject :=
  (List.range 1000).map fun i => object (String.ofList (List.replicate (i + 1) 'a'))

theorem others_ordered : (others.map StoredObject.key).Pairwise (· < ·) := by
  rw [others, List.map_map, List.pairwise_map]
  refine List.pairwise_lt_range.imp ?_
  intro i j hij
  have hsplit : List.replicate (j + 1) 'a' =
      List.replicate (i + 1) 'a' ++ 'a' :: List.replicate (j - i - 1) 'a' := by
    rw [← List.replicate_succ, List.replicate_append_replicate]
    congr 1
    omega
  simp only [Function.comp_apply, object, String.lt_iff, String.toList_ofList]
  rw [hsplit]
  exact lt_append_cons _ _ _

/-- A backup behind them: a store with a full page of other objects, and a backup whose key
comes after all of them. -/
def store : ObjectStore where
  objects := others ++ [object "b.tar"]
  ordered := by
    rw [List.map_append, List.pairwise_append]
    refine ⟨others_ordered, List.pairwise_singleton _ _, ?_⟩
    intro key hkey last hlast
    obtain ⟨other, hother, rfl⟩ := List.mem_map.mp hkey
    obtain ⟨i, -, rfl⟩ := List.mem_map.mp hother
    rw [List.map_singleton, List.mem_singleton] at hlast
    rw [hlast, String.lt_iff]
    simp only [object, String.toList_ofList, List.replicate_succ]
    exact List.Lex.rel (by decide)
  pageSize := 1000
  pageSize_le := Nat.le_refl _

def base : Base := ⟨"", nofun⟩

/-- A thousand foreign objects come before the backup in the order of keys, so that it is not on
the first page and is not listed. -/
theorem last_missing :
    ¬∃ answer, list (store.answer markup base) = .ok answer ∧ Complete store base answer := by
  rintro ⟨answer, hanswer, hcomplete⟩
  have hpage := onFirstPage_of_complete hanswer hcomplete
  have hvalid : ValidId "b" := ⟨by decide, List.all_iff_forall_prop.mp (by decide)⟩
  have hmem := hpage (object "b.tar") (List.mem_append_right _ List.mem_cons_self) "b" hvalid
    (by decide)
  have hfirst : store.firstPage base = others := by
    have hcovered : store.covered base = store.objects := List.filter_eq_self.mpr fun _ _ => rfl
    have hlength : others.length = 1000 := by
      rw [others, List.length_map, List.length_range]
    have hpageSize : store.pageSize = others.length := hlength.symm
    have hobjects : store.objects = others ++ [object "b.tar"] := rfl
    rw [ObjectStore.firstPage, hcovered, hpageSize, hobjects]
    exact List.take_left
  rw [hfirst] at hmem
  obtain ⟨i, -, hother⟩ := List.mem_map.mp hmem
  have hkeys := congrArg (fun other : StoredObject => other.key.toList.head?) hother
  simp [object, List.replicate_succ] at hkeys

end SecondPage

end S3

end MailPanel
