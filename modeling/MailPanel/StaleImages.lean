import Mathlib.Data.List.Basic
import MailPanel.Binary64
import MailPanel.ImageSwap
import MailPanel.ScriptText

/-
The sweep that removes the panel's images of earlier versions.
-/

namespace MailPanel

namespace StaleImages

open ImageSwap (isExactVersion)
open ScriptText (ofDigits)

/- Versions -/

/-- The numbers of an exact `X.Y.Z`. -/
def exactVersion? (text : List Char) : Option (List Nat) :=
  if isExactVersion text then some ((text.splitOn '.').map (ofDigits 10)) else none

/-- `Number` of a text of digits. -/
def number (value : Nat) : WithTop ℚ :=
  Binary64.ofRat value

/-- The sign of a difference; infinity less infinity has none. -/
def signOfDifference (left right : WithTop ℚ) : Option Ordering :=
  if left = ⊤ ∧ right = ⊤ then none else some (cmp left right)

/-- The sign of the first difference that is not zero. A part that is no number makes the
difference none, and then there is no sign. -/
def compareVersions : List Nat → List Nat → Option Ordering
  | left :: lefts, right :: rights =>
      match signOfDifference (number left) (number right) with
      | some .eq => compareVersions lefts rights
      | sign => sign
  | _, _ => some .eq

/-- What the comparison takes for an older version: not a sign from zero on. -/
def passesAsOlder (version running : List Nat) : Bool :=
  match compareVersions version running with
  | some .eq => false
  | some .gt => false
  | _ => true

/- Images -/

def lastIndexOf (c : Char) (text : List Char) : Option Nat :=
  (text.reverse.idxOf? c).map fun index => text.length - 1 - index

/-- A colon before the last slash belongs to the port of a registry, and what follows it is no
tag. -/
def splitTag (reference : String) : String × List Char :=
  let text := reference.toList
  match lastIndexOf ':' text with
  | none => (reference, [])
  | some colon =>
      if (lastIndexOf '/' text).any fun slash => colon < slash then (reference, [])
      else (String.ofList (text.take colon), text.drop (colon + 1))

example : ["localhost:5000/panel", "localhost:5000/panel:1.2.0"].map splitTag =
    [("localhost:5000/panel", []), ("localhost:5000/panel", "1.2.0".toList)] := by
  decide

def staleTags (repositories : List String) (running : List Nat) : List String → Bool → Bool
  | [], hasVersionTag => hasVersionTag
  | reference :: rest, hasVersionTag =>
      if (splitTag reference).1 ∉ repositories then false
      else
        match exactVersion? (splitTag reference).2 with
        | none => staleTags repositories running rest hasVersionTag
        | some version =>
            if passesAsOlder version running then staleTags repositories running rest true
            else false

def isStalePanelImage (image : RawImage) (repositories : List String) (runningVersion : String) :
    Bool :=
  match exactVersion? runningVersion.toList with
  | none => false
  | some running => staleTags repositories running image.repoTags false

/-- A tag that Docker removed, and the image it was removed for. -/
structure Removal where
  image : RawImage
  reference : String
deriving DecidableEq, Repr

/-- The calls are numbered over the whole sweep; Docker may refuse any of them. -/
def removeTags (refuses : Nat → Bool) (image : RawImage) :
    List String → Nat → List Removal × Nat
  | [], calls => ([], calls)
  | reference :: rest, calls =>
      if refuses calls then ([], calls + 1)
      else
        let (removed, after) := removeTags refuses image rest (calls + 1)
        (⟨image, reference⟩ :: removed, after)

def isInUse (image : RawImage) (inUse : List String) : Bool :=
  inUse.contains image.id || image.repoTags.any fun reference => inUse.contains reference

def sweepImages (refuses : Nat → Bool) (repositories : List String) (runningVersion : String)
    (inUse : List String) : List RawImage → Nat → List Removal
  | [], _ => []
  | image :: rest, calls =>
      if isStalePanelImage image repositories runningVersion && !isInUse image inUse then
        let (removed, after) := removeTags refuses image image.repoTags calls
        removed ++ sweepImages refuses repositories runningVersion inUse rest after
      else sweepImages refuses repositories runningVersion inUse rest calls

/-- The images and the containers' images as Docker lists them. -/
def removeStalePanelImages (refuses : Nat → Bool) (repositories : List String)
    (runningVersion : String) (images : List RawImage) (containers : List String) :
    List Removal :=
  sweepImages refuses repositories runningVersion containers images 0

/- What it may remove -/

/-- An image whose tags are all the panel's, one of them a version at least. -/
structure Panel (repositories : List String) (image : RawImage) : Prop where
  own : ∀ reference ∈ image.repoTags, (splitTag reference).1 ∈ repositories
  versioned : ∃ reference ∈ image.repoTags, ∃ version,
    exactVersion? (splitTag reference).2 = some version

def Unused (containers : List String) (image : RawImage) : Prop :=
  image.id ∉ containers ∧ ∀ reference ∈ image.repoTags, reference ∉ containers

/-- A panel image that every version tag of is older, number by number, and nothing uses. -/
structure Superseded (repositories : List String) (runningVersion : String)
    (images : List RawImage) (containers : List String) (removal : Removal) : Prop where
  listed : removal.image ∈ images
  tag : removal.reference ∈ removal.image.repoTags
  panel : Panel repositories removal.image
  older : ∀ reference ∈ removal.image.repoTags, ∀ version,
    exactVersion? (splitTag reference).2 = some version →
      ∃ running, exactVersion? runningVersion.toList = some running ∧ version < running
  unused : Unused containers removal.image

theorem staleTags_iff (repositories : List String) (running : List Nat) (tags : List String)
    (hasVersionTag : Bool) :
    staleTags repositories running tags hasVersionTag = true ↔
      (∀ reference ∈ tags, (splitTag reference).1 ∈ repositories ∧ ∀ version,
        exactVersion? (splitTag reference).2 = some version →
          passesAsOlder version running = true) ∧
      (hasVersionTag = true ∨ ∃ reference ∈ tags, ∃ version,
        exactVersion? (splitTag reference).2 = some version) := by
  induction tags generalizing hasVersionTag with
  | nil => simp [staleTags]
  | cons reference rest ih =>
      rw [staleTags]
      by_cases hown : (splitTag reference).1 ∈ repositories
      · rw [if_neg (not_not_intro hown)]
        cases hversion : exactVersion? (splitTag reference).2 with
        | none => simp [ih, hown, hversion]
        | some version =>
            by_cases holder : passesAsOlder version running = true
            · simp [ih, hown, hversion, holder]
            · simp [hversion, holder]
      · simp [hown]

theorem isInUse_iff (image : RawImage) (containers : List String) :
    isInUse image containers = false ↔ Unused containers image := by
  simp [isInUse, Unused]

theorem mem_removeTags {refuses : Nat → Bool} {image : RawImage} {tags : List String}
    {calls : Nat} {removal : Removal} (hmem : removal ∈ (removeTags refuses image tags calls).1) :
    removal.image = image ∧ removal.reference ∈ tags := by
  induction tags generalizing calls with
  | nil => exact absurd hmem List.not_mem_nil
  | cons reference rest ih =>
      rw [removeTags] at hmem
      split at hmem
      · exact absurd hmem List.not_mem_nil
      · rcases List.mem_cons.mp hmem with rfl | hlater
        · exact ⟨rfl, List.mem_cons_self⟩
        · obtain ⟨himage, htag⟩ := ih hlater
          exact ⟨himage, List.mem_cons_of_mem _ htag⟩

theorem mem_sweepImages {refuses : Nat → Bool} {repositories : List String}
    {runningVersion : String} {containers : List String} {images : List RawImage} {calls : Nat}
    {removal : Removal}
    (hmem : removal ∈ sweepImages refuses repositories runningVersion containers images calls) :
    removal.image ∈ images ∧ removal.reference ∈ removal.image.repoTags ∧
      isStalePanelImage removal.image repositories runningVersion = true ∧
      Unused containers removal.image := by
  induction images generalizing calls with
  | nil => exact absurd hmem List.not_mem_nil
  | cons image rest ih =>
      rw [sweepImages] at hmem
      split at hmem
      · rename_i hstale
        rw [Bool.and_eq_true, Bool.not_eq_true', isInUse_iff] at hstale
        rcases List.mem_append.mp hmem with hhere | hlater
        · obtain ⟨himage, htag⟩ := mem_removeTags hhere
          rw [himage]
          exact ⟨List.mem_cons_self, htag, hstale⟩
        · obtain ⟨hlisted, hrest⟩ := ih hlater
          exact ⟨List.mem_cons_of_mem _ hlisted, hrest⟩
      · obtain ⟨hlisted, hrest⟩ := ih hmem
        exact ⟨List.mem_cons_of_mem _ hlisted, hrest⟩

theorem removeTags_never (image : RawImage) (tags : List String) (calls : Nat) :
    (removeTags (fun _ => false) image tags calls).1 = tags.map fun tag => ⟨image, tag⟩ := by
  induction tags generalizing calls with
  | nil => rfl
  | cons reference rest ih =>
      rw [removeTags, if_neg Bool.false_ne_true]
      dsimp only
      rw [ih]
      rfl

/-- What is stale and unused goes, when Docker refuses nothing, wherever in the list it stands. -/
theorem sweepImages_never {repositories : List String} {runningVersion : String}
    {containers : List String} {images : List RawImage} {image : RawImage} {tag : String}
    (calls : Nat) (hlisted : image ∈ images)
    (hstale : isStalePanelImage image repositories runningVersion = true)
    (hunused : Unused containers image) (htag : tag ∈ image.repoTags) :
    ⟨image, tag⟩ ∈ sweepImages (fun _ => false) repositories runningVersion containers images
      calls := by
  induction images generalizing calls with
  | nil => exact absurd hlisted List.not_mem_nil
  | cons first rest ih =>
      rw [sweepImages]
      rcases List.mem_cons.mp hlisted with rfl | hlater
      · rw [if_pos (by rw [hstale, (isInUse_iff image containers).mpr hunused]; rfl)]
        apply List.mem_append_left
        rw [removeTags_never]
        exact List.mem_map_of_mem htag
      · split
        · exact List.mem_append_right _ (ih _ hlater)
        · exact ih _ hlater

/-- The comparison shows of an image with a version that is not older that one is not. -/
def Shown (runningVersion : String) (image : RawImage) : Prop :=
  ∀ running, exactVersion? runningVersion.toList = some running →
    (∃ reference ∈ image.repoTags, ∃ version,
      exactVersion? (splitTag reference).2 = some version ∧ ¬version < running) →
    ∃ reference ∈ image.repoTags, ∃ version,
      exactVersion? (splitTag reference).2 = some version ∧
        passesAsOlder version running = false

/-- For every list of images and containers and every running version: whatever Docker refuses,
what the sweep removes is superseded, exactly if the comparison shows each unused panel image
for what it is. The comparison reads the parts of a version as numbers of the language, which
are exact only up to a bound. -/
theorem removeStalePanelImages_superseded_iff (repositories : List String)
    (runningVersion : String) (images : List RawImage) (containers : List String) :
    (∀ refuses,
      (∀ removal ∈ removeStalePanelImages refuses repositories runningVersion images containers,
        Superseded repositories runningVersion images containers removal) ∧
      (exactVersion? runningVersion.toList = none →
        removeStalePanelImages refuses repositories runningVersion images containers = [])) ↔
      ∀ image ∈ images, Panel repositories image → Unused containers image →
        Shown runningVersion image := by
  constructor
  · intro hsweeps image hlisted hpanel hunused running hrunning hnewer
    by_contra hnot
    have hstale : isStalePanelImage image repositories runningVersion = true := by
      rw [isStalePanelImage, hrunning]
      refine (staleTags_iff _ _ _ _).mpr ⟨?_, Or.inr hpanel.versioned⟩
      intro reference href
      refine ⟨hpanel.own reference href, ?_⟩
      intro version hversion
      by_contra hpasses
      exact hnot ⟨reference, href, version, hversion, Bool.not_eq_true _ ▸ hpasses⟩
    obtain ⟨reference, href, version, hversion, hnot_older⟩ := hnewer
    have hremoved := sweepImages_never 0 hlisted hstale hunused href
    obtain ⟨other, hother, holder⟩ :=
      ((hsweeps fun _ => false).1 _ hremoved).older reference href version hversion
    rw [hrunning] at hother
    rw [Option.some.inj hother] at hnot_older
    exact hnot_older holder
  · intro hshown refuses
    constructor
    · intro removal hremoval
      obtain ⟨hlisted, htag, hstale, hunused⟩ := mem_sweepImages hremoval
      rw [isStalePanelImage] at hstale
      cases hrunning : exactVersion? runningVersion.toList with
      | none =>
          rw [hrunning] at hstale
          exact absurd hstale Bool.false_ne_true
      | some running =>
          rw [hrunning] at hstale
          obtain ⟨htags, hversioned⟩ := (staleTags_iff _ _ _ _).mp hstale
          have hpanel : Panel repositories removal.image :=
            ⟨fun reference href => (htags reference href).1,
              hversioned.resolve_left Bool.false_ne_true⟩
          refine ⟨hlisted, htag, hpanel, ?_, hunused⟩
          intro reference href version hversion
          refine ⟨running, hrunning, ?_⟩
          by_contra hnewer
          obtain ⟨other, hother, shown, hexact, hnot⟩ := hshown removal.image hlisted hpanel hunused
            running hrunning ⟨reference, href, version, hversion, hnewer⟩
          rw [(htags other hother).2 shown hexact] at hnot
          cases hnot
    · intro hnone
      rw [List.eq_nil_iff_forall_not_mem]
      intro removal hremoval
      obtain ⟨-, -, hstale, -⟩ := mem_sweepImages hremoval
      rw [isStalePanelImage, hnone] at hstale
      exact Bool.false_ne_true hstale

/- Numbers that a double holds -/

theorem number_of_small {value : Nat} (hsmall : value < 2 ^ 53) :
    number value = ((value : ℚ) : WithTop ℚ) := by
  rw [number]
  rcases Nat.eq_zero_or_pos value with rfl | hpos
  · have hnearest : Binary64.nearest 0 = 0 := by simp [Binary64.nearest, Binary64.roundHalfEven]
    rw [Nat.cast_zero, Binary64.ofRat, hnearest, if_pos (by positivity)]
  · exact Binary64.ofRat_natCast hpos hsmall

theorem signOfDifference_of_small {left right : Nat} (hleft : left < 2 ^ 53)
    (hright : right < 2 ^ 53) :
    signOfDifference (number left) (number right) = some (cmp left right) := by
  rw [number_of_small hleft, number_of_small hright, signOfDifference,
    if_neg fun h => WithTop.coe_ne_top h.1]
  congr 1
  rcases Nat.lt_trichotomy left right with hlt | rfl | hgt
  · rw [(cmp_eq_lt_iff _ _).mpr hlt]
    exact (cmp_eq_lt_iff _ _).mpr (WithTop.coe_lt_coe.mpr (Nat.cast_lt.mpr hlt))
  · rw [cmp_self_eq_eq, cmp_self_eq_eq]
  · rw [(cmp_eq_gt_iff _ _).mpr hgt]
    exact (cmp_eq_gt_iff _ _).mpr (WithTop.coe_lt_coe.mpr (Nat.cast_lt.mpr hgt))

/-- The comparison is the order of the numbers while they are below `2 ^ 53`. -/
theorem passesAsOlder_iff_of_small {version running : List Nat}
    (hlength : version.length = running.length) (hversion : ∀ value ∈ version, value < 2 ^ 53)
    (hrunning : ∀ value ∈ running, value < 2 ^ 53) :
    passesAsOlder version running = true ↔ version < running := by
  induction version generalizing running with
  | nil =>
      obtain rfl := List.length_eq_zero_iff.mp hlength.symm
      simp [passesAsOlder, compareVersions]
  | cons left lefts ih =>
      cases running with
      | nil => cases hlength
      | cons right rights =>
          have hsign := signOfDifference_of_small (hversion left List.mem_cons_self)
            (hrunning right List.mem_cons_self)
          have hrest := ih (Nat.succ.inj hlength)
            (fun value hvalue => hversion value (List.mem_cons_of_mem _ hvalue))
            (fun value hvalue => hrunning value (List.mem_cons_of_mem _ hvalue))
          rw [passesAsOlder, compareVersions, hsign, List.cons_lt_cons_iff]
          rcases Nat.lt_trichotomy left right with hlt | rfl | hgt
          · rw [(cmp_eq_lt_iff _ _).mpr hlt]
            exact ⟨fun _ => Or.inl hlt, fun _ => rfl⟩
          · rw [cmp_self_eq_eq]
            dsimp only
            rw [passesAsOlder] at hrest
            rw [hrest]
            exact ⟨fun h => Or.inr ⟨rfl, h⟩, fun h => h.elim (fun hlt =>
              absurd hlt (Nat.lt_irrefl left)) And.right⟩
          · rw [(cmp_eq_gt_iff _ _).mpr hgt]
            exact ⟨fun h => absurd h Bool.false_ne_true, fun h => h.elim (fun hlt =>
              absurd hlt (Nat.lt_asymm hgt)) fun h => absurd h.1 (Nat.ne_of_gt hgt)⟩

theorem exactVersion_length {text : List Char} {version : List Nat}
    (hversion : exactVersion? text = some version) : version.length = 3 := by
  rw [exactVersion?] at hversion
  split at hversion
  · rename_i hexact
    rw [← Option.some.inj hversion, List.length_map]
    rw [isExactVersion] at hexact
    split at hexact
    · rename_i hparts
      rw [hparts]
      rfl
    · cases hexact
  · cases hversion

/-- Versions of such numbers are shown for what they are. -/
theorem shown_of_small {runningVersion : String} {image : RawImage}
    (hrunning : ∀ running, exactVersion? runningVersion.toList = some running →
      ∀ value ∈ running, value < 2 ^ 53)
    (htags : ∀ reference ∈ image.repoTags, ∀ version,
      exactVersion? (splitTag reference).2 = some version → ∀ value ∈ version, value < 2 ^ 53) :
    Shown runningVersion image := by
  rintro running hexact ⟨reference, href, version, hversion, hnot⟩
  refine ⟨reference, href, version, hversion, ?_⟩
  have hlength := (exactVersion_length hversion).trans (exactVersion_length hexact).symm
  have hiff := passesAsOlder_iff_of_small hlength (htags reference href version hversion)
    (hrunning running hexact)
  rw [← Bool.not_eq_true, hiff]
  exact hnot

/- A release whose number a double does not tell from the one before. -/
namespace HugeVersion

def image : RawImage where
  id := "sha256:new"
  repoTags := [ImageSwap.PANEL_SERVER_REPOSITORY ++ ":9007199254740993.0.0"]

def runningVersion : String := "9007199254740992.1.0"

/-- A release whose number a double does not tell from the one before: it is newer than the one
that runs, compares as older, and is removed. -/
theorem newer_image_removed : ¬∀ refuses, ∀ removal ∈ removeStalePanelImages refuses
    [ImageSwap.PANEL_SERVER_REPOSITORY] runningVersion [image] [],
      Superseded [ImageSwap.PANEL_SERVER_REPOSITORY] runningVersion [image] [] removal := by
  intro hsweeps
  have hremoved : removeStalePanelImages (fun _ => false) [ImageSwap.PANEL_SERVER_REPOSITORY]
      runningVersion [image] [] =
        [⟨image, ImageSwap.PANEL_SERVER_REPOSITORY ++ ":9007199254740993.0.0"⟩] := by
    decide +kernel
  have holder := (hsweeps (fun _ => false) ⟨image, _⟩ (by
    rw [hremoved]
    exact List.mem_cons_self)).older _ List.mem_cons_self [9007199254740993, 0, 0]
      (by decide)
  obtain ⟨running, hrunning, hlt⟩ := holder
  have hnumbers : exactVersion? runningVersion.toList = some [9007199254740992, 1, 0] := by
    decide
  rw [hnumbers] at hrunning
  rw [← Option.some.inj hrunning] at hlt
  exact absurd hlt (by decide)

end HugeVersion

end StaleImages

end MailPanel
