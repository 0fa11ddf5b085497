import MailPanel.ImageSwap
import MailPanel.KeyedOverlay
import MailPanel.StepRun

/-
A container as Docker creates it, its image's defaults merged under its own
configuration, and what is left of that configuration over a chain of updates.
-/

namespace MailPanel

namespace ImageSwap

open KeyedOverlay

/-- An image's configuration, whose labels are a record. -/
structure ImageConfig extends RawImageConfig where
  labels_nodup : (labels.map Prod.fst).Nodup

/-- Docker starts the image's command where the container sets none, or an empty one. -/
def cmdUnset (cmd : Option (List String)) : Bool :=
  cmd.getD [] = []

/-- What an inspection of the created container shows. -/
def merge (image : ImageConfig) (own : RawContainerRecreateSpec) : RawContainerRecreateSpec :=
  { own with
    env := overlay envKey image.env own.env
    labels := overlay Prod.fst image.labels own.labels
    cmd := if cmdUnset own.cmd then image.cmd else own.cmd }

def reservedEnv (key : String) : Bool :=
  key ∈ IMAGE_PROVENANCE_ENV_KEYS

def reservedLabel (key : String) : Bool :=
  IMAGE_PROVENANCE_LABEL_PREFIX.toList <+: key.toList

/- The filters of the swap -/

theorem withoutImageInheritedEnv_eq (env : List String) (image : ImageConfig) :
    withoutImageInheritedEnv env (some image.toRawImageConfig) =
      strip envKey reservedEnv image.env env := by
  apply List.filter_congr
  intro entry _
  simp [reservedEnv]

theorem lookup_eq_some_iff {labels : List (String × String)}
    (hnodup : (labels.map Prod.fst).Nodup) (label : String × String) :
    labels.lookup label.1 = some label.2 ↔ label ∈ labels := by
  induction labels with
  | nil => simp
  | cons first rest ih =>
      rw [List.map_cons, List.nodup_cons] at hnodup
      obtain ⟨key, value⟩ := first
      by_cases hkey : label.1 = key
      · have hrest : label ∉ rest := by
          intro hmem
          exact hnodup.1 (List.mem_map.mpr ⟨label, hmem, hkey⟩)
        simp only [List.lookup_cons, hkey, beq_self_eq_true, List.mem_cons, hrest, or_false]
        constructor
        · intro hvalue
          exact Prod.ext hkey (Option.some.inj hvalue).symm
        · intro hlabel
          rw [hlabel]
      · have hne : label ≠ (key, value) := fun h => hkey (by rw [h])
        simp only [List.lookup_cons, beq_eq_false_iff_ne.mpr hkey, List.mem_cons, hne,
          false_or]
        exact ih hnodup.2

theorem withoutImageInheritedLabels_eq (labels : List (String × String))
    (image : ImageConfig) :
    withoutImageInheritedLabels labels (some image.toRawImageConfig) =
      strip Prod.fst reservedLabel image.labels labels := by
  apply List.filter_congr
  intro label _
  have hlookup := lookup_eq_some_iff image.labels_nodup label
  simp [reservedLabel, hlookup]

/-- A command of the container's own stays its own unless it is the image's as well. -/
theorem withoutImageInheritedCmd_merge (image : ImageConfig)
    (own : RawContainerRecreateSpec) :
    withoutImageInheritedCmd (merge image own).cmd (some image.toRawImageConfig) =
      if cmdUnset own.cmd ∨ own.cmd = image.cmd then none else own.cmd := by
  by_cases hunset : cmdUnset own.cmd = true
  · simp only [merge, hunset, ↓reduceIte, true_or]
    cases hcmd : image.cmd with
    | none => simp [withoutImageInheritedCmd]
    | some cmd => simp [withoutImageInheritedCmd, hcmd]
  · simp only [merge, hunset, ↓reduceIte, false_or, Bool.false_eq_true]
    cases hown : own.cmd with
    | none => simp [cmdUnset, hown] at hunset
    | some argv =>
        cases hcmd : image.cmd with
        | none => simp [withoutImageInheritedCmd, hcmd]
        | some cmd => simp [withoutImageInheritedCmd, hcmd]

/- Chains of updates -/

/-- A container that runs an image with a configuration of its own. -/
structure Container where
  own : RawContainerRecreateSpec
  image : ImageConfig

structure Target where
  image : ImageConfig
  reference : String

namespace Container

/-- `inspectContainerForRecreate`. -/
def captured (container : Container) : RawContainerRecreateSpec :=
  merge container.image container.own

/-- The container is created again on the target image. -/
def update (container : Container) (target : Target) : Container where
  own := buildImageSwapSpec container.captured (some container.image.toRawImageConfig)
    target.reference
  image := target.image

def updates (container : Container) (targets : List Target) : Container :=
  StepRun.run update container targets

end Container

/-- The images that a chain of updates leaves behind. -/
def passed (image : ImageConfig) : List Target → List ImageConfig
  | [] => []
  | target :: targets => image :: passed target.image targets

variable (container : Container) (targets : List Target)

theorem updates_env : (container.updates targets).own.env =
    exchanged reservedEnv envKey container.own.env
      ((passed container.image targets).map fun image => image.env) := by
  induction targets generalizing container with
  | nil => rfl
  | cons target targets ih =>
      have hown : (container.update target).own.env =
          strip envKey reservedEnv container.image.env
            (overlay envKey container.image.env container.own.env) :=
        withoutImageInheritedEnv_eq _ _
      rw [Container.updates, StepRun.run_cons, ← Container.updates, ih, hown]
      rfl

theorem updates_labels : (container.updates targets).own.labels =
    exchanged reservedLabel Prod.fst container.own.labels
      ((passed container.image targets).map fun image => image.labels) := by
  induction targets generalizing container with
  | nil => rfl
  | cons target targets ih =>
      have hown : (container.update target).own.labels =
          strip Prod.fst reservedLabel container.image.labels
            (overlay Prod.fst container.image.labels container.own.labels) :=
        withoutImageInheritedLabels_eq _ _
      rw [Container.updates, StepRun.run_cons, ← Container.updates, ih, hown]
      rfl

theorem update_cmd (target : Target) : (container.update target).own.cmd =
    if cmdUnset container.own.cmd ∨ container.own.cmd = container.image.cmd then none
    else container.own.cmd :=
  withoutImageInheritedCmd_merge container.image container.own

/-- A command is left as it was, or left to the image. -/
theorem updates_cmd : (container.updates targets).own.cmd = container.own.cmd ∨
    cmdUnset (container.updates targets).own.cmd = true := by
  induction targets generalizing container with
  | nil => exact Or.inl rfl
  | cons target targets ih =>
      rw [Container.updates, StepRun.run_cons, ← Container.updates]
      rcases ih (container.update target) with hsame | hunset
      · rw [hsame, update_cmd]
        split
        · exact Or.inr rfl
        · exact Or.inl rfl
      · exact Or.inr hunset

theorem updates_cmd_apart
    (hapart : ∀ old ∈ passed container.image targets, container.own.cmd ≠ old.cmd)
    (hset : cmdUnset container.own.cmd = false) :
    (container.updates targets).own.cmd = container.own.cmd := by
  induction targets generalizing container with
  | nil => rfl
  | cons target targets ih =>
      have hcmd : (container.update target).own.cmd = container.own.cmd := by
        rw [update_cmd, if_neg]
        rw [hset]
        simpa using hapart container.image List.mem_cons_self
      rw [Container.updates, StepRun.run_cons, ← Container.updates, ← hcmd]
      apply ih
      · intro old hold
        rw [hcmd]
        exact hapart old (List.mem_cons_of_mem _ hold)
      · rw [hcmd]
        exact hset

/-- A container on `image` shows what the operator set, where none of the images it ran
before has the same, and what `image` supplies, and nothing else. -/
structure Preserved (own : RawContainerRecreateSpec) (passed : List ImageConfig)
    (image : ImageConfig) (shown : RawContainerRecreateSpec) : Prop where
  env : ∀ key, key ∉ IMAGE_PROVENANCE_ENV_KEYS →
    (∀ old ∈ passed, Apart envKey old.env own.env key) →
      under envKey key shown.env = under envKey key (merge image own).env
  env_provenance : ∀ key ∈ IMAGE_PROVENANCE_ENV_KEYS, passed ≠ [] →
    under envKey key shown.env = under envKey key image.env
  env_origin : ∀ entry ∈ shown.env, entry ∈ own.env ∨ entry ∈ image.env
  labels : ∀ key, ¬ IMAGE_PROVENANCE_LABEL_PREFIX.toList <+: key.toList →
    (∀ old ∈ passed, Apart Prod.fst old.labels own.labels key) →
      under Prod.fst key shown.labels = under Prod.fst key (merge image own).labels
  labels_provenance : ∀ key, IMAGE_PROVENANCE_LABEL_PREFIX.toList <+: key.toList →
    passed ≠ [] → under Prod.fst key shown.labels = under Prod.fst key image.labels
  labels_origin : ∀ label ∈ shown.labels, label ∈ own.labels ∨ label ∈ image.labels
  cmd : (∀ old ∈ passed, own.cmd ≠ old.cmd) ∨ cmdUnset own.cmd = true →
    shown.cmd = (merge image own).cmd
  cmd_origin : shown.cmd = own.cmd ∨ shown.cmd = image.cmd
  kept : shown.name = own.name ∧ shown.hostConfig = own.hostConfig ∧
    shown.networkingConfig = own.networkingConfig

section Overlay

variable {Entry Key : Type} [DecidableEq Entry] [DecidableEq Key] {key : Entry → Key}
  {reserved : Key → Bool} {own current : List Entry} {passed : List (List Entry)}

/-- What comes through lies over the current defaults as one's own entries would. -/
theorem under_overlay_exchanged {wanted : Key} (hreserved : reserved wanted = false)
    (hapart : ∀ defaults ∈ passed, Apart key defaults own wanted) :
    under key wanted (overlay key current (exchanged reserved key own passed)) =
      under key wanted (overlay key current own) := by
  rw [under_overlay, under_overlay, under_exchanged hreserved hapart]

theorem under_overlay_exchanged_reserved {wanted : Key} (hreserved : reserved wanted = true)
    (hpassed : passed ≠ []) :
    under key wanted (overlay key current (exchanged reserved key own passed)) =
      under key wanted current := by
  cases passed with
  | nil => exact absurd rfl hpassed
  | cons defaults later =>
      rw [under_overlay, under_exchanged_reserved hreserved, if_pos rfl]

theorem overlay_exchanged_origin {entry : Entry}
    (hentry : entry ∈ overlay key current (exchanged reserved key own passed)) :
    entry ∈ own ∨ entry ∈ current :=
  (overlay_subset hentry).imp (fun h => exchanged_subset reserved passed h) fun h => h

end Overlay

theorem updates_kept : (container.updates targets).own.name = container.own.name ∧
    (container.updates targets).own.hostConfig = container.own.hostConfig ∧
      (container.updates targets).own.networkingConfig = container.own.networkingConfig := by
  induction targets generalizing container with
  | nil => exact ⟨rfl, rfl, rfl⟩
  | cons target targets ih => exact ih (container.update target)

theorem updates_captured_cmd
    (hapart : (∀ old ∈ passed container.image targets, container.own.cmd ≠ old.cmd) ∨
      cmdUnset container.own.cmd = true) :
    (container.updates targets).captured.cmd =
      (merge (container.updates targets).image container.own).cmd := by
  simp only [Container.captured, merge]
  by_cases hset : cmdUnset container.own.cmd = true
  · have hunset : cmdUnset (container.updates targets).own.cmd = true := by
      rcases updates_cmd container targets with hsame | hunset
      · rw [hsame]
        exact hset
      · exact hunset
    rw [if_pos hunset, if_pos hset]
  · rw [Bool.not_eq_true] at hset
    rcases hapart with hapart | hunset
    · rw [updates_cmd_apart container targets hapart hset]
    · rw [hunset] at hset
      cases hset

theorem updates_preserved : Preserved container.own (passed container.image targets)
    (container.updates targets).image (container.updates targets).captured where
  env := by
    intro key hkey hapart
    simp only [Container.captured, merge, updates_env]
    apply under_overlay_exchanged (by simpa [reservedEnv] using hkey)
    intro defaults hdefaults
    obtain ⟨old, hold, rfl⟩ := List.mem_map.mp hdefaults
    exact hapart old hold
  env_provenance := by
    intro key hkey hpassed
    simp only [Container.captured, merge, updates_env]
    apply under_overlay_exchanged_reserved (by simpa [reservedEnv] using hkey)
    simpa using hpassed
  env_origin := by
    intro entry hentry
    simp only [Container.captured, merge, updates_env] at hentry
    exact overlay_exchanged_origin hentry
  labels := by
    intro key hkey hapart
    simp only [Container.captured, merge, updates_labels]
    apply under_overlay_exchanged (by simpa [reservedLabel] using hkey)
    intro defaults hdefaults
    obtain ⟨old, hold, rfl⟩ := List.mem_map.mp hdefaults
    exact hapart old hold
  labels_provenance := by
    intro key hkey hpassed
    simp only [Container.captured, merge, updates_labels]
    apply under_overlay_exchanged_reserved (by simpa [reservedLabel] using hkey)
    simpa using hpassed
  labels_origin := by
    intro label hlabel
    simp only [Container.captured, merge, updates_labels] at hlabel
    exact overlay_exchanged_origin hlabel
  cmd := updates_captured_cmd container targets
  cmd_origin := by
    simp only [Container.captured, merge]
    split
    · exact Or.inr rfl
    · rename_i hset
      rcases updates_cmd container targets with hsame | hunset
      · exact Or.inl hsame
      · exact absurd hunset hset
  kept := updates_kept container targets

/-- One swap, and any chain of updates, preserves what the operator set: what differed from the
defaults of every image that the container has run on is still there, and everything else is
what the new image supplies, with nothing left over from an old one. -/
theorem imageSwap_preserves :
    (∀ (old new : ImageConfig) (own : RawContainerRecreateSpec) (targetImage : String),
      Preserved own [old] new
        (merge new (buildImageSwapSpec (merge old own) (some old.toRawImageConfig)
          targetImage))) ∧
    ∀ (container : Container) (targets : List Target),
      Preserved container.own (passed container.image targets)
        (container.updates targets).image (container.updates targets).captured := by
  constructor
  · intro old new own targetImage
    exact updates_preserved ⟨own, old⟩ [⟨new, targetImage⟩]
  · exact updates_preserved

end ImageSwap

end MailPanel
