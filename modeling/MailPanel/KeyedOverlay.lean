import Mathlib.Data.List.Basic

/-
Lists of entries under keys: defaults are laid under a list of one's own, and what
only came from the defaults is stripped off again.
-/

namespace MailPanel

namespace KeyedOverlay

variable {Entry Key : Type} [DecidableEq Entry] [DecidableEq Key] (key : Entry → Key)

/-- The entries under one key. -/
def under (wanted : Key) (entries : List Entry) : List Entry :=
  entries.filter fun entry => key entry = wanted

/-- One's own entries, and the defaults under all other keys. -/
def overlay (defaults own : List Entry) : List Entry :=
  own ++ defaults.filter fun entry => key entry ∉ own.map key

/-- Less what the defaults have as well, and less all entries under reserved keys. -/
def strip (reserved : Key → Bool) (defaults entries : List Entry) : List Entry :=
  entries.filter fun entry => reserved (key entry) = false ∧ entry ∉ defaults

/-- No entry under the key is one of the defaults. -/
def Apart (defaults own : List Entry) (wanted : Key) : Prop :=
  ∀ entry ∈ own, key entry = wanted → entry ∉ defaults

variable {key} {reserved : Key → Bool} {defaults own entries : List Entry} {wanted : Key}

omit [DecidableEq Entry] in
theorem under_eq_nil_iff :
    under key wanted own = [] ↔ wanted ∉ own.map key := by
  simp [under, List.filter_eq_nil_iff]

omit [DecidableEq Entry] in

/-- A key of one's own hides the defaults under it, all of them, and leaves the others as they
are. -/
theorem under_overlay (defaults own : List Entry) (wanted : Key) :
    under key wanted (overlay key defaults own) =
      if under key wanted own = [] then under key wanted defaults
      else under key wanted own := by
  have hdefaults : under key wanted (defaults.filter fun entry => key entry ∉ own.map key) =
      if under key wanted own = [] then under key wanted defaults else [] := by
    rw [under, List.filter_filter]
    by_cases hown : wanted ∈ own.map key
    · rw [if_neg (by simpa [under_eq_nil_iff] using hown), List.filter_eq_nil_iff]
      intro entry _ hentry
      simp only [Bool.and_eq_true, decide_eq_true_eq] at hentry
      exact hentry.2 (hentry.1 ▸ hown)
    · rw [if_pos (under_eq_nil_iff.mpr hown), under]
      apply List.filter_congr
      intro entry _
      by_cases hentry : key entry = wanted
      · simpa [hentry] using hown
      · simp [hentry]
  rw [overlay, under, List.filter_append]
  change under key wanted own ++ under key wanted _ = _
  rw [hdefaults]
  by_cases hown : under key wanted own = []
  · simp [hown]
  · simp [hown]

/-- Of what lay over the same defaults, one's own part is left. -/
theorem strip_overlay (reserved : Key → Bool) (defaults own : List Entry) :
    strip key reserved defaults (overlay key defaults own) =
      strip key reserved defaults own := by
  have hnone : strip key reserved defaults
      (defaults.filter fun entry => key entry ∉ own.map key) = [] := by
    rw [strip, List.filter_eq_nil_iff]
    intro entry hentry hkept
    simp only [decide_eq_true_eq] at hkept
    exact hkept.2 (List.mem_filter.mp hentry).1
  rw [overlay, strip, List.filter_append]
  change strip key reserved defaults own ++ strip key reserved defaults _ = _
  rw [hnone, List.append_nil]

theorem under_strip_reserved (hreserved : reserved wanted = true)
    (defaults entries : List Entry) :
    under key wanted (strip key reserved defaults entries) = [] := by
  rw [under, List.filter_eq_nil_iff]
  intro entry hentry hwanted
  have hkept := (List.mem_filter.mp hentry).2
  simp only [decide_eq_true_eq] at hkept hwanted
  rw [hwanted, hreserved] at hkept
  cases hkept.1

theorem under_strip (hreserved : reserved wanted = false)
    (hapart : Apart key defaults entries wanted) :
    under key wanted (strip key reserved defaults entries) = under key wanted entries := by
  rw [under, strip, List.filter_filter]
  apply List.filter_congr
  intro entry hentry
  by_cases hwanted : key entry = wanted
  · simp [hwanted, hreserved, hapart entry hentry hwanted]
  · simp [hwanted]

omit [DecidableEq Key] in
theorem strip_subset (reserved : Key → Bool) (defaults : List Entry) :
    strip key reserved defaults entries ⊆ entries :=
  List.filter_subset_self _

omit [DecidableEq Entry] in
theorem overlay_subset {entry : Entry} (hentry : entry ∈ overlay key defaults own) :
    entry ∈ own ∨ entry ∈ defaults := by
  rcases List.mem_append.mp hentry with hown | hdefault
  · exact Or.inl hown
  · exact Or.inr (List.mem_filter.mp hdefault).1

/- Defaults that change, time and again -/

/-- One's own part after the defaults have been exchanged for others: each time the
defaults that lay under it are stripped off the whole. -/
def exchanged (reserved : Key → Bool) (key : Entry → Key) (own : List Entry) :
    List (List Entry) → List Entry
  | [] => own
  | defaults :: later =>
      exchanged reserved key (strip key reserved defaults (overlay key defaults own)) later

theorem exchanged_cons (defaults : List Entry) (later : List (List Entry)) :
    exchanged reserved key own (defaults :: later) =
      exchanged reserved key (strip key reserved defaults own) later := by
  rw [exchanged, strip_overlay]

theorem exchanged_subset (reserved : Key → Bool) (passed : List (List Entry)) :
    exchanged reserved key own passed ⊆ own := by
  induction passed generalizing own with
  | nil => exact List.Subset.refl own
  | cons defaults later ih =>
      rw [exchanged_cons]
      exact List.Subset.trans ih (strip_subset reserved defaults)

/-- What is apart from all defaults on the way comes through. -/
theorem under_exchanged (hreserved : reserved wanted = false) {passed : List (List Entry)}
    (hapart : ∀ defaults ∈ passed, Apart key defaults own wanted) :
    under key wanted (exchanged reserved key own passed) = under key wanted own := by
  induction passed generalizing own with
  | nil => rfl
  | cons defaults later ih =>
      rw [exchanged_cons, ih, under_strip hreserved (hapart defaults List.mem_cons_self)]
      intro other hother entry hentry
      exact hapart other (List.mem_cons_of_mem defaults hother) entry
        (strip_subset reserved defaults hentry)

theorem under_exchanged_reserved (hreserved : reserved wanted = true)
    (defaults : List Entry) (later : List (List Entry)) :
    under key wanted (exchanged reserved key own (defaults :: later)) = [] := by
  rw [exchanged_cons]
  have hnone : under key wanted (strip key reserved defaults own) = [] :=
    under_strip_reserved hreserved defaults own
  rw [under_eq_nil_iff] at hnone ⊢
  intro hmem
  apply hnone
  obtain ⟨entry, hentry, hkey⟩ := List.mem_map.mp hmem
  exact List.mem_map.mpr ⟨entry, exchanged_subset reserved later hentry, hkey⟩

end KeyedOverlay

end MailPanel
