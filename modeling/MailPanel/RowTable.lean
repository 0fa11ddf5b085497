import Mathlib.Data.List.Nodup
import Mathlib.Data.List.Basic

/-
Tables as lists of rows: conditional updates, the number of rows they change, and
lookups by a key.
-/

namespace MailPanel

namespace RowTable

variable {Row Key : Type}

/-- `UPDATE … SET change WHERE condition`. -/
def updateWhere (rows : List Row) (condition : Row → Bool) (change : Row → Row) : List Row :=
  rows.map fun row => if condition row then change row else row

/-- The number of rows a conditional update changes. -/
def changes (rows : List Row) (condition : Row → Bool) : Nat :=
  rows.countP condition

section Update

variable {rows : List Row} {condition : Row → Bool} {change : Row → Row}

theorem mem_updateWhere {row : Row} :
    row ∈ updateWhere rows condition change ↔
      (row ∈ rows ∧ condition row = false) ∨
        ∃ old ∈ rows, condition old = true ∧ row = change old := by
  simp only [updateWhere, List.mem_map]
  constructor
  · rintro ⟨old, hold, rfl⟩
    cases hcondition : condition old with
    | true => exact Or.inr ⟨old, hold, hcondition, if_pos rfl⟩
    | false => exact Or.inl ⟨hold, hcondition⟩
  · rintro (⟨hrow, hcondition⟩ | ⟨old, hold, hcondition, rfl⟩)
    · exact ⟨row, hrow, by simp [hcondition]⟩
    · exact ⟨old, hold, by simp [hcondition]⟩

/-- Every row of the updated table comes from an old one, changed or not. -/
theorem exists_of_mem_updateWhere {row : Row}
    (hrow : row ∈ updateWhere rows condition change) :
    ∃ old ∈ rows, row = if condition old then change old else old := by
  simp only [updateWhere, List.mem_map] at hrow
  obtain ⟨old, hold, hrow⟩ := hrow
  exact ⟨old, hold, hrow.symm⟩

theorem mem_updateWhere_of_mem {old : Row} (hold : old ∈ rows) :
    (if condition old then change old else old) ∈ updateWhere rows condition change :=
  List.mem_map_of_mem hold

/-- An update that keeps a column keeps the table's column. -/
theorem map_updateWhere {Column : Type} (column : Row → Column)
    (hchange : ∀ row, condition row = true → column (change row) = column row) :
    (updateWhere rows condition change).map column = rows.map column := by
  simp only [updateWhere, List.map_map]
  apply List.map_congr_left
  intro row _
  by_cases hcondition : condition row = true
  · simp [hcondition, hchange row hcondition]
  · simp [hcondition]

theorem changes_pos_iff : 0 < changes rows condition ↔
    ∃ row ∈ rows, condition row = true :=
  List.countP_pos_iff

/-- An update that changes no row leaves the table. -/
theorem updateWhere_of_changes_eq_zero (hnone : changes rows condition = 0) :
    updateWhere rows condition change = rows := by
  have hkept : ∀ row ∈ rows, (if condition row then change row else row) = id row := by
    intro row hrow
    rw [if_neg (List.countP_eq_zero.mp hnone row hrow)]
    rfl
  exact (List.map_congr_left hkept).trans (List.map_id rows)

end Update

section Continues

variable {goesOn : Row → Row → Prop} {new : Row → Prop} {before after : List Row}

/-- Every row of the later table goes on from an earlier row, or is new. -/
def Continues (goesOn : Row → Row → Prop) (new : Row → Prop) (before after : List Row) :
    Prop :=
  ∀ row ∈ after, (∃ old ∈ before, goesOn old row) ∨ new row

theorem Continues.refl (hrefl : ∀ row, goesOn row row) (rows : List Row) :
    Continues goesOn new rows rows := by
  intro row hrow
  exact Or.inl ⟨row, hrow, hrefl row⟩

theorem Continues.trans {between : List Row} {newer newest : Row → Prop}
    (htrans : ∀ first second third, goesOn first second → goesOn second third →
      goesOn first third)
    (hgoesOn : ∀ old row, new old → goesOn old row → newest row)
    (hnewer : ∀ row, newer row → newest row)
    (hfirst : Continues goesOn new before between)
    (hsecond : Continues goesOn newer between after) :
    Continues goesOn newest before after := by
  intro row hrow
  rcases hsecond row hrow with ⟨middle, hmiddle, hrow⟩ | hrow
  · rcases hfirst middle hmiddle with ⟨old, hold, hmiddle⟩ | hmiddle
    · exact Or.inl ⟨old, hold, htrans old middle row hmiddle hrow⟩
    · exact Or.inr (hgoesOn middle row hmiddle hrow)
  · exact Or.inr (hnewer row hrow)

theorem Continues.mono {goesOn' : Row → Row → Prop} {new' : Row → Prop}
    (hgoesOn : ∀ old row, goesOn old row → goesOn' old row)
    (hnew : ∀ row, new row → new' row) (h : Continues goesOn new before after) :
    Continues goesOn' new' before after := by
  intro row hrow
  rcases h row hrow with ⟨old, hold, hrow⟩ | hrow
  · exact Or.inl ⟨old, hold, hgoesOn old row hrow⟩
  · exact Or.inr (hnew row hrow)

theorem Continues.updateWhere {condition : Row → Bool} {change : Row → Row}
    (hrefl : ∀ row, goesOn row row)
    (hchange : ∀ row ∈ before, condition row = true → goesOn row (change row)) :
    Continues goesOn new before (updateWhere before condition change) := by
  intro row hrow
  rcases mem_updateWhere.mp hrow with ⟨hrow, -⟩ | ⟨old, hold, hcondition, heq⟩
  · exact Or.inl ⟨row, hrow, hrefl row⟩
  · exact Or.inl ⟨old, hold, by rw [heq]; exact hchange old hold hcondition⟩

theorem Continues.filter {condition : Row → Bool} (hrefl : ∀ row, goesOn row row) :
    Continues goesOn new before (before.filter condition) := by
  intro row hrow
  exact Or.inl ⟨row, (List.mem_filter.mp hrow).1, hrefl row⟩

theorem Continues.append (hrefl : ∀ row, goesOn row row) {rows : List Row}
    (hnew : ∀ row ∈ rows, new row) : Continues goesOn new before (before ++ rows) := by
  intro row hrow
  rcases List.mem_append.mp hrow with hrow | hrow
  · exact Or.inl ⟨row, hrow, hrefl row⟩
  · exact Or.inr (hnew row hrow)

/-- A property of rows that going on keeps and new rows have. -/
theorem Continues.forall {property : Row → Prop} (h : Continues goesOn new before after)
    (hgoesOn : ∀ old row, goesOn old row → property old → property row)
    (hnew : ∀ row, new row → property row) (hbefore : ∀ row ∈ before, property row) :
    ∀ row ∈ after, property row := by
  intro row hrow
  rcases h row hrow with ⟨old, hold, hrow⟩ | hrow
  · exact hgoesOn old row hrow (hbefore old hold)
  · exact hnew row hrow

/-- Keys that going on keeps stay below a bound that does not fall. -/
theorem Continues.key_lt (key : Row → Nat) {bound bound' : Nat}
    (h : Continues goesOn new before after)
    (hgoesOn : ∀ old row, goesOn old row → key row = key old)
    (hnew : ∀ row, new row → key row < bound') (hle : bound ≤ bound')
    (hbefore : ∀ row ∈ before, key row < bound) : ∀ row ∈ after, key row < bound' := by
  intro row hrow
  rcases h row hrow with ⟨old, hold, hrow⟩ | hrow
  · rw [hgoesOn old row hrow]
    exact Nat.lt_of_lt_of_le (hbefore old hold) hle
  · exact hnew row hrow

end Continues

section Lookup

variable [DecidableEq Key] {key : Row → Key} {rows : List Row}

/-- `SELECT … WHERE key = wanted`. -/
def lookup (key : Row → Key) (wanted : Key) (rows : List Row) : Option Row :=
  rows.find? fun row => key row = wanted

theorem mem_of_lookup {wanted : Key} {row : Row} (hlookup : lookup key wanted rows = some row) :
    row ∈ rows :=
  List.mem_of_find?_eq_some hlookup

theorem key_of_lookup {wanted : Key} {row : Row} (hlookup : lookup key wanted rows = some row) :
    key row = wanted := by
  simpa using List.find?_some hlookup

omit [DecidableEq Key] in
/-- Two rows with one key are one row. -/
theorem eq_of_key_eq (hnodup : (rows.map key).Nodup) {left right : Row}
    (hleft : left ∈ rows) (hright : right ∈ rows) (hkey : key left = key right) :
    left = right :=
  List.inj_on_of_nodup_map hnodup hleft hright hkey

omit [DecidableEq Key] in
/-- A condition that only rows of one key meet is met by at most one row. -/
theorem countP_le_one (hnodup : (rows.map key).Nodup) {condition : Row → Bool}
    (hkey : ∀ left ∈ rows, ∀ right ∈ rows, condition left = true → condition right = true →
      key left = key right) : rows.countP condition ≤ 1 := by
  induction rows with
  | nil => exact Nat.zero_le 1
  | cons row rows ih =>
      rw [List.map_cons, List.nodup_cons] at hnodup
      by_cases hcondition : condition row = true
      · have hrest : rows.countP condition = 0 := by
          apply List.countP_eq_zero.mpr
          intro other hother hmeets
          have hsame := hkey row List.mem_cons_self other (List.mem_cons_of_mem row hother)
            hcondition hmeets
          exact hnodup.1 (List.mem_map.mpr ⟨other, hother, hsame.symm⟩)
        have hone : (row :: rows).countP condition = 1 := by
          rw [List.countP_cons, hrest, if_pos hcondition]
        exact Nat.le_of_eq hone
      · rw [List.countP_cons, if_neg hcondition]
        apply ih hnodup.2
        intro left hleft right hright
        exact hkey left (List.mem_cons_of_mem row hleft) right
          (List.mem_cons_of_mem row hright)

theorem lookup_of_mem (hnodup : (rows.map key).Nodup) {row : Row} (hrow : row ∈ rows) :
    lookup key (key row) rows = some row := by
  cases hlookup : lookup key (key row) rows with
  | none =>
      have hnone := List.find?_eq_none.mp hlookup row hrow
      simp at hnone
  | some found =>
      rw [eq_of_key_eq hnodup (mem_of_lookup hlookup) hrow (key_of_lookup hlookup)]

theorem lookup_updateWhere {condition : Row → Bool} {change : Row → Row}
    (hkey : ∀ row, condition row = true → key (change row) = key row) (wanted : Key) :
    lookup key wanted (updateWhere rows condition change) =
      (lookup key wanted rows).map fun row => if condition row then change row else row := by
  induction rows with
  | nil => rfl
  | cons row rows ih =>
      have hsame : key (if condition row then change row else row) = key row := by
        by_cases hcondition : condition row = true
        · rw [if_pos hcondition, hkey row hcondition]
        · rw [if_neg hcondition]
      simp only [lookup, updateWhere, List.map_cons] at ih ⊢
      by_cases hwanted : key row = wanted
      · rw [List.find?_cons_of_pos (by simpa [hsame] using hwanted),
          List.find?_cons_of_pos (by simpa using hwanted)]
        rfl
      · rw [List.find?_cons_of_neg (by simpa [hsame] using hwanted),
          List.find?_cons_of_neg (by simpa using hwanted)]
        exact ih

theorem lookup_filter_ne (gone wanted : Key) :
    lookup key wanted (rows.filter fun row => key row ≠ gone) =
      if wanted = gone then none else lookup key wanted rows := by
  induction rows with
  | nil => simp [lookup]
  | cons row rows ih =>
      simp only [lookup] at ih ⊢
      by_cases hgone : key row = gone
      · rw [List.filter_cons_of_neg (by simpa using hgone), ih]
        by_cases hwanted : wanted = gone
        · rw [if_pos hwanted, if_pos hwanted]
        · rw [if_neg hwanted, if_neg hwanted, List.find?_cons_of_neg]
          simpa [hgone] using Ne.symm hwanted
      · rw [List.filter_cons_of_pos (by simpa using hgone)]
        by_cases hwanted : key row = wanted
        · have hne : wanted ≠ gone := hwanted ▸ hgone
          rw [List.find?_cons_of_pos (by simpa using hwanted), if_neg hne,
            List.find?_cons_of_pos (by simpa using hwanted)]
        · rw [List.find?_cons_of_neg (by simpa using hwanted), ih,
            List.find?_cons_of_neg (by simpa using hwanted)]

theorem lookup_append (wanted : Key) (row : Row) :
    lookup key wanted (rows ++ [row]) =
      (lookup key wanted rows).or (if key row = wanted then some row else none) := by
  by_cases hwanted : key row = wanted
  · simp [lookup, List.find?_append, hwanted]
  · simp [lookup, List.find?_append, hwanted]

theorem lookup_eq_none {wanted : Key} (hnone : lookup key wanted rows = none) {row : Row}
    (hrow : row ∈ rows) : key row ≠ wanted := by
  have hfind := List.find?_eq_none.mp hnone row hrow
  simpa using hfind

end Lookup

end RowTable

end MailPanel
