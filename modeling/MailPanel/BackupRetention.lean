import Mathlib.Data.List.Sort
import Mathlib.Data.List.Enum

/-
Retention as a pure selection: which of some dated candidates are past "keep the
newest N" or past the age limit.
-/

namespace MailPanel

namespace Backups

/-- Creation times are instants in milliseconds. -/
structure RetentionCandidate where
  id : String
  createdAt : Int
deriving DecidableEq, Repr

structure RetentionPolicy where
  keep : Nat
  /-- `none` disables the age limit. -/
  maxAgeDays : Option Nat
deriving DecidableEq, Repr

def dayMs : Nat := 24 * 60 * 60 * 1000

def RetentionPolicy.tooOld (policy : RetentionPolicy) (now createdAt : Int) : Bool :=
  match policy.maxAgeDays with
  | none => false
  | some days => decide (createdAt + days * dayMs < now)

/-- Newest first; candidates of one instant keep their order. -/
def newestFirst (candidates : List RetentionCandidate) : List RetentionCandidate :=
  candidates.insertionSort fun a b => b.createdAt ≤ a.createdAt

def selectBackupsForDeletion (candidates : List RetentionCandidate)
    (policy : RetentionPolicy) (now : Int) (protectedId : Option String) : List String :=
  match newestFirst candidates with
  | [] => []
  | newest :: older =>
      (((newest :: older).zipIdx.filter fun entry =>
        decide (entry.1.id ≠ newest.id) && decide (protectedId ≠ some entry.1.id) &&
          (decide (policy.keep ≤ entry.2) || policy.tooOld now entry.1.createdAt)).map
        Prod.fst).map RetentionCandidate.id

section Selection

variable {candidates : List RetentionCandidate} {policy : RetentionPolicy} {now : Int}
  {protectedId : Option String}

@[simp]
theorem selectBackupsForDeletion_nil :
    selectBackupsForDeletion [] policy now protectedId = [] :=
  rfl

theorem mem_newestFirst {candidate : RetentionCandidate} :
    candidate ∈ newestFirst candidates ↔ candidate ∈ candidates := by
  rw [newestFirst, List.mem_insertionSort]

/-- The candidate that selection never takes. -/
def newest? (candidates : List RetentionCandidate) : Option RetentionCandidate :=
  (newestFirst candidates).head?

/-- Whatever is selected is a candidate, and never the newest or the protected one. -/
theorem exists_of_mem_selectBackupsForDeletion {id : String}
    (hid : id ∈ selectBackupsForDeletion candidates policy now protectedId) :
    ∃ candidate ∈ candidates, candidate.id = id ∧ protectedId ≠ some id ∧
      ∃ newest, newest? candidates = some newest ∧ id ≠ newest.id := by
  cases hsorted : newestFirst candidates with
  | nil => simp [selectBackupsForDeletion, hsorted] at hid
  | cons newest older =>
      rw [selectBackupsForDeletion, hsorted] at hid
      obtain ⟨candidate, hcandidate, rfl⟩ := List.mem_map.mp hid
      obtain ⟨entry, hentry, rfl⟩ := List.mem_map.mp hcandidate
      obtain ⟨hmem, hselected⟩ := List.mem_filter.mp hentry
      simp only [Bool.and_eq_true, decide_eq_true_eq] at hselected
      have hsortedMem : entry.1 ∈ newestFirst candidates := by
        rw [hsorted]
        exact List.fst_mem_of_mem_zipIdx hmem
      refine ⟨entry.1, mem_newestFirst.mp hsortedMem, rfl, hselected.1.2, newest, ?_,
        hselected.1.1⟩
      simp [newest?, hsorted]

theorem mem_of_mem_selectBackupsForDeletion {id : String}
    (hid : id ∈ selectBackupsForDeletion candidates policy now protectedId) :
    id ∈ candidates.map RetentionCandidate.id := by
  obtain ⟨candidate, hcandidate, rfl, -⟩ := exists_of_mem_selectBackupsForDeletion hid
  exact List.mem_map_of_mem hcandidate

theorem newest_notMem_selectBackupsForDeletion {newest : RetentionCandidate}
    (hnewest : newest? candidates = some newest) :
    newest.id ∉ selectBackupsForDeletion candidates policy now protectedId := by
  intro hid
  obtain ⟨-, -, -, -, other, hother, hne⟩ := exists_of_mem_selectBackupsForDeletion hid
  rw [hnewest, Option.some.injEq] at hother
  exact hne (congrArg RetentionCandidate.id hother)

/- The place of a candidate -/

/-- How many candidates come before it in newest-first order: those that are newer, and
those of its instant that the list has before it. -/
def preceding (candidates : List RetentionCandidate) (candidate : RetentionCandidate) : Nat :=
  candidates.countP (fun other => candidate.createdAt < other.createdAt) +
    (candidates.takeWhile (· ≠ candidate)).countP
      fun other => other.createdAt = candidate.createdAt

theorem newestFirst_pairwise (candidates : List RetentionCandidate) :
    (newestFirst candidates).Pairwise fun a b => b.createdAt ≤ a.createdAt :=
  haveI : Std.Total fun a b : RetentionCandidate => b.createdAt ≤ a.createdAt :=
    ⟨fun a b => le_total b.createdAt a.createdAt⟩
  haveI : IsTrans RetentionCandidate fun a b => b.createdAt ≤ a.createdAt :=
    ⟨fun _ _ _ hab hbc => le_trans hbc hab⟩
  List.pairwise_insertionSort _ candidates

theorem newestFirst_perm (candidates : List RetentionCandidate) :
    (newestFirst candidates).Perm candidates :=
  List.perm_insertionSort _ candidates

/-- Candidates of one instant keep their order. -/
theorem filter_newestFirst (candidates : List RetentionCandidate) (instant : Int) :
    (newestFirst candidates).filter (fun other => other.createdAt = instant) =
      candidates.filter fun other => other.createdAt = instant := by
  have hordered : (candidates.filter fun other => other.createdAt = instant).Pairwise
      fun a b => b.createdAt ≤ a.createdAt := by
    apply List.pairwise_of_forall_mem_list
    intro a ha b hb
    have heqa := of_decide_eq_true (List.mem_filter.mp ha).2
    have heqb := of_decide_eq_true (List.mem_filter.mp hb).2
    rw [heqa, heqb]
  have hsublist := List.sublist_insertionSort hordered List.filter_sublist
  have hfiltered := hsublist.filter fun other => decide (other.createdAt = instant)
  rw [List.filter_filter] at hfiltered
  simp only [Bool.and_self] at hfiltered
  have hlength := (newestFirst_perm candidates).filter
    fun other => decide (other.createdAt = instant)
  exact (hfiltered.eq_of_length hlength.length_eq.symm).symm

/-- The place of a candidate in newest-first order is the number of candidates that come before
it, whichever way equal times were sorted. -/
theorem length_eq_preceding {candidate : RetentionCandidate} (hnodup : candidates.Nodup)
    {newer older : List RetentionCandidate}
    (hsorted : newestFirst candidates = newer ++ candidate :: older) :
    newer.length = preceding candidates candidate := by
  have hpairwise := newestFirst_pairwise candidates
  rw [hsorted, List.pairwise_append] at hpairwise
  obtain ⟨-, hbelow, habove⟩ := hpairwise
  have hnone : older.countP (fun other => candidate.createdAt < other.createdAt) = 0 := by
    rw [List.countP_eq_zero]
    intro other hother
    have hle := (List.pairwise_cons.mp hbelow).1 other hother
    simpa using hle
  have hnewer : candidates.countP (fun other => candidate.createdAt < other.createdAt) =
      newer.countP fun other => candidate.createdAt < other.createdAt := by
    rw [← (newestFirst_perm candidates).countP_eq, hsorted, List.countP_append, List.countP_cons,
      hnone]
    simp
  have htied : (candidates.takeWhile (· ≠ candidate)).countP
        (fun other => other.createdAt = candidate.createdAt) =
      newer.countP fun other => other.createdAt = candidate.createdAt := by
    have hmem : candidate ∈ candidates := by
      rw [← mem_newestFirst, hsorted]
      exact List.mem_append_right _ List.mem_cons_self
    obtain ⟨before, after, hcandidates⟩ := List.append_of_mem hmem
    have hfirst : candidate ∉ before := by
      rw [hcandidates, List.nodup_append] at hnodup
      exact fun hbefore => hnodup.2.2 candidate hbefore candidate List.mem_cons_self rfl
    have htake : candidates.takeWhile (· ≠ candidate) = before := by
      rw [hcandidates, List.takeWhile_append_of_pos]
      · simp
      · intro other hother
        exact decide_eq_true fun heq => hfirst (heq ▸ hother)
    have hnotNewer : candidate ∉ newer := by
      have hsortedNodup := (newestFirst_perm candidates).nodup_iff.mpr hnodup
      rw [hsorted, List.nodup_append] at hsortedNodup
      exact fun hmem => hsortedNodup.2.2 candidate hmem candidate List.mem_cons_self rfl
    have hsame := filter_newestFirst candidates candidate.createdAt
    rw [hsorted, hcandidates] at hsame
    simp only [List.filter_append, List.filter_cons, decide_true, ↓reduceIte] at hsame
    have hlists : newer.filter (fun other => other.createdAt = candidate.createdAt) =
        before.filter fun other => other.createdAt = candidate.createdAt := by
      have hcut := congrArg (List.takeWhile (· ≠ candidate)) hsame
      rw [List.takeWhile_append_of_pos, List.takeWhile_append_of_pos] at hcut
      · simpa using hcut
      · intro other hother
        exact decide_eq_true fun heq => hfirst (heq ▸ (List.mem_filter.mp hother).1)
      · intro other hother
        exact decide_eq_true fun heq => hnotNewer (heq ▸ (List.mem_filter.mp hother).1)
    rw [htake, List.countP_eq_length_filter, List.countP_eq_length_filter, hlists]
  have hsplit : newer.length =
      newer.countP (fun other => candidate.createdAt < other.createdAt) +
        newer.countP fun other => ¬candidate.createdAt < other.createdAt := by
    have hcount := List.length_eq_countP_add_countP
      (fun other : RetentionCandidate => decide (candidate.createdAt < other.createdAt))
      (l := newer)
    simpa using hcount
  have hequal : newer.countP (fun other => ¬candidate.createdAt < other.createdAt) =
      newer.countP fun other => other.createdAt = candidate.createdAt := by
    apply List.countP_congr
    intro other hother
    have hle := habove other hother candidate List.mem_cons_self
    simp only [decide_eq_true_eq]
    omega
  rw [preceding, hnewer, htied, hsplit, hequal]

theorem mem_zipIdx_newestFirst {candidate : RetentionCandidate} {place : Nat}
    (hnodup : candidates.Nodup) :
    (candidate, place) ∈ (newestFirst candidates).zipIdx ↔
      candidate ∈ candidates ∧ place = preceding candidates candidate := by
  rw [List.mk_mem_zipIdx_iff_getElem?]
  constructor
  · intro hat
    obtain ⟨hplace, hcandidate⟩ := List.getElem?_eq_some_iff.mp hat
    have hsplit : newestFirst candidates = (newestFirst candidates).take place ++
        candidate :: (newestFirst candidates).drop (place + 1) := by
      rw [← hcandidate, ← List.drop_eq_getElem_cons hplace, List.take_append_drop]
    refine ⟨mem_newestFirst.mp (List.mem_of_getElem? hat), ?_⟩
    rw [← length_eq_preceding hnodup hsplit, List.length_take]
    omega
  · rintro ⟨hmem, rfl⟩
    obtain ⟨newer, older, hsorted⟩ := List.append_of_mem (mem_newestFirst.mpr hmem)
    rw [← length_eq_preceding hnodup hsorted, hsorted]
    simp

/- What selection comes to -/

/-- Past the newest to keep or past the age limit, and neither the newest of all nor the
protected one. -/
def Expired (candidates : List RetentionCandidate) (policy : RetentionPolicy) (now : Int)
    (protectedId : Option String) (candidate : RetentionCandidate) : Prop :=
  preceding candidates candidate ≠ 0 ∧ protectedId ≠ some candidate.id ∧
    (policy.keep ≤ preceding candidates candidate ∨
      policy.tooOld now candidate.createdAt = true)

/-- A policy with no larger number to keep, and no later age limit. -/
structure RetentionPolicy.Stricter (policy looser : RetentionPolicy) : Prop where
  keep : policy.keep ≤ looser.keep
  maxAgeDays : ∀ days, looser.maxAgeDays = some days →
    ∃ fewer, policy.maxAgeDays = some fewer ∧ fewer ≤ days

theorem mem_selectBackupsForDeletion_iff
    (hids : (candidates.map RetentionCandidate.id).Nodup) {candidate : RetentionCandidate}
    (hcandidate : candidate ∈ candidates) :
    candidate.id ∈ selectBackupsForDeletion candidates policy now protectedId ↔
      Expired candidates policy now protectedId candidate := by
  have hnodup : candidates.Nodup := List.Nodup.of_map _ hids
  cases hsorted : newestFirst candidates with
  | nil =>
      rw [← mem_newestFirst, hsorted] at hcandidate
      cases hcandidate
  | cons newest older =>
      have hplaced : ∀ other place, (other, place) ∈ (newest :: older).zipIdx ↔
          other ∈ candidates ∧ place = preceding candidates other := by
        intro other place
        rw [← hsorted]
        exact mem_zipIdx_newestFirst hnodup
      obtain ⟨hnewest, hzero⟩ := (hplaced newest 0).mp List.mem_cons_self
      have hnewestId : candidate.id ≠ newest.id ↔ preceding candidates candidate ≠ 0 := by
        refine not_congr ⟨?_, ?_⟩
        · intro hsame
          rw [List.inj_on_of_nodup_map hids hcandidate hnewest hsame, ← hzero]
        · intro hnone
          have hat := (hplaced candidate 0).mpr ⟨hcandidate, hnone.symm⟩
          rw [List.mk_mem_zipIdx_iff_getElem?] at hat
          exact congrArg RetentionCandidate.id (Option.some.inj hat).symm
      rw [selectBackupsForDeletion, hsorted, Expired, ← hnewestId]
      constructor
      · intro hselected
        obtain ⟨found, hfound, hsame⟩ := List.mem_map.mp hselected
        obtain ⟨entry, hentry, rfl⟩ := List.mem_map.mp hfound
        obtain ⟨hmem, hchosen⟩ := List.mem_filter.mp hentry
        obtain ⟨hlisted, hplace⟩ := (hplaced entry.1 entry.2).mp hmem
        rw [List.inj_on_of_nodup_map hids hlisted hcandidate hsame] at hchosen hplace
        simp only [Bool.and_eq_true, Bool.or_eq_true, decide_eq_true_eq] at hchosen
        rw [hplace] at hchosen
        exact ⟨hchosen.1.1, hchosen.1.2, hchosen.2⟩
      · rintro ⟨hne, hprotected, hdue⟩
        refine List.mem_map_of_mem (List.mem_map.mpr
          ⟨(candidate, preceding candidates candidate), List.mem_filter.mpr ⟨?_, ?_⟩, rfl⟩)
        · exact (hplaced _ _).mpr ⟨hcandidate, rfl⟩
        · simp only [Bool.and_eq_true, Bool.or_eq_true, decide_eq_true_eq]
          exact ⟨⟨hne, hprotected⟩, hdue⟩

theorem RetentionPolicy.Stricter.tooOld {looser : RetentionPolicy}
    (hstricter : policy.Stricter looser) {createdAt : Int}
    (hold : looser.tooOld now createdAt = true) : policy.tooOld now createdAt = true := by
  cases hdays : looser.maxAgeDays with
  | none => simp [RetentionPolicy.tooOld, hdays] at hold
  | some days =>
      obtain ⟨fewer, hfewer, hle⟩ := hstricter.maxAgeDays days hdays
      have hmul : (fewer : Int) * dayMs ≤ days * dayMs := by
        exact_mod_cast Nat.mul_le_mul_right dayMs hle
      simp only [RetentionPolicy.tooOld, hdays, hfewer, decide_eq_true_eq] at hold ⊢
      omega

/-- Whatever a policy spares, a looser one spares too. -/
theorem RetentionPolicy.Stricter.spares {looser : RetentionPolicy}
    (hstricter : policy.Stricter looser)
    (hids : (candidates.map RetentionCandidate.id).Nodup) {candidate : RetentionCandidate}
    (hcandidate : candidate ∈ candidates)
    (hspared : candidate.id ∉ selectBackupsForDeletion candidates policy now protectedId) :
    candidate.id ∉ selectBackupsForDeletion candidates looser now protectedId := by
  rw [mem_selectBackupsForDeletion_iff hids hcandidate] at hspared ⊢
  rintro ⟨hne, hprotected, hbeyond | hold⟩
  · exact hspared ⟨hne, hprotected, Or.inl (Nat.le_trans hstricter.keep hbeyond)⟩
  · exact hspared ⟨hne, hprotected, Or.inr (hstricter.tooOld hold)⟩

/-- Candidates of different instants have one order. -/
theorem newestFirst_eq_of_perm {others : List RetentionCandidate}
    (hperm : others.Perm candidates)
    (hinstants : (candidates.map RetentionCandidate.createdAt).Nodup) :
    newestFirst others = newestFirst candidates := by
  apply List.Perm.eq_of_pairwise _ (newestFirst_pairwise others)
    (newestFirst_pairwise candidates)
  · exact ((newestFirst_perm others).trans hperm).trans (newestFirst_perm candidates).symm
  · intro a b ha hb hab hba
    have hinA := hperm.mem_iff.mp (mem_newestFirst.mp ha)
    exact List.inj_on_of_nodup_map hinstants hinA (mem_newestFirst.mp hb)
      (Int.le_antisymm hba hab)

/-- Selection takes what has expired, spares more under a looser policy, and does not depend on
the order of candidates of different instants. The newest is never taken, and what is taken is
counted from the newest, so that each candidate's place decides and not that of its neighbours
in the listing. -/
theorem selectBackupsForDeletion_correct (policy : RetentionPolicy) (now : Int)
    (protectedId : Option String) (hids : (candidates.map RetentionCandidate.id).Nodup) :
    (∀ id ∈ selectBackupsForDeletion candidates policy now protectedId,
      id ∈ candidates.map RetentionCandidate.id) ∧
    (∀ candidate ∈ candidates,
      (candidate.id ∈ selectBackupsForDeletion candidates policy now protectedId ↔
        Expired candidates policy now protectedId candidate)) ∧
    (∀ looser, policy.Stricter looser → ∀ candidate ∈ candidates,
      candidate.id ∉ selectBackupsForDeletion candidates policy now protectedId →
        candidate.id ∉ selectBackupsForDeletion candidates looser now protectedId) ∧
    ∀ others : List RetentionCandidate, others.Perm candidates →
      (candidates.map RetentionCandidate.createdAt).Nodup →
      selectBackupsForDeletion others policy now protectedId =
        selectBackupsForDeletion candidates policy now protectedId := by
  refine ⟨fun id => mem_of_mem_selectBackupsForDeletion, ?_, ?_, ?_⟩
  · exact fun candidate hcandidate => mem_selectBackupsForDeletion_iff hids hcandidate
  · exact fun looser hstricter candidate hcandidate => hstricter.spares hids hcandidate
  · intro others hperm hinstants
    rw [selectBackupsForDeletion, selectBackupsForDeletion,
      newestFirst_eq_of_perm hperm hinstants]

/-- The oldest of three is past an age limit of a day, the second one is protected by its place,
and the newest is never taken. -/
theorem selected_of_three :
    "c" ∈ selectBackupsForDeletion [⟨"c", 0⟩, ⟨"a", 172800000⟩, ⟨"b", 86400000⟩] ⟨1, some 1⟩
      172800000 (some "b") ∧
    "b" ∉ selectBackupsForDeletion [⟨"c", 0⟩, ⟨"a", 172800000⟩, ⟨"b", 86400000⟩] ⟨1, some 1⟩
      172800000 (some "b") := by
  have hcorrect := @selectBackupsForDeletion_correct
    [⟨"c", 0⟩, ⟨"a", 172800000⟩, ⟨"b", 86400000⟩] ⟨1, some 1⟩ 172800000
    (some "b") (by decide)
  constructor
  · exact (hcorrect.2.1 ⟨"c", 0⟩ (by simp)).mpr ⟨by decide, by decide, by decide⟩
  · intro hselected
    obtain ⟨-, hprotected, -⟩ := (hcorrect.2.1 ⟨"b", 86400000⟩ (by simp)).mp hselected
    exact hprotected rfl

end Selection

end Backups

end MailPanel
