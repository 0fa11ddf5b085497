import MailPanel.SpfLookups
import Mathlib.Algebra.Order.BigOperators.Group.List
import Mathlib.Algebra.Order.Ring.Nat
import Mathlib.Data.List.Perm.Subperm
import Mathlib.Data.List.TakeWhile

/-
What RFC 7208 asks of a record, against a sender that no mechanism matches: every term is
evaluated as often as it is met.  A verdict says as much where every domain is met once.
-/

namespace MailPanel

namespace Spf

section Evaluation

variable (toLowerCase : Text → Text) (expand : Text → Text) (zone : Zone)

def Term.redirecting : Term → Bool
  | .redirects _ => true
  | _ => false

/-- The terms that are evaluated: the mechanisms before an `all`, and a redirect where there is
no `all`. -/
def live (terms : List Term) : List Term :=
  (terms.takeWhile (· ≠ .all)).filter (fun term => !term.redirecting) ++
    if .all ∈ terms then [] else terms.filter Term.redirecting

/-- The domain that is asked: a sender's data stands for what a macro names. -/
def askedDomain (spec : Text) : Text :=
  toLowerCase (if '%' ∈ spec then expand spec else spec)

def uniqueRecord (domain : Text) : Option Text :=
  if domain = [] then none
  else
    match fetchSpfRecords zone domain with
    | .ok [record] => some record
    | _ => none

def Term.spec : Term → Option Text
  | .includes spec => some spec
  | .redirects spec => some spec
  | _ => none

/-- An include or a redirect that was evaluated, and the record that it led to. -/
structure Met where
  spec : Text
  record : Text
deriving DecidableEq, Repr

/-- The terms evaluate, to their end, with so many that query the DNS. The rule for an include
or a redirect counts the term itself and everything in the record that it leads to. -/
inductive Evaluates : List Term → List Met → Nat → Prop
  | done : Evaluates [] [] 0
  | query {terms : List Term} {met : List Met} {count : Nat} :
      Evaluates terms met count → Evaluates (.query :: terms) met (count + 1)
  | other {term : Term} {terms : List Term} {met : List Met} {count : Nat} :
      term ≠ .query → term.spec = none → Evaluates terms met count →
        Evaluates (term :: terms) met count
  | follow {term : Term} {spec record : Text} {terms : List Term} {inner met : List Met}
      {nested count : Nat} :
      term.spec = some spec →
        uniqueRecord zone (askedDomain toLowerCase expand spec) = some record →
          Evaluates (live (termsOf toLowerCase record)) inner nested →
            Evaluates terms met count →
              Evaluates (term :: terms) (⟨spec, record⟩ :: inner ++ met) (nested + count + 1)

/-- At most ten terms are evaluated, and every include and redirect finds its record. -/
def Sound (domain : Text) : Prop :=
  ∃ record, fetchSpfRecords zone domain = .ok [record] ∧
    ∃ met count, Evaluates toLowerCase expand zone (live (termsOf toLowerCase record)) met count ∧
      count ≤ spfRfcLookupLimit

def Term.queries (term : Term) : Bool := term = .query || term.spec.isSome

/-- How many terms of a record query the DNS. -/
def liveQueries (record : Text) : Nat :=
  (live (termsOf toLowerCase record)).countP Term.queries

/-- No domain is met twice, and none is named by a macro. -/
def MetOnce (domain : Text) (met : List Met) : Prop :=
  (toLowerCase domain :: met.map fun one => toLowerCase one.spec).Nodup ∧
    ∀ one ∈ met, '%' ∉ one.spec

end Evaluation

section Terms

variable {toLowerCase : Text → Text}

theorem mem_of_mem_live {terms : List Term} {term : Term} (hmem : term ∈ live terms) :
    term ∈ terms := by
  rcases List.mem_append.mp hmem with hmem | hmem
  · exact List.takeWhile_sublist _ |>.subset (List.mem_of_mem_filter hmem)
  · by_cases hall : Term.all ∈ terms
    · rw [if_pos hall] at hmem
      exact absurd hmem List.not_mem_nil
    · rw [if_neg hall] at hmem
      exact List.mem_of_mem_filter hmem

/-- No more terms are evaluated than stand in the record. -/
theorem countP_live_le (terms : List Term) :
    (live terms).countP Term.queries ≤ terms.countP Term.queries := by
  rw [live, List.countP_append]
  by_cases hall : Term.all ∈ terms
  · rw [if_pos hall, List.countP_nil]
    exact (List.filter_sublist.trans (List.takeWhile_sublist _)).countP_le
  · rw [if_neg hall]
    have hwhole : terms.takeWhile (· ≠ .all) = terms := by
      refine List.takeWhile_eq_self_iff.mpr fun term hterm => decide_eq_true ?_
      exact fun heq => hall (heq ▸ hterm)
    rw [hwhole]
    have hsplit := (List.filter_append_perm (fun term : Term => !term.redirecting) terms).countP_eq
      Term.queries
    rw [List.countP_append] at hsplit
    simp only [Bool.not_not] at hsplit
    exact hsplit.le

end Terms

section Code

variable {toLowerCase : Text → Text} {zone : Zone}

/-- How many terms of a domain's record the code counts. -/
def recordQueries (toLowerCase : Text → Text) (zone : Zone) (domain : Text) : ℕ :=
  match uniqueRecord zone domain with
  | some record => (termsOf toLowerCase record).countP Term.queries
  | none => 0

/-- Every target of the terms was visited. -/
def Followed (toLowerCase : Text → Text) (terms : List Term) (visited : List Text) : Prop :=
  ∀ term ∈ terms, ∀ spec, term.spec = some spec →
    toLowerCase spec = [] ∨ toLowerCase spec ∈ visited

/-- What a stretch of the walk has counted: its own terms, and those of the records it opened,
every record once. -/
structure Counted (toLowerCase : Text → Text) (zone : Zone) (terms : List Term)
    (visited visited' opened : List Text) (count : ℕ) : Prop where
  nodup : opened.Nodup
  fresh : ∀ domain ∈ opened, domain ∉ visited
  kept : visited ⊆ visited'
  entered : opened ⊆ visited'
  known : ∀ domain ∈ visited', domain ∈ visited ∨ domain ∈ opened ∨ uniqueRecord zone domain = none
  followed : Followed toLowerCase terms visited'
  nested : ∀ domain ∈ opened, ∀ record, uniqueRecord zone domain = some record →
    Followed toLowerCase (termsOf toLowerCase record) visited'
  count_eq : count = terms.countP Term.queries + (opened.map (recordQueries toLowerCase zone)).sum

theorem Followed.mono {terms : List Term} {visited visited' : List Text}
    (hfollowed : Followed toLowerCase terms visited) (hsubset : visited ⊆ visited') :
    Followed toLowerCase terms visited' := by
  intro term hterm spec hspec
  exact (hfollowed term hterm spec hspec).imp_right fun hmem => hsubset hmem

theorem Followed.cons {terms : List Term} {visited : List Text} {term : Term}
    (hfollowed : Followed toLowerCase terms visited)
    (hterm : ∀ spec, term.spec = some spec →
      toLowerCase spec = [] ∨ toLowerCase spec ∈ visited) :
    Followed toLowerCase (term :: terms) visited := by
  intro one hone spec hspec
  rcases List.mem_cons.mp hone with rfl | hone
  · exact hterm spec hspec
  · exact hfollowed one hone spec hspec

theorem counted_nil (visited : List Text) : Counted toLowerCase zone [] visited visited [] 0 where
  nodup := List.nodup_nil
  fresh := fun _ hdomain => absurd hdomain List.not_mem_nil
  kept := List.Subset.refl visited
  entered := List.nil_subset visited
  known := fun _ hdomain => Or.inl hdomain
  followed := fun _ hterm => absurd hterm List.not_mem_nil
  nested := fun _ hdomain => absurd hdomain List.not_mem_nil
  count_eq := rfl

section Step

variable {terms : List Term} {visited visited' opened : List Text} {count : ℕ}

/-- A term that leads nowhere new. -/
theorem Counted.skip (hcounted : Counted toLowerCase zone terms visited visited' opened count)
    (term : Term) (hterm : ∀ spec, term.spec = some spec →
      toLowerCase spec = [] ∨ toLowerCase spec ∈ visited') :
    Counted toLowerCase zone (term :: terms) visited visited' opened
      (count + if term.queries then 1 else 0) where
  nodup := hcounted.nodup
  fresh := hcounted.fresh
  kept := hcounted.kept
  entered := hcounted.entered
  known := hcounted.known
  followed := hcounted.followed.cons hterm
  nested := hcounted.nested
  count_eq := by
    rw [List.countP_cons, hcounted.count_eq]
    omega

/-- A target without a record of its own. -/
theorem Counted.dangling {target : Text} (hnone : uniqueRecord zone target = none)
    (hcounted : Counted toLowerCase zone terms (target :: visited) visited' opened count) :
    Counted toLowerCase zone terms visited visited' opened count where
  nodup := hcounted.nodup
  fresh := fun domain hdomain hmem => hcounted.fresh domain hdomain (List.mem_cons_of_mem target hmem)
  kept := fun _ hmem => hcounted.kept (List.mem_cons_of_mem target hmem)
  entered := hcounted.entered
  known := by
    intro domain hdomain
    rcases hcounted.known domain hdomain with hmem | hmem
    · rcases List.mem_cons.mp hmem with rfl | hmem
      · exact Or.inr (Or.inr hnone)
      · exact Or.inl hmem
    · exact Or.inr hmem
  followed := hcounted.followed
  nested := hcounted.nested
  count_eq := hcounted.count_eq

/-- A target whose record is opened, and what follows it. The count of the nested record is
added, and one for the term itself. -/
theorem Counted.enter {target record : Text} {between inner : List Text} {nestedCount : ℕ}
    (htarget : target ∉ visited) (hrecord : uniqueRecord zone target = some record)
    (hnested : Counted toLowerCase zone (termsOf toLowerCase record) (target :: visited) between
      inner nestedCount)
    (hcounted : Counted toLowerCase zone terms between visited' opened count) :
    Counted toLowerCase zone terms visited visited' (target :: inner ++ opened)
      (count + nestedCount) where
  nodup := by
    have htargetInner : target ∉ inner := fun hmem =>
      hnested.fresh target hmem List.mem_cons_self
    refine List.nodup_append.mpr ⟨List.nodup_cons.mpr ⟨htargetInner, hnested.nodup⟩,
      hcounted.nodup, ?_⟩
    rintro domain hdomain _ hopened rfl
    refine hcounted.fresh domain hopened ?_
    rcases List.mem_cons.mp hdomain with rfl | hdomain
    · exact hnested.kept List.mem_cons_self
    · exact hnested.entered hdomain
  fresh := by
    intro domain hdomain hmem
    rcases List.mem_append.mp hdomain with hdomain | hdomain
    · rcases List.mem_cons.mp hdomain with rfl | hdomain
      · exact htarget hmem
      · exact hnested.fresh domain hdomain (List.mem_cons_of_mem target hmem)
    · exact hcounted.fresh domain hdomain (hnested.kept (List.mem_cons_of_mem target hmem))
  kept := fun _ hmem => hcounted.kept (hnested.kept (List.mem_cons_of_mem target hmem))
  entered := by
    intro domain hdomain
    rcases List.mem_append.mp hdomain with hdomain | hdomain
    · rcases List.mem_cons.mp hdomain with rfl | hdomain
      · exact hcounted.kept (hnested.kept List.mem_cons_self)
      · exact hcounted.kept (hnested.entered hdomain)
    · exact hcounted.entered hdomain
  known := by
    intro domain hdomain
    rcases hcounted.known domain hdomain with hmem | hmem | hnone
    · rcases hnested.known domain hmem with hmem | hmem | hnone
      · rcases List.mem_cons.mp hmem with rfl | hmem
        · exact Or.inr (Or.inl (List.mem_append_left opened List.mem_cons_self))
        · exact Or.inl hmem
      · exact Or.inr (Or.inl (List.mem_append_left opened (List.mem_cons_of_mem target hmem)))
      · exact Or.inr (Or.inr hnone)
    · exact Or.inr (Or.inl (List.mem_append_right _ hmem))
    · exact Or.inr (Or.inr hnone)
  followed := hcounted.followed
  nested := by
    intro domain hdomain found hfound
    rcases List.mem_append.mp hdomain with hdomain | hdomain
    · rcases List.mem_cons.mp hdomain with rfl | hdomain
      · rw [hrecord] at hfound
        rw [← Option.some.inj hfound]
        exact hnested.followed.mono hcounted.kept
      · exact (hnested.nested domain hdomain found hfound).mono hcounted.kept
    · exact hcounted.nested domain hdomain found hfound
  count_eq := by
    have hqueries : recordQueries toLowerCase zone target =
        (termsOf toLowerCase record).countP Term.queries := by
      rw [recordQueries, hrecord]
    rw [List.map_append, List.sum_append, List.map_cons, List.sum_cons, hqueries,
      hcounted.count_eq, hnested.count_eq]
    omega

end Step

theorem queries_of_spec {term : Term} {spec : Text} (hspec : term.spec = some spec) :
    term.queries = true := by
  rw [Term.queries, hspec]
  exact Bool.or_true _

/-- What counting does with a term that names a domain. A domain that was visited before is
counted once more, but its record is not entered again. -/
def followed (toLowerCase : Text → Text) (zone : Zone)
    (countNested : Text → List Text → Option (ℕ × List Text)) (terms : List Term)
    (visited : List Text) (target : Text) : Option (ℕ × List Text) :=
  if target = [] ∨ target ∈ visited then
    (countTerms toLowerCase zone countNested terms visited).map fun (count, visited) =>
      (count + 1, visited)
  else
    match fetchSpfRecords zone target with
    | .error _ => none
    | .ok [nested] =>
        match countNested nested (target :: visited) with
        | none => none
        | some (nestedCount, visited) =>
            (countTerms toLowerCase zone countNested terms visited).map
              fun (count, visited) => (count + nestedCount + 1, visited)
    | .ok _ =>
        (countTerms toLowerCase zone countNested terms (target :: visited)).map
          fun (count, visited) => (count + 1, visited)

/-- What an include or a redirect counts for, and what it leaves visited. -/
theorem countTerms_follow {countNested : Text → List Text → Option (ℕ × List Text)} {term : Term}
    {spec : Text} {terms : List Term} {visited visited' : List Text} {count : ℕ}
    (hspec : term.spec = some spec)
    (hnested : ∀ record visited count visited',
      countNested record visited = some (count, visited') → ∃ opened,
        Counted toLowerCase zone (termsOf toLowerCase record) visited visited' opened count)
    (hterms : ∀ visited count visited',
      countTerms toLowerCase zone countNested terms visited = some (count, visited') → ∃ opened,
        Counted toLowerCase zone terms visited visited' opened count)
    (hrun : countTerms toLowerCase zone countNested (term :: terms) visited =
      some (count, visited')) :
    ∃ opened, Counted toLowerCase zone (term :: terms) visited visited' opened count := by
  have hqueries := queries_of_spec hspec
  have hplain : ∀ visited₀ count₀ opened,
      Counted toLowerCase zone terms visited₀ visited' opened count₀ →
      (toLowerCase spec = [] ∨ toLowerCase spec ∈ visited₀) →
      Counted toLowerCase zone (term :: terms) visited₀ visited' opened (count₀ + 1) := by
    intro visited₀ count₀ opened hcounted hold
    have hskip := hcounted.skip term ?_
    · rwa [if_pos hqueries] at hskip
    · intro found hfound
      rw [hspec] at hfound
      rw [← Option.some.inj hfound]
      exact hold.imp_right fun hmem => hcounted.kept hmem
  have hfollow : countTerms toLowerCase zone countNested (term :: terms) visited =
      followed toLowerCase zone countNested terms visited (toLowerCase spec) := by
    cases term with
    | all => cases hspec
    | query => cases hspec
    | other => cases hspec
    | includes found => obtain rfl := Option.some.inj hspec; rfl
    | redirects found => obtain rfl := Option.some.inj hspec; rfl
  rw [hfollow, followed] at hrun
  by_cases hold : toLowerCase spec = [] ∨ toLowerCase spec ∈ visited
  · rw [if_pos hold] at hrun
    obtain ⟨⟨count₀, _⟩, hrest, heq⟩ := Option.map_eq_some_iff.mp hrun
    obtain ⟨rfl, rfl⟩ := Prod.mk.inj heq
    obtain ⟨opened, hcounted⟩ := hterms _ _ _ hrest
    exact ⟨opened, hplain _ _ _ hcounted hold⟩
  · rw [if_neg hold] at hrun
    rw [not_or] at hold
    have hentered : ∀ count₀ opened,
        Counted toLowerCase zone terms (toLowerCase spec :: visited) visited' opened count₀ →
        uniqueRecord zone (toLowerCase spec) = none →
        ∃ opened, Counted toLowerCase zone (term :: terms) visited visited' opened (count₀ + 1) := by
      intro count₀ opened hcounted hnone
      exact ⟨opened, (hplain _ _ _ hcounted (Or.inr List.mem_cons_self)).dangling hnone⟩
    cases hfetch : fetchSpfRecords zone (toLowerCase spec) with
    | error error =>
        rw [hfetch] at hrun
        cases hrun
    | ok records =>
        rw [hfetch] at hrun
        cases records with
        | nil =>
            obtain ⟨⟨count₀, _⟩, hrest, heq⟩ := Option.map_eq_some_iff.mp hrun
            obtain ⟨rfl, rfl⟩ := Prod.mk.inj heq
            obtain ⟨opened, hcounted⟩ := hterms _ _ _ hrest
            refine hentered _ opened hcounted ?_
            rw [uniqueRecord, if_neg hold.1, hfetch]
        | cons nested others =>
            cases others with
            | nil =>
                have hunique : uniqueRecord zone (toLowerCase spec) = some nested := by
                  rw [uniqueRecord, if_neg hold.1, hfetch]
                dsimp only at hrun
                cases hinner : countNested nested (toLowerCase spec :: visited) with
                | none =>
                    rw [hinner] at hrun
                    cases hrun
                | some found =>
                    rw [hinner] at hrun
                    obtain ⟨nestedCount, between⟩ := found
                    obtain ⟨⟨count₀, _⟩, hrest, heq⟩ := Option.map_eq_some_iff.mp hrun
                    obtain ⟨rfl, rfl⟩ := Prod.mk.inj heq
                    obtain ⟨inner, hcountedInner⟩ := hnested _ _ _ _ hinner
                    obtain ⟨opened, hcounted⟩ := hterms _ _ _ hrest
                    have htarget : toLowerCase spec ∈ between :=
                      hcountedInner.kept List.mem_cons_self
                    have henter := hcountedInner.enter hold.2 hunique
                      (hplain _ _ _ hcounted (Or.inr htarget))
                    rw [Nat.add_right_comm count₀ 1 nestedCount] at henter
                    exact ⟨_, henter⟩
            | cons second others =>
                obtain ⟨⟨count₀, _⟩, hrest, heq⟩ := Option.map_eq_some_iff.mp hrun
                obtain ⟨rfl, rfl⟩ := Prod.mk.inj heq
                obtain ⟨opened, hcounted⟩ := hterms _ _ _ hrest
                refine hentered _ opened hcounted ?_
                rw [uniqueRecord, if_neg hold.1, hfetch]

theorem countTerms_counted {countNested : Text → List Text → Option (ℕ × List Text)}
    (hnested : ∀ record visited count visited',
      countNested record visited = some (count, visited') → ∃ opened,
        Counted toLowerCase zone (termsOf toLowerCase record) visited visited' opened count)
    (terms : List Term) (visited visited' : List Text) (count : ℕ)
    (hrun : countTerms toLowerCase zone countNested terms visited = some (count, visited')) :
    ∃ opened, Counted toLowerCase zone terms visited visited' opened count := by
  induction terms generalizing visited visited' count with
  | nil =>
      obtain ⟨rfl, rfl⟩ := Prod.mk.inj (Option.some.inj hrun)
      exact ⟨[], counted_nil visited⟩
  | cons term terms ih =>
      have hterms := fun visited count visited' => ih visited visited' count
      have hquiet : ∀ term : Term, term.spec = none → term.queries = false →
          countTerms toLowerCase zone countNested terms visited = some (count, visited') →
            ∃ opened, Counted toLowerCase zone (term :: terms) visited visited' opened count := by
        intro term hspec hqueries hrest
        obtain ⟨opened, hcounted⟩ := ih _ _ _ hrest
        have hskip := hcounted.skip term fun spec hsome => by
          rw [hspec] at hsome
          cases hsome
        rw [hqueries, if_neg Bool.false_ne_true] at hskip
        exact ⟨opened, hskip⟩
      cases term with
      | all => exact hquiet .all rfl rfl hrun
      | other => exact hquiet .other rfl rfl hrun
      | query =>
          obtain ⟨⟨count₀, _⟩, hrest, heq⟩ := Option.map_eq_some_iff.mp hrun
          obtain ⟨rfl, rfl⟩ := Prod.mk.inj heq
          obtain ⟨opened, hcounted⟩ := ih _ _ _ hrest
          exact ⟨opened, hcounted.skip .query fun spec hsome => nomatch hsome⟩
      | includes spec => exact countTerms_follow rfl hnested hterms hrun
      | redirects spec => exact countTerms_follow rfl hnested hterms hrun

/-- The walk counts the terms of the record, and of every record that it opens. -/
theorem countSpfLookups_counted (levels : ℕ) (record : Text) (visited : List Text) (count : ℕ)
    (visited' : List Text)
    (hrun : countSpfLookups toLowerCase zone levels record visited = some (count, visited')) :
    ∃ opened, Counted toLowerCase zone (termsOf toLowerCase record) visited visited' opened
      count := by
  induction levels generalizing record visited count visited' with
  | zero => cases hrun
  | succ levels ih => exact countTerms_counted ih _ _ _ _ hrun

end Code

section Verdict

variable {toLowerCase expand : Text → Text} {zone : Zone} {domain : Text}

/-- Every record met adds its terms, as often as it is met. The standard counts them so, and the
code counts a domain only once. -/
theorem Evaluates.count_eq {terms : List Term} {met : List Met} {count : ℕ}
    (hevaluates : Evaluates toLowerCase expand zone terms met count) :
    count = terms.countP Term.queries +
      (met.map fun one => liveQueries toLowerCase one.record).sum := by
  induction hevaluates with
  | done => rfl
  | query _ ih =>
      rw [List.countP_cons_of_pos rfl, ih]
      omega
  | @other term _ _ _ hquery hspec _ ih =>
      have hqueries : ¬ term.queries = true := by
        rw [Term.queries, hspec, decide_eq_false hquery]
        exact Bool.false_ne_true
      rw [List.countP_cons_of_neg hqueries, ih]
  | follow hspec _ _ _ ihNested ih =>
      rw [List.countP_cons_of_pos (queries_of_spec hspec), List.map_append, List.sum_append,
        List.map_cons, List.sum_cons, ihNested, ih]
      dsimp only
      rw [liveQueries]
      omega

theorem liveQueries_le {record target : Text} (hrecord : uniqueRecord zone target = some record) :
    liveQueries toLowerCase record ≤ recordQueries toLowerCase zone target := by
  rw [liveQueries, recordQueries, hrecord]
  exact countP_live_le _

/-- Where every domain is met once, the walk has opened all that is met, and its count leaves
nothing out. -/
theorem Evaluates.opened {root terms : List Term} {met : List Met} {count n : ℕ}
    {start visited' opened : List Text}
    (hevaluates : Evaluates toLowerCase expand zone terms met count)
    (hcounted : Counted toLowerCase zone root start visited' opened n)
    (hfollowed : Followed toLowerCase terms visited')
    (hmet : ∀ one ∈ met, toLowerCase one.spec ∉ start ∧ '%' ∉ one.spec) :
    ∀ one ∈ met, toLowerCase one.spec ∈ opened ∧
      uniqueRecord zone (toLowerCase one.spec) = some one.record := by
  induction hevaluates with
  | done => exact fun one hone => absurd hone List.not_mem_nil
  | query _ ih => exact ih (fun one hone => hfollowed one (List.mem_cons_of_mem _ hone)) hmet
  | other _ _ _ ih => exact ih (fun one hone => hfollowed one (List.mem_cons_of_mem _ hone)) hmet
  | @follow term spec record terms inner met nested count hspec hunique _ _ ihNested ih =>
      obtain ⟨hstart, hmacro⟩ := hmet ⟨spec, record⟩ List.mem_cons_self
      rw [askedDomain, if_neg hmacro] at hunique
      have hopened : toLowerCase spec ∈ opened := by
        rcases hfollowed term List.mem_cons_self spec hspec with hempty | hvisited
        · rw [uniqueRecord, if_pos hempty] at hunique
          cases hunique
        · rcases hcounted.known _ hvisited with hmem | hmem | hnone
          · exact absurd hmem hstart
          · exact hmem
          · rw [hunique] at hnone
            cases hnone
      have hinner : Followed toLowerCase (live (termsOf toLowerCase record)) visited' :=
        fun one hone => hcounted.nested _ hopened record hunique one (mem_of_mem_live hone)
      intro one hone
      rcases List.mem_append.mp hone with hone | hone
      · rcases List.mem_cons.mp hone with rfl | hone
        · exact ⟨hopened, hunique⟩
        · refine ihNested hinner ?_ one hone
          exact fun next hnext => hmet next
            (List.mem_append_left met (List.mem_cons_of_mem _ hnext))
      · refine ih (fun next hnext => hfollowed next (List.mem_cons_of_mem _ hnext)) ?_ one hone
        exact fun next hnext => hmet next (List.mem_append_right _ hnext)

theorem sum_le_of_subperm {few many : List Text} (hsubperm : few.Subperm many) {f : Text → ℕ} :
    (few.map f).sum ≤ (many.map f).sum := by
  obtain ⟨chosen, hperm, hsublist⟩ := hsubperm
  rw [← (hperm.map f).sum_eq]
  exact (hsublist.map f).sum_le_sum fun count _ => Nat.zero_le count

/-- What is met once was counted, so the evaluation makes no more queries than the code has
counted. -/
theorem Evaluates.count_le {record : Text} {met : List Met} {count n : ℕ}
    {visited' opened : List Text}
    (hevaluates : Evaluates toLowerCase expand zone (live (termsOf toLowerCase record)) met count)
    (hcounted : Counted toLowerCase zone (termsOf toLowerCase record) [toLowerCase domain] visited'
      opened n)
    (honce : MetOnce toLowerCase domain met) : count ≤ n := by
  obtain ⟨hnodup, hmacro⟩ := honce
  rw [List.nodup_cons] at hnodup
  have hmet : ∀ one ∈ met, toLowerCase one.spec ∉ [toLowerCase domain] ∧ '%' ∉ one.spec := by
    intro one hone
    refine ⟨fun hmem => hnodup.1 ?_, hmacro one hone⟩
    rw [← List.mem_singleton.mp hmem]
    exact List.mem_map_of_mem (f := fun one : Met => toLowerCase one.spec) hone
  have hopened := hevaluates.opened hcounted
    (fun one hone => hcounted.followed one (mem_of_mem_live hone)) hmet
  have hsum : (met.map fun one => liveQueries toLowerCase one.record).sum ≤
      (opened.map (recordQueries toLowerCase zone)).sum := by
    calc (met.map fun one => liveQueries toLowerCase one.record).sum
        ≤ (met.map fun one => recordQueries toLowerCase zone (toLowerCase one.spec)).sum :=
          List.sum_le_sum fun one hone => liveQueries_le (hopened one hone).2
      _ = ((met.map fun one => toLowerCase one.spec).map (recordQueries toLowerCase zone)).sum := by
          rw [List.map_map]
          rfl
      _ ≤ (opened.map (recordQueries toLowerCase zone)).sum := by
          have hsubperm : (met.map fun one => toLowerCase one.spec).Subperm opened := by
            refine hnodup.2.subperm ?_
            intro target htarget
            obtain ⟨one, hone, rfl⟩ := List.mem_map.mp htarget
            exact (hopened one hone).1
          exact sum_le_of_subperm hsubperm
  rw [hevaluates.count_eq, hcounted.count_eq]
  exact Nat.add_le_add (countP_live_le _) hsum

theorem Evaluates.unique {terms : List Term} {met met' : List Met} {count count' : ℕ}
    (hleft : Evaluates toLowerCase expand zone terms met count)
    (hright : Evaluates toLowerCase expand zone terms met' count') : count = count' := by
  induction hleft generalizing met' count' with
  | done =>
      cases hright
      rfl
  | query _ ih =>
      cases hright with
      | query hright => rw [ih hright]
      | other hquery => exact absurd rfl hquery
      | follow hspec => cases hspec
  | other hquery hspec _ ih =>
      cases hright with
      | query => exact absurd rfl hquery
      | other _ _ hright => exact ih hright
      | follow hsome =>
          rw [hspec] at hsome
          cases hsome
  | follow hspec hunique _ _ ihNested ih =>
      cases hright with
      | query => cases hspec
      | other _ hnone =>
          rw [hspec] at hnone
          cases hnone
      | follow hspec' hunique' hnested' hright =>
          rw [hspec] at hspec'
          obtain rfl := Option.some.inj hspec'
          rw [hunique] at hunique'
          obtain rfl := Option.some.inj hunique'
          rw [ihNested hnested', ih hright]

/-- A verdict says valid where the one record was counted, and the count is at most ten. -/
theorem checkSpf_valid (hvalid : (checkSpf toLowerCase zone domain).state = .valid) :
    ∃ record count visited, fetchSpfRecords zone domain = .ok [record] ∧
      countSpfLookups toLowerCase zone (maxSpfRecursionDepth + 1) record [toLowerCase domain] =
        some (count, visited) ∧ count ≤ spfRfcLookupLimit := by
  rw [checkSpf] at hvalid
  cases hfetch : fetchSpfRecords zone domain with
  | error error =>
      rw [hfetch] at hvalid
      dsimp only at hvalid
      split at hvalid
      · cases hvalid
      · cases hvalid
  | ok records =>
      rw [hfetch] at hvalid
      match records with
      | [] => cases hvalid
      | _ :: _ :: _ => cases hvalid
      | [record] =>
          dsimp only at hvalid
          cases hcount : countSpfLookups toLowerCase zone (maxSpfRecursionDepth + 1) record
              [toLowerCase domain] with
          | none =>
              rw [hcount, Option.map_none, if_pos rfl] at hvalid
              split at hvalid
              · cases hvalid
              · cases hvalid
          | some found =>
              obtain ⟨count, visited⟩ := found
              refine ⟨record, count, visited, rfl, hcount, ?_⟩
              by_contra hover
              rw [hcount, Option.map_some, countIssues, if_pos (Nat.lt_of_not_le hover)] at hvalid
              rw [if_pos (by simp)] at hvalid
              cases hvalid

end Verdict

/-- A valid verdict is sound where every include and redirect that is evaluated leads to one
record, and no domain is met twice or named by a macro: the walk has then opened every record
that is met, and its count bounds theirs. -/
theorem checkSpf_sound_of_metOnce (toLowerCase expand : Text → Text) (zone : Zone) (domain : Text)
    (hvalid : (checkSpf toLowerCase zone domain).state = .valid) {record : Text} {met : List Met}
    {count : ℕ} (hfetch : fetchSpfRecords zone domain = .ok [record])
    (hevaluates : Evaluates toLowerCase expand zone (live (termsOf toLowerCase record)) met count)
    (honce : MetOnce toLowerCase domain met) : Sound toLowerCase expand zone domain := by
  obtain ⟨record', n, visited, hfetch', hrun, hle⟩ := checkSpf_valid hvalid
  rw [hfetch] at hfetch'
  obtain rfl := List.singleton_inj.mp (Except.ok.inj hfetch')
  obtain ⟨opened, hcounted⟩ := countSpfLookups_counted _ _ _ _ _ hrun
  exact ⟨record, hfetch, met, count, hevaluates, (hevaluates.count_le hcounted honce).trans hle⟩

section Zones

def asciiLower (text : Text) : Text := text.map Char.toLower

/-- A domain with a record, and one that it may include. -/
def zoneOf (record included : Text) : Zone := fun domain =>
  if domain = ['x'] then .ok [[record]]
  else if domain = ['b'] then .ok [[included]]
  else .error ⟨some "ENOTFOUND".toList, none⟩

def once : Text := "v=spf1 include:b -all".toList

def twice : Text := "v=spf1 include:b include:b -all".toList

def included : Text := "v=spf1 a a a a a -all".toList

theorem included_live : live (termsOf asciiLower included) =
    [.query, .query, .query, .query, .query] := by
  decide

theorem zoneOf_unique (record : Text) (hspf : isSpfRecord record = true) :
    fetchSpfRecords (zoneOf record included) ['x'] = .ok [record] ∧
      uniqueRecord (zoneOf record included) ['b'] = some included := by
  have hincluded : isSpfRecord included = true := by decide
  constructor
  · simp [fetchSpfRecords, zoneOf, Except.map, hspf]
  · simp [uniqueRecord, fetchSpfRecords, zoneOf, Except.map, hincluded]

theorem evaluates_include {zone : Zone} (hunique : uniqueRecord zone ['b'] = some included)
    {terms : List Term} {met : List Met} {count : ℕ}
    (hrest : Evaluates asciiLower id zone terms met count) :
    Evaluates asciiLower id zone (.includes ['b'] :: terms) (⟨['b'], included⟩ :: met)
      (5 + count + 1) := by
  have hnested : Evaluates asciiLower id zone (live (termsOf asciiLower included)) [] 5 := by
    rw [included_live]
    exact .query (.query (.query (.query (.query .done))))
  exact @Evaluates.follow asciiLower id zone (.includes ['b']) ['b'] included terms [] met 5 count
    rfl hunique hnested hrest

/-- Included once, the record is counted as often as it is met: the verdict and the evaluation
agree. -/
theorem checkSpf_once : (checkSpf asciiLower (zoneOf once included) ['x']).state = .valid ∧
    Sound asciiLower id (zoneOf once included) ['x'] := by
  have hvalid : (checkSpf asciiLower (zoneOf once included) ['x']).state = .valid := by
    decide
  have hlive : live (termsOf asciiLower once) = [.includes ['b']] := by decide
  obtain ⟨hfetch, hunique⟩ := zoneOf_unique once (by decide)
  exact ⟨hvalid, checkSpf_sound_of_metOnce asciiLower id _ ['x'] hvalid hfetch
    (hlive ▸ evaluates_include hunique .done) ⟨by decide, by decide⟩⟩

/-- Included twice, it is counted once: the panel reports seven lookups and a valid record,
where an evaluation makes twelve and fails. -/
theorem checkSpf_twice : ¬∀ zone domain, (checkSpf asciiLower zone domain).state = .valid →
    Sound asciiLower id zone domain := by
  intro hclaim
  have hlive : live (termsOf asciiLower twice) = [.includes ['b'], .includes ['b']] := by
    decide
  obtain ⟨hfetch, hunique⟩ := zoneOf_unique twice (by decide)
  obtain ⟨record, hrecord, met, count, hevaluates, hle⟩ :=
    hclaim (zoneOf twice included) ['x'] (by decide)
  rw [hfetch] at hrecord
  obtain rfl := List.singleton_inj.mp (Except.ok.inj hrecord)
  have htwelve := evaluates_include hunique (evaluates_include hunique .done)
  rw [hlive] at hevaluates
  rw [hevaluates.unique htwelve] at hle
  exact absurd hle (by decide)

end Zones

end Spf

end MailPanel
