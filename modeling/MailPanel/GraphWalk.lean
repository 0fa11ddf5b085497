import Mathlib.Logic.Relation
import Mathlib.Data.List.Basic
import Mathlib.Algebra.Ring.Nat

/-
Directed graphs: when new edges close a cycle, and a walk with a visited set.
-/

namespace MailPanel

namespace GraphWalk

open Relation

variable {Node : Type}

/-- No node is reached from itself. -/
def Acyclic (edge : Node → Node → Prop) : Prop :=
  ∀ node, ¬ TransGen edge node node

theorem acyclic_of_flat {edge : Node → Node → Prop}
    (hflat : ∀ node other next, edge node other → ¬ edge other next) : Acyclic edge := by
  intro node hcycle
  obtain ⟨next, hfirst, -⟩ := TransGen.head'_iff.mp hcycle
  obtain ⟨last, -, hlast⟩ := TransGen.tail'_iff.mp hcycle
  exact hflat last node next hlast hfirst

section Rewiring

variable {edge edge' : Node → Node → Prop} {sources targets : Node → Prop}

/-- A path of the old graph is one of the new graph up to its first source. -/
theorem exists_source (hother : ∀ x y, ¬ sources x → edge x y → edge' x y) {start source : Node}
    (hpath : ReflTransGen edge start source) (hsource : sources source) :
    ∃ first, sources first ∧ ReflTransGen edge' start first := by
  induction hpath using ReflTransGen.head_induction_on with
  | refl => exact ⟨source, hsource, ReflTransGen.refl⟩
  | @head node next hedge _ ih =>
      by_cases hnode : sources node
      · exact ⟨node, hnode, ReflTransGen.refl⟩
      · obtain ⟨first, hfirst, hpath⟩ := ih
        exact ⟨first, hfirst, ReflTransGen.head (hother node next hnode hedge) hpath⟩

/-- A path of the new graph is one of the old graph, or leaves it at a source and comes back
to it at a target. -/
theorem old_or_through (hnew : ∀ x y, edge' x y → edge x y ∨ (sources x ∧ targets y))
    {start stop : Node} (hpath : TransGen edge' start stop) :
    TransGen edge start stop ∨
      ∃ source target, sources source ∧ targets target ∧
        ReflTransGen edge start source ∧ ReflTransGen edge target stop := by
  induction hpath with
  | single hedge =>
      rename_i next
      rcases hnew start next hedge with hedge | ⟨hsource, htarget⟩
      · exact Or.inl (TransGen.single hedge)
      · exact Or.inr ⟨start, next, hsource, htarget, ReflTransGen.refl, ReflTransGen.refl⟩
  | @tail node next _ hedge ih =>
      rcases hnew node next hedge with hedge | ⟨hsource, htarget⟩
      · rcases ih with hold | ⟨source, target, hsource, htarget, hfirst, hlast⟩
        · exact Or.inl (hold.tail hedge)
        · exact Or.inr ⟨source, target, hsource, htarget, hfirst, hlast.tail hedge⟩
      · rcases ih with hold | ⟨source, _, hfirst, _, hreach, _⟩
        · exact Or.inr ⟨node, next, hsource, htarget, hold.to_reflTransGen, ReflTransGen.refl⟩
        · exact Or.inr ⟨source, next, hfirst, htarget, hreach, ReflTransGen.refl⟩

/-- Sources that get edges to all targets, and may lose others, close a cycle exactly when the
old graph leads from a target to a source. -/
theorem acyclic_iff_unreached (hacyclic : Acyclic edge)
    (hother : ∀ x y, ¬ sources x → (edge' x y ↔ edge x y))
    (hold : ∀ x y, sources x → edge' x y → edge x y ∨ targets y)
    (hnew : ∀ x y, sources x → targets y → edge' x y) :
    Acyclic edge' ↔ ∀ target source, targets target → sources source →
      ¬ ReflTransGen edge target source := by
  constructor
  · intro hacyclic' target source htarget hsource hpath
    obtain ⟨first, hfirst, hpath'⟩ :=
      exists_source (fun x y hx => (hother x y hx).mpr) hpath hsource
    exact hacyclic' first (TransGen.head' (hnew first target hfirst htarget) hpath')
  · intro hunreached node hcycle
    have hedges : ∀ x y, edge' x y → edge x y ∨ (sources x ∧ targets y) := by
      intro x y hedge
      by_cases hx : sources x
      · exact (hold x y hx hedge).imp_right fun hy => ⟨hx, hy⟩
      · exact Or.inl ((hother x y hx).mp hedge)
    rcases old_or_through hedges hcycle with hcycle | ⟨source, target, hsource, htarget, hto, hfrom⟩
    · exact hacyclic node hcycle
    · exact hunreached target source htarget hsource (hfrom.trans hto)

end Rewiring

section Walk

variable {Item : Type} (key : Item → Node) (next : Node → List Item)
  (target : Node)

/-- Take an item off the stack; stop at the target, skip what was visited, push what follows. -/
def walk [DecidableEq Node] : Nat → List Node → List Item → Bool
  | 0, _, _ => false
  | _, _, [] => false
  | fuel + 1, visited, item :: stack =>
      if key item = target then true
      else if key item ∈ visited then walk fuel visited stack
      else walk fuel (key item :: visited) (next (key item) ++ stack)

/-- The walk, which does not answer as long as it has not ended. An item whose node was visited
is dropped, and any other is replaced by what follows it. -/
def walkWithin [DecidableEq Node] : Nat → List Node → List Item → Option Bool
  | _, _, [] => some false
  | 0, _, _ :: _ => none
  | fuel + 1, visited, item :: stack =>
      if key item = target then some true
      else if key item ∈ visited then walkWithin fuel visited stack
      else walkWithin fuel (key item :: visited) (next (key item) ++ stack)

/-- The edges that the walk follows. -/
def Follows (node other : Node) : Prop := ∃ item ∈ next node, key item = other

/-- What the walk may still push. -/
def pending [DecidableEq Node] (nodes visited : List Node) : Nat :=
  ((nodes.filter fun node => node ∉ visited).map fun node => (next node).length).sum

/-- What follows a visited node was visited, or is on the stack. -/
def Closed (visited : List Node) (stack : List Item) : Prop :=
  ∀ node ∈ visited, node ≠ target ∧
    ∀ other, Follows key next node other → other ∈ visited ∨ ∃ item ∈ stack, key item = other

variable {key next target}

theorem pending_cons [DecidableEq Node] {nodes visited : List Node} {node : Node} (hnode : node ∉ visited) :
    pending next nodes (node :: visited) + (if node ∈ nodes then (next node).length else 0) ≤
      pending next nodes visited := by
  induction nodes with
  | nil => simp [pending]
  | cons head nodes ih =>
      by_cases hhead : head = node
      · subst hhead
        have hskip : pending next (head :: nodes) (head :: visited) =
            pending next nodes (head :: visited) := by
          simp [pending]
        have htake : pending next (head :: nodes) visited =
            (next head).length + pending next nodes visited := by
          simp [pending, hnode]
        rw [hskip, htake, if_pos List.mem_cons_self]
        omega
      · by_cases hvisited : head ∈ visited
        · have hskip : pending next (head :: nodes) (node :: visited) =
              pending next nodes (node :: visited) := by
            simp [pending, hvisited]
          have hskip' : pending next (head :: nodes) visited = pending next nodes visited := by
            simp [pending, hvisited]
          rw [hskip, hskip']
          simpa [Ne.symm hhead] using ih
        · have htake : pending next (head :: nodes) (node :: visited) =
              (next head).length + pending next nodes (node :: visited) := by
            simp [pending, hvisited, hhead]
          have htake' : pending next (head :: nodes) visited =
              (next head).length + pending next nodes visited := by
            simp [pending, hvisited]
          rw [htake, htake']
          have hmem : (node ∈ head :: nodes) = (node ∈ nodes) := by
            simp [Ne.symm hhead]
          simp only [hmem]
          omega

/-- An item that is taken off pays for what it pushes. The measure is what the stack holds and
what the unvisited nodes may still push, and the fuel stays above it. -/
theorem length_push_le [DecidableEq Node] {nodes visited : List Node}
    (hnodes : ∀ node, node ∉ nodes → next node = []) {item : Item} {stack : List Item} {fuel : Nat}
    (hvisited : key item ∉ visited)
    (hfuel : (item :: stack).length + pending next nodes visited ≤ fuel + 1) :
    (next (key item) ++ stack).length + pending next nodes (key item :: visited) ≤ fuel := by
  have hpending : pending next nodes (key item :: visited) +
      (if key item ∈ nodes then (next (key item)).length else 0) ≤ pending next nodes visited :=
    pending_cons hvisited
  have hlength : (next (key item)).length =
      if key item ∈ nodes then (next (key item)).length else 0 := by
    split
    · rfl
    · rename_i hnot
      rw [hnodes _ hnot]
      rfl
  rw [List.length_cons] at hfuel
  rw [List.length_append]
  omega

theorem walkWithin_eq [DecidableEq Node] {nodes : List Node}
    (hnodes : ∀ node, node ∉ nodes → next node = []) (fuel : Nat) (visited : List Node)
    (stack : List Item) (hfuel : stack.length + pending next nodes visited ≤ fuel) :
    walkWithin key next target fuel visited stack =
      some (walk key next target fuel visited stack) := by
  induction fuel generalizing visited stack with
  | zero =>
      have hstack : stack = [] := List.length_eq_zero_iff.mp (by omega)
      rw [hstack]
      rfl
  | succ fuel ih =>
      cases stack with
      | nil => rfl
      | cons item stack =>
          rw [walkWithin, walk]
          by_cases htarget : key item = target
          · rw [if_pos htarget, if_pos htarget]
          · rw [if_neg htarget, if_neg htarget]
            by_cases hvisited : key item ∈ visited
            · rw [if_pos hvisited, if_pos hvisited]
              rw [List.length_cons] at hfuel
              exact ih visited stack (by omega)
            · rw [if_neg hvisited, if_neg hvisited]
              exact ih _ _ (length_push_le hnodes hvisited hfuel)

/-- What a visited node leads to, the stack leads to. -/
theorem Closed.reached {visited : List Node} {stack : List Item}
    (hclosed : Closed key next target visited stack) {node : Node} (hnode : node ∈ visited)
    (hpath : ReflTransGen (Follows key next) node target) :
    ∃ item ∈ stack, ReflTransGen (Follows key next) (key item) target := by
  induction hpath using ReflTransGen.head_induction_on with
  | refl => exact absurd rfl (hclosed target hnode).1
  | head hedge hpath ih =>
      rcases (hclosed _ hnode).2 _ hedge with hvisited | ⟨item, hitem, hkey⟩
      · exact ih hvisited
      · exact ⟨item, hitem, hkey ▸ hpath⟩

/-- With enough fuel, the walk finds the target exactly when an item leads to it. -/
theorem walk_iff [DecidableEq Node] {nodes : List Node} (hnodes : ∀ node, node ∉ nodes → next node = [])
    (fuel : Nat) (visited : List Node) (stack : List Item)
    (hclosed : Closed key next target visited stack)
    (hfuel : stack.length + pending next nodes visited ≤ fuel) :
    walk key next target fuel visited stack = true ↔
      ∃ item ∈ stack, ReflTransGen (Follows key next) (key item) target := by
  induction fuel generalizing visited stack with
  | zero =>
      have hstack : stack = [] := List.length_eq_zero_iff.mp (by omega)
      subst hstack
      simp [walk]
  | succ fuel ih =>
      cases stack with
      | nil => simp [walk]
      | cons item stack =>
          rw [walk]
          split
          · rename_i htarget
            exact ⟨fun _ => ⟨item, List.mem_cons_self, htarget ▸ ReflTransGen.refl⟩,
              fun _ => rfl⟩
          · rename_i htarget
            split
            · rename_i hvisited
              have hclosed' : Closed key next target visited stack := by
                intro node hnode
                refine ⟨(hclosed node hnode).1, ?_⟩
                intro other hother
                rcases (hclosed node hnode).2 other hother with hmem | ⟨found, hfound, hkey⟩
                · exact Or.inl hmem
                · rcases List.mem_cons.mp hfound with rfl | hfound
                  · exact Or.inl (hkey ▸ hvisited)
                  · exact Or.inr ⟨found, hfound, hkey⟩
              rw [List.length_cons] at hfuel
              rw [ih visited stack hclosed' (by omega)]
              constructor
              · rintro ⟨found, hfound, hpath⟩
                exact ⟨found, List.mem_cons_of_mem item hfound, hpath⟩
              · rintro ⟨found, hfound, hpath⟩
                rcases List.mem_cons.mp hfound with rfl | hfound
                · exact hclosed'.reached hvisited hpath
                · exact ⟨found, hfound, hpath⟩
            · rename_i hvisited
              have hclosed' : Closed key next target (key item :: visited)
                  (next (key item) ++ stack) := by
                intro node hnode
                rcases List.mem_cons.mp hnode with rfl | hnode
                · refine ⟨htarget, ?_⟩
                  rintro other ⟨found, hfound, hkey⟩
                  exact Or.inr ⟨found, List.mem_append_left stack hfound, hkey⟩
                · refine ⟨(hclosed node hnode).1, ?_⟩
                  intro other hother
                  rcases (hclosed node hnode).2 other hother with hmem | ⟨found, hfound, hkey⟩
                  · exact Or.inl (List.mem_cons_of_mem (key item) hmem)
                  · rcases List.mem_cons.mp hfound with rfl | hfound
                    · exact Or.inl (hkey ▸ List.mem_cons_self)
                    · exact Or.inr ⟨found, List.mem_append_right _ hfound, hkey⟩
              have hfuel' := length_push_le hnodes hvisited hfuel
              rw [ih _ _ hclosed' hfuel']
              constructor
              · rintro ⟨found, hfound, hpath⟩
                rcases List.mem_append.mp hfound with hfound | hfound
                · exact ⟨item, List.mem_cons_self,
                    ReflTransGen.head ⟨found, hfound, rfl⟩ hpath⟩
                · exact ⟨found, List.mem_cons_of_mem item hfound, hpath⟩
              · rintro ⟨found, hfound, hpath⟩
                rcases List.mem_cons.mp hfound with rfl | hfound
                · rcases ReflTransGen.cases_head hpath with heq | ⟨other, ⟨mid, hmid, rfl⟩, hrest⟩
                  · exact absurd heq htarget
                  · exact ⟨mid, List.mem_append_left stack hmid, hrest⟩
                · exact ⟨found, List.mem_append_right _ hfound, hpath⟩

end Walk

end GraphWalk

end MailPanel
