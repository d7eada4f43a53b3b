import Mathlib.Logic.Relation
import Mathlib.Tactic

set_option autoImplicit false

/-! # Breadth-first search

A search from a root along a relation `R` keeps the nodes it has visited and a frontier, the ones
whose successors it has not looked at yet. A round replaces the frontier by the successors that
are new. `Search` is the invariant of the rounds: once the frontier is empty, the nodes visited are
those that `R` reaches from the root. `unvisited` counts the nodes of a finite universe that are
left; it drops in every round that finds something, which bounds the number of rounds.
-/

namespace Lib

variable {α : Type} {R : α → α → Prop} {root : α} {visited frontier found : List α}

/-- The invariant of a search. -/
structure Search (R : α → α → Prop) (root : α) (visited frontier : List α) : Prop where
  start : root ∈ visited
  reached : ∀ a ∈ visited, Relation.ReflTransGen R root a
  pending : ∀ a ∈ frontier, a ∈ visited
  closed : ∀ a ∈ visited, a ∉ frontier → ∀ b, R a b → b ∈ visited

namespace Search

/-- Where a search begins. -/
theorem init (R : α → α → Prop) (root : α) : Search R root [root] [root] where
  start := List.mem_singleton_self root
  reached a ha := by
    obtain rfl := List.mem_singleton.mp ha
    exact .refl
  pending _ ha := ha
  closed _ ha hout := absurd ha hout

/-- **One round.** -/
theorem round (h : Search R root visited frontier)
    (hfound : ∀ b, b ∈ found ↔ b ∉ visited ∧ ∃ a ∈ frontier, R a b) :
    Search R root (visited ++ found) found where
  start := List.mem_append_left found h.start
  reached a ha := by
    rcases List.mem_append.mp ha with ha | ha
    · exact h.reached a ha
    · obtain ⟨-, b, hb, hab⟩ := (hfound a).mp ha
      exact (h.reached b (h.pending b hb)).tail hab
  pending a ha := List.mem_append_right visited ha
  closed a ha hout b hab := by
    have hold : a ∈ visited := (List.mem_append.mp ha).resolve_right hout
    by_cases hb : b ∈ visited
    · exact List.mem_append_left found hb
    · -- A successor of the frontier that is new has just been found.
      by_cases hfr : a ∈ frontier
      · exact List.mem_append_right visited ((hfound b).mpr ⟨hb, a, hfr, hab⟩)
      · exact absurd (h.closed a hold hfr b hab) hb

/-- **The end.** An empty frontier leaves nothing to find. -/
theorem finished (h : Search R root visited []) (a : α) :
    a ∈ visited ↔ Relation.ReflTransGen R root a := by
  refine ⟨h.reached a, fun ha => ?_⟩
  induction ha with
  | refl => exact h.start
  | tail _ hab ih => exact h.closed _ ih List.not_mem_nil _ hab

end Search

/-! ## How long a search takes -/

section Bound

variable [DecidableEq α]

/-- The nodes of the universe that are not visited. -/
def unvisited (nodes visited : List α) : Nat := (nodes.filter (· ∉ visited)).length

theorem unvisited_le (nodes visited : List α) : unvisited nodes visited ≤ nodes.length :=
  List.length_filter_le _ _

/-- A round that finds a node of the universe leaves fewer. -/
theorem unvisited_lt {nodes : List α} {a : α} (hn : a ∈ nodes) (hv : a ∉ visited)
    (hf : a ∈ found) : unvisited nodes (visited ++ found) < unvisited nodes visited := by
  have split : nodes.filter (· ∉ visited ++ found) =
      (nodes.filter (· ∉ visited)).filter (· ∉ found) := by
    rw [List.filter_filter]
    congr 1
    funext b
    simp [not_or, Bool.and_comm]
  have hmem : a ∈ nodes.filter (· ∉ visited) := List.mem_filter.mpr ⟨hn, by simpa using hv⟩
  have hdrop : ¬ (decide (a ∉ found)) = true := by simpa using hf
  unfold unvisited
  rw [split]
  exact List.length_filter_lt_length_iff_exists.mpr ⟨a, hmem, hdrop⟩

end Bound

end Lib
