import Mathlib.Data.Finset.Basic

set_option autoImplicit false

/-! # Copies that are brought up to date by rows

A copy of a set is sent rows: each names an element, and says whether the element is gone. Rows that
tell the truth make the copy exact, if they name every element on which it was wrong (`catches_up`).
-/

namespace Lib

variable {α ρ : Type} [DecidableEq α] (key : ρ → α) (gone : ρ → Bool)

/-- One row: its element is removed if it is gone, and added otherwise. -/
def apply_row (held : Finset α) (row : ρ) : Finset α :=
  if gone row then held.erase (key row) else insert (key row) held

variable {key gone} {live : α → Prop}

/-- A row that tells the truth settles its element, and leaves the others alone. -/
theorem mem_apply_row {held : Finset α} {row : ρ} (htrue : gone row = false ↔ live (key row))
    (a : α) : a ∈ apply_row key gone held row ↔ if key row = a then live a else a ∈ held := by
  unfold apply_row
  by_cases ha : key row = a
  · subst ha
    rw [if_pos rfl, ← htrue]
    cases gone row <;> simp
  · have hne : a ≠ key row := fun h => ha h.symm
    rw [if_neg ha]
    cases gone row <;> simp [hne]

/-- **A copy catches up.** Rows that tell the truth, and that name every element on which the copy
differs from the set, make it exact. -/
theorem catches_up {rows : List ρ} {held : Finset α}
    (htrue : ∀ row ∈ rows, gone row = false ↔ live (key row))
    (htold : ∀ a, (a ∈ held ↔ live a) ∨ ∃ row ∈ rows, key row = a) (a : α) :
    a ∈ rows.foldl (apply_row key gone) held ↔ live a := by
  induction rows generalizing held with
  | nil =>
      rcases htold a with hsame | ⟨row, hrow, -⟩
      · exact hsame
      · exact absurd hrow List.not_mem_nil
  | cons row rows ih =>
      have happly := @mem_apply_row α ρ _ key gone live held row (htrue row List.mem_cons_self)
      refine ih (fun r hr => htrue r (List.mem_cons_of_mem row hr)) fun b => ?_
      rw [happly b]
      by_cases hb : key row = b
      · rw [if_pos hb]
        exact .inl Iff.rfl
      · rw [if_neg hb]
        rcases htold b with hsame | ⟨r, hr, hkey⟩
        · exact .inl hsame
        · rcases List.mem_cons.mp hr with rfl | hr
          · exact absurd hkey hb
          · exact .inr ⟨r, hr, hkey⟩

end Lib
