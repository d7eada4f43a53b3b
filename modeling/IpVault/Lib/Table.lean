import Mathlib.Tactic

set_option autoImplicit false

/-! # Tables with a primary key

A table is a list of rows no two of which have the same key. The list keeps the order in which
a database would return the rows when a query names no order. The key constraint is part of the
type, so every operation comes with the proof that it keeps it, and a lookup by key is the same
thing as membership (`Table.find?_eq_some`).
-/

namespace Lib

/-- The rows of a table whose primary key is `key`. -/
structure Table {ρ κ : Type} (key : ρ → κ) where
  rows : List ρ
  unique : (rows.map key).Nodup

namespace Table

variable {ρ κ : Type} {key : ρ → κ}

instance : Membership ρ (Table key) := ⟨fun t r => r ∈ t.rows⟩

theorem mem_rows {t : Table key} {r : ρ} : r ∈ t.rows ↔ r ∈ t := Iff.rfl

instance [DecidableEq ρ] (r : ρ) (t : Table key) : Decidable (r ∈ t) :=
  inferInstanceAs (Decidable (r ∈ t.rows))

@[ext] theorem ext_rows {t t' : Table key} (h : t.rows = t'.rows) : t = t' := by
  cases t
  cases t'
  simp_all

/-- Two rows of a table with the same key are the same row. -/
theorem eq_of_key {t : Table key} {r r' : ρ} (hr : r ∈ t) (hr' : r' ∈ t)
    (h : key r = key r') : r = r' :=
  List.inj_on_of_nodup_map t.unique hr hr' h

/-- The empty table. -/
def empty : Table key := ⟨[], by simp⟩

@[simp] theorem mem_empty (r : ρ) : r ∉ (empty : Table key) := List.not_mem_nil

/-- The rows that satisfy `p`; every other row is deleted. -/
def filter (p : ρ → Bool) (t : Table key) : Table key :=
  ⟨t.rows.filter p, t.unique.sublist (List.filter_sublist.map key)⟩

@[simp] theorem mem_filter {p : ρ → Bool} {t : Table key} {r : ρ} :
    r ∈ t.filter p ↔ r ∈ t ∧ p r = true := List.mem_filter

/-- Rewrite every row, leaving its key alone. -/
def map (f : ρ → ρ) (hf : ∀ r, key (f r) = key r) (t : Table key) : Table key :=
  ⟨t.rows.map f, by
    have h : key ∘ f = key := funext hf
    rw [List.map_map, h]
    exact t.unique⟩

@[simp] theorem mem_map {f : ρ → ρ} {hf : ∀ r, key (f r) = key r} {t : Table key} {r : ρ} :
    r ∈ t.map f hf ↔ ∃ r₀ ∈ t, f r₀ = r := List.mem_map

section Keyed

variable [DecidableEq κ]

/-- The row with key `k`. -/
def find? (t : Table key) (k : κ) : Option ρ := t.rows.find? fun r => key r = k

/-- Whether some row has key `k`. -/
def has (t : Table key) (k : κ) : Bool := (t.find? k).isSome

theorem find?_eq_none {t : Table key} {k : κ} : t.find? k = none ↔ ∀ r ∈ t, key r ≠ k := by
  unfold find?
  rw [List.find?_eq_none]
  exact forall₂_congr fun r _ => by rw [decide_eq_true_eq]

/-- **A lookup by key is membership.** -/
theorem find?_eq_some {t : Table key} {k : κ} {r : ρ} :
    t.find? k = some r ↔ r ∈ t ∧ key r = k := by
  have found : ∀ r', t.find? k = some r' → r' ∈ t ∧ key r' = k := by
    intro r' h
    have hk := List.find?_some h
    exact ⟨List.mem_of_find?_eq_some h, of_decide_eq_true hk⟩
  refine ⟨found r, fun ⟨hr, hk⟩ => ?_⟩
  cases h : t.find? k with
  | none => exact absurd hk (find?_eq_none.mp h r hr)
  | some r' =>
      obtain ⟨hr', hk'⟩ := found r' h
      rw [eq_of_key hr' hr (hk'.trans hk.symm)]

theorem find?_key {t : Table key} {r : ρ} (hr : r ∈ t) : t.find? (key r) = some r :=
  find?_eq_some.mpr ⟨hr, rfl⟩

theorem has_iff {t : Table key} {k : κ} : t.has k = true ↔ ∃ r ∈ t, key r = k := by
  simp only [has, Option.isSome_iff_exists, find?_eq_some]

theorem has_eq_false {t : Table key} {k : κ} : t.has k = false ↔ ∀ r ∈ t, key r ≠ k := by
  rw [← find?_eq_none, has, Option.isSome_eq_false_iff, Option.isNone_iff_eq_none]

/-- Add `r` as the last row, unless its key is taken. -/
def insert (r : ρ) (t : Table key) : Table key :=
  if h : t.has (key r) = true then t
  else ⟨t.rows ++ [r], by
    have h' := has_eq_false.mp (by simpa using h)
    rw [List.map_append, List.nodup_append]
    refine ⟨t.unique, by simp, ?_⟩
    intro k hk k' hk'
    obtain ⟨r', hr', rfl⟩ := List.mem_map.mp hk
    simp only [List.map_cons, List.map_nil, List.mem_singleton] at hk'
    rw [hk']
    exact h' r' hr'⟩

theorem mem_insert {t : Table key} {r r' : ρ} :
    r' ∈ t.insert r ↔ r' ∈ t ∨ (t.has (key r) = false ∧ r' = r) := by
  unfold insert
  by_cases h : t.has (key r) = true
  · simp [h]
  · simp only [h, Bool.false_eq_true, dite_false]
    rw [← mem_rows, List.mem_append, List.mem_singleton]
    simp [mem_rows]

theorem mem_of_mem_insert {t : Table key} {r r' : ρ} (h : r' ∈ t.insert r) :
    r' ∈ t ∨ r' = r :=
  (mem_insert.mp h).imp_right And.right

theorem mem_insert_of_mem {t : Table key} {r r' : ρ} (h : r' ∈ t) : r' ∈ t.insert r :=
  mem_insert.mpr (.inl h)

theorem find?_insert {t : Table key} {r : ρ} {k : κ} :
    (t.insert r).find? k = if t.has (key r) = false ∧ key r = k then some r else t.find? k := by
  by_cases h : t.has (key r) = false ∧ key r = k
  · rw [if_pos h]
    exact find?_eq_some.mpr ⟨mem_insert.mpr (.inr ⟨h.1, rfl⟩), h.2⟩
  · rw [if_neg h]
    ext r'
    rw [find?_eq_some, find?_eq_some, mem_insert]
    constructor
    · rintro ⟨hr | ⟨hf, rfl⟩, hk⟩
      · exact ⟨hr, hk⟩
      · exact absurd ⟨hf, hk⟩ h
    · rintro ⟨hr, hk⟩
      exact ⟨.inl hr, hk⟩

/-- Rewrite the row with key `k`, leaving its key alone. -/
def modify (k : κ) (f : ρ → ρ) (hf : ∀ r, key (f r) = key r) (t : Table key) : Table key :=
  t.map (fun r => if key r = k then f r else r) fun r => by
    by_cases h : key r = k
    · simp only [h, if_true, hf]
    · simp only [h, if_false]

theorem mem_modify {k : κ} {f : ρ → ρ} (hf : ∀ r, key (f r) = key r) {t : Table key} {r : ρ} :
    r ∈ t.modify k f hf ↔ (r ∈ t ∧ key r ≠ k) ∨ ∃ r₀ ∈ t, key r₀ = k ∧ r = f r₀ := by
  rw [modify, mem_map]
  constructor
  · rintro ⟨r₀, hr₀, rfl⟩
    by_cases h : key r₀ = k
    · exact .inr ⟨r₀, hr₀, h, by simp [h]⟩
    · exact .inl ⟨by simpa [h] using hr₀, by simp [h]⟩
  · rintro (⟨hr, h⟩ | ⟨r₀, hr₀, h, rfl⟩)
    · exact ⟨r, hr, by simp [h]⟩
    · exact ⟨r₀, hr₀, by simp [h]⟩

theorem find?_modify {k k' : κ} {f : ρ → ρ} {hf : ∀ r, key (f r) = key r} {t : Table key} :
    (t.modify k f hf).find? k' = if k' = k then (t.find? k).map f else t.find? k' := by
  ext r
  rw [find?_eq_some, mem_modify]
  by_cases h : k' = k
  · subst h
    rw [if_pos rfl]
    simp only [Option.map_eq_some_iff, find?_eq_some]
    constructor
    · rintro ⟨⟨_, h₁⟩ | ⟨r₀, hr₀, h₁, rfl⟩, h₂⟩
      · exact absurd h₂ h₁
      · exact ⟨r₀, ⟨hr₀, h₁⟩, rfl⟩
    · rintro ⟨r₀, ⟨hr₀, h₁⟩, rfl⟩
      exact ⟨.inr ⟨r₀, hr₀, h₁, rfl⟩, by rw [hf, h₁]⟩
  · rw [if_neg h, find?_eq_some]
    constructor
    · rintro ⟨⟨hr, _⟩ | ⟨r₀, _, h₁, rfl⟩, h₂⟩
      · exact ⟨hr, h₂⟩
      · exact absurd (by rw [← h₂, hf, h₁]) h
    · rintro ⟨hr, h₂⟩
      exact ⟨.inl ⟨hr, by rw [h₂]; exact h⟩, h₂⟩

theorem modify_of_absent {k : κ} {f : ρ → ρ} (hf : ∀ r, key (f r) = key r) {t : Table key}
    (h : t.find? k = none) : t.modify k f hf = t := by
  have same : ∀ r ∈ t.rows, (if key r = k then f r else r) = id r := by
    intro r hr
    rw [if_neg (find?_eq_none.mp h r hr), id]
  ext1
  show t.rows.map _ = t.rows
  rw [List.map_congr_left same, List.map_id]

/-- Every key of a modified table was there before, and conversely. -/
theorem has_modify {k k' : κ} {f : ρ → ρ} {hf : ∀ r, key (f r) = key r} {t : Table key} :
    (t.modify k f hf).has k' = t.has k' := by
  unfold has
  rw [find?_modify]
  by_cases h : k' = k
  · rw [if_pos h, h, Option.isSome_map]
  · rw [if_neg h]

end Keyed

/-- Whether a row of the table satisfies `p`. -/
def any (p : ρ → Bool) (t : Table key) : Bool := t.rows.any p

theorem any_iff {p : ρ → Bool} {t : Table key} : t.any p = true ↔ ∃ r ∈ t, p r = true :=
  List.any_eq_true

theorem any_eq_false {p : ρ → Bool} {t : Table key} :
    t.any p = false ↔ ∀ r ∈ t, p r = false := by
  rw [any, List.any_eq_false]
  exact forall₂_congr fun _ _ => by simp

/-! ## What is left of an operation when rows are filtered -/

theorem filter_comm (p q : ρ → Bool) (t : Table key) :
    (t.filter p).filter q = (t.filter q).filter p := by
  ext1
  show (t.rows.filter p).filter q = (t.rows.filter q).filter p
  rw [List.filter_filter, List.filter_filter]
  exact List.filter_congr fun r _ => Bool.and_comm _ _

section Keyed

variable [DecidableEq κ]

theorem filter_modify {k : κ} {f : ρ → ρ} {hf : ∀ r, key (f r) = key r}
    {p : ρ → Bool} (hp : ∀ r, p (f r) = p r) (t : Table key) :
    (t.modify k f hf).filter p = (t.filter p).modify k f hf := by
  ext1
  show (t.rows.map _).filter p = (t.rows.filter p).map _
  rw [List.filter_map]
  refine congrArg (List.map _) (List.filter_congr fun r _ => ?_)
  show p (if key r = k then f r else r) = p r
  by_cases h : key r = k
  · rw [if_pos h, hp]
  · rw [if_neg h]

theorem rows_insert {r : ρ} {t : Table key} (h : t.has (key r) = false) :
    (t.insert r).rows = t.rows ++ [r] := by
  unfold insert
  rw [dif_neg (by simp [h])]

theorem length_insert {r : ρ} {t : Table key} :
    (t.insert r).rows.length = t.rows.length + if t.has (key r) = true then 0 else 1 := by
  by_cases h : t.has (key r) = true
  · rw [if_pos h]
    unfold insert
    rw [dif_pos h]
    rfl
  · rw [if_neg h, rows_insert (Bool.eq_false_iff.mpr h), List.length_append, List.length_singleton]

theorem find?_filter {p : ρ → Bool} {t : Table key} {k : κ} :
    (t.filter p).find? k = (t.find? k).filter p := by
  ext r
  rw [find?_eq_some, mem_filter, Option.filter_eq_some_iff, find?_eq_some]
  exact and_right_comm

theorem has_filter_of_has_eq_false {p : ρ → Bool} {t : Table key} {k : κ}
    (h : t.has k = false) : (t.filter p).has k = false :=
  has_eq_false.mpr fun r hr => has_eq_false.mp h r (mem_filter.mp hr).1

theorem filter_insert {p : ρ → Bool} {r : ρ} {t : Table key}
    (h : t.has (key r) = false) (hp : p r = true) :
    (t.insert r).filter p = (t.filter p).insert r := by
  ext1
  show (t.insert r).rows.filter p = _
  rw [rows_insert h, rows_insert (has_filter_of_has_eq_false h), List.filter_append]
  exact congrArg (_ ++ ·) (List.filter_cons_of_pos hp)

end Keyed

/-! ## Other columns

`t.Unique f` is a uniqueness constraint on a column that is not the key. -/

/-- No two rows agree on the column `f`. -/
def Unique {γ : Type} (f : ρ → γ) (t : Table key) : Prop :=
  ∀ r ∈ t, ∀ r' ∈ t, f r = f r' → r = r'

namespace Unique

variable {γ : Type} {f : ρ → γ} {t : Table key}

theorem filter {p : ρ → Bool} (h : t.Unique f) : (t.filter p).Unique f :=
  fun r hr r' hr' => h r (mem_filter.mp hr).1 r' (mem_filter.mp hr').1

variable [DecidableEq κ]

theorem insert {r : ρ} (h : t.Unique f) (hr : ∀ r' ∈ t, f r' ≠ f r) :
    (t.insert r).Unique f := by
  intro a ha b hb e
  rcases mem_of_mem_insert ha with ha' | rfl
  · rcases mem_of_mem_insert hb with hb' | rfl
    · exact h a ha' b hb' e
    · exact absurd e (hr a ha')
  · rcases mem_of_mem_insert hb with hb' | rfl
    · exact absurd e.symm (hr b hb')
    · rfl

/-- Rewriting one row keeps a column unique when no other row has the new value. -/
theorem modify {k : κ} {g : ρ → ρ} (hg : ∀ r, key (g r) = key r) (h : t.Unique f)
    (hk : ∀ r ∈ t, key r = k → ∀ r' ∈ t, f r' = f (g r) → key r' = k) :
    (t.modify k g hg).Unique f := by
  intro a ha b hb e
  rcases (mem_modify hg).mp ha with ⟨ha', hka⟩ | ⟨a₀, ha₀, hka, rfl⟩
  · rcases (mem_modify hg).mp hb with ⟨hb', hkb⟩ | ⟨b₀, hb₀, hkb, rfl⟩
    · exact h a ha' b hb' e
    · exact absurd (hk b₀ hb₀ hkb a ha' e) hka
  · rcases (mem_modify hg).mp hb with ⟨hb', hkb⟩ | ⟨b₀, hb₀, hkb, rfl⟩
    · exact absurd (hk a₀ ha₀ hka b hb' e.symm) hkb
    · rw [eq_of_key ha₀ hb₀ (hka.trans hkb.symm)]

end Unique

end Table

end Lib
