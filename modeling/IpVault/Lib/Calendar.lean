import Mathlib.Tactic

set_option autoImplicit false

/-! # Dates as texts

An instant is a number of nanoseconds since 1970. As a text it begins with its year in the Gregorian
calendar, which has four digits, or a sign and at least four if it lies before the year 0 or after 9999.
`before` is the order of these texts, character by character. `before_iff` says where it is the order of
time. Instants before the year -262143 have no text.
-/

namespace Lib.Calendar

/-! ## Years -/

/-- The days from the first day of the year 0 to that of a year. -/
def days_before (year : Int) : Int :=
  365 * year + (year + 3) / 4 - (year + 99) / 100 + (year + 399) / 400

/-- The year of a day, which is counted from the first day of the year 0. -/
def year_of_day (day : Int) : Int :=
  -- Four centuries have 146097 days, so that this is the year or one beside it.
  let guess := 400 * day / 146097
  if days_before (guess + 1) ≤ day then guess + 1
  else if day < days_before guess then guess - 1
  else guess

/-- The year of an instant. The year 1970 begins 719528 days after the year 0. -/
def year (t : Int) : Int := year_of_day (t / 86400000000000 + 719528)

theorem days_before_mono {y z : Int} (h : y ≤ z) : days_before y ≤ days_before z := by
  unfold days_before
  omega

/-- Years have 365.2425 days on the average. -/
theorem days_before_bounds (y : Int) :
    146097 * y - 396 ≤ 400 * days_before y ∧ 400 * days_before y ≤ 146097 * y + 699 := by
  unfold days_before
  omega

/-- A year has begun on its days, and is not over. -/
theorem year_of_day_spec (day : Int) :
    days_before (year_of_day day) ≤ day ∧ day < days_before (year_of_day day + 1) := by
  unfold year_of_day
  dsimp only
  have hlow := days_before_bounds (400 * day / 146097 - 1)
  have hhigh := days_before_bounds (400 * day / 146097 + 2)
  split
  · rename_i hnext
    have htwo : 400 * day / 146097 + 1 + 1 = 400 * day / 146097 + 2 := by omega
    rw [htwo]
    omega
  · split
    · rename_i hnot
      have hone : 400 * day / 146097 - 1 + 1 = 400 * day / 146097 := by omega
      rw [hone]
      omega
    · omega

theorem year_of_day_mono {d e : Int} (h : d ≤ e) : year_of_day d ≤ year_of_day e := by
  by_contra hlt
  have hyears : year_of_day e + 1 ≤ year_of_day d := by omega
  have hdays := days_before_mono hyears
  have hd := (year_of_day_spec d).1
  have he := (year_of_day_spec e).2
  omega

theorem year_mono {t u : Int} (h : t ≤ u) : year t ≤ year u :=
  year_of_day_mono (by omega)

/-! ## Texts -/

/-- The last four digits of a number. -/
def four_digits (n : Nat) : List Char :=
  [n / 1000 % 10, n / 100 % 10, n / 10 % 10, n % 10].map Nat.digitChar

/-- A year as a text. -/
def year_text (y : Int) : List Char :=
  if 0 ≤ y ∧ y ≤ 9999 then four_digits y.toNat
  else (if y < 0 then '-' else '+') ::
    (if y.natAbs ≤ 9999 then four_digits y.natAbs else Nat.toDigits 10 y.natAbs)

/-- The first instant that has a text, in the year -262143. -/
def first : Int := -8334601228800000000000

/-- The order of the texts. Within a year it is that of time. -/
def text_lt (t u : Int) : Bool :=
  if year t = year u then decide (t < u) else decide (year_text (year t) < year_text (year u))

/-- The text of an instant comes before that of another, which has one. -/
def before (t u : Int) : Bool := decide (first ≤ u) && text_lt t u

/-- The year of the instant has four digits and no sign. -/
def FourDigits (t : Int) : Prop := 0 ≤ year t ∧ year t ≤ 9999

instance (t : Int) : Decidable (FourDigits t) := inferInstanceAs (Decidable (_ ∧ _))

theorem digitChar_lt_iff {m n : Nat} (hm : m < 10) (hn : n < 10) :
    Nat.digitChar m < Nat.digitChar n ↔ m < n := by
  have all : ∀ m < 10, ∀ n < 10, Nat.digitChar m < Nat.digitChar n ↔ m < n := by decide
  exact all m hm n hn

theorem digitChar_eq_iff {m n : Nat} (hm : m < 10) (hn : n < 10) :
    Nat.digitChar m = Nat.digitChar n ↔ m = n := by
  have all : ∀ m < 10, ∀ n < 10, Nat.digitChar m = Nat.digitChar n ↔ m = n := by decide
  exact all m hm n hn

/-- Numbers of four digits are in the order of their texts. -/
theorem four_digits_lt_iff {m n : Nat} (hm : m ≤ 9999) (hn : n ≤ 9999) :
    four_digits m < four_digits n ↔ m < n := by
  have hdigit : ∀ k : Nat, k % 10 < 10 := fun k => Nat.mod_lt k (by decide)
  simp only [four_digits, List.map_cons, List.map_nil, List.cons_lt_cons_iff,
    digitChar_lt_iff (hdigit _) (hdigit _), digitChar_eq_iff (hdigit _) (hdigit _),
    List.lt_irrefl, and_false, or_false]
  have hsum : ∀ k ≤ 9999,
      k = 1000 * (k / 1000 % 10) + 100 * (k / 100 % 10) + 10 * (k / 10 % 10) + k % 10 := by
    intro k hk
    omega
  have hm' := hsum m hm
  have hn' := hsum n hn
  have hdigits := fun k => And.intro (hdigit (k / 100)) (And.intro (hdigit (k / 10)) (hdigit k))
  have hlow := hdigits m
  have hlow' := hdigits n
  generalize m / 1000 % 10 = m₃, m / 100 % 10 = m₂, m / 10 % 10 = m₁, m % 10 = m₀ at *
  generalize n / 1000 % 10 = n₃, n / 100 % 10 = n₂, n / 10 % 10 = n₁, n % 10 = n₀ at *
  omega

/-- A digit comes after a sign. -/
theorem not_four_digits_lt_sign (n : Nat) (cs : List Char) : ¬ four_digits n < '-' :: cs := by
  have hdigit : ∀ m < 10, ¬ Nat.digitChar m < '-' ∧ Nat.digitChar m ≠ '-' := by decide
  obtain ⟨hlt, hne⟩ := hdigit (n / 1000 % 10) (Nat.mod_lt _ (by decide))
  rw [four_digits, List.map_cons, List.cons_lt_cons_iff]
  rintro (h | ⟨h, -⟩)
  · exact hlt h
  · exact hne h

/-- The first instant has four digits in its year, and the second one no plus sign. -/
theorem text_lt_iff {t u : Int} (ht : FourDigits t) (hu : year u ≤ 9999) :
    text_lt t u = true ↔ t < u := by
  rw [text_lt]
  by_cases hyear : year t = year u
  · rw [if_pos hyear, decide_eq_true_iff]
  · obtain ⟨hzero, htop⟩ := ht
    rw [if_neg hyear, decide_eq_true_iff, year_text, if_pos ⟨hzero, htop⟩]
    have htime : t < u ↔ year t < year u := by
      constructor
      · intro h
        exact lt_of_le_of_ne (year_mono h.le) hyear
      · intro h
        by_contra hnot
        exact absurd (year_mono (Int.not_lt.mp hnot)) (Int.not_le.mpr h)
    rw [htime, year_text]
    by_cases hsign : 0 ≤ year u
    · rw [if_pos ⟨hsign, hu⟩, four_digits_lt_iff (by omega) (by omega)]
      omega
    · rw [if_neg fun h => hsign h.1, if_pos (Int.not_le.mp hsign)]
      refine iff_of_false (not_four_digits_lt_sign _ _) ?_
      omega

/-- **Where the texts are in the order of time.** -/
theorem before_iff {t u : Int} (ht : FourDigits t) (hu : year u ≤ 9999) :
    before t u = true ↔ t < u := by
  rw [before, Bool.and_eq_true, decide_eq_true_iff, text_lt_iff ht hu]
  refine and_iff_right_of_imp fun hlt => ?_
  by_contra hnone
  have hyears : year t ≤ year first := year_mono (by omega)
  have hfirst : year first = -262143 := by decide
  have hzero := ht.1
  omega

-- From the year 10000 on the texts come before all others.
example : FourDigits 1795000000000000000 ∧ before 316516377600000000000 1795000000000000000 = true := by
  decide

end Lib.Calendar
