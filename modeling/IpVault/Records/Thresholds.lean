import IpVault.Api.Records
import IpVault.Api.Listing
import IpVault.Config
import Mathlib.Tactic

set_option autoImplicit false

/-! # Numbers from outside (`records.rs`, `retention.rs`, `config.rs`)

A `max_age`, an `older_than_days`, a retention window and a body limit are numbers that callers and
operators choose. The code checks their sign at most, and then builds durations, subtracts dates and
multiplies sizes with them, each of which has a range of its own: outside it the request, or the
retention worker, panics.
-/

namespace IpVault

open Lib

/-! ## Durations and dates -/

/-- The ranges of `chrono`, dates in nanoseconds. A `Duration` counts its seconds in an `i64`. -/
structure Chrono where
  max_seconds : Int
  min_time : Int
  max_time : Int
  max_seconds_lt : max_seconds < 2 ^ 63

namespace Chrono

variable (c : Chrono)

/-- `NaiveDateTime`, and `DateTime<Utc>`: a date in range. -/
def Time : Type := { t : Int // c.min_time ≤ t ∧ t ≤ c.max_time }

/-- `Duration::seconds`; `none` is a panic. -/
def seconds (n : Int) : Option Int :=
  if -c.max_seconds ≤ n ∧ n ≤ c.max_seconds then some (IpVault.seconds n) else none

/-- A number of units of so many seconds, multiplied as `i64` first. -/
def units (of n : Int) : Option Int :=
  if -2 ^ 63 ≤ n * of ∧ n * of < 2 ^ 63 then c.seconds (n * of) else none

/-- `Duration::days`. -/
def days (n : Int) : Option Int := c.units 86400 n

/-- `Duration::hours`. -/
def hours (n : Int) : Option Int := c.units 3600 n

variable {c}

/-- The difference of a date and a duration; `none` is a panic. -/
def Time.sub (t : c.Time) (d : Int) : Option c.Time :=
  if h : c.min_time ≤ t.val - d ∧ t.val - d ≤ c.max_time then some ⟨t.val - d, h⟩ else none

/-- The date lies in the past by exactly the span, or is the first date there is. -/
def Time.LiesBack (now : c.Time) (span : Int) (t : c.Time) : Prop :=
  t.val = max (now.val - span) c.min_time ∧ t.val ≤ now.val

/-- The span of so many seconds is a duration, and the date that far back is in range. -/
def Time.Reaches (now : c.Time) (n : Int) : Prop :=
  n ≤ c.max_seconds ∧ c.min_time ≤ now.val - IpVault.seconds n

/-- A positive span can be subtracted if the result is not before the first date. -/
theorem Time.sub_of_le {now : c.Time} {d : Int} (hd : 0 ≤ d) (h : c.min_time ≤ now.val - d) :
    ∃ t : c.Time, now.sub d = some t ∧ t.val = now.val - d := by
  have hmax : now.val - d ≤ c.max_time := by
    have hnow := now.property.2
    omega
  exact ⟨⟨now.val - d, h, hmax⟩, dif_pos ⟨h, hmax⟩, rfl⟩

theorem Time.val_of_sub {now t : c.Time} {d : Int} (h : now.sub d = some t) :
    t.val = now.val - d := by
  rw [Time.sub] at h
  by_cases hrange : c.min_time ≤ now.val - d ∧ now.val - d ≤ c.max_time
  · rw [dif_pos hrange] at h
    cases h
    rfl
  · rw [dif_neg hrange] at h
    cases h

theorem seconds_eq_some {n d : Int} (h : c.seconds n = some d) :
    n ≤ c.max_seconds ∧ d = IpVault.seconds n := by
  rw [seconds] at h
  by_cases hrange : -c.max_seconds ≤ n ∧ n ≤ c.max_seconds
  · rw [if_pos hrange] at h
    cases h
    exact ⟨hrange.2, rfl⟩
  · rw [if_neg hrange] at h
    cases h

/-- **A span of seconds is taken off the clock exactly when it reaches back to a date.** -/
theorem Time.sub_seconds_iff {now : c.Time} {n : Int} :
    (∃ t, (c.seconds n).bind now.sub = some t ∧ now.LiesBack (IpVault.seconds n) t) ↔
      0 ≤ n ∧ now.Reaches n := by
  constructor
  · rintro ⟨t, ht, -, hpast⟩
    obtain ⟨d, hd, hsub⟩ := Option.bind_eq_some_iff.mp ht
    obtain ⟨hmax, rfl⟩ := seconds_eq_some hd
    have hval := Time.val_of_sub hsub
    have hmin := t.property.1
    refine ⟨?_, hmax, by omega⟩
    rw [IpVault.seconds] at hval
    omega
  · rintro ⟨hn, hmax, hmin⟩
    have hd : 0 ≤ IpVault.seconds n := Int.mul_nonneg hn (by decide)
    obtain ⟨t, ht, hval⟩ := Time.sub_of_le hd hmin
    have hseconds : c.seconds n = some (IpVault.seconds n) := if_pos ⟨by omega, hmax⟩
    refine ⟨t, by rw [hseconds, Option.bind_some, ht], ?_, by omega⟩
    rw [hval, Int.max_eq_left hmin]

/-- A duration in range has seconds in range, so that the product is checked by its range alone. -/
theorem units_eq (of n : Int) : c.units of n = c.seconds (n * of) := by
  rw [units]
  by_cases hrange : -2 ^ 63 ≤ n * of ∧ n * of < 2 ^ 63
  · exact if_pos hrange
  · have hmax := c.max_seconds_lt
    rw [if_neg hrange, seconds, if_neg (by omega)]

/-- `chrono` 0.4: a `Duration` is a number of milliseconds of an `i64`, the dates are those of the
years from -262143 to 262142. -/
def v0_4 : Chrono where
  max_seconds := 9223372036854775
  min_time := -8334601228800000000000
  max_time := 8210266876799999999999
  max_seconds_lt := by decide

end Chrono

/-! ## Thresholds -/

variable {c : Chrono}

/-- `list_ips`: the date a record has been seen at since, of a `max_age`; `none` is a panic. -/
def max_age_threshold (now : c.Time) (age : Int) : Option c.Time := (c.seconds age).bind now.sub

/-- The date that rows are purged before, from the duration of the window, or that there is nothing to
purge; `none` is a panic. -/
def window_threshold (now : c.Time) (window : Int) (duration : Option Int) : Option (Option c.Time) :=
  if window ≤ 0 then some none else (duration.bind now.sub).map some

/-- `purge_expired_ip_records`: the date a record has been deleted before. -/
def purge_threshold (now : c.Time) (retention_days : Int) : Option (Option c.Time) :=
  window_threshold now retention_days (c.days retention_days)

/-- `purge_expired_webhook_executions`: the date a row has been recorded before. -/
def execution_threshold (now : c.Time) (retention_hours : Int) : Option (Option c.Time) :=
  window_threshold now retention_hours (c.hours retention_hours)

/-- A retention window of the environment: a number that is not negative, or else the default. -/
def window_from_env (value : Option String) (default : Int) : Int :=
  match value with
  | none => default
  | some raw =>
      match Text.parse_i64 (Text.trim raw) with
      | none => default
      | some n => if 0 ≤ n then n else default

/-- `retention_days_from_env`, of `IP_RETENTION_DAYS`. -/
def retention_days_from_env (value : Option String) : Int := window_from_env value 92

/-- `execution_retention_hours_from_env`. -/
def execution_retention_hours_from_env (value : Option String) (default : Int) : Int :=
  window_from_env value default

/-- `DEFAULT_EXECUTION_RETENTION_SUCCESS_HOURS` and `DEFAULT_EXECUTION_RETENTION_FAILURE_HOURS`. -/
def default_execution_retention_hours (is_success : Bool) : Int := if is_success then 24 else 168

/-- The threshold of a `max_age` is the one of the listing. -/
theorem val_of_max_age_threshold {now t : c.Time} {age : Int}
    (h : max_age_threshold now age = some t) : t.val = now.val - seconds age := by
  obtain ⟨d, hd, hsub⟩ := Option.bind_eq_some_iff.mp h
  obtain ⟨-, rfl⟩ := Chrono.seconds_eq_some hd
  exact Chrono.Time.val_of_sub hsub

/-- The number a variable holds, if it is set, holds one and this is not negative. -/
def window_held (value : Option String) : Option Int :=
  (value.bind fun raw => Text.parse_i64 (Text.trim raw)).filter (0 ≤ ·)

/-- The window that a variable asks for: the default unless it holds a window. -/
def Window (value : Option String) (default n : Int) : Prop :=
  window_held value = some n ∨ window_held value = none ∧ n = default

/-- The threshold of a purge is that of its window. -/
theorem purge_expired_of_threshold {now t : c.Time} {days : Int}
    (h : purge_threshold now days = some (some t)) :
    purge_expired_ip_records now.val days = exec (.purge t.val) := by
  rw [purge_threshold, window_threshold] at h
  by_cases hdays : days ≤ 0
  · rw [if_pos hdays] at h
    cases h
  · rw [if_neg hdays, Chrono.days, Chrono.units_eq] at h
    obtain ⟨t', hsub, heq⟩ := Option.map_eq_some_iff.mp h
    cases heq
    obtain ⟨d, hd, hsub⟩ := Option.bind_eq_some_iff.mp hsub
    obtain ⟨-, rfl⟩ := Chrono.seconds_eq_some hd
    rw [purge_expired_ip_records, if_neg hdays, Chrono.Time.val_of_sub hsub, seconds, day,
      Int.mul_assoc]

/-- Without a window nothing is purged. -/
theorem purge_expired_of_none {now : c.Time} {days : Int} (h : purge_threshold now days = some none) :
    purge_expired_ip_records now.val days = pure 0 := by
  rw [purge_threshold, window_threshold] at h
  by_cases hdays : days ≤ 0
  · exact if_pos hdays
  · rw [if_neg hdays] at h
    obtain ⟨t, -, heq⟩ := Option.map_eq_some_iff.mp h
    cases heq

theorem window_from_env_eq (value : Option String) (default : Int) :
    window_from_env value default = (window_held value).getD default := by
  cases value with
  | none => rfl
  | some raw =>
      rw [window_from_env, window_held, Option.bind_some]
      cases Text.parse_i64 (Text.trim raw) with
      | none => rfl
      | some n =>
          dsimp only
          rw [Option.filter_some]
          by_cases h : 0 ≤ n
          · rw [if_pos h, if_pos (decide_eq_true h)]
            rfl
          · rw [if_neg h, if_neg (by simpa using h)]
            rfl

theorem window_iff {value : Option String} {default n : Int} :
    Window value default n ↔ n = window_from_env value default := by
  rw [Window, window_from_env_eq]
  cases window_held value with
  | none =>
      refine ⟨?_, fun h => .inr ⟨rfl, h⟩⟩
      rintro (h | ⟨-, h⟩)
      · cases h
      · exact h
  | some held =>
      refine ⟨?_, fun h => .inl (congrArg some h.symm)⟩
      rintro (h | ⟨h, -⟩)
      · cases h
        rfl
      · cases h

/-- A sweep with this threshold deletes nothing if its window is zero, and what lies beyond it
otherwise. -/
def SweepsBack (now : c.Time) (threshold : Option (Option c.Time)) (window span : Int) : Prop :=
  ∃ found, threshold = some found ∧ (0 < window → ∃ t, found = some t ∧ now.LiesBack span t)

/-- **A sweep with a window of so many units**, of so many seconds each. -/
theorem sweepsBack_iff {now : c.Time} {window of : Int} (hunit : 0 < of) :
    SweepsBack now (window_threshold now window (c.units of window)) window (seconds (window * of)) ↔
      (0 < window → now.Reaches (window * of)) := by
  rw [SweepsBack, window_threshold]
  by_cases hwindow : window ≤ 0
  · rw [if_pos hwindow]
    exact iff_of_true ⟨none, rfl, fun h => by omega⟩ fun h => by omega
  · have hpos : 0 < window := by omega
    have hspan : 0 ≤ window * of := Int.mul_nonneg hpos.le hunit.le
    have hiff := @Chrono.Time.sub_seconds_iff c now (window * of)
    rw [if_neg hwindow, Chrono.units_eq]
    constructor
    · rintro ⟨found, hfound, hback⟩ -
      obtain ⟨t, rfl, hlies⟩ := hback hpos
      obtain ⟨t', hsub, heq⟩ := Option.map_eq_some_iff.mp hfound
      cases heq
      exact (hiff.mp ⟨t, hsub, hlies⟩).2
    · intro hreaches
      obtain ⟨t, hsub, hlies⟩ := hiff.mpr ⟨hspan, hreaches hpos⟩
      exact ⟨some t, by rw [hsub, Option.map_some], fun _ => ⟨t, rfl, hlies⟩⟩

/-- The same, of a window of the environment. -/
theorem window_sweeps_iff {now : c.Time} {value : Option String} {default of : Int} (hunit : 0 < of) :
    (Window value default (window_from_env value default) ∧
        SweepsBack now (window_threshold now (window_from_env value default)
          (c.units of (window_from_env value default)))
          (window_from_env value default) (seconds (window_from_env value default * of))) ↔
      ∀ n, Window value default n → 0 < n → now.Reaches (n * of) := by
  have hwindow : Window value default (window_from_env value default) := window_iff.mpr rfl
  refine (and_iff_right hwindow).trans ((sweepsBack_iff hunit).trans ?_)
  constructor
  · intro h n hn
    rw [window_iff.mp hn]
    exact h
  · exact fun h => h _ hwindow

/-! ## All numbers -/

/-- A number from outside: of a filter, of the body of a purge, or of a variable. The variables of the
rows of deliveries are `WEBHOOK_EXECUTION_RETENTION_SUCCESS_HOURS` and `…_FAILURE_HOURS`. -/
inductive Number where
  | max_age (age : Int)
  | older_than_days (days : Int) (h : 0 < days)
  | ip_retention_days (value : Option String)
  | execution_retention_hours (is_success : Bool) (value : Option String)
  | max_body_size_mib (value : Option String)

/-- Neither a panic nor a wrapped result: the threshold lies in the past by what was asked for, and
the limit is what was asked for. -/
def Number.Safe (now : c.Time) (build : Build) (bits : Nat) : Number → Prop
  | max_age age => ∃ t, max_age_threshold now age = some t ∧ now.LiesBack (seconds age) t
  | older_than_days days _ => SweepsBack now (purge_threshold now days) days (seconds (days * 86400))
  | ip_retention_days value =>
      let days := retention_days_from_env value
      Window value 92 days ∧ SweepsBack now (purge_threshold now days) days (seconds (days * 86400))
  | execution_retention_hours is_success value =>
      let hours :=
        execution_retention_hours_from_env value (default_execution_retention_hours is_success)
      Window value (default_execution_retention_hours is_success) hours ∧
        SweepsBack now (execution_threshold now hours) hours (seconds (hours * 3600))
  | max_body_size_mib value =>
      ∃ mib, BodyLimit bits value mib ∧
        max_body_bytes build bits value = some (mib * (1024 * 1024))

/-- The span is not negative and reaches back to a date, and the bytes fit a `usize`. -/
def Number.InRange (now : c.Time) (bits : Nat) : Number → Prop
  | max_age age => 0 ≤ age ∧ now.Reaches age
  | older_than_days days _ => now.Reaches (days * 86400)
  | ip_retention_days value =>
      ∀ days, Window value 92 days → 0 < days → now.Reaches (days * 86400)
  | execution_retention_hours is_success value =>
      ∀ hours, Window value (default_execution_retention_hours is_success) hours → 0 < hours →
        now.Reaches (hours * 3600)
  | max_body_size_mib value => ∀ mib, BodyLimit bits value mib → mib * (1024 * 1024) < 2 ^ bits

/-- **A number from outside is safe exactly when it is in the range of what is computed with it.** -/
theorem numbers_safe_iff (now : c.Time) (build : Build) (bits : Nat) (number : Number) :
    number.Safe now build bits ↔ number.InRange now bits := by
  cases number with
  | max_age age => exact Chrono.Time.sub_seconds_iff
  | older_than_days days h => exact (sweepsBack_iff (by decide)).trans (imp_iff_right h)
  | ip_retention_days value => exact window_sweeps_iff (by decide)
  | execution_retention_hours is_success value => exact window_sweeps_iff (by decide)
  | max_body_size_mib value =>
      have hlimit := bodyLimit_iff.mpr (rfl : max (numeric_env bits value 10) 1 = _)
      constructor
      · rintro ⟨mib, hmib, hbytes⟩ mib' hmib'
        rw [bodyLimit_iff.mp hmib', ← bodyLimit_iff.mp hmib]
        exact (max_body_bytes_iff hmib).mp hbytes
      · exact fun h => ⟨_, hlimit, (max_body_bytes_iff hlimit).mpr (h _ hlimit)⟩

/-- A day of 2026. -/
def noon : Chrono.v0_4.Time := ⟨seconds 1795000000, by decide, by decide⟩

/-- A `max_age` of `i64::MAX` is accepted by the query string, and its duration panics. -/
theorem max_age_panics :
    ¬ ∀ (c : Chrono) (now : c.Time) (build : Build) (bits : Nat) (number : Number),
      number.Safe now build bits := by
  intro hall
  obtain ⟨t, ht, -⟩ := hall .v0_4 noon .release 64 (.max_age 9223372036854775807)
  have hpanic : max_age_threshold noon 9223372036854775807 = none := rfl
  rw [hpanic] at ht
  cases ht

end IpVault
