import IpVault.Lib.Text

set_option autoImplicit false

/-! # Numbers from the environment (`config.rs`)

A number that is not set, or does not parse as its type, is replaced by its default; a limit is put on
what is left. The value is read once and kept.
-/

namespace IpVault

open Lib

/-- `str::parse::<uN>`: an optional plus, at least one digit, and no overflow. -/
def parse_unsigned (bits : Nat) (s : String) : Option Nat :=
  let unsigned : Option Nat :=
    match s.toList with
    | [] => none
    | '+' :: [] => none
    | '+' :: cs => Text.digits 0 cs
    | cs => Text.digits 0 cs
  unsigned.filter fun n => n < 2 ^ bits

/-- `numeric_env`, of a variable that may be unset (or not text). -/
def numeric_env (bits : Nat) (variable_value : Option String) (default : Nat) : Nat :=
  match variable_value with
  | none => default
  | some raw => (parse_unsigned bits (Text.trim raw)).getD default

/-! ## Retries of a delivery -/

/-- `webhook_max_retries`, of `WEBHOOK_MAX_RETRIES`: a `u32`. -/
def webhook_max_retries (value : Option String) : Nat := min (numeric_env 32 value 3) 10

/-- `webhook_retry_backoff_ms`, of `WEBHOOK_RETRY_BACKOFF_MS`: a `u64`. -/
def webhook_retry_backoff_ms (value : Option String) : Nat := max (numeric_env 64 value 1000) 1

theorem webhook_max_retries_le (value : Option String) : webhook_max_retries value ≤ 10 :=
  Nat.min_le_right _ _

example : webhook_max_retries (some " 4000 ") = 10 := by decide +kernel

/-! ## The dispatch pool -/

/-- `webhook_dispatch_interval`, of `WEBHOOK_DISPATCH_INTERVAL_MS`, in milliseconds. -/
def webhook_dispatch_interval (value : Option String) : Nat := numeric_env 64 value 50

/-! ## The body limit -/

/-- How the service is built: with or without checks on its arithmetic. -/
inductive Build where
  | debug
  | release

/-- A product of unsigned numbers. If it does not fit, a debug build panics and a release build
wraps. -/
def Build.mul (build : Build) (bits a b : Nat) : Option Nat :=
  match build with
  | debug => if a * b < 2 ^ bits then some (a * b) else none
  | release => some (a * b % 2 ^ bits)

theorem Build.mul_of_lt (build : Build) {bits a b : Nat} (h : a * b < 2 ^ bits) :
    build.mul bits a b = some (a * b) := by
  cases build with
  | debug => exact if_pos h
  | release => exact congrArg some (Nat.mod_eq_of_lt h)

theorem Build.mul_lt {build : Build} {bits a b n : Nat} (h : build.mul bits a b = some n) :
    n < 2 ^ bits := by
  cases build with
  | debug =>
      by_cases hlt : a * b < 2 ^ bits
      · rw [Build.mul_of_lt .debug hlt] at h
        cases h
        exact hlt
      · cases (if_neg hlt).symm.trans h
  | release =>
      cases h
      exact Nat.mod_lt _ (Nat.two_pow_pos bits)

/-- `max_body_bytes`, of `MAX_BODY_SIZE_MIB`: a `usize`. -/
def max_body_bytes (build : Build) (bits : Nat) (value : Option String) : Option Nat :=
  (build.mul bits (max (numeric_env bits value 10) 1) 1024).bind fun kib => build.mul bits kib 1024

/-- The number a variable holds, if it is set and holds one. -/
def number_held (bits : Nat) (value : Option String) : Option Nat :=
  value.bind fun raw => parse_unsigned bits (Text.trim raw)

theorem numeric_env_eq (bits : Nat) (value : Option String) (default : Nat) :
    numeric_env bits value default = (number_held bits value).getD default := by
  cases value <;> rfl

/-- The limit, in MiB, that `MAX_BODY_SIZE_MIB` asks for: ten if it is unset or not a number, and
one at least. -/
def BodyLimit (bits : Nat) (value : Option String) (mib : Nat) : Prop :=
  (∃ n, number_held bits value = some n ∧ mib = max n 1) ∨
    number_held bits value = none ∧ mib = 10

theorem bodyLimit_iff {bits : Nat} {value : Option String} {mib : Nat} :
    BodyLimit bits value mib ↔ mib = max (numeric_env bits value 10) 1 := by
  rw [BodyLimit, numeric_env_eq]
  cases number_held bits value with
  | none =>
      refine ⟨?_, fun h => .inr ⟨rfl, h⟩⟩
      rintro (⟨n, hn, -⟩ | ⟨-, h⟩)
      · cases hn
      · exact h
  | some n =>
      refine ⟨?_, fun h => .inl ⟨n, rfl, h⟩⟩
      rintro (⟨m, hm, h⟩ | ⟨hnone, -⟩)
      · cases hm
        exact h
      · cases hnone

/-- **The body limit is what is asked for, unless its bytes do not fit a `usize`.** -/
theorem max_body_bytes_iff {build : Build} {bits : Nat} {value : Option String} {mib : Nat}
    (h : BodyLimit bits value mib) :
    max_body_bytes build bits value = some (mib * (1024 * 1024)) ↔
      mib * (1024 * 1024) < 2 ^ bits := by
  rw [max_body_bytes, ← bodyLimit_iff.mp h]
  constructor
  · intro hbytes
    obtain ⟨kib, -, hmul⟩ := Option.bind_eq_some_iff.mp hbytes
    exact Build.mul_lt hmul
  · intro hlt
    have hassoc : mib * 1024 * 1024 = mib * (1024 * 1024) := by omega
    have hkib : mib * 1024 < 2 ^ bits :=
      Nat.lt_of_le_of_lt (Nat.mul_le_mul_left mib (by decide : 1024 ≤ 1024 * 1024)) hlt
    have hbytes : mib * 1024 * 1024 < 2 ^ bits := Nat.lt_of_le_of_lt (Nat.le_of_eq hassoc) hlt
    rw [@Build.mul_of_lt build bits mib 1024 hkib, Option.bind_some,
      @Build.mul_of_lt build bits (mib * 1024) 1024 hbytes, hassoc]

end IpVault
