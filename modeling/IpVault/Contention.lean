import IpVault.Config
import IpVault.Error
import IpVault.Lib.Decimal
import Mathlib.Tactic

set_option autoImplicit false

/-! # Contention, and what is taken for it (`error.rs`)

Three drivers report their errors in one kind of text: SQLite its extended result code as a decimal
number, PostgreSQL and MySQL a SQLSTATE. `is_transient_lock_error` knows three SQLSTATEs by heart and
masks every text that parses as a number, whoever reported it, so that it also masks the SQLSTATEs
that consist of digits.
-/

namespace IpVault.SeaOrm

open Lib

/-! ## The classification -/

/-- `sea_orm::SqlxError`; of a database error only `DatabaseError::code()` is kept. -/
inductive SqlxError where
  | PoolTimedOut
  | Database (code : Option String)
  | other

/-- `sea_orm::RuntimeErr`. -/
inductive RuntimeErr where
  | SqlxError (e : SqlxError)
  | Internal (message : String)

/-- `sea_orm::DbErr`: the three cases that carry a runtime error, and the rest. -/
inductive DbErr where
  | Conn (e : RuntimeErr)
  | Exec (e : RuntimeErr)
  | Query (e : RuntimeErr)
  | other

/-- The runtime error of a database error. -/
def DbErr.runtime_err : DbErr → Option RuntimeErr
  | Conn e => some e
  | Exec e => some e
  | Query e => some e
  | other => none

/-- The codes `is_transient_lock_error` knows by heart: `lock_not_available`,
`serialization_failure` and `deadlock_detected` of PostgreSQL. -/
def lock_codes : List String := ["55P03", "40001", "40P01"]

/-- `matches!(n & 0xFF, 5 | 6)`: `SQLITE_BUSY` or `SQLITE_LOCKED` in the low byte. -/
def is_busy_or_locked (n : Nat) : Bool := n &&& 0xFF = 5 ∨ n &&& 0xFF = 6

/-- `is_transient_lock_error`, of the code of a database error. -/
def is_transient_code (code : String) : Bool :=
  code ∈ lock_codes || (parse_unsigned 32 code).any is_busy_or_locked

/-- `is_transient_lock_error`. -/
def is_transient_lock_error (err : DbErr) : Bool :=
  match err.runtime_err with
  | some (.SqlxError .PoolTimedOut) => true
  | some (.SqlxError (.Database (some code))) => is_transient_code code
  | some (.SqlxError (.Database none)) => false
  | some (.SqlxError .other) => false
  | some (.Internal _) => false
  | none => false

/-- The error as the rest of the service sees it: contention, or another. -/
def DbErr.seen (err : DbErr) : IpVault.DbErr :=
  if is_transient_lock_error err then .busy else .other

/-- `AppError::DbError(err).into_response()`. -/
def DbErr.into_response (err : DbErr) : Response := (AppError.DbError err.seen).into_response

/-- **A database error is answered with a 503 when it is taken for contention, and only then.** -/
theorem DbErr.status_into_response (err : DbErr) :
    err.into_response.status = 503 ↔ is_transient_lock_error err = true := by
  show (AppError.DbError (if is_transient_lock_error err then .busy else .other)).status = 503 ↔ _
  by_cases h : is_transient_lock_error err = true
  · rw [if_pos h]
    exact iff_of_true rfl h
  · rw [if_neg h]
    exact iff_of_false (by decide) h

/-! ## What the drivers report -/

/-- The databases a deployment can be run against. -/
inductive Driver where
  | sqlite
  | postgres
  | mysql

/-- The primary result codes of SQLite. -/
def primary_codes : List Nat := List.range 29 ++ [100, 101]

/-- `primary | (variant << 8)`, an extended result code. -/
def extended (primary variant : Nat) : Nat := primary ||| variant <<< 8

/-- A SQLSTATE: five characters, digits or capital letters. -/
def IsSqlState (code : String) : Prop :=
  code.toList.length = 5 ∧ ∀ c ∈ code.toList, c.isDigit = true ∨ c.isUpper = true

/-- The codes a driver can report. An extended result code of SQLite is a positive `i32`. -/
def Driver.Reports : Driver → String → Prop
  | sqlite, code => ∃ primary ∈ primary_codes, ∃ variant < 2 ^ 23,
      code = toString (extended primary variant)
  | postgres, code => IsSqlState code
  | mysql, code => IsSqlState code

/-- The codes with which a driver reports that a lock is held or that two transactions are in each
other's way. -/
def Driver.Contention : Driver → String → Prop
  | sqlite, code => ∃ primary ∈ [5, 6], ∃ variant, code = toString (extended primary variant)
  | postgres, code => code ∈ lock_codes
  | mysql, code => code = "40001"

/-- A text of digits whose number is 5 or 6 modulo 256. -/
def Masked (code : String) : Prop :=
  (∀ c ∈ code.toList, c.isDigit = true) ∧
    (Nat.ofDigitChars 10 code.toList 0 % 256 = 5 ∨ Nat.ofDigitChars 10 code.toList 0 % 256 = 6)

/-- The codes of a driver that mean something else than what they are taken for. -/
def Driver.Mistaken : Driver → String → Prop
  | sqlite, _ => False
  | postgres, code => Masked code
  | mysql, code => Masked code ∨ code = "55P03" ∨ code = "40P01"

/-! ## Numbers in the codes -/

theorem isDigit_iff {c : Char} : c.isDigit = true ↔ '0' ≤ c ∧ c ≤ '9' := by
  rw [Char.isDigit, Bool.and_eq_true, decide_eq_true_iff, decide_eq_true_iff]
  exact Iff.rfl

theorem digits_of_isDigit {cs : List Char} (h : ∀ c ∈ cs, c.isDigit = true) (acc : Nat) :
    Text.digits acc cs = some (Nat.ofDigitChars 10 cs acc) := by
  induction cs generalizing acc with
  | nil => rfl
  | cons c cs ih =>
      have hc : '0' ≤ c ∧ c ≤ '9' := isDigit_iff.mp (h c List.mem_cons_self)
      rw [Text.digits, if_pos hc, ih (fun d hd => h d (List.mem_cons_of_mem c hd)),
        Nat.ofDigitChars_cons]
      rfl

theorem isDigit_of_digits {cs : List Char} {acc n : Nat} (h : Text.digits acc cs = some n) :
    ∀ c ∈ cs, c.isDigit = true := by
  induction cs generalizing acc with
  | nil => exact fun c hc => absurd hc List.not_mem_nil
  | cons d cs ih =>
      rw [Text.digits] at h
      by_cases hd : '0' ≤ d ∧ d ≤ '9'
      · rw [if_pos hd] at h
        intro c hc
        rcases List.mem_cons.mp hc with rfl | hc
        · exact isDigit_iff.mpr hd
        · exact ih h c hc
      · rw [if_neg hd] at h
        cases h

theorem mask_eq_mod (n : Nat) : n &&& 0xFF = n % 256 := Nat.and_two_pow_sub_one_eq_mod n 8

theorem is_busy_or_locked_iff {n : Nat} :
    is_busy_or_locked n = true ↔ n % 256 = 5 ∨ n % 256 = 6 := by
  rw [is_busy_or_locked, decide_eq_true_iff, mask_eq_mod]

/-- Without a sign in front, a number is a run of digits below the bound of its type. -/
theorem parse_unsigned_of_head {bits : Nat} {s : String} {c : Char} {cs : List Char}
    (hs : s.toList = c :: cs) (hc : c ≠ '+') :
    parse_unsigned bits s = (Text.digits 0 (c :: cs)).filter fun n => n < 2 ^ bits := by
  unfold parse_unsigned
  rw [hs]
  dsimp only
  split
  · contradiction
  · next heq => exact absurd (List.cons.inj heq).1 hc
  · next heq => exact absurd (List.cons.inj heq).1 hc
  · rfl

/-- A text of letters and digits is taken for contention when it is one of the three codes, or a
number that is masked to one of the two. -/
theorem is_transient_code_iff {code : String} (hne : code.toList ≠ []) (hplus : '+' ∉ code.toList)
    (hbound : (∀ c ∈ code.toList, c.isDigit = true) →
      Nat.ofDigitChars 10 code.toList 0 < 2 ^ 32) :
    is_transient_code code = true ↔ code ∈ lock_codes ∨ Masked code := by
  obtain ⟨c, cs, hcs⟩ := List.exists_cons_of_ne_nil hne
  have hc : c ≠ '+' := by
    rintro rfl
    exact hplus (hcs ▸ List.mem_cons_self)
  rw [is_transient_code, Bool.or_eq_true, decide_eq_true_iff, parse_unsigned_of_head hcs hc, ← hcs]
  refine or_congr_right ?_
  constructor
  · intro h
    cases hn : (Text.digits 0 code.toList).filter fun n => n < 2 ^ 32 with
    | none =>
        rw [hn] at h
        cases h
    | some n =>
        rw [hn] at h
        have hdigits := (Option.filter_eq_some_iff.mp hn).1
        have hall := isDigit_of_digits hdigits
        rw [digits_of_isDigit hall] at hdigits
        cases hdigits
        exact ⟨hall, is_busy_or_locked_iff.mp h⟩
  · rintro ⟨hall, hmask⟩
    rw [digits_of_isDigit hall, Option.filter_some, if_pos (decide_eq_true (hbound hall))]
    exact is_busy_or_locked_iff.mpr hmask

/-! ## SQLite -/

theorem primary_lt {primary : Nat} (h : primary ∈ primary_codes) : primary < 256 := by
  revert primary
  decide

/-- The low byte of an extended result code is its primary code. -/
theorem extended_mod {primary : Nat} (h : primary < 256) (variant : Nat) :
    extended primary variant % 256 = primary := by
  rw [extended, Nat.shiftLeft_eq, show (256 : Nat) = 2 ^ 8 from rfl, Nat.or_mod_two_pow,
    Nat.mul_mod_left, Nat.or_zero]
  exact Nat.mod_eq_of_lt h

theorem extended_lt {primary variant : Nat} (h : primary < 256) (hvariant : variant < 2 ^ 23) :
    extended primary variant < 2 ^ 31 := by
  refine Nat.or_lt_two_pow (Nat.lt_trans h (by decide)) ?_
  rw [Nat.shiftLeft_eq]
  omega

/-- The text of a number below the bound is taken for contention by its low byte alone. -/
theorem is_transient_code_toString {n : Nat} (hn : n < 2 ^ 32) :
    is_transient_code (toString n) = true ↔
      toString n ∈ lock_codes ∨ n % 256 = 5 ∨ n % 256 = 6 := by
  have hall : ∀ c ∈ (toString n).toList, c.isDigit = true := fun c =>
    Decimal.isDigit_of_mem_write
  have hnumber : Nat.ofDigitChars 10 (toString n).toList 0 = n := by
    rw [show (toString n).toList = Nat.toDigits 10 n from Nat.toList_repr]
    exact Nat.ofDigitChars_ten_toDigits
  have hne : (toString n).toList ≠ [] := by
    rw [show (toString n).toList = Nat.toDigits 10 n from Nat.toList_repr]
    exact Nat.toDigits_ne_nil
  have hplus : '+' ∉ (toString n).toList := fun h => absurd (hall '+' h) (by decide)
  rw [is_transient_code_iff hne hplus fun _ => hnumber.symm ▸ hn, Masked, hnumber]
  exact or_congr_right (and_iff_right hall)

/-- No extended result code reads like a SQLSTATE of a lock. -/
theorem extended_not_lock_code {primary variant : Nat} (h : primary ∈ primary_codes) :
    toString (extended primary variant) ∉ lock_codes := by
  have hmod := extended_mod (primary_lt h) variant
  have hall : ∀ c ∈ (toString (extended primary variant)).toList, c.isDigit = true := fun c =>
    Decimal.isDigit_of_mem_write
  intro hmem
  rcases List.mem_cons.mp hmem with hcode | hmem
  · rw [hcode] at hall
    exact absurd (hall 'P' (by decide)) (by decide)
  rcases List.mem_cons.mp hmem with hcode | hmem
  · have hwrite : Decimal.write (extended primary variant) = Decimal.write 40001 :=
      congrArg String.toList hcode
    rw [Decimal.write_injective hwrite] at hmod
    rw [← hmod] at h
    exact absurd h (by decide)
  · rw [List.mem_singleton.mp hmem] at hall
    exact absurd (hall 'P' (by decide)) (by decide)

/-- **The low byte tells the lock codes of SQLite from the others.** -/
theorem sqlite_transient_iff {primary variant : Nat} (h : primary ∈ primary_codes)
    (hvariant : variant < 2 ^ 23) :
    is_transient_code (toString (extended primary variant)) = true ↔ primary = 5 ∨ primary = 6 := by
  have hlt := primary_lt h
  have hbound : extended primary variant < 2 ^ 32 :=
    Nat.lt_trans (extended_lt hlt hvariant) (by decide)
  rw [is_transient_code_toString hbound, extended_mod hlt]
  exact or_iff_right (extended_not_lock_code h)

theorem sqlite_contention_iff {primary variant : Nat} (h : primary ∈ primary_codes) :
    Driver.sqlite.Contention (toString (extended primary variant)) ↔ primary = 5 ∨ primary = 6 := by
  constructor
  · rintro ⟨lock, hlock, other, hcode⟩
    have hsame : extended primary variant = extended lock other :=
      Decimal.write_injective (congrArg String.toList hcode)
    have hlow := congrArg (· % 256) hsame
    have hlock' : lock = 5 ∨ lock = 6 := by simpa using hlock
    have hlt : lock < 256 := by omega
    simp only [extended_mod (primary_lt h), extended_mod hlt] at hlow
    rw [hlow]
    exact hlock'
  · intro hlock
    exact ⟨primary, by simpa using hlock, variant, rfl⟩

/-! ## SQLSTATEs -/

theorem ofDigitChars_lt {cs : List Char} (h : ∀ c ∈ cs, c.isDigit = true) (acc : Nat) :
    Nat.ofDigitChars 10 cs acc < (acc + 1) * 10 ^ cs.length := by
  induction cs generalizing acc with
  | nil =>
      rw [Nat.ofDigitChars_nil, List.length_nil, Nat.pow_zero, Nat.mul_one]
      exact Nat.lt_succ_self acc
  | cons c cs ih =>
      have hrest := ih (fun d hd => h d (List.mem_cons_of_mem c hd)) (10 * acc + (c.toNat - 48))
      have hc : c.toNat ≤ 57 := (isDigit_iff.mp (h c List.mem_cons_self)).2
      have hdigit : 10 * acc + (c.toNat - 48) + 1 ≤ (acc + 1) * 10 := by omega
      rw [Nat.ofDigitChars_cons, List.length_cons, Nat.pow_succ', ← Nat.mul_assoc]
      exact Nat.lt_of_lt_of_le hrest (Nat.mul_le_mul_right _ hdigit)

theorem sqlstate_transient_iff {code : String} (h : IsSqlState code) :
    is_transient_code code = true ↔ code ∈ lock_codes ∨ Masked code := by
  refine is_transient_code_iff ?_ ?_ ?_
  · intro hnil
    rw [IsSqlState, hnil] at h
    cases h.1
  · intro hplus
    rcases h.2 '+' hplus with hplus | hplus <;> revert hplus <;> decide
  · intro hall
    have hlt := ofDigitChars_lt hall 0
    rw [h.1] at hlt
    exact Nat.lt_trans hlt (by decide)

theorem not_isDigit_of_mem {code : String} (hmem : 'P' ∈ code.toList) :
    ¬ ∀ c ∈ code.toList, c.isDigit = true :=
  fun h => absurd (h 'P' hmem) (by decide)

/-- None of the three codes is also masked. -/
theorem not_masked_of_lock_code {code : String} (h : code ∈ lock_codes) : ¬ Masked code := by
  rintro ⟨hall, hmask⟩
  rcases List.mem_cons.mp h with rfl | h
  · exact not_isDigit_of_mem (by decide) hall
  rcases List.mem_cons.mp h with rfl | h
  · revert hmask
    decide
  · cases List.mem_singleton.mp h
    exact not_isDigit_of_mem (by decide) hall

/-- On PostgreSQL the masked codes are what goes wrong. -/
theorem postgres_exact_iff {code : String} (h : IsSqlState code) :
    (is_transient_code code = true ↔ Driver.postgres.Contention code) ↔ ¬ Masked code := by
  rw [sqlstate_transient_iff h]
  constructor
  · intro hiff hmasked
    exact not_masked_of_lock_code (hiff.mp (.inr hmasked)) hmasked
  · exact or_iff_left

/-- On MySQL so are the two codes that only PostgreSQL gives a meaning to. -/
theorem mysql_exact_iff {code : String} (h : IsSqlState code) :
    (is_transient_code code = true ↔ Driver.mysql.Contention code) ↔
      ¬ (Masked code ∨ code = "55P03" ∨ code = "40P01") := by
  have hlock : code ∈ lock_codes ↔ code = "55P03" ∨ code = "40001" ∨ code = "40P01" := by
    simp only [lock_codes, List.mem_cons, List.not_mem_nil, or_false]
  rw [sqlstate_transient_iff h]
  constructor
  · rintro hiff (hmasked | rfl | rfl)
    · have hcode : code = "40001" := hiff.mp (.inr hmasked)
      exact not_masked_of_lock_code (hlock.mpr (.inr (.inl hcode))) hmasked
    · exact absurd (hiff.mp (.inl (by decide))) (by decide : ¬ "55P03" = "40001")
    · exact absurd (hiff.mp (.inl (by decide))) (by decide : ¬ "40P01" = "40001")
  · intro hnot
    obtain ⟨hmasked, hother⟩ := not_or.mp hnot
    obtain ⟨hfirst, hlast⟩ := not_or.mp hother
    rw [hlock, or_iff_left hmasked, or_iff_right hfirst, or_iff_left hlast]
    exact Iff.rfl

/-! ## All drivers -/

/-- The error of a statement that the database refused with this code. -/
def DbErr.Carries (err : DbErr) (code : String) : Prop :=
  err.runtime_err = some (.SqlxError (.Database (some code)))

theorem is_transient_of_carries {err : DbErr} {code : String} (h : err.Carries code) :
    is_transient_lock_error err = is_transient_code code := by
  rw [is_transient_lock_error, h]

/-- **A code is classified rightly unless it is mistaken.** -/
theorem Driver.exact_iff {driver : Driver} {code : String} (h : driver.Reports code) :
    (is_transient_code code = true ↔ driver.Contention code) ↔ ¬ driver.Mistaken code := by
  cases driver with
  | sqlite =>
      obtain ⟨primary, hprimary, variant, hvariant, rfl⟩ := h
      rw [sqlite_transient_iff hprimary hvariant, sqlite_contention_iff hprimary]
      exact iff_of_true Iff.rfl not_false
  | postgres => exact postgres_exact_iff h
  | mysql => exact mysql_exact_iff h

/-- **Whatever a driver reports is taken for contention, and answered with a 503, exactly when it is
contention: unless it is a SQLSTATE of five digits whose number is 5 or 6 modulo 256, or a code of
PostgreSQL that MySQL reports.** -/
theorem transient_exactly {driver : Driver} {code : String} (h : driver.Reports code) {err : DbErr}
    (herr : err.Carries code) :
    (is_transient_lock_error err = true ↔ driver.Contention code) ∧
        (err.into_response.status = 503 ↔ driver.Contention code) ↔
      ¬ driver.Mistaken code := by
  rw [DbErr.status_into_response, and_self_iff, is_transient_of_carries herr]
  exact Driver.exact_iff h

/-- A statement that the database refused with this code. -/
def refused (code : String) : DbErr := .Exec (.SqlxError (.Database (some code)))

theorem carries_refused (code : String) : (refused code).Carries code := rfl

/-- A stale snapshot of SQLite, `SQLITE_BUSY_SNAPSHOT`. -/
theorem transient_exactly_busy_snapshot :
    (is_transient_lock_error (refused (toString (extended 5 2))) = true ↔
        Driver.sqlite.Contention (toString (extended 5 2))) ∧
        ((refused (toString (extended 5 2))).into_response.status = 503 ↔
          Driver.sqlite.Contention (toString (extended 5 2))) ↔
      ¬ Driver.sqlite.Mistaken (toString (extended 5 2)) :=
  @transient_exactly .sqlite _ ⟨5, by decide, 2, by decide, rfl⟩ _ (carries_refused _)

/-- PostgreSQL refuses a text that holds a zero byte with `character_not_in_repertoire`, and the
client is told to try again. -/
theorem repertoire_taken_for_contention :
    ¬ ∀ (driver : Driver) (code : String), driver.Reports code →
      ∀ err : DbErr, err.Carries code →
        (is_transient_lock_error err = true ↔ driver.Contention code) ∧
          (err.into_response.status = 503 ↔ driver.Contention code) := by
  intro hall
  have hdigits : ("22021".toList.all Char.isDigit) = true := by decide
  have hreports : Driver.postgres.Reports "22021" :=
    ⟨rfl, fun c hc => .inl (List.all_eq_true.mp hdigits c hc)⟩
  have hexact := (hall .postgres "22021" hreports (refused "22021") (carries_refused _)).1
  have htransient : is_transient_lock_error (refused "22021") = true := by decide +kernel
  have hcontention : "22021" ∈ lock_codes := hexact.mp htransient
  exact absurd hcontention (by decide)

end IpVault.SeaOrm
