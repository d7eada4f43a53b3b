import IpVault.Lib.Text

set_option autoImplicit false

/-! # Numbers in decimal

Numbers below a bound, and lists of bytes with a separator between them, as texts that read back.
-/

namespace Lib.Decimal

/-- A number in decimal. -/
def write (n : Nat) : List Char := (toString n).toList

theorem write_eq (n : Nat) : write n = Nat.toDigits 10 n := Nat.toList_repr

theorem write_injective {m n : Nat} (h : write m = write n) : m = n := by
  have hvalue := congrArg (Nat.ofDigitChars 10 · 0) h
  simpa only [write_eq, Nat.ofDigitChars_ten_toDigits] using hvalue

theorem isDigit_of_mem_write {n : Nat} {c : Char} (h : c ∈ write n) : c.isDigit = true := by
  rw [write_eq] at h
  exact Nat.isDigit_of_mem_toDigits (by decide) (by decide) h

/-- The number below the bound that is written so. -/
def read (bound : Nat) (cs : List Char) : Option Nat :=
  (List.range bound).find? fun n => write n = cs

theorem read_write {bound n : Nat} (h : n < bound) : read bound (write n) = some n := by
  cases hread : read bound (write n) with
  | none =>
      have hnot := List.find?_eq_none.mp hread n (List.mem_range.mpr h)
      simp at hnot
  | some m =>
      have hm := List.find?_some hread
      rw [write_injective (of_decide_eq_true hm)]

/-! ## Bytes -/

/-- The last `k` bytes of a number, the most significant first. -/
def bytes : Nat → Nat → List Nat
  | 0, _ => []
  | k + 1, n => bytes k (n / 256) ++ [n % 256]

/-- The number of some bytes. -/
def number (bs : List Nat) : Nat := bs.foldl (fun n b => n * 256 + b) 0

theorem length_bytes (k n : Nat) : (bytes k n).length = k := by
  induction k generalizing n with
  | zero => rfl
  | succ k ih => rw [bytes, List.length_append, ih, List.length_singleton]

theorem lt_of_mem_bytes {k n b : Nat} (h : b ∈ bytes k n) : b < 256 := by
  induction k generalizing n with
  | zero => cases h
  | succ k ih =>
      rcases List.mem_append.mp h with h | h
      · exact ih h
      · rw [List.mem_singleton.mp h]
        exact Nat.mod_lt n (by decide)

theorem number_bytes {k n : Nat} (h : n < 256 ^ k) : number (bytes k n) = n := by
  induction k generalizing n with
  | zero =>
      have hzero : n = 0 := by simpa using h
      rw [hzero]
      rfl
  | succ k ih =>
      have hquot : n / 256 < 256 ^ k := by
        rw [Nat.div_lt_iff_lt_mul (by decide)]
        exact h
      have hrest := ih hquot
      rw [bytes, number, List.foldl_append]
      show number (bytes k (n / 256)) * 256 + n % 256 = n
      rw [hrest]
      exact Nat.div_add_mod' n 256

/-! ## Separated lists -/

/-- Texts with a separator between them. -/
def joined (sep : Char) : List (List Char) → List Char
  | [] => []
  | [p] => p
  | p :: ps => p ++ sep :: joined sep ps

/-- Without a separator there is one piece. -/
theorem splitChars_of_not_mem {sep : Char} {p : List Char} (hp : sep ∉ p) :
    Text.splitChars sep p = [p] := by
  induction p with
  | nil => rfl
  | cons c p ih =>
      have hc : c ≠ sep := fun h => hp (h ▸ List.mem_cons_self)
      rw [Text.splitChars, if_neg hc, ih fun h => hp (List.mem_cons_of_mem c h)]

theorem splitChars_joined {sep : Char} {ps : List (List Char)} (hne : ps ≠ [])
    (hps : ∀ p ∈ ps, sep ∉ p) : Text.splitChars sep (joined sep ps) = ps := by
  induction ps with
  | nil => exact absurd rfl hne
  | cons p ps ih =>
      have hp := hps p List.mem_cons_self
      cases ps with
      | nil => exact splitChars_of_not_mem hp
      | cons q ps =>
          have hrest := ih (List.cons_ne_nil q ps) fun r hr => hps r (List.mem_cons_of_mem p hr)
          show Text.splitChars sep (p ++ sep :: joined sep (q :: ps)) = _
          rw [Text.splitChars_append hp, hrest]

theorem mem_joined {sep c : Char} {ps : List (List Char)} (h : c ∈ joined sep ps) :
    c = sep ∨ ∃ p ∈ ps, c ∈ p := by
  induction ps with
  | nil => cases h
  | cons p ps ih =>
      cases ps with
      | nil => exact .inr ⟨p, List.mem_cons_self, h⟩
      | cons q ps =>
          rcases List.mem_append.mp h with h | h
          · exact .inr ⟨p, List.mem_cons_self, h⟩
          · rcases List.mem_cons.mp h with h | h
            · exact .inl h
            · rcases ih h with h | ⟨r, hr, hc⟩
              · exact .inl h
              · exact .inr ⟨r, List.mem_cons_of_mem p hr, hc⟩

/-- The last `k` bytes of a number, in decimal, with a separator between them. -/
def write_bytes (sep : Char) (k n : Nat) : List Char := joined sep ((bytes k n).map write)

/-- The number of `k` bytes that are written so. -/
def read_bytes (sep : Char) (k : Nat) (cs : List Char) : Option Nat :=
  ((Text.splitChars sep cs).mapM (read 256)).bind fun bs =>
    if bs.length = k then some (number bs) else none

theorem mem_write_bytes {sep c : Char} {k n : Nat} (h : c ∈ write_bytes sep k n) :
    c = sep ∨ c.isDigit = true := by
  refine (mem_joined h).imp_right ?_
  rintro ⟨p, hp, hc⟩
  obtain ⟨b, -, rfl⟩ := List.mem_map.mp hp
  exact isDigit_of_mem_write hc

theorem mapM_read {bs : List Nat} (h : ∀ b ∈ bs, b < 256) :
    (bs.map write).mapM (read 256) = some bs := by
  induction bs with
  | nil => rfl
  | cons b bs ih =>
      have hrest := ih fun c hc => h c (List.mem_cons_of_mem b hc)
      rw [List.map_cons, List.mapM_cons, read_write (h b List.mem_cons_self), hrest]
      rfl

/-- A text without the separator is one byte at most. -/
theorem read_bytes_of_not_mem {sep : Char} {cs : List Char} (h : sep ∉ cs) {k : Nat} (hk : k ≠ 1) :
    read_bytes sep k cs = none := by
  unfold read_bytes
  rw [splitChars_of_not_mem h, List.mapM_cons]
  cases read 256 cs with
  | none => rfl
  | some b => exact if_neg hk.symm

/-- **What is written reads back.** -/
theorem read_write_bytes {sep : Char} (hsep : sep.isDigit = false) {k n : Nat} (hk : k ≠ 0)
    (hn : n < 256 ^ k) : read_bytes sep k (write_bytes sep k n) = some n := by
  have hne : (bytes k n).map write ≠ [] := by
    intro h
    have hlength := congrArg List.length h
    rw [List.length_map, length_bytes] at hlength
    exact hk hlength
  have hfree : ∀ p ∈ (bytes k n).map write, sep ∉ p := by
    intro p hp hmem
    obtain ⟨b, -, rfl⟩ := List.mem_map.mp hp
    rw [isDigit_of_mem_write hmem] at hsep
    cases hsep
  unfold read_bytes write_bytes
  rw [splitChars_joined hne hfree, mapM_read fun b hb => lt_of_mem_bytes hb]
  show (if (bytes k n).length = k then some (number (bytes k n)) else none) = some n
  rw [if_pos (length_bytes k n), number_bytes hn]

end Lib.Decimal
