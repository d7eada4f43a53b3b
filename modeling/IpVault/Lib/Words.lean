import Mathlib.Tactic

set_option autoImplicit false

/-! # Arithmetic on machine words

A word of `w` bits is a number below `2 ^ w`. The operations that can overflow answer `none` where they
do: there a checked build stops and an unchecked one goes on with another number.
-/

namespace Lib.Word

/-- `a + b`. -/
def add (w a b : Nat) : Option Nat := if a + b < 2 ^ w then some (a + b) else none

/-- `a - b`, unsigned. -/
def sub (a b : Nat) : Option Nat := if b ≤ a then some (a - b) else none

/-- `a << n`: only the distance can overflow, and bits that leave the word are lost. -/
def shl (w a n : Nat) : Option Nat := if n < w then some ((a <<< n) % 2 ^ w) else none

/-- `a.saturating_mul(b)`. -/
def saturating_mul (w a b : Nat) : Nat := min (a * b) (2 ^ w - 1)

variable {w a b c n : Nat}

theorem add_of_lt (h : a + b < 2 ^ w) : add w a b = some (a + b) := if_pos h

theorem sub_of_le (h : b ≤ a) : sub a b = some (a - b) := if_pos h

/-- A one is not shifted out of its word. -/
theorem one_shl (h : n < w) : shl w 1 n = some (2 ^ n) := by
  have hlt : 2 ^ n < 2 ^ w := Nat.pow_lt_pow_right (by decide) h
  unfold shl
  rw [if_pos h, Nat.one_shiftLeft, Nat.mod_eq_of_lt hlt]

/-- Saturation keeps the order. -/
theorem saturating_mul_mono (h : b ≤ c) : saturating_mul w a b ≤ saturating_mul w a c := by
  have hmul : a * b ≤ a * c := Nat.mul_le_mul_left a h
  unfold saturating_mul
  omega

end Lib.Word
