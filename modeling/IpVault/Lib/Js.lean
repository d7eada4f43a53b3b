import Mathlib.Tactic

set_option autoImplicit false

/-! # Whole numbers in JavaScript

A number is a double; a whole number is exact up to `2 ^ 53` and rounded beyond, in a way that is
left open here. The bitwise operators take a number modulo `2 ^ 32` and answer a signed number, `>>>` an
unsigned one. `word` forgets the difference: the operators act on words (`word_xor` and so on), and
so does a sum of numbers that are small enough to be exact (`Within.add`).
-/

namespace Lib.Js

/-- How whole numbers are rounded: not at all up to `2 ^ 53`. -/
structure Rounding where
  round : Int → Int
  exact : ∀ n, -2 ^ 53 ≤ n → n ≤ 2 ^ 53 → round n = n

/-- Exact numbers. -/
instance : Inhabited Rounding := ⟨⟨id, fun _ _ _ => rfl⟩⟩

/-- `a + b`. -/
def Rounding.add (R : Rounding) (a b : Int) : Int := R.round (a + b)

/-- `a * b`. -/
def Rounding.mul (R : Rounding) (a b : Int) : Int := R.round (a * b)

/-- A number modulo `2 ^ 32`, as `ToInt32` and `ToUint32` take it. -/
def word (n : Int) : BitVec 32 := BitVec.ofInt 32 n

/-! ## Operators -/

def and (a b : Int) : Int := (word a &&& word b).toInt
def or (a b : Int) : Int := (word a ||| word b).toInt
def xor (a b : Int) : Int := (word a ^^^ word b).toInt
def not (a : Int) : Int := (~~~word a).toInt

/-- `a << n`. -/
def shl (a : Int) (n : Nat) : Int := (word a <<< n).toInt

/-- `a >> n`. -/
def shr (a : Int) (n : Nat) : Int := ((word a).sshiftRight n).toInt

/-- `a >>> n`. -/
def ushr (a : Int) (n : Nat) : Int := (word a >>> n).toNat

variable {a b : Int} {n : Nat}

@[simp] theorem word_toInt (x : BitVec 32) : word x.toInt = x := BitVec.ofInt_toInt

@[simp] theorem word_toNat (x : BitVec 32) : word x.toNat = x := by
  rw [word, BitVec.ofInt_natCast, BitVec.ofNat_toNat, BitVec.setWidth_eq]

@[simp] theorem word_and (a b : Int) : word (and a b) = word a &&& word b := word_toInt _
@[simp] theorem word_or (a b : Int) : word (or a b) = word a ||| word b := word_toInt _
@[simp] theorem word_xor (a b : Int) : word (xor a b) = word a ^^^ word b := word_toInt _
@[simp] theorem word_not (a : Int) : word (not a) = ~~~word a := word_toInt _
@[simp] theorem word_shl (a : Int) (n : Nat) : word (shl a n) = word a <<< n := word_toInt _
@[simp] theorem word_ushr (a : Int) (n : Nat) : word (ushr a n) = word a >>> n := word_toNat _

/-- `a >>> 0` keeps the word. -/
theorem word_ushr_zero (a : Int) : word (ushr a 0) = word a := by
  rw [word_ushr, BitVec.ushiftRight_zero]

/-! ## Small numbers -/

/-- The number lies within `k` words of zero. -/
def Within (k : Nat) (a : Int) : Prop := -(k * 2 ^ 32) ≤ a ∧ a ≤ k * 2 ^ 32

theorem within_toInt (x : BitVec 32) : Within 1 x.toInt := by
  have hlt := x.toInt_lt
  have hle := x.le_toInt
  constructor <;> omega

theorem within_toNat (x : BitVec 32) : Within 1 x.toNat := by
  have hlt := x.isLt
  constructor <;> omega

theorem within_xor (a b : Int) : Within 1 (xor a b) := within_toInt _
theorem within_ushr (a : Int) (n : Nat) : Within 1 (ushr a n) := within_toNat _

theorem Rounding.add_eq (R : Rounding) (hlow : -2 ^ 53 ≤ a + b) (hhigh : a + b ≤ 2 ^ 53) :
    R.add a b = a + b := R.exact _ hlow hhigh

/-- **A small sum is exact, so that it is the sum of the words.** -/
theorem Within.add {R : Rounding} {j k : Nat} (ha : Within j a) (hb : Within k b)
    (h : j + k ≤ 2 ^ 20) :
    Within (j + k) (R.add a b) ∧ word (R.add a b) = word a + word b := by
  obtain ⟨ha₁, ha₂⟩ := ha
  obtain ⟨hb₁, hb₂⟩ := hb
  have hsum : R.add a b = a + b := R.add_eq (by omega) (by omega)
  rw [hsum]
  refine ⟨⟨by push_cast; omega, by push_cast; omega⟩, ?_⟩
  exact BitVec.ofInt_add a b

end Lib.Js
