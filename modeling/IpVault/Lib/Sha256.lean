import Mathlib.Tactic

set_option autoImplicit false

/-! # SHA-256 and HMAC

SHA-256 of a string of bytes as the standard (FIPS 180-4) defines it, and HMAC over it (RFC 2104).
The constants are not a table: they are the first bits of the fractional parts of roots of the first
primes. Before them stand lemmas on loops that fill an array from left to right (`take_foldl_set`),
as an implementation computes the schedule.
-/

namespace Lib

/-! ## Filling an array -/

section Extend

variable {α : Type}

/-- A list prolonged by `n` elements, each computed from those before it. -/
def extend (next : List α → α) : Nat → List α → List α
  | 0, ws => ws
  | n + 1, ws => extend next n (ws ++ [next ws])

theorem length_extend (next : List α → α) (n : Nat) (ws : List α) :
    (extend next n ws).length = ws.length + n := by
  induction n generalizing ws with
  | zero => rfl
  | succ n ih =>
      rw [extend, ih, List.length_append, List.length_singleton]
      omega

/-- Elements that are computed from their place alone are those of a range. -/
theorem extend_length (f : Nat → α) (n : Nat) (ws : List α) :
    extend (fun ws => f ws.length) n ws = ws ++ (List.range' ws.length n).map f := by
  induction n generalizing ws with
  | zero => exact (List.append_nil ws).symm
  | succ n ih =>
      rw [extend, ih, List.length_append, List.length_singleton, List.range'_succ, List.map_cons,
        List.append_assoc]
      rfl

theorem take_set_succ {w : List α} {i : Nat} (h : i < w.length) (a : α) :
    (w.set i a).take (i + 1) = w.take i ++ [a] := by
  rw [List.take_add_one, List.take_set_of_le (Nat.le_refl i), List.getElem?_set_self h]
  rfl

/-- **A loop that writes one place after the other**, each from what stands before it, prolongs the
part that is written. -/
theorem take_foldl_set {next : List α → α} {step : List α → Nat → List α} {s : Nat}
    {n : Nat} (hstep : ∀ w i, s ≤ i → i < s + n → i < w.length →
      step w i = w.set i (next (w.take i)))
    {w : List α} (h : s + n ≤ w.length) :
    ((List.range' s n).foldl step w).length = w.length ∧
      ((List.range' s n).foldl step w).take (s + n) = extend next n (w.take s) := by
  induction n generalizing s w with
  | zero => exact ⟨rfl, rfl⟩
  | succ n ih =>
      have hs : s < w.length := by omega
      have hw : step w s = w.set s (next (w.take s)) := hstep w s (Nat.le_refl s) (by omega) hs
      have hlength : (step w s).length = w.length := by rw [hw, List.length_set]
      obtain ⟨hrest, htake⟩ := @ih (s + 1)
        (fun v i hi hlt => hstep v i (Nat.le_of_succ_le hi) (by omega)) (step w s) (by omega)
      rw [List.range'_succ, List.foldl_cons, hrest, hlength]
      refine ⟨rfl, ?_⟩
      rw [Nat.add_comm n 1, ← Nat.add_assoc, htake, hw, take_set_succ hs, Nat.add_comm 1 n, extend]

end Extend

end Lib

namespace Lib.Sha256

abbrev Word := BitVec 32

/-! ## Functions and constants -/

def ch (x y z : Word) : Word := (x &&& y) ^^^ (~~~x &&& z)
def maj (x y z : Word) : Word := (x &&& y) ^^^ (x &&& z) ^^^ (y &&& z)
def bigSigma0 (x : Word) : Word := x.rotateRight 2 ^^^ x.rotateRight 13 ^^^ x.rotateRight 22
def bigSigma1 (x : Word) : Word := x.rotateRight 6 ^^^ x.rotateRight 11 ^^^ x.rotateRight 25
def smallSigma0 (x : Word) : Word := x.rotateRight 7 ^^^ x.rotateRight 18 ^^^ x >>> 3
def smallSigma1 (x : Word) : Word := x.rotateRight 17 ^^^ x.rotateRight 19 ^^^ x >>> 10

/-- The first sixty-four primes. -/
def primes : List Nat :=
  [2, 3, 5, 7, 11, 13, 17, 19, 23, 29, 31, 37, 41, 43, 47, 53, 59, 61, 67, 71, 73, 79, 83, 89, 97,
    101, 103, 107, 109, 113, 127, 131, 137, 139, 149, 151, 157, 163, 167, 173, 179, 181, 191, 193,
    197, 199, 211, 223, 227, 229, 233, 239, 241, 251, 257, 263, 269, 271, 277, 281, 283, 293, 307,
    311]

/-- The `k`-th root of `n`, rounded down, from its bits below `b` on. -/
def root (k n : Nat) : Nat → Nat → Nat
  | 0, r => r
  | b + 1, r => root k n b (if (r + 2 ^ b) ^ k ≤ n then r + 2 ^ b else r)

/-- The first thirty-two bits of the fractional part of the `k`-th root of `p`. -/
def fraction (k p : Nat) : Word := BitVec.ofNat 32 (root k (p * 2 ^ (32 * k)) 40 0)

/-- The constants of the rounds. -/
def K : List Word := primes.map (fraction 3)

/-- Eight words: the hash value, or the working variables. -/
structure Vars where
  a : Word
  b : Word
  c : Word
  d : Word
  e : Word
  f : Word
  g : Word
  h : Word
  deriving DecidableEq

/-- The initial hash value. -/
def H0 : Vars where
  a := fraction 2 2
  b := fraction 2 3
  c := fraction 2 5
  d := fraction 2 7
  e := fraction 2 11
  f := fraction 2 13
  g := fraction 2 17
  h := fraction 2 19

/-! ## Blocks -/

/-- The number of some bytes, the most significant first. -/
def number (bs : List UInt8) : Nat := bs.foldl (fun n b => n * 256 + b.toNat) 0

/-- The last `k` bytes of a number, the most significant first. -/
def bigEndian (k n : Nat) : List UInt8 :=
  (List.range k).map fun i => UInt8.ofNat (n / 256 ^ (k - 1 - i))

/-- The words of a block. -/
def words (block : List UInt8) : List Word :=
  (List.range 16).map fun t => BitVec.ofNat 32 (number ((block.drop (4 * t)).take 4))

/-- The next word of the schedule. -/
def nextWord (ws : List Word) : Word :=
  smallSigma1 (ws.getD (ws.length - 2) 0) + ws.getD (ws.length - 7) 0 +
    smallSigma0 (ws.getD (ws.length - 15) 0) + ws.getD (ws.length - 16) 0

/-- The message schedule. -/
def schedule (block : List UInt8) : List Word := extend nextWord 48 (words block)

/-- One round. -/
def round (v : Vars) (k w : Word) : Vars :=
  let t1 := v.h + bigSigma1 v.e + ch v.e v.f v.g + k + w
  let t2 := bigSigma0 v.a + maj v.a v.b v.c
  ⟨t1 + t2, v.a, v.b, v.c, v.d + t1, v.e, v.f, v.g⟩

/-- The working variables after the rounds of a schedule. -/
def rounds (v : Vars) (w : List Word) : Vars :=
  (List.range 64).foldl (fun v t => round v (K.getD t 0) (w.getD t 0)) v

/-- The next hash value. -/
def compress (H : Vars) (block : List UInt8) : Vars :=
  let v := rounds H (schedule block)
  ⟨H.a + v.a, H.b + v.b, H.c + v.c, H.d + v.d, H.e + v.e, H.f + v.f, H.g + v.g, H.h + v.h⟩

/-! ## Messages -/

/-- A bit, as many zeros as it takes, and the number of bits of the message. -/
def pad (message : List UInt8) : List UInt8 :=
  message ++ 0x80 :: List.replicate ((119 - message.length % 64) % 64) 0 ++
    bigEndian 8 (message.length * 8)

/-- The bytes of a hash value. -/
def Vars.bytes (H : Vars) : List UInt8 :=
  [H.a, H.b, H.c, H.d, H.e, H.f, H.g, H.h].flatMap fun x => bigEndian 4 x.toNat

/-- The hash value after the blocks of a padded message. -/
def digest (padded : List UInt8) : Vars :=
  (List.range (padded.length / 64)).foldl
    (fun H i => compress H ((padded.drop (64 * i)).take 64)) H0

/-- SHA-256. -/
def hash (message : List UInt8) : List UInt8 := (digest (pad message)).bytes

/-- The key of HMAC, as long as a block. -/
def blockKey (key : List UInt8) : List UInt8 :=
  let k := if 64 < key.length then hash key else key
  k ++ List.replicate (64 - k.length) 0

/-- HMAC. -/
def hmac (key message : List UInt8) : List UInt8 :=
  hash ((blockKey key).map (· ^^^ 0x5c) ++
    hash ((blockKey key).map (· ^^^ 0x36) ++ message))

@[simp] theorem length_bigEndian (k n : Nat) : (bigEndian k n).length = k := by
  rw [bigEndian, List.length_map, List.length_range]

/-- A padded message is the least number of whole blocks that holds it and nine bytes more. -/
theorem length_pad (message : List UInt8) :
    (pad message).length = (message.length + 72) / 64 * 64 := by
  rw [pad, List.length_append, List.length_append, List.length_cons, List.length_replicate,
    length_bigEndian]
  omega

@[simp] theorem length_hash (message : List UInt8) : (hash message).length = 32 := by
  simp [hash, Vars.bytes]

/-- The digest of `abc`. -/
example : hash [0x61, 0x62, 0x63] =
    [0xba, 0x78, 0x16, 0xbf, 0x8f, 0x01, 0xcf, 0xea, 0x41, 0x41, 0x40, 0xde, 0x5d, 0xae, 0x22,
      0x23, 0xb0, 0x03, 0x61, 0xa3, 0x96, 0x17, 0x7a, 0x9c, 0xb4, 0x10, 0xff, 0x61, 0xf2, 0x00,
      0x15, 0xad] := by decide +kernel

@[simp] theorem length_blockKey (key : List UInt8) : (blockKey key).length = 64 := by
  have hle : (if 64 < key.length then hash key else key).length ≤ 64 := by
    split
    · rw [length_hash]
      omega
    · omega
  rw [blockKey, List.length_append, List.length_replicate]
  omega

theorem ofNat_eq_of_mod {m n : Nat} (h : m % 256 = n % 256) : UInt8.ofNat m = UInt8.ofNat n := by
  rw [← UInt8.toNat_inj, UInt8.toNat_ofNat', UInt8.toNat_ofNat']
  exact h

/-- A number of eight bytes is its upper and its lower four. -/
theorem bigEndian_eight (n : Nat) :
    bigEndian 8 n = bigEndian 4 (n / 2 ^ 32) ++ bigEndian 4 (n % 2 ^ 32) := by
  have high : ∀ i < 4, UInt8.ofNat (n / 256 ^ (8 - 1 - i)) =
      UInt8.ofNat (n / 2 ^ 32 / 256 ^ (4 - 1 - i)) := by
    intro i hi
    rw [Nat.div_div_eq_div_mul]
    interval_cases i <;> rfl
  have low : ∀ i < 4, UInt8.ofNat (n / 256 ^ (8 - 1 - (4 + i))) =
      UInt8.ofNat (n % 2 ^ 32 / 256 ^ (4 - 1 - i)) := by
    intro i hi
    apply ofNat_eq_of_mod
    interval_cases i <;> omega
  rw [bigEndian, show (8 : Nat) = 4 + 4 from rfl, List.range_add, List.map_append, List.map_map]
  refine congrArg₂ (· ++ ·) ?_ ?_
  · exact List.map_congr_left fun i hi => high i (List.mem_range.mp hi)
  · exact List.map_congr_left fun i hi => low i (List.mem_range.mp hi)

end Lib.Sha256
