import IpVault.Client.Sha256
import Mathlib.Tactic

set_option autoImplicit false

/-! # The blocks of the two hashes

The numbers of the JavaScript are signed in one place and unsigned in another, and its sums are those
of doubles. As words they are those of SHA-256: the schedule (`loops_schedule`), a round
(`roundStep_words`) and with them the hash of a padded message (`hashBlocks_eq`).
-/

namespace IpVault.Client

open Lib Js Sha256

variable {R : Rounding}

/-! ## Words -/

theorem SHA256_K_eq : SHA256_K = K := by decide +kernel

theorem initialHash_eq : initialHash = H0 := by decide +kernel

@[simp] theorem word_get (w : List Word) (i : Nat) : word (get w i) = w.getD i 0 := word_toNat _

theorem within_get (w : List Word) (i : Nat) : Within 1 (get w i) := within_toNat _

theorem word_rotr32 (x : Int) {n : Nat} (h : n < 32) :
    word (rotr32 x n) = (word x).rotateRight n := by
  rw [rotr32, word_or, word_ushr, word_shl, BitVec.rotateRight_def, Nat.mod_eq_of_lt h]

/-! ## The schedule -/

theorem getD_take {w : List Word} {i j : Nat} (h : j < i) : (w.take i).getD j 0 = w.getD j 0 := by
  rw [List.getD_eq_getElem?_getD, List.getElem?_take_of_lt h, List.getD_eq_getElem?_getD]

/-- **A word of the schedule** is the next word of those before it. -/
theorem scheduleWord_eq {w : List Word} {i : Nat} (h : 16 ≤ i) (hi : i < w.length) :
    scheduleWord R w i = w.set i (nextWord (w.take i)) := by
  have hlength : (w.take i).length = i := by
    rw [List.length_take, Nat.min_eq_left (Nat.le_of_lt hi)]
  have first := (within_get w (i - 16)).add (R := R) (within_xor (xor (rotr32 (get w (i - 15)) 7)
    (rotr32 (get w (i - 15)) 18)) (ushr (get w (i - 15)) 3)) (by decide)
  have second := first.1.add (R := R) (within_get w (i - 7)) (by decide)
  have third := second.1.add (R := R) (within_xor (xor (rotr32 (get w (i - 2)) 17)
    (rotr32 (get w (i - 2)) 19)) (ushr (get w (i - 2)) 10)) (by decide)
  rw [scheduleWord, put, word_ushr_zero, third.2, second.2, first.2, nextWord, hlength,
    getD_take (by omega : i - 2 < i), getD_take (by omega : i - 7 < i),
    getD_take (by omega : i - 15 < i), getD_take (by omega : i - 16 < i)]
  simp only [word_xor, word_get, word_ushr, word_rotr32 _ (by decide : 7 < 32),
    word_rotr32 _ (by decide : 18 < 32), word_rotr32 _ (by decide : 17 < 32),
    word_rotr32 _ (by decide : 19 < 32)]
  congr 1
  -- The terms are added in another order than in the standard.
  unfold smallSigma0 smallSigma1
  ac_rfl

/-- The word of a block at a place. -/
def wordAt (block : List UInt8) (t : Nat) : Word :=
  BitVec.ofNat 32 (number ((block.drop (4 * t)).take 4))

/-- A word of a block is read at its place in the message. -/
theorem loadWord_eq {msg : List UInt8} {off : Nat} {w : List Word} {i : Nat} (h : i < 16)
    (hi : i < w.length) :
    loadWord msg off w i = w.set i (wordAt ((msg.drop off).take 64) (w.take i).length) := by
  have hlength : (w.take i).length = i := by
    rw [List.length_take, Nat.min_eq_left (Nat.le_of_lt hi)]
  rw [loadWord, put, getUint32, hlength, wordAt, List.drop_take, List.drop_drop, List.take_take,
    Nat.min_eq_left (by omega : 4 ≤ 64 - 4 * i), Nat.mul_comm i 4]
  exact congrArg _ (BitVec.ofInt_natCast 32 _)

/-- **The two loops over `w`** leave the schedule of the block in it, whatever it held before. -/
theorem loops_schedule (R : Rounding) (msg : List UInt8) (off : Nat) {w : List Word}
    (h : w.length = 64) :
    (List.range' 16 48).foldl (scheduleWord R) ((List.range' 0 16).foldl (loadWord msg off) w) =
      schedule ((msg.drop off).take 64) := by
  have hload := @take_foldl_set Word (fun ws => wordAt ((msg.drop off).take 64) ws.length)
    (loadWord msg off) 0 16 (fun v i _ hi hlt => loadWord_eq (by omega) hlt) w (by omega)
  have hschedule := @take_foldl_set Word nextWord (scheduleWord R) 16 48
    (fun v i hi _ hlt => scheduleWord_eq hi hlt)
    ((List.range' 0 16).foldl (loadWord msg off) w) (by omega)
  obtain ⟨hlength, htake⟩ := hschedule
  rw [List.take_of_length_le (by omega)] at htake
  rw [htake, hload.2, List.take_zero, extend_length (wordAt ((msg.drop off).take 64))]
  rfl

/-! ## The rounds -/

/-- The words of the variables. -/
def Registers.words (r : Registers) : Vars :=
  ⟨word r.a, word r.b, word r.c, word r.d, word r.e, word r.f, word r.g, word r.hh⟩

/-- Every variable is a signed or an unsigned word. -/
structure Registers.Small (r : Registers) : Prop where
  a : Within 1 r.a
  b : Within 1 r.b
  c : Within 1 r.c
  d : Within 1 r.d
  e : Within 1 r.e
  f : Within 1 r.f
  g : Within 1 r.g
  hh : Within 1 r.hh

theorem Registers.of_words (h : Vars) : (Registers.of h).words = h := by
  simp only [Registers.of, Registers.words, word_toNat]

theorem Registers.of_small (h : Vars) : (Registers.of h).Small :=
  ⟨within_toNat _, within_toNat _, within_toNat _, within_toNat _, within_toNat _, within_toNat _,
    within_toNat _, within_toNat _⟩

/-- `t1`, of five terms. -/
theorem word_t1 {hh S1 ch k w : Int} (hhh : Within 1 hh) (hS1 : Within 1 S1) (hch : Within 1 ch)
    (hk : Within 1 k) (hw : Within 1 w) :
    word (ushr (R.add (R.add (R.add (R.add hh S1) ch) k) w) 0) =
      word hh + word S1 + word ch + word k + word w := by
  have first := hhh.add (R := R) hS1 (by decide)
  have second := first.1.add (R := R) hch (by decide)
  have third := second.1.add (R := R) hk (by decide)
  have fourth := third.1.add (R := R) hw (by decide)
  rw [word_ushr_zero, fourth.2, third.2, second.2, first.2]

/-- A sum of two terms. -/
theorem word_sum {x y : Int} (hx : Within 1 x) (hy : Within 1 y) :
    word (ushr (R.add x y) 0) = word x + word y := by
  rw [word_ushr_zero, (hx.add hy (by decide)).2]

/-- **A round of the JavaScript is a round**, and its variables are words again. -/
theorem roundStep_words {r : Registers} (h : r.Small) (w : List Word) (i : Nat) :
    (roundStep R w r i).words = Sha256.round r.words (K.getD i 0) (w.getD i 0) ∧
      (roundStep R w r i).Small := by
  refine ⟨?_, ⟨within_ushr _ _, h.a, h.b, h.c, within_ushr _ _, h.e, h.f, h.g⟩⟩
  have hS1 : word (xor (xor (rotr32 r.e 6) (rotr32 r.e 11)) (rotr32 r.e 25)) =
      bigSigma1 (word r.e) := by
    rw [word_xor, word_xor, word_rotr32 _ (by decide), word_rotr32 _ (by decide),
      word_rotr32 _ (by decide), bigSigma1]
  have hS0 : word (xor (xor (rotr32 r.a 2) (rotr32 r.a 13)) (rotr32 r.a 22)) =
      bigSigma0 (word r.a) := by
    rw [word_xor, word_xor, word_rotr32 _ (by decide), word_rotr32 _ (by decide),
      word_rotr32 _ (by decide), bigSigma0]
  have hch : word (xor (and r.e r.f) (and (not r.e) r.g)) =
      ch (word r.e) (word r.f) (word r.g) := by
    rw [word_xor, word_and, word_and, word_not, ch]
  have hmaj : word (xor (xor (and r.a r.b) (and r.a r.c)) (and r.b r.c)) =
      maj (word r.a) (word r.b) (word r.c) := by
    rw [word_xor, word_xor, word_and, word_and, word_and, maj]
  unfold roundStep Registers.words Sha256.round
  dsimp only
  rw [word_sum (within_ushr _ _) (within_ushr _ _), word_sum h.d (within_ushr _ _),
    word_sum (within_xor _ _) (within_xor _ _),
    word_t1 h.hh (within_xor _ _) (within_xor _ _) (within_get _ _) (within_get _ _), hS0, hS1, hch,
    hmaj, word_get, word_get, SHA256_K_eq]

/-- **The rounds.** -/
theorem rounds_words (R : Rounding) (h : Vars) (w : List Word) :
    ((List.range 64).foldl (roundStep R w) (.of h)).words = rounds h w ∧
      ((List.range 64).foldl (roundStep R w) (.of h)).Small := by
  refine List.foldl_rel (r := fun (r : Registers) (v : Vars) => r.words = v ∧ r.Small)
    ⟨Registers.of_words h, Registers.of_small h⟩ ?_
  rintro i - r v ⟨rfl, hsmall⟩
  exact roundStep_words hsmall w i

theorem addTo_eq (h : Word) {a : Int} (ha : Within 1 a) : addTo R h a = h + word a := by
  rw [addTo, word_sum (within_toNat h) ha, word_toNat]

/-- **A block.** -/
theorem hashBlock_eq (R : Rounding) (msg : List UInt8) (h : Vars) {w : List Word}
    (hw : w.length = 64) (off : Nat) :
    (hashBlock R msg (h, w) off).1 = compress h ((msg.drop off).take 64) ∧
      (hashBlock R msg (h, w) off).2.length = 64 := by
  have hloops := loops_schedule R msg off hw
  have hrounds := rounds_words R h (schedule ((msg.drop off).take 64))
  unfold hashBlock
  dsimp only
  rw [hloops]
  refine ⟨?_, ?_⟩
  · rw [compress, ← hrounds.1, addTo_eq _ hrounds.2.a, addTo_eq _ hrounds.2.b,
      addTo_eq _ hrounds.2.c, addTo_eq _ hrounds.2.d, addTo_eq _ hrounds.2.e,
      addTo_eq _ hrounds.2.f, addTo_eq _ hrounds.2.g, addTo_eq _ hrounds.2.hh]
    rfl
  · rw [schedule, length_extend, words, List.length_map, List.length_range]

/-- **The blocks.** -/
theorem hashBlocks_eq (R : Rounding) {msg : List UInt8} (h : msg.length % 64 = 0) :
    ((offsets msg.length).foldl (hashBlock R msg) (initialHash, List.replicate 64 0)).1 =
      digest msg := by
  have hblocks : (msg.length + 63) / SHA256_BLOCK_BYTES = msg.length / 64 := by
    rw [SHA256_BLOCK_BYTES]
    omega
  rw [offsets, hblocks, List.foldl_map, initialHash_eq, digest]
  refine (List.foldl_rel
    (r := fun (st : Vars × List Word) (H : Vars) => st.1 = H ∧ st.2.length = 64)
    ⟨rfl, List.length_replicate⟩ ?_).1
  -- `w` is not cleared between the blocks; all that is kept of it is its length.
  rintro i - ⟨h, w⟩ H ⟨rfl, hw⟩
  have hblock := hashBlock_eq R msg h hw (i * SHA256_BLOCK_BYTES)
  rw [Nat.mul_comm i] at hblock
  rw [Nat.mul_comm i]
  exact hblock

end IpVault.Client
