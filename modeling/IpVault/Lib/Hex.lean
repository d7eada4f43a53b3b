import IpVault.Lib.Text

set_option autoImplicit false

/-! # Bytes in hexadecimal

Two digits a byte, written in lower case and read in both. What is written reads back
(`decode_encode`), what is read is a spelling of what is written (`decode_eq_some_iff`), and nothing
but digits is written (`not_mem_encode`).
-/

namespace Lib.Hex

/-- The digit of a value below 16. -/
def digit (n : Nat) : Char := if n < 10 then Char.ofNat (48 + n) else Char.ofNat (87 + n)

/-- The value of a digit. -/
def value (c : Char) : Option Nat :=
  if '0' ≤ c ∧ c ≤ '9' then some (c.toNat - 48)
  else if 'a' ≤ c ∧ c ≤ 'f' then some (c.toNat - 87)
  else if 'A' ≤ c ∧ c ≤ 'F' then some (c.toNat - 55)
  else none

/-- The digits of some bytes. -/
def encodeChars : List UInt8 → List Char
  | [] => []
  | b :: bs => digit (b.toNat / 16) :: digit (b.toNat % 16) :: encodeChars bs

def encode (bytes : List UInt8) : String := String.ofList (encodeChars bytes)

/-- The bytes of an even number of digits. -/
def decodeChars : List Char → Option (List UInt8)
  | [] => some []
  | [_] => none
  | c :: d :: rest => do
      let high ← value c
      let low ← value d
      let bytes ← decodeChars rest
      some (UInt8.ofNat (16 * high + low) :: bytes)

def decode (s : String) : Option (List UInt8) := decodeChars s.toList

theorem value_digit {n : Nat} (h : n < 16) : value (digit n) = some n := by
  have all : ∀ m < 16, value (digit m) = some m := by decide
  exact all n h

theorem decodeChars_encodeChars (bytes : List UInt8) :
    decodeChars (encodeChars bytes) = some bytes := by
  induction bytes with
  | nil => rfl
  | cons b bs ih =>
      have hlt : b.toNat < 256 := b.toNat_lt
      have hhigh : value (digit (b.toNat / 16)) = some (b.toNat / 16) := value_digit (by omega)
      have hlow : value (digit (b.toNat % 16)) = some (b.toNat % 16) := value_digit (by omega)
      have hbyte : UInt8.ofNat (16 * (b.toNat / 16) + b.toNat % 16) = b := by
        rw [Nat.div_add_mod]
        exact UInt8.ofNat_toNat
      unfold encodeChars decodeChars
      rw [hhigh, hlow, ih]
      show some (UInt8.ofNat (16 * (b.toNat / 16) + b.toNat % 16) :: bs) = some (b :: bs)
      rw [hbyte]

/-- **What is written reads back.** -/
theorem decode_encode (bytes : List UInt8) : decode (encode bytes) = some bytes := by
  unfold decode encode
  rw [String.toList_ofList, decodeChars_encodeChars]

theorem toNat_digit {n : Nat} (h : n < 16) :
    (digit n).toNat = if n < 10 then 48 + n else 87 + n := by
  have all : ∀ m < 16, (digit m).toNat = if m < 10 then 48 + m else 87 + m := by decide
  exact all n h

theorem toNat_asciiLower (c : Char) : (Text.asciiLower c).toNat =
    if 65 ≤ c.toNat ∧ c.toNat ≤ 90 then c.toNat + 32 else c.toNat := by
  unfold Text.asciiLower
  by_cases hupper : 'A' ≤ c ∧ c ≤ 'Z'
  · have hcode : 65 ≤ c.toNat ∧ c.toNat ≤ 90 := hupper
    have hvalid : (c.toNat + 32).isValidChar := Or.inl (by omega)
    rw [if_pos hupper, if_pos hcode]
    unfold Char.ofNat
    rw [dif_pos hvalid]
    rfl
  · have hcode : ¬ (65 ≤ c.toNat ∧ c.toNat ≤ 90) := hupper
    rw [if_neg hupper, if_neg hcode]

/-- A character has the value of the digit that is its lower case. -/
theorem value_eq_some_iff {c : Char} {n : Nat} :
    value c = some n ↔ n < 16 ∧ Text.asciiLower c = digit n := by
  have hcodes : value c = some n ↔ (48 ≤ c.toNat ∧ c.toNat ≤ 57 ∧ n = c.toNat - 48) ∨
      (97 ≤ c.toNat ∧ c.toNat ≤ 102 ∧ n = c.toNat - 87) ∨
      (65 ≤ c.toNat ∧ c.toNat ≤ 70 ∧ n = c.toNat - 55) := by
    have h0 : '0' ≤ c ∧ c ≤ '9' ↔ 48 ≤ c.toNat ∧ c.toNat ≤ 57 := Iff.rfl
    have ha : 'a' ≤ c ∧ c ≤ 'f' ↔ 97 ≤ c.toNat ∧ c.toNat ≤ 102 := Iff.rfl
    have hA : 'A' ≤ c ∧ c ≤ 'F' ↔ 65 ≤ c.toNat ∧ c.toNat ≤ 70 := Iff.rfl
    unfold value
    simp only [h0, ha, hA]
    split
    · rw [Option.some.injEq]
      omega
    · split
      · rw [Option.some.injEq]
        omega
      · split
        · rw [Option.some.injEq]
          omega
        · simp only [reduceCtorEq, false_iff]
          omega
  rw [hcodes]
  constructor
  · intro h
    have hn : n < 16 := by omega
    refine ⟨hn, Char.toNat_inj.mp ?_⟩
    rw [toNat_asciiLower, toNat_digit hn]
    split <;> split <;> omega
  · rintro ⟨hn, h⟩
    have hcode := congrArg Char.toNat h
    rw [toNat_asciiLower, toNat_digit hn] at hcode
    split at hcode <;> split at hcode <;> omega

theorem decodeChars_eq_some_iff {cs : List Char} {bytes : List UInt8} :
    decodeChars cs = some bytes ↔ cs.map Text.asciiLower = encodeChars bytes := by
  constructor
  · intro h
    induction cs using decodeChars.induct generalizing bytes with
    | case1 =>
        cases h
        rfl
    | case2 => cases h
    | case3 c d rest ih =>
        unfold decodeChars at h
        obtain ⟨high, hhigh, h⟩ := Option.bind_eq_some_iff.mp h
        obtain ⟨low, hlow, h⟩ := Option.bind_eq_some_iff.mp h
        obtain ⟨bs, hbs, h⟩ := Option.bind_eq_some_iff.mp h
        cases h
        obtain ⟨hhigh16, hc⟩ := value_eq_some_iff.mp hhigh
        obtain ⟨hlow16, hd⟩ := value_eq_some_iff.mp hlow
        have hbyte : (UInt8.ofNat (16 * high + low)).toNat = 16 * high + low :=
          UInt8.toNat_ofNat_of_lt' (by show _ < 256; omega)
        have hdiv : (16 * high + low) / 16 = high := by omega
        have hmod : (16 * high + low) % 16 = low := by omega
        show Text.asciiLower c :: Text.asciiLower d :: rest.map Text.asciiLower =
          digit _ :: digit _ :: encodeChars bs
        rw [hbyte, hdiv, hmod, hc, hd, ih hbs]
  · intro h
    induction bytes generalizing cs with
    | nil =>
        obtain rfl := List.map_eq_nil_iff.mp h
        rfl
    | cons b bs ih =>
        have hlt : b.toNat < 256 := b.toNat_lt
        obtain ⟨c, cs, rfl, hc, h⟩ := List.map_eq_cons_iff.mp h
        obtain ⟨d, cs, rfl, hd, h⟩ := List.map_eq_cons_iff.mp h
        have hbyte : UInt8.ofNat (16 * (b.toNat / 16) + b.toNat % 16) = b := by
          rw [Nat.div_add_mod]
          exact UInt8.ofNat_toNat
        unfold decodeChars
        rw [value_eq_some_iff.mpr ⟨by omega, hc⟩, value_eq_some_iff.mpr ⟨by omega, hd⟩, ih h]
        show some (UInt8.ofNat _ :: bs) = some (b :: bs)
        rw [hbyte]

/-- **A text reads as bytes exactly if it spells them**, in any letter case. -/
theorem decode_eq_some_iff {s : String} {bytes : List UInt8} :
    decode s = some bytes ↔ Text.to_ascii_lowercase s = encode bytes := by
  unfold decode encode Text.to_ascii_lowercase
  rw [decodeChars_eq_some_iff]
  constructor
  · intro h
    rw [h]
  · intro h
    have htoList := congrArg String.toList h
    rwa [String.toList_ofList, String.toList_ofList] at htoList

/-- Every character written is the digit of a value. -/
theorem mem_encodeChars {c : Char} {bytes : List UInt8} (h : c ∈ encodeChars bytes) :
    ∃ n < 16, c = digit n := by
  induction bytes with
  | nil => cases h
  | cons b bs ih =>
      have hlt : b.toNat < 256 := b.toNat_lt
      unfold encodeChars at h
      rcases List.mem_cons.mp h with rfl | h
      · exact ⟨b.toNat / 16, by omega, rfl⟩
      · rcases List.mem_cons.mp h with rfl | h
        · exact ⟨b.toNat % 16, by omega, rfl⟩
        · exact ih h

/-- A character that no digit is does not occur. -/
theorem not_mem_encode {c : Char} (hc : ∀ n < 16, c ≠ digit n) (bytes : List UInt8) :
    c ∉ (encode bytes).toList := by
  unfold encode
  rw [String.toList_ofList]
  intro h
  obtain ⟨n, hn, heq⟩ := mem_encodeChars h
  exact hc n hn heq

/-- Digits are not whitespace. -/
theorem not_whitespace_encode {c : Char} {bytes : List UInt8} (h : c ∈ (encode bytes).toList) :
    Text.is_whitespace c = false := by
  unfold encode at h
  rw [String.toList_ofList] at h
  obtain ⟨n, hn, rfl⟩ := mem_encodeChars h
  have all : ∀ m < 16, Text.is_whitespace (digit m) = false := by decide
  exact all n hn

example : decode "0aFf" = some [10, 255] := by decide

end Lib.Hex
