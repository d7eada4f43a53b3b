import IpVault.Auth.Secrets
import IpVault.Client.Blocks
import Mathlib.Tactic

set_option autoImplicit false

/-! # The two signatures are one

The message of the JavaScript is padded as SHA-256 pads it as long as the length is an `int32`; from
2 GiB on the array gets a negative length (`totalLen_of_lt`, `totalLen_of_le`). So `hmacSha256Bytes`
is HMAC, and the header of the browser the one that the server computes, for every message short of
that (`client_signs_exactly`).
-/

namespace IpVault.Client

open Lib Js Sha256

/-! ## The length of the padding -/

theorem toInt_word {n : Int} (hlow : -2 ^ 31 ≤ n) (hhigh : n < 2 ^ 31) : (word n).toInt = n := by
  rw [word, BitVec.toInt_ofInt]
  exact Int.bmod_eq_of_le (by omega) (by omega)

/-- `>> 6` of a number is its quotient as an `int32`. -/
theorem shr_six (n : Int) : shr n 6 = (word n).toInt / 64 := by
  rw [shr, BitVec.toInt_sshiftRight, Int.shiftRight_eq_div_pow]
  rfl

theorem shl_six (n : Int) : shl n 6 = (n * 64).bmod (2 ^ 32) := by
  have hpow : BitVec.twoPow 32 6 = BitVec.ofInt 32 64 := by decide
  rw [shl, word, BitVec.shiftLeft_eq_mul_twoPow, hpow, ← BitVec.ofInt_mul, BitVec.toInt_ofInt]

/-- `(n >> 6) << 6` is the multiple of 64 below the number as an `int32`. -/
theorem shl_shr_six (n : Int) : shl (shr n 6) 6 = (word n).toInt / 64 * 64 := by
  have hlow := (word n).le_toInt
  have hhigh := (word n).toInt_lt
  rw [shr_six, shl_six]
  exact Int.bmod_eq_of_le (by omega) (by omega)

/-- Half of the numbers that do not fit an `int32` are negative ones. -/
theorem toInt_word_of_le {n : Int} (hlow : 2 ^ 31 ≤ n) (hhigh : n < 2 ^ 32) :
    (word n).toInt = n - 2 ^ 32 := by
  rw [word, BitVec.toInt_ofInt, Int.bmod_def]
  omega

/-- `totalLen`. -/
def totalLen (R : Rounding) (length : Nat) : Int :=
  shl (shr (R.add (R.add length 9) 63) 6) 6

theorem sum_eq (R : Rounding) {length : Nat} (h : length < 2 ^ 52) :
    R.add (R.add length 9) 63 = length + 72 := by
  have hnine : R.add length 9 = length + 9 := R.add_eq (by omega) (by omega)
  rw [hnine, R.add_eq (by omega) (by omega)]
  omega

/-- **Below 2 GiB the length is that of the padding.** -/
theorem totalLen_of_lt (R : Rounding) {length : Nat} (h : length < 2 ^ 31 - 72) :
    totalLen R length = ((length + 72) / 64 * 64 : Nat) := by
  rw [totalLen, sum_eq R (by omega), shl_shr_six, toInt_word (by omega) (by omega)]
  omega

/-- **From there on it is negative or too short**, whatever the sum is rounded to. -/
theorem totalLen_of_le (R : Rounding) {length : Nat} (h : 2 ^ 31 - 72 ≤ length) :
    totalLen R length < 0 ∨ totalLen R length < length := by
  rw [totalLen, shl_shr_six]
  -- Just beyond the largest `int32` the sum is exact and wraps to a negative number. Further on it
  -- may have wrapped any number of times, but an `int32` is less than such a length anyway.
  by_cases hnear : length ≤ 2 ^ 31 - 64
  · left
    rw [sum_eq R (by omega), toInt_word_of_le (by omega) (by omega)]
    omega
  · right
    have hhigh := (word (R.add (R.add length 9) 63)).toInt_lt
    omega

/-! ## The padding -/

/-- Bytes are written over as many others. -/
theorem setBytes_append (before old after bytes : List UInt8) (h : bytes.length = old.length) :
    setBytes (before ++ old ++ after) bytes before.length = some (before ++ bytes ++ after) := by
  have htake : (before ++ old ++ after).take before.length = before := by
    rw [List.append_assoc, List.take_left]
  have hdrop : (before ++ old ++ after).drop (before.length + bytes.length) = after := by
    rw [h, ← List.length_append, List.drop_left]
  have hfits : before.length + bytes.length ≤ (before ++ old ++ after).length := by
    rw [List.length_append, List.length_append, h]
    exact Nat.le_add_right _ _
  rw [setBytes, if_pos hfits, htake, hdrop]

theorem setUint32_append (before after : List UInt8) (v : Int) :
    setUint32 (before ++ List.replicate 4 0 ++ after) before.length v =
      some (before ++ bigEndian 4 (word v).toNat ++ after) := by
  rw [setUint32, if_pos (Int.natCast_nonneg _), Int.toNat_natCast]
  refine setBytes_append before (List.replicate 4 0) after _ ?_
  rw [length_bigEndian, List.length_replicate]

/-- The zeros between the marker and the length. -/
def zeroCount (length : Nat) : Nat := (119 - length % 64) % 64

/-- The message with its marker, up to the length. -/
def marked (bytes : List UInt8) : List UInt8 :=
  bytes ++ 0x80 :: List.replicate (zeroCount bytes.length) 0

theorem length_marked (bytes : List UInt8) :
    (marked bytes).length + 8 = (bytes.length + 72) / 64 * 64 := by
  rw [marked, List.length_append, List.length_cons, List.length_replicate, zeroCount]
  omega

/-- The bytes are copied into zeros. -/
theorem setBytes_zeros (bytes : List UInt8) :
    setBytes (List.replicate ((marked bytes).length + 8) 0) bytes 0 =
      some (bytes ++ 0 :: List.replicate (zeroCount bytes.length) 0 ++ List.replicate 8 0) := by
  have hlength : (marked bytes).length + 8 = bytes.length + (zeroCount bytes.length + 1 + 8) := by
    rw [marked, List.length_append, List.length_cons, List.length_replicate]
    omega
  have hzeros : List.replicate ((marked bytes).length + 8) (0 : UInt8) =
      List.replicate bytes.length 0 ++
        (0 :: List.replicate (zeroCount bytes.length) 0 ++ List.replicate 8 0) := by
    rw [hlength, List.replicate_add, List.replicate_add _ 8, List.replicate_succ]
  have hset := setBytes_append [] (List.replicate bytes.length 0)
    (0 :: List.replicate (zeroCount bytes.length) 0 ++ List.replicate 8 0) bytes
    List.length_replicate.symm
  rw [List.nil_append, List.nil_append, List.length_nil] at hset
  rw [hzeros, hset, List.append_assoc]

/-- The marker is set. -/
theorem set_marked (bytes : List UInt8) :
    (bytes ++ 0 :: List.replicate (zeroCount bytes.length) 0 ++ List.replicate 8 0).set bytes.length
      0x80 = marked bytes ++ List.replicate 4 0 ++ List.replicate 4 0 := by
  rw [List.append_assoc, List.set_append_right _ _ (Nat.le_refl _), Nat.sub_self]
  rw [marked, List.append_assoc, List.append_assoc]
  rfl

/-- **Below 2 GiB the message is padded as SHA-256 pads it.** -/
theorem paddedMessage_of_lt (R : Rounding) {bytes : List UInt8}
    (h : bytes.length < 2 ^ 31 - 72) : paddedMessage R bytes = some (pad bytes) := by
  have htotal := totalLen_of_lt R h
  have hlength := length_marked bytes
  have hbits : R.mul bytes.length 8 = (bytes.length * 8 : Nat) := R.exact _ (by omega) (by omega)
  have hhigh : (word (((bytes.length * 8 : Nat) : Int) / 0x100000000)).toNat =
      bytes.length * 8 / 2 ^ 32 := by
    have hquot : ((bytes.length * 8 : Nat) : Int) / 0x100000000 =
        (bytes.length * 8 / 2 ^ 32 : Nat) := by omega
    rw [hquot, word, BitVec.ofInt_natCast, BitVec.toNat_ofNat]
    exact Nat.mod_eq_of_lt (by omega)
  have hlow : (word (ushr ((bytes.length * 8 : Nat) : Int) 0)).toNat =
      bytes.length * 8 % 2 ^ 32 := by
    rw [word_ushr_zero, word, BitVec.ofInt_natCast, BitVec.toNat_ofNat]
  have hfirst := setUint32_append (marked bytes) (List.replicate 4 0)
    (((bytes.length * 8 : Nat) : Int) / 0x100000000)
  have hsecond := setUint32_append (marked bytes ++ bigEndian 4 (bytes.length * 8 / 2 ^ 32)) []
    (ushr ((bytes.length * 8 : Nat) : Int) 0)
  rw [hhigh] at hfirst
  rw [hlow, List.append_nil, List.append_nil, List.length_append, length_bigEndian] at hsecond
  have hpos8 : (((bytes.length + 72) / 64 * 64 : Nat) : Int) - 8 = (marked bytes).length := by omega
  have hpos4 : (((bytes.length + 72) / 64 * 64 : Nat) : Int) - 4 =
      ((marked bytes).length + 4 : Nat) := by omega
  have hpad : pad bytes = marked bytes ++ bigEndian 4 (bytes.length * 8 / 2 ^ 32) ++
      bigEndian 4 (bytes.length * 8 % 2 ^ 32) := by
    rw [pad, bigEndian_eight, ← List.append_assoc]
    rfl
  rw [totalLen] at htotal
  unfold paddedMessage
  dsimp only
  rw [htotal, newUint8Array, if_pos (Int.natCast_nonneg _), Int.toNat_natCast, hbits, hpos8, hpos4,
    ← hlength]
  show (setBytes (List.replicate ((marked bytes).length + 8) 0) bytes 0).bind _ = _
  rw [setBytes_zeros, Option.bind_some, set_marked, hfirst, hpad]
  exact hsecond

theorem paddedMessage_of_le (R : Rounding) {bytes : List UInt8}
    (h : 2 ^ 31 - 72 ≤ bytes.length) : paddedMessage R bytes = none := by
  have htotal := totalLen_of_le R h
  rw [totalLen] at htotal
  unfold paddedMessage
  dsimp only
  generalize shl (shr (R.add (R.add bytes.length 9) 63) 6) 6 = total at htotal ⊢
  -- A negative length throws in `new Uint8Array`, one that is too short in `msg.set`.
  by_cases hneg : total < 0
  · rw [newUint8Array, if_neg (by omega)]
    rfl
  · rw [newUint8Array, if_pos (by omega)]
    show (setBytes (List.replicate total.toNat 0) bytes 0).bind _ = none
    rw [setBytes, if_neg]
    · rfl
    · rw [List.length_replicate]
      omega

/-! ## SHA-256 and HMAC -/

/-- **Below 2 GiB `sha256Bytes` is SHA-256.** -/
theorem sha256Bytes_of_lt (R : Rounding) {bytes : List UInt8} (h : bytes.length < 2 ^ 31 - 72) :
    sha256Bytes R bytes = some (Sha256.hash bytes) := by
  have hwhole : (pad bytes).length % 64 = 0 := by
    rw [length_pad]
    exact Nat.mul_mod_left _ _
  rw [sha256Bytes, paddedMessage_of_lt R h, Sha256.hash, ← hashBlocks_eq R hwhole]
  rfl

/-- From there on it throws. -/
theorem sha256Bytes_of_le (R : Rounding) {bytes : List UInt8} (h : 2 ^ 31 - 72 ≤ bytes.length) :
    sha256Bytes R bytes = none := by
  rw [sha256Bytes, paddedMessage_of_le R h]
  rfl

/-- The key of a block's length. -/
theorem setBytes_key {key : List UInt8} (h : key.length ≤ 64) :
    setBytes (List.replicate SHA256_BLOCK_BYTES 0) key 0 =
      some (key ++ List.replicate (64 - key.length) 0) := by
  have hset := setBytes_append [] (List.replicate key.length 0)
    (List.replicate (64 - key.length) 0) key List.length_replicate.symm
  rw [List.nil_append, List.nil_append, List.length_nil, List.replicate_append_replicate,
    Nat.add_sub_of_le h] at hset
  exact hset

/-- Bytes behind a masked key. -/
theorem setBytes_masked {key bytes : List UInt8} (hkey : key.length = 64) (mask : UInt8) {n : Nat}
    (hn : bytes.length = n) :
    setBytes (key.map (· ^^^ mask) ++ List.replicate n 0) bytes SHA256_BLOCK_BYTES =
      some (key.map (· ^^^ mask) ++ bytes) := by
  have hset := setBytes_append (key.map (· ^^^ mask)) (List.replicate n 0) [] bytes
    (by rw [hn, List.length_replicate])
  rw [List.append_nil, List.append_nil, List.length_map, hkey] at hset
  exact hset

/-- What a key is before the zeros. -/
theorem key_of_lt (R : Rounding) {key : List UInt8} (h : key.length < 2 ^ 31 - 72) :
    (if SHA256_BLOCK_BYTES < key.length then sha256Bytes R key else some key) =
      some (if 64 < key.length then Sha256.hash key else key) := by
  rw [sha256Bytes_of_lt R h, SHA256_BLOCK_BYTES]
  split <;> rfl

/-- **The HMAC of the JavaScript**, up to the hash of the message behind the masked key. -/
theorem hmacSha256Bytes_of_key (R : Rounding) {key : List UInt8} (h : key.length < 2 ^ 31 - 72)
    (message : List UInt8) :
    hmacSha256Bytes R key message =
      if message.length < 2 ^ 31 - 136 then some (hmac key message) else none := by
  have hle : (if 64 < key.length then Sha256.hash key else key).length ≤ 64 := by
    split
    · rw [length_hash]
      omega
    · omega
  -- The masked key is a block of its own, so that the message has 64 bytes less than the array.
  have hinner := setBytes_masked (length_blockKey key) 0x36 (rfl : message.length = _)
  have hlength : ((blockKey key).map (· ^^^ 0x36) ++ message).length = 64 + message.length := by
    rw [List.length_append, List.length_map, length_blockKey]
  unfold hmacSha256Bytes
  simp only [Option.bind_eq_bind]
  rw [key_of_lt R h, Option.bind_some, setBytes_key hle, Option.bind_some, ← blockKey, hinner,
    Option.bind_some]
  by_cases hmessage : message.length < 2 ^ 31 - 136
  · have houter := setBytes_masked (length_blockKey key) 0x5c
      (length_hash ((blockKey key).map (· ^^^ 0x36) ++ message))
    have hlast : ((blockKey key).map (· ^^^ 0x5c) ++
        Sha256.hash ((blockKey key).map (· ^^^ 0x36) ++ message)).length < 2 ^ 31 - 72 := by
      rw [List.length_append, List.length_map, length_blockKey, length_hash]
      decide
    rw [sha256Bytes_of_lt R (by omega), Option.bind_some, houter, Option.bind_some, if_pos hmessage,
      sha256Bytes_of_lt R hlast, hmac]
  · rw [sha256Bytes_of_le R (by omega), if_neg hmessage, Option.bind_none]

/-- A key that cannot be hashed makes no HMAC. -/
theorem hmacSha256Bytes_of_le (R : Rounding) {key : List UInt8} (h : 2 ^ 31 - 72 ≤ key.length)
    (message : List UInt8) : hmacSha256Bytes R key message = none := by
  unfold hmacSha256Bytes
  dsimp only
  rw [if_pos (by rw [SHA256_BLOCK_BYTES]; omega), sha256Bytes_of_le R h]
  rfl

/-- **What `hmacSha256Bytes` answers.** -/
theorem hmacSha256Bytes_eq (R : Rounding) (key message : List UInt8) :
    hmacSha256Bytes R key message =
      if key.length < 2 ^ 31 - 72 ∧ message.length < 2 ^ 31 - 136 then some (hmac key message)
      else none := by
  by_cases hkey : key.length < 2 ^ 31 - 72
  · rw [hmacSha256Bytes_of_key R hkey message]
    exact if_congr (by rw [and_iff_right hkey]) rfl rfl
  · rw [hmacSha256Bytes_of_le R (by omega) message, if_neg fun h => hkey h.1]

/-! ## The header -/

/-- Two digits a byte. -/
theorem padStart_toDigits (b : UInt8) :
    padStart 2 '0' (Nat.toDigits 16 b.toNat) =
      [Hex.digit (b.toNat / 16), Hex.digit (b.toNat % 16)] := by
  have all : ∀ n < 256, padStart 2 '0' (Nat.toDigits 16 n) =
      [Hex.digit (n / 16), Hex.digit (n % 16)] := by decide +kernel
  exact all b.toNat b.toNat_lt

theorem bytesToHex_eq (bytes : List UInt8) : bytesToHex bytes = Hex.encode bytes := by
  refine congrArg String.ofList ?_
  induction bytes with
  | nil => rfl
  | cons b bs ih =>
      rw [List.flatMap_cons, ih, padStart_toDigits]
      rfl

theorem as_bytes_append (s t : String) :
    Crypto.as_bytes (s ++ t) = Crypto.as_bytes s ++ Crypto.as_bytes t := by
  rw [Crypto.as_bytes, String.toList_append, List.flatMap_append]
  rfl

/-- **The message is the canonical payload.** -/
theorem message_canonical (method path timestamp body : String) :
    Crypto.as_bytes (method ++ "\n" ++ path ++ "\n" ++ timestamp ++ "\n" ++ body) =
      Crypto.canonical_v1_payload method path timestamp (Crypto.as_bytes body) := by
  have newline : Crypto.as_bytes "\n" = [10] := by decide
  simp only [as_bytes_append, newline, Crypto.canonical_v1_payload, List.append_assoc,
    List.cons_append, List.nil_append]

/-- What `compute_signature` answers of the crates `hmac` and `hex`. -/
theorem compute_signature_eq {env : Env} (hhmac : env.hmac_sha256 = hmac) (hhex : env.HexCrate)
    (secret method target timestamp : String) (body : List UInt8) :
    Crypto.compute_signature env secret method target timestamp body =
      .ok ("sha256=" ++ Hex.encode (hmac (Crypto.as_bytes secret)
        (Crypto.canonical_v1_payload method target timestamp body))) := by
  rw [Crypto.compute_signature, hhmac, hhex.encode]
  rfl

/-- **Below 2 GiB the header of the browser is that of the server**; beyond there is none. -/
theorem signRequest_eq {env : Env} (hhmac : env.hmac_sha256 = hmac) (hhex : env.HexCrate)
    (R : Rounding) (secret method target timestamp body : String) :
    signRequest R secret method target timestamp body =
      if (Crypto.as_bytes secret).length < 2 ^ 31 - 72 ∧
          (Crypto.canonical_v1_payload method target timestamp (Crypto.as_bytes body)).length <
            2 ^ 31 - 136 then
        (Crypto.compute_signature env secret method target timestamp
          (Crypto.as_bytes body)).toOption
      else none := by
  rw [signRequest, message_canonical, hmacSha256Bytes_eq, compute_signature_eq hhmac hhex]
  split
  · rw [Option.map_some, bytesToHex_eq]
    rfl
  · rfl

/-- **The browser signs as the server does, exactly short of 2 GiB**: `sha256Bytes` is SHA-256 of the
arrays whose padding has the length of an `int32`, `hmacSha256Bytes` is HMAC of the keys and messages
that it hashes in such arrays, and the header is the one of `compute_signature` if the secret and the
canonical payload are such a key and message. -/
theorem client_signs_exactly {env : Env} (hhmac : env.hmac_sha256 = hmac) (hhex : env.HexCrate)
    (R : Rounding) :
    (∀ bytes, sha256Bytes R bytes = some (Sha256.hash bytes) ↔ bytes.length < 2 ^ 31 - 72) ∧
    (∀ key message, hmacSha256Bytes R key message = some (hmac key message) ↔
      key.length < 2 ^ 31 - 72 ∧ message.length < 2 ^ 31 - 136) ∧
    ∀ secret method target timestamp body,
      signRequest R secret method target timestamp body =
          (Crypto.compute_signature env secret method target timestamp
            (Crypto.as_bytes body)).toOption ↔
        (Crypto.as_bytes secret).length < 2 ^ 31 - 72 ∧
        (Crypto.canonical_v1_payload method target timestamp (Crypto.as_bytes body)).length <
          2 ^ 31 - 136 := by
  refine ⟨fun bytes => ⟨fun h => ?_, sha256Bytes_of_lt R⟩, fun key message => ?_, ?_⟩
  · by_contra hle
    rw [sha256Bytes_of_le R (Nat.le_of_not_lt hle)] at h
    cases h
  · rw [hmacSha256Bytes_eq]
    exact Option.ite_none_right_eq_some.trans (and_iff_left rfl)
  · intro secret method target timestamp body
    rw [signRequest_eq hhmac hhex, compute_signature_eq hhmac hhex]
    exact Option.ite_none_right_eq_some.trans (and_iff_left rfl)

/-- An environment with HMAC-SHA-256 and hexadecimal digits. -/
def hashing : Env :=
  { Env.sample with
    hmac_sha256 := hmac
    hex_encode := Hex.encode
    hex_decode := Hex.decode }

/-- The request for one's own key. -/
theorem client_signs_exactly_me :
    signRequest default "s3cret" "GET" "/api/auth/me" "1000" "" =
      (Crypto.compute_signature hashing "s3cret" "GET" "/api/auth/me" "1000"
        (Crypto.as_bytes "")).toOption :=
  ((@client_signs_exactly hashing rfl ⟨rfl, rfl⟩ default).2.2 "s3cret" "GET" "/api/auth/me" "1000"
    "").mpr ⟨by decide +kernel, by decide +kernel⟩

theorem length_as_bytes_replicate (n : Nat) (c : Char) :
    (Crypto.as_bytes (String.ofList (List.replicate n c))).length =
      n * (String.utf8EncodeChar c).length := by
  rw [Crypto.as_bytes, String.toList_ofList, List.length_flatMap, List.map_replicate,
    List.sum_replicate_nat]

/-- **A long body has no signature**: it is that of 715827883 characters of three bytes each, or of
as many zeros as fit no `int32` with a masked key and the padding. -/
theorem long_body_throws :
    hmacSha256Bytes default [] (List.replicate (2 ^ 31 - 136) 0) = none ∧
    signRequest default "s3cret" "POST" "/api/ban" "1000"
        (String.ofList (List.replicate 715827883 '€')) = none ∧
    (Crypto.compute_signature hashing "s3cret" "POST" "/api/ban" "1000" (Crypto.as_bytes
        (String.ofList (List.replicate 715827883 '€')))).toOption.isSome = true := by
  refine ⟨?_, ?_, rfl⟩
  · rw [hmacSha256Bytes_eq, List.length_replicate, if_neg fun h => absurd h.2 (Nat.lt_irrefl _)]
  · have hbody := length_as_bytes_replicate 715827883 '€'
    have heuro : (String.utf8EncodeChar '€').length = 3 := by decide
    rw [@signRequest_eq hashing rfl ⟨rfl, rfl⟩, if_neg]
    rintro ⟨-, hlt⟩
    rw [Crypto.canonical_v1_payload, List.length_append, List.length_cons, hbody, heuro] at hlt
    omega

end IpVault.Client
