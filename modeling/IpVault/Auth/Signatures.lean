import IpVault.Auth.Canary

set_option autoImplicit false

/-! # What a signature says

A signature covers one string of bytes, and the string can be read back into the four fields it was
joined from (`canonical_v1_payload_injective`). What `verify_signature` accepts as the signature of a
request is the HMAC of that string and nothing else, in every spelling of its digits, and every
spelling is one digest.
-/

namespace IpVault.Crypto

open Lib

/-! ## The canonical string -/

/-- The byte of a newline is in the encoding of no other character. -/
theorem newline_of_mem_utf8 {c : Char} (h : 10 ∈ String.utf8EncodeChar c) : c = '\n' := by
  have hbyte : ∀ n < 256, (10 : UInt8) = UInt8.ofNat n → n = 10 := by
    intro n hn hten
    have htoNat := congrArg UInt8.toNat hten
    rw [UInt8.toNat_ofNat_of_lt' hn] at htoNat
    exact htoNat.symm
  unfold String.utf8EncodeChar at h
  dsimp only at h
  have hv : c.val.toNat = c.toNat := rfl
  rw [hv] at h
  split at h
  · -- One byte: the character itself.
    have hten : c.toNat = 10 := hbyte _ (by omega) (by simpa using h)
    exact Char.toNat_inj.mp hten
  · -- Several bytes, none of them below 128.
    exfalso
    split at h
    · simp only [List.mem_cons, List.not_mem_nil, or_false] at h
      rcases h with h | h
      all_goals
        have := hbyte _ (by omega) h
        omega
    · split at h
      · simp only [List.mem_cons, List.not_mem_nil, or_false] at h
        rcases h with h | h | h
        all_goals
          have := hbyte _ (by omega) h
          omega
      · simp only [List.mem_cons, List.not_mem_nil, or_false] at h
        rcases h with h | h | h | h
        all_goals
          have := hbyte _ (by omega) h
          omega

/-- A text without newlines has none in its encoding. -/
theorem newline_not_mem_as_bytes {s : String} (h : '\n' ∉ s.toList) : 10 ∉ as_bytes s := by
  intro hmem
  obtain ⟨c, hc, hbyte⟩ := List.mem_flatMap.mp hmem
  exact h (newline_of_mem_utf8 hbyte ▸ hc)

theorem as_bytes_injective {s t : String} (h : as_bytes s = as_bytes t) : s = t := by
  have hread := congrArg from_utf8 h
  rw [from_utf8_as_bytes, from_utf8_as_bytes] at hread
  exact Option.some.inj hread

/-- Two fields closed by a newline are equal if what is joined from them is, and so is the rest. -/
theorem field_unique {s t : String} {rest rest' : List UInt8} (hs : '\n' ∉ s.toList)
    (ht : '\n' ∉ t.toList) (h : as_bytes s ++ 10 :: rest = as_bytes t ++ 10 :: rest') :
    s = t ∧ rest = rest' := by
  have hfield : ∀ {bytes : List UInt8} (tail : List UInt8), 10 ∉ bytes →
      (bytes ++ 10 :: tail).takeWhile (· ≠ 10) = bytes := by
    intro bytes tail hbytes
    rw [List.takeWhile_append_of_pos fun b hb => by
      rw [decide_eq_true_eq]
      rintro rfl
      exact hbytes hb]
    simp
  have hbytes := congrArg (List.takeWhile (· ≠ 10)) h
  rw [hfield _ (newline_not_mem_as_bytes hs), hfield _ (newline_not_mem_as_bytes ht)] at hbytes
  rw [hbytes] at h
  exact ⟨as_bytes_injective hbytes, List.cons_inj_right 10 |>.mp (List.append_cancel_left h)⟩

/-- **The canonical string is unambiguous.** -/
theorem canonical_v1_payload_injective {method target timestamp method' target' timestamp' : String}
    {body body' : List UInt8} (hmethod : '\n' ∉ method.toList) (htarget : '\n' ∉ target.toList)
    (htimestamp : '\n' ∉ timestamp.toList) (hmethod' : '\n' ∉ method'.toList)
    (htarget' : '\n' ∉ target'.toList) (htimestamp' : '\n' ∉ timestamp'.toList)
    (h : canonical_v1_payload method target timestamp body =
      canonical_v1_payload method' target' timestamp' body') :
    method = method' ∧ target = target' ∧ timestamp = timestamp' ∧ body = body' := by
  unfold canonical_v1_payload at h
  simp only [List.append_assoc, List.cons_append] at h
  obtain ⟨hm, h⟩ := field_unique hmethod hmethod' h
  obtain ⟨ht, h⟩ := field_unique htarget htarget' h
  obtain ⟨hs, hbody⟩ := field_unique htimestamp htimestamp' h
  exact ⟨hm, ht, hs, hbody⟩

/-- A request and itself, and the two requests that plain concatenation would not tell apart. -/
theorem canonical_v1_payload_injective_boundary :
    ("POST" = "POST" ∧ "/api/ban" = "/api/ban" ∧ "1700000000" = "1700000000" ∧
      ([10, 10] : List UInt8) = [10, 10]) ∧
    canonical_v1_payload "POST" "/api/ban" "1700000000" [] ≠
      canonical_v1_payload "POS" "T/api/ban" "1700000000" [] := by
  refine ⟨canonical_v1_payload_injective (by decide) (by decide) (by decide) (by decide) (by decide)
    (by decide) rfl, fun h => ?_⟩
  have hsame := canonical_v1_payload_injective (by decide) (by decide) (by decide) (by decide)
    (by decide) (by decide) h
  exact absurd hsame.1 (by decide)

/-! ## The header -/

/-- The value of the header is the prefix and, after any whitespace, the digits of the digest. -/
def Spells (env : Env) (provided : String) (digest : List UInt8) : Prop :=
  ∃ blanks digits : String, Text.trim provided = SIGNATURE_PREFIX ++ (blanks ++ digits) ∧
    (∀ c ∈ blanks.toList, Text.is_whitespace c = true) ∧
      Text.to_ascii_lowercase digits = env.hex_encode digest

section Header

variable {env : Env} {secret method target timestamp provided : String} {body digest : List UInt8}

/-- A spelling of digits has no whitespace. -/
theorem not_whitespace_of_spelling {digits : String}
    (h : Text.to_ascii_lowercase digits = Hex.encode digest) :
    ∀ c ∈ digits.toList, Text.is_whitespace c = false := by
  intro c hc
  have hlower : Text.asciiLower c ∈ (Hex.encode digest).toList := by
    rw [← h, Text.to_ascii_lowercase, String.toList_ofList]
    exact List.mem_map_of_mem hc
  have hblank := Hex.not_whitespace_encode hlower
  by_cases hupper : 'A' ≤ c ∧ c ≤ 'Z'
  · have hcode : 65 ≤ c.toNat ∧ c.toNat ≤ 90 := hupper
    simp only [Text.is_whitespace, Bool.or_eq_false_iff, Bool.and_eq_false_iff,
      decide_eq_false_iff_not, beq_eq_false_iff_ne]
    omega
  · rwa [Text.asciiLower, if_neg hupper] at hblank

/-- The bytes the header carries are those it spells. -/
theorem carries_iff_spells (hhex : env.HexCrate) :
    ((Text.strip_prefix (Text.trim provided) SIGNATURE_PREFIX).bind fun hex =>
      env.hex_decode (Text.trim hex)) = some digest ↔ Spells env provided digest := by
  unfold Spells
  rw [Option.bind_eq_some_iff, hhex.encode, hhex.decode]
  constructor
  · rintro ⟨rest, hrest, hdecode⟩
    have hwhole := Text.strip_prefix_eq_some_iff.mp hrest
    obtain ⟨blanks, hblanks, heq⟩ := Text.eq_blanks_append_trim hwhole
    exact ⟨blanks, Text.trim rest, heq ▸ hwhole, hblanks, Hex.decode_eq_some_iff.mp hdecode⟩
  · rintro ⟨blanks, digits, hwhole, hblanks, hdigits⟩
    refine ⟨blanks ++ digits, Text.strip_prefix_eq_some_iff.mpr hwhole, ?_⟩
    rw [Text.trim_blanks_append hblanks (not_whitespace_of_spelling hdigits)]
    exact Hex.decode_eq_some_iff.mpr hdigits

/-- A header is accepted if it spells the HMAC of the request. -/
theorem verify_signature_eq_some_iff (hhex : env.HexCrate) :
    verify_signature env secret method target timestamp body provided = some digest ↔
      Spells env provided digest ∧ digest = env.hmac_sha256 (as_bytes secret)
        (canonical_v1_payload method target timestamp body) := by
  have hverify : verify_signature env secret method target timestamp body provided =
      ((Text.strip_prefix (Text.trim provided) SIGNATURE_PREFIX).bind fun hex =>
        env.hex_decode (Text.trim hex)).bind fun bytes =>
          if bytes = env.hmac_sha256 (as_bytes secret)
            (canonical_v1_payload method target timestamp body) then some bytes else none := by
    unfold verify_signature
    rw [Option.bind_assoc]
    rfl
  rw [hverify, Option.bind_eq_some_iff]
  constructor
  · rintro ⟨bytes, hcarries, hbranch⟩
    obtain ⟨hmac, hsome⟩ := Option.ite_none_right_eq_some.mp hbranch
    obtain rfl := Option.some.inj hsome
    exact ⟨(carries_iff_spells hhex).mp hcarries, hmac⟩
  · rintro ⟨hspells, hmac⟩
    exact ⟨digest, (carries_iff_spells hhex).mpr hspells, by rw [if_pos hmac]⟩

/-- What `compute_signature` makes spells its digest. -/
theorem spells_computed (hhex : env.HexCrate) (digest : List UInt8) :
    Spells env (SIGNATURE_PREFIX ++ env.hex_encode digest) digest := by
  rw [Spells, hhex.encode]
  refine ⟨"", Hex.encode digest, ?_, by simp, Hex.decode_eq_some_iff.mp (Hex.decode_encode digest)⟩
  rw [String.empty_append]
  refine Text.trim_eq_self fun c hc => ?_
  rw [String.toList_append] at hc
  rcases List.mem_append.mp hc with hlead | hdigit
  · have all : SIGNATURE_PREFIX.toList.all (fun c => !Text.is_whitespace c) = true := by decide
    exact (Bool.not_eq_true' _).mp (List.all_eq_true.mp all c hlead)
  · exact Hex.not_whitespace_encode hdigit

/-- A header spells at most one digest. -/
theorem Spells.unique (hhex : env.HexCrate) {digest' : List UInt8}
    (h : Spells env provided digest) (h' : Spells env provided digest') : digest = digest' := by
  rw [← carries_iff_spells hhex] at h h'
  exact Option.some.inj (h.symm.trans h')

end Header

/-- **Exactly the spellings of the HMAC are accepted**, the computed one among them, and all of them as
the same bytes. -/
theorem signatures_exact {env : Env} (hhex : env.HexCrate) (secret method target timestamp : String)
    (body : List UInt8) :
    (∃ header, compute_signature env secret method target timestamp body = .ok header ∧
      verify_signature env secret method target timestamp body header =
        some (env.hmac_sha256 (as_bytes secret)
          (canonical_v1_payload method target timestamp body))) ∧
    (∀ provided digest,
      verify_signature env secret method target timestamp body provided = some digest ↔
        Spells env provided digest ∧ digest = env.hmac_sha256 (as_bytes secret)
          (canonical_v1_payload method target timestamp body)) ∧
    (∀ provided provided' digest digest',
      verify_signature env secret method target timestamp body provided = some digest →
      verify_signature env secret method target timestamp body provided' = some digest' →
        digest = digest') := by
  refine ⟨⟨_, rfl, ?_⟩, fun provided digest => verify_signature_eq_some_iff hhex, ?_⟩
  · rw [verify_signature_eq_some_iff hhex]
    exact ⟨spells_computed hhex _, rfl⟩
  · intro provided provided' digest digest' h h'
    rw [verify_signature_eq_some_iff hhex] at h h'
    exact h.2.trans h'.2.symm

/-- A signature in capitals, behind a blank, is the one that is computed. -/
theorem signatures_exact_capitals :
    (∀ provided digest,
      verify_signature .tagging "s3cret" "GET" "/api/auth/me" "1000" [] provided = some digest ↔
        Spells .tagging provided digest ∧ digest = Env.tagging.hmac_sha256 (as_bytes "s3cret")
          (canonical_v1_payload "GET" "/api/auth/me" "1000" [])) ∧
    verify_signature .tagging "s3cret" "GET" "/api/auth/me" "1000" []
        " sha256= 3C5CDD1DBCFE1C6E62198A33A113FF25177A49737CBA2125C9C0C33A61463215 " =
      (compute_signature .tagging "s3cret" "GET" "/api/auth/me" "1000" []).toOption.bind
        (verify_signature .tagging "s3cret" "GET" "/api/auth/me" "1000" []) :=
  ⟨(signatures_exact ⟨rfl, rfl⟩ "s3cret" "GET" "/api/auth/me" "1000" []).2.1, by decide +kernel⟩

end IpVault.Crypto
