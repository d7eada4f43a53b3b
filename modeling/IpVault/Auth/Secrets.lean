import IpVault.Crypto
import IpVault.Lib.Hex

set_option autoImplicit false

/-! # What `seal` writes and `open` reads (`SecretCipher` in `crypto.rs`)

There are two stored formats. A value in the first opens to the text its digits spell
(`open_plaintext_iff`); one in the second to what the configured cipher makes of its nonce and its
ciphertext (`open_sealed_iff`).
-/

namespace IpVault

open Lib

/-- The `hex` crate. -/
structure Env.HexCrate (env : Env) : Prop where
  encode : env.hex_encode = Hex.encode
  decode : env.hex_decode = Hex.decode

namespace Crypto

/-! ## Texts as bytes -/

/-- The encoding is that of Lean's strings. -/
theorem as_bytes_toByteArray (s : String) : (⟨(as_bytes s).toArray⟩ : ByteArray) = s.toByteArray := by
  rw [← String.utf8Encode_toList]
  unfold as_bytes List.utf8Encode
  ext1
  simp

/-- What is encoded is valid UTF-8 and decodes to itself. -/
theorem from_utf8_as_bytes (s : String) : from_utf8 (as_bytes s) = some s := by
  unfold from_utf8
  rw [as_bytes_toByteArray]
  unfold String.fromUTF8?
  rw [dif_pos s.isValidUTF8]
  rfl

/-- What reads as a text is its encoding. -/
theorem from_utf8_eq_some_iff {bytes : List UInt8} {s : String} :
    from_utf8 bytes = some s ↔ bytes = as_bytes s := by
  constructor
  · intro h
    unfold from_utf8 String.fromUTF8? at h
    split at h
    · obtain rfl := Option.some.inj h
      have hbytes := as_bytes_toByteArray (String.fromUTF8 ⟨bytes.toArray⟩ ‹_›)
      exact (congrArg (fun b => b.data.toList) hbytes).symm
    · cases h
  · rintro rfl
    exact from_utf8_as_bytes s

/-! ## Prefixes and dots -/

theorem dropPrefix_append (p cs : List Char) : Text.dropPrefix p (p ++ cs) = some cs :=
  Text.dropPrefix_eq_some_iff.mpr rfl

theorem strip_prefix_append (p s : String) : Text.strip_prefix (p ++ s) p = some s :=
  Text.strip_prefix_eq_some_iff.mpr rfl

/-- A sealed value does not look like a plaintext one. -/
theorem strip_plaintext_sealed (s : String) :
    Text.strip_prefix (SEALED_PREFIX ++ s) PLAINTEXT_PREFIX = none := by
  unfold Text.strip_prefix
  rw [String.toList_append]
  rfl

theorem starts_with_sealed (s : String) :
    Text.starts_with (SEALED_PREFIX ++ s) SEALED_PREFIX = true := by
  unfold Text.starts_with
  rw [String.toList_append, dropPrefix_append]
  rfl

theorem starts_with_plaintext (s : String) :
    Text.starts_with (PLAINTEXT_PREFIX ++ s) SEALED_PREFIX = false := by
  unfold Text.starts_with
  rw [String.toList_append]
  rfl

theorem split_once_append {a b : String} (ha : '.' ∉ a.toList) :
    split_once (a ++ "." ++ b) = some (a, b) := by
  have hspan : ((a ++ "." ++ b).toList.span (· ≠ '.')) = (a.toList, '.' :: b.toList) := by
    rw [String.toList_append, String.toList_append, List.span_eq_takeWhile_dropWhile,
      List.append_assoc]
    have hall : ∀ c ∈ a.toList, (decide (c ≠ '.')) = true := by
      intro c hc
      rw [decide_eq_true_eq]
      rintro rfl
      exact ha hc
    rw [List.takeWhile_append_of_pos hall, List.dropWhile_append_of_pos hall]
    show (a.toList ++ List.takeWhile _ ('.' :: b.toList), List.dropWhile _ ('.' :: b.toList)) = _
    rw [List.takeWhile_cons_of_neg (by simp), List.dropWhile_cons_of_neg (by simp), List.append_nil]
  unfold split_once
  rw [hspan]
  simp only [String.ofList_toList]

/-- A text splits at its first dot. -/
theorem split_once_eq_some_iff {s a b : String} :
    split_once s = some (a, b) ↔ s = a ++ "." ++ b ∧ '.' ∉ a.toList := by
  constructor
  · intro h
    unfold split_once at h
    rw [List.span_eq_takeWhile_dropWhile] at h
    have hsplit := List.takeWhile_append_dropWhile (p := fun c => decide (c ≠ '.')) (l := s.toList)
    have hfront : '.' ∉ s.toList.takeWhile fun c => decide (c ≠ '.') := fun hmem =>
      absurd (List.mem_takeWhile_imp hmem) (by simp)
    cases hrest : s.toList.dropWhile fun c => decide (c ≠ '.') with
    | nil =>
        rw [hrest] at h
        cases h
    | cons c rest =>
        have hdot : ¬ decide (c ≠ '.') = true := by
          have hhead := List.head?_dropWhile_not (fun c => decide (c ≠ '.')) s.toList
          rw [hrest] at hhead
          simpa using hhead
        obtain rfl : c = '.' := by simpa using hdot
        rw [hrest] at h hsplit
        obtain ⟨rfl, rfl⟩ := Prod.mk.inj (Option.some.inj h)
        rw [String.toList_ofList]
        refine ⟨?_, hfront⟩
        rw [← String.toList_inj]
        simp only [String.toList_append, String.toList_ofList, List.append_assoc]
        exact hsplit.symm
  · rintro ⟨rfl, ha⟩
    exact split_once_append ha

/-! ## The two formats -/

/-- A value that is there, and what is done with it. -/
theorem or_malformed_bind_ok_iff {α β : Type} {o : Option α} {f : α → Except CryptoError β} {b : β} :
    (or_malformed o >>= f) = .ok b ↔ ∃ a, o = some a ∧ f a = .ok b := by
  cases o <;> simp [or_malformed, Bind.bind, Except.bind]

theorem read_secret_iff {bytes : List UInt8} {secret : String} :
    or_malformed (from_utf8 bytes) = .ok secret ↔ bytes = as_bytes secret := by
  rw [← from_utf8_eq_some_iff]
  cases from_utf8 bytes <;> simp [or_malformed]

/-- The text behind the prefix of a sealed value: a nonce and a ciphertext in hexadecimal, with a dot
between them. -/
def SealedBody (env : Env) (body : String) (nonce ciphertext : List UInt8) : Prop :=
  ∃ nonce_hex ciphertext_hex, body = nonce_hex ++ "." ++ ciphertext_hex ∧
    '.' ∉ nonce_hex.toList ∧ env.hex_decode nonce_hex = some nonce ∧ nonce.length = NONCE_LEN ∧
      env.hex_decode ciphertext_hex = some ciphertext

section Opening

variable {env : Env} {secret : String}

theorem open_plaintext_iff {encoded : String} :
    open_secret env (PLAINTEXT_PREFIX ++ encoded) = .ok secret ↔
      env.hex_decode encoded = some (as_bytes secret) := by
  unfold open_secret
  rw [strip_prefix_append]
  dsimp only
  rw [or_malformed_bind_ok_iff]
  constructor
  · rintro ⟨bytes, hbytes, hsecret⟩
    rw [hbytes, read_secret_iff.mp hsecret]
  · intro hbytes
    exact ⟨_, hbytes, read_secret_iff.mpr rfl⟩

theorem open_sealed_iff {body : String} :
    open_secret env (SEALED_PREFIX ++ body) = .ok secret ↔
      ∃ nonce ciphertext cipher, SealedBody env body nonce ciphertext ∧
        env.cipher = .Sealed cipher ∧ cipher.decrypt nonce ciphertext = some (as_bytes secret) := by
  unfold open_secret SealedBody
  rw [strip_plaintext_sealed, strip_prefix_append]
  dsimp only
  rw [or_malformed_bind_ok_iff]
  constructor
  · rintro ⟨⟨nonce_hex, ciphertext_hex⟩, hsplit, h⟩
    obtain ⟨hbody, hdot⟩ := split_once_eq_some_iff.mp hsplit
    obtain ⟨nonce, hnonce, h⟩ := or_malformed_bind_ok_iff.mp h
    by_cases hlen : nonce.length = NONCE_LEN
    · rw [if_neg (not_not.mpr hlen)] at h
      obtain ⟨ciphertext, hct, h⟩ := or_malformed_bind_ok_iff.mp h
      cases hcipher : env.cipher with
      | Plaintext =>
          rw [hcipher] at h
          cases h
      | Sealed cipher =>
          simp only [hcipher] at h
          cases hdecrypt : cipher.decrypt nonce ciphertext with
          | none =>
              simp only [hdecrypt] at h
              cases h
          | some plaintext =>
              simp only [hdecrypt] at h
              exact ⟨nonce, ciphertext, cipher,
                ⟨nonce_hex, ciphertext_hex, hbody, hdot, hnonce, hlen, hct⟩, rfl,
                by rw [hdecrypt, read_secret_iff.mp h]⟩
    · rw [if_pos hlen] at h
      cases h
  · rintro ⟨nonce, ciphertext, cipher, ⟨nonce_hex, ciphertext_hex, hbody, hdot, hnonce, hlen, hct⟩,
      hcipher, hdecrypt⟩
    refine ⟨(nonce_hex, ciphertext_hex), split_once_eq_some_iff.mpr ⟨hbody, hdot⟩, ?_⟩
    refine or_malformed_bind_ok_iff.mpr ⟨nonce, hnonce, ?_⟩
    rw [if_neg (not_not.mpr hlen)]
    refine or_malformed_bind_ok_iff.mpr ⟨ciphertext, hct, ?_⟩
    simp only [hcipher, hdecrypt]
    exact read_secret_iff.mpr rfl

/-- Nothing opens that has neither prefix. -/
theorem open_unprefixed {stored : String} (hplain : Text.strip_prefix stored PLAINTEXT_PREFIX = none)
    (hsealed : Text.strip_prefix stored SEALED_PREFIX = none) :
    open_secret env stored = .error .MalformedCiphertext := by
  unfold open_secret
  rw [hplain, hsealed]

/-- The value that `seal` writes for a nonce and a ciphertext. -/
def sealed_row (env : Env) (nonce ciphertext : List UInt8) : String :=
  SEALED_PREFIX ++ (env.hex_encode nonce ++ "." ++ env.hex_encode ciphertext)

/-- Its body reads in one way: as these bytes, if there are as many of the nonce as there should be. -/
theorem sealedBody_row_iff (hhex : env.HexCrate) {nonce ciphertext n c : List UInt8} :
    SealedBody env (env.hex_encode nonce ++ "." ++ env.hex_encode ciphertext) n c ↔
      n = nonce ∧ c = ciphertext ∧ nonce.length = NONCE_LEN := by
  have hdot : '.' ∉ (env.hex_encode nonce).toList := by
    rw [hhex.encode]
    exact Hex.not_mem_encode (by decide) nonce
  have hread : ∀ bytes, env.hex_decode (env.hex_encode bytes) = some bytes := by
    intro bytes
    rw [hhex.encode, hhex.decode, Hex.decode_encode]
  constructor
  · rintro ⟨nonce_hex, ciphertext_hex, hbody, hdot', hn, hlen, hc⟩
    have hsplit := split_once_append (b := env.hex_encode ciphertext) hdot
    have hsplit' := split_once_eq_some_iff.mpr ⟨hbody, hdot'⟩
    obtain ⟨rfl, rfl⟩ := Prod.mk.inj (Option.some.inj (hsplit.symm.trans hsplit'))
    obtain rfl := Option.some.inj ((hread nonce).symm.trans hn)
    obtain rfl := Option.some.inj ((hread ciphertext).symm.trans hc)
    exact ⟨rfl, rfl, hlen⟩
  · rintro ⟨rfl, rfl, hlen⟩
    exact ⟨_, _, rfl, hdot, hread _, hlen, hread _⟩

/-- A sealed row opens to what the configured cipher decrypts it to. -/
theorem open_sealed_row_iff (hhex : env.HexCrate) {nonce ciphertext : List UInt8} :
    open_secret env (sealed_row env nonce ciphertext) = .ok secret ↔
      nonce.length = NONCE_LEN ∧ ∃ cipher, env.cipher = .Sealed cipher ∧
        cipher.decrypt nonce ciphertext = some (as_bytes secret) := by
  unfold sealed_row
  rw [open_sealed_iff]
  simp only [sealedBody_row_iff hhex]
  constructor
  · rintro ⟨n, c, cipher, ⟨rfl, rfl, hlen⟩, hcipher, hdecrypt⟩
    exact ⟨hlen, cipher, hcipher, hdecrypt⟩
  · rintro ⟨hlen, cipher, hcipher, hdecrypt⟩
    exact ⟨nonce, ciphertext, cipher, ⟨rfl, rfl, hlen⟩, hcipher, hdecrypt⟩

/-- A row tells its bytes. -/
theorem sealed_row_injective (hhex : env.HexCrate) {nonce nonce' ciphertext ciphertext' : List UInt8}
    (hnonce : nonce.length = NONCE_LEN)
    (h : sealed_row env nonce ciphertext = sealed_row env nonce' ciphertext') :
    nonce = nonce' ∧ ciphertext = ciphertext' := by
  have hbody := congrArg (Text.strip_prefix · SEALED_PREFIX) h
  simp only [sealed_row, strip_prefix_append, Option.some.injEq] at hbody
  have hrow := (sealedBody_row_iff (c := ciphertext) hhex).mpr ⟨rfl, rfl, hnonce⟩
  rw [hbody, sealedBody_row_iff hhex] at hrow
  exact ⟨hrow.1, hrow.2.1⟩

/-- What `seal` writes under a key. -/
theorem seal_sealed_iff {cipher : Aead} (hcipher : env.cipher = .Sealed cipher)
    {nonce : List UInt8} {stored : String} :
    seal_secret env nonce secret = .ok stored ↔
      ∃ ciphertext, cipher.encrypt nonce (as_bytes secret) = some ciphertext ∧
        stored = sealed_row env nonce ciphertext := by
  unfold seal_secret sealed_row
  simp only [hcipher]
  cases cipher.encrypt nonce (as_bytes secret) with
  | none => simp
  | some ciphertext => simp [String.append_assoc, eq_comm]

end Opening

end Crypto

end IpVault
