import IpVault.Auth.Canary

set_option autoImplicit false

/-! # Secrets at rest come back, or nothing does

What `seal` writes, `open` reads back under the cipher it was written under, and a plaintext row under
every cipher. Whatever is in neither format is an error. A sealed row opens under its own key alone;
with other bytes in it, it is another row, and opens if that row is one the key seals.
-/

namespace IpVault

open Lib Crypto

/-- `SecretCipher::from_env`: no key, or any key. -/
def Configured {Key : Type} (aead : Key → Aead) (env : Env) : Prop :=
  env.cipher = .Plaintext ∨ ∃ key, env.cipher = .Sealed (aead key)

/-- What `XChaCha20Poly1305` promises of its keys: what one has sealed no other opens. -/
def Authentic {Key : Type} (aead : Key → Aead) : Prop :=
  ∀ key other nonce plaintext ciphertext, (aead key).encrypt nonce plaintext = some ciphertext →
    other ≠ key → (aead other).decrypt nonce ciphertext = none

/-- And of what a key opens: it is what that key makes of the plaintext under the nonce. -/
def Genuine (K : Aead) : Prop :=
  ∀ nonce plaintext ciphertext, K.decrypt nonce ciphertext = some plaintext →
    K.encrypt nonce plaintext = some ciphertext

/-- The first stored format. -/
def PlaintextFormat (env : Env) (stored secret : String) : Prop :=
  ∃ encoded, stored = PLAINTEXT_PREFIX ++ encoded ∧ env.hex_decode encoded = some (as_bytes secret)

/-- The second stored format. -/
def SealedFormat (env : Env) (stored : String) : Prop :=
  ∃ body nonce ciphertext, stored = SEALED_PREFIX ++ body ∧ SealedBody env body nonce ciphertext

section AtRest

variable {K : Aead} {env : Env} {nonce ciphertext : List UInt8} {secret stored : String}

theorem Env.HexCrate.under (hhex : env.HexCrate) (cipher : SecretCipher) : (env.under cipher).HexCrate :=
  ⟨hhex.encode, hhex.decode⟩

/-- A plaintext row opens to its secret, whatever the cipher. -/
theorem open_plaintext_row (hhex : env.HexCrate) (cipher : SecretCipher) :
    open_secret (env.under cipher) (PLAINTEXT_PREFIX ++ env.hex_encode (as_bytes secret)) =
      .ok secret := by
  refine open_plaintext_iff.mpr ?_
  show env.hex_decode (env.hex_encode (as_bytes secret)) = some (as_bytes secret)
  rw [hhex.encode, hhex.decode, Hex.decode_encode]

/-- A row opens under the key that has sealed it. -/
theorem open_sealed_row (hhex : env.HexCrate) (hlossless : K.Lossless) (hnonce : nonce.length = NONCE_LEN)
    (h : seal_secret (env.under (.Sealed K)) nonce secret = .ok stored) :
    open_secret (env.under (.Sealed K)) stored = .ok secret := by
  obtain ⟨made, hmade, rfl⟩ := (seal_sealed_iff rfl).mp h
  exact (open_sealed_row_iff (hhex.under _)).mpr ⟨hnonce, K, rfl, hlossless _ _ _ hmade⟩

/-- **The rows a key opens are those it seals.** -/
theorem open_row_iff (hhex : env.HexCrate) (hlossless : K.Lossless) (hgenuine : Genuine K) :
    open_secret (env.under (.Sealed K)) (sealed_row env nonce ciphertext) = .ok secret ↔
      nonce.length = NONCE_LEN ∧
        seal_secret (env.under (.Sealed K)) nonce secret = .ok (sealed_row env nonce ciphertext) := by
  constructor
  · intro h
    obtain ⟨hlen, cipher, hcipher, hdecrypt⟩ := (open_sealed_row_iff (hhex.under _)).mp h
    obtain rfl := SecretCipher.Sealed.inj hcipher
    exact ⟨hlen, (seal_sealed_iff rfl).mpr ⟨ciphertext, hgenuine _ _ _ hdecrypt, rfl⟩⟩
  · rintro ⟨hlen, h⟩
    exact open_sealed_row hhex hlossless hlen h

/-- A sealed row does not open without a key. -/
theorem not_opens_keyless (hhex : env.HexCrate) : ¬ Opens (env.under .Plaintext)
    (sealed_row env nonce ciphertext) := by
  rintro ⟨secret, h⟩
  obtain ⟨-, cipher, hcipher, -⟩ := (open_sealed_row_iff (hhex.under _)).mp h
  cases hcipher

/-- Nor under a key that rejects its bytes. -/
theorem not_opens_other (hhex : env.HexCrate) (h : K.decrypt nonce ciphertext = none) :
    ¬ Opens (env.under (.Sealed K)) (sealed_row env nonce ciphertext) := by
  rintro ⟨secret', h'⟩
  obtain ⟨-, cipher, hcipher, hdecrypt⟩ := (open_sealed_row_iff (hhex.under _)).mp h'
  obtain rfl := SecretCipher.Sealed.inj hcipher
  rw [h] at hdecrypt
  cases hdecrypt

/-- What opens was written in one of the two formats. -/
theorem format_of_open {cipher : SecretCipher}
    (h : open_secret (env.under cipher) stored = .ok secret) :
    PlaintextFormat env stored secret ∨ SealedFormat env stored := by
  cases hplain : Text.strip_prefix stored PLAINTEXT_PREFIX with
  | some encoded =>
      obtain rfl := Text.strip_prefix_eq_some_iff.mp hplain
      have hread : (env.under cipher).hex_decode encoded = some (as_bytes secret) :=
        open_plaintext_iff.mp h
      exact .inl ⟨encoded, rfl, hread⟩
  | none =>
      cases hsealed : Text.strip_prefix stored SEALED_PREFIX with
      | none =>
          rw [open_unprefixed hplain hsealed] at h
          cases h
      | some body =>
          obtain rfl := Text.strip_prefix_eq_some_iff.mp hsealed
          obtain ⟨nonce, ciphertext, -, hbody, -⟩ := open_sealed_iff.mp h
          have hread : SealedBody env body nonce ciphertext := hbody
          exact .inr ⟨body, nonce, ciphertext, rfl, hread⟩

end AtRest

/-- **Secrets at rest come back, or nothing does.** -/
theorem secrets_at_rest {Key : Type} {aead : Key → Aead} {env : Env} (hhex : env.HexCrate)
    (hlossless : ∀ key, (aead key).Lossless) :
    (∀ cipher, Configured aead (env.under cipher) → ∀ nonce secret stored,
      nonce.length = NONCE_LEN → seal_secret (env.under cipher) nonce secret = .ok stored →
        open_secret (env.under cipher) stored = .ok secret) ∧
    (∀ cipher nonce secret, ∃ stored,
      seal_secret (env.under .Plaintext) nonce secret = .ok stored ∧
        open_secret (env.under cipher) stored = .ok secret) ∧
    (∀ cipher stored secret, open_secret (env.under cipher) stored = .ok secret →
      PlaintextFormat env stored secret ∨ SealedFormat env stored) ∧
    (∀ cipher stored, Text.strip_prefix stored PLAINTEXT_PREFIX = none →
      Text.strip_prefix stored SEALED_PREFIX = none →
        open_secret (env.under cipher) stored = .error .MalformedCiphertext) ∧
    (∀ key nonce secret stored, nonce.length = NONCE_LEN →
      seal_secret (env.under (.Sealed (aead key))) nonce secret = .ok stored →
        ¬ Opens (env.under .Plaintext) stored ∧
          (Authentic aead → ∀ other, other ≠ key →
            ¬ Opens (env.under (.Sealed (aead other))) stored)) ∧
    (∀ key, Genuine (aead key) → ∀ nonce ciphertext secret,
      open_secret (env.under (.Sealed (aead key))) (sealed_row env nonce ciphertext) = .ok secret ↔
        nonce.length = NONCE_LEN ∧ seal_secret (env.under (.Sealed (aead key))) nonce secret =
          .ok (sealed_row env nonce ciphertext)) := by
  refine ⟨?_, fun cipher nonce secret => ⟨_, rfl, open_plaintext_row hhex cipher⟩,
    fun cipher stored secret h => format_of_open h,
    fun cipher stored hplain hsealed => open_unprefixed hplain hsealed, ?_,
    fun key hgenuine nonce ciphertext secret => open_row_iff hhex (hlossless key) hgenuine⟩
  · rintro cipher (rfl | ⟨key, rfl⟩) nonce secret stored hnonce h
    · obtain rfl : PLAINTEXT_PREFIX ++ env.hex_encode (as_bytes secret) = stored := Except.ok.inj h
      exact open_plaintext_row hhex .Plaintext
    · exact open_sealed_row hhex (hlossless key) hnonce h
  · intro key nonce secret stored _ h
    obtain ⟨ciphertext, hmade, rfl⟩ := (seal_sealed_iff rfl).mp h
    refine ⟨not_opens_keyless hhex, fun hauthentic other hother => ?_⟩
    exact not_opens_other hhex (hauthentic key other _ _ _ hmade hother)

theorem authentic_tagging_aead : Authentic tagging_aead := fun _ _ _ _ _ h hother =>
  tagging_aead_rejects hother h

/-- The cipher small enough to evaluate is genuine. -/
theorem genuine_tagging_aead (key : UInt8) : Genuine (tagging_aead key) := by
  intro nonce plaintext ciphertext h
  unfold tagging_aead at h
  obtain ⟨hlast, hplain⟩ := Option.ite_none_right_eq_some.mp h
  obtain rfl := Option.some.inj hplain
  show some (ciphertext.dropLast ++ [key]) = some ciphertext
  rw [List.dropLast_append_getLast? key hlast]

/-- The row of the secret `s` under the key 7 opens under that key, and not under the key 9. -/
theorem secrets_at_rest_sample :
    open_secret (Env.tagging.under (.Sealed (tagging_aead 7))) sealed_s = .ok "s" ∧
      ¬ Opens (Env.tagging.under (.Sealed (tagging_aead 9))) sealed_s := by
  obtain ⟨hcomes, -, -, -, hfails, -⟩ :=
    @secrets_at_rest UInt8 tagging_aead .tagging ⟨rfl, rfl⟩ lossless_tagging_aead
  have hseals : seal_secret (Env.tagging.under (.Sealed (tagging_aead 7))) (List.replicate NONCE_LEN 0)
      "s" = .ok sealed_s := by decide
  refine ⟨hcomes _ (.inr ⟨7, rfl⟩) _ "s" sealed_s (by decide) hseals, ?_⟩
  exact (hfails 7 _ "s" sealed_s (by decide) hseals).2 authentic_tagging_aead 9 (by decide)

/-- With the nonce and the ciphertext of another row, a row opens. -/
theorem opens_with_other_bytes :
    ¬ ∀ (Key : Type) (aead : Key → Aead) (env : Env), env.HexCrate →
      (∀ key, (aead key).Lossless ∧ Genuine (aead key)) → Authentic aead →
      ∀ key nonce ciphertext secret, nonce.length = NONCE_LEN →
        seal_secret (env.under (.Sealed (aead key))) nonce secret =
          .ok (sealed_row env nonce ciphertext) →
        ∀ nonce' ciphertext', (nonce', ciphertext') ≠ (nonce, ciphertext) →
          ¬ Opens (env.under (.Sealed (aead key))) (sealed_row env nonce' ciphertext') := by
  intro hall
  refine hall UInt8 tagging_aead .tagging ⟨rfl, rfl⟩
    (fun key => ⟨lossless_tagging_aead key, genuine_tagging_aead key⟩) authentic_tagging_aead 7
    (List.replicate NONCE_LEN 0) [115, 7] "s" (by decide) (by decide)
    (List.replicate NONCE_LEN 1) [116, 7] (by decide) ⟨"t", ?_⟩
  exact (open_row_iff ⟨rfl, rfl⟩ (lossless_tagging_aead 7) (genuine_tagging_aead 7)).mpr
    ⟨by decide, by decide⟩

end IpVault
