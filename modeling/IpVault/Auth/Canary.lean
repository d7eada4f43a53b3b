import IpVault.Auth.Bootstrap
import IpVault.Auth.Secrets

set_option autoImplicit false

/-! # The key canary (`check_key_canary` in `crypto.rs`, `verify_encryption_key` in `main.rs`)

At every start one stored signing secret is opened with the configured cipher. What was stored in
plaintext opens under every cipher, so that a plaintext row says nothing about the sealed ones. The
check speaks for the whole table if the row it happens to sample is sealed.
-/

namespace IpVault

open Lib

namespace Crypto

/-! ## The canary -/

/-- `KeyCanary`. -/
inductive KeyCanary where
  | NoSealedSecrets
  | Verified
  deriving DecidableEq

/-- `check_key_canary`. -/
def check_key_canary (env : Env) (sample : Option String) : Except CryptoError KeyCanary :=
  match sample with
  | none => .ok .NoSealedSecrets
  | some stored => do
      let _ ← open_secret env stored
      .ok .Verified

end Crypto

/-- The row `verify_encryption_key` samples: the first with a signing secret. -/
def canary_sample (keys : Table ApiKey.id) : Option String :=
  (keys.rows.find? fun k => k.signing_secret.isSome).bind ApiKey.signing_secret

/-- `verify_encryption_key`. -/
def verify_encryption_key (env : Env) (keys : Table ApiKey.id) :
    Except Crypto.CryptoError Crypto.KeyCanary :=
  Crypto.check_key_canary env (canary_sample keys)

/-! ## Secrets by the way they were written -/

/-- The environment under another cipher. -/
def Env.under (env : Env) (cipher : SecretCipher) : Env := { env with cipher }

/-- The stored value was written by `seal`: in plaintext mode, or under the key of `K`. -/
inductive WrittenBySeal (env : Env) (K : Aead) : String → Prop
  | plaintext (nonce : List UInt8) (secret stored : String)
      (h : Crypto.seal_secret (env.under .Plaintext) nonce secret = .ok stored) :
      WrittenBySeal env K stored
  | sealed (nonce : List UInt8) (hnonce : nonce.length = Crypto.NONCE_LEN) (secret stored : String)
      (h : Crypto.seal_secret (env.under (.Sealed K)) nonce secret = .ok stored) :
      WrittenBySeal env K stored

/-- What a key has sealed, it opens. -/
def Aead.Lossless (K : Aead) : Prop :=
  ∀ nonce plaintext ciphertext, K.encrypt nonce plaintext = some ciphertext →
    K.decrypt nonce ciphertext = some plaintext

/-- Every signing secret of the table was written by `seal`. -/
def SealedTable (env : Env) (K : Aead) (keys : Table ApiKey.id) : Prop :=
  ∀ k ∈ keys, ∀ stored, k.signing_secret = some stored → WrittenBySeal env K stored

/-- A configured key that is not `K` opens no sealed secret of the table. -/
def RejectsTable (env : Env) (K : Aead) (keys : Table ApiKey.id) : Prop :=
  ∀ k ∈ keys, ∀ nonce ciphertext, k.signing_secret = some (Crypto.sealed_row env nonce ciphertext) →
    ∀ C, env.cipher = .Sealed C → C ≠ K → C.decrypt nonce ciphertext = none

/-- The stored value opens. -/
def Opens (env : Env) (stored : String) : Prop := ∃ secret, Crypto.open_secret env stored = .ok secret

/-- The stored value is sealed. -/
def is_sealed (stored : String) : Bool := Text.starts_with stored Crypto.SEALED_PREFIX

section Canary

variable {env : Env} {K : Aead} {keys : Table ApiKey.id}

theorem opens_plaintext (hhex : env.HexCrate) {nonce : List UInt8} {secret stored : String}
    (h : Crypto.seal_secret (env.under .Plaintext) nonce secret = .ok stored) :
    Opens env stored ∧ is_sealed stored = false := by
  obtain rfl : Crypto.PLAINTEXT_PREFIX ++ env.hex_encode (Crypto.as_bytes secret) = stored :=
    Except.ok.inj h
  refine ⟨⟨secret, Crypto.open_plaintext_iff.mpr ?_⟩, Crypto.starts_with_plaintext _⟩
  rw [hhex.encode, hhex.decode, Hex.decode_encode]

theorem is_sealed_row (nonce ciphertext : List UInt8) :
    is_sealed (Crypto.sealed_row env nonce ciphertext) = true :=
  Crypto.starts_with_sealed _

/-- A sealed value opens under the configured cipher if that is the one it was sealed under. -/
theorem opens_sealed_iff (hhex : env.HexCrate) (hlossless : K.Lossless) {nonce ciphertext : List UInt8}
    (hrejects : ∀ C, env.cipher = .Sealed C → C ≠ K → C.decrypt nonce ciphertext = none)
    (hnonce : nonce.length = Crypto.NONCE_LEN) {secret : String}
    (h : K.encrypt nonce (Crypto.as_bytes secret) = some ciphertext) :
    Opens env (Crypto.sealed_row env nonce ciphertext) ↔ env.cipher = .Sealed K := by
  constructor
  · rintro ⟨opened, hopened⟩
    obtain ⟨-, C, hC, hsome⟩ := (Crypto.open_sealed_row_iff hhex).mp hopened
    by_cases heq : C = K
    · rw [hC, heq]
    · rw [hrejects C hC heq] at hsome
      cases hsome
  · intro hcipher
    exact ⟨secret, (Crypto.open_sealed_row_iff hhex).mpr
      ⟨hnonce, K, hcipher, hlossless _ _ _ h⟩⟩

/-- Whether a secret of the table opens is decided by the way it was written. -/
theorem SealedTable.opens_iff (hhex : env.HexCrate) (hlossless : K.Lossless)
    (hrejects : RejectsTable env K keys) (h : SealedTable env K keys) {k : ApiKey} (hk : k ∈ keys)
    {stored : String} (hstored : k.signing_secret = some stored) :
    Opens env stored ↔ is_sealed stored = false ∨ env.cipher = .Sealed K := by
  cases h k hk stored hstored with
  | plaintext nonce secret _ hseal =>
      have hplain := opens_plaintext hhex hseal
      exact ⟨fun _ => Or.inl hplain.2, fun _ => hplain.1⟩
  | sealed nonce hnonce secret _ hseal =>
      obtain ⟨ciphertext, hmade, hrow⟩ := (Crypto.seal_sealed_iff rfl).mp hseal
      obtain rfl : stored = Crypto.sealed_row env nonce ciphertext := hrow
      rw [opens_sealed_iff hhex hlossless (hrejects k hk nonce ciphertext hstored) hnonce hmade,
        is_sealed_row]
      simp only [Bool.true_eq_false, false_or]

/-- The sample is the secret of a row. -/
theorem mem_of_canary_sample {stored : String}
    (h : canary_sample keys = some stored) : ∃ k ∈ keys, k.signing_secret = some stored := by
  unfold canary_sample at h
  obtain ⟨k, hfind, hstored⟩ := Option.bind_eq_some_iff.mp h
  exact ⟨k, List.mem_of_find?_eq_some hfind, hstored⟩

/-- A table with a signing secret has a sample. -/
theorem canary_sample_ne_none {k : ApiKey} (hk : k ∈ keys) {stored : String}
    (hstored : k.signing_secret = some stored) : canary_sample keys ≠ none := by
  intro hnone
  unfold canary_sample at hnone
  rcases hfind : keys.rows.find? fun k => k.signing_secret.isSome with _ | found
  · have hno := List.find?_eq_none.mp hfind k hk
    rw [hstored] at hno
    exact hno rfl
  · have hsome := List.find?_some hfind
    rw [hfind] at hnone
    have hnone' : found.signing_secret = none := hnone
    rw [hnone'] at hsome
    cases hsome

/-- The check reports `Verified` if there is a sample, and it opens. -/
theorem verified_iff :
    verify_encryption_key env keys = .ok .Verified ↔
      ∃ stored, canary_sample keys = some stored ∧ Opens env stored := by
  unfold verify_encryption_key
  rcases canary_sample keys with _ | stored
  · have hcheck : Crypto.check_key_canary env none = .ok .NoSealedSecrets := rfl
    rw [hcheck]
    constructor
    · intro h
      cases h
    · intro h
      obtain ⟨_, hsome, _⟩ := h
      cases hsome
  · have hcheck : Crypto.check_key_canary env (some stored) =
        (Crypto.open_secret env stored >>= fun _ => .ok .Verified) := rfl
    rw [hcheck]
    constructor
    · intro h
      rcases hopen : Crypto.open_secret env stored with e | secret
      · rw [hopen] at h
        cases h
      · exact ⟨stored, rfl, secret, hopen⟩
    · intro h
      obtain ⟨_, hsome, secret, hopen⟩ := h
      cases hsome
      rw [hopen]
      rfl

/-- **The canary speaks for the whole table** exactly if the sampled row is sealed, or no row is, or
the configured key is the one that the table was sealed under. -/
theorem canary_sound_iff (hhex : env.HexCrate) (hlossless : K.Lossless) (keys : Table ApiKey.id)
    (h : SealedTable env K keys) (hrejects : RejectsTable env K keys) :
    (verify_encryption_key env keys = .ok .Verified →
        ∀ k ∈ keys, ∀ stored, k.signing_secret = some stored → Opens env stored) ↔
      (canary_sample keys).any is_sealed = true ∨
        (∀ k ∈ keys, ∀ stored, k.signing_secret = some stored → is_sealed stored = false) ∨
          env.cipher = .Sealed K := by
  have hopens : ∀ k ∈ keys, ∀ stored, k.signing_secret = some stored →
      (Opens env stored ↔ is_sealed stored = false ∨ env.cipher = .Sealed K) :=
    fun k hk stored => h.opens_iff hhex hlossless hrejects hk
  constructor
  · intro hsound
    by_cases hsample : (canary_sample keys).any is_sealed = true
    · exact Or.inl hsample
    refine Or.inr ?_
    by_cases hcipher : env.cipher = .Sealed K
    · exact Or.inr hcipher
    refine Or.inl ?_
    intro k hk stored hstored
    obtain ⟨sample, hsome⟩ := Option.ne_none_iff_exists'.mp (canary_sample_ne_none hk hstored)
    obtain ⟨row, hrow, hrowSecret⟩ := mem_of_canary_sample hsome
    -- the sample is in plaintext: it opens, and the check passes
    have hplain : is_sealed sample = false := by
      rw [hsome] at hsample
      exact Bool.eq_false_iff.mpr hsample
    have hsample := (hopens row hrow sample hrowSecret).mpr (Or.inl hplain)
    have hverified := verified_iff.mpr ⟨sample, hsome, hsample⟩
    have hstoredOpens := hsound hverified k hk stored hstored
    exact ((hopens k hk stored hstored).mp hstoredOpens).resolve_right hcipher
  · intro hwhen hverified k hk stored hstored
    refine (hopens k hk stored hstored).mpr ?_
    rcases hwhen with hsample | hnone | hcipher
    · obtain ⟨sample, hsome, hopened⟩ := verified_iff.mp hverified
      obtain ⟨row, hrow, hrowSecret⟩ := mem_of_canary_sample hsome
      rw [hsome] at hsample
      have hsealed : is_sealed sample = true := hsample
      rcases (hopens row hrow sample hrowSecret).mp hopened with hplain | hcipher
      · rw [hsealed] at hplain
        cases hplain
      · exact Or.inr hcipher
    · exact Or.inl (hnone k hk stored hstored)
    · exact Or.inr hcipher

end Canary

/-! ## A table that mixes both ways -/

/-- A cipher small enough to evaluate: the ciphertext is the plaintext and the key. -/
def tagging_aead (key : UInt8) : Aead where
  encrypt _ plaintext := some (plaintext ++ [key])
  decrypt _ ciphertext :=
    if ciphertext.getLast? = some key then some ciphertext.dropLast else none

theorem lossless_tagging_aead (key : UInt8) : (tagging_aead key).Lossless := by
  rintro nonce plaintext _ ⟨⟩
  show (if (plaintext ++ [key]).getLast? = some key then _ else _) = _
  rw [List.getLast?_concat, if_pos rfl, List.dropLast_concat]

theorem tagging_aead_rejects {key other : UInt8} (hother : other ≠ key) {nonce plaintext ciphertext : List UInt8}
    (h : (tagging_aead key).encrypt nonce plaintext = some ciphertext) :
    (tagging_aead other).decrypt nonce ciphertext = none := by
  obtain rfl := Option.some.inj h
  show (if (plaintext ++ [key]).getLast? = some other then _ else _) = _
  rw [List.getLast?_concat, if_neg fun heq => hother (Option.some.inj heq).symm]

/-- The sample environment with the `hex` crate, configured with the key 9. -/
def Env.tagging : Env :=
  { Env.sample with
    hex_encode := Hex.encode
    hex_decode := Hex.decode
    cipher := .Sealed (tagging_aead 9) }

/-- A key that holds a signing secret. -/
def key_holding (id : Uuid) (stored : String) : ApiKey where
  id := id
  name := "sensor"
  key_hash := ""
  signing_secret := some stored
  key_prefix := ""
  bound_ips := none
  is_master := false
  can_manage_keys := false
  can_manage_webhooks := false
  can_create_groups := false
  parent_key_id := none
  created_at := 0
  updated_at := 0

/-- `s` in plaintext. -/
def plain_s : String := Crypto.PLAINTEXT_PREFIX ++ Hex.encode [115]

/-- `s` under the key 7. -/
def sealed_s : String :=
  Crypto.SEALED_PREFIX ++ Hex.encode (List.replicate Crypto.NONCE_LEN 0) ++ "." ++
    Hex.encode [115, 7]

/-- A secret written before encryption was switched on, and one sealed under the key 7 after. -/
def mixed_keys : Table ApiKey.id :=
  ⟨[key_holding 1 plain_s, key_holding 2 sealed_s], by decide⟩

theorem sealedTable_mixed_keys : SealedTable Env.tagging (tagging_aead 7) mixed_keys := by
  have hmem : ∀ k ∈ mixed_keys, k = key_holding 1 plain_s ∨ k = key_holding 2 sealed_s := by
    intro k hk
    have hrows : k ∈ [key_holding 1 plain_s, key_holding 2 sealed_s] := hk
    simpa using hrows
  intro k hk stored hstored
  rcases hmem k hk with rfl | rfl
  · cases hstored
    exact .plaintext [] "s" _ (by decide)
  · cases hstored
    exact .sealed (List.replicate Crypto.NONCE_LEN 0) (by decide) "s" _ (by decide)

/-- The key 9 rejects the second row. -/
theorem rejectsTable_mixed_keys : RejectsTable Env.tagging (tagging_aead 7) mixed_keys := by
  intro k hk nonce ciphertext hstored C hC _
  obtain rfl : tagging_aead 9 = C := SecretCipher.Sealed.inj hC
  cases h : sealedTable_mixed_keys k hk _ hstored with
  | plaintext _ secret _ hseal =>
      have hplain := (opens_plaintext ⟨rfl, rfl⟩ hseal).2
      rw [is_sealed_row] at hplain
      cases hplain
  | sealed nonce' hnonce secret _ hseal =>
      obtain ⟨made, hmade, hrow⟩ := (Crypto.seal_sealed_iff rfl).mp hseal
      obtain ⟨rfl, rfl⟩ := Crypto.sealed_row_injective ⟨rfl, rfl⟩ hnonce hrow.symm
      exact tagging_aead_rejects (by decide) hmade

theorem canary_sound_iff_mixed :
    (verify_encryption_key Env.tagging mixed_keys = .ok .Verified →
        ∀ k ∈ mixed_keys, ∀ stored, k.signing_secret = some stored → Opens Env.tagging stored) ↔
      (canary_sample mixed_keys).any is_sealed = true ∨
        (∀ k ∈ mixed_keys, ∀ stored, k.signing_secret = some stored → is_sealed stored = false) ∨
          Env.tagging.cipher = .Sealed (tagging_aead 7) :=
  canary_sound_iff ⟨rfl, rfl⟩ (lossless_tagging_aead 7) mixed_keys sealedTable_mixed_keys
    rejectsTable_mixed_keys

/-- The first row is in plaintext: the key 9 passes the check, and does not open the second. -/
theorem canary_passes_wrong_key :
    SealedTable Env.tagging (tagging_aead 7) mixed_keys ∧
      verify_encryption_key Env.tagging mixed_keys = .ok .Verified ∧
        key_holding 2 sealed_s ∈ mixed_keys ∧ ¬ Opens Env.tagging sealed_s := by
  refine ⟨sealedTable_mixed_keys, by decide, by decide, ?_⟩
  rintro ⟨secret, hopen⟩
  have hfails : Crypto.open_secret Env.tagging sealed_s = .error .DecryptionFailed := by rfl
  rw [hfails] at hopen
  cases hopen

end IpVault
