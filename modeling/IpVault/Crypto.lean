import IpVault.Env

set_option autoImplicit false

/-! # Request signatures and secrets at rest -/

namespace IpVault.Crypto

open Lib

/-- `MAX_TIMESTAMP_SKEW_SECS`. -/
def MAX_TIMESTAMP_SKEW_SECS : Int := 300

/-- `NONCE_LEN`. -/
def NONCE_LEN : Nat := 24

def PLAINTEXT_PREFIX : String := "v1.plain."
def SEALED_PREFIX : String := "v1.xchacha20poly1305."
def SIGNATURE_PREFIX : String := "sha256="

/-- `str::as_bytes`: the UTF-8 encoding. -/
def as_bytes (s : String) : List UInt8 := s.toList.flatMap String.utf8EncodeChar

/-- `String::from_utf8`. -/
def from_utf8 (bytes : List UInt8) : Option String := String.fromUTF8? ⟨bytes.toArray⟩

/-- `canonical_v1_payload`: method, target, timestamp and body, separated by newlines. -/
def canonical_v1_payload (method target timestamp : String) (body : List UInt8) : List UInt8 :=
  as_bytes method ++ 10 :: as_bytes target ++ 10 :: as_bytes timestamp ++ 10 :: body

/-- `compute_signature`: the whole value of the header. HMAC takes a key of any length, so that making
the MAC does not fail. -/
def compute_signature (env : Env) (secret method target timestamp : String) (body : List UInt8) :
    Except AppError String :=
  .ok (SIGNATURE_PREFIX ++ env.hex_encode
    (env.hmac_sha256 (as_bytes secret) (canonical_v1_payload method target timestamp body)))

/-- `verify_signature`: the digest the header carries, if it is the HMAC of this request. -/
def verify_signature (env : Env) (secret method target timestamp : String) (body : List UInt8)
    (provided : String) : Option (List UInt8) := do
  let hex ← Text.strip_prefix (Text.trim provided) SIGNATURE_PREFIX
  let provided_bytes ← env.hex_decode (Text.trim hex)
  let mac := env.hmac_sha256 (as_bytes secret) (canonical_v1_payload method target timestamp body)
  if provided_bytes = mac then some provided_bytes else none

/-- `CryptoError`. -/
inductive CryptoError where
  | MalformedCiphertext
  | DecryptionFailed
  | EncryptionFailed
  deriving DecidableEq

/-- `From<CryptoError> for AppError`. -/
def CryptoError.into_app_error : CryptoError → AppError := fun _ => .Internal

/-- `SecretCipher::seal`. -/
def seal_secret (env : Env) (nonce : List UInt8) (plaintext : String) : Except CryptoError String :=
  match env.cipher with
  | .Plaintext => .ok (PLAINTEXT_PREFIX ++ env.hex_encode (as_bytes plaintext))
  | .Sealed cipher =>
      match cipher.encrypt nonce (as_bytes plaintext) with
      | none => .error .EncryptionFailed
      | some ciphertext =>
          .ok (SEALED_PREFIX ++ env.hex_encode nonce ++ "." ++ env.hex_encode ciphertext)

/-- A sealed value split at its first dot. -/
def split_once (s : String) : Option (String × String) :=
  match s.toList.span (· ≠ '.') with
  | (_, []) => none
  | (before, _ :: after) => some (String.ofList before, String.ofList after)

/-- The error for a value that is not there. -/
def or_malformed {α : Type} : Option α → Except CryptoError α
  | some a => .ok a
  | none => .error .MalformedCiphertext

/-- `SecretCipher::open`. -/
def open_secret (env : Env) (stored : String) : Except CryptoError String :=
  match Text.strip_prefix stored PLAINTEXT_PREFIX with
  | some encoded => do
      let bytes ← or_malformed (env.hex_decode encoded)
      or_malformed (from_utf8 bytes)
  | none =>
      match Text.strip_prefix stored SEALED_PREFIX with
      | none => .error .MalformedCiphertext
      | some body => do
          let (nonce_hex, ciphertext_hex) ← or_malformed (split_once body)
          let nonce ← or_malformed (env.hex_decode nonce_hex)
          if nonce.length ≠ NONCE_LEN then .error .MalformedCiphertext
          else do
            let ciphertext ← or_malformed (env.hex_decode ciphertext_hex)
            match env.cipher with
            | .Plaintext => .error .DecryptionFailed
            | .Sealed cipher =>
                match cipher.decrypt nonce ciphertext with
                | none => .error .DecryptionFailed
                | some plaintext => or_malformed (from_utf8 plaintext)

end IpVault.Crypto
