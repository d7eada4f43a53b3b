import IpVault.Lib.Text
import IpVault.Net
import IpVault.Schema.Stmt

set_option autoImplicit false

/-! # What the service gets from outside

`Env` holds what the handlers use of other crates: reading and printing addresses, hashing, the
cipher and URL parsing. Nothing is assumed of these functions here; a result that needs a
property of one of them states it as a hypothesis.
-/

namespace IpVault

open Lib

/-- An authenticated cipher under a fixed key, as `XChaCha20Poly1305` offers it. -/
structure Aead where
  encrypt : List UInt8 → List UInt8 → Option (List UInt8)
  decrypt : List UInt8 → List UInt8 → Option (List UInt8)

/-- `SecretCipher`: whether secrets are sealed at rest. -/
inductive SecretCipher where
  | Plaintext
  | Sealed (cipher : Aead)

/-- The parts of a `reqwest::Url` the service looks at. -/
structure Url where
  scheme : String
  host_str : Option String

/-- The functions of other crates, and the configuration read at startup. -/
structure Env where
  /-- `str::parse::<IpNetwork>`. -/
  parse_network : String → Option IpNetwork
  /-- `str::parse::<IpAddr>`. -/
  parse_ip : String → Option IpAddr
  /-- `IpAddr::to_string`. -/
  show_ip : IpAddr → String
  /-- `Uuid::parse_str`. -/
  parse_uuid : String → Option Uuid
  /-- `Url::parse`. -/
  parse_url : String → Option Url
  /-- SHA-256 of a string, in hexadecimal. -/
  sha256_hex : String → String
  /-- HMAC-SHA256 of a message under a key. -/
  hmac_sha256 : List UInt8 → List UInt8 → List UInt8
  hex_encode : List UInt8 → String
  hex_decode : String → Option (List UInt8)
  cipher : SecretCipher
  /-- `max_body_bytes()`. -/
  max_body_bytes : Nat
  /-- `retention_days_from_env()`. -/
  retention_days : Int

/-- The address `203.0.113.7` as a network. -/
def host7 : IpNetwork := ⟨.v4 0xCB007107#32, 32, by decide⟩

/-- An environment small enough to evaluate handlers in: it reads one address, opens one secret
(`s3cret`) and knows one signature, the one of `GET /api/auth/me` at the second 1000. -/
def Env.sample : Env where
  parse_network s := if s = "203.0.113.7" then some host7 else none
  parse_ip s := if s = "203.0.113.7" then some host7.ip else none
  show_ip _ := "203.0.113.7"
  parse_uuid _ := none
  parse_url _ := none
  sha256_hex _ := "cff9f06c60825cc4ca0c1304e16323583e8c1a6ca0dd53187eb127eaff6a7db5"
  hmac_sha256 _ _ := [60, 92, 221, 29, 188, 254, 28, 110, 98, 25, 138, 51, 161, 19, 255, 37,
    23, 122, 73, 115, 124, 186, 33, 37, 201, 192, 195, 58, 97, 70, 50, 21]
  hex_encode _ := "733363726574"
  hex_decode s :=
    if s = "733363726574" then some [115, 51, 99, 114, 101, 116]
    else if s = "3c5cdd1dbcfe1c6e62198a33a113ff25177a49737cba2125c9c0c33a61463215" then
      some [60, 92, 221, 29, 188, 254, 28, 110, 98, 25, 138, 51, 161, 19, 255, 37,
        23, 122, 73, 115, 124, 186, 33, 37, 201, 192, 195, 58, 97, 70, 50, 21]
    else none
  cipher := .Plaintext
  max_body_bytes := 10485760
  retention_days := 30

/-- An ordinary key, whose signing secret `Env.sample` opens. -/
def ApiKey.sample (id : Uuid) : ApiKey where
  id := id
  name := "sensor"
  key_hash := "cff9f06c60825cc4ca0c1304e16323583e8c1a6ca0dd53187eb127eaff6a7db5"
  signing_secret := some "v1.plain.733363726574"
  key_prefix := "vault-ke"
  bound_ips := none
  is_master := false
  can_manage_keys := false
  can_manage_webhooks := false
  can_create_groups := false
  parent_key_id := none
  created_at := 0
  updated_at := 0

/-- The random values a request draws. -/
structure Entropy where
  /-- `generate_random_key()`. -/
  plaintext_key : String
  /-- `generate_signing_secret()`. -/
  signing_secret : String
  /-- The nonce of `SecretCipher::seal`. -/
  nonce : List UInt8

/-- What a handler is given besides its payload. One clock reading stands for the several calls
of `Utc::now()` a request makes. -/
structure Ctx where
  env : Env
  caller : Caller
  now : Int
  entropy : Entropy

/-- The authenticated key. -/
def Ctx.key (ctx : Ctx) : ApiKey := ctx.caller.key

end IpVault
