import IpVault.Auth.ClientIp
import IpVault.Auth.Master
import IpVault.Auth.Replay
import IpVault.Crypto

set_option autoImplicit false

/-! # Authentication (`middleware.rs`)

`auth_middleware` takes a request to the principal its handler will see, or to a refusal. It is
cut where it first touches the state of the process: `verify_request` establishes who signed the
request and needs nothing but the request and the database; the replay guard, the network
restriction and the master pin come after it, in this order.

A request is handled at one instant, which both clocks read. The source reads the wall clock first and
the monotonic one after it has waited for the body and for the database.
-/

namespace IpVault

open Lib

/-- What the middleware sees of a request. The body is absent when it cannot be read. -/
structure HttpRequest where
  headers : HeaderMap
  peer : IpAddr
  method : String
  target : String
  body : Option (List UInt8)

/-- A request at the moment it reaches the middleware, with the answers the database and the
resolver of proxy names would give it. -/
structure Arrival where
  request : HttpRequest
  now : Int
  trusted_proxies : List IpNetwork
  find_key : String → Except DbErr (Option ApiKey)
  master_view : MasterView

/-- The state of the process the middleware uses. -/
structure Gate where
  replay : ReplayGuard
  master_pin : MasterPin

/-- What the middleware hands to the handler. -/
structure Principal where
  key : ApiKey
  client_ip : IpAddr

/-! ## Freshness -/

/-- `Utc::now().timestamp()`: whole seconds, rounded down. -/
def clock_seconds (now : Int) : Int := now / 1000000000

/-- `i64::saturating_sub`. -/
def saturating_sub (a b : Int) : Int := max (-(2 ^ 63)) (min (2 ^ 63 - 1) (a - b))

/-- `i64::abs` in a release build, where the least value has no positive counterpart. -/
def abs_i64 (n : Int) : Int := if n = -(2 ^ 63) then n else |n|

theorem saturating_sub_eq {a b : Int} (hlo : -(2 ^ 63) ≤ a - b) (hhi : a - b < 2 ^ 63) :
    saturating_sub a b = a - b := by
  unfold saturating_sub
  omega

theorem abs_i64_eq {n : Int} (h : n ≠ -(2 ^ 63)) : abs_i64 n = |n| := if_neg h

/-- A value that must be there. -/
def present_or {α : Type} (e : AppError) : Option α → Except AppError α
  | some a => .ok a
  | none => .error e

/-- `validate_timestamp`: the raw header, if it is close enough to the clock. -/
def validate_timestamp (headers : HeaderMap) (now : Int) : Except AppError String := do
  let raw ← present_or (.Unauthorized "Missing X-Timestamp header")
    ((header headers "x-timestamp").map Text.trim)
  let supplied ← present_or (.Unauthorized "Malformed X-Timestamp header") (Text.parse_i64 raw)
  let skew := abs_i64 (saturating_sub (clock_seconds now) supplied)
  if skew > Crypto.MAX_TIMESTAMP_SKEW_SECS then
    .error (.Unauthorized
      s!"Request timestamp outside the permitted {Crypto.MAX_TIMESTAMP_SKEW_SECS}s window")
  else .ok raw

/-! ## Identity -/

/-- The lookup of the key by its hash. -/
def find_key_record (env : Env) (a : Arrival) (auth_header : String) : Except AppError ApiKey :=
  match a.find_key (env.sha256_hex auth_header) with
  | .error e => .error (.DbError e)
  | .ok none => .error (.Unauthorized "Invalid API Key")
  | .ok (some key) => .ok key

/-- The signing secret of a key, unsealed. -/
def open_signing_secret (env : Env) (key : ApiKey) : Except AppError String := do
  let stored ← present_or
    (.Unauthorized "This API key has no signing secret; rotate it to obtain one")
    key.signing_secret
  (Crypto.open_secret env stored).mapError Crypto.CryptoError.into_app_error

/-- `axum::body::to_bytes`. -/
def buffer_body (env : Env) (body : Option (List UInt8)) : Except AppError (List UInt8) :=
  present_or (.InvalidInput "Request body unreadable or too large to sign")
    (body.filter fun bytes => bytes.length ≤ env.max_body_bytes)

/-- A request whose signature verifies: the key, the two parts of the signed text that had to be
read, and the digest its header carries. -/
structure Verified where
  key : ApiKey
  timestamp : String
  body_bytes : List UInt8
  digest : List UInt8

/-- The signature a verified request is recorded under. -/
def Verified.signature (v : Verified) : SignatureId := ⟨v.key.id, v.digest⟩

/-- `auth_middleware`, up to the signature. -/
def verify_request (env : Env) (a : Arrival) : Except AppError Verified := do
  let timestamp ← validate_timestamp a.request.headers a.now
  let auth_header ← present_or (.Unauthorized "Missing API Key")
    (header a.request.headers "x-api-key")
  let provided_signature ← present_or (.Unauthorized "Missing X-Signature-256 header")
    (header a.request.headers "x-signature-256")
  if !Text.starts_with (Text.trim provided_signature) Crypto.SIGNATURE_PREFIX then
    .error (.Unauthorized "X-Signature-256 must be formatted as sha256=<hex>")
  else do
    let key ← find_key_record env a auth_header
    let signing_secret ← open_signing_secret env key
    let body_bytes ← buffer_body env a.request.body
    let digest ← present_or (.Unauthorized "Invalid request signature")
      (Crypto.verify_signature env signing_secret a.request.method a.request.target timestamp
        body_bytes provided_signature)
    pure ⟨key, timestamp, body_bytes, digest⟩

/-! ## Network -/

/-- The networks of `bound_ips`. An entry that does not parse is a fault of the database. -/
def bound_networks (env : Env) (bound_ips : Option String) : Except AppError (List IpNetwork) :=
  let entries := ((Text.split ',' (bound_ips.getD "")).map Text.trim).filter (!Text.is_empty ·)
  present_or .Internal (entries.mapM env.parse_network)

/-- The network restriction of a key. -/
def authorize_network (env : Env) (key : ApiKey) (client_ip : IpAddr) : Except AppError Unit := do
  let networks ← bound_networks env key.bound_ips
  if networks.isEmpty || networks.any (·.contains client_ip) then .ok ()
  else .error (.Forbidden "Client IP not allowed")

/-! ## The middleware -/

/-- `auth_middleware`: the principal, or the refusal, and the state it leaves. -/
def auth_middleware (env : Env) (a : Arrival) (gate : Gate) : Except AppError Principal × Gate :=
  let client_ip := resolve_client_ip env.parse_ip a.request.peer a.request.headers a.trusted_proxies
  match verify_request env a with
  | .error e => (.error e, gate)
  | .ok v =>
      let (first_use, replay) := gate.replay.check_and_record a.now v.signature
      let gate := { gate with replay }
      if !first_use then
        (.error (.Unauthorized
          "This request signature has already been used; sign a fresh request"), gate)
      else
        match authorize_network env v.key client_ip with
        | .error e => (.error e, gate)
        | .ok () =>
            let (key, master_pin) := gate.master_pin.authenticate a.master_view v.key
            (.ok ⟨key, client_ip⟩, { gate with master_pin })

/-- What the client receives: the refusal, or what the handler behind the middleware answers. -/
def respond (next : Principal → Response) : Except AppError Principal → Response
  | .error e => e.into_response
  | .ok p => next p

/-! ## What the middleware lets through -/

/-- The timestamp of an accepted request is within the window on both sides. -/
theorem validate_timestamp_eq_ok {headers : HeaderMap} {now : Int} {raw : String} :
    validate_timestamp headers now = .ok raw ↔
      (header headers "x-timestamp").map Text.trim = some raw ∧
        ∃ supplied, Text.parse_i64 raw = some supplied ∧
          abs_i64 (saturating_sub (clock_seconds now) supplied) ≤
            Crypto.MAX_TIMESTAMP_SKEW_SECS := by
  unfold validate_timestamp
  cases hr : (header headers "x-timestamp").map Text.trim with
  | none => simp [bind, Except.bind, present_or]
  | some r =>
      cases hs : Text.parse_i64 r with
      | none =>
          simp only [bind, Except.bind, present_or, hs, Option.some.injEq]
          constructor
          · intro h
            cases h
          · rintro ⟨rfl, supplied, hs', -⟩
            rw [hs] at hs'
            cases hs'
      | some supplied =>
          simp only [bind, Except.bind, present_or, hs, Option.some.injEq]
          split
          · rename_i hgt
            constructor
            · intro h
              cases h
            · rintro ⟨rfl, supplied', hs', hle⟩
              rw [hs] at hs'
              cases hs'
              omega
          · rename_i hle
            constructor
            · intro h
              cases h
              exact ⟨rfl, supplied, hs, by omega⟩
            · rintro ⟨rfl, -⟩
              rfl

end IpVault
