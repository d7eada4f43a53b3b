import IpVault.Auth.Signatures
import IpVault.Webhooks.Dispatchable

set_option autoImplicit false

/-! # A dispatch to another instance

A webhook left at its defaults signs what the API of another instance verifies: method, path, time
and body. The sender takes the path from the parsed URL, the receiver the whole target from the
request line; they agree where the URL has no query.
-/

namespace IpVault

open Lib

/-- What the dispatcher and its client use of the crates, with the query of a URL (`Url::query`). -/
structure Wire extends Http where
  url_query : String → Option String

/-- The target on the request line, which is the one `signed_target` reads: the path of the URL, and
its query behind a question mark. -/
def Wire.request_target (wire : Wire) (url path : String) : String :=
  path ++ ((wire.url_query url).map fun query => "?" ++ query).getD ""

/-- The request passes `verify_signature` under `secret`, with the headers it carries. -/
def PreparedDispatch.Verifies (d : PreparedDispatch) (env : Env) (secret target : String) : Prop :=
  ∃ timestamp signature, header_values d.headers "x-timestamp" = [timestamp] ∧
    header_values d.headers "x-signature-256" = [signature] ∧
    (Crypto.verify_signature env secret "POST" target timestamp (Crypto.as_bytes d.payload)
      signature).isSome = true

/-! ## What is signed -/

/-- The default template, expanded. -/
theorem expand_default_template (method path timestamp body : List Char) :
    expand_hmac [("\x7bmethod\x7d".toList, method), ("\x7bpath\x7d".toList, path),
        ("\x7btimestamp\x7d".toList, timestamp), ("\x7bbody\x7d".toList, body)]
        0 DEFAULT_HMAC_TEMPLATE.toList =
      method ++ '\n' :: (path ++ '\n' :: (timestamp ++ '\n' :: body)) := by
  calc
    _ = method ++ '\n' :: (path ++ '\n' :: (timestamp ++ '\n' :: (body ++ []))) := rfl
    _ = _ := by rw [List.append_nil]

/-- It is the canonical payload. -/
theorem default_template_canonical (method path timestamp body : String) :
    Crypto.as_bytes (resolve_hmac_template DEFAULT_HMAC_TEMPLATE method path timestamp body) =
      Crypto.canonical_v1_payload method path timestamp (Crypto.as_bytes body) := by
  have newline : String.utf8EncodeChar '\n' = [10] := by decide
  unfold resolve_hmac_template Crypto.as_bytes Crypto.canonical_v1_payload
  rw [String.toList_ofList, expand_default_template]
  simp only [List.flatMap_append, List.flatMap_cons, newline, Crypto.as_bytes, List.append_assoc,
    List.cons_append, List.nil_append]

/-- A signature as the dispatcher writes it verifies exactly if it is the HMAC of the request. -/
theorem verify_signature_iff {env : Env} (hhex : env.HexCrate)
    {secret method target timestamp : String} {body mac : List UInt8} :
    (Crypto.verify_signature env secret method target timestamp body
        (Crypto.SIGNATURE_PREFIX ++ env.hex_encode mac)).isSome = true ↔
      mac = env.hmac_sha256 (Crypto.as_bytes secret)
        (Crypto.canonical_v1_payload method target timestamp body) := by
  have hspells := Crypto.spells_computed hhex mac
  rw [Option.isSome_iff_exists]
  constructor
  · rintro ⟨digest, hdigest⟩
    obtain ⟨hspelt, hmac⟩ := (Crypto.verify_signature_eq_some_iff hhex).mp hdigest
    exact (hspells.unique hhex hspelt).trans hmac
  · intro hmac
    exact ⟨mac, (Crypto.verify_signature_eq_some_iff hhex).mpr ⟨hspells, hmac⟩⟩

/-! ## What is sent -/

section Sent

variable {env : Env} {http : Http} {h : WebhookConfig} {event : WebhookEvent} {now : Int}
variable {d : PreparedDispatch}

/-- A request that is signed with its path goes to a URL that parses. -/
theorem path_of_prepared (hmode : h.mode = .CanonicalV1)
    (hd : prepare_dispatch env http h event now = .ok d) :
    ∃ path, http.url_path d.target_url = .ok path := by
  rw [prepare_dispatch_target_url hd]
  unfold prepare_dispatch at hd
  obtain ⟨keyed, -, hd⟩ := except_bind_ok.mp hd
  obtain ⟨timed, htimed, -⟩ := except_bind_ok.mp hd
  have hstored : AuthMode.from_stored h.auth_mode = .CanonicalV1 := hmode
  unfold sign_dispatch at htimed
  rw [hstored] at htimed
  dsimp only at htimed
  generalize http.url_path _ = parsed at htimed ⊢
  cases parsed with
  | ok path => exact ⟨path, rfl⟩
  | error e => cases htimed

/-- A webhook with the defaults for what is signed and how it is sent. -/
structure WebhookConfig.Standard (h : WebhookConfig) : Prop where
  mode : h.mode = .CanonicalV1
  hmac_template : h.hmac_template.getD DEFAULT_HMAC_TEMPLATE = DEFAULT_HMAC_TEMPLATE
  signature_header :
    (trimmed h.signature_header).getD DEFAULT_SIGNATURE_HEADER = DEFAULT_SIGNATURE_HEADER
  signature_prefix :
    h.signature_prefix.getD DEFAULT_SIGNATURE_PREFIX = DEFAULT_SIGNATURE_PREFIX

/-- Such a webhook sends the time, and the HMAC of the canonical payload over the path. -/
theorem WebhookConfig.Standard.sends (hstandard : h.Standard) (hvalues : http.PrintableValues)
    (hhex : env.HexCrate) (hname : http.header_name DEFAULT_SIGNATURE_HEADER = some "x-signature-256")
    (hd : prepare_dispatch env http h event now = .ok d) {path : String}
    (hpath : http.url_path d.target_url = .ok path) :
    header_values d.headers "x-timestamp" = [toString (clock_seconds now)] ∧
      header_values d.headers "x-signature-256" =
        [Crypto.SIGNATURE_PREFIX ++ env.hex_encode (env.hmac_sha256 (Crypto.as_bytes h.secret_token)
          (Crypto.canonical_v1_payload "POST" path (toString (clock_seconds now))
            (Crypto.as_bytes d.payload)))] := by
  have hsigned : h.signature_name http = some "x-signature-256" := by
    unfold signature_name
    rw [hstandard.signature_header]
    exact hname
  rw [prepare_dispatch_target_url hd] at hpath
  obtain ⟨-, -, hd⟩ := (prepare_dispatch_iff hvalues hhex hpath).mp hd
  have hheaders := congrArg PreparedDispatch.headers hd
  have hpayload := congrArg PreparedDispatch.payload hd
  dsimp only at hheaders hpayload
  rw [hheaders, hpayload]
  constructor
  · refine request_headers_time hstandard.mode fun heq => ?_
    have hne : some "x-signature-256" ≠ some "x-timestamp" := by decide
    exact hne (hsigned.symm.trans heq)
  · rw [request_headers_signature (canonical_modes hstandard.mode).1 hsigned]
    unfold webhook_signature signed_text
    rw [if_pos hstandard.mode, hstandard.hmac_template, hstandard.signature_prefix,
      default_template_canonical]
    rfl

end Sent

/-- **When another instance accepts a dispatch.** The request a webhook with the defaults makes for
an event passes the check of an instance that holds its secret exactly if its URL has no query, or
the HMAC cannot tell the target with the query from the path. -/
theorem chained_iff (env : Env) (wire : Wire) (hhex : env.HexCrate) (hvalues : wire.PrintableValues)
    (hname : wire.header_name DEFAULT_SIGNATURE_HEADER = some "x-signature-256")
    (h : WebhookConfig) (hstandard : h.Standard) (event : WebhookEvent) (now : Int)
    (d : PreparedDispatch) (hd : prepare_dispatch env wire.toHttp h event now = .ok d) :
    ∃ path, wire.url_path d.target_url = .ok path ∧
      (d.Verifies env h.secret_token (wire.request_target d.target_url path) ↔
        ∀ query, wire.url_query d.target_url = some query →
          env.hmac_sha256 (Crypto.as_bytes h.secret_token)
              (Crypto.canonical_v1_payload "POST" path (toString (clock_seconds now))
                (Crypto.as_bytes d.payload)) =
            env.hmac_sha256 (Crypto.as_bytes h.secret_token)
              (Crypto.canonical_v1_payload "POST" (path ++ ("?" ++ query))
                (toString (clock_seconds now)) (Crypto.as_bytes d.payload))) := by
  obtain ⟨path, hpath⟩ := path_of_prepared hstandard.mode hd
  obtain ⟨htime, hsignature⟩ := hstandard.sends hvalues hhex hname hd hpath
  refine ⟨path, hpath, ?_⟩
  -- The receiver reads the one value under each of the two headers.
  have hverifies : ∀ target, d.Verifies env h.secret_token target ↔
      env.hmac_sha256 (Crypto.as_bytes h.secret_token)
          (Crypto.canonical_v1_payload "POST" path (toString (clock_seconds now))
            (Crypto.as_bytes d.payload)) =
        env.hmac_sha256 (Crypto.as_bytes h.secret_token)
          (Crypto.canonical_v1_payload "POST" target (toString (clock_seconds now))
            (Crypto.as_bytes d.payload)) := by
    intro target
    rw [← verify_signature_iff hhex]
    constructor
    · rintro ⟨timestamp, signature, ht, hs, hv⟩
      rw [htime] at ht
      rw [hsignature] at hs
      obtain rfl := List.singleton_inj.mp ht
      obtain rfl := List.singleton_inj.mp hs
      exact hv
    · exact fun hv => ⟨_, _, htime, hsignature, hv⟩
  rw [hverifies]
  unfold Wire.request_target
  cases wire.url_query d.target_url with
  | none =>
      rw [Option.map_none, Option.getD_none, String.append_empty]
      exact ⟨fun _ query hnone => (by cases hnone), fun _ => rfl⟩
  | some query =>
      rw [Option.map_some, Option.getD_some]
      constructor
      · rintro heq query' hquery
        obtain rfl := Option.some.inj hquery
        exact heq
      · exact fun hall => hall query rfl

/-! ## A URL with a query -/

/-- The path of the two URLs below. -/
def siem_path (url : String) : Except String String :=
  if url = "https://siem/" ∨ url = "https://siem/?group=bans" then .ok "/"
  else .error "relative URL without a base"

/-- The crates on these. -/
def Wire.siem : Wire :=
  ⟨{ Http.strict with url_path := siem_path }, fun url =>
    if url = "https://siem/?group=bans" then some "group=bans" else none⟩

theorem printableValues_siem : Wire.siem.PrintableValues := printableValues_strict

/-- HMAC-SHA256 under `s3cret`, of the two texts below. -/
def hmac_siem (message : List UInt8) : List UInt8 :=
  if message = Crypto.as_bytes "POST\n/\n0\n203.0.113.7" then
    [189, 198, 96, 240, 44, 86, 234, 113, 211, 128, 194, 255, 174, 50, 142, 165,
      20, 175, 86, 157, 137, 84, 39, 210, 36, 87, 150, 189, 35, 215, 50, 127]
  else if message = Crypto.as_bytes "POST\n/?group=bans\n0\n203.0.113.7" then
    [58, 65, 85, 246, 207, 33, 196, 204, 225, 134, 212, 41, 207, 181, 156, 46,
      230, 151, 110, 94, 209, 189, 79, 169, 199, 220, 59, 33, 66, 100, 35, 11]
  else []

/-- `Service.hex_siem`, with these. -/
def Env.siem : Env := { Service.hex_siem.env with hmac_sha256 := fun _ => hmac_siem }

theorem hexCrate_siem : Env.siem.HexCrate := ⟨rfl, rfl⟩

/-- A webhook left at its defaults. -/
def WebhookConfig.chaining (target_url : String) : WebhookConfig where
  id := 3
  name := "peer"
  target_url := target_url
  secret_token := "s3cret"
  auth_mode := "CANONICAL_V1"
  api_key := none
  hmac_template := none
  signature_header := none
  signature_prefix := none
  headers_json := none
  payload_template := "$ip"
  group_id := 2
  is_active := true
  events := none
  owner_key_id := none
  created_at := 0

theorem standard_chaining (target_url : String) : (WebhookConfig.chaining target_url).Standard where
  mode := AuthMode.from_stored_as_str .CanonicalV1
  hmac_template := rfl
  signature_header := rfl
  signature_prefix := rfl

/-- Without a query the peer accepts. -/
theorem chained_without_query :
    ∃ d, prepare_dispatch .siem Wire.siem.toHttp (.chaining "https://siem/") .sample 0 = .ok d ∧
      d.Verifies .siem "s3cret" (Wire.siem.request_target d.target_url "/") := by
  have hprepared : ∃ d,
      prepare_dispatch .siem Wire.siem.toHttp (.chaining "https://siem/") .sample 0 = .ok d ∧
        d.target_url = "https://siem/" := by
    refine ⟨_, rfl, ?_⟩
    decide +kernel
  obtain ⟨d, hd, hurl⟩ := hprepared
  obtain ⟨path, hpath, hiff⟩ := chained_iff .siem .siem hexCrate_siem printableValues_siem
    (by decide) (.chaining "https://siem/") (standard_chaining _) .sample 0 d hd
  have hroot : Wire.siem.url_path "https://siem/" = .ok "/" := by decide
  have hnone : Wire.siem.url_query "https://siem/" = none := by decide
  rw [hurl] at hpath hiff
  obtain rfl : "/" = path := Except.ok.inj (hroot.symm.trans hpath)
  refine ⟨d, hd, ?_⟩
  rw [hurl]
  refine hiff.mpr fun query hquery => ?_
  cases hnone.symm.trans hquery

/-- With one it does not. -/
theorem unchained_with_query :
    ¬ ∀ (env : Env) (wire : Wire), env.HexCrate → wire.PrintableValues →
      wire.header_name DEFAULT_SIGNATURE_HEADER = some "x-signature-256" →
      ∀ h : WebhookConfig, h.Standard → ∀ (event : WebhookEvent) (now : Int) (d : PreparedDispatch),
        prepare_dispatch env wire.toHttp h event now = .ok d →
          ∀ path, wire.url_path d.target_url = .ok path →
            d.Verifies env h.secret_token (wire.request_target d.target_url path) := by
  intro hall
  have hprepared : ∃ d, prepare_dispatch .siem Wire.siem.toHttp
      (.chaining "https://siem/?group=bans") .sample 0 = .ok d ∧
        d.target_url = "https://siem/?group=bans" ∧ d.payload = "203.0.113.7" := by
    refine ⟨_, rfl, ?_⟩
    decide +kernel
  obtain ⟨d, hd, hurl, hpayload⟩ := hprepared
  have hroot : Wire.siem.url_path "https://siem/?group=bans" = .ok "/" := by decide
  have hverifies := hall .siem .siem hexCrate_siem printableValues_siem (by decide)
    (.chaining "https://siem/?group=bans") (standard_chaining _) .sample 0 d hd "/"
    (hurl ▸ hroot)
  obtain ⟨timestamp, signature, htime, hsignature, hv⟩ := hverifies
  have hsent := (standard_chaining "https://siem/?group=bans").sends
    printableValues_siem hexCrate_siem (by decide) hd (hurl ▸ hroot)
  rw [hsent.1] at htime
  rw [hsent.2] at hsignature
  obtain rfl := List.singleton_inj.mp htime
  obtain rfl := List.singleton_inj.mp hsignature
  rw [hurl, hpayload] at hv
  have heq := (verify_signature_iff hexCrate_siem).mp hv
  revert heq
  decide +kernel

end IpVault
