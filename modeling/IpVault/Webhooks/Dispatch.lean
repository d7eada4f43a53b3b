import IpVault.Api.Webhooks
import IpVault.Auth.Middleware

set_option autoImplicit false

/-! # From an event to a request (`dispatch.rs`)

`prepare_dispatch` makes the outbound request of a webhook for an event. Both templates of the row,
the payload and the URL, go through the same expansion; what is signed goes through one of its own.
Each is a single pass from left to right, here one character at a time, in which no value is looked
at again.
-/

namespace IpVault

open Lib

/-- `AuthMode::sends_api_key`. -/
def AuthMode.sends_api_key : AuthMode → Bool
  | CanonicalV1 | ApiKeyOnly => true
  | HmacOnly | None => false

/-! ## Templates -/

/-- `substitute_placeholders`, on characters. `skip` characters belong to the placeholder just
replaced. -/
def substitute (substitutions : List (List Char × List Char)) : Nat → List Char → List Char
  | _, [] => []
  | skip + 1, _ :: rest => substitute substitutions skip rest
  | 0, c :: rest =>
      if c = '$' then
        match substitutions.find? fun s => (Text.dropPrefix s.1 (c :: rest)).isSome with
        | some s => s.2 ++ substitute substitutions (s.1.length - 1) rest
        | none => c :: substitute substitutions 0 rest
      else c :: substitute substitutions 0 rest

/-- `substitute_placeholders`: the first placeholder of the table that fits is replaced. -/
def substitute_placeholders (template : String) (substitutions : List (String × String)) : String :=
  String.ofList
    (substitute (substitutions.map fun s => (s.1.toList, s.2.toList)) 0 template.toList)

/-- The table of `resolve_event_variables`. -/
def event_substitutions (event : WebhookEvent) (timestamp : String) : List (String × String) :=
  [("$target_address", event.address), ("$ip", event.address), ("$action", event.action),
    ("$event", event.action), ("$cause", event.cause.getD "Unknown"),
    ("$group_name", event.group_name.getD ""),
    ("$group_id", (event.group_id.map Uuid.to_string).getD ""), ("$timestamp", timestamp)]

/-- `resolve_event_variables`. -/
def resolve_event_variables (template : String) (event : WebhookEvent) (timestamp : String) :
    String :=
  substitute_placeholders template (event_substitutions event timestamp)

/-- The character an escape of `resolve_hmac_template` stands for, or the escape as it is
written. -/
def escaped : Char → List Char
  | 'n' => ['\n']
  | 'r' => ['\r']
  | 't' => ['\t']
  | '\\' => ['\\']
  | other => ['\\', other]

/-- `resolve_hmac_template`, on characters, with the table of its placeholders. -/
def expand_hmac (placeholders : List (List Char × List Char)) : Nat → List Char → List Char
  | _, [] => []
  | skip + 1, _ :: rest => expand_hmac placeholders skip rest
  | 0, ['\\'] => ['\\']
  | 0, '\\' :: c :: rest => escaped c ++ expand_hmac placeholders 0 rest
  | 0, c :: rest =>
      if c = '{' then
        match placeholders.find? fun s => (Text.dropPrefix s.1 (c :: rest)).isSome with
        | some s => s.2 ++ expand_hmac placeholders (s.1.length - 1) rest
        | none => c :: expand_hmac placeholders 0 rest
      else c :: expand_hmac placeholders 0 rest

/-- `resolve_hmac_template`. -/
def resolve_hmac_template (template method path timestamp body : String) : String :=
  String.ofList (expand_hmac
    [("\x7bmethod\x7d".toList, method.toList), ("\x7bpath\x7d".toList, path.toList),
      ("\x7btimestamp\x7d".toList, timestamp.toList), ("\x7bbody\x7d".toList, body.toList)]
    0 template.toList)

/-! ## Requests -/

/-- What the dispatcher uses of the crates `http`, `url` and `serde_json`. Their errors are the
texts they are displayed as. -/
structure Http where
  /-- `HeaderName::from_str`: the name in lower case, if it is one. -/
  header_name : String → Option String
  /-- `HeaderValue::from_str`: whether the text may be a value. -/
  header_value : String → Except String Unit
  /-- `serde_json::from_str::<HashMap<String, String>>`, in the order the map is iterated. -/
  header_map : String → Option (List (String × String))
  /-- `Url::parse` and `Url::path`. -/
  url_path : String → Except String String

/-- The outbound headers: lowercase names, each once. -/
abbrev DispatchHeaders := List (String × String)

/-- `HeaderMap::insert`, which replaces. That it panics when the map is full, at 32768 names, is left
out. -/
def insert_header (headers : DispatchHeaders) (name value : String) : DispatchHeaders :=
  headers.filter (fun h => h.1 ≠ name) ++ [(name, value)]

/-- `PreparedDispatch`. -/
structure PreparedDispatch where
  target_url : String
  headers : DispatchHeaders
  payload : String
  deriving DecidableEq

/-- The headers a request starts with: its content type and those of `headers_json` that are
headers. -/
def custom_headers (http : Http) (headers_json : Option String) : DispatchHeaders :=
  ((headers_json.bind http.header_map).getD []).foldl (fun headers h =>
    match http.header_name h.1, http.header_value h.2 with
    | some name, .ok () => insert_header headers name h.2
    | _, _ => headers) [("content-type", "application/json")]

/-- The credential, in the modes that send one. -/
def credential_headers (http : Http) (config : WebhookConfig) (headers : DispatchHeaders) :
    Except String DispatchHeaders :=
  match (AuthMode.from_stored config.auth_mode).sends_api_key, nonempty config.api_key with
  | true, some api_key =>
      match http.header_value api_key with
      | .ok () => .ok (insert_header headers "x-api-key" api_key)
      | .error e => .error s!"webhook api_key is not a valid header value: {e}"
  | _, _ => .ok headers

/-- The signature of a message, with the prefix of the webhook. -/
def webhook_signature (env : Env) (config : WebhookConfig) (message : String) : String :=
  config.signature_prefix.getD DEFAULT_SIGNATURE_PREFIX ++
    env.hex_encode (env.hmac_sha256 (Crypto.as_bytes config.secret_token) (Crypto.as_bytes message))

/-- The signature, in the modes that sign, and the headers that go with it. -/
def sign_dispatch (env : Env) (http : Http) (config : WebhookConfig)
    (target_url payload timestamp : String) (headers : DispatchHeaders) :
    Except String (DispatchHeaders × Option String) :=
  match AuthMode.from_stored config.auth_mode with
  | .HmacOnly => .ok (headers, some (webhook_signature env config payload))
  | .CanonicalV1 =>
      match http.url_path target_url with
      | .error e => .error s!"unparseable webhook target URL: {e}"
      | .ok path =>
          let template := config.hmac_template.getD DEFAULT_HMAC_TEMPLATE
          let message := resolve_hmac_template template "POST" path timestamp payload
          let headers := match http.header_value timestamp with
            | .ok () => insert_header headers "x-timestamp" timestamp
            | .error _ => headers
          .ok (headers, some (webhook_signature env config message))
  | .ApiKeyOnly => .ok (headers, none)
  | .None => .ok (headers, none)

/-- The signature in its header. -/
def signature_headers (http : Http) (config : WebhookConfig) (headers : DispatchHeaders) :
    Option String → Except String DispatchHeaders
  | none => .ok headers
  | some sig_val =>
      let signature_header := (trimmed config.signature_header).getD DEFAULT_SIGNATURE_HEADER
      match http.header_name signature_header with
      | none => .error s!"signature header '{signature_header}' is not a valid HTTP header name"
      | some name =>
          match http.header_value sig_val with
          | .ok () => .ok (insert_header headers name sig_val)
          | .error e => .error s!"computed signature is not a valid header value: {e}"

/-- `prepare_dispatch`. HMAC takes a key of any length, so that making the MAC does not fail. -/
def prepare_dispatch (env : Env) (http : Http) (config : WebhookConfig) (event : WebhookEvent)
    (now : Int) : Except String PreparedDispatch := do
  let timestamp := toString (clock_seconds now)
  let payload := resolve_event_variables config.payload_template event timestamp
  let target_url := resolve_event_variables config.target_url event timestamp
  let headers ← credential_headers http config (custom_headers http config.headers_json)
  let (headers, signature) ← sign_dispatch env http config target_url payload timestamp headers
  let headers ← signature_headers http config headers signature
  .ok ⟨target_url, headers, payload⟩

section Prepared

variable {env : Env} {http : Http} {config : WebhookConfig} {event : WebhookEvent} {now : Int}
  {d : PreparedDispatch}

/-- What a request has besides its headers comes from the row alone. -/
theorem prepare_dispatch_parts (h : prepare_dispatch env http config event now = .ok d) :
    ∃ headers, d = ⟨resolve_event_variables config.target_url event (toString (clock_seconds now)),
      headers, resolve_event_variables config.payload_template event
        (toString (clock_seconds now))⟩ := by
  unfold prepare_dispatch at h
  obtain ⟨headers, -, h⟩ := except_bind_ok.mp h
  obtain ⟨signed, -, h⟩ := except_bind_ok.mp h
  obtain ⟨headers', -, h⟩ := except_bind_ok.mp h
  exact ⟨headers', (Except.ok.inj h).symm⟩

/-- A request goes to the URL of the row, expanded. -/
theorem prepare_dispatch_target_url (h : prepare_dispatch env http config event now = .ok d) :
    d.target_url =
      resolve_event_variables config.target_url event (toString (clock_seconds now)) := by
  obtain ⟨headers, rfl⟩ := prepare_dispatch_parts h
  rfl

/-- Its payload is the template of the row, expanded. -/
theorem prepare_dispatch_payload (h : prepare_dispatch env http config event now = .ok d) :
    d.payload =
      resolve_event_variables config.payload_template event (toString (clock_seconds now)) := by
  obtain ⟨headers, rfl⟩ := prepare_dispatch_parts h
  rfl

end Prepared

/-! ## The variables of a template -/

/-- The placeholders `substitute` replaces in a template, in order. -/
def occurring (placeholders : List (List Char)) : Nat → List Char → List (List Char)
  | _, [] => []
  | skip + 1, _ :: rest => occurring placeholders skip rest
  | 0, c :: rest =>
      if c = '$' then
        match placeholders.find? fun p => (Text.dropPrefix p (c :: rest)).isSome with
        | some p => p :: occurring placeholders (p.length - 1) rest
        | none => occurring placeholders 0 rest
      else occurring placeholders 0 rest

/-- Two tables with the same placeholders, which agree on the values of those in `names`. -/
def AgreeOn (names : List (List Char)) : List (List Char × List Char) →
    List (List Char × List Char) → Prop :=
  List.Forall₂ fun a b => a.1 = b.1 ∧ (a.1 ∈ names → a.2 = b.2)

/-- What fits in one table fits in the other. -/
theorem AgreeOn.find? {names : List (List Char)} {s t : List (List Char × List Char)}
    (h : AgreeOn names s t) (fits : List Char → Bool) :
    match s.find? fun e => fits e.1 with
    | some a => (s.map Prod.fst).find? fits = some a.1 ∧
        ∃ b, t.find? (fun e => fits e.1) = some b ∧ a.1 = b.1 ∧ (a.1 ∈ names → a.2 = b.2)
    | none => (s.map Prod.fst).find? fits = none ∧ t.find? (fun e => fits e.1) = none := by
  induction h with
  | nil => exact ⟨rfl, rfl⟩
  | @cons a b s t hab _ ih =>
      have hfits : fits b.1 = fits a.1 := congrArg fits hab.1.symm
      cases hf : fits a.1 with
      | true =>
          rw [hf] at hfits
          simp only [List.find?_cons, List.map_cons, hf, hfits]
          exact ⟨trivial, b, rfl, hab⟩
      | false =>
          rw [hf] at hfits
          simp only [List.find?_cons, List.map_cons, hf, hfits]
          exact ih

/-- **An expansion depends on the variables of its template only.** -/
theorem substitute_congr {names : List (List Char)} {s t : List (List Char × List Char)}
    (h : AgreeOn names s t) (skip : Nat) (template : List Char)
    (hnames : ∀ p ∈ occurring (s.map Prod.fst) skip template, p ∈ names) :
    substitute s skip template = substitute t skip template := by
  induction template generalizing skip with
  | nil => cases skip <;> rfl
  | cons c rest ih =>
      cases skip with
      | succ skip => exact ih skip hnames
      | zero =>
          unfold substitute
          unfold occurring at hnames
          by_cases hc : c = '$'
          · have hfind := h.find? fun p => (Text.dropPrefix p (c :: rest)).isSome
            rw [if_pos hc] at hnames
            rw [if_pos hc, if_pos hc]
            cases hs : s.find? fun e => (Text.dropPrefix e.1 (c :: rest)).isSome with
            | none =>
                rw [hs] at hfind
                rw [hfind.1] at hnames
                rw [hfind.2]
                exact congrArg (c :: ·) (ih 0 hnames)
            | some a =>
                rw [hs] at hfind
                obtain ⟨hplace, b, hb, hname, hvalue⟩ := hfind
                rw [hplace] at hnames
                have ha : a.1 ∈ names := hnames a.1 List.mem_cons_self
                have hrest := ih (a.1.length - 1) fun p hp => hnames p (List.mem_cons_of_mem _ hp)
                rw [hb]
                show a.2 ++ _ = b.2 ++ substitute t (b.1.length - 1) rest
                rw [hvalue ha, ← hname, hrest]
          · rw [if_neg hc] at hnames
            rw [if_neg hc, if_neg hc]
            exact congrArg (c :: ·) (ih 0 hnames)

/-- The placeholders of `resolve_event_variables`. -/
def event_placeholders : List (List Char) :=
  ["$target_address".toList, "$ip".toList, "$action".toList, "$event".toList, "$cause".toList,
    "$group_name".toList, "$group_id".toList, "$timestamp".toList]

theorem event_substitutions_placeholders (event : WebhookEvent) (timestamp : String) :
    ((event_substitutions event timestamp).map fun s => (s.1.toList, s.2.toList)).map Prod.fst =
      event_placeholders := by
  simp only [event_substitutions, event_placeholders, List.map_cons, List.map_nil]

/-- The template names the group of the event. -/
def names_group (template : String) : Bool :=
  (occurring event_placeholders 0 template.toList).any fun p =>
    p == "$group_name".toList || p == "$group_id".toList

/-- A template that does not name the group expands alike for all groups. -/
theorem resolve_event_variables_congr {template : String} (h : names_group template = false)
    (event : WebhookEvent) (group_id : Option Uuid) (group_name : Option String)
    (timestamp : String) :
    resolve_event_variables template
        { event with group_id := group_id, group_name := group_name } timestamp =
      resolve_event_variables template event timestamp := by
  have hoccurring : ∀ p ∈ occurring event_placeholders 0 template.toList,
      p ≠ "$group_name".toList ∧ p ≠ "$group_id".toList := by
    intro p hp
    have hnot := (List.any_eq_false.mp h) p hp
    simpa only [Bool.or_eq_true, beq_iff_eq, not_or] using hnot
  unfold resolve_event_variables substitute_placeholders
  refine congrArg String.ofList (substitute_congr
    (?_ : AgreeOn (occurring event_placeholders 0 template.toList) _ _) 0 template.toList ?_)
  · have absent : ∀ (p : List Char) (a b : List Char),
        (p = "$group_name".toList ∨ p = "$group_id".toList) →
        p ∈ occurring event_placeholders 0 template.toList → a = b := by
      rintro p a b hgroup hp
      rcases hgroup with rfl | rfl
      · exact absurd rfl (hoccurring _ hp).1
      · exact absurd rfl (hoccurring _ hp).2
    simp only [event_substitutions, List.map_cons, List.map_nil]
    refine .cons ⟨rfl, fun _ => rfl⟩ <| .cons ⟨rfl, fun _ => rfl⟩ <| .cons ⟨rfl, fun _ => rfl⟩ <|
      .cons ⟨rfl, fun _ => rfl⟩ <| .cons ⟨rfl, fun _ => rfl⟩ <|
      .cons ⟨rfl, absent "$group_name".toList _ _ (.inl rfl)⟩ <|
      .cons ⟨rfl, absent "$group_id".toList _ _ (.inr rfl)⟩ <| .cons ⟨rfl, fun _ => rfl⟩ .nil
  · intro p hp
    rw [event_substitutions_placeholders] at hp
    exact hp

example : names_group "https://siem/$group_id/$ip" = true := by decide
example : names_group "https://siem/$ip?cost=$5" = false := by decide

end IpVault
