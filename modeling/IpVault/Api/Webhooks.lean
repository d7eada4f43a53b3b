import IpVault.Api.Guards

set_option autoImplicit false

/-! # Webhook endpoints that write (`api/webhooks.rs`) -/

namespace IpVault

open Lib

/-! ## Authentication modes -/

/-- `webhook_config::AuthMode`. -/
inductive AuthMode where
  | CanonicalV1
  | HmacOnly
  | ApiKeyOnly
  | None
  deriving DecidableEq

namespace AuthMode

/-- `AuthMode::as_str`. -/
def as_str : AuthMode → String
  | CanonicalV1 => "CANONICAL_V1"
  | HmacOnly => "HMAC_ONLY"
  | ApiKeyOnly => "API_KEY_ONLY"
  | None => "NONE"

/-- `AuthMode::parse`: any casing, and the old spelling of `HMAC_ONLY`. -/
def parse (value : String) : Option AuthMode :=
  match Text.to_ascii_uppercase (Text.trim value) with
  | "CANONICAL_V1" => some CanonicalV1
  | "HMAC_ONLY" => some HmacOnly
  | "BODY_ONLY" => some HmacOnly
  | "API_KEY_ONLY" => some ApiKeyOnly
  | "NONE" => some None
  | _ => none

/-- `AuthMode::from_stored`. -/
def from_stored (value : String) : AuthMode := (parse value).getD HmacOnly

/-- `AuthMode::requires_secret`. -/
def requires_secret : AuthMode → Bool
  | CanonicalV1 | HmacOnly => true
  | ApiKeyOnly | None => false

/-- The text of `AuthMode::ALL.join(", ")`. -/
def all_joined : String := "CANONICAL_V1, HMAC_ONLY, API_KEY_ONLY, NONE"

/-- The refusal of a mode that does not parse. -/
def parse_or_refuse (raw : String) : Except AppError AuthMode :=
  match parse raw with
  | some m => .ok m
  | none => .error (.InvalidInput s!"Invalid auth_mode '{raw}': must be one of {all_joined}")

end AuthMode

/-- `DEFAULT_HMAC_TEMPLATE`. The braces and backslashes are text. -/
def DEFAULT_HMAC_TEMPLATE : String :=
  "\x7bmethod\x7d\\n\x7bpath\x7d\\n\x7btimestamp\x7d\\n\x7bbody\x7d"

/-- `DEFAULT_SIGNATURE_HEADER`. -/
def DEFAULT_SIGNATURE_HEADER : String := "X-Signature-256"

/-- `DEFAULT_SIGNATURE_PREFIX`. -/
def DEFAULT_SIGNATURE_PREFIX : String := "sha256="

/-! ## Validation shared by the endpoints -/

/-- A text field with nothing in it counts as absent. -/
def nonempty (s : Option String) : Option String := s.filter fun v => !Text.is_empty v

/-- A text field, trimmed; nothing left counts as absent. -/
def trimmed (s : Option String) : Option String := nonempty (s.map Text.trim)

/-- Whether a webhook sends a credential. -/
def WebhookConfig.is_privileged (h : WebhookConfig) : Bool := (nonempty h.api_key).isSome

/-- The checks on `target_url`. -/
def validate_target_url (env : Env) (target_url : String) : Except AppError Unit :=
  match env.parse_url target_url with
  | none => .error (.InvalidInput "Invalid target_url: must be a well-formed URL")
  | some url =>
      if url.scheme ≠ "http" ∧ url.scheme ≠ "https" then
        .error (.InvalidInput "Invalid target_url: scheme must be http or https")
      else if url.host_str = none then
        .error (.InvalidInput "Invalid target_url: missing host")
      else .ok ()

/-- The check on `events`: each entry is one of the three actions. -/
def validate_events (events : String) : Except AppError Unit :=
  match ((Text.split ',' events).map Text.trim).find? fun t => !IP_EVENT_ACTIONS.contains t with
  | none => .ok ()
  | some token => .error (.InvalidInput
      s!"Invalid events entry '{token}': must be one of IP_ADD, IP_UPDATE, IP_DELETE")

/-- The check on `hmac_template`. -/
def validate_hmac_template (template : String) : Except AppError Unit :=
  if Text.contains template "\x7bbody\x7d" then .ok ()
  else .error (.InvalidInput
    ("hmac_template must contain \x7bbody\x7d: a signature that does not cover the payload " ++
     "authenticates nothing"))

/-- A check on a field that may be absent. -/
def validate_opt {α : Type} (check : α → Except AppError Unit) :
    Option α → Except AppError Unit
  | none => .ok ()
  | some a => check a

/-- The read access to the group a webhook watches. -/
def webhook_group_guard (ctx : Ctx) (group_id : Uuid) : Handler Unit :=
  if ctx.key.is_master then pure ()
  else do
    let perm ← caller_group_permission ctx.key.id group_id
    Prog.require (perm.any (·.can_read) = true) (.Forbidden
      "Permission denied: you have no read access to the target group")

/-- The webhook, if the caller may act on it: the answer is the one for a webhook that does not
exist. -/
def find_own_webhook (ctx : Ctx) (id : Uuid) : Handler WebhookConfig := do
  Prog.require (ctx.key.is_master ∨ ctx.key.can_manage_webhooks) (.Forbidden "Permission denied")
  let found ← select (.webhook_by_id id)
  let webhook ← Prog.okOr .NotFound found
  Prog.require (ctx.key.is_master ∨ webhook.owner_key_id = some ctx.key.id) .NotFound
  pure webhook

/-- The refusal of a signing mode without a secret. -/
def requires_secret_error (mode : AuthMode) : AppError :=
  .InvalidInput
    s!"auth_mode '{mode.as_str}' computes an HMAC and requires a non-empty secret_token"

/-! ## Creation -/

/-- `CreateWebhookPayload`. -/
structure CreateWebhookPayload where
  name : String
  target_url : String
  secret_token : Option String := none
  headers_json : Option String := none
  payload_template : String
  group_id : Uuid
  is_active : Option Bool := none
  events : Option String := none
  auth_mode : Option String := none
  signature_mode : Option String := none
  api_key : Option String := none
  hmac_template : Option String := none
  signature_header : Option String := none
  signature_prefix : Option String := none

/-- The checks of `create_webhook` on credentials, once the mode is known. -/
def validate_new_credentials (mode : AuthMode) (payload : CreateWebhookPayload) :
    Except AppError Unit :=
  if mode.requires_secret ∧ Text.is_empty (payload.secret_token.getD "") then
    .error (requires_secret_error mode)
  else if mode = .ApiKeyOnly ∧ trimmed payload.api_key = none then
    .error (.InvalidInput "auth_mode 'API_KEY_ONLY' requires a non-empty api_key")
  else validate_opt validate_hmac_template (nonempty payload.hmac_template)

/-- The row `create_webhook` inserts. -/
def new_webhook (ctx : Ctx) (payload : CreateWebhookPayload) (mode : AuthMode) :
    WebhookConfig where
  id := 0
  name := payload.name
  target_url := payload.target_url
  secret_token := payload.secret_token.getD ""
  auth_mode := mode.as_str
  api_key := trimmed payload.api_key
  hmac_template := nonempty payload.hmac_template
  signature_header := trimmed payload.signature_header
  signature_prefix := payload.signature_prefix
  headers_json := payload.headers_json
  payload_template := payload.payload_template
  group_id := payload.group_id
  is_active := payload.is_active.getD true
  events := payload.events
  owner_key_id := resource_owner ctx.key
  created_at := ctx.now

/-- `create_webhook`. -/
def create_webhook (ctx : Ctx) (payload : CreateWebhookPayload) : Handler Response := do
  Prog.require (ctx.key.is_master ∨ ctx.key.can_manage_webhooks) (.Forbidden "Permission denied")
  webhook_group_guard ctx payload.group_id
  Prog.ofExcept (validate_target_url ctx.env payload.target_url)
  Prog.ofExcept (validate_opt validate_events payload.events)
  let mode ← Prog.ofExcept (match payload.auth_mode.or payload.signature_mode with
    | none => .ok .CanonicalV1
    | some raw => AuthMode.parse_or_refuse raw)
  Prog.ofExcept (validate_new_credentials mode payload)
  let id ← exec (.insert_webhook (new_webhook ctx payload mode))
  create_audit_log ctx "WEBHOOK_CREATE" none none (some payload.target_url)
  pure (json (.obj [("id", .uuid id), ("target_url", .str payload.target_url),
    ("auth_mode", .str mode.as_str)]))

/-! ## Update -/

/-- `WebhookSummary`, as its fields are serialized. -/
def webhook_summary (h : WebhookConfig) : List (String × Json) :=
  [("id", .uuid h.id), ("name", .str h.name), ("target_url", .str h.target_url),
    ("headers_json", .ofOption .str h.headers_json),
    ("payload_template", .str h.payload_template), ("group_id", .uuid h.group_id),
    ("is_active", .bool h.is_active), ("events", .ofOption .str h.events),
    ("auth_mode", .str (AuthMode.from_stored h.auth_mode).as_str),
    ("hmac_template", .str (h.hmac_template.getD DEFAULT_HMAC_TEMPLATE)),
    ("has_api_key", .bool h.is_privileged),
    ("signature_header", .str (h.signature_header.getD DEFAULT_SIGNATURE_HEADER)),
    ("signature_prefix", .str (h.signature_prefix.getD DEFAULT_SIGNATURE_PREFIX)),
    ("created_at", .date h.created_at)]

/-- `UpdateWebhookPayload`. -/
structure UpdateWebhookPayload where
  name : Option String := none
  target_url : Option String := none
  hmac_template : Option String := none
  secret_token : Option String := none
  headers_json : Option String := none
  payload_template : Option String := none
  events : Option String := none
  is_active : Option Bool := none
  group_id : Option Uuid := none
  auth_mode : Option String := none
  api_key : Option String := none
  signature_header : Option String := none
  signature_prefix : Option String := none

/-- The check of `update_webhook` on a new group. -/
def update_group_guard (ctx : Ctx) (target : WebhookConfig) (group_id : Option Uuid) :
    Handler Unit :=
  match group_id with
  | none => pure ()
  | some gid => if gid = target.group_id then pure () else webhook_group_guard ctx gid

/-- The requested `auth_mode`, parsed. -/
def requested_mode (payload : UpdateWebhookPayload) : Except AppError (Option AuthMode) :=
  match payload.auth_mode with
  | none => .ok none
  | some raw => (AuthMode.parse_or_refuse raw).map some

/-- What `update_webhook` works out about a request before it writes. -/
structure WebhookEdit where
  target : WebhookConfig
  payload : UpdateWebhookPayload
  requested : Option AuthMode

namespace WebhookEdit

def url_changed (e : WebhookEdit) : Bool := e.payload.target_url.any (· != e.target.target_url)

def template_changed (e : WebhookEdit) : Bool :=
  (nonempty e.payload.hmac_template).any
    (· != e.target.hmac_template.getD DEFAULT_HMAC_TEMPLATE)

def current_mode (e : WebhookEdit) : AuthMode := AuthMode.from_stored e.target.auth_mode

def auth_mode_changed (e : WebhookEdit) : Bool := e.requested.any (· != e.current_mode)

def effective_mode (e : WebhookEdit) : AuthMode := e.requested.getD e.current_mode

/-- The requested `api_key`: absent, or set to a value, or cleared. -/
def requested_api_key (e : WebhookEdit) : Option (Option String) :=
  e.payload.api_key.map fun v => nonempty (some (Text.trim v))

def api_key_changed (e : WebhookEdit) : Bool := e.requested_api_key.isSome

def effective_api_key (e : WebhookEdit) : Option String :=
  e.requested_api_key.getD e.target.api_key

def must_rotate (e : WebhookEdit) : Bool :=
  (e.url_changed || e.template_changed || e.auth_mode_changed) && e.effective_mode.requires_secret

def supplied_secret (e : WebhookEdit) : Option String := trimmed e.payload.secret_token

/-- The secret generated because the request must rotate and supplies none. -/
def generated_secret (e : WebhookEdit) (signing_secret : String) : Option String :=
  if e.must_rotate && e.supplied_secret.isNone then some signing_secret else none

def new_secret (e : WebhookEdit) (signing_secret : String) : Option String :=
  e.supplied_secret.or (e.generated_secret signing_secret)

/-- The gate on a webhook that sends a credential, and the checks on credentials. -/
def validate (e : WebhookEdit) (caller : ApiKey) (signing_secret : String) :
    Except AppError Unit :=
  if (e.url_changed || e.template_changed || e.auth_mode_changed || e.api_key_changed) &&
      e.target.is_privileged && !caller.is_master then
    .error (.Forbidden
      ("This webhook sends an api_key credential; only a master key may change its target_url, " ++
       "hmac_template, auth_mode, or api_key"))
  else if e.effective_mode = .ApiKeyOnly ∧ e.effective_api_key = none then
    .error (.InvalidInput "auth_mode 'API_KEY_ONLY' requires a non-empty api_key")
  else if e.effective_mode.requires_secret ∧
      e.new_secret signing_secret = none ∧ Text.is_empty e.target.secret_token then
    .error (requires_secret_error e.effective_mode)
  else .ok ()

/-- The columns `update_webhook` sets. -/
def change (e : WebhookEdit) (signing_secret : String) : Txn.WebhookChange where
  name := e.payload.name
  target_url := e.payload.target_url
  secret_token := e.new_secret signing_secret
  auth_mode := e.requested.map AuthMode.as_str
  api_key := e.requested_api_key
  hmac_template := e.payload.hmac_template.map fun t => nonempty (some t)
  signature_header := e.payload.signature_header.map fun h => nonempty (some (Text.trim h))
  signature_prefix := e.payload.signature_prefix
  headers_json := e.payload.headers_json
  payload_template := e.payload.payload_template
  group_id := e.payload.group_id
  is_active := e.payload.is_active
  events := e.payload.events

end WebhookEdit

/-- `update_webhook`. -/
def update_webhook (ctx : Ctx) (id : Uuid) (payload : UpdateWebhookPayload) :
    Handler Response := do
  let target ← find_own_webhook ctx id
  Prog.ofExcept (validate_opt (validate_target_url ctx.env) payload.target_url)
  Prog.ofExcept (validate_opt validate_events payload.events)
  Prog.ofExcept (validate_opt validate_hmac_template payload.hmac_template)
  update_group_guard ctx target payload.group_id
  let requested ← Prog.ofExcept (requested_mode payload)
  let edit : WebhookEdit := ⟨target, payload, requested⟩
  Prog.ofExcept (edit.validate ctx.key ctx.entropy.signing_secret)
  let updated ← exec (.update_webhook id (edit.change ctx.entropy.signing_secret))
  create_audit_log ctx "WEBHOOK_UPDATE" none none (some
    (if edit.must_rotate then s!"Updated webhook '{updated.name}' (secret_token rotated)"
    else s!"Updated webhook '{updated.name}'"))
  let secret := (edit.generated_secret ctx.entropy.signing_secret).map fun s =>
    ("secret_token", Json.str s)
  pure (json (.obj (webhook_summary updated ++ [("secret_rotated", .bool edit.must_rotate)] ++
    secret.toList)))

/-! ## Cloning, deletion, reassignment -/

/-- The row `clone_webhook` inserts. -/
def cloned_webhook (ctx : Ctx) (source : WebhookConfig) (name : String)
    (secret_token : String) : WebhookConfig :=
  { source with
    id := 0
    name
    secret_token
    auth_mode := (AuthMode.from_stored source.auth_mode).as_str
    owner_key_id := resource_owner ctx.key
    created_at := ctx.now }

/-- `clone_webhook`. -/
def clone_webhook (ctx : Ctx) (id : Uuid) (name : String) : Handler Response := do
  let source ← find_own_webhook ctx id
  webhook_group_guard ctx source.group_id
  Prog.require (source.is_privileged = false ∨ ctx.key.is_master = true) (.Forbidden
    "This webhook sends an api_key credential; only a master key may clone it")
  let generated_secret := if (AuthMode.from_stored source.auth_mode).requires_secret then
    some ctx.entropy.signing_secret else none
  let cloned := cloned_webhook ctx source name (generated_secret.getD "")
  let new_id ← exec (.insert_webhook cloned)
  create_audit_log ctx "WEBHOOK_CLONE" none none (some
    s!"Cloned '{source.name}' ({Uuid.to_string source.id}) as '{name}' ({Uuid.to_string new_id})")
  pure ⟨201, some (.obj (webhook_summary { cloned with id := new_id } ++
    (generated_secret.map fun s => ("secret_token", Json.str s)).toList))⟩

/-- `delete_webhook`. -/
def delete_webhook (ctx : Ctx) (id : Uuid) : Handler Response := do
  let _ ← find_own_webhook ctx id
  let rows_affected ← exec (.delete_webhook id)
  Prog.require (rows_affected ≠ 0) .NotFound
  create_audit_log ctx "WEBHOOK_DELETE" none none (some (Uuid.to_string id))
  pure no_content

/-- `reassign_webhook_owner`. An update by primary key that finds no row is an error. -/
def reassign_webhook_owner (ctx : Ctx) (id : Uuid) (payload : ReassignOwnerPayload) :
    Handler Response := do
  Prog.require (ctx.key.is_master = true)
    (.Forbidden "Only the master key can reassign resource ownership")
  let found ← select (.webhook_by_id id)
  let webhook ← Prog.okOr .NotFound found
  let owner ← resolve_owner_assignment payload.owner_key_id
  let rows_affected ← exec (.set_webhook_owner id owner)
  Prog.require (rows_affected ≠ 0) (.DbError .record_not_updated)
  create_audit_log ctx "WEBHOOK_OWNER_REASSIGN" none none (some (match owner with
    | some owner_id => s!"Owner of '{webhook.name}' set to {Uuid.to_string owner_id}"
    | none => s!"Owner of '{webhook.name}' cleared (master-only)"))
  pure (json (.obj [("id", .uuid id), ("owner_key_id", .ofOption .uuid owner)]))

/-! ## Test deliveries and their history -/

/-- What `send_test_dispatch` brings back from the network: the outcome it reports, and the row
it logs when a request was sent at all. -/
structure TestDelivery where
  success : Bool
  error : Option String
  result : Json
  logged : Option WebhookExecution

/-- The outcome, as the audit row of a test words it. -/
def TestDelivery.outcome (d : TestDelivery) : String :=
  if d.success then "delivered" else "failed — " ++ d.error.getD "unknown error"

/-- `log_execution`: a failure to log is itself only logged. -/
def log_execution (webhook_id : Uuid) (logged : Option WebhookExecution) : Handler Unit :=
  match logged with
  | none => pure ()
  | some row => do
      let _ ← attempt (.insert_execution { row with webhook_id, event_type := "TEST" })
      pure ()

/-- `test_webhook`. -/
def test_webhook (ctx : Ctx) (id : Uuid) (delivery : TestDelivery) : Handler Response := do
  let target ← find_own_webhook ctx id
  let _ ← select (.group_by_id target.group_id)
  log_execution id delivery.logged
  create_audit_log ctx "WEBHOOK_TEST" none none (some
    s!"Tested webhook '{target.name}': {delivery.outcome}")
  pure (json delivery.result)

/-- The owner of the webhook an execution belongs to. -/
def execution_guard (ctx : Ctx) (execution : WebhookExecution) : Handler Unit :=
  if ctx.key.is_master then pure ()
  else do
    let found ← select (.webhook_by_id execution.webhook_id)
    Prog.require (found.bind WebhookConfig.owner_key_id = some ctx.key.id) .NotFound

/-- `delete_webhook_execution`. -/
def delete_webhook_execution (ctx : Ctx) (id : Uuid) : Handler Response := do
  Prog.require (ctx.key.is_master ∨ ctx.key.can_manage_webhooks) (.Forbidden "Permission denied")
  let found ← select (.execution_by_id id)
  let execution ← Prog.okOr .NotFound found
  execution_guard ctx execution
  let rows_affected ← exec (.delete_execution id)
  Prog.require (rows_affected ≠ 0) .NotFound
  create_audit_log ctx "WEBHOOK_EXECUTION_DELETE" none none (some (Uuid.to_string id))
  pure no_content

end IpVault
