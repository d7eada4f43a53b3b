import IpVault.Access.Handlers
import IpVault.Auth.Bootstrap
import IpVault.Auth.SingleUse
import IpVault.Front.Routes

set_option autoImplicit false

/-! # The daemon

The service as the network sees it: HTTP requests come in one after the other, are routed, pass the
middleware or do not, and reach a handler; the retention sweep runs beside them. A request is a single
step at one instant, though the source waits in it for the body and for the database and reads its two
clocks on either side: the look-up of the key and the master pin are answered by the store as it is when
the request comes in.

`Frontend.log` reads off a run what reached a handler that talks to the store.
-/

namespace IpVault

open Lib

/-! ## Requests -/

/-- What stays the same while the daemon runs: the functions of other crates and the configuration, the
extractors, and the static files. -/
structure Frontend where
  env : Env
  extract : (e : Endpoint) → List String → HttpRequest → List UInt8 → Except AppError e.Args
  files : HttpRequest → Response

/-- A request that comes in: when, the random values it draws, and how the outside answers it. -/
structure Incoming where
  request : HttpRequest
  now : Int
  entropy : Entropy
  /-- What the names among the trusted proxies resolve to. -/
  trusted_proxies : List IpNetwork
  /-- The error of the look-up of the key, if there is one. -/
  outage : Option DbErr
  rows : RowOrder
  executions : ExecutionOrder
  keys : SetOrder
  audit : AuditOrder
  delivery : TestDelivery

/-- What the client receives. The rows of the audit trail are not rendered. -/
inductive Answer where
  | response (r : Response)
  | audit_logs (logs : List AuditLog)

/-! ## Handlers -/

/-- `IpRecordResponse`, as it is serialized. -/
def IpRecordResponse.to_json (r : IpRecordResponse) : Json :=
  .obj ([("id", .uuid r.id), ("target_address", .str r.target_address),
      ("group_name", .str r.group_name), ("group_type", .str r.group_type),
      ("cause", .ofOption .str r.cause), ("is_locked", .bool r.is_locked),
      ("created_at", .date r.created_at), ("updated_at", .date r.updated_at),
      ("last_seen_at", .date r.last_seen_at), ("is_deleted", .bool r.is_deleted)] ++
    present "deleted_at" (r.deleted_at.map .date) ++ present "deleted_by" (r.deleted_by.map .str))

/-- The three shapes of a listing, as they are serialized. -/
def ListReply.to_json : ListReply → Json
  | .ip_list addresses => .obj [("ip_list", .arr (addresses.map .str))]
  | .envelope data total limit offset total_pages =>
      .obj [("data", .arr (data.map IpRecordResponse.to_json)), ("total", .num total),
        ("limit", .num limit), ("offset", .num offset), ("total_pages", .num total_pages)]
  | .items data => .arr (data.map IpRecordResponse.to_json)

/-- `list_ips`, with its answer. -/
def listed_ips (order : RowOrder) (filters : QueryFilters) (ctx : Ctx) : Handler Response := do
  let reply ← list_ips ctx order filters
  pure (json reply.to_json)

theorem listed_ips_only_reads (order : RowOrder) (filters : QueryFilters) (ctx : Ctx) :
    OnlyReads (listed_ips order filters ctx) :=
  .bind (list_ips_only_reads ctx order filters) fun _ => trivial

theorem list_api_keys_only_reads (order : SetOrder) (ctx : Ctx) :
    OnlyReads (list_api_keys ctx order) := by
  have full : ∀ k, OnlyReads (full_api_key_summary k) := full_api_key_summary_only_reads
  have minimal : ∀ k groups, OnlyReads (minimal_api_key_summary k groups) :=
    fun k groups => .bind (key_group_permissions_only_reads _ _) fun _ => trivial
  have all : ∀ ks, OnlyReads (summarize_all ks) := by
    intro ks
    induction ks with
    | nil => trivial
    | cons k ks ih => exact .bind (full k) fun _ => .bind ih fun _ => trivial
  have own : ∀ ids, OnlyReads (summarize_subtree ids) := by
    intro ids
    induction ids with
    | nil => trivial
    | cons id ids ih =>
        refine .bind (.select _) fun found => ?_
        cases found with
        | none => exact ih
        | some k => exact .bind (full k) fun _ => .bind ih fun _ => trivial
  have shared : ∀ groups ids seen, OnlyReads (summarize_shared groups seen ids) := by
    intro groups ids
    induction ids with
    | nil => exact fun _ => trivial
    | cons id ids ih =>
        intro seen
        unfold summarize_shared
        refine .ite (ih _) (.bind (.select _) fun found => ?_)
        cases found with
        | none => exact ih _
        | some k => exact .bind (minimal k groups) fun _ => .bind (ih _) fun _ => trivial
  have managed : OnlyReads (groups_the_caller_manages ctx.key) :=
    .ite (.bind (.select _) fun _ => trivial) trivial
  have sharing : ∀ groups subtree, OnlyReads (keys_sharing groups subtree) :=
    fun groups subtree => .ite trivial (.bind (.select _) fun _ => trivial)
  refine .bind (.bind (.require _ _) fun _ => .ite (.bind (.select _) fun _ => all _) ?_)
    fun _ => trivial
  exact .bind (collect_key_subtree_only_reads _) fun _ => .bind managed fun _ =>
    .bind (sharing _ _) fun _ => .bind (own _) fun _ => .bind (shared _ _ _) fun _ => trivial

/-- The listing of records, as a call. -/
def Call.ip_listing (order : RowOrder) (filters : QueryFilters) : Call :=
  .read (listed_ips order filters) (listed_ips_only_reads order filters)

/-- The listing of keys, as a call. -/
def Call.key_listing (order : SetOrder) : Call :=
  .read (fun ctx => IpVault.list_api_keys ctx order) (list_api_keys_only_reads order)

theorem executions_only_read (order : ExecutionOrder) (query : WebhookExecutionQuery) (ctx : Ctx) :
    OnlyReads (list_webhook_executions ctx order query) :=
  list_webhook_executions_only_reads ctx order query

/-- The listing of deliveries, as a call. -/
def Call.execution_listing (order : ExecutionOrder) (query : WebhookExecutionQuery) : Call :=
  .read (fun ctx => IpVault.list_webhook_executions ctx order query) (executions_only_read order query)

/-- What a handler is asked to do. -/
inductive Job where
  | call (c : Call)
  | audit_logs (query : AuditLogQuery)

/-- The handler with its arguments. -/
def Endpoint.job (x : Incoming) : (e : Endpoint) → e.Args → Job
  | .get_me, _ => .call (.read IpVault.get_me get_me_only_reads)
  | .list_ips, filters => .call (.ip_listing x.rows filters)
  | .delete_ip, (query_params, body) => .call (.delete_ip query_params body)
  | .delete_ip_record, (id, hard) => .call (.delete_ip_record id hard)
  | .restore_ip_record, id => .call (.restore_ip_record id)
  | .purge_ip_records, body => .call (.purge_ip_records body)
  | .batch_records, payload => .call (.batch_records payload)
  | .handle_ban, payload => .call (.handle_ban payload)
  | .handle_white, payload => .call (.handle_white payload)
  | .create_api_key, payload => .call (.create_api_key payload)
  | .list_api_keys, _ => .call (.key_listing x.keys)
  | .update_api_key, (id, payload) => .call (.update_api_key id payload)
  | .delete_api_key, (id, resolutions) => .call (.delete_api_key id resolutions)
  | .rotate_api_key, id => .call (.rotate_api_key id)
  | .rotate_signing_secret, id => .call (.rotate_signing_secret id)
  | .update_key_group_permissions, (id, payload) => .call (.update_key_group_permissions id payload)
  | .revoke_key_group_permission, (id, group_identifier) =>
      .call (.revoke_key_group_permission id group_identifier)
  | .create_ip_group, payload => .call (.create_ip_group payload)
  | .list_ip_groups, _ => .call (.read IpVault.list_ip_groups list_ip_groups_only_reads)
  | .delete_ip_group, id => .call (.delete_ip_group id)
  | .reassign_group_owner, (id, payload) => .call (.reassign_group_owner id payload)
  | .create_webhook, payload => .call (.create_webhook payload)
  | .list_webhooks, _ => .call (.read IpVault.list_webhooks list_webhooks_only_reads)
  | .list_webhook_executions, query => .call (.execution_listing x.executions query)
  | .delete_webhook_execution, id => .call (.delete_webhook_execution id)
  | .update_webhook, (id, payload) => .call (.update_webhook id payload)
  | .delete_webhook, id => .call (.delete_webhook id)
  | .reassign_webhook_owner, (id, payload) => .call (.reassign_webhook_owner id payload)
  | .test_webhook, id => .call (.test_webhook id x.delivery)
  | .clone_webhook, (id, name) => .call (.clone_webhook id name)
  | .list_audit_logs, query => .audit_logs query

/-! ## Steps -/

/-- The state of the daemon: the store, and what the middleware keeps in memory. -/
structure Daemon where
  store : Vault
  gate : Gate

/-- The request at the middleware. -/
def Incoming.arrival (x : Incoming) (w : World) : Arrival where
  request := x.request
  now := x.now
  trusted_proxies := x.trusted_proxies
  find_key key_hash := match x.outage with
    | some e => .error e
    | none => .ok ((Query.key_by_hash key_hash).eval w)
  master_view := w.master_view

/-- `StatusCode::METHOD_NOT_ALLOWED`. -/
def method_not_allowed : Response := ⟨405, none⟩

/-- A probe: it answers `GET`, without a look at who asks. -/
def probe (request : HttpRequest) (answer : Response) : Response :=
  if request.method = "GET" ∨ request.method = "HEAD" then answer else method_not_allowed

namespace Frontend

variable (F : Frontend)

/-- What a request to the API asks for, if its method has a handler. A request the extractors refuse is
refused by its handler. -/
def job (x : Incoming) (found : List Branch) (params : List String) : Option Job :=
  (endpoint_for found x.request.method).map fun e =>
    match F.extract e params x.request (x.request.body.getD []) with
    | .ok args => e.job x args
    | .error err => .call (.rejected err)

/-- What the handler of a request is given. -/
def ctx (x : Incoming) (p : Principal) : Ctx :=
  ⟨F.env, ⟨p.key, F.env.show_ip p.client_ip⟩, x.now, x.entropy⟩

/-- The handler behind the middleware. -/
def perform (x : Incoming) (p : Principal) (job : Option Job) (v : Vault) : Answer × Vault :=
  match job with
  | none => (.response method_not_allowed, v)
  | some (.audit_logs query) =>
      match list_audit_logs p.key x.audit query v.toWorld with
      | .ok logs => (.audit_logs logs, v)
      | .error e => (.response e.into_response, v)
  | some (.call c) =>
      match (c.handler (F.ctx x p)).run database v with
      | (.ok response, v') => (.response response, v')
      | (.error e, v') => (.response e.into_response, v')

/-- One request: `create_app`, called. -/
def respond (x : Incoming) (d : Daemon) : Answer × Daemon :=
  match route (path_of x.request.target) with
  | .health => (.response (probe x.request health_check), d)
  | .ready =>
      (.response (probe x.request (readiness_check x.outage.isNone d.gate.master_pin)), d)
  | .files => (.response (F.files x.request), d)
  | .api found params =>
      match auth_middleware F.env (x.arrival d.store.toWorld) d.gate with
      | (.error e, gate) => (.response e.into_response, { d with gate })
      | (.ok p, gate) =>
          ((F.perform x p (F.job x found params) d.store).1,
            ⟨(F.perform x p (F.job x found params) d.store).2, gate⟩)

end Frontend

/-- What happens to the daemon. -/
inductive Daemon.Event where
  | incoming (x : Incoming)
  | sweep (now : Int)

/-- One step of a run. -/
def Frontend.step (F : Frontend) : Daemon.Event → Daemon → Option Answer × Daemon
  | .incoming x, d => (some (F.respond x d).1, (F.respond x d).2)
  | .sweep now, d =>
      (none, { d with
        store := ((purge_expired_ip_records now F.env.retention_days).run database d.store).2 })

end IpVault
