import IpVault.Api.Lookups
import IpVault.Api.WebhookListing
import IpVault.Auth.Middleware
import IpVault.Service

set_option autoImplicit false

/-! # The routes (`create_app` in `lib.rs`)

A path leads to a probe, to the API or to the static files. The API lies under `/api` and behind
`auth_middleware`; a segment of a path prefers a route that names it to one that takes it for a
parameter. What the extractors make of a request is left to them: the arguments of each handler are a
type of their own.
-/

namespace IpVault

open Lib

/-! ## Handlers -/

/-- The handlers of the API. -/
inductive Endpoint where
  | get_me
  | list_ips
  | delete_ip
  | delete_ip_record
  | restore_ip_record
  | purge_ip_records
  | batch_records
  | handle_ban
  | handle_white
  | create_api_key
  | list_api_keys
  | update_api_key
  | delete_api_key
  | rotate_api_key
  | rotate_signing_secret
  | update_key_group_permissions
  | revoke_key_group_permission
  | create_ip_group
  | list_ip_groups
  | delete_ip_group
  | reassign_group_owner
  | create_webhook
  | list_webhooks
  | list_webhook_executions
  | delete_webhook_execution
  | update_webhook
  | delete_webhook
  | reassign_webhook_owner
  | test_webhook
  | clone_webhook
  | list_audit_logs
  deriving DecidableEq

/-- What the extractors of a handler take from a request. -/
def Endpoint.Args : Endpoint → Type
  | get_me | list_api_keys | list_ip_groups | list_webhooks => Unit
  | list_ips => QueryFilters
  | delete_ip => DeleteIpQuery × OptionalBody DeleteIpQuery
  | delete_ip_record => Uuid × Option Bool
  | purge_ip_records => OptionalBody (Option Int)
  | batch_records => BatchRecordsPayload
  | handle_ban | handle_white => BanWhitePayload
  | create_api_key => CreateApiKeyPayload
  | update_api_key => Uuid × UpdateApiKeyPayload
  | delete_api_key => Uuid × List ResolutionEntry
  | restore_ip_record | rotate_api_key | rotate_signing_secret | delete_ip_group | delete_webhook
  | delete_webhook_execution | test_webhook => Uuid
  | update_key_group_permissions => Uuid × GroupPermInput
  | revoke_key_group_permission => Uuid × String
  | create_ip_group => CreateIpGroupPayload
  | reassign_group_owner | reassign_webhook_owner => Uuid × ReassignOwnerPayload
  | create_webhook => CreateWebhookPayload
  | list_webhook_executions => WebhookExecutionQuery
  | update_webhook => Uuid × UpdateWebhookPayload
  | clone_webhook => Uuid × String
  | list_audit_logs => AuditLogQuery

/-! ## Paths -/

/-- A segment of a route. -/
inductive Segment where
  | literal (text : String)
  | param
  deriving DecidableEq

/-- A route, as it is registered. -/
structure Route where
  path : String
  method : String
  endpoint : Endpoint

/-- The routes under `/api`. -/
def api_routes : List Route :=
  [⟨"auth/me", "GET", .get_me⟩,
    ⟨"ips", "GET", .list_ips⟩,
    ⟨"ips", "DELETE", .delete_ip⟩,
    ⟨"ips/{id}", "DELETE", .delete_ip_record⟩,
    ⟨"ips/{id}/restore", "POST", .restore_ip_record⟩,
    ⟨"system/purge-ips", "POST", .purge_ip_records⟩,
    ⟨"records/batch", "POST", .batch_records⟩,
    ⟨"ban", "POST", .handle_ban⟩,
    ⟨"white", "POST", .handle_white⟩,
    ⟨"keys", "POST", .create_api_key⟩,
    ⟨"keys", "GET", .list_api_keys⟩,
    ⟨"keys/{id}", "PUT", .update_api_key⟩,
    ⟨"keys/{id}", "DELETE", .delete_api_key⟩,
    ⟨"keys/{id}/rotate", "POST", .rotate_api_key⟩,
    ⟨"keys/{id}/rotate-secret", "POST", .rotate_signing_secret⟩,
    ⟨"keys/{id}/groups", "POST", .update_key_group_permissions⟩,
    ⟨"keys/{id}/permissions", "POST", .update_key_group_permissions⟩,
    ⟨"keys/{id}/permissions/{group_identifier}", "DELETE", .revoke_key_group_permission⟩,
    ⟨"groups", "POST", .create_ip_group⟩,
    ⟨"groups", "GET", .list_ip_groups⟩,
    ⟨"groups/{id}", "DELETE", .delete_ip_group⟩,
    ⟨"ip_groups", "POST", .create_ip_group⟩,
    ⟨"ip_groups", "GET", .list_ip_groups⟩,
    ⟨"ip_groups/{id}", "DELETE", .delete_ip_group⟩,
    ⟨"groups/{id}/owner", "PUT", .reassign_group_owner⟩,
    ⟨"ip_groups/{id}/owner", "PUT", .reassign_group_owner⟩,
    ⟨"webhooks", "POST", .create_webhook⟩,
    ⟨"webhooks", "GET", .list_webhooks⟩,
    ⟨"webhooks/executions", "GET", .list_webhook_executions⟩,
    ⟨"webhooks/executions/{id}", "DELETE", .delete_webhook_execution⟩,
    ⟨"webhooks/{id}", "PUT", .update_webhook⟩,
    ⟨"webhooks/{id}", "DELETE", .delete_webhook⟩,
    ⟨"webhooks/{id}/owner", "PUT", .reassign_webhook_owner⟩,
    ⟨"webhooks/{id}/test", "POST", .test_webhook⟩,
    ⟨"webhooks/{id}/clone", "POST", .clone_webhook⟩,
    ⟨"audit-logs", "GET", .list_audit_logs⟩]

/-- A segment in braces takes any text. -/
def Segment.of (s : String) : Segment := if Text.starts_with s "\x7b" then .param else .literal s

/-- What is left of a route while its path is followed. -/
structure Branch where
  left : List Segment
  method : String
  endpoint : Endpoint

/-- The whole of a route. -/
def Route.branch (r : Route) : Branch :=
  ⟨(Text.split '/' r.path).map .of, r.method, r.endpoint⟩

/-- The branch behind this segment, if it begins with it. -/
def Branch.behind (segment : Segment) (b : Branch) : Option Branch :=
  match b.left with
  | [] => none
  | s :: rest => if s = segment then some { b with left := rest } else none

/-- Follow the segments of a path: the routes that end there, and the parameters on the way. -/
def descend : List Branch → List String → Option (List Branch × List String)
  | branches, [] =>
      match branches.filter fun b => b.left = [] with
      | [] => none
      | found => some (found, [])
  | branches, s :: rest =>
      match descend (branches.filterMap (Branch.behind (.literal s))) rest with
      | some found => some found
      | none =>
          if s = "" then none
          else (descend (branches.filterMap (Branch.behind .param)) rest).map fun found =>
            (found.1, s :: found.2)

/-- Where a path leads. -/
inductive Routed where
  | health
  | ready
  | api (found : List Branch) (params : List String)
  | files
  deriving Inhabited

/-- The path of a request target. -/
def path_of (target : String) : String := ((Text.split '?' target).head?).getD ""

/-- `create_app`: what a path leads to. A path under `/api` without a route is a file. -/
def route (path : String) : Routed :=
  if path = "/health" ∨ path = "/healthz" then .health
  else if path = "/ready" ∨ path = "/readyz" then .ready
  else
    match Text.strip_prefix path "/api/" with
    | none => .files
    | some inner =>
        match descend (api_routes.map Route.branch) (Text.split '/' inner) with
        | none => .files
        | some found => .api found.1 found.2

/-- The handler of a method; that of `GET` answers `HEAD` as well. -/
def endpoint_for (found : List Branch) (method : String) : Option Endpoint :=
  ((found.find? fun b => b.method = method).or
    (if method = "HEAD" then found.find? fun b => b.method = "GET" else none)).map Branch.endpoint

example : (match route "/api/webhooks/executions/7" with
    | .api found params => (endpoint_for found "DELETE", params)
    | _ => (none, [])) = (some .delete_webhook_execution, ["7"]) := by decide +kernel

end IpVault
