import IpVault.Api.KeyListing
import IpVault.Api.Listing
import IpVault.Auth.Master

set_option autoImplicit false

/-! # What a caller can look up about itself and the service

`get_me` in `api/keys.rs`, `list_ip_groups` in `api/groups.rs`, `list_audit_logs` in `api/audit.rs` and
the probes of `api/health.rs`.
-/

namespace IpVault

open Lib

/-! ## The caller -/

/-- `MeResponse`. -/
structure MeResponse where
  id : Uuid
  name : String
  bound_ips : Option String
  is_master : Bool
  can_manage_keys : Bool
  can_manage_webhooks : Bool
  can_create_groups : Bool
  group_permissions : List MePermission

/-- `MeResponse`, as it is serialized. -/
def MeResponse.to_json (m : MeResponse) : Json :=
  .obj [("id", .uuid m.id), ("name", .str m.name), ("bound_ips", .ofOption .str m.bound_ips),
    ("is_master", .bool m.is_master), ("can_manage_keys", .bool m.can_manage_keys),
    ("can_manage_webhooks", .bool m.can_manage_webhooks),
    ("can_create_groups", .bool m.can_create_groups),
    ("group_permissions", .arr (m.group_permissions.map MePermission.to_json))]

/-- `get_me`. -/
def get_me (ctx : Ctx) : Handler Response := do
  let perms ← select (.permissions_with_groups ctx.key.id)
  pure (json (MeResponse.to_json {
    id := ctx.key.id
    name := ctx.key.name
    bound_ips := ctx.key.bound_ips
    is_master := ctx.key.is_master
    can_manage_keys := ctx.key.can_manage_keys
    can_manage_webhooks := ctx.key.can_manage_webhooks
    can_create_groups := ctx.key.can_create_groups
    group_permissions := me_permissions none perms }))

/-! ## Groups -/

/-- `ip_group::Model`, as it is serialized. -/
def group_json (g : IpGroup) : Json :=
  .obj [("id", .uuid g.id), ("name", .str g.name), ("group_type", .str g.group_type),
    ("description", .ofOption .str g.description), ("owner_key_id", .ofOption .uuid g.owner_key_id),
    ("created_at", .date g.created_at)]

/-- A permission row with any verb. -/
def GroupPermission.any (p : GroupPermission) : Bool :=
  p.can_read || p.can_write || p.can_delete || p.can_manage

/-- The groups `list_ip_groups` lists. -/
def visible_groups (ctx : Ctx) : Handler (List IpGroup) :=
  if ctx.key.is_master then select .all_groups
  else do
    let rows ← select (.permissions_of ctx.key.id)
    let accessible_groups := (rows.filter GroupPermission.any).map GroupPermission.group_id
    if accessible_groups = [] then pure []
    else do
      let groups ← select .all_groups
      pure (groups.filter fun g => accessible_groups.contains g.id)

/-- `list_ip_groups`. -/
def list_ip_groups (ctx : Ctx) : Handler Response := do
  let groups ← visible_groups ctx
  pure (json (.arr (groups.map group_json)))

/-! ## The audit trail -/

/-- `AuditLogQuery`. -/
structure AuditLogQuery where
  action : Option String := none
  limit : Option Nat := none
  offset : Option Nat := none

/-- An order in which the database may return the rows of `ORDER BY timestamp DESC`: rows with equal
timestamps come in any order. -/
structure AuditOrder where
  arrange : List AuditLog → List AuditLog
  perm : ∀ rows, (arrange rows).Perm rows
  sorted : ∀ rows, (arrange rows).Pairwise fun a b => b.timestamp ≤ a.timestamp

/-- `list_audit_logs`, before it is serialized. -/
def list_audit_logs (key : ApiKey) (order : AuditOrder) (query : AuditLogQuery) (w : World) :
    Except AppError (List AuditLog) :=
  if !key.is_master then .error (.Forbidden "Only master keys can view audit logs")
  else
    let rows := match query.action.filter fun action => !Text.is_empty action with
      | none => w.audit_logs
      | some action => w.audit_logs.filter fun a => a.action = action
    .ok (((order.arrange rows).drop (query.offset.getD 0)).take (query.limit.getD 50))

/-! ## Probes -/

/-- `health_check`. -/
def health_check : Response :=
  json (.obj [("status", .str "ok"), ("service", .str "simply_ip_vault")])

/-- `readiness_check`, with what the database answers. -/
def readiness_check (database_answers : Bool) (master_pin : MasterPin) : Response :=
  if !database_answers then
    ⟨503, some (.obj [("status", .str "unavailable"), ("database", .str "down")])⟩
  else if master_pin.cell.isNone then
    ⟨503, some (.obj [("status", .str "unavailable"), ("database", .str "up")])⟩
  else json (.obj [("status", .str "ready"), ("database", .str "up")])

/-! ## Looking up is reading -/

theorem get_me_only_reads (ctx : Ctx) : OnlyReads (get_me ctx) := .bind (.select _) fun _ => trivial

theorem list_ip_groups_only_reads (ctx : Ctx) : OnlyReads (list_ip_groups ctx) := by
  have visible : OnlyReads (visible_groups ctx) := by
    unfold visible_groups
    split
    · exact .select _
    · exact .bind (.select _) fun _ => .ite trivial (.bind (.select _) fun _ => trivial)
  exact .bind visible fun _ => trivial

end IpVault
