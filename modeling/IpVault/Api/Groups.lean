import IpVault.Api.Guards

set_option autoImplicit false

/-! # Group endpoints (`api/groups.rs`) -/

namespace IpVault

open Lib

/-- `CreateIpGroupPayload`. -/
structure CreateIpGroupPayload where
  name : String
  group_type : Option String := none

/-- The type of a new group: anything but `"whitelist"` is a banlist. -/
def CreateIpGroupPayload.resolved_type (p : CreateIpGroupPayload) : String :=
  if p.group_type = some "whitelist" then "whitelist" else "banlist"

/-- The permission row a key gets on a group it creates: no `can_manage`. -/
def creator_permission (key_id group_id : Uuid) (now : Int) : GroupPermission where
  api_key_id := key_id
  group_id := group_id
  can_read := true
  can_write := true
  can_delete := true
  can_manage := false
  created_at := now

/-- A name that is taken is a conflict; any other database error is passed on. -/
def group_insert_error (name : String) : AppError → AppError
  | .DbError .unique_constraint_violation =>
      .Conflict s!"A group named '{name}' already exists"
  | e => e

/-- The row of the creator, which the master does not need. -/
def provision_creator (ctx : Ctx) (group_id : Uuid) : Handler Unit :=
  if ctx.key.is_master then pure ()
  else exec (.insert_permission (creator_permission ctx.key.id group_id ctx.now))

/-- `create_ip_group`. -/
def create_ip_group (ctx : Ctx) (payload : CreateIpGroupPayload) : Handler Response := do
  Prog.require (ctx.key.is_master ∨ ctx.key.can_create_groups) (.Forbidden "Permission denied")
  let inserted ← attempt (.insert_group
    (new_group payload.name payload.resolved_type (resource_owner ctx.key) ctx.now))
  let id ← Prog.ofExcept (inserted.mapError (group_insert_error payload.name))
  provision_creator ctx id
  create_audit_log ctx "GROUP_CREATE" none (some payload.name) none
  pure (json (.obj [("id", .uuid id), ("name", .str payload.name),
    ("group_type", .str payload.resolved_type)]))

/-- `delete_ip_group`. -/
def delete_ip_group (ctx : Ctx) (id : Uuid) : Handler Response := do
  let found ← select (.group_by_id id)
  let group ← Prog.okOr .NotFound found
  Prog.ofExcept (guard_resource_lifecycle ctx.key group.owner_key_id "group" "delete")
  let rows_affected ← exec (.delete_group id)
  Prog.require (rows_affected ≠ 0) .NotFound
  create_audit_log ctx "GROUP_DELETE" none none (some (Uuid.to_string id))
  pure no_content

/-- `reassign_group_owner`. An update by primary key that finds no row is an error. -/
def reassign_group_owner (ctx : Ctx) (id : Uuid) (payload : ReassignOwnerPayload) :
    Handler Response := do
  Prog.require (ctx.key.is_master = true)
    (.Forbidden "Only the master key can reassign resource ownership")
  let found ← select (.group_by_id id)
  let group ← Prog.okOr .NotFound found
  let owner ← resolve_owner_assignment payload.owner_key_id
  let rows_affected ← exec (.set_group_owner id owner)
  Prog.require (rows_affected ≠ 0) (.DbError .record_not_updated)
  create_audit_log ctx "GROUP_OWNER_REASSIGN" none (some group.name) (some (match owner with
    | some owner_id => s!"Owner set to {Uuid.to_string owner_id}"
    | none => "Owner cleared (master-only)"))
  pure (json (.obj [("id", .uuid id), ("owner_key_id", .ofOption .uuid owner)]))

end IpVault
