import IpVault.Error
import IpVault.Lib.Calendar
import IpVault.Schema.World

set_option autoImplicit false

/-! # The writes

One definition for each write the service sends to the database, with the constraint it can
violate and what the schema makes follow from it. A `Txn` is a write, or several writes that
commit together: on an error nothing of it is kept.

The identifier of a new row is drawn by the write that stores the row. An `UPDATE` is given as
a record of the columns it sets; columns it does not name keep the value they have when the
update runs, not the value the handler read earlier.

Each write comes with the lemma that it leads from a well-formed store to a well-formed store.
-/

namespace IpVault

open Lib

/-- Writes that commit together. -/
abbrev Txn := StateT World (Except AppError)

namespace Txn

/-- Give up with a database error. -/
def db_error {α : Type} (e : DbErr) : Except AppError α := .error (.DbError e)

/-- Refuse, inside a transaction. -/
def refuse {α : Type} (e : AppError) : Txn α := fun _ => .error e

/-- Read, inside a transaction. -/
def read {α : Type} (f : World → α) : Txn α := fun w => .ok (f w, w)

/-! ## Keys -/

/-- The columns an `UPDATE` of `api_keys` sets. -/
structure KeyChange where
  name : Option String := none
  bound_ips : Option String := none
  key_hash : Option String := none
  key_prefix : Option String := none
  signing_secret : Option String := none
  can_manage_keys : Option Bool := none
  can_manage_webhooks : Option Bool := none
  can_create_groups : Option Bool := none
  updated_at : Int

/-- The row an `UPDATE` of `api_keys` leaves. -/
def KeyChange.apply (c : KeyChange) (k : ApiKey) : ApiKey :=
  { k with
    name := c.name.getD k.name
    bound_ips := c.bound_ips.or k.bound_ips
    key_hash := c.key_hash.getD k.key_hash
    key_prefix := c.key_prefix.getD k.key_prefix
    signing_secret := c.signing_secret.or k.signing_secret
    can_manage_keys := c.can_manage_keys.getD k.can_manage_keys
    can_manage_webhooks := c.can_manage_webhooks.getD k.can_manage_webhooks
    can_create_groups := c.can_create_groups.getD k.can_create_groups
    updated_at := c.updated_at }

@[simp] theorem KeyChange.apply_id (c : KeyChange) (k : ApiKey) : (c.apply k).id = k.id := rfl

/-- `INSERT INTO api_keys`. -/
def insert_key (k : ApiKey) : Txn Uuid := fun w =>
  if w.keys.any fun k' => k'.key_hash = k.key_hash then
    db_error .unique_constraint_violation
  else
    .ok (w.next_uuid,
      { w with
        keys := w.keys.insert { k with id := w.next_uuid }
        next_uuid := w.next_uuid + 1 })

/-- `UPDATE api_keys … WHERE id = ?`, which returns the row it leaves. -/
def update_key (id : Uuid) (c : KeyChange) : Txn ApiKey := fun w =>
  match w.keys.find? id with
  | none => db_error .record_not_updated
  | some k =>
      if w.keys.any fun k' => k'.id ≠ id ∧ k'.key_hash = (c.apply k).key_hash then
        db_error .unique_constraint_violation
      else
        .ok (c.apply k, { w with keys := w.keys.modify id c.apply c.apply_id })

/-- An audit row after the keys `ids` are gone: the foreign key is `ON DELETE SET NULL`. -/
def forget_keys (ids : List Uuid) (a : AuditLog) : AuditLog :=
  if a.api_key_id.any (ids.contains ·) then { a with api_key_id := none } else a

/-- `DELETE FROM api_keys WHERE id IN (…)`. Permission rows go with their key. -/
def delete_keys (ids : List Uuid) : Txn Nat := fun w =>
  .ok ((w.keys.rows.filter fun k => ids.contains k.id).length,
    { w with
      keys := w.keys.filter fun k => !ids.contains k.id
      permissions := w.permissions.filter fun p => !ids.contains p.api_key_id
      audit_logs := w.audit_logs.map (forget_keys ids) })

/-! ## Permissions -/

/-- Both ends of a permission row must exist. -/
def permission_ends (w : World) (p : GroupPermission) : Bool :=
  w.keys.has p.api_key_id && w.groups.has p.group_id

/-- `INSERT INTO api_key_group_permissions`. -/
def insert_permission (p : GroupPermission) : Txn Unit := fun w =>
  if w.permissions.has p.key then db_error .unique_constraint_violation
  else if !permission_ends w p then db_error .foreign_key_constraint_violation
  else .ok ((), { w with permissions := w.permissions.insert p })

/-- The same with `ON CONFLICT (api_key_id, group_id) DO NOTHING`. -/
def insert_permission_or_ignore (p : GroupPermission) : Txn Unit := fun w =>
  if !permission_ends w p then db_error .foreign_key_constraint_violation
  else .ok ((), { w with permissions := w.permissions.insert p })

/-- The row a conflicting insert leaves: the four verbs are overwritten, the rest is kept. -/
def overwrite_verbs (p q : GroupPermission) : GroupPermission :=
  { q with
    can_read := p.can_read
    can_write := p.can_write
    can_delete := p.can_delete
    can_manage := p.can_manage }

@[simp] theorem overwrite_verbs_key (p q : GroupPermission) : (overwrite_verbs p q).key = q.key :=
  rfl

/-- The same with `ON CONFLICT (api_key_id, group_id) DO UPDATE` of the four verbs. -/
def upsert_permission (p : GroupPermission) : Txn Unit := fun w =>
  if !permission_ends w p then db_error .foreign_key_constraint_violation
  else .ok ((),
    { w with
      permissions :=
        (w.permissions.modify p.key (overwrite_verbs p) (overwrite_verbs_key p)).insert p })

/-- `DELETE FROM api_key_group_permissions WHERE api_key_id = ? AND group_id = ?`. -/
def delete_permission (key_id group_id : Uuid) : Txn Nat := fun w =>
  .ok (if w.permissions.has (key_id, group_id) then 1 else 0,
    { w with permissions := w.permissions.filter fun p => p.key ≠ (key_id, group_id) })

/-! ## Groups -/

/-- `INSERT INTO ip_groups`. -/
def insert_group (g : IpGroup) : Txn Uuid := fun w =>
  if (w.group_named g.name).isSome then db_error .unique_constraint_violation
  else
    .ok (w.next_uuid,
      { w with
        groups := w.groups.insert { g with id := w.next_uuid }
        next_uuid := w.next_uuid + 1 })

/-- The same with `ON CONFLICT (name) DO NOTHING`. -/
def insert_group_or_ignore (g : IpGroup) : Txn Unit := fun w =>
  if (w.group_named g.name).isSome then .ok ((), w)
  else
    .ok ((),
      { w with
        groups := w.groups.insert { g with id := w.next_uuid }
        next_uuid := w.next_uuid + 1 })

/-- A group under another owner. -/
def own_group (owner : Option Uuid) (g : IpGroup) : IpGroup := { g with owner_key_id := owner }

@[simp] theorem own_group_id (owner : Option Uuid) (g : IpGroup) : (own_group owner g).id = g.id :=
  rfl

/-- `UPDATE ip_groups SET owner_key_id = ? WHERE id = ?`, by `update_many`: the number of rows
it touched. -/
def set_group_owner (id : Uuid) (owner : Option Uuid) : Txn Nat := fun w =>
  .ok (if w.groups.has id then 1 else 0,
    { w with groups := w.groups.modify id (own_group owner) (own_group_id owner) })

/-- `DELETE FROM ip_groups WHERE id = ?`. Permissions, memberships and webhooks go with their
group, and executions with their webhook. -/
def delete_group (id : Uuid) : Txn Nat := fun w =>
  let webhooks := w.webhooks.filter fun h => h.group_id ≠ id
  .ok (if w.groups.has id then 1 else 0,
    { w with
      groups := w.groups.filter fun g => g.id ≠ id
      permissions := w.permissions.filter fun p => p.group_id ≠ id
      memberships := w.memberships.filter fun m => m.group_id ≠ id
      webhooks
      executions := w.executions.filter fun e => webhooks.has e.webhook_id })

/-! ## Records and memberships -/

/-- What an `UPDATE` of `ip_records` does to the three deletion columns, which are always set
together. -/
inductive Tombstone where
  | keep
  | clear
  | bury (deleted_at : Int) (deleted_by : String)
  deriving DecidableEq

/-- The columns an `UPDATE` of `ip_records` sets. -/
structure RecordChange where
  updated_at : Int
  last_seen_at : Option Int := none
  cause : Option String := none
  tombstone : Tombstone := .keep

/-- The row an `UPDATE` of `ip_records` leaves. -/
def RecordChange.apply (c : RecordChange) (r : IpRecord) : IpRecord :=
  let r := { r with
    updated_at := c.updated_at
    last_seen_at := c.last_seen_at.getD r.last_seen_at
    cause := c.cause.or r.cause }
  match c.tombstone with
  | .keep => r
  | .clear => { r with is_deleted := false, deleted_at := none, deleted_by := none }
  | .bury t who => { r with is_deleted := true, deleted_at := some t, deleted_by := some who }

@[simp] theorem RecordChange.apply_id (c : RecordChange) (r : IpRecord) :
    (c.apply r).id = r.id := by
  unfold RecordChange.apply
  cases c.tombstone <;> rfl

@[simp] theorem RecordChange.apply_address (c : RecordChange) (r : IpRecord) :
    (c.apply r).target_address = r.target_address := by
  unfold RecordChange.apply
  cases c.tombstone <;> rfl

@[simp] theorem RecordChange.apply_locked (c : RecordChange) (r : IpRecord) :
    (c.apply r).is_locked = r.is_locked := by
  unfold RecordChange.apply
  cases c.tombstone <;> rfl

theorem RecordChange.apply_is_deleted (c : RecordChange) (r : IpRecord) :
    (c.apply r).is_deleted = match c.tombstone with
      | .keep => r.is_deleted
      | .clear => false
      | .bury _ _ => true := by
  unfold RecordChange.apply
  cases c.tombstone <;> rfl

theorem RecordChange.apply_deleted_at (c : RecordChange) (r : IpRecord) :
    (c.apply r).deleted_at = match c.tombstone with
      | .keep => r.deleted_at
      | .clear => none
      | .bury t _ => some t := by
  unfold RecordChange.apply
  cases c.tombstone <;> rfl

theorem RecordChange.apply_last_seen_at (c : RecordChange) (r : IpRecord) :
    (c.apply r).last_seen_at = c.last_seen_at.getD r.last_seen_at := by
  unfold RecordChange.apply
  cases c.tombstone <;> rfl

/-- `INSERT INTO ip_records`. -/
def insert_record (r : IpRecord) : Txn Uuid := fun w =>
  if (w.record_at r.target_address).isSome then db_error .unique_constraint_violation
  else
    .ok (w.next_uuid,
      { w with
        records := w.records.insert { r with id := w.next_uuid }
        next_uuid := w.next_uuid + 1 })

/-- `UPDATE ip_records … WHERE id = ?`, which returns the row it leaves. -/
def update_record (id : Uuid) (c : RecordChange) : Txn IpRecord := fun w =>
  match w.records.find? id with
  | none => db_error .record_not_updated
  | some r => .ok (c.apply r, { w with records := w.records.modify id c.apply c.apply_id })

/-- `DELETE FROM ip_records WHERE …`. Memberships go with their record. -/
def delete_records_where (p : IpRecord → Bool) : Txn Nat := fun w =>
  let records := w.records.filter fun r => !p r
  .ok ((w.records.rows.filter p).length,
    { w with
      records
      memberships := w.memberships.filter fun m => records.has m.ip_record_id })

/-- `DELETE FROM ip_records WHERE id = ?`. -/
def delete_record (id : Uuid) : Txn Nat := delete_records_where fun r => r.id = id

/-- Soft-deleted before `threshold`: the three filters of `purge_expired_ip_records`. SQLite keeps dates
as texts, and compares these. -/
def expired (threshold : Int) (r : IpRecord) : Bool :=
  r.is_deleted && r.deleted_at.any fun t => Calendar.before t threshold

/-- The `DELETE` of `purge_expired_ip_records`. -/
def purge (threshold : Int) : Txn Nat := delete_records_where (expired threshold)

/-- `INSERT INTO ip_record_group_memberships … ON CONFLICT DO NOTHING`: the number of rows
inserted. -/
def link (record_id group_id : Uuid) : Txn Nat := fun w =>
  if !(w.records.has record_id && w.groups.has group_id) then
    db_error .foreign_key_constraint_violation
  else
    .ok (if w.memberships.has (record_id, group_id) then 0 else 1,
      { w with memberships := w.memberships.insert ⟨record_id, group_id⟩ })

/-- `DELETE FROM ip_record_group_memberships` by its primary key. -/
def unlink (record_id group_id : Uuid) : Txn Nat := fun w =>
  .ok (if w.memberships.has (record_id, group_id) then 1 else 0,
    { w with memberships := w.memberships.filter fun m => m.key ≠ (record_id, group_id) })

/-! ## Webhooks, executions and the audit trail -/

/-- The columns an `UPDATE` of `webhook_configs` sets. A nullable column is set to the inner
option. -/
structure WebhookChange where
  name : Option String := none
  target_url : Option String := none
  secret_token : Option String := none
  auth_mode : Option String := none
  api_key : Option (Option String) := none
  hmac_template : Option (Option String) := none
  signature_header : Option (Option String) := none
  signature_prefix : Option String := none
  headers_json : Option String := none
  payload_template : Option String := none
  group_id : Option Uuid := none
  is_active : Option Bool := none
  events : Option String := none

/-- The row an `UPDATE` of `webhook_configs` leaves. -/
def WebhookChange.apply (c : WebhookChange) (h : WebhookConfig) : WebhookConfig :=
  { h with
    name := c.name.getD h.name
    target_url := c.target_url.getD h.target_url
    secret_token := c.secret_token.getD h.secret_token
    auth_mode := c.auth_mode.getD h.auth_mode
    api_key := c.api_key.getD h.api_key
    hmac_template := c.hmac_template.getD h.hmac_template
    signature_header := c.signature_header.getD h.signature_header
    signature_prefix := c.signature_prefix.or h.signature_prefix
    headers_json := c.headers_json.or h.headers_json
    payload_template := c.payload_template.getD h.payload_template
    group_id := c.group_id.getD h.group_id
    is_active := c.is_active.getD h.is_active
    events := c.events.or h.events }

@[simp] theorem WebhookChange.apply_id (c : WebhookChange) (h : WebhookConfig) :
    (c.apply h).id = h.id := rfl

/-- `INSERT INTO webhook_configs`. -/
def insert_webhook (h : WebhookConfig) : Txn Uuid := fun w =>
  if !w.groups.has h.group_id then db_error .foreign_key_constraint_violation
  else
    .ok (w.next_uuid,
      { w with
        webhooks := w.webhooks.insert { h with id := w.next_uuid }
        next_uuid := w.next_uuid + 1 })

/-- `UPDATE webhook_configs … WHERE id = ?`, which returns the row it leaves. -/
def update_webhook (id : Uuid) (c : WebhookChange) : Txn WebhookConfig := fun w =>
  match w.webhooks.find? id with
  | none => db_error .record_not_updated
  | some h =>
      if !w.groups.has (c.apply h).group_id then db_error .foreign_key_constraint_violation
      else .ok (c.apply h, { w with webhooks := w.webhooks.modify id c.apply c.apply_id })

/-- A webhook under another owner. -/
def own_webhook (owner : Option Uuid) (h : WebhookConfig) : WebhookConfig :=
  { h with owner_key_id := owner }

@[simp] theorem own_webhook_id (owner : Option Uuid) (h : WebhookConfig) :
    (own_webhook owner h).id = h.id := rfl

/-- `UPDATE webhook_configs SET owner_key_id = ? WHERE id = ?`, by `update_many`: the number of
rows it touched. -/
def set_webhook_owner (id : Uuid) (owner : Option Uuid) : Txn Nat := fun w =>
  .ok (if w.webhooks.has id then 1 else 0,
    { w with webhooks := w.webhooks.modify id (own_webhook owner) (own_webhook_id owner) })

/-- `DELETE FROM webhook_configs WHERE id = ?`. Executions go with their webhook. -/
def delete_webhook (id : Uuid) : Txn Nat := fun w =>
  .ok (if w.webhooks.has id then 1 else 0,
    { w with
      webhooks := w.webhooks.filter fun h => h.id ≠ id
      executions := w.executions.filter fun e => e.webhook_id ≠ id })

/-- `INSERT INTO webhook_executions`. -/
def insert_execution (e : WebhookExecution) : Txn Unit := fun w =>
  if !w.webhooks.has e.webhook_id then db_error .foreign_key_constraint_violation
  else
    .ok ((),
      { w with
        executions := w.executions.insert { e with id := w.next_uuid }
        next_uuid := w.next_uuid + 1 })

/-- `DELETE FROM webhook_executions WHERE id = ?`. -/
def delete_execution (id : Uuid) : Txn Nat := fun w =>
  .ok (if w.executions.has id then 1 else 0,
    { w with executions := w.executions.filter fun e => e.id ≠ id })

/-- `INSERT INTO audit_logs`. -/
def insert_audit (a : AuditLog) : Txn Unit := fun w =>
  if a.api_key_id.all (w.keys.has ·) then .ok ((), { w with audit_logs := w.audit_logs ++ [a] })
  else db_error .foreign_key_constraint_violation

/-- `enqueue_webhook`: `try_send` on a bounded channel drops the event when it is full. -/
def enqueue (e : WebhookEvent) : Txn Unit := fun w =>
  .ok ((), if w.queue.length < w.queue_capacity then { w with queue := w.queue ++ [e] } else w)

end Txn

end IpVault
