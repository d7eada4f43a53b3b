import IpVault.Lib.Table
import IpVault.Schema.Entities

set_option autoImplicit false

/-! # The store

`World` is the database together with the queue of outgoing webhook events. Primary keys are
unique by construction (`Lib.Table`). `World.Wf` adds what else the migrations declare: the
unique columns, the foreign keys, and that the counter behind `Uuid::new_v4` is ahead of every
identifier in use. A `Vault` is a world that satisfies it.

The schema declares no foreign key on `parent_key_id` and `owner_key_id`, so `Wf` says nothing
about them; and it puts no bound on the number of master rows, because several claims of the
service are about tables edited by hand.
-/

namespace IpVault

open Lib

/-- The key of a permission row: the pair its unique index covers. -/
def GroupPermission.key (p : GroupPermission) : Uuid × Uuid := (p.api_key_id, p.group_id)

/-- The composite primary key of a membership. -/
def Membership.key (m : Membership) : Uuid × Uuid := (m.ip_record_id, m.group_id)

/-- The database and the queue of webhook events. -/
structure World where
  keys : Table ApiKey.id
  permissions : Table GroupPermission.key
  groups : Table IpGroup.id
  records : Table IpRecord.id
  memberships : Table Membership.key
  webhooks : Table WebhookConfig.id
  executions : Table WebhookExecution.id
  audit_logs : List AuditLog
  queue : List WebhookEvent
  queue_capacity : Nat
  next_uuid : Uuid

namespace World

/-- The constraints the migrations declare. -/
structure Wf (w : World) : Prop where
  key_hash_unique : w.keys.Unique ApiKey.key_hash
  group_name_unique : w.groups.Unique IpGroup.name
  address_unique : w.records.Unique IpRecord.target_address
  permission_key : ∀ p ∈ w.permissions, w.keys.has p.api_key_id = true
  permission_group : ∀ p ∈ w.permissions, w.groups.has p.group_id = true
  membership_record : ∀ m ∈ w.memberships, w.records.has m.ip_record_id = true
  membership_group : ∀ m ∈ w.memberships, w.groups.has m.group_id = true
  webhook_group : ∀ h ∈ w.webhooks, w.groups.has h.group_id = true
  execution_webhook : ∀ e ∈ w.executions, w.webhooks.has e.webhook_id = true
  audit_key : ∀ a ∈ w.audit_logs, ∀ id, a.api_key_id = some id → w.keys.has id = true
  key_fresh : ∀ k ∈ w.keys, k.id < w.next_uuid
  group_fresh : ∀ g ∈ w.groups, g.id < w.next_uuid
  record_fresh : ∀ r ∈ w.records, r.id < w.next_uuid
  webhook_fresh : ∀ h ∈ w.webhooks, h.id < w.next_uuid
  execution_fresh : ∀ e ∈ w.executions, e.id < w.next_uuid

/-- The store of a service that has just created its tables. -/
def empty (queue_capacity : Nat) : World where
  keys := .empty
  permissions := .empty
  groups := .empty
  records := .empty
  memberships := .empty
  webhooks := .empty
  executions := .empty
  audit_logs := []
  queue := []
  queue_capacity := queue_capacity
  next_uuid := 0

/-! ## Lookups -/

/-- The permission row of a key on a group. -/
def permission (w : World) (key_id group_id : Uuid) : Option GroupPermission :=
  w.permissions.find? (key_id, group_id)

/-- The group of that name. -/
def group_named (w : World) (name : String) : Option IpGroup :=
  w.groups.rows.find? fun g => g.name = name

/-- The record of that address. -/
def record_at (w : World) (address : String) : Option IpRecord :=
  w.records.rows.find? fun r => r.target_address = address

/-- Whether an address is stored in a group. -/
def member (w : World) (record_id group_id : Uuid) : Prop :=
  ∃ m ∈ w.memberships, m.ip_record_id = record_id ∧ m.group_id = group_id

theorem permission_eq_some {w : World} {key_id group_id : Uuid} {p : GroupPermission} :
    w.permission key_id group_id = some p ↔
      p ∈ w.permissions ∧ p.api_key_id = key_id ∧ p.group_id = group_id := by
  simp [permission, Table.find?_eq_some, GroupPermission.key, Prod.ext_iff]

theorem mem_of_group_named {w : World} {name : String} {g : IpGroup}
    (h : w.group_named name = some g) : g ∈ w.groups ∧ g.name = name :=
  ⟨List.mem_of_find?_eq_some h, by simpa using List.find?_some h⟩

theorem group_named_eq_none {w : World} {name : String} :
    w.group_named name = none ↔ ∀ g ∈ w.groups, g.name ≠ name := by
  unfold group_named
  rw [List.find?_eq_none]
  exact forall₂_congr fun g _ => by rw [decide_eq_true_eq]

theorem mem_of_record_at {w : World} {address : String} {r : IpRecord}
    (h : w.record_at address = some r) : r ∈ w.records ∧ r.target_address = address :=
  ⟨List.mem_of_find?_eq_some h, by simpa using List.find?_some h⟩

theorem record_at_eq_none {w : World} {address : String} :
    w.record_at address = none ↔ ∀ r ∈ w.records, r.target_address ≠ address := by
  unfold record_at
  rw [List.find?_eq_none]
  exact forall₂_congr fun r _ => by rw [decide_eq_true_eq]

namespace Wf

variable {w : World} (hw : w.Wf)
include hw

/-- The unique index on group names makes a lookup by name membership. -/
theorem group_named_eq_some {name : String} {g : IpGroup} :
    w.group_named name = some g ↔ g ∈ w.groups ∧ g.name = name := by
  refine ⟨mem_of_group_named, fun ⟨hg, hn⟩ => ?_⟩
  cases h : w.group_named name with
  | none => exact absurd hn (group_named_eq_none.mp h g hg)
  | some g' =>
      obtain ⟨hg', hn'⟩ := mem_of_group_named h
      rw [hw.group_name_unique g' hg' g hg (hn'.trans hn.symm)]

/-- The unique index on addresses makes a lookup by address membership. -/
theorem record_at_eq_some {address : String} {r : IpRecord} :
    w.record_at address = some r ↔ r ∈ w.records ∧ r.target_address = address := by
  refine ⟨mem_of_record_at, fun ⟨hr, ha⟩ => ?_⟩
  cases h : w.record_at address with
  | none => exact absurd ha (record_at_eq_none.mp h r hr)
  | some r' =>
      obtain ⟨hr', ha'⟩ := mem_of_record_at h
      rw [hw.address_unique r' hr' r hr (ha'.trans ha.symm)]

/-- No row names a group that has not been drawn yet. -/
theorem no_member_of_new_group {m : Membership} (hm : m ∈ w.memberships) :
    m.group_id < w.next_uuid := by
  obtain ⟨g, hg, hid⟩ := Table.has_iff.mp (hw.membership_group m hm)
  exact hid ▸ hw.group_fresh g hg

theorem no_permission_on_new_group {p : GroupPermission} (hp : p ∈ w.permissions) :
    p.group_id < w.next_uuid := by
  obtain ⟨g, hg, hid⟩ := Table.has_iff.mp (hw.permission_group p hp)
  exact hid ▸ hw.group_fresh g hg

end Wf

theorem wf_empty (n : Nat) : (World.empty n).Wf := by
  constructor <;> simp [empty, Table.Unique]

end World

/-- **A store the database would accept.** -/
structure Vault extends World where
  wf : toWorld.Wf

end IpVault
