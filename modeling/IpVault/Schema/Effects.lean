import IpVault.Schema.Stmt

set_option autoImplicit false

/-! # What each statement leaves alone

Which tables a statement can write is a matter of its kind. The frame lemmas below say it once,
so that a proof about one table only looks at the statements that write it.
-/

namespace IpVault

open Lib

/-! ## The transactions of the record endpoints -/

/-- Everything but records, memberships, the audit trail and the counter is the same. -/
structure OnlyRecords (w w' : World) : Prop where
  keys : w'.keys = w.keys
  permissions : w'.permissions = w.permissions
  groups : w'.groups = w.groups
  webhooks : w'.webhooks = w.webhooks
  executions : w'.executions = w.executions
  queue : w'.queue = w.queue
  queue_capacity : w'.queue_capacity = w.queue_capacity
  next_uuid : w.next_uuid ≤ w'.next_uuid

namespace OnlyRecords

theorem refl (w : World) : OnlyRecords w w := ⟨rfl, rfl, rfl, rfl, rfl, rfl, rfl, le_rfl⟩

theorem trans {w w' w'' : World} (h : OnlyRecords w w') (h' : OnlyRecords w' w'') :
    OnlyRecords w w'' where
  keys := h'.keys.trans h.keys
  permissions := h'.permissions.trans h.permissions
  groups := h'.groups.trans h.groups
  webhooks := h'.webhooks.trans h.webhooks
  executions := h'.executions.trans h.executions
  queue := h'.queue.trans h.queue
  queue_capacity := h'.queue_capacity.trans h.queue_capacity
  next_uuid := h.next_uuid.trans h'.next_uuid

theorem insert_record (r : IpRecord) : Keeps OnlyRecords (Txn.insert_record r) := by
  intro w a w' h
  simp only [Txn.insert_record, Txn.db_error] at h
  split at h
  · cases h
  · cases h
    exact ⟨rfl, rfl, rfl, rfl, rfl, rfl, rfl, Nat.le_succ _⟩

theorem update_record (id : Uuid) (c : Txn.RecordChange) :
    Keeps OnlyRecords (Txn.update_record id c) := by
  intro w a w' h
  simp only [Txn.update_record, Txn.db_error] at h
  split at h
  · cases h
  · cases h
    exact ⟨rfl, rfl, rfl, rfl, rfl, rfl, rfl, le_rfl⟩

theorem link (record_id group_id : Uuid) : Keeps OnlyRecords (Txn.link record_id group_id) := by
  intro w a w' h
  simp only [Txn.link, Txn.db_error] at h
  split at h
  · cases h
  · cases h
    exact ⟨rfl, rfl, rfl, rfl, rfl, rfl, rfl, le_rfl⟩

theorem unlink (record_id group_id : Uuid) : Keeps OnlyRecords (Txn.unlink record_id group_id) := by
  intro w a w' h
  cases h
  exact ⟨rfl, rfl, rfl, rfl, rfl, rfl, rfl, le_rfl⟩

theorem insert_audit (a : AuditLog) : Keeps OnlyRecords (Txn.insert_audit a) := by
  intro w b w' h
  simp only [Txn.insert_audit, Txn.db_error] at h
  split at h
  · cases h
    exact ⟨rfl, rfl, rfl, rfl, rfl, rfl, rfl, le_rfl⟩
  · cases h

/-- The writes of the record transactions. -/
theorem record_writes : RecordWrites (fun _ => True) OnlyRecords where
  refl := refl
  trans _ _ _ h h' := h.trans h'
  insert_record r _ := insert_record r
  update_record := update_record
  link := link
  unlink := unlink
  insert_audit := insert_audit

end OnlyRecords

theorem UpsertTxn.only_records (t : UpsertTxn) : Keeps OnlyRecords t.run :=
  OnlyRecords.record_writes.upsert t trivial

theorem DeleteIpTxn.only_records (t : DeleteIpTxn) : Keeps OnlyRecords t.run :=
  OnlyRecords.record_writes.delete_ip t

namespace BatchTxn

theorem only_records_entry (t : BatchTxn) (st : BatchState) (e : String × BatchRecordInput) :
    Keeps OnlyRecords (t.entry st e) :=
  OnlyRecords.record_writes.entry t (fun _ _ => trivial) st e

theorem only_records_entries (t : BatchTxn) (es : List (String × BatchRecordInput))
    (st : BatchState) : Keeps OnlyRecords (t.entries es st) :=
  OnlyRecords.record_writes.entries t (fun _ _ => trivial) es st

theorem only_records_replace (t : BatchTxn) (st : BatchState) :
    Keeps OnlyRecords (t.replace st) :=
  OnlyRecords.record_writes.replace t st

theorem only_records (t : BatchTxn) : Keeps OnlyRecords t.run :=
  OnlyRecords.record_writes.batch t fun _ _ => trivial

end BatchTxn

namespace Stmt

/-! ## Frames -/

/-- Follow a transaction into the store it leaves. -/
theorem after_of_keeps {l : Stmt} {R : World → World → Prop} (h : Keeps R l.txn)
    (hR : ∀ w, R w w) (w : World) : R w (l.after w) := by
  unfold after
  cases e : l.txn w with
  | error _ => exact hR w
  | ok p => exact h w p.1 p.2 e

theorem after_upsert_txn (t : UpsertTxn) (w : World) : OnlyRecords w ((upsert_txn t).after w) :=
  after_of_keeps t.only_records OnlyRecords.refl w

theorem after_delete_ip_txn (t : DeleteIpTxn) (w : World) :
    OnlyRecords w ((delete_ip_txn t).after w) :=
  after_of_keeps t.only_records OnlyRecords.refl w

/-- Whether a statement writes `api_keys`. -/
def writes_keys : Stmt → Bool
  | insert_key _ | update_key _ _ | delete_keys _ => true
  | _ => false

/-- Whether a statement writes `api_key_group_permissions`. -/
def writes_permissions : Stmt → Bool
  | insert_permission _ | insert_permission_or_ignore _ | upsert_permission _
  | delete_permission _ _ | delete_keys _ | delete_group _ => true
  | _ => false

/-- Whether a statement writes `ip_groups`. -/
def writes_groups : Stmt → Bool
  | insert_group _ | insert_group_or_ignore _ | set_group_owner _ _ | delete_group _ => true
  | _ => false

/-- Whether a statement writes `ip_records`. -/
def writes_records : Stmt → Bool
  | update_record _ _ | delete_record _ | purge _ | upsert_txn _ | delete_ip_txn _
  | batch_txn _ => true
  | _ => false

/-- Whether a statement writes `ip_record_group_memberships`. -/
def writes_memberships : Stmt → Bool
  | delete_group _ => true
  | l => l.writes_records

/-- Whether a statement writes `webhook_configs`. -/
def writes_webhooks : Stmt → Bool
  | insert_webhook _ | update_webhook _ _ | set_webhook_owner _ _ | delete_webhook _
  | delete_group _ => true
  | _ => false

/-- A statement leaves the tables it does not write as they were, and the counter never goes
back. -/
structure Frame (l : Stmt) (w w' : World) : Prop where
  keys : l.writes_keys = false → w'.keys = w.keys
  permissions : l.writes_permissions = false → w'.permissions = w.permissions
  groups : l.writes_groups = false → w'.groups = w.groups
  records : l.writes_records = false → w'.records = w.records
  memberships : l.writes_memberships = false → w'.memberships = w.memberships
  webhooks : l.writes_webhooks = false → w'.webhooks = w.webhooks
  next_uuid : w.next_uuid ≤ w'.next_uuid

theorem Frame.refl (l : Stmt) (w : World) : l.Frame w w :=
  ⟨fun _ => rfl, fun _ => rfl, fun _ => rfl, fun _ => rfl, fun _ => rfl, fun _ => rfl, le_rfl⟩

/-- The frame of a record transaction. -/
theorem Frame.of_only_records {l : Stmt} {w w' : World} (h : OnlyRecords w w')
    (hr : l.writes_records = true) (hm : l.writes_memberships = true) : l.Frame w w' where
  keys _ := h.keys
  permissions _ := h.permissions
  groups _ := h.groups
  records hf := by simp [hr] at hf
  memberships hf := by simp [hm] at hf
  webhooks _ := h.webhooks
  next_uuid := h.next_uuid

/-- **Frames.** Every statement keeps its frame, whether it succeeds or fails. -/
theorem frame (l : Stmt) (w : World) : l.Frame w (l.after w) := by
  refine after_of_keeps (fun w a w' h => ?_) (Frame.refl l) w
  cases l with
  | upsert_txn t => exact .of_only_records (t.only_records w a w' h) rfl rfl
  | delete_ip_txn t => exact .of_only_records (t.only_records w a w' h) rfl rfl
  | batch_txn t => exact .of_only_records (t.only_records w a w' h) rfl rfl
  | _ =>
      simp only [txn, Txn.read, Txn.insert_key, Txn.update_key, Txn.delete_keys,
        Txn.insert_permission, Txn.insert_permission_or_ignore, Txn.upsert_permission,
        Txn.delete_permission, Txn.insert_group, Txn.insert_group_or_ignore,
        Txn.set_group_owner, Txn.delete_group, Txn.update_record, Txn.delete_record, Txn.purge,
        Txn.delete_records_where, Txn.insert_webhook, Txn.update_webhook, Txn.set_webhook_owner,
        Txn.delete_webhook, Txn.insert_execution, Txn.delete_execution, Txn.insert_audit,
        Txn.enqueue, Txn.db_error] at h
      repeat' split at h
      all_goals first | cases h; done | skip
      all_goals
        cases h
        constructor <;> first
          | exact fun _ => rfl
          | (intro hf; cases hf)
          | exact le_rfl
          | exact Nat.le_succ _

/-! ## Keys, permissions and groups

What a row of the three tables can be after a statement: an old row, or one the statement
wrote. -/

/-- A key after a statement. -/
theorem mem_keys_after {l : Stmt} {w : World} {k : ApiKey} (h : k ∈ (l.after w).keys) :
    k ∈ w.keys ∨
      (∃ k₀, l = insert_key k₀ ∧ k = { k₀ with id := w.next_uuid }) ∨
      ∃ id c k₀, l = update_key id c ∧ k₀ ∈ w.keys ∧ k₀.id = id ∧ k = c.apply k₀ := by
  cases l with
  | insert_key k₀ =>
      unfold after at h
      simp only [txn, Txn.insert_key, Txn.db_error] at h
      split at h
      · rename_i e
        split at e
        · cases e
        · cases e
          exact (Table.mem_of_mem_insert h).imp_right fun h => .inl ⟨k₀, rfl, h⟩
      · exact .inl h
  | update_key id c =>
      unfold after at h
      simp only [txn, Txn.update_key, Txn.db_error] at h
      split at h
      · rename_i e
        split at e
        · cases e
        · split at e
          · cases e
          · cases e
            rcases (Table.mem_modify c.apply_id).mp h with ⟨hk, -⟩ | ⟨k₀, hk₀, hid, rfl⟩
            · exact .inl hk
            · exact .inr (.inr ⟨id, c, k₀, rfl, hk₀, hid, rfl⟩)
      · exact .inl h
  | delete_keys ids => exact .inl (Table.mem_filter.mp h).1
  | _ => exact .inl (by rwa [(frame _ w).keys rfl] at h)

/-- A permission row after a statement. -/
theorem mem_permissions_after {l : Stmt} {w : World} {p : GroupPermission}
    (h : p ∈ (l.after w).permissions) :
    p ∈ w.permissions ∨ l = insert_permission p ∨ l = insert_permission_or_ignore p ∨
      ∃ q, l = upsert_permission q ∧
        (p = q ∨ ∃ p₀ ∈ w.permissions, p₀.key = q.key ∧ p = Txn.overwrite_verbs q p₀) := by
  cases l with
  | insert_permission q =>
      unfold after at h
      simp only [txn, Txn.insert_permission, Txn.db_error] at h
      split at h
      · rename_i e
        split at e
        · cases e
        · split at e
          · cases e
          · cases e
            rcases Table.mem_of_mem_insert h with h | rfl
            · exact .inl h
            · exact .inr (.inl rfl)
      · exact .inl h
  | insert_permission_or_ignore q =>
      unfold after at h
      simp only [txn, Txn.insert_permission_or_ignore, Txn.db_error] at h
      split at h
      · rename_i e
        split at e
        · cases e
        · cases e
          rcases Table.mem_of_mem_insert h with h | rfl
          · exact .inl h
          · exact .inr (.inr (.inl rfl))
      · exact .inl h
  | upsert_permission q =>
      unfold after at h
      simp only [txn, Txn.upsert_permission, Txn.db_error] at h
      split at h
      · rename_i e
        split at e
        · cases e
        · cases e
          rcases Table.mem_of_mem_insert h with h | h
          · rcases (Table.mem_modify (Txn.overwrite_verbs_key q)).mp h with ⟨hp, -⟩ | ⟨p₀, hp₀, hk, h⟩
            · exact .inl hp
            · exact .inr (.inr (.inr ⟨q, rfl, .inr ⟨p₀, hp₀, hk, h⟩⟩))
          · exact .inr (.inr (.inr ⟨q, rfl, .inl h⟩))
      · exact .inl h
  | delete_permission key_id group_id => exact .inl (Table.mem_filter.mp h).1
  | delete_keys ids => exact .inl (Table.mem_filter.mp h).1
  | delete_group id => exact .inl (Table.mem_filter.mp h).1
  | _ => exact .inl (by rwa [(frame _ w).permissions rfl] at h)

/-- A group after a statement. -/
theorem mem_groups_after {l : Stmt} {w : World} {g : IpGroup} (h : g ∈ (l.after w).groups) :
    g ∈ w.groups ∨
      (∃ g₀, (l = insert_group g₀ ∨ l = insert_group_or_ignore g₀) ∧
        g = { g₀ with id := w.next_uuid }) ∨
      ∃ id owner g₀, l = set_group_owner id owner ∧ g₀ ∈ w.groups ∧ g₀.id = id ∧
        g = Txn.own_group owner g₀ := by
  cases l with
  | insert_group g₀ =>
      unfold after at h
      simp only [txn, Txn.insert_group, Txn.db_error] at h
      split at h
      · rename_i e
        split at e
        · cases e
        · cases e
          exact (Table.mem_of_mem_insert h).imp_right fun h => .inl ⟨g₀, .inl rfl, h⟩
      · exact .inl h
  | insert_group_or_ignore g₀ =>
      unfold after at h
      simp only [txn, Txn.insert_group_or_ignore] at h
      split at h
      · rename_i e
        split at e
        · cases e
          exact .inl h
        · cases e
          exact (Table.mem_of_mem_insert h).imp_right fun h => .inl ⟨g₀, .inr rfl, h⟩
      · exact .inl h
  | set_group_owner id owner =>
      rcases (Table.mem_modify (Txn.own_group_id owner)).mp h with ⟨hg, -⟩ | ⟨g₀, hg₀, hid, h⟩
      · exact .inl hg
      · exact .inr (.inr ⟨id, owner, g₀, rfl, hg₀, hid, h⟩)
  | delete_group id => exact .inl (Table.mem_filter.mp h).1
  | _ => exact .inl (by rwa [(frame _ w).groups rfl] at h)

/-- A webhook after a statement. -/
theorem mem_webhooks_after {l : Stmt} {w : World} {h : WebhookConfig}
    (hmem : h ∈ (l.after w).webhooks) :
    h ∈ w.webhooks ∨
      (∃ h₀, l = insert_webhook h₀ ∧ h = { h₀ with id := w.next_uuid }) ∨
      (∃ id c h₀, l = update_webhook id c ∧ h₀ ∈ w.webhooks ∧ h₀.id = id ∧ h = c.apply h₀) ∨
      ∃ id owner h₀, l = set_webhook_owner id owner ∧ h₀ ∈ w.webhooks ∧ h₀.id = id ∧
        h = Txn.own_webhook owner h₀ := by
  cases l with
  | insert_webhook h₀ =>
      unfold after at hmem
      simp only [txn, Txn.insert_webhook, Txn.db_error] at hmem
      split at hmem
      · rename_i e
        split at e
        · cases e
        · cases e
          exact (Table.mem_of_mem_insert hmem).imp_right fun hnew => .inl ⟨h₀, rfl, hnew⟩
      · exact .inl hmem
  | update_webhook id c =>
      unfold after at hmem
      simp only [txn, Txn.update_webhook, Txn.db_error] at hmem
      split at hmem
      · rename_i e
        split at e
        · cases e
        · split at e
          · cases e
          · cases e
            rcases (Table.mem_modify c.apply_id).mp hmem with ⟨hold, -⟩ | ⟨h₀, hh₀, hid, heq⟩
            · exact .inl hold
            · exact .inr (.inr (.inl ⟨id, c, h₀, rfl, hh₀, hid, heq⟩))
      · exact .inl hmem
  | set_webhook_owner id owner =>
      rcases (Table.mem_modify (Txn.own_webhook_id owner)).mp hmem with ⟨hold, -⟩ | ⟨h₀, hh₀, hid, heq⟩
      · exact .inl hold
      · exact .inr (.inr (.inr ⟨id, owner, h₀, rfl, hh₀, hid, heq⟩))
  | delete_webhook id => exact .inl (Table.mem_filter.mp hmem).1
  | delete_group id => exact .inl (Table.mem_filter.mp hmem).1
  | _ => exact .inl (by rwa [(frame _ w).webhooks rfl] at hmem)

/-- What becomes of a key: it stays, or it is deleted, or it is updated. -/
theorem keys_kept {l : Stmt} {w : World} {k : ApiKey} (hk : k ∈ w.keys) :
    k ∈ (l.after w).keys ∨ (∃ ids, l = delete_keys ids ∧ k.id ∈ ids) ∨
      ∃ c, l = update_key k.id c ∧ c.apply k ∈ (l.after w).keys := by
  cases l with
  | insert_key k₀ =>
      left
      unfold after
      simp only [txn, Txn.insert_key, Txn.db_error]
      split
      · rename_i e
        split at e
        · cases e
        · cases e
          exact Table.mem_insert_of_mem hk
      · exact hk
  | update_key id c =>
      unfold after
      simp only [txn, Txn.update_key, Txn.db_error]
      split
      · rename_i e
        split at e
        · cases e
        · split at e
          · cases e
          · cases e
            by_cases hid : k.id = id
            · subst hid
              exact .inr (.inr ⟨c, rfl, (Table.mem_modify c.apply_id).mpr (.inr ⟨k, hk, rfl, rfl⟩)⟩)
            · exact .inl ((Table.mem_modify c.apply_id).mpr (.inl ⟨hk, hid⟩))
      · exact .inl hk
  | delete_keys ids =>
      by_cases hid : k.id ∈ ids
      · exact .inr (.inl ⟨ids, rfl, hid⟩)
      · exact .inl (Table.mem_filter.mpr ⟨hk, by simpa using hid⟩)
  | _ => exact .inl (by rwa [(frame _ w).keys rfl])

end Stmt

end IpVault
