import IpVault.Lib.Atomic
import IpVault.Schema.Txn

set_option autoImplicit false

/-! # Every write keeps the constraints

One lemma for each write of `Schema/Txn.lean`: committed in a well-formed store, it leaves a
well-formed store.
-/

namespace IpVault

open Lib

/-- A transaction that leads from well-formed stores to well-formed stores. -/
abbrev KeepsWf {α : Type} (m : Txn α) : Prop := Keeps (fun w w' => w.Wf → w'.Wf) m

namespace Txn

theorem wf_read {α : Type} (f : World → α) : KeepsWf (read f) := by
  intro w a w' h hw
  simp only [read, Except.ok.injEq, Prod.mk.injEq] at h
  obtain ⟨-, rfl⟩ := h
  exact hw

/-! ## Keys -/

theorem wf_insert_key (k : ApiKey) : KeepsWf (insert_key k) := by
  intro w a w' h hw
  simp only [insert_key, db_error] at h
  split at h
  · cases h
  · rename_i hu
    simp only [Except.ok.injEq, Prod.mk.injEq] at h
    obtain ⟨-, rfl⟩ := h
    have hu' := Table.any_eq_false.mp (by simpa using hu)
    have keep : ∀ id, w.keys.has id = true →
        (w.keys.insert { k with id := w.next_uuid }).has id = true := by
      intro id hid
      obtain ⟨k', hk', rfl⟩ := Table.has_iff.mp hid
      exact Table.has_iff.mpr ⟨k', Table.mem_insert_of_mem hk', rfl⟩
    exact
      { hw with
        key_hash_unique := hw.key_hash_unique.insert fun r hr => by simpa using hu' r hr
        permission_key := fun p hp => keep _ (hw.permission_key p hp)
        audit_key := fun a ha id hid => keep _ (hw.audit_key a ha id hid)
        key_fresh := fun r hr => by
          rcases Table.mem_of_mem_insert hr with hr' | rfl
          · exact Nat.lt_succ_of_lt (hw.key_fresh r hr')
          · exact Nat.lt_succ_self _
        group_fresh := fun g hg => Nat.lt_succ_of_lt (hw.group_fresh g hg)
        record_fresh := fun r hr => Nat.lt_succ_of_lt (hw.record_fresh r hr)
        webhook_fresh := fun r hr => Nat.lt_succ_of_lt (hw.webhook_fresh r hr)
        execution_fresh := fun e he => Nat.lt_succ_of_lt (hw.execution_fresh e he) }

theorem wf_update_key (id : Uuid) (c : KeyChange) : KeepsWf (update_key id c) := by
  intro w a w' h hw
  simp only [update_key, db_error] at h
  split at h
  · cases h
  · rename_i k hk
    split at h
    · cases h
    · rename_i hu
      simp only [Except.ok.injEq, Prod.mk.injEq] at h
      obtain ⟨-, rfl⟩ := h
      have hu' := Table.any_eq_false.mp (by simpa using hu)
      exact
        { hw with
          key_hash_unique := hw.key_hash_unique.modify c.apply_id fun r hr hid r' hr' e => by
            have hrk : r = k := Table.eq_of_key hr (Table.find?_eq_some.mp hk).1
              (hid.trans (Table.find?_eq_some.mp hk).2.symm)
            have := hu' r' hr'
            by_contra hne
            simp [hne, e, hrk] at this
          permission_key := fun p hp => by
            rw [Table.has_modify]
            exact hw.permission_key p hp
          audit_key := fun a ha i hi => by
            rw [Table.has_modify]
            exact hw.audit_key a ha i hi
          key_fresh := fun r hr => by
            rcases (Table.mem_modify c.apply_id).mp hr with ⟨hr', -⟩ | ⟨r₀, hr₀, -, rfl⟩
            · exact hw.key_fresh r hr'
            · exact hw.key_fresh r₀ hr₀ }

theorem wf_delete_keys (ids : List Uuid) : KeepsWf (delete_keys ids) := by
  intro w a w' h hw
  simp only [delete_keys, Except.ok.injEq, Prod.mk.injEq] at h
  obtain ⟨-, rfl⟩ := h
  have keep : ∀ id, w.keys.has id = true → ids.contains id = false →
      (w.keys.filter fun k => !ids.contains k.id).has id = true := by
    intro id hid hn
    obtain ⟨k, hk, rfl⟩ := Table.has_iff.mp hid
    exact Table.has_iff.mpr ⟨k, Table.mem_filter.mpr ⟨hk, by rw [hn]; rfl⟩, rfl⟩
  exact
    { hw with
      key_hash_unique := hw.key_hash_unique.filter
      permission_key := fun p hp => by
        obtain ⟨hp', hn⟩ := Table.mem_filter.mp hp
        exact keep _ (hw.permission_key p hp') (by simpa using hn)
      permission_group := fun p hp => hw.permission_group p (Table.mem_filter.mp hp).1
      audit_key := fun a ha id hid => by
        obtain ⟨a₀, ha₀, rfl⟩ := List.mem_map.mp ha
        unfold forget_keys at hid
        split at hid
        · cases hid
        · rename_i hn
          refine keep _ (hw.audit_key a₀ ha₀ id hid) ?_
          simpa [hid] using hn
      key_fresh := fun k hk => hw.key_fresh k (Table.mem_filter.mp hk).1 }

/-! ## Permissions -/

theorem permission_ends_iff {w : World} {p : GroupPermission} :
    permission_ends w p = true ↔
      w.keys.has p.api_key_id = true ∧ w.groups.has p.group_id = true := by
  simp [permission_ends]

theorem wf_insert_permission_or_ignore (p : GroupPermission) :
    KeepsWf (insert_permission_or_ignore p) := by
  intro w a w' h hw
  simp only [insert_permission_or_ignore, db_error] at h
  split at h
  · cases h
  · rename_i he
    simp only [Except.ok.injEq, Prod.mk.injEq] at h
    obtain ⟨-, rfl⟩ := h
    have he' := permission_ends_iff.mp (by simpa using he)
    exact
      { hw with
        permission_key := fun q hq => by
          rcases Table.mem_of_mem_insert hq with hq' | rfl
          · exact hw.permission_key q hq'
          · exact he'.1
        permission_group := fun q hq => by
          rcases Table.mem_of_mem_insert hq with hq' | rfl
          · exact hw.permission_group q hq'
          · exact he'.2 }

theorem wf_insert_permission (p : GroupPermission) : KeepsWf (insert_permission p) := by
  intro w a w' h hw
  simp only [insert_permission] at h
  split at h
  · cases h
  · exact wf_insert_permission_or_ignore p w a w' h hw

theorem wf_upsert_permission (p : GroupPermission) : KeepsWf (upsert_permission p) := by
  intro w a w' h hw
  simp only [upsert_permission, db_error] at h
  split at h
  · cases h
  · rename_i he
    simp only [Except.ok.injEq, Prod.mk.injEq] at h
    obtain ⟨-, rfl⟩ := h
    have he' := permission_ends_iff.mp (by simpa using he)
    have old : ∀ q, q ∈ (w.permissions.modify p.key (overwrite_verbs p) (overwrite_verbs_key p)).insert p →
        q = p ∨ ∃ q₀ ∈ w.permissions, q.api_key_id = q₀.api_key_id ∧ q.group_id = q₀.group_id := by
      intro q hq
      rcases Table.mem_of_mem_insert hq with hq' | rfl
      · rcases (Table.mem_modify (overwrite_verbs_key p)).mp hq' with ⟨hq₀, -⟩ | ⟨q₀, hq₀, -, rfl⟩
        · exact .inr ⟨q, hq₀, rfl, rfl⟩
        · exact .inr ⟨q₀, hq₀, rfl, rfl⟩
      · exact .inl rfl
    exact
      { hw with
        permission_key := fun q hq => by
          rcases old q hq with rfl | ⟨q₀, hq₀, hk, -⟩
          · exact he'.1
          · exact hk ▸ hw.permission_key q₀ hq₀
        permission_group := fun q hq => by
          rcases old q hq with rfl | ⟨q₀, hq₀, -, hg⟩
          · exact he'.2
          · exact hg ▸ hw.permission_group q₀ hq₀ }

theorem wf_delete_permission (key_id group_id : Uuid) :
    KeepsWf (delete_permission key_id group_id) := by
  intro w a w' h hw
  simp only [delete_permission, Except.ok.injEq, Prod.mk.injEq] at h
  obtain ⟨-, rfl⟩ := h
  exact
    { hw with
      permission_key := fun p hp => hw.permission_key p (Table.mem_filter.mp hp).1
      permission_group := fun p hp => hw.permission_group p (Table.mem_filter.mp hp).1 }

/-! ## Groups -/

theorem wf_insert_group_core {w : World} (hw : w.Wf) {g : IpGroup}
    (hn : w.group_named g.name = none) :
    World.Wf { w with
      groups := w.groups.insert { g with id := w.next_uuid }
      next_uuid := w.next_uuid + 1 } := by
  have keep : ∀ id, w.groups.has id = true →
      (w.groups.insert { g with id := w.next_uuid }).has id = true := by
    intro id hid
    obtain ⟨g', hg', rfl⟩ := Table.has_iff.mp hid
    exact Table.has_iff.mpr ⟨g', Table.mem_insert_of_mem hg', rfl⟩
  exact
    { hw with
      group_name_unique := hw.group_name_unique.insert (World.group_named_eq_none.mp hn)
      permission_group := fun p hp => keep _ (hw.permission_group p hp)
      membership_group := fun m hm => keep _ (hw.membership_group m hm)
      webhook_group := fun h hh => keep _ (hw.webhook_group h hh)
      key_fresh := fun k hk => Nat.lt_succ_of_lt (hw.key_fresh k hk)
      group_fresh := fun g' hg' => by
        rcases Table.mem_of_mem_insert hg' with hg' | rfl
        · exact Nat.lt_succ_of_lt (hw.group_fresh g' hg')
        · exact Nat.lt_succ_self _
      record_fresh := fun r hr => Nat.lt_succ_of_lt (hw.record_fresh r hr)
      webhook_fresh := fun h hh => Nat.lt_succ_of_lt (hw.webhook_fresh h hh)
      execution_fresh := fun e he => Nat.lt_succ_of_lt (hw.execution_fresh e he) }

theorem wf_insert_group (g : IpGroup) : KeepsWf (insert_group g) := by
  intro w a w' h hw
  simp only [insert_group, db_error] at h
  split at h
  · cases h
  · rename_i hn
    simp only [Except.ok.injEq, Prod.mk.injEq] at h
    obtain ⟨-, rfl⟩ := h
    exact wf_insert_group_core hw (by simpa using hn)

theorem wf_insert_group_or_ignore (g : IpGroup) : KeepsWf (insert_group_or_ignore g) := by
  intro w a w' h hw
  simp only [insert_group_or_ignore] at h
  split at h
  · simp only [Except.ok.injEq, Prod.mk.injEq] at h
    obtain ⟨-, rfl⟩ := h
    exact hw
  · rename_i hn
    simp only [Except.ok.injEq, Prod.mk.injEq] at h
    obtain ⟨-, rfl⟩ := h
    exact wf_insert_group_core hw (by simpa using hn)

theorem wf_set_group_owner (id : Uuid) (owner : Option Uuid) :
    KeepsWf (set_group_owner id owner) := by
  intro w a w' h hw
  simp only [set_group_owner, Except.ok.injEq, Prod.mk.injEq] at h
  obtain ⟨-, rfl⟩ := h
  exact
    { hw with
      group_name_unique := hw.group_name_unique.modify (own_group_id owner) fun r hr hid r' hr' e => by
        rw [hw.group_name_unique r' hr' r hr e, hid]
      permission_group := fun p hp => by
        rw [Table.has_modify]
        exact hw.permission_group p hp
      membership_group := fun m hm => by
        rw [Table.has_modify]
        exact hw.membership_group m hm
      webhook_group := fun h hh => by
        rw [Table.has_modify]
        exact hw.webhook_group h hh
      group_fresh := fun g hg => by
        rcases (Table.mem_modify (own_group_id owner)).mp hg with ⟨hg', -⟩ | ⟨g₀, hg₀, -, rfl⟩
        · exact hw.group_fresh g hg'
        · exact hw.group_fresh g₀ hg₀ }

theorem wf_delete_group (id : Uuid) : KeepsWf (delete_group id) := by
  intro w a w' h hw
  simp only [delete_group, Except.ok.injEq, Prod.mk.injEq] at h
  obtain ⟨-, rfl⟩ := h
  have keep : ∀ i, w.groups.has i = true → i ≠ id →
      (w.groups.filter fun g => g.id ≠ id).has i = true := by
    intro i hi hne
    obtain ⟨g, hg, rfl⟩ := Table.has_iff.mp hi
    exact Table.has_iff.mpr ⟨g, Table.mem_filter.mpr ⟨hg, by simpa using hne⟩, rfl⟩
  exact
    { hw with
      group_name_unique := hw.group_name_unique.filter
      permission_key := fun p hp => hw.permission_key p (Table.mem_filter.mp hp).1
      permission_group := fun p hp => by
        obtain ⟨hp', hne⟩ := Table.mem_filter.mp hp
        exact keep _ (hw.permission_group p hp') (by simpa using hne)
      membership_record := fun m hm => hw.membership_record m (Table.mem_filter.mp hm).1
      membership_group := fun m hm => by
        obtain ⟨hm', hne⟩ := Table.mem_filter.mp hm
        exact keep _ (hw.membership_group m hm') (by simpa using hne)
      webhook_group := fun h hh => by
        obtain ⟨hh', hne⟩ := Table.mem_filter.mp hh
        exact keep _ (hw.webhook_group h hh') (by simpa using hne)
      execution_webhook := fun e he => (Table.mem_filter.mp he).2
      group_fresh := fun g hg => hw.group_fresh g (Table.mem_filter.mp hg).1
      webhook_fresh := fun h hh => hw.webhook_fresh h (Table.mem_filter.mp hh).1
      execution_fresh := fun e he => hw.execution_fresh e (Table.mem_filter.mp he).1 }

/-! ## Records and memberships -/

theorem wf_insert_record (r : IpRecord) : KeepsWf (insert_record r) := by
  intro w a w' h hw
  simp only [insert_record, db_error] at h
  split at h
  · cases h
  · rename_i hn
    simp only [Except.ok.injEq, Prod.mk.injEq] at h
    obtain ⟨-, rfl⟩ := h
    exact
      { hw with
        address_unique := hw.address_unique.insert
          (World.record_at_eq_none.mp (by simpa using hn))
        membership_record := fun m hm => by
          obtain ⟨r', hr', e⟩ := Table.has_iff.mp (hw.membership_record m hm)
          exact Table.has_iff.mpr ⟨r', Table.mem_insert_of_mem hr', e⟩
        key_fresh := fun k hk => Nat.lt_succ_of_lt (hw.key_fresh k hk)
        group_fresh := fun g hg => Nat.lt_succ_of_lt (hw.group_fresh g hg)
        record_fresh := fun r' hr' => by
          rcases Table.mem_of_mem_insert hr' with hr' | rfl
          · exact Nat.lt_succ_of_lt (hw.record_fresh r' hr')
          · exact Nat.lt_succ_self _
        webhook_fresh := fun h hh => Nat.lt_succ_of_lt (hw.webhook_fresh h hh)
        execution_fresh := fun e he => Nat.lt_succ_of_lt (hw.execution_fresh e he) }

/-- A record may be rewritten in all columns but its identifier and its address. -/
theorem wf_modify_record {w : World} (hw : w.Wf) {id : Uuid} {f : IpRecord → IpRecord}
    {hf : ∀ r, (f r).id = r.id} (ha : ∀ r, (f r).target_address = r.target_address) :
    World.Wf { w with records := w.records.modify id f hf } :=
  { hw with
    address_unique := hw.address_unique.modify hf fun r hr hid r' hr' e => by
      rw [ha] at e
      rw [hw.address_unique r' hr' r hr e, hid]
    membership_record := fun m hm => by
      rw [Table.has_modify]
      exact hw.membership_record m hm
    record_fresh := fun r hr => by
      rcases (Table.mem_modify hf).mp hr with ⟨hr', -⟩ | ⟨r₀, hr₀, -, rfl⟩
      · exact hw.record_fresh r hr'
      · rw [hf]
        exact hw.record_fresh r₀ hr₀ }

theorem wf_update_record (id : Uuid) (c : RecordChange) : KeepsWf (update_record id c) := by
  intro w a w' h hw
  simp only [update_record, db_error] at h
  split at h
  · cases h
  · simp only [Except.ok.injEq, Prod.mk.injEq] at h
    obtain ⟨-, rfl⟩ := h
    exact wf_modify_record hw c.apply_address

theorem wf_delete_records_where (p : IpRecord → Bool) : KeepsWf (delete_records_where p) := by
  intro w a w' h hw
  simp only [delete_records_where, Except.ok.injEq, Prod.mk.injEq] at h
  obtain ⟨-, rfl⟩ := h
  exact
    { hw with
      address_unique := hw.address_unique.filter
      membership_record := fun m hm => (Table.mem_filter.mp hm).2
      membership_group := fun m hm => hw.membership_group m (Table.mem_filter.mp hm).1
      record_fresh := fun r hr => hw.record_fresh r (Table.mem_filter.mp hr).1 }

theorem wf_link (record_id group_id : Uuid) : KeepsWf (link record_id group_id) := by
  intro w a w' h hw
  simp only [link, db_error] at h
  split at h
  · cases h
  · rename_i he
    simp only [Except.ok.injEq, Prod.mk.injEq] at h
    obtain ⟨-, rfl⟩ := h
    simp only [Bool.not_eq_true, Bool.not_eq_false', Bool.and_eq_true] at he
    exact
      { hw with
        membership_record := fun m hm => by
          rcases Table.mem_of_mem_insert hm with hm' | rfl
          · exact hw.membership_record m hm'
          · exact he.1
        membership_group := fun m hm => by
          rcases Table.mem_of_mem_insert hm with hm' | rfl
          · exact hw.membership_group m hm'
          · exact he.2 }

theorem wf_unlink (record_id group_id : Uuid) : KeepsWf (unlink record_id group_id) := by
  intro w a w' h hw
  simp only [unlink, Except.ok.injEq, Prod.mk.injEq] at h
  obtain ⟨-, rfl⟩ := h
  exact
    { hw with
      membership_record := fun m hm => hw.membership_record m (Table.mem_filter.mp hm).1
      membership_group := fun m hm => hw.membership_group m (Table.mem_filter.mp hm).1 }

/-! ## Webhooks, executions and the audit trail -/

theorem wf_insert_webhook (h : WebhookConfig) : KeepsWf (insert_webhook h) := by
  intro w a w' e hw
  simp only [insert_webhook, db_error] at e
  split at e
  · cases e
  · rename_i hg
    simp only [Except.ok.injEq, Prod.mk.injEq] at e
    obtain ⟨-, rfl⟩ := e
    exact
      { hw with
        webhook_group := fun h' hh' => by
          rcases Table.mem_of_mem_insert hh' with hh' | rfl
          · exact hw.webhook_group h' hh'
          · simpa using hg
        execution_webhook := fun x hx => by
          obtain ⟨h', hh', e⟩ := Table.has_iff.mp (hw.execution_webhook x hx)
          exact Table.has_iff.mpr ⟨h', Table.mem_insert_of_mem hh', e⟩
        key_fresh := fun k hk => Nat.lt_succ_of_lt (hw.key_fresh k hk)
        group_fresh := fun g hg => Nat.lt_succ_of_lt (hw.group_fresh g hg)
        record_fresh := fun r hr => Nat.lt_succ_of_lt (hw.record_fresh r hr)
        webhook_fresh := fun h' hh' => by
          rcases Table.mem_of_mem_insert hh' with hh' | rfl
          · exact Nat.lt_succ_of_lt (hw.webhook_fresh h' hh')
          · exact Nat.lt_succ_self _
        execution_fresh := fun e he => Nat.lt_succ_of_lt (hw.execution_fresh e he) }

theorem wf_modify_webhook {w : World} (hw : w.Wf) {id : Uuid} {f : WebhookConfig → WebhookConfig}
    {hf : ∀ h, (f h).id = h.id} (hg : ∀ h ∈ w.webhooks, h.id = id → w.groups.has (f h).group_id) :
    World.Wf { w with webhooks := w.webhooks.modify id f hf } :=
  { hw with
    webhook_group := fun h hh => by
      rcases (Table.mem_modify hf).mp hh with ⟨hh', -⟩ | ⟨h₀, hh₀, hid, rfl⟩
      · exact hw.webhook_group h hh'
      · exact hg h₀ hh₀ hid
    execution_webhook := fun e he => by
      rw [Table.has_modify]
      exact hw.execution_webhook e he
    webhook_fresh := fun h hh => by
      rcases (Table.mem_modify hf).mp hh with ⟨hh', -⟩ | ⟨h₀, hh₀, -, rfl⟩
      · exact hw.webhook_fresh h hh'
      · rw [hf]
        exact hw.webhook_fresh h₀ hh₀ }

theorem wf_update_webhook (id : Uuid) (c : WebhookChange) : KeepsWf (update_webhook id c) := by
  intro w a w' h hw
  simp only [update_webhook, db_error] at h
  split at h
  · cases h
  · rename_i h₀ hh₀
    split at h
    · cases h
    · rename_i hg
      simp only [Except.ok.injEq, Prod.mk.injEq] at h
      obtain ⟨-, rfl⟩ := h
      refine wf_modify_webhook hw fun h hh hid => ?_
      have : h = h₀ := Table.eq_of_key hh (Table.find?_eq_some.mp hh₀).1
        (hid.trans (Table.find?_eq_some.mp hh₀).2.symm)
      rw [this]
      simpa using hg

theorem wf_set_webhook_owner (id : Uuid) (owner : Option Uuid) :
    KeepsWf (set_webhook_owner id owner) := by
  intro w a w' h hw
  simp only [set_webhook_owner, Except.ok.injEq, Prod.mk.injEq] at h
  obtain ⟨-, rfl⟩ := h
  exact wf_modify_webhook hw fun h hh _ => hw.webhook_group h hh

theorem wf_delete_webhook (id : Uuid) : KeepsWf (delete_webhook id) := by
  intro w a w' h hw
  simp only [delete_webhook, Except.ok.injEq, Prod.mk.injEq] at h
  obtain ⟨-, rfl⟩ := h
  exact
    { hw with
      webhook_group := fun h hh => hw.webhook_group h (Table.mem_filter.mp hh).1
      execution_webhook := fun e he => by
        obtain ⟨he', hne⟩ := Table.mem_filter.mp he
        obtain ⟨h, hh, hid⟩ := Table.has_iff.mp (hw.execution_webhook e he')
        refine Table.has_iff.mpr ⟨h, Table.mem_filter.mpr ⟨hh, ?_⟩, hid⟩
        simpa [hid] using hne
      webhook_fresh := fun h hh => hw.webhook_fresh h (Table.mem_filter.mp hh).1
      execution_fresh := fun e he => hw.execution_fresh e (Table.mem_filter.mp he).1 }

theorem wf_insert_execution (x : WebhookExecution) : KeepsWf (insert_execution x) := by
  intro w a w' h hw
  simp only [insert_execution, db_error] at h
  split at h
  · cases h
  · rename_i hx
    simp only [Except.ok.injEq, Prod.mk.injEq] at h
    obtain ⟨-, rfl⟩ := h
    exact
      { hw with
        execution_webhook := fun e he => by
          rcases Table.mem_of_mem_insert he with he' | rfl
          · exact hw.execution_webhook e he'
          · simpa using hx
        key_fresh := fun k hk => Nat.lt_succ_of_lt (hw.key_fresh k hk)
        group_fresh := fun g hg => Nat.lt_succ_of_lt (hw.group_fresh g hg)
        record_fresh := fun r hr => Nat.lt_succ_of_lt (hw.record_fresh r hr)
        webhook_fresh := fun h hh => Nat.lt_succ_of_lt (hw.webhook_fresh h hh)
        execution_fresh := fun e he => by
          rcases Table.mem_of_mem_insert he with he' | rfl
          · exact Nat.lt_succ_of_lt (hw.execution_fresh e he')
          · exact Nat.lt_succ_self _ }

theorem wf_delete_execution (id : Uuid) : KeepsWf (delete_execution id) := by
  intro w a w' h hw
  simp only [delete_execution, Except.ok.injEq, Prod.mk.injEq] at h
  obtain ⟨-, rfl⟩ := h
  exact
    { hw with
      execution_webhook := fun e he => hw.execution_webhook e (Table.mem_filter.mp he).1
      execution_fresh := fun e he => hw.execution_fresh e (Table.mem_filter.mp he).1 }

theorem wf_insert_audit (x : AuditLog) : KeepsWf (insert_audit x) := by
  intro w a w' h hw
  simp only [insert_audit, db_error] at h
  split at h
  · rename_i hx
    simp only [Except.ok.injEq, Prod.mk.injEq] at h
    obtain ⟨-, rfl⟩ := h
    exact
      { hw with
        audit_key := fun y hy id hid => by
          rcases List.mem_append.mp hy with hy' | hy'
          · exact hw.audit_key y hy' id hid
          · rw [List.mem_singleton.mp hy'] at hid
            simpa [hid] using hx }
  · cases h

theorem wf_enqueue (e : WebhookEvent) : KeepsWf (enqueue e) := by
  intro w a w' h hw
  simp only [enqueue, Except.ok.injEq, Prod.mk.injEq] at h
  obtain ⟨-, rfl⟩ := h
  split
  · exact { hw with }
  · exact hw

end Txn

end IpVault
