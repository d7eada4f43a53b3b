import IpVault.Records.Outcome

set_option autoImplicit false

/-! # What each statement does to the records

A ban or a whitelisting amounts to a batch of one entry, so that the statements that write records
are of four kinds: batches, single updates, removals of records, and removals of memberships.
-/

namespace IpVault

open Lib

variable {w w' : World}

/-! ## Ban and whitelist -/

namespace UpsertTxn

variable {t : UpsertTxn}

/-- The batch a ban or a whitelisting amounts to. -/
def as_batch (t : UpsertTxn) : BatchTxn where
  caller := t.caller
  now := t.now
  group :=
    { id := t.target_group_id
      name := t.resolved_group_name
      group_type := if t.is_whitelist then "whitelist" else "banlist"
      description := none
      owner_key_id := none
      created_at := t.now }
  mode := .Upsert
  normalized :=
    [(t.normalized_address, { target_address := t.normalized_address, cause := t.cause })]
  skip_webhooks := true

theorem as_batch_outcome : t.as_batch.outcome w = t.as_batch.entry_outcome t.as_batch.normalized :=
  funext fun r => by simp [BatchTxn.outcome, BatchTxn.omits, as_batch]

theorem record_id_ok {id : Uuid} (h : t.record_id w = .ok (id, w')) :
    (∃ r, w.record_at t.normalized_address = some r ∧ r.is_locked = false ∧ id = r.id ∧
      w' = { w with
        records := w.records.modify r.id (t.change r).apply (t.change r).apply_id }) ∨
    (w.record_at t.normalized_address = none ∧ id = w.next_uuid ∧
      w' = { w with
        records := w.records.insert { t.fresh_record with id := w.next_uuid }
        next_uuid := w.next_uuid + 1 }) := by
  obtain ⟨found, w₁, hread, h⟩ := atomic_bind_ok.mp h
  simp only [Txn.read, Except.ok.injEq, Prod.mk.injEq] at hread
  obtain ⟨hfound, rfl⟩ := hread
  cases found with
  | none =>
      obtain ⟨hid, hn, hw'⟩ := Txn.insert_record_ok h
      exact .inr ⟨hn, hid, hw'⟩
  | some r =>
      by_cases hl : r.is_locked = true
      · simp [hl, Txn.refuse] at h
      · simp only [hl, Bool.false_eq_true, if_false] at h
        obtain ⟨r', w₂, hupd, h⟩ := atomic_bind_ok.mp h
        obtain ⟨rfl, rfl⟩ := atomic_pure_ok.mp h
        obtain ⟨r₀, -, hid, rfl, rfl⟩ := Txn.update_record_ok hupd
        exact .inl ⟨r, hfound, by simpa using hl, by rw [Txn.RecordChange.apply_id, hid], rfl⟩

/-- **The transaction of a ban or a whitelisting** is that batch, of an address that is not
locked. -/
theorem run_effect {action : String} (hw : w.Wf) (h : t.run w = .ok (action, w')) :
    (∀ r ∈ w.records, r.target_address = t.normalized_address → r.is_locked = false) ∧
      t.as_batch.Effect (t.as_batch.outcome w) t.as_batch.normalized w w' := by
  obtain ⟨id, w₁, hrec, h⟩ := atomic_bind_ok.mp h
  obtain ⟨n, w₂, hlink, h⟩ := atomic_bind_ok.mp h
  obtain ⟨_, w₃, haudit, h⟩ := atomic_bind_ok.mp h
  obtain ⟨-, rfl⟩ := atomic_pure_ok.mp h
  obtain rfl := Txn.link_ok hlink
  obtain rfl := Txn.insert_audit_ok haudit
  rw [as_batch_outcome]
  rcases record_id_ok hrec with ⟨r, hr, hl, rfl, rfl⟩ | ⟨hn, rfl, rfl⟩
  · have change : BatchTxn.EntryEffect t.as_batch t.normalized_address
        { target_address := t.normalized_address, cause := t.cause } w _ := .changed r hr hl
    have effect := change.effect (e := (_, _)) hw
    obtain ⟨hmem, hadr⟩ := World.mem_of_record_at hr
    refine ⟨fun r' hr' hadr' => ?_,
      ⟨effect.row, effect.origin, effect.created, effect.members, effect.counter⟩⟩
    rw [hw.address_unique r' hr' r hmem (hadr'.trans hadr.symm)]
    exact hl
  · have change : BatchTxn.EntryEffect t.as_batch t.normalized_address
        { target_address := t.normalized_address, cause := t.cause } w _ := .created hn
    have effect := change.effect (e := (_, _)) hw
    exact ⟨fun r hr hadr => absurd hadr (World.record_at_eq_none.mp hn r hr),
      ⟨effect.row, effect.origin, effect.created, effect.members, effect.counter⟩⟩

end UpsertTxn

/-! ## Removal from one group -/

/-- **The transaction of a removal** takes an unlocked record out of the group. -/
theorem DeleteIpTxn.run_ok {t : DeleteIpTxn} {r : IpRecord} (h : t.run w = .ok (r, w')) :
    r ∈ w.records ∧ r.target_address = t.target_address ∧ r.is_locked = false ∧
      w.member r.id t.group_id ∧ w'.records = w.records ∧
      w'.memberships = w.memberships.filter fun m => m.key ≠ (r.id, t.group_id) := by
  obtain ⟨found, w₁, hread, h⟩ := atomic_bind_ok.mp h
  simp only [Txn.read, Except.ok.injEq, Prod.mk.injEq] at hread
  obtain ⟨hfound, rfl⟩ := hread
  cases found with
  | none => simp [Txn.refuse] at h
  | some r₀ =>
      obtain ⟨hmem, hadr⟩ := World.mem_of_record_at hfound
      by_cases hl : r₀.is_locked = true
      · simp [hl, Txn.refuse] at h
      · simp only [hl, Bool.false_eq_true, if_false] at h
        obtain ⟨n, w₂, hunlink, h⟩ := atomic_bind_ok.mp h
        simp only [Txn.unlink, Except.ok.injEq, Prod.mk.injEq] at hunlink
        obtain ⟨hn, rfl⟩ := hunlink
        by_cases hzero : n = 0
        · simp [hzero, Txn.refuse] at h
        · simp only [hzero, if_false] at h
          obtain ⟨_, w₃, haudit, h⟩ := atomic_bind_ok.mp h
          obtain ⟨rfl, rfl⟩ := atomic_pure_ok.mp h
          have hhas : w.memberships.has (r₀.id, t.group_id) = true := by
            by_contra hf
            exact hzero (by rw [← hn, if_neg hf])
          obtain ⟨m, hm, hkey⟩ := Table.has_iff.mp hhas
          obtain ⟨hid, hgroup⟩ := Prod.mk.inj hkey
          obtain rfl := Txn.insert_audit_ok haudit
          exact ⟨hmem, hadr, by simpa using hl, ⟨m, hm, hid, hgroup⟩, rfl, rfl⟩

namespace Stmt

variable {l : Stmt}

/-! ## Every statement -/

/-- The batch a statement amounts to. -/
def as_batch : Stmt → Option BatchTxn
  | upsert_txn t => some t.as_batch
  | batch_txn t => some t
  | _ => none

/-- A statement that amounts to a batch has its effect, or fails. -/
theorem after_as_batch {b : BatchTxn} (hb : l.as_batch = some b) (hw : w.Wf)
    (hseen : b.seen.Nodup) :
    l.after w = w ∨ b.Effect (b.outcome w) b.normalized w (l.after w) := by
  cases l with
  | upsert_txn t =>
      cases hb
      cases h : t.run w with
      | error e => exact .inl (after_of_error (l := upsert_txn t) h)
      | ok p =>
          rw [after_of_ok (l := upsert_txn t) h]
          exact .inr (UpsertTxn.run_effect hw h).2
  | batch_txn t =>
      cases hb
      cases h : b.run w with
      | error e => exact .inl (after_of_error (l := batch_txn b) h)
      | ok p =>
          rw [after_of_ok (l := batch_txn b) h]
          exact .inr (BatchTxn.run_effect hw hseen h)
  | _ => cases hb

theorem after_update_record (id : Uuid) (c : Txn.RecordChange) (w : World) :
    ((update_record id c).after w).records = w.records.modify id c.apply c.apply_id := by
  cases h : w.records.find? id with
  | none =>
      simp [after, txn, Txn.update_record, Txn.db_error, h, Table.modify_of_absent c.apply_id h]
  | some r => simp [after, txn, Txn.update_record, h]

/-- **A record after a statement**: an old one, one the statement updated, or one a batch
created. -/
theorem mem_records_after (hw : w.Wf) (hseen : ∀ b, l.as_batch = some b → b.seen.Nodup)
    {r' : IpRecord} (h : r' ∈ (l.after w).records) :
    r' ∈ w.records ∨
      (∃ id c r, l = update_record id c ∧ r ∈ w.records ∧ r.id = id ∧ r' = c.apply r) ∨
      ∃ b, l.as_batch = some b ∧ ((∃ r ∈ w.records, r' = b.outcome w r) ∨
        ∃ e ∈ b.normalized, w.record_at e.1 = none ∧ w.next_uuid ≤ r'.id ∧
          r' = { b.fresh_record e.1 e.2 with id := r'.id }) := by
  have batch : ∀ b, l.as_batch = some b → r' ∈ w.records ∨
      ((∃ r ∈ w.records, r' = b.outcome w r) ∨
        ∃ e ∈ b.normalized, w.record_at e.1 = none ∧ w.next_uuid ≤ r'.id ∧
          r' = { b.fresh_record e.1 e.2 with id := r'.id }) := by
    intro b hb
    rcases after_as_batch hb hw (hseen b hb) with hsame | heffect
    · exact .inl (hsame ▸ h)
    · exact .inr (heffect.origin r' h)
  cases l with
  | upsert_txn t => exact (batch _ rfl).imp_right fun h => .inr ⟨_, rfl, h⟩
  | batch_txn t => exact (batch _ rfl).imp_right fun h => .inr ⟨_, rfl, h⟩
  | update_record id c =>
      rw [after_update_record] at h
      rcases (Table.mem_modify c.apply_id).mp h with ⟨hr, -⟩ | ⟨r, hr, hid, heq⟩
      · exact .inl hr
      · exact .inr (.inl ⟨id, c, r, rfl, hr, hid, heq⟩)
  | delete_ip_txn t =>
      refine .inl ?_
      cases hrun : t.run w with
      | error e => rwa [after_of_error (l := delete_ip_txn t) hrun] at h
      | ok p =>
          rw [after_of_ok (l := delete_ip_txn t) hrun, (DeleteIpTxn.run_ok hrun).2.2.2.2.1] at h
          exact h
  | delete_record id => exact .inl (Table.mem_filter.mp h).1
  | purge threshold => exact .inl (Table.mem_filter.mp h).1
  | _ => exact .inl (by rwa [(frame _ w).records rfl] at h)

/-- **What a statement makes of a record**: nothing, or what an update or a batch makes of it, or
it is removed. -/
theorem record_after (hw : w.Wf) (hseen : ∀ b, l.as_batch = some b → b.seen.Nodup)
    {r : IpRecord} (hr : r ∈ w.records) :
    r ∈ (l.after w).records ∨
      (∃ c, l = update_record r.id c ∧ c.apply r ∈ (l.after w).records) ∨
      (∃ b, l.as_batch = some b ∧ b.outcome w r ∈ (l.after w).records) ∨
      l = delete_record r.id ∨
      ∃ threshold, l = purge threshold ∧ Txn.expired threshold r = true := by
  have batch : ∀ b, l.as_batch = some b → r ∈ (l.after w).records ∨
      b.outcome w r ∈ (l.after w).records := by
    intro b hb
    rcases after_as_batch hb hw (hseen b hb) with hsame | heffect
    · exact .inl (by rwa [hsame])
    · exact .inr (heffect.row r hr)
  cases l with
  | upsert_txn t => exact (batch _ rfl).imp_right fun h => .inr (.inl ⟨_, rfl, h⟩)
  | batch_txn t => exact (batch _ rfl).imp_right fun h => .inr (.inl ⟨_, rfl, h⟩)
  | update_record id c =>
      rw [after_update_record]
      by_cases hid : r.id = id
      · subst hid
        exact .inr (.inl ⟨c, rfl, apply_mem_modify hr⟩)
      · exact .inl (mem_records_of_modify hr hid)
  | delete_ip_txn t =>
      refine .inl ?_
      cases hrun : t.run w with
      | error e => rwa [after_of_error (l := delete_ip_txn t) hrun]
      | ok p =>
          rw [after_of_ok (l := delete_ip_txn t) hrun, (DeleteIpTxn.run_ok hrun).2.2.2.2.1]
          exact hr
  | delete_record id =>
      by_cases hid : r.id = id
      · exact .inr (.inr (.inr (.inl (by rw [hid]))))
      · exact .inl (Table.mem_filter.mpr ⟨hr, by simpa using hid⟩)
  | purge threshold =>
      by_cases he : Txn.expired threshold r = true
      · exact .inr (.inr (.inr (.inr ⟨threshold, rfl, he⟩)))
      · exact .inl (Table.mem_filter.mpr ⟨hr, by simpa using he⟩)
  | _ => exact .inl (by rwa [(frame _ w).records rfl])

end Stmt

end IpVault
