import IpVault.Keys.Snapshot
import IpVault.Lib.Books
import IpVault.Records.BatchOrder

set_option autoImplicit false

/-! # The audit trail

What a statement does to the tables whose changes are audited, and to the audit trail: it changes one
of the tables, or it adds an audit row, or neither; the three transactions of the record endpoints do
both at once. No statement takes an audit row away. When a key is deleted, its rows forget its
identifier, and nothing else.
-/

namespace IpVault

open Lib

/-! ## The tables and the trail -/

/-- The audited tables and the audit trail are the same. -/
structure World.SameBooks (v w : World) : Prop where
  keys : w.keys = v.keys
  groups : w.groups = v.groups
  permissions : w.permissions = v.permissions
  records : w.records = v.records
  memberships : w.memberships = v.memberships
  webhooks : w.webhooks = v.webhooks
  audit_logs : w.audit_logs = v.audit_logs

namespace World.SameBooks

theorem refl (w : World) : w.SameBooks w := ⟨rfl, rfl, rfl, rfl, rfl, rfl, rfl⟩

theorem trans {v w x : World} (h : v.SameBooks w) (h' : w.SameBooks x) : v.SameBooks x where
  keys := h'.keys.trans h.keys
  groups := h'.groups.trans h.groups
  permissions := h'.permissions.trans h.permissions
  records := h'.records.trans h.records
  memberships := h'.memberships.trans h.memberships
  webhooks := h'.webhooks.trans h.webhooks
  audit_logs := h'.audit_logs.trans h.audit_logs

end World.SameBooks

/-- An audit row later on, in the store `w`: it is as it was, or its key is gone and its `api_key_id`
is null. -/
def AuditLog.Kept (w : World) (a a' : AuditLog) : Prop :=
  a' = a ∨ a' = { a with api_key_id := none } ∧ ∃ id, a.api_key_id = some id ∧ w.Gone id

/-- Who was gone still is, and every audit row is still in its place. -/
structure World.Remembers (v w : World) : Prop where
  gone : ∀ id, v.Gone id → w.Gone id
  rows : ∀ (i : Nat) a, v.audit_logs[i]? = some a → ∃ a', w.audit_logs[i]? = some a' ∧ a.Kept w a'

namespace World

variable {v w x : World}

theorem Remembers.refl (w : World) : w.Remembers w where
  gone _ h := h
  rows _ a h := ⟨a, h, .inl rfl⟩

theorem Remembers.trans (h : v.Remembers w) (h' : w.Remembers x) : v.Remembers x where
  gone id hid := h'.gone id (h.gone id hid)
  rows i a ha := by
    obtain ⟨b, hb, hab⟩ := h.rows i a ha
    obtain ⟨c, hc, hbc⟩ := h'.rows i b hb
    refine ⟨c, hc, ?_⟩
    rcases hab with rfl | ⟨rfl, id, hid, hgone⟩
    · exact hbc
    · rcases hbc with rfl | ⟨rfl, _, hnone, -⟩
      · exact .inr ⟨rfl, id, hid, h'.gone id hgone⟩
      · cases hnone

/-- Who is gone stays gone. -/
theorem Gone.after {id : Uuid} (h : w.Gone id) (l : Stmt) : (l.after w).Gone id := by
  refine ⟨h.1.trans_le (l.frame w).next_uuid, Table.has_eq_false.mpr fun k hk hid => ?_⟩
  rcases Stmt.mem_keys_after hk with hk | ⟨k₀, rfl, rfl⟩ | ⟨_, c, k₀, rfl, hk₀, -, rfl⟩
  · exact Table.has_eq_false.mp h.2 k hk hid
  · exact absurd hid (Nat.ne_of_gt h.1)
  · rw [c.apply_id] at hid
    exact Table.has_eq_false.mp h.2 k₀ hk₀ hid

end World

/-! ## The transactions -/

namespace Txn

/-- The audit trail is the same. -/
abbrev SameTrail (w w' : World) : Prop := w'.audit_logs = w.audit_logs

theorem trail_insert_record (r : IpRecord) : Keeps SameTrail (insert_record r) := by
  intro w a w' h
  simp only [insert_record, db_error] at h
  split at h
  · cases h
  · cases h
    rfl

theorem trail_update_record (id : Uuid) (c : RecordChange) :
    Keeps SameTrail (update_record id c) := by
  intro w a w' h
  obtain ⟨_, _, _, _, rfl⟩ := update_record_ok h
  rfl

theorem trail_link (record_id group_id : Uuid) : Keeps SameTrail (link record_id group_id) := by
  intro w a w' h
  simp only [link, db_error] at h
  split at h
  · cases h
  · cases h
    rfl

theorem trail_unlink (record_id group_id : Uuid) : Keeps SameTrail (unlink record_id group_id) := by
  intro w a w' h
  cases h
  rfl

theorem trail_bind {α β : Type} {m : Txn α} {f : α → Txn β} (hm : Keeps SameTrail m)
    (hf : ∀ a, Keeps SameTrail (f a)) : Keeps SameTrail (m >>= f) :=
  .bind (fun _ _ _ h h' => h'.trans h) hm hf

theorem trail_pure {α : Type} (a : α) : Keeps SameTrail (pure a : Txn α) :=
  @Keeps.pure _ _ _ SameTrail (fun _ => rfl) a

theorem trail_read {α : Type} (f : World → α) : Keeps SameTrail (read f) := by
  intro w a w' h
  cases h
  rfl

/-- The audit trail is one row longer, and the row names the key. -/
abbrev OneRow (key_id : Option Uuid) (w w' : World) : Prop :=
  ∃ a : AuditLog, a.api_key_id = key_id ∧ w'.audit_logs = w.audit_logs ++ [a]

theorem one_row_audit {α : Type} (a : AuditLog) (b : α) :
    Keeps (OneRow a.api_key_id) (do insert_audit a; pure b) := by
  intro w c w' h
  obtain ⟨_, w₁, haudit, h⟩ := atomic_bind_ok.mp h
  obtain ⟨-, rfl⟩ := atomic_pure_ok.mp h
  obtain rfl := insert_audit_ok haudit
  exact ⟨a, rfl, rfl⟩

theorem one_row_bind {α β : Type} {m : Txn α} {f : α → Txn β} {key_id : Option Uuid}
    (hm : Keeps SameTrail m) (hf : ∀ a, Keeps (OneRow key_id) (f a)) :
    Keeps (OneRow key_id) (m >>= f) := by
  intro w b w' h
  obtain ⟨a, w₁, hma, hfa⟩ := atomic_bind_ok.mp h
  obtain ⟨row, hkey, hrow⟩ := hf a w₁ b w' hfa
  refine ⟨row, hkey, ?_⟩
  rw [hrow, hm w a w₁ hma]

end Txn

theorem UpsertTxn.one_row (t : UpsertTxn) : Keeps (Txn.OneRow (some t.caller.key.id)) t.run := by
  have hrecord : Keeps Txn.SameTrail t.record_id := by
    refine Txn.trail_bind (Txn.trail_read _) fun found => ?_
    cases found with
    | none => exact Txn.trail_insert_record _
    | some r =>
        by_cases hl : r.is_locked = true
        · simp only [hl, if_true]
          exact RecordWrites.refuse _
        · simp only [hl]
          exact Txn.trail_bind (Txn.trail_update_record _ _) fun _ => Txn.trail_pure _
  exact Txn.one_row_bind hrecord fun _ => Txn.one_row_bind (Txn.trail_link _ _) fun _ =>
    Txn.one_row_audit _ _

theorem DeleteIpTxn.one_row (t : DeleteIpTxn) : Keeps (Txn.OneRow (some t.caller.key.id)) t.run := by
  refine Txn.one_row_bind (Txn.trail_read _) fun found => ?_
  cases found with
  | none => exact RecordWrites.refuse _
  | some r =>
      by_cases hl : r.is_locked = true
      · simp only [hl, if_true]
        exact RecordWrites.refuse _
      · simp only [hl]
        refine Txn.one_row_bind (Txn.trail_unlink _ _) fun n => ?_
        by_cases hn : n = 0
        · simp only [hn, if_true]
          exact RecordWrites.refuse _
        · simp only [hn, if_false]
          exact Txn.one_row_audit _ _

namespace BatchTxn

theorem trail_entry (t : BatchTxn) (st : BatchState) (e : String × BatchRecordInput) :
    Keeps Txn.SameTrail (t.entry st e) := by
  have hjoin : ∀ id summary events, Keeps Txn.SameTrail (t.join e.1 e.2 id summary events) :=
    fun _ _ _ => Txn.trail_bind (Txn.trail_link _ _) fun _ => Txn.trail_pure _
  refine Txn.trail_bind (Txn.trail_read _) fun found => ?_
  cases found with
  | none => exact Txn.trail_bind (Txn.trail_insert_record _) fun _ => hjoin _ _ _
  | some r =>
      by_cases hl : r.is_locked = true
      · simp only [hl, if_true]
        exact Txn.trail_pure _
      · simp only [hl]
        exact Txn.trail_bind (Txn.trail_update_record _ _) fun _ => hjoin _ _ _

theorem trail_entries (t : BatchTxn) (es : List (String × BatchRecordInput)) (st : BatchState) :
    Keeps Txn.SameTrail (t.entries es st) := by
  induction es generalizing st with
  | nil => exact Txn.trail_pure _
  | cons e es ih => exact Txn.trail_bind (t.trail_entry st e) fun st' => ih st'

theorem one_row (t : BatchTxn) : Keeps (Txn.OneRow (some t.caller.key.id)) t.run := by
  refine Txn.one_row_bind (t.trail_entries _ _) fun st => Txn.one_row_bind ?_ fun st' =>
    Txn.one_row_audit _ _
  unfold replace
  cases t.mode with
  | Upsert => exact Txn.trail_pure _
  | FullReplace =>
      exact Txn.trail_bind (Txn.trail_read _) fun members _ _ _ h => sweep_audit_logs h

end BatchTxn

/-! ## Statements -/

namespace Stmt

/-- Whether a statement writes one of the audited tables. -/
def changes (l : Stmt) : Bool :=
  l.writes_keys || l.writes_groups || l.writes_permissions || l.writes_memberships ||
    l.writes_webhooks

/-- The key that the audit row of a statement names, for a statement that writes one. -/
def auditor : Stmt → Option (Option Uuid)
  | insert_audit a => some a.api_key_id
  | upsert_txn t => some (some t.caller.key.id)
  | delete_ip_txn t => some (some t.caller.key.id)
  | batch_txn t => some (some t.caller.key.id)
  | _ => none

/-- What a statement is to the books. -/
def kind (l : Stmt) : Books.Kind :=
  if l.auditor.isSome then .record else if l.changes then .change else .other

/-- A statement that writes an audit row adds it at the end of the trail. -/
theorem one_row_of_auditor {l : Stmt} {w w' : World} {a : l.Reply} {key_id : Option Uuid}
    (hl : l.auditor = some key_id) (h : l.txn w = .ok (a, w')) :
    Txn.OneRow key_id w w' := by
  cases l with
  | insert_audit row =>
      obtain rfl := Txn.insert_audit_ok h
      exact ⟨row, Option.some.inj hl, rfl⟩
  | upsert_txn t =>
      obtain rfl := Option.some.inj hl
      exact t.one_row w a w' h
  | delete_ip_txn t =>
      obtain rfl := Option.some.inj hl
      exact t.one_row w a w' h
  | batch_txn t =>
      obtain rfl := Option.some.inj hl
      exact t.one_row w a w' h
  | _ => cases hl

/-- **The trail after any other statement** is as it was, but that rows forget a key that is
deleted. -/
theorem audit_logs_after {l : Stmt} (hl : l.auditor = none) (w : World) :
    (l.after w).audit_logs = w.audit_logs ∨ ∃ ids, l = delete_keys ids ∧
      (l.after w).audit_logs = w.audit_logs.map (Txn.forget_keys ids) := by
  cases l with
  | delete_keys ids => exact .inr ⟨ids, rfl, rfl⟩
  | upsert_txn t => cases hl
  | delete_ip_txn t => cases hl
  | batch_txn t => cases hl
  | insert_audit row => cases hl
  | _ =>
      refine .inl (after_of_keeps (R := Txn.SameTrail) (fun w a w' h => ?_) (fun _ => rfl) w)
      simp only [txn, Txn.read, Txn.insert_key, Txn.update_key, Txn.insert_permission,
        Txn.insert_permission_or_ignore, Txn.upsert_permission, Txn.delete_permission,
        Txn.insert_group, Txn.insert_group_or_ignore, Txn.set_group_owner, Txn.delete_group,
        Txn.update_record, Txn.delete_record, Txn.purge, Txn.delete_records_where,
        Txn.insert_webhook, Txn.update_webhook, Txn.set_webhook_owner, Txn.delete_webhook,
        Txn.insert_execution, Txn.delete_execution, Txn.enqueue, Txn.db_error] at h
      repeat' split at h
      all_goals first | cases h; done | skip
      all_goals
        cases h
        rfl

/-- A statement that is neither leaves the tables and the trail as they were. -/
theorem same_books_of_other {l : Stmt} (h : l.kind = .other) (w : World) :
    w.SameBooks (l.after w) := by
  have hauditor : l.auditor = none := by
    by_contra hsome
    rw [kind, if_pos (Option.isSome_iff_ne_none.mpr hsome)] at h
    cases h
  have hchanges : l.changes = false := by
    rw [kind, hauditor] at h
    by_contra hc
    rw [if_neg (by decide), if_pos (Bool.eq_true_of_not_eq_false hc)] at h
    cases h
  simp only [changes, Bool.or_eq_false_iff] at hchanges
  obtain ⟨⟨⟨⟨hkeys, hgroups⟩, hpermissions⟩, hmemberships⟩, hwebhooks⟩ := hchanges
  have hrecords : l.writes_records = false := by
    cases l <;> first | rfl | cases hmemberships
  have frame := l.frame w
  refine ⟨frame.keys hkeys, frame.groups hgroups, frame.permissions hpermissions,
    frame.records hrecords, frame.memberships hmemberships, frame.webhooks hwebhooks, ?_⟩
  rcases audit_logs_after hauditor w with hsame | ⟨ids, rfl, -⟩
  · exact hsame
  · cases hkeys

/-- No statement takes an audit row away. -/
theorem remembers (l : Stmt) (v : Vault) : v.toWorld.Remembers (v.after l).toWorld where
  gone _ h := h.after l
  rows i a ha := by
    rw [Vault.after_toWorld]
    cases hauditor : l.auditor with
    | some key_id =>
        refine ⟨a, ?_, .inl rfl⟩
        cases hrun : l.txn v.toWorld with
        | error e => rwa [after_of_error hrun]
        | ok p =>
            obtain ⟨row, -, hrows⟩ := one_row_of_auditor hauditor hrun
            rw [after_of_ok hrun, hrows]
            exact List.getElem?_append_left (List.getElem?_eq_some_iff.mp ha).1 ▸ ha
    | none =>
        rcases audit_logs_after hauditor v.toWorld with hsame | ⟨ids, rfl, hrows⟩
        · exact ⟨a, hsame ▸ ha, .inl rfl⟩
        · refine ⟨Txn.forget_keys ids a, by rw [hrows, List.getElem?_map, ha]; rfl, ?_⟩
          by_cases hforgets : a.api_key_id.any (ids.contains ·) = true
          · rw [Txn.forget_keys, if_pos hforgets]
            cases hid : a.api_key_id with
            | none =>
                rw [hid] at hforgets
                cases hforgets
            | some id =>
                rw [hid] at hforgets
                have hhas : v.keys.has id = true :=
                  v.wf.audit_key a (List.mem_of_getElem? ha) id hid
                obtain ⟨k, hk, rfl⟩ := Table.has_iff.mp hhas
                refine .inr ⟨rfl, k.id, hid, v.wf.key_fresh k hk, Table.has_eq_false.mpr ?_⟩
                intro k' hk' hsame
                have hkept := (Table.mem_filter.mp hk').2
                rw [hsame] at hkept
                exact absurd hforgets (by simpa using hkept)
          · rw [Txn.forget_keys, if_neg hforgets]
            exact .inl rfl

end Stmt

end IpVault
