import IpVault.Schema.Stmt

set_option autoImplicit false

/-! # What a statement can fail with

A statement fails when it would break a constraint of the database, and the client sees a server
error. Only the two transactions that look at a record before they touch it refuse anything.
-/

namespace IpVault

open Lib

/-- Every error is one of the database. -/
abbrev Plain {α : Type} (m : Txn α) : Prop := Errs (fun e => ∃ d, e = AppError.DbError d) m

namespace Txn

theorem plain_read {α : Type} (f : World → α) : Plain (read f) := by
  intro w e h
  cases h

theorem plain_ok {α : Type} {f : World → α × World} : Plain (fun w => .ok (f w) : Txn α) := by
  intro w e h
  cases h

/-- A constraint that is checked first. -/
theorem plain_check {α : Type} {c : World → Prop} [DecidablePred c] {d : DbErr} {m : Txn α}
    (hm : Plain m) : Plain (fun w => if c w then db_error d else m w : Txn α) := by
  intro w e h
  dsimp only at h
  by_cases hc : c w
  · rw [if_pos hc] at h
    cases h
    exact ⟨d, rfl⟩
  · rw [if_neg hc] at h
    exact hm w e h

theorem plain_insert_record (r : IpRecord) : Plain (insert_record r) := plain_check plain_ok

theorem plain_update_record (id : Uuid) (c : RecordChange) : Plain (update_record id c) := by
  intro w e h
  unfold update_record at h
  split at h
  · cases h
    exact ⟨_, rfl⟩
  · cases h

theorem plain_link (record_id group_id : Uuid) : Plain (link record_id group_id) :=
  plain_check plain_ok

theorem plain_insert_audit (a : AuditLog) : Plain (insert_audit a) := by
  intro w e h
  unfold insert_audit at h
  split at h
  · cases h
  · cases h
    exact ⟨_, rfl⟩

end Txn

namespace BatchTxn

theorem plain_join (t : BatchTxn) (address : String) (input : BatchRecordInput) (record_id : Uuid)
    (summary : BatchRecordsResponse) (events : List WebhookEvent) :
    Plain (t.join address input record_id summary events) :=
  Errs.bind (Txn.plain_link _ _) fun _ => Errs.pure _

theorem plain_entry (t : BatchTxn) (st : BatchState) (e : String × BatchRecordInput) :
    Plain (t.entry st e) := by
  refine Errs.bind (Txn.plain_read _) fun found => ?_
  cases found with
  | none => exact Errs.bind (Txn.plain_insert_record _) fun _ => t.plain_join _ _ _ _ _
  | some record =>
      by_cases hl : record.is_locked = true
      · simp only [hl, if_true]
        exact Errs.pure _
      · simp only [hl]
        exact Errs.bind (Txn.plain_update_record _ _) fun _ => t.plain_join _ _ _ _ _

theorem plain_entries (t : BatchTxn) (es : List (String × BatchRecordInput)) (st : BatchState) :
    Plain (t.entries es st) := by
  induction es generalizing st with
  | nil => exact Errs.pure _
  | cons e es ih => exact Errs.bind (t.plain_entry st e) fun st' => ih st'

theorem plain_sweep (t : BatchTxn) (rs : List IpRecord) (st : BatchState) :
    Plain (t.sweep rs st) := by
  induction rs generalizing st with
  | nil => exact Errs.pure _
  | cons r rs ih =>
      obtain ⟨summary, events⟩ := st
      unfold sweep
      by_cases hs : t.seen.contains r.target_address = true
      · rw [if_pos hs]
        exact ih _
      · rw [if_neg hs]
        exact Errs.bind (Txn.plain_update_record _ _) fun _ => ih _

/-- A batch refuses nothing: it skips the records it may not touch. -/
theorem plain_run (t : BatchTxn) : Plain t.run := by
  refine Errs.bind (t.plain_entries _ _) fun st => ?_
  refine Errs.bind ?_ fun _ => Errs.bind (Txn.plain_insert_audit _) fun _ => Errs.pure _
  unfold replace
  cases t.mode with
  | Upsert => exact Errs.pure _
  | FullReplace => exact Errs.bind (Txn.plain_read _) fun members => t.plain_sweep members st

end BatchTxn

namespace Stmt

/-- **The plain statements** are all but two. -/
theorem plain {l : Stmt} (hu : ∀ t, l ≠ .upsert_txn t) (hd : ∀ t, l ≠ .delete_ip_txn t) :
    Plain l.txn := by
  cases l with
  | upsert_txn t => exact absurd rfl (hu t)
  | delete_ip_txn t => exact absurd rfl (hd t)
  | batch_txn t => exact t.plain_run
  | query q => exact Txn.plain_read _
  | update_record id c => exact Txn.plain_update_record id c
  | insert_audit a => exact Txn.plain_insert_audit a
  | insert_key k => exact Txn.plain_check Txn.plain_ok
  | insert_permission p => exact Txn.plain_check (Txn.plain_check Txn.plain_ok)
  | insert_permission_or_ignore p => exact Txn.plain_check Txn.plain_ok
  | upsert_permission p => exact Txn.plain_check Txn.plain_ok
  | insert_group g => exact Txn.plain_check Txn.plain_ok
  | insert_webhook x => exact Txn.plain_check Txn.plain_ok
  | insert_execution x => exact Txn.plain_check Txn.plain_ok
  | insert_group_or_ignore g =>
      intro w e h
      simp only [txn, Txn.insert_group_or_ignore] at h
      split at h <;> cases h
  -- The row to be changed may not be there.
  | update_key id c =>
      intro w e h
      simp only [txn, Txn.update_key] at h
      split at h
      · cases h
        exact ⟨_, rfl⟩
      · split at h
        · cases h
          exact ⟨_, rfl⟩
        · cases h
  | update_webhook id c =>
      intro w e h
      simp only [txn, Txn.update_webhook] at h
      split at h
      · cases h
        exact ⟨_, rfl⟩
      · split at h
        · cases h
          exact ⟨_, rfl⟩
        · cases h
  | delete_keys | delete_permission | set_group_owner | delete_group | delete_record | purge
  | set_webhook_owner | delete_webhook | delete_execution | enqueue =>
      intro w e h
      cases h

end Stmt

/-- A statement that refuses nothing ends in a value or in an error of the database. -/
theorem exec_ends {v : Vault} {l : Stmt} {Q : l.Reply → Vault → Prop} {E : AppError → Prop}
    (hu : ∀ t, l ≠ .upsert_txn t) (hd : ∀ t, l ≠ .delete_ip_txn t) (hE : ∀ d, E (.DbError d))
    (hQ : ∀ a w, Q a w) :
    Prog.Meets database (fun _ _ => True) Q (fun e _ => E e) (exec l) v := by
  refine meets_exec.mpr ⟨trivial, fun a _ _ => hQ a _, fun e he => ?_⟩
  obtain ⟨d, rfl⟩ := Stmt.plain hu hd v.toWorld e he
  exact hE d

/-- A ban refuses a locked record, and nothing else. -/
theorem UpsertTxn.error {t : UpsertTxn} {w : World} {e : AppError} (h : t.run w = .error e) :
    (∃ d, e = .DbError d) ∨
      ∃ r, w.record_at t.normalized_address = some r ∧ r.is_locked = true := by
  rcases atomic_bind_error.mp h with he | ⟨id, w', -, he⟩
  · rcases atomic_bind_error.mp he with he | ⟨found, w', hread, he⟩
    · cases he
    · obtain ⟨hfound, rfl⟩ : w.record_at t.normalized_address = found ∧ w = w' := by
        simpa [Txn.read] using hread
      cases found with
      | none => exact .inl (Txn.plain_insert_record _ w e he)
      | some r =>
          by_cases hl : r.is_locked = true
          · exact .inr ⟨r, hfound, hl⟩
          · simp only [hl] at he
            have plain : Plain (do
                let updated ← Txn.update_record r.id (t.change r)
                pure updated.id) :=
              Errs.bind (Txn.plain_update_record _ _) fun _ => Errs.pure _
            exact .inl (plain w e he)
  · have plain : Plain (do
        let mem_result ← Txn.link id t.target_group_id
        let action := if mem_result > 0 then "IP_ADD" else "IP_UPDATE"
        Txn.insert_audit (audit_row t.caller t.now action (some t.normalized_address)
          (some t.resolved_group_name) (some s!"Added IP to group. Whitelist: {t.is_whitelist}"))
        pure action) :=
      Errs.bind (Txn.plain_link _ _) fun _ => Errs.bind (Txn.plain_insert_audit _) fun _ =>
        Errs.pure _
    exact .inl (plain w' e he)

/-- A ban of a locked record is refused. -/
theorem UpsertTxn.refuses {t : UpsertTxn} {w : World} {r : IpRecord}
    (hr : w.record_at t.normalized_address = some r) (hl : r.is_locked = true) :
    t.run w = .error (.Forbidden "This IP is protected and cannot be modified") := by
  refine atomic_bind_error.mpr (.inl (atomic_bind_error.mpr (.inr ⟨some r, w, ?_, ?_⟩)))
  · rw [← hr]
    rfl
  · simp only [hl, if_true]
    rfl

end IpVault
